import Kernel4GameServer.Proofs.Net.ConnectionSteps
import Kernel4GameServer.Lib.Run

/-!
# `Kernel4GameServer.Proofs.Net.SilentClose`: when a closed pipe is reported

The error branch of `Run` closes the pipe and leaves `eventType` as it is. When neither
`DoRecv` nor `DoSend` of the same event returned BREAK, nothing tells the session.
`errorReported` is the condition on the error test that excludes this.

* `LogInv.step`: BREAK has been added exactly when it is waiting in the queue, is being
  handled, or `OnDisconnect` has been called.
* `ReportInv.step`: a step that meets the condition keeps a pipe that is out of the epoll
  set reported, or its BREAK in hand.
* `silent_of_not` and `Silent.step`: any other step closes the pipe silently, for good.
* `reported_iff`: the two directions for runs.
-/

set_option autoImplicit false

namespace Kernel4GameServer

open Lib

namespace Connection

/-- The session has been told of the end of the connection, or will be: BREAK is in the
queue or in the hands of the main thread, or `OnDisconnect` has been called. -/
def Reported (events : List IoEventType) (log : List Logged) : Prop :=
  .BREAK ∈ events ∨ .OnDisconnect ∈ log

instance (log : List Logged) : Decidable (Broke log) :=
  decidable_of_iff (.Add .BREAK true ∈ log ∨ .Add .BREAK false ∈ log) (by
    constructor
    · rintro (h | h)
      · exact ⟨true, h⟩
      · exact ⟨false, h⟩
    · rintro ⟨c, h⟩
      cases c with
      | true => exact .inl h
      | false => exact .inr h)

/-- The condition on a step: where the error branch of `Run` closes the pipe, the event type
in hand is BREAK, or BREAK has been added before. -/
def errorReported (st : Connection) : ConnAction → Bool
  | .testClose =>
      match st.worker with
      | .testClose mask t =>
          !(mask.hasError && decide (st.pipe.m_nStatus ≠ .SS_UNINITIALIZE)) ||
            decide (t = .BREAK) || decide (Broke st.log)
      | _ => true
  | _ => true

/-! ### The queue and the log -/

/-- BREAK has been added exactly when the disconnect is reported. -/
def LogInv (events : List IoEventType) (log : List Logged) : Prop :=
  Broke log ↔ Reported events log

/-- What the main thread does keeps BREAK reported. -/
theorem LogInv.handles {events events' : List IoEventType} {log log' : List Logged}
    (h : LogInv events log) (hh : Handles events log events' log') : LogInv events' log' := by
  have hiff := hh.broke
  unfold LogInv at h ⊢
  cases hh with
  | none => exact h
  | OnRecv _ =>
      rw [hiff, h, Reported, Reported]
      simp
  | finish t rest hev =>
      subst hev
      by_cases ht : IoEventType.BREAK = t
      · subst ht
        have hbroke : Broke log := h.mpr (.inl List.mem_cons_self)
        rw [if_pos rfl] at hiff ⊢
        exact ⟨fun _ => .inr (List.mem_append_right _ List.mem_cons_self),
          fun _ => hiff.mpr hbroke⟩
      · rw [if_neg ht, h, Reported, Reported, List.mem_cons, or_iff_right ht]

/-- An event that is added is in the log and in the queue. -/
theorem LogInv.add {events : List IoEventType} {log : List Logged} (h : LogInv events log)
    (t : IoEventType) (c : Bool) : LogInv (events ++ [t]) (log ++ [.Add t c]) := by
  by_cases ht : t = .BREAK
  · subst ht
    exact ⟨fun _ => .inl (List.mem_append_right _ List.mem_cons_self),
      fun _ => ⟨c, List.mem_append_right _ List.mem_cons_self⟩⟩
  · have hiff : Broke (log ++ [.Add t c]) ↔ Broke log :=
      broke_append fun c' heq => ht (by injection heq)
    have hne : IoEventType.BREAK ≠ t := fun heq => ht heq.symm
    unfold LogInv at h ⊢
    rw [hiff, h, Reported, Reported]
    simp [hne]

/-- Every step keeps `LogInv`. -/
theorem LogInv.step {st st' : Connection} {a : ConnAction} (h : LogInv st.events st.log)
    (hs : st.step a = some st') : LogInv st'.events st'.log := by
  cases step_moves hs with
  | pass _ _ _ _ hev hlog => rwa [hev, hlog]
  | ended mask n _ hst =>
      subst hst
      show LogInv st.DoClose.events st.DoClose.log
      rwa [(DoClose_frame st).1, (DoClose_frame st).2]
  | error mask t _ _ _ _ hst =>
      subst hst
      show LogInv st.DoClose.events st.DoClose.log
      rwa [(DoClose_frame st).1, (DoClose_frame st).2]
  | add t _ hst =>
      subst hst
      show LogInv (st.main.event ++ (st.queue ++ [t])) _
      rw [← List.append_assoc]
      exact h.add t _
  | main _ hh _ _ _ _ => exact h.handles hh

/-! ### The worker -/

/-- What a pipe out of the epoll set means, by the place of the worker: BREAK has been added
or is in hand. -/
def WorkerReports (registered : Bool) (log : List Logged) : WorkerPc → Prop
  | .wait => registered = false → Broke log
  | .testRecv _ => registered = true
  | .inRecv _ _ => registered = true
  | .testSend _ t => registered = false → t = .BREAK
  | .inSend _ t => registered = false → t = .BREAK
  | .testClose _ t => registered = false → t = .BREAK
  | .add t => registered = false → t = .BREAK ∨ Broke log

/-- The invariant of a run whose steps all meet `errorReported`. -/
structure ReportInv (st : Connection) : Prop where
  pipe : st.PipeInv
  worker : WorkerReports st.registered st.log st.worker

/-- A step that meets `errorReported` keeps the invariant. -/
theorem ReportInv.step {st st' : Connection} {a : ConnAction} (hi : st.ReportInv)
    (hc : st.errorReported a = true) (h : st.step a = some st') : st'.ReportInv := by
  have hm := step_moves h
  refine ⟨hi.pipe.step hm, ?_⟩
  have hworker := hi.worker
  cases hm with
  | pass hp _ _ hreg _ hlog =>
      rw [hreg, hlog]
      generalize st.worker = w at hp hworker
      generalize st'.worker = w' at hp
      cases hp with
      | event mask hopen => exact hopen
      | doRecv mask => exact hworker
      | noRecv mask => exact fun hgone => absurd (hworker.symm.trans hgone) (by decide)
      | piece mask n n' => exact hworker
      | received mask n t _ => exact fun hgone => absurd (hworker.symm.trans hgone) (by decide)
      | doSend mask t => exact hworker
      | noSend mask t => exact hworker
      | again mask t result _ _ => exact hworker
      | sent mask t result _ _ => exact hworker
      | broke mask t result _ _ => exact fun _ => rfl
      | noError mask t _ => exact fun hgone => .inl (hworker hgone)
      | nothing =>
          intro hgone
          rcases hworker hgone with ht | hb
          · cases ht
          · exact hb
  | ended mask n _ hst =>
      subst hst
      exact fun _ => rfl
  | error mask t ha hw herr hstatus hst =>
      -- This is the step that the condition is about.
      subst ha
      subst hst
      intro _
      show t = .BREAK ∨ Broke st.DoClose.log
      rw [(DoClose_frame st).2]
      simp only [errorReported, hw, herr, Bool.true_and, Bool.or_eq_true, Bool.not_eq_true',
        decide_eq_true_eq, decide_eq_false_iff_not] at hc
      rcases hc with (hno | ht) | hb
      · exact absurd hstatus hno
      · exact .inl ht
      · exact .inr hb
  | add t hw hst =>
      subst hst
      rw [hw] at hworker
      intro hgone
      rcases hworker hgone with ht | hb
      · subst ht
        exact ⟨_, List.mem_append_right _ List.mem_cons_self⟩
      · exact hb.append _
  | main _ hh _ _ hreg hw =>
      have hiff := hh.broke
      rw [hreg, hw]
      generalize st.worker = w at hworker
      cases w with
      | wait => exact fun hgone => hiff.mpr (hworker hgone)
      | testRecv mask => exact hworker
      | inRecv mask n => exact hworker
      | testSend mask t => exact hworker
      | inSend mask t => exact hworker
      | testClose mask t => exact hworker
      | add t => exact fun hgone => (hworker hgone).imp_right hiff.mpr

/-! ### A silent close -/

/-- The pipe is out of the epoll set, BREAK has not been added, and the worker has none in
hand. -/
structure Silent (st : Connection) : Prop where
  gone : st.registered = false
  unbroken : ¬ Broke st.log
  worker : st.worker = .wait ∨ ∃ t, t ≠ .BREAK ∧ st.worker = .add t

/-- A step that does not meet the condition closes the pipe silently. -/
theorem silent_of_not {st st' : Connection} {a : ConnAction} (hi : st.ReportInv)
    (hc : ¬ st.errorReported a = true) (h : st.step a = some st') : st'.Silent := by
  cases a with
  | testClose =>
      simp only [errorReported] at hc
      split at hc
      · rename_i mask t hw
        simp only [Bool.or_eq_true, Bool.not_eq_true', Bool.and_eq_false_iff, decide_eq_true_eq,
          decide_eq_false_iff_not, not_or, not_not, Bool.not_eq_false] at hc
        obtain ⟨⟨⟨herr, hstatus⟩, ht⟩, hno⟩ := hc
        cases step_moves h with
        | pass hp _ _ _ _ _ =>
            generalize st'.worker = w' at hp
            rw [hw] at hp
            cases hp with
            -- The error was seen, so `Run` does not go on.
            | noError _ _ hnot => exact absurd ⟨herr, hstatus⟩ hnot
        | ended _ _ hw' _ =>
            rw [hw] at hw'
            cases hw'
        | error mask' t' _ hw' _ _ hst =>
            rw [hw] at hw'
            cases hw'
            subst hst
            -- `DoClose` unregisters the socket, and `Run` adds no BREAK for it.
            refine ⟨(DoClose_registered hi.pipe).1, ?_, .inr ⟨t, ht, rfl⟩⟩
            show ¬ Broke st.DoClose.log
            rwa [(DoClose_frame st).2]
        | add _ hw' _ =>
            rw [hw] at hw'
            cases hw'
        | main ha _ _ _ _ _ => cases ha
      · exact absurd rfl hc
  | send result => exact absurd rfl hc
  | event mask => exact absurd rfl hc
  | testRecv => exact absurd rfl hc
  | recv result => exact absurd rfl hc
  | testSend => exact absurd rfl hc
  | add => exact absurd rfl hc
  | Send src => exact absurd rfl hc
  | SendLocked results => exact absurd rfl hc
  | Close => exact absurd rfl hc
  | CloseLocked => exact absurd rfl hc
  | read => exact absurd rfl hc
  | round nUse => exact absurd rfl hc
  | finish => exact absurd rfl hc

/-- After a silent close no event can come, and the silence lasts. -/
theorem Silent.step {st st' : Connection} {a : ConnAction} (hs : st.Silent)
    (h : st.step a = some st') : st'.Silent := by
  obtain ⟨hgone, hno, hworker⟩ := hs
  cases step_moves h with
  | pass hp _ _ hreg _ hlog =>
      refine ⟨hreg.trans hgone, hlog ▸ hno, ?_⟩
      generalize st'.worker = w' at hp ⊢
      rcases hworker with hw | ⟨t, -, hw⟩
      · rw [hw] at hp
        cases hp with
        | event mask hopen => exact absurd (hgone.symm.trans hopen) (by decide)
      · rw [hw] at hp
        cases hp with
        | nothing => exact .inl rfl
  | ended mask n hw' _ =>
      rcases hworker with hw | ⟨t, -, hw⟩
      · rw [hw] at hw'
        cases hw'
      · rw [hw] at hw'
        cases hw'
  | error mask t _ hw' _ _ _ =>
      rcases hworker with hw | ⟨t, -, hw⟩
      · rw [hw] at hw'
        cases hw'
      · rw [hw] at hw'
        cases hw'
  | add t hw' hst =>
      rcases hworker with hw | ⟨t', ht, hw⟩
      · rw [hw] at hw'
        cases hw'
      · rw [hw] at hw'
        cases hw'
        subst hst
        refine ⟨hgone, ?_, .inl rfl⟩
        exact fun hb => hno ((broke_append fun c heq => ht (by injection heq)).mp hb)
  | main _ hh _ _ hreg hw =>
      exact ⟨hreg.trans hgone, fun hb => hno (hh.broke.mp hb), hw ▸ hworker⟩

/-- When a close is reported. Take a state in which `DoClose` has closed the pipe and the
worker is between two events. The socket is closed, and the session has been told or BREAK
is on its way to it exactly when all steps of the run meet `errorReported`. Where the main
thread is between two events, BREAK on its way is BREAK in the queue. -/
theorem reported_iff (lSocket : Nat) (as : List ConnAction) (st : Connection)
    (h : run step (init lSocket) as = some st) (hw : st.worker = .wait)
    (hstatus : st.pipe.m_nStatus = .SS_UNINITIALIZE) :
    st.pipe.m_lSocketHandler = -1 ∧
    (Reported st.events st.log ↔
      AllSteps step (fun st a => st.errorReported a = true) (init lSocket) as) ∧
    (st.main = .idle → st.events = st.queue) := by
  have hpipe : st.PipeInv :=
    run_invariant (fun _ _ _ hi hs => PipeInv.step hi (step_moves hs)) (pipeInv_init lSocket) h
  have hlog : LogInv st.events st.log :=
    run_invariant (I := fun st => LogInv st.events st.log) (fun _ _ _ hi hs => LogInv.step hi hs)
      (by simp [LogInv, Broke, Reported, init, events, MainPc.event]) h
  have hgone : st.registered = false := by
    rw [← Bool.not_eq_true]
    exact fun hopen => (hpipe.opened hopen).2 hstatus
  have hinit : (init lSocket).ReportInv := ⟨pipeInv_init lSocket, fun h => by cases h⟩
  have hall : AllSteps step (fun _ _ => True) (init lSocket) as :=
    allSteps_of_forall (fun _ _ => trivial) _ _
  refine ⟨hpipe.gone hgone, ?_, fun hmain => by rw [events, hmain]; rfl⟩
  rw [← show Broke st.log ↔ Reported st.events st.log from hlog]
  rcases run_good_or_bad (fun _ _ _ hi _ hc hs => ReportInv.step hi hc hs)
      (fun _ _ _ hi _ hc hs => silent_of_not hi hc hs) (fun _ _ _ hb _ hs => Silent.step hb hs)
      hinit hall h with ⟨hsteps, hi⟩ | ⟨hsteps, hsilent⟩
  · have hworker := hi.worker
    rw [hw] at hworker
    exact ⟨fun _ => hsteps, fun _ => hworker hgone⟩
  · exact ⟨fun hb => absurd hb hsilent.unbroken, fun hc => absurd hc hsteps⟩

/-- The peer closes while the connection is idle. -/
def peerHangsUp : List ConnAction :=
  [.event { EPOLLIN := true, EPOLLRDHUP := true }, .testRecv, .recv .ended, .testSend, .testClose,
    .add]

/-- BREAK is on its way to the session behind that run. -/
theorem reported_peerHangsUp :
    ∃ st, run step (init 7) peerHangsUp = some st ∧ st.pipe.m_lSocketHandler = -1 ∧
      Reported st.events st.log := by
  obtain ⟨st, hst, hw, hstatus⟩ : ∃ st, run step (init 7) peerHangsUp = some st ∧
      st.worker = .wait ∧ st.pipe.m_nStatus = .SS_UNINITIALIZE := ⟨_, rfl, rfl, rfl⟩
  obtain ⟨hsocket, hiff, -⟩ := reported_iff 7 peerHangsUp st hst hw hstatus
  exact ⟨st, hst, hsocket, hiff.mpr (by decide)⟩

/-- A `send` of the main thread fails, which arms the socket for errors only, and the error
event follows. -/
def sendFails : List ConnAction :=
  [.Send [1], .SendLocked [.failed], .event .errors, .testRecv, .testSend, .testClose, .add]

/-- The pipe is closed behind that run, no event was added, and the session hears nothing. -/
theorem sendFails_silent :
    ∃ st, run step (init 7) sendFails = some st ∧ st.worker = .wait ∧ st.main = .idle ∧
      st.pipe.m_nStatus = .SS_UNINITIALIZE ∧ st.pipe.m_lSocketHandler = -1 ∧ st.queue = [] ∧
      st.log = [] ∧ ¬ Reported st.events st.log :=
  ⟨_, rfl, rfl, rfl, rfl, rfl, rfl, rfl, by rintro (h | h) <;> cases h⟩

end Connection

end Kernel4GameServer
