import Kernel4GameServer.Proofs.Net.ConnectionSteps
import Kernel4GameServer.Lib.Run

/-!
# `Kernel4GameServer.Proofs.Net.Disconnect`: no callback after the disconnect

`DoRecv` closes the pipe before it returns BREAK. `DoSend` returns BREAK without closing,
and `Run` closes behind it only where the event mask has an error bit. Without such a bit
BREAK is added while the socket is open and in the epoll set, and every later event may add
more. `sendBreakClosed` is the condition on an iteration of `DoSend` that excludes this.

* `Inv.step`: a step that meets the condition keeps the invariant, under which BREAK is
  added once, to a closed pipe, and last.
* `stray_of_not` and `Stray.step`: any other step makes a BREAK that is added to an open
  pipe.
* `orderly_of_sendBreakClosed`: the two directions for runs.
-/

set_option autoImplicit false

namespace Kernel4GameServer

open Lib

/-- What may come behind what in the log: nothing is added behind BREAK, and no callback
comes behind `OnDisconnect`. -/
def Logged.Before : Logged → Logged → Prop
  | .Add .BREAK _, .Add _ _ => False
  | .OnDisconnect, .OnRecv => False
  | .OnDisconnect, .OnDisconnect => False
  | _, _ => True

namespace Connection

/-- The order of the log, and that BREAK is added to a closed pipe only. -/
structure Orderly (log : List Logged) : Prop where
  order : log.Pairwise Logged.Before
  closed : ∀ c, .Add .BREAK c ∈ log → c = true

/-- The condition on a step: an iteration of `DoSend` returns BREAK only where the pipe is
closed already or the mask has an error bit, on which `Run` is about to close it. -/
def sendBreakClosed (st : Connection) : ConnAction → Bool
  | .send result =>
      match st.worker with
      | .inSend mask _ => !decide (st.pipe.sendBreaks result) || !st.registered || mask.hasError
      | _ => true
  | _ => true

/-! ### The worker and the events -/

/-- What the type in hand says about the pipe, by the place of the worker. BREAK in hand
means that the pipe is closed, or that `Run` is about to close it. -/
def WorkerInv (registered : Bool) : WorkerPc → Prop
  | .wait => True
  | .testRecv _ => registered = true
  | .inRecv _ _ => registered = true
  | .testSend _ t => t = .BREAK ↔ registered = false
  | .inSend _ t => t = .BREAK ↔ registered = false
  | .testClose mask t =>
      (registered = false → t = .BREAK) ∧
        (t = .BREAK → registered = false ∨ mask.hasError = true)
  | .add t => t = .BREAK → registered = false

/-- The events that are not finished, by the log: BREAK is the last of them, and after
`OnDisconnect` there are none. -/
structure EventsInv (events : List IoEventType) (log : List Logged) : Prop where
  broke : .BREAK ∈ events → Broke log
  last : ∀ front rest, events = front ++ .BREAK :: rest → rest = []
  disconnected : .OnDisconnect ∈ log → Broke log ∧ events = []

/-- The invariant of a run whose steps all meet `sendBreakClosed`. -/
structure Inv (st : Connection) : Prop where
  pipe : st.PipeInv
  worker : WorkerInv st.registered st.worker
  quiet : Broke st.log → st.worker = .wait ∧ st.registered = false
  events : EventsInv st.events st.log
  orderly : Orderly st.log

/-- An accepted connection satisfies the invariant. -/
theorem inv_init (lSocket : Nat) : (init lSocket).Inv where
  pipe := pipeInv_init lSocket
  worker := trivial
  quiet := by
    rintro ⟨c, hc⟩
    cases hc
  events :=
    { broke := fun h => by cases h
      last := fun front rest h => by
        have hlen := congrArg List.length h
        simp [events, init, MainPc.event] at hlen
      disconnected := fun h => by cases h }
  orderly := ⟨List.Pairwise.nil, fun c hc => by cases hc⟩

/-! ### The log -/

/-- An event of another type than BREAK may be added where BREAK has not been. -/
theorem Orderly.add {log : List Logged} (h : Orderly log) (hno : ¬ Broke log)
    (t : IoEventType) (c : Bool) (hc : t = .BREAK → c = true) :
    Orderly (log ++ [.Add t c]) where
  order := by
    refine List.pairwise_append.mpr ⟨h.order, List.pairwise_singleton _ _, ?_⟩
    intro x hx y hy
    rw [List.mem_singleton] at hy
    subst hy
    cases x with
    | Add t' c' =>
        cases t' with
        | BREAK => exact absurd ⟨c', hx⟩ hno
        | RECV => trivial
        | CONNECTED => trivial
        | CONNECTFAILD => trivial
        | COUNT => trivial
    | OnRecv => trivial
    | OnDisconnect => trivial
  closed c' hc' := by
    rcases List.mem_append.mp hc' with hc' | hc'
    · exact h.closed c' hc'
    · have heq := List.mem_singleton.mp hc'
      injection heq with ht hcc
      rw [hcc]
      exact hc ht.symm

/-- A callback may come where there was no `OnDisconnect`. -/
theorem Orderly.callback {log : List Logged} (h : Orderly log) (hno : .OnDisconnect ∉ log)
    {l : Logged} (hl : l = .OnRecv ∨ l = .OnDisconnect) : Orderly (log ++ [l]) where
  order := by
    refine List.pairwise_append.mpr ⟨h.order, List.pairwise_singleton _ _, ?_⟩
    intro x hx y hy
    rw [List.mem_singleton] at hy
    subst hy
    cases x with
    | Add t' c' => rcases hl with rfl | rfl <;> cases t' <;> trivial
    | OnRecv => rcases hl with rfl | rfl <;> trivial
    | OnDisconnect => exact absurd hx hno
  closed c hc := by
    rcases List.mem_append.mp hc with hc | hc
    · exact h.closed c hc
    · rcases hl with rfl | rfl <;> cases List.mem_singleton.mp hc

/-- An unfinished event and a BREAK at the end leave no room between them. -/
theorem last_append {events : List IoEventType} (hno : .BREAK ∉ events) (t : IoEventType) :
    ∀ front rest, events ++ [t] = front ++ .BREAK :: rest → rest = [] := by
  intro front rest h
  rcases List.eq_nil_or_concat rest with hnil | ⟨rest', x, hrest⟩
  · exact hnil
  · -- Otherwise the BREAK is one of the events in front.
    rw [hrest, List.concat_eq_append, ← List.cons_append, ← List.append_assoc] at h
    have hinit := (List.append_inj' h rfl).1
    exact absurd (hinit ▸ List.mem_append_right front List.mem_cons_self) hno

/-- What the main thread does keeps the events in line with the log. -/
theorem EventsInv.handles {events events' : List IoEventType} {log log' : List Logged}
    (h : EventsInv events log) (ho : Orderly log) (hh : Handles events log events' log') :
    EventsInv events' log' ∧ Orderly log' := by
  have hiff := hh.broke
  cases hh with
  | none => exact ⟨h, ho⟩
  | OnRecv hne =>
      have hno : .OnDisconnect ∉ log := fun hd => hne (h.disconnected hd).2
      refine ⟨⟨fun hb => hiff.mpr (h.broke hb), h.last, fun hd => ?_⟩, ho.callback hno (.inl rfl)⟩
      rcases List.mem_append.mp hd with hd | hd
      · exact absurd hd hno
      · cases List.mem_singleton.mp hd
  | finish t rest hev =>
      subst hev
      have hno : .OnDisconnect ∉ log := fun hd => by cases (h.disconnected hd).2
      have hrest : ∀ front rest', events' = front ++ .BREAK :: rest' → rest' = [] := by
        intro front rest' heq
        exact h.last (t :: front) rest' (by rw [heq]; rfl)
      by_cases ht : IoEventType.BREAK = t
      · subst ht
        have hnil : events' = [] := h.last [] events' rfl
        rw [if_pos rfl] at hiff ⊢
        refine ⟨⟨fun hb => ?_, hrest, fun _ => ⟨?_, hnil⟩⟩, ho.callback hno (.inr rfl)⟩
        · rw [hnil] at hb
          cases hb
        · exact hiff.mpr (h.broke List.mem_cons_self)
      · rw [if_neg ht]
        exact ⟨⟨fun hb => h.broke (List.mem_cons_of_mem _ hb), hrest,
          fun hd => absurd hd hno⟩, ho⟩

/-! ### The invariant -/

/-- While the worker is at work, BREAK has not been added. -/
theorem Inv.not_broke {st : Connection} (hi : st.Inv) (hw : st.worker ≠ .wait) :
    ¬ Broke st.log := fun hb => hw (hi.quiet hb).1

/-- A step that meets `sendBreakClosed` keeps the invariant. -/
theorem Inv.step {st st' : Connection} {a : ConnAction} (hi : st.Inv)
    (hc : st.sendBreakClosed a = true) (h : st.step a = some st') : st'.Inv := by
  have hm := step_moves h
  have hpipe := hi.pipe.step hm
  cases hm with
  | pass hp _ _ hreg hev hlog =>
      have hworker := hi.worker
      -- A worker that moves is at work, or the pipe is open: BREAK has not been added.
      have hno : ¬ Broke st.log := by
        intro hb
        obtain ⟨hw, hgone⟩ := hi.quiet hb
        generalize st'.worker = w' at hp
        rw [hw] at hp
        cases hp with
        | event mask hopen => exact absurd (hgone.symm.trans hopen) (by decide)
      refine ⟨hpipe, ?_, fun hb => absurd (hlog ▸ hb) hno, by rw [hev, hlog]; exact hi.events,
        hlog ▸ hi.orderly⟩
      rw [hreg]
      generalize hw : st.worker = w at hp hworker
      generalize st'.worker = w' at hp
      cases hp with
      | event mask hopen => exact hopen
      | doRecv mask => exact hworker
      | noRecv mask =>
          have hopen : st.registered = true := hworker
          simp [WorkerInv, hopen]
      | piece mask n n' => exact hworker
      | received mask n t ht =>
          have hopen : st.registered = true := hworker
          simp [WorkerInv, hopen, ht]
      | doSend mask t => exact hworker
      | noSend mask t => exact ⟨hworker.mpr, fun ht => .inl (hworker.mp ht)⟩
      | again mask t result _ _ => exact hworker
      | sent mask t result _ _ => exact ⟨hworker.mpr, fun ht => .inl (hworker.mp ht)⟩
      | broke mask t result ha hbreaks =>
          -- This is the step that the condition is about.
          subst ha
          simp only [sendBreakClosed, hw, hbreaks, decide_true, Bool.not_true, Bool.false_or,
            Bool.or_eq_true, Bool.not_eq_true'] at hc
          exact ⟨fun _ => rfl, fun _ => hc⟩
      | noError mask t herr =>
          intro ht
          rcases hworker.2 ht with hgone | hmask
          · exact hgone
          · rw [← Bool.not_eq_true]
            exact fun hopen => herr ⟨hmask, (hi.pipe.opened hopen).2⟩
      | nothing => trivial
  | ended mask n hw hst =>
      have hworker := hi.worker
      rw [hw] at hworker
      have hno := hi.not_broke (by rw [hw]; exact fun h => by cases h)
      obtain ⟨hgone, -⟩ := DoClose_registered hi.pipe
      obtain ⟨hev, hlog⟩ := DoClose_frame st
      subst hst
      refine ⟨hpipe, ?_, fun hb => absurd (hlog ▸ hb) hno, ?_, ?_⟩
      · show (IoEventType.BREAK = .BREAK ↔ st.DoClose.registered = false)
        exact ⟨fun _ => hgone, fun _ => rfl⟩
      · show EventsInv st.DoClose.events st.DoClose.log
        rw [hev, hlog]
        exact hi.events
      · show Orderly st.DoClose.log
        rw [hlog]
        exact hi.orderly
  | error mask t _ hw herr hstatus hst =>
      have hno := hi.not_broke (by rw [hw]; exact fun h => by cases h)
      obtain ⟨hgone, -⟩ := DoClose_registered hi.pipe
      obtain ⟨hev, hlog⟩ := DoClose_frame st
      subst hst
      refine ⟨hpipe, fun _ => hgone, fun hb => absurd (hlog ▸ hb) hno, ?_, ?_⟩
      · show EventsInv st.DoClose.events st.DoClose.log
        rw [hev, hlog]
        exact hi.events
      · show Orderly st.DoClose.log
        rw [hlog]
        exact hi.orderly
  | add t hw hst =>
      have hworker := hi.worker
      rw [hw] at hworker
      have hno := hi.not_broke (by rw [hw]; exact fun h => by cases h)
      have hnoev : .BREAK ∉ st.events := fun hb => hno (hi.events.broke hb)
      have hdis : .OnDisconnect ∉ st.log := fun hd => hno (hi.events.disconnected hd).1
      subst hst
      refine ⟨hpipe, trivial, ?_, ?_, ?_⟩
      · rintro ⟨c, hcb⟩
        rcases List.mem_append.mp hcb with hcb | hcb
        · exact absurd ⟨c, hcb⟩ hno
        · have heq := List.mem_singleton.mp hcb
          injection heq with ht _
          exact ⟨rfl, hworker ht.symm⟩
      · have hev : st.main.event ++ (st.queue ++ [t]) = st.events ++ [t] :=
          (List.append_assoc _ _ _).symm
        show EventsInv (st.main.event ++ (st.queue ++ [t])) _
        rw [hev]
        refine ⟨fun hb => ?_, last_append hnoev t, fun hd => ?_⟩
        · rcases List.mem_append.mp hb with hb | hb
          · exact absurd hb hnoev
          · rw [List.mem_singleton] at hb
            subst hb
            exact ⟨_, List.mem_append_right _ (List.mem_singleton.mpr rfl)⟩
        · rcases List.mem_append.mp hd with hd | hd
          · exact absurd hd hdis
          · cases List.mem_singleton.mp hd
      · refine hi.orderly.add hno t _ fun ht => ?_
        have hgone := hworker ht
        simp [isClosed, hgone, hi.pipe.gone hgone]
  | main _ hh _ _ hreg hw =>
      obtain ⟨hev, ho⟩ := hi.events.handles hi.orderly hh
      exact ⟨hpipe, by rw [hreg, hw]; exact hi.worker,
        fun hb => by rw [hreg, hw]; exact hi.quiet (hh.broke.mp hb), hev, ho⟩

/-! ### A BREAK that goes astray -/

/-- BREAK is on its way into the queue with the pipe open, or has been added so. -/
def Stray (st : Connection) : Prop :=
  (∃ mask, st.worker = .testClose mask .BREAK ∧ mask.hasError = false ∧ st.registered = true) ∨
    (st.worker = .add .BREAK ∧ st.registered = true) ∨ .Add .BREAK false ∈ st.log

/-- A step that does not meet the condition makes a stray BREAK. -/
theorem stray_of_not {st st' : Connection} {a : ConnAction} (hc : ¬ st.sendBreakClosed a = true)
    (h : st.step a = some st') : st'.Stray := by
  cases a with
  | send result =>
      simp only [sendBreakClosed] at hc
      split at hc
      · rename_i mask t hw
        simp only [Bool.or_eq_true, Bool.not_eq_true', decide_eq_false_iff_not, not_or,
          not_not, Bool.not_eq_true, Bool.not_eq_false] at hc
        obtain ⟨⟨hbreaks, hopen⟩, hmask⟩ := hc
        cases step_moves h with
        | pass hp _ _ hreg _ _ =>
            generalize hw' : st'.worker = w' at hp
            rw [hw] at hp
            cases hp with
            -- `DoSend` ends with BREAK, so only the last case is left.
            | again _ _ r ha hno =>
                cases ha
                exact absurd hbreaks hno
            | sent _ _ r ha hno =>
                cases ha
                exact absurd hbreaks hno
            | broke _ _ r ha _ => exact .inl ⟨mask, hw', hmask, hreg.trans hopen⟩
        | ended _ _ hw' _ =>
            rw [hw] at hw'
            cases hw'
        | error _ _ ha _ _ _ _ => cases ha
        | add _ hw' _ =>
            rw [hw] at hw'
            cases hw'
        | main ha _ _ _ _ _ => cases ha
      · exact absurd rfl hc
  | event mask => exact absurd rfl hc
  | testRecv => exact absurd rfl hc
  | recv result => exact absurd rfl hc
  | testSend => exact absurd rfl hc
  | testClose => exact absurd rfl hc
  | add => exact absurd rfl hc
  | Send src => exact absurd rfl hc
  | SendLocked results => exact absurd rfl hc
  | Close => exact absurd rfl hc
  | CloseLocked => exact absurd rfl hc
  | read => exact absurd rfl hc
  | round nUse => exact absurd rfl hc
  | finish => exact absurd rfl hc

/-- A stray BREAK stays one. -/
theorem Stray.step {st st' : Connection} {a : ConnAction} (hs : st.Stray)
    (h : st.step a = some st') : st'.Stray := by
  have hm := step_moves h
  rcases hs with ⟨mask, hw, hmask, hopen⟩ | ⟨hw, hopen⟩ | hlog
  · cases hm with
    | pass hp _ _ hreg _ _ =>
        generalize hw' : st'.worker = w' at hp
        rw [hw] at hp
        cases hp with
        | noError _ _ _ => exact .inr (.inl ⟨hw', hreg.trans hopen⟩)
    | ended _ _ hw' _ =>
        rw [hw] at hw'
        cases hw'
    | error _ _ _ hw' herr _ _ =>
        rw [hw] at hw'
        cases hw'
        -- The mask has no error, so `Run` does not close the pipe any more.
        exact absurd (hmask.symm.trans herr) (by decide)
    | add _ hw' _ =>
        rw [hw] at hw'
        cases hw'
    | main _ _ _ _ hreg hw' => exact .inl ⟨mask, hw'.trans hw, hmask, hreg.trans hopen⟩
  · cases hm with
    | pass hp _ _ _ _ _ =>
        generalize st'.worker = w' at hp
        rw [hw] at hp
        cases hp
    | ended _ _ hw' _ =>
        rw [hw] at hw'
        cases hw'
    | error _ _ _ hw' _ _ _ =>
        rw [hw] at hw'
        cases hw'
    | add t hw' hst =>
        rw [hw] at hw'
        cases hw'
        subst hst
        -- BREAK is added for a pipe that is still in the epoll set.
        refine .inr (.inr (List.mem_append_right _ ?_))
        simp [isClosed, hopen]
    | main _ _ _ _ hreg hw' => exact .inr (.inl ⟨hw'.trans hw, hreg.trans hopen⟩)
  · exact .inr (.inr (hm.log_mono hlog))

/-- When the disconnect of a connection is in order. In a run whose steps all meet
`sendBreakClosed`, BREAK is added at most once, to a pipe that is closed and out of the
epoll set, no event is added behind it, and no callback comes behind `OnDisconnect`. When
the worker is between two events, the log is in this order for no other run. -/
theorem orderly_iff (lSocket : Nat) (as : List ConnAction) (st : Connection)
    (h : run step (init lSocket) as = some st) :
    (AllSteps step (fun st a => st.sendBreakClosed a = true) (init lSocket) as →
      Orderly st.log) ∧
    (st.worker = .wait →
      (Orderly st.log ↔
        AllSteps step (fun st a => st.sendBreakClosed a = true) (init lSocket) as)) := by
  have hall : AllSteps step (fun _ _ => True) (init lSocket) as :=
    allSteps_of_forall (fun _ _ => trivial) _ _
  rcases run_good_or_bad (fun _ _ _ hi _ hc hs => Inv.step hi hc hs)
      (fun _ _ _ _ _ hc hs => stray_of_not hc hs) (fun _ _ _ hb _ hs => Stray.step hb hs)
      (inv_init lSocket) hall h with ⟨hsteps, hi⟩ | ⟨hsteps, hstray⟩
  · exact ⟨fun _ => hi.orderly, fun _ => ⟨fun _ => hsteps, fun _ => hi.orderly⟩⟩
  · refine ⟨fun hc => absurd hc hsteps, fun hw => ⟨fun ho => ?_, fun hc => absurd hc hsteps⟩⟩
    -- Between two events a stray BREAK is in the log.
    rcases hstray with ⟨mask, hw', -⟩ | ⟨hw', -⟩ | hlog
    · rw [hw] at hw'
      cases hw'
    · rw [hw] at hw'
      cases hw'
    · exact absurd (ho.closed false hlog) (by decide)

/-- The peer sends a byte and closes. -/
def peerCloses : List ConnAction :=
  [.event { EPOLLIN := true }, .testRecv, .recv (.data [1]), .recv .ended, .testSend, .testClose,
    .add, .read, .round 1, .round 0, .finish]

/-- The log of that run is in order. -/
theorem orderly_peerCloses :
    ∃ st, run step (init 7) peerCloses = some st ∧
      st.log = [.Add .BREAK true, .OnRecv, .OnDisconnect] ∧ Orderly st.log := by
  obtain ⟨st, hst, hlog⟩ : ∃ st, run step (init 7) peerCloses = some st ∧
      st.log = [.Add .BREAK true, .OnRecv, .OnDisconnect] := ⟨_, rfl, rfl⟩
  exact ⟨st, hst, hlog, (orderly_iff 7 peerCloses st hst).1 (by decide)⟩

/-- The main thread closes an idle connection, and the socket is writable. `DoSend` returns
BREAK on the empty stream. -/
def closeIdle : List ConnAction :=
  [.Close, .CloseLocked, .event { EPOLLOUT := true }, .testRecv, .testSend, .send .EAGAIN,
    .testClose, .add]

/-- BREAK is in the queue, and the socket is open and in the epoll set. -/
theorem closeIdle_strays :
    ∃ st, run step (init 7) closeIdle = some st ∧ st.queue = [.BREAK] ∧
      st.pipe.m_lSocketHandler = 7 ∧ st.registered = true ∧ ¬ Orderly st.log :=
  ⟨_, rfl, rfl, rfl, rfl, fun h => absurd (h.closed false (by decide)) (by decide)⟩

end Connection

end Kernel4GameServer
