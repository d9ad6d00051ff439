import Kernel4GameServer.Net.Epoll.Worker
import Kernel4GameServer.Proofs.Net.CPipe

/-!
# `Kernel4GameServer.Proofs.Net.ConnectionSteps`: what a step of a connection can do

`Moves st a st'` is everything a step can do to what the invariants of a connection speak
of: the status and the socket, the place of the worker, the events that are not finished,
and the log. The worker passes a test (`Passes`), closes the pipe or adds an event. The main
thread changes the status at most to `SS_WAITCLOSE` and handles events (`Handles`).
`step_moves` takes the step function apart once, and the invariants use `Moves` only.

`PipeInv` and `Broke` are what both results about the end of a connection start from: the
socket goes with the place in the epoll set, and BREAK in the log stays there.
-/

set_option autoImplicit false

namespace Kernel4GameServer

open Lib

/-- An action of the main thread. -/
def ConnAction.ofMain : ConnAction → Bool
  | .Send _ | .SendLocked _ | .Close | .CloseLocked | .read | .round _ | .finish => true
  | _ => false

/-- The iteration of `DoSend` with this result of `send` returns BREAK: `send` fails, or
nothing is left on a pipe that waits to be closed. -/
def CPipe.sendBreaks (p : CPipe) (result : SendResult) : Prop :=
  p.m_oSendStream.size > 0 ∧ result = .failed ∨
    ¬ p.m_oSendStream.size > 0 ∧ p.m_nStatus = .SS_WAITCLOSE

instance (p : CPipe) (result : SendResult) : Decidable (p.sendBreaks result) :=
  inferInstanceAs (Decidable (_ ∨ _))

/-- `sendBreaks` is exact, and an iteration returns no other type than BREAK and COUNT. -/
theorem CPipe.doSendRound_breaks {p : CPipe} {result : SendResult} {r : Sent} {e : DoSendEnd}
    (h : p.doSendRound result = some (r, e)) :
    e = .returned .BREAK ∧ p.sendBreaks result ∨
      (e = .again ∨ e = .returned .COUNT) ∧ ¬ p.sendBreaks result := by
  unfold doSendRound at h
  dsimp only at h
  unfold sendBreaks
  split at h
  · rename_i hsize
    cases result with
    | sent k =>
        dsimp only at h
        split at h
        · cases h
          exact .inr ⟨.inl rfl, by simp [hsize]⟩
        · cases h
    | EAGAIN =>
        cases h
        exact .inr ⟨.inr rfl, by simp [hsize]⟩
    | failed =>
        cases h
        exact .inl ⟨rfl, .inl ⟨hsize, rfl⟩⟩
  · rename_i hsize
    split at h
    · rename_i hstatus
      cases h
      exact .inl ⟨rfl, .inr ⟨hsize, hstatus⟩⟩
    · rename_i hstatus
      cases h
      exact .inr ⟨.inr rfl, by simp [hsize, hstatus]⟩

namespace Connection

/-- The way of the worker through `Run` where it neither closes the pipe nor adds an
event. -/
inductive Passes (st : Connection) (a : ConnAction) : WorkerPc → WorkerPc → Prop where
  | event (mask : EpollFlags) : st.registered = true → Passes st a .wait (.testRecv mask)
  | doRecv (mask : EpollFlags) : Passes st a (.testRecv mask) (.inRecv mask 0)
  | noRecv (mask : EpollFlags) : Passes st a (.testRecv mask) (.testSend mask .COUNT)
  | piece (mask : EpollFlags) (n n' : Nat) : Passes st a (.inRecv mask n) (.inRecv mask n')
  | received (mask : EpollFlags) (n : Nat) (t : IoEventType) : t ≠ .BREAK →
      Passes st a (.inRecv mask n) (.testSend mask t)
  | doSend (mask : EpollFlags) (t : IoEventType) :
      Passes st a (.testSend mask t) (.inSend mask t)
  | noSend (mask : EpollFlags) (t : IoEventType) :
      Passes st a (.testSend mask t) (.testClose mask t)
  | again (mask : EpollFlags) (t : IoEventType) (result : SendResult) : a = .send result →
      ¬ st.pipe.sendBreaks result → Passes st a (.inSend mask t) (.inSend mask t)
  | sent (mask : EpollFlags) (t : IoEventType) (result : SendResult) : a = .send result →
      ¬ st.pipe.sendBreaks result → Passes st a (.inSend mask t) (.testClose mask t)
  | broke (mask : EpollFlags) (t : IoEventType) (result : SendResult) : a = .send result →
      st.pipe.sendBreaks result → Passes st a (.inSend mask t) (.testClose mask .BREAK)
  | noError (mask : EpollFlags) (t : IoEventType) :
      ¬ (mask.hasError = true ∧ st.pipe.m_nStatus ≠ .SS_UNINITIALIZE) →
      Passes st a (.testClose mask t) (.add t)
  | nothing : Passes st a (.add .COUNT) .wait

/-- What the main thread does to the events that are not finished, and to the log. -/
inductive Handles (events : List IoEventType) (log : List Logged) :
    List IoEventType → List Logged → Prop where
  | none : Handles events log events log
  | OnRecv : events ≠ [] → Handles events log events (log ++ [.OnRecv])
  | finish (t : IoEventType) (rest : List IoEventType) : events = t :: rest →
      Handles events log rest (if .BREAK = t then log ++ [.OnDisconnect] else log)

/-- What a step can do. -/
inductive Moves (st : Connection) (a : ConnAction) (st' : Connection) : Prop where
  | pass : Passes st a st.worker st'.worker →
      st'.pipe.m_nStatus = st.pipe.m_nStatus →
      st'.pipe.m_lSocketHandler = st.pipe.m_lSocketHandler →
      st'.registered = st.registered → st'.events = st.events → st'.log = st.log →
      Moves st a st'
  | ended (mask : EpollFlags) (n : Nat) : st.worker = .inRecv mask n →
      st' = { st.DoClose with worker := .testSend mask .BREAK } → Moves st a st'
  | error (mask : EpollFlags) (t : IoEventType) : a = .testClose →
      st.worker = .testClose mask t → mask.hasError = true →
      st.pipe.m_nStatus ≠ .SS_UNINITIALIZE →
      st' = { st.DoClose with worker := .add t } → Moves st a st'
  | add (t : IoEventType) : st.worker = .add t →
      st' = { st with
        worker := .wait
        queue := st.queue ++ [t]
        log := st.log ++ [.Add t st.isClosed] } → Moves st a st'
  | main : a.ofMain = true → Handles st.events st.log st'.events st'.log →
      (st'.pipe.m_nStatus = st.pipe.m_nStatus ∨ st'.pipe.m_nStatus = .SS_WAITCLOSE) →
      st'.pipe.m_lSocketHandler = st.pipe.m_lSocketHandler →
      st'.registered = st.registered → st'.worker = st.worker → Moves st a st'

/-- A step of the worker. -/
theorem workerStep_moves {st st' : Connection} {a : ConnAction}
    (h : st.workerStep a = some st') : Moves st a st' := by
  cases a with
  | event mask =>
      simp only [workerStep] at h
      split at h
      · rename_i hw
        -- A socket that `epoll_wait` reports is a registered one.
        split at h
        · rename_i hreg
          cases h
          exact .pass (hw ▸ .event mask hreg) rfl rfl rfl rfl rfl
        · cases h
      · cases h
  | testRecv =>
      simp only [workerStep] at h
      split at h
      · rename_i mask hw
        split at h
        · cases h
          exact .pass (hw ▸ .doRecv mask) rfl rfl rfl rfl rfl
        · cases h
          exact .pass (hw ▸ .noRecv mask) rfl rfl rfl rfl rfl
      · cases h
  | recv result =>
      simp only [workerStep] at h
      split at h
      · rename_i mask n hw
        cases result with
        | data piece =>
            -- The loop of `DoRecv` goes on after a piece, and the buffer has room for it.
            dsimp only at h
            split at h
            · cases h
              exact .pass (hw ▸ .piece mask n _) rfl rfl rfl rfl rfl
            · cases h
        | EAGAIN =>
            cases h
            exact .pass (hw ▸ .received mask n _ (by split <;> decide)) rfl rfl rfl rfl rfl
        | ended =>
            cases h
            exact .ended mask n hw rfl
      · cases h
  | testSend =>
      simp only [workerStep] at h
      split at h
      · rename_i mask t hw
        split at h
        · cases h
          exact .pass (hw ▸ .doSend mask t) rfl rfl rfl rfl rfl
        · cases h
          exact .pass (hw ▸ .noSend mask t) rfl rfl rfl rfl rfl
      · cases h
  | send result =>
      simp only [workerStep] at h
      split at h
      · rename_i mask t hw
        obtain ⟨⟨r, e⟩, hr, rfl⟩ := Option.map_eq_some_iff.mp h
        have hby := CPipe.doSendRound_sentBy hr
        rcases CPipe.doSendRound_breaks hr with ⟨rfl, hb⟩ | ⟨rfl | rfl, hb⟩
        · -- The type that `Run` goes on with is BREAK, whatever it was before.
          have htype : (if t ≠ .BREAK ∧ IoEventType.BREAK ≠ .COUNT then IoEventType.BREAK else t)
              = .BREAK := by
            cases t <;> rfl
          refine .pass ?_ hby.status hby.socket rfl rfl rfl
          show Passes st _ st.worker (.testClose mask _)
          rw [htype, hw]
          exact .broke mask t result rfl hb
        · refine .pass ?_ hby.status hby.socket rfl rfl rfl
          show Passes st _ st.worker st.worker
          rw [hw]
          -- A partial send: the loop of `DoSend` comes round again.
          exact .again mask t result rfl hb
        · have htype : (if t ≠ .BREAK ∧ IoEventType.COUNT ≠ .COUNT then IoEventType.COUNT else t)
              = t := if_neg fun hand => hand.2 rfl
          refine .pass ?_ hby.status hby.socket rfl rfl rfl
          show Passes st _ st.worker (.testClose mask _)
          rw [htype, hw]
          exact .sent mask t result rfl hb
      · cases h
  | testClose =>
      simp only [workerStep] at h
      split at h
      · rename_i mask t hw
        split at h
        · rename_i herr
          cases h
          exact .error mask t rfl hw herr.1 herr.2 rfl
        · rename_i herr
          cases h
          exact .pass (hw ▸ .noError mask t herr) rfl rfl rfl rfl rfl
      · cases h
  | add =>
      simp only [workerStep] at h
      split at h
      · rename_i t hw
        split at h
        · cases h
          exact .add t hw rfl
        · -- COUNT is no event, and nothing is added for it.
          rename_i ht
          cases h
          have hcount : t = .COUNT := Decidable.not_not.mp ht
          exact .pass (by rw [hw, hcount]; exact .nothing) rfl rfl rfl rfl rfl
      · cases h
  | Send src => cases h
  | SendLocked results => cases h
  | Close => cases h
  | CloseLocked => cases h
  | read => cases h
  | round nUse => cases h
  | finish => cases h

/-- A step inside `Send` or `Close`. -/
theorem callStep_moves {st st' : Connection} {a : ConnAction} (h : st.callStep a = some st') :
    Moves st a st' := by
  cases a with
  | Send src =>
      simp only [callStep] at h
      split at h
      · cases h
        by_cases hstatus : st.pipe.m_nStatus = .SS_ESTABLISHED
        · rw [CPipe.sendIn_accepted hstatus]
          exact .main rfl .none (.inl rfl) rfl rfl rfl
        · rw [CPipe.sendIn_refused hstatus]
          exact .main rfl .none (.inl rfl) rfl rfl rfl
      · cases h
  | SendLocked results =>
      simp only [callStep] at h
      split at h
      · obtain ⟨r, hr, rfl⟩ := Option.map_eq_some_iff.mp h
        have hby := CPipe.sendSection_sentBy hr
        exact .main rfl .none (.inl hby.status) hby.socket rfl rfl
      · cases h
  | Close =>
      simp only [callStep] at h
      split at h
      · cases h
        exact .main rfl .none (.inr rfl) rfl rfl rfl
      · cases h
  | CloseLocked =>
      simp only [callStep] at h
      split at h
      · cases h
        exact .main rfl .none (.inl rfl) rfl rfl rfl
      · cases h
  | event mask => cases h
  | testRecv => cases h
  | recv result => cases h
  | testSend => cases h
  | send result => cases h
  | testClose => cases h
  | add => cases h
  | read => cases h
  | round nUse => cases h
  | finish => cases h

/-- A step of the main thread in `Processing`. -/
theorem mainStep_moves {st st' : Connection} {a : ConnAction} (h : st.mainStep a = some st') :
    Moves st a st' := by
  cases a with
  | read =>
      simp only [mainStep] at h
      split at h
      · rename_i t queue _ hmain hqueue
        -- The event leaves the queue, and the main thread holds it: the events are the same.
        cases h
        refine .main rfl ?_ (.inl rfl) rfl rfl rfl
        have hev : st.events = t :: queue := by
          rw [events, hmain, hqueue]
          rfl
        show Handles st.events st.log (t :: queue) st.log
        rw [hev]
        exact .none
      · cases h
  | round nUse =>
      simp only [mainStep] at h
      split at h
      · rename_i t _ hmain
        have hev : st.events = t :: st.queue := by
          rw [events, hmain]
          rfl
        split at h
        · cases h
          refine .main rfl ?_ (.inl rfl) rfl rfl rfl
          have hev' : (if 0 ≠ nUse then MainPc.draining t else .drained t).event ++ st.queue
              = st.events := by
            rw [hev]
            split <;> rfl
          show Handles st.events st.log (_ ++ st.queue) (st.log ++ [.OnRecv])
          rw [hev']
          exact .OnRecv (by rw [hev]; exact List.cons_ne_nil _ _)
        · cases h
          refine .main rfl ?_ (.inl rfl) rfl rfl rfl
          show Handles st.events st.log (t :: st.queue) st.log
          rw [hev]
          exact .none
      · cases h
  | finish =>
      simp only [mainStep] at h
      split at h
      · rename_i t _ hmain
        cases h
        refine .main rfl ?_ (.inl rfl) rfl rfl rfl
        exact .finish t st.queue (by rw [events, hmain]; rfl)
      · cases h
  | event mask => cases h
  | testRecv => cases h
  | recv result => cases h
  | testSend => cases h
  | send result => cases h
  | testClose => cases h
  | add => cases h
  | Send src => cases h
  | SendLocked results => cases h
  | Close => cases h
  | CloseLocked => cases h

/-- Everything a step can do. -/
theorem step_moves {st st' : Connection} {a : ConnAction} (h : st.step a = some st') :
    Moves st a st' := by
  cases a with
  | event mask => exact workerStep_moves h
  | testRecv => exact workerStep_moves h
  | recv result => exact workerStep_moves h
  | testSend => exact workerStep_moves h
  | send result => exact workerStep_moves h
  | testClose => exact workerStep_moves h
  | add => exact workerStep_moves h
  | Send src => exact callStep_moves h
  | SendLocked results => exact callStep_moves h
  | Close => exact callStep_moves h
  | CloseLocked => exact callStep_moves h
  | read => exact mainStep_moves h
  | round nUse => exact mainStep_moves h
  | finish => exact mainStep_moves h

/-- `DoClose` touches neither the events nor the log. -/
theorem DoClose_frame (st : Connection) :
    st.DoClose.events = st.events ∧ st.DoClose.log = st.log := by
  unfold DoClose
  split <;> exact ⟨rfl, rfl⟩

/-- A step takes nothing out of the log. -/
theorem Moves.log_mono {st st' : Connection} {a : ConnAction} (hm : Moves st a st')
    {l : Logged} (h : l ∈ st.log) : l ∈ st'.log := by
  cases hm with
  | pass _ _ _ _ _ hlog => rwa [hlog]
  | ended _ _ _ hst =>
      subst hst
      show l ∈ st.DoClose.log
      rwa [(DoClose_frame st).2]
  | error _ _ _ _ _ _ hst =>
      subst hst
      show l ∈ st.DoClose.log
      rwa [(DoClose_frame st).2]
  | add _ _ hst =>
      subst hst
      exact List.mem_append_left _ h
  | main _ hh _ _ _ _ =>
      generalize st'.log = log' at hh ⊢
      generalize st'.events = events' at hh
      cases hh with
      | none => exact h
      | OnRecv _ => exact List.mem_append_left _ h
      | finish t _ _ =>
          split
          · exact List.mem_append_left _ h
          · exact h

/-! ### The socket and the log -/

/-- A pipe in the epoll set has a socket and is not closed, a pipe out of it has no
socket. -/
structure PipeInv (st : Connection) : Prop where
  opened : st.registered = true →
    st.pipe.m_lSocketHandler ≠ -1 ∧ st.pipe.m_nStatus ≠ .SS_UNINITIALIZE
  gone : st.registered = false → st.pipe.m_lSocketHandler = -1

/-- `DoClose` closes a pipe that it finds in the epoll set. -/
theorem DoClose_registered {st : Connection} (h : st.PipeInv) :
    st.DoClose.registered = false ∧ st.DoClose.pipe.m_lSocketHandler = -1 := by
  unfold DoClose
  split
  · rename_i hstatus
    exact ⟨rfl, by rw [CPipe.DoClose, if_pos hstatus]⟩
  · rename_i hstatus
    -- The status says that it is closed.
    have hreg : st.registered = false := by
      rw [← Bool.not_eq_true]
      exact fun hreg => hstatus (h.opened hreg).2
    exact ⟨hreg, h.gone hreg⟩

/-- Every step keeps `PipeInv`. -/
theorem PipeInv.step {st st' : Connection} {a : ConnAction} (h : st.PipeInv)
    (hm : Moves st a st') : st'.PipeInv := by
  cases hm with
  | pass _ hstatus hsocket hreg _ _ =>
      refine ⟨?_, ?_⟩
      · rw [hreg, hsocket, hstatus]
        exact h.opened
      · rw [hreg, hsocket]
        exact h.gone
  | ended mask n _ hst =>
      obtain ⟨hreg, hsocket⟩ := DoClose_registered h
      subst hst
      exact ⟨fun ht => absurd (hreg.symm.trans ht) (by decide), fun _ => hsocket⟩
  | error mask t _ _ _ _ hst =>
      obtain ⟨hreg, hsocket⟩ := DoClose_registered h
      subst hst
      exact ⟨fun ht => absurd (hreg.symm.trans ht) (by decide), fun _ => hsocket⟩
  | add t _ hst =>
      subst hst
      exact ⟨h.opened, h.gone⟩
  | main _ _ hstatus hsocket hreg _ =>
      refine ⟨?_, ?_⟩
      · rw [hreg, hsocket]
        intro ht
        refine ⟨(h.opened ht).1, ?_⟩
        rcases hstatus with hs | hs
        · rw [hs]
          exact (h.opened ht).2
        · rw [hs]
          decide
      · rw [hreg, hsocket]
        exact h.gone

/-- An accepted connection satisfies `PipeInv`. -/
theorem pipeInv_init (lSocket : Nat) : (init lSocket).PipeInv where
  opened _ := by
    refine ⟨?_, fun h => by cases h⟩
    show (lSocket : Int) ≠ -1
    omega
  gone h := by cases h

/-- BREAK has been added. -/
def Broke (log : List Logged) : Prop := ∃ c, .Add .BREAK c ∈ log

/-- A longer log has BREAK where the shorter one has it. -/
theorem Broke.append {log : List Logged} (h : Broke log) (l : Logged) : Broke (log ++ [l]) := by
  obtain ⟨c, hc⟩ := h
  exact ⟨c, List.mem_append_left _ hc⟩

/-- An entry that is no BREAK adds none. -/
theorem broke_append {log : List Logged} {l : Logged} (hl : ∀ c, l ≠ .Add .BREAK c) :
    Broke (log ++ [l]) ↔ Broke log := by
  constructor
  · rintro ⟨c, hc⟩
    rcases List.mem_append.mp hc with hc | hc
    · exact ⟨c, hc⟩
    · exact absurd (List.mem_singleton.mp hc).symm (hl c)
  · exact fun h => h.append l

/-- What the main thread does adds no BREAK. -/
theorem Handles.broke {events events' : List IoEventType} {log log' : List Logged}
    (h : Handles events log events' log') : Broke log' ↔ Broke log := by
  cases h with
  | none => exact Iff.rfl
  | OnRecv _ => exact broke_append fun c hc => by cases hc
  | finish t rest _ =>
      split
      · exact broke_append fun c hc => by cases hc
      · exact Iff.rfl

end Connection

end Kernel4GameServer
