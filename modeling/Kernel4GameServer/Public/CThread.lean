import Mathlib.Tactic.Common

/-!
# `Kernel4GameServer.Public.CThread`: a thread and the call that stops it

`Public/CThread.h` with the protocol by which `Logger` and `epollWorker` stop their thread.
`Start` creates a thread, which may run at once or much later. `Run` sets the status to WORKING
when it begins, and when its loop sees STOPPING it sets the status to STOPED and returns.
`Terminate` is the same text in both classes: it does nothing when the status is not WORKING;
else it sets STOPPING and sleeps until it reads STOPED.

What `Run` does in its loop is up to the class. A thread that is inside of `Run` is `running`.
-/

set_option autoImplicit false

namespace Kernel4GameServer

/-- The status of a thread. -/
inductive ThreadStatus where
  | THREAD_STOPED
  | THREAD_WORKING
  | THREAD_STOPPING
  deriving DecidableEq, Repr

/-- Where the thread is: not created, created and not yet scheduled, inside of `Run`, or
behind it. -/
inductive RunPc where
  | absent
  | created
  | running
  | returned
  deriving DecidableEq, Repr

/-- Where the caller of `Terminate` is: before it, behind the test of the status, in the loop
that waits for STOPED, or behind it with the result. -/
inductive TerminatePc where
  | idle
  | storing
  | waiting
  | returned (result : Bool)
  deriving DecidableEq, Repr

/-- A thread and the caller of its `Terminate`. -/
structure CThread where
  m_nStatus : ThreadStatus
  run : RunPc
  terminate : TerminatePc
  deriving DecidableEq, Repr

namespace CThread

/-- A thread behind its constructor. -/
def init : CThread where
  m_nStatus := .THREAD_STOPED
  run := .absent
  terminate := .idle

/-- `Start()`. -/
def Start (t : CThread) : Option CThread :=
  match t.run with
  | .absent => some { t with run := .created }
  | _ => none

/-- `Run` begins: `m_nStatus = THREAD_WORKING;`. -/
def begin (t : CThread) : Option CThread :=
  match t.run with
  | .created => some { t with m_nStatus := .THREAD_WORKING, run := .running }
  | _ => none

/-- The end of `Run`: `m_nStatus = THREAD_STOPED; return;`. -/
def finish (t : CThread) : CThread := { t with m_nStatus := .THREAD_STOPED, run := .returned }

/-- The next step of `Terminate()`. -/
def Terminate (t : CThread) : Option CThread :=
  match t.terminate with
  | .idle =>
      if t.m_nStatus = .THREAD_WORKING then some { t with terminate := .storing }
      else some { t with terminate := .returned false }
  | .storing => some { t with m_nStatus := .THREAD_STOPPING, terminate := .waiting }
  | .waiting =>
      if t.m_nStatus = .THREAD_STOPED then some { t with terminate := .returned true }
      else some t
  | .returned _ => none

/-- How the status fits the places of the two threads. Only a caller that read WORKING stores
STOPPING, so `Run` never stores WORKING over it. -/
def Inv (t : CThread) : Prop :=
  match t.run with
  | .absent | .created =>
      t.m_nStatus = .THREAD_STOPED ∧ (t.terminate = .idle ∨ t.terminate = .returned false)
  | .running =>
      match t.terminate with
      | .waiting => t.m_nStatus = .THREAD_STOPPING
      | .returned true => False
      | _ => t.m_nStatus = .THREAD_WORKING
  | .returned =>
      t.m_nStatus = .THREAD_STOPED ∧ (t.terminate = .waiting ∨ t.terminate = .returned true)

/-- A thread that is not created. -/
theorem init_inv : init.Inv := ⟨rfl, .inl rfl⟩

variable {t t' : CThread}

/-- A thread that is inside of `Run` and sees STOPPING has a caller that waits. -/
theorem Inv.waiting (h : t.Inv) (hrun : t.run = .running)
    (hstatus : t.m_nStatus = .THREAD_STOPPING) : t.terminate = .waiting := by
  obtain ⟨status, run, terminate⟩ := t
  obtain rfl : run = .running := hrun
  obtain rfl : status = .THREAD_STOPPING := hstatus
  cases terminate with
  | idle => cases h
  | storing => cases h
  | waiting => rfl
  | returned result => cases result <;> cases h

/-- When a caller waits that reads STOPED, the thread has returned. -/
theorem Inv.returned (h : t.Inv) (hterminate : t.terminate = .waiting)
    (hstatus : t.m_nStatus = .THREAD_STOPED) : t.run = .returned := by
  obtain ⟨status, run, terminate⟩ := t
  obtain rfl : terminate = .waiting := hterminate
  obtain rfl : status = .THREAD_STOPED := hstatus
  cases run with
  | absent => rcases h.2 with hpc | hpc <;> cases hpc
  | created => rcases h.2 with hpc | hpc <;> cases hpc
  | running => cases h
  | returned => rfl

/-- A caller that reads WORKING has a thread that is inside of `Run`. -/
theorem Inv.running (h : t.Inv) (hstatus : t.m_nStatus = .THREAD_WORKING) : t.run = .running := by
  obtain ⟨status, run, terminate⟩ := t
  obtain rfl : status = .THREAD_WORKING := hstatus
  cases run with
  | absent => cases h.1
  | created => cases h.1
  | running => rfl
  | returned => cases h.1

/-- A caller that is about to store STOPPING has a thread that is inside of `Run`, with the
status WORKING. -/
theorem Inv.storing (h : t.Inv) (hterminate : t.terminate = .storing) :
    t.run = .running ∧ t.m_nStatus = .THREAD_WORKING := by
  obtain ⟨status, run, terminate⟩ := t
  obtain rfl : terminate = .storing := hterminate
  cases run with
  | absent => rcases h.2 with hpc | hpc <;> cases hpc
  | created => rcases h.2 with hpc | hpc <;> cases hpc
  | running => exact ⟨rfl, h⟩
  | returned => rcases h.2 with hpc | hpc <;> cases hpc

/-- `Start` keeps the invariant. -/
theorem Inv.start (h : t.Inv) (hstep : t.Start = some t') : t'.Inv := by
  obtain ⟨status, run, terminate⟩ := t
  cases run with
  | absent =>
      obtain rfl := Option.some.inj hstep
      exact h
  | created => cases hstep
  | running => cases hstep
  | returned => cases hstep

/-- `Start` does nothing to the caller of `Terminate`. -/
theorem Start_terminate (hstep : t.Start = some t') : t'.terminate = t.terminate := by
  obtain ⟨status, run, terminate⟩ := t
  cases run with
  | absent =>
      obtain rfl := Option.some.inj hstep
      rfl
  | created => cases hstep
  | running => cases hstep
  | returned => cases hstep

/-- The beginning of `Run` keeps the invariant: nobody waits for a thread that has not
begun. -/
theorem Inv.begin (h : t.Inv) (hstep : t.begin = some t') : t'.Inv := by
  obtain ⟨status, run, terminate⟩ := t
  cases run with
  | absent => cases hstep
  | created =>
      obtain ⟨-, hterminate⟩ := h
      obtain rfl := Option.some.inj hstep
      rcases hterminate with hpc | hpc <;> obtain rfl := hpc <;> exact rfl
  | running => cases hstep
  | returned => cases hstep

/-- The end of a `Run` that saw STOPPING keeps the invariant. -/
theorem Inv.finish (h : t.Inv) (hrun : t.run = .running)
    (hstatus : t.m_nStatus = .THREAD_STOPPING) : t.finish.Inv :=
  ⟨rfl, .inl (h.waiting hrun hstatus)⟩

/-- A step of `Terminate` keeps the invariant. -/
theorem Inv.terminate (h : t.Inv) (hstep : t.Terminate = some t') : t'.Inv := by
  unfold Terminate at hstep
  split at hstep
  · rename_i hpc
    split at hstep
    · rename_i hstatus
      obtain rfl := Option.some.inj hstep
      have hrun := h.running hstatus
      unfold Inv
      rw [hrun]
      exact hstatus
    · rename_i hstatus
      obtain rfl := Option.some.inj hstep
      obtain ⟨status, run, terminate⟩ := t
      obtain rfl : terminate = .idle := hpc
      cases run with
      | absent => exact ⟨h.1, .inr rfl⟩
      | created => exact ⟨h.1, .inr rfl⟩
      | running => exact absurd h hstatus
      | returned => rcases h.2 with hpc | hpc <;> cases hpc
  · rename_i hpc
    obtain rfl := Option.some.inj hstep
    unfold Inv
    rw [(h.storing hpc).1]
  · rename_i hpc
    split at hstep
    · rename_i hstatus
      obtain rfl := Option.some.inj hstep
      have hrun := h.returned hpc hstatus
      unfold Inv
      rw [hrun]
      exact ⟨hstatus, .inr rfl⟩
    · obtain rfl := Option.some.inj hstep
      exact h
  · cases hstep

end CThread

end Kernel4GameServer
