import Kernel4GameServer.Lib.Run
import Kernel4GameServer.Timermgr.Timermgr

/-!
# `Kernel4GameServer.Timermgr.Steps`: runs of the timer manager

`Timermgr::Processing` with `SlotRun`, `TimeSlot::Run` and `TimeNode::OnTimer` runs on one
thread, and the callbacks of the timers come in between. `TimerPc` says where it is. Outside
of `Processing` and inside a callback the user may call `StartTimer` and `KillTimer`; the
step `go` runs the code to the next such place or to the next loop head.

The clock is the environment: a call that reads it says what it reads, which is never less
than what was read before. `calls` records the arguments of every `StartTimer`, `trace` what
happens in which order.
-/

set_option autoImplicit false

namespace Kernel4GameServer

open Lib

/-- The arguments of a `StartTimer`, narrowed as the node has them, and the time of the
call. -/
structure StartCall where
  t0 : Int
  id : Int
  timer : Nat
  interval : Int
  delay : Int
  loop : Int
  deriving DecidableEq, Repr

namespace StartCall

/-- The due time of the firing `k` of a timer, counted from zero. -/
def due (c : StartCall) (k : Nat) : Int := c.t0 + c.delay + k * c.interval

/-- Its slot. -/
def slot (c : StartCall) (start : Int) (k : Nat) : Int := (c.due k - start) / 20

/-- The loop count allows the firing `k`. -/
def Allows (c : StartCall) (k : Nat) : Prop := c.loop ≤ 0 ∨ k < c.loop

end StartCall

/-- What happens, in terms of the calls of `StartTimer`. -/
inductive TimerEvent where
  | StartTimer (call : Nat)
  | KillTimer (id : Int) (timer : Nat)
  | Processing (lTick : Int)
  | OnStart (call : Nat) (lTick : Int)
  | OnTime (call : Nat) (lTick : Int)
  | OnTerminate (call : Nat) (nonviolent : Bool) (lTick : Int)
  | Release (call : Nat)
  deriving DecidableEq, Repr

/-- Where `Processing` is: outside, at the head of the loop over the slots, at the head of
the loop over the nodes of a slot, or in a callback of the node `pNode`. `lTick` and
`nCursor` are its local variables. -/
inductive TimerPc where
  | idle
  | cursor (lTick nCursor : Int)
  | slot (lTick nCursor : Int)
  | onStart (lTick nCursor : Int) (pNode : Nat)
  | onTime (lTick nCursor : Int) (pNode : Nat)
  | onTerminate (lTick nCursor : Int) (pNode : Nat)
  deriving DecidableEq, Repr

/-- The user runs: outside of `Processing` or in a callback. -/
def TimerPc.user : TimerPc → Bool
  | .idle => true
  | .cursor _ _ => false
  | .slot _ _ => false
  | .onStart _ _ _ => true
  | .onTime _ _ _ => true
  | .onTerminate _ _ _ => true

/-- The timer manager in a run. -/
structure TimerState where
  mgr : Timermgr
  pc : TimerPc
  clock : Int
  calls : List StartCall
  trace : List TimerEvent

/-- The steps. -/
inductive TimerAction where
  | StartTimer (now : Int) (id : Int) (timer : Nat) (interval delay loop : Int)
  | KillTimer (id : Int) (timer : Nat)
  | Processing (now : Int)
  | go
  deriving DecidableEq, Repr

namespace TimerState

/-- The timer manager behind `Initialize()`. -/
def init (start : Int) : TimerState where
  mgr := .init start
  pc := .idle
  clock := start
  calls := []
  trace := []

/-- The head of the loop `for (; m_nCursor < nCursor; m_nCursor++)` in `Processing`, with
the first part of `SlotRun`. -/
def goCursor (st : TimerState) (lTick nCursor : Int) : TimerState :=
  if st.mgr.m_nCursor < nCursor then
    match st.mgr.m_oTimeSlotMap st.mgr.m_nCursor with
    | some _ => { st with pc := .slot lTick nCursor }
    -- No slot has this number, and the cursor goes on.
    | none => { st with mgr := { st.mgr with m_nCursor := st.mgr.m_nCursor + 1 } }
  else { st with pc := .idle }

/-- The head of the loop `while (m_pHead != NULL)` in `TimeSlot::Run`, up to the first
callback of `OnTimer`. When the slot is empty `SlotRun` gives it back. -/
def goSlot (st : TimerState) (lTick nCursor : Int) : Option TimerState :=
  (st.mgr.m_oTimeSlotMap st.mgr.m_nCursor).map fun slot =>
    match slot.m_pHead with
    | none =>
        { st with
          mgr := { st.mgr.setSlot st.mgr.m_nCursor none with
            m_nCursor := st.mgr.m_nCursor + 1 }
          pc := .cursor lTick nCursor }
    | some p =>
        let n := st.mgr.node p
        let mgr := st.mgr.setSlot st.mgr.m_nCursor (some { slot with m_pHead := n.m_pNext })
        match n.m_byStatus with
        | .TIMER_STATUS_RUN =>
            -- `OnTimer`: `OnStart` comes before the first `OnTime`.
            if 0 = n.m_nHitCount then
              { st with
                mgr
                pc := .onStart lTick nCursor p
                trace := st.trace ++ [.OnStart n.call lTick] }
            else
              { st with
                mgr
                pc := .onTime lTick nCursor p
                trace := st.trace ++ [.OnTime n.call lTick] }
        -- A timer that was killed gets no more callbacks.
        | .TIMER_STATUS_CLOSE =>
            { st with mgr := mgr.Release p, trace := st.trace ++ [.Release n.call] }
        | _ => { st with mgr }

/-- `OnTimer` behind `OnStart`. -/
def goStarted (st : TimerState) (lTick nCursor : Int) (p : Nat) : TimerState :=
  { st with
    pc := .onTime lTick nCursor p
    trace := st.trace ++ [.OnTime (st.mgr.node p).call lTick] }

/-- `OnTimer` behind `OnTime`: the count, and the end of the timer or its next slot. -/
def goHit (st : TimerState) (lTick nCursor : Int) (p : Nat) : TimerState :=
  let n := (st.mgr.node p).hit
  let mgr := st.mgr.setNode p n
  if n.m_nHitCount = n.m_nMaxHitCount ∧ n.m_nMaxHitCount ≠ LOOP_FOREVER then
    { st with
      mgr
      pc := .onTerminate lTick nCursor p
      trace := st.trace ++ [.OnTerminate n.call true lTick] }
  else { st with mgr := mgr.ResetTimeNode p, pc := .slot lTick nCursor }

/-- `OnTimer` behind `OnTerminate`. -/
def goTerminated (st : TimerState) (lTick nCursor : Int) (p : Nat) : TimerState :=
  let n := st.mgr.node p
  { st with
    mgr := (st.mgr.FindNode n.m_nID n.m_pTimer true).2.Release p
    pc := .slot lTick nCursor
    trace := st.trace ++ [.Release n.call] }

/-- The code runs on. -/
def go (st : TimerState) : Option TimerState :=
  match st.pc with
  | .idle => none
  | .cursor lTick nCursor => some (st.goCursor lTick nCursor)
  | .slot lTick nCursor => st.goSlot lTick nCursor
  | .onStart lTick nCursor p => some (st.goStarted lTick nCursor p)
  | .onTime lTick nCursor p => some (st.goHit lTick nCursor p)
  | .onTerminate lTick nCursor p => some (st.goTerminated lTick nCursor p)

/-- One step. -/
def step (st : TimerState) : TimerAction → Option TimerState
  | .StartTimer now id timer interval delay loop =>
      if st.pc.user ∧ st.clock ≤ now then
        (st.mgr.StartTimer st.calls.length now id timer interval delay loop).map fun mgr =>
          { st with
            mgr
            clock := now
            calls := st.calls ++ [⟨now, id, timer, s32 interval, s32 delay, s32 loop⟩]
            trace := st.trace ++ [.StartTimer st.calls.length] }
      else none
  | .KillTimer id timer =>
      if st.pc.user then
        some { st with
          mgr := st.mgr.KillTimer id timer
          trace := st.trace ++ [.KillTimer id timer] }
      else none
  | .Processing now =>
      if st.pc = .idle ∧ st.clock ≤ now then
        some { st with
          pc := .cursor now (st.mgr.target now)
          clock := now
          trace := st.trace ++ [.Processing now] }
      else none
  | .go => st.go

/-- The contract of `StartTimer`: an interval is at least 100 ms, a delay is not negative,
both are `s32`, and so is the number of the first slot. -/
def Admissible (st : TimerState) : TimerAction → Prop
  | .StartTimer now _ _ interval delay _ =>
      100 ≤ interval ∧ interval < 2147483648 ∧ 0 ≤ delay ∧ delay < 2147483648 ∧
        now + delay - st.mgr.m_lStartRunTick < 42949672960
  | _ => True

instance (st : TimerState) : ∀ a, Decidable (st.Admissible a)
  | .StartTimer _ _ _ _ _ _ => inferInstanceAs (Decidable (_ ∧ _))
  | .KillTimer _ _ => isTrue trivial
  | .Processing _ => isTrue trivial
  | .go => isTrue trivial

/-- The contract without the assertion in `StartTimer`, which is compiled away where `_DEBUG`
is not defined: an interval may be shorter than a slot. -/
def Fitting (st : TimerState) : TimerAction → Prop
  | .StartTimer now _ _ interval delay _ =>
      1 ≤ interval ∧ interval < 2147483648 ∧ 0 ≤ delay ∧ delay < 2147483648 ∧
        now + delay - st.mgr.m_lStartRunTick < 42949672960
  | _ => True

instance (st : TimerState) : ∀ a, Decidable (st.Fitting a)
  | .StartTimer _ _ _ _ _ _ => inferInstanceAs (Decidable (_ ∧ _))
  | .KillTimer _ _ => isTrue trivial
  | .Processing _ => isTrue trivial
  | .go => isTrue trivial

end TimerState

end Kernel4GameServer
