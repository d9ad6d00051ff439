import Kernel4GameServer.Public.TPool
import Kernel4GameServer.Public.Tools

/-!
# `Kernel4GameServer.Timermgr.Timermgr`: the timer wheel

`kernel/timermgr`: `TimeNode`, `TimeSlot` and `Timermgr`. A timer is a `TimeNode` from a
pool, linked into the `TimeSlot` of its next tick. The slots are in a map by their number,
which is the time since `m_lStartRunTick` in units of `m_nTimeScale`.

The code that runs callbacks, `TimeSlot::Run` and `TimeNode::OnTimer`, is in
`Timermgr.Steps`. A slot is the value in the map and not an object of its own pool: it is
created by `SlotAdd`, given back by `SlotRun`, and only the map points to it.

A pointer to an `ITimer` and a pointer to a node are `Nat`. `TimeNode.call` is not a field of
the source. It says which call of `StartTimer` the node is for.
-/

set_option autoImplicit false

namespace Kernel4GameServer

/-- `TimerStatus`. -/
inductive TimerStatus where
  | TIMER_STATUS_NOT_FOUND
  | TIMER_STATUS_RUN
  | TIMER_STATUS_PAUSE
  | TIMER_STATUS_CLOSE
  deriving DecidableEq, Repr

/-- `LOOP_FOREVER`. -/
def LOOP_FOREVER : Int := -1

/-- `TimeNode`. -/
structure TimeNode where
  m_byStatus : TimerStatus
  m_nID : Int
  m_nInterval : Int
  m_nHitCount : Int
  m_nMaxHitCount : Int
  m_lNextRunTick : Int
  m_pTimer : Nat
  m_pNext : Option Nat
  call : Nat
  deriving DecidableEq, Repr

/-- `TimeSlot`. -/
structure TimeSlot where
  m_pHead : Option Nat
  m_nLen : Int
  deriving DecidableEq, Repr

/-- A node of zero bytes. -/
def TimeNode.zero : TimeNode where
  m_byStatus := .TIMER_STATUS_NOT_FOUND
  m_nID := 0
  m_nInterval := 0
  m_nHitCount := 0
  m_nMaxHitCount := 0
  m_lNextRunTick := 0
  m_pTimer := 0
  m_pNext := none
  call := 0

/-- `operator size_t` of `nodeinfo(id, timer)`, by which the node map compares its keys. -/
def nodeinfo (id : Int) (timer : Nat) : Int := id + timer

/-- `Timermgr` with the statics of `TimeNode`. -/
structure Timermgr where
  s_oTimeNodeMap : List (Int × Nat)
  s_oTimeNodePool : TPool TimeNode
  m_lStartRunTick : Int
  m_nTimeScale : Int
  m_nCursor : Int
  m_oTimeSlotMap : Int → Option TimeSlot

/-- The `count` of `TPool<TimeNode>`: the units of a new block. -/
def TIMENODE_COUNT : Nat := 64

namespace TimeNode

/-- `Initialize(id, timer, interval, loop, delay)` at the time `now`. -/
def Initialize (call : Nat) (now : Int) (id : Int) (timer : Nat)
    (interval loop delay : Int) : TimeNode :=
  { zero with
    m_byStatus := .TIMER_STATUS_RUN
    m_nID := id
    m_pTimer := timer
    m_nInterval := interval
    m_nMaxHitCount := loop
    m_pNext := none
    m_lNextRunTick := now + delay
    call }

/-- The count of a firing in `OnTimer`, with the next tick. -/
def hit (n : TimeNode) : TimeNode :=
  { n with
    m_lNextRunTick := n.m_lNextRunTick + n.m_nInterval
    m_nHitCount := n.m_nHitCount + 1 }

end TimeNode

namespace Timermgr

/-- The manager behind `Initialize()` at the time `start`. -/
def init (start : Int) : Timermgr where
  s_oTimeNodeMap := []
  s_oTimeNodePool := .init .zero 64
  m_lStartRunTick := start
  m_nTimeScale := 20
  m_nCursor := 0
  m_oTimeSlotMap _ := none

/-- The node at `p`. -/
def node (m : Timermgr) (p : Nat) : TimeNode := m.s_oTimeNodePool.unit p

/-- A write to the node at `p`. -/
def setNode (m : Timermgr) (p : Nat) (n : TimeNode) : Timermgr :=
  { m with s_oTimeNodePool := m.s_oTimeNodePool.set p n }

/-- A write to the slot map. -/
def setSlot (m : Timermgr) (nCursor : Int) (slot : Option TimeSlot) : Timermgr :=
  { m with m_oTimeSlotMap := fun key => if key = nCursor then slot else m.m_oTimeSlotMap key }

/-- `TimeNode::FindNode(id, timer, remove)`. A node that is found gets the status CLOSE. -/
def FindNode (m : Timermgr) (id : Int) (timer : Nat) (remove : Bool) :
    Option Nat × Timermgr :=
  match m.s_oTimeNodeMap.lookup (nodeinfo id timer) with
  | none => (none, m)
  | some p =>
      let m := m.setNode p { m.node p with m_byStatus := .TIMER_STATUS_CLOSE }
      (some p,
        if remove then
          { m with
            s_oTimeNodeMap := m.s_oTimeNodeMap.filter fun e => e.1 ≠ nodeinfo id timer }
        else m)

/-- `TimeNode::SetTimer(id, timer, interval, loop, delay)` at the time `now`. The parameters
are `s32`. -/
def SetTimer (m : Timermgr) (call : Nat) (now : Int) (id : Int) (timer : Nat)
    (interval loop delay : Int) : Option (Nat × Timermgr) :=
  -- A node that is found for the pair is closed.
  let m := (m.FindNode id timer true).2
  (m.s_oTimeNodePool.Create .zero TIMENODE_COUNT).map fun r =>
    (r.1, { m with s_oTimeNodePool := r.2 }.setNode r.1
      (.Initialize call now id timer interval loop delay))

/-- `TimeNode::Release()`. -/
def Release (m : Timermgr) (p : Nat) : Timermgr :=
  let m := m.setNode p .zero
  { m with s_oTimeNodePool := m.s_oTimeNodePool.Recover p }

/-- `SlotAdd(nCursor, pNode)`, with `TimeSlot::Add`. -/
def SlotAdd (m : Timermgr) (nCursor : Int) (p : Nat) : Timermgr :=
  let slot := (m.m_oTimeSlotMap nCursor).getD ⟨none, 0⟩
  (m.setNode p { m.node p with m_pNext := slot.m_pHead }).setSlot nCursor
    (some { m_pHead := some p, m_nLen := slot.m_nLen + 1 })

/-- `ResetTimeNode(pNode)`. The division truncates, and the quotient is narrowed to `s32`. -/
def ResetTimeNode (m : Timermgr) (p : Nat) : Timermgr :=
  let nOffset := s32 (((m.node p).m_lNextRunTick - m.m_lStartRunTick).tdiv m.m_nTimeScale)
  m.SlotAdd nOffset p

/-- `StartTimer(id, timer, interval, delay, loop)` at the time `now`. `none` is a write
through the null pointer. -/
def StartTimer (m : Timermgr) (call : Nat) (now : Int) (id : Int) (timer : Nat)
    (interval delay loop : Int) : Option Timermgr :=
  (m.SetTimer call now id timer (s32 interval) (s32 loop) (s32 delay)).map fun r =>
    r.2.ResetTimeNode r.1

/-- `KillTimer(id, timer)`. -/
def KillTimer (m : Timermgr) (id : Int) (timer : Nat) : Timermgr := (m.FindNode id timer true).2

/-- The target of the cursor in a `Processing()` at the time `lTick`. -/
def target (m : Timermgr) (lTick : Int) : Int :=
  (s32 (lTick - m.m_lStartRunTick)).tdiv m.m_nTimeScale

end Timermgr

end Kernel4GameServer
