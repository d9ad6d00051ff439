import Kernel4GameServer.Lib.KeyedMap
import Kernel4GameServer.Timermgr.Timermgr

/-!
# `Kernel4GameServer.Timermgr.Registry`: the registry of the timers by id and pointer

`kernel/timermgr/TimeNode.h` and `TimeNode.cpp`. A `TIMENODE_MAP` compares its keys through
`operator size_t`, in 64 bits. A key keeps the pair that it was stored with. `Timermgr` has the
same comparison without the wrap, for the map of its own runs, which stays empty.

`pairStep` is the registry as it is meant, with the pairs themselves as keys.
-/

set_option autoImplicit false

namespace Kernel4GameServer

open Lib

/-- `class nodeinfo`. -/
structure NodeInfo where
  id : BitVec 32
  p : BitVec 64
  deriving DecidableEq, Repr

/-- `operator size_t`. The `s32` is extended to the `s64` of the pointer. -/
def NodeInfo.sizeT (info : NodeInfo) : BitVec 64 := info.id.signExtend 64 + info.p

/-- `TimeNode`, as far as the registry reads and writes it. -/
structure RegistryNode where
  m_nID : BitVec 32
  m_pTimer : BitVec 64
  m_byStatus : TimerStatus
  deriving DecidableEq, Repr

/-- `nodeinfo(id, timer)` of a node. -/
def RegistryNode.info (node : RegistryNode) : NodeInfo := ⟨node.m_nID, node.m_pTimer⟩

/-- `SetStatus(TIMER_STATUS_CLOSE)`. -/
def RegistryNode.close (node : RegistryNode) : RegistryNode :=
  { node with m_byStatus := .TIMER_STATUS_CLOSE }

/-- `TIMENODE_MAP`. -/
abbrev TIMENODE_MAP := List (NodeInfo × RegistryNode)

namespace TIMENODE_MAP

/-- `FindNode(id, timer, remove)`: the node, whether its `TASSERT` holds, and the map. -/
def FindNode (map : TIMENODE_MAP) (id : BitVec 32) (timer : BitVec 64) (remove : Bool) :
    Option RegistryNode × Bool × TIMENODE_MAP :=
  match KeyedMap.find NodeInfo.sizeT map ⟨id, timer⟩ with
  | none => (none, true, map)
  | some itor =>
      (some itor.2.close, decide (timer = itor.2.m_pTimer),
        if remove then KeyedMap.apply NodeInfo.sizeT map (.erase ⟨id, timer⟩)
        else KeyedMap.modify NodeInfo.sizeT map ⟨id, timer⟩ RegistryNode.close)

/-- An operation on the map. A node is stored under its own id and timer, by `insert` or through
`operator[]`. -/
inductive Action where
  | insert (node : RegistryNode)
  | assign (node : RegistryNode)
  | FindNode (id : BitVec 32) (timer : BitVec 64) (remove : Bool)
  | erase (id : BitVec 32) (timer : BitVec 64)
  deriving DecidableEq, Repr

/-- The pair of an operation. -/
def Action.pair : Action → NodeInfo
  | .insert node | .assign node => node.info
  | .FindNode id timer _ | .erase id timer => ⟨id, timer⟩

/-- An operation as one of a map. -/
def Action.op : Action → KeyedMap.Op NodeInfo RegistryNode
  | .insert node => .insert node.info node
  | .assign node => .assign node.info node
  | .FindNode id timer true => .erase ⟨id, timer⟩
  | .FindNode id timer false => .update ⟨id, timer⟩ RegistryNode.close
  | .erase id timer => .erase ⟨id, timer⟩

/-- One operation. -/
def step (map : TIMENODE_MAP) : Action → Option TIMENODE_MAP
  | .insert node => some (KeyedMap.apply NodeInfo.sizeT map (.insert node.info node))
  | .assign node => some (KeyedMap.apply NodeInfo.sizeT map (.assign node.info node))
  | .FindNode id timer remove => some (map.FindNode id timer remove).2.2
  | .erase id timer => some (KeyedMap.apply NodeInfo.sizeT map (.erase ⟨id, timer⟩))

/-- One operation on a map with the pairs as keys. -/
def pairStep (map : TIMENODE_MAP) (a : Action) : Option TIMENODE_MAP :=
  KeyedMap.step id map a.op

/-- The `TASSERT` of an operation holds. -/
def Asserts (map : TIMENODE_MAP) : Action → Prop
  | .FindNode id timer remove => (map.FindNode id timer remove).2.1 = true
  | _ => True

/-- An operation on a pair finds no entry of another pair, leaves all of them, and its `TASSERT`
holds. -/
structure Identifies (map : TIMENODE_MAP) (a : Action) : Prop where
  finds : ∀ e, KeyedMap.find NodeInfo.sizeT map a.pair = some e → e.1 = a.pair
  keeps : ∀ e ∈ map, e.1 ≠ a.pair → ∀ map', step map a = some map' → e ∈ map'
  asserts : map.Asserts a

/-- No other pair with an entry has the sum of the pair of the operation. -/
def Apart (map : TIMENODE_MAP) (a : Action) : Prop :=
  ∀ e ∈ map, e.1 ≠ a.pair → e.1.sizeT ≠ a.pair.sizeT

instance (map : TIMENODE_MAP) (a : Action) : Decidable (map.Apart a) :=
  inferInstanceAs (Decidable (∀ e ∈ map, e.1 ≠ a.pair → e.1.sizeT ≠ a.pair.sizeT))

end TIMENODE_MAP

end Kernel4GameServer
