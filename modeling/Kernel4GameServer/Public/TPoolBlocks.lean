import Kernel4GameServer.Lib.Run
import Kernel4GameServer.Public.TPool

/-!
# `Kernel4GameServer.Public.TPoolBlocks`: the object pool with its blocks

`Public/TPool.h` down to the blocks: the array `m_pUnitAry` of pointers to the blocks, the
`type_info` records with their `status` and `len`, and the free list of pointers to them.
`TPool` is the pool without the blocks.

Without `_DEBUG` a `TASSERT` is empty, so `Recover` of a unit that is not in use is a call
that returns. `Recover` reads `len` and `status` behind its pointer, so it is defined for
the pointers to units only.
-/

set_option autoImplicit false

namespace Kernel4GameServer.TPool

/-- The values of `status`. -/
inductive UnitStatus where
  | IN_USE
  | IS_FREE
  deriving DecidableEq, Repr

/-- `type_info`. -/
structure TypeInfo (type : Type) where
  unit : type
  len : Nat
  status : UnitStatus

/-- A pointer to a unit: the allocation that `NEW type_info[_count]` made and the position
in it. -/
structure UnitPtr where
  block : Nat
  i : Nat
  deriving DecidableEq, Repr

/-- `TPool<type, lock, size, count>` without its lock. `heap` holds the blocks in the order of
their allocation; `m_pUnitAry` is `none` while it is `NULL`. -/
structure Blocks (type : Type) (sizeof : Nat) where
  m_list : List UnitPtr
  m_sBlockCount : Nat
  m_pUnitAry : Option (List Nat)
  heap : List (List (TypeInfo type))

namespace Blocks

variable {type : Type} {sizeof : Nat}

/-- What a pointer to a unit points to. -/
def deref (pool : Blocks type sizeof) (p : UnitPtr) : Option (TypeInfo type) :=
  pool.heap[p.block]?.bind fun block => block[p.i]?

/-- The status of a unit. -/
def status (pool : Blocks type sizeof) (p : UnitPtr) : Option UnitStatus :=
  (pool.deref p).map TypeInfo.status

/-- `p->status = s;` -/
def setStatus (pool : Blocks type sizeof) (p : UnitPtr) (s : UnitStatus) : Blocks type sizeof :=
  { pool with
    heap := pool.heap.modify p.block fun block =>
      block.modify p.i fun info => { info with status := s } }

/-- The pointers that `AllocNewBlob` copies from the old array to the new one. -/
def copied (pool : Blocks type sizeof) : List Nat :=
  match pool.m_pUnitAry with
  | none => []
  | some ary => ary.take pool.m_sBlockCount

/-- `AllocNewBlob(_count)`: the new array is longer by one pointer, to a new block, and the
free list by the units of that block. -/
def AllocNewBlob (pool : Blocks type sizeof) (new : type) (_count : Nat) : Blocks type sizeof :=
  let block := pool.heap.length
  { m_list := pool.m_list ++ (List.range _count).map (UnitPtr.mk block)
    m_sBlockCount := pool.m_sBlockCount + 1
    m_pUnitAry := some (pool.copied ++ [block])
    heap := pool.heap ++ [List.replicate _count ⟨new, sizeof, .IS_FREE⟩] }

/-- The constructor `TPool()`. -/
def init (new : type) (size : Nat) : Blocks type sizeof :=
  AllocNewBlob ⟨[], 0, none, []⟩ new size

/-- `Create()`. `none` is the null pointer. -/
def Create (pool : Blocks type sizeof) (new : type) (count : Nat) :
    Option UnitPtr × Blocks type sizeof :=
  let pool := if pool.m_list.isEmpty then pool.AllocNewBlob new count else pool
  match pool.m_list with
  | [] => (none, pool)
  | itor :: rest => (some itor, { pool.setStatus itor .IN_USE with m_list := rest })

/-- `CheckAddr(pUnit)` behind the pointer. -/
def CheckAddr (sizeof : Nat) (info : TypeInfo type) : Bool := info.len == sizeof

/-- `Recover(pUnit)` for a pointer to a unit. -/
def Recover (pool : Blocks type sizeof) (p : UnitPtr) : Option (Bool × Blocks type sizeof) :=
  (pool.deref p).map fun info =>
    if !CheckAddr sizeof info || info.status ≠ .IN_USE then (false, pool)
    else
      (true, { pool.setStatus p .IS_FREE with
        m_list := pool.m_list ++ [p] })

end Blocks

/-- A call on a pool. `new` is what the constructor of the type makes of a new unit. -/
inductive PoolCall (type : Type) where
  | Create (new : type)
  | Recover (p : UnitPtr)

/-- A call that has returned, with its value. -/
inductive PoolEvent where
  | created (p : Option UnitPtr)
  | recovered (p : UnitPtr) (ret : Bool)
  deriving DecidableEq, Repr

namespace PoolEvent

/-- Whether `q` belongs to a caller behind a call, from whether it did in front of it. -/
def owned (q : UnitPtr) (before : Bool) : PoolEvent → Bool
  | .created p => before || p == some q
  | .recovered p _ => before && p != q

/-- What a pool is for. It gives out units that belong to no caller, and takes back those
that do. -/
def Ok (owns : UnitPtr → Bool) : PoolEvent → Prop
  | .created p => ∃ q, p = some q ∧ owns q = false
  | .recovered p ret => ret = owns p

end PoolEvent

/-- The units that belong to the callers after some calls. -/
def owns (log : List PoolEvent) (q : UnitPtr) : Bool := log.foldl (PoolEvent.owned q) false

/-- A pool with the calls made on it. -/
structure PoolRun (type : Type) (sizeof : Nat) where
  pool : Blocks type sizeof
  log : List PoolEvent

namespace PoolRun

variable {type : Type} {sizeof : Nat}

/-- A new pool. -/
def init (new : type) (size : Nat) : PoolRun type sizeof := ⟨Blocks.init new size, []⟩

/-- One call on the pool. `Recover` is called on units of the pool only. -/
def step (count : Nat) (st : PoolRun type sizeof) : PoolCall type → Option (PoolRun type sizeof)
  | .Create new =>
      let r := st.pool.Create new count
      some ⟨r.2, st.log ++ [.created r.1]⟩
  | .Recover p => (st.pool.Recover p).map fun r => ⟨r.2, st.log ++ [.recovered p r.1]⟩

end PoolRun

end Kernel4GameServer.TPool
