import Mathlib.Data.List.Range

/-!
# `Kernel4GameServer.Public.TPool`: the object pool

`Public/TPool.h` without its lock. The units of all blocks have the addresses
`0, 1, … < allocated` in the order of their allocation. `inUse` is the `status` of a unit,
`m_list` the list of free units. Units come from the front of the list and go back to its
end; an empty list gets another block of `count` units.
-/

set_option autoImplicit false

namespace Kernel4GameServer

/-- `TPool<type, lock, size, count>`. -/
structure TPool (type : Type) where
  unit : Nat → type
  inUse : Nat → Bool
  m_list : List Nat
  allocated : Nat

namespace TPool

variable {type : Type}

/-- `AllocNewBlob(_count)`. A new unit is what the constructor of the type makes it. -/
def AllocNewBlob (pool : TPool type) (new : type) (_count : Nat) : TPool type where
  unit p := if pool.allocated ≤ p ∧ p < pool.allocated + _count then new else pool.unit p
  inUse p := if pool.allocated ≤ p ∧ p < pool.allocated + _count then false else pool.inUse p
  m_list := pool.m_list ++ List.range' pool.allocated _count
  allocated := pool.allocated + _count

/-- The constructor `TPool()`. -/
def init (new : type) (size : Nat) : TPool type :=
  AllocNewBlob ⟨fun _ => new, fun _ => false, [], 0⟩ new size

/-- The front of the free list becomes a unit in use. -/
def takeFront (pool : TPool type) : Option (Nat × TPool type) :=
  match pool.m_list with
  | [] => none
  | p :: rest =>
      some (p, { pool with
        inUse := fun q => if q = p then true else pool.inUse q
        m_list := rest })

/-- `Create()`. `none` is the null pointer. -/
def Create (pool : TPool type) (new : type) (count : Nat) : Option (Nat × TPool type) :=
  if pool.m_list.isEmpty then (pool.AllocNewBlob new count).takeFront else pool.takeFront

/-- `Recover(pUnit)`: a unit that is not in use is left alone. -/
def Recover (pool : TPool type) (p : Nat) : TPool type :=
  if p < pool.allocated ∧ pool.inUse p = true then
    { pool with
      inUse := fun q => if q = p then false else pool.inUse q
      m_list := pool.m_list ++ [p] }
  else pool

/-- A write to the unit at `p`. -/
def set (pool : TPool type) (p : Nat) (x : type) : TPool type :=
  { pool with unit := fun q => if q = p then x else pool.unit q }

@[simp] theorem set_unit_self (pool : TPool type) (p : Nat) (x : type) :
    (pool.set p x).unit p = x :=
  if_pos rfl

@[simp] theorem set_unit_other (pool : TPool type) {p q : Nat} (x : type) (h : q ≠ p) :
    (pool.set p x).unit q = pool.unit q :=
  if_neg h

@[simp] theorem set_inUse (pool : TPool type) (p : Nat) (x : type) :
    (pool.set p x).inUse = pool.inUse := rfl

end TPool

end Kernel4GameServer
