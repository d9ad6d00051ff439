import Kernel4GameServer.Lib.DoWhile
import Kernel4GameServer.Public.TStream

/-!
# `Kernel4GameServer.Public.TStreamS32`: the arithmetic of a stream in `s32`

`Public/TStream.h`. The offsets and the capacity are of the type `s32`, where a sum or a
difference out of range is undefined. `in32` and `out32` are `in` and `out` with every such
expression checked. They have no result once one of them leaves the range.

The loop of `in` runs for at most `n` rounds here. A call that needs more has no result
either, so a result says that the loop ended.
-/

set_option autoImplicit false

namespace Kernel4GameServer

open Lib

/-- The value of an `s32` expression, when it is in range. -/
def inS32 (x : Int) : Option Int :=
  if -2147483648 ≤ x ∧ x < 2147483648 then some x else none

/-- An expression in range has its value. -/
theorem inS32_of_range {x : Int} (h : -2147483648 ≤ x) (h' : x < 2147483648) :
    inS32 x = some x := if_pos ⟨h, h'⟩

/-- Only an expression in range has a value, and the value is its own. -/
theorem inS32_eq_some {x y : Int} (h : inS32 x = some y) :
    y = x ∧ -2147483648 ≤ x ∧ x < 2147483648 := by
  unfold inS32 at h
  split at h
  · rename_i hx
    exact ⟨(Option.some.inj h).symm, hx⟩
  · cases h

namespace TStream

variable {buff_length : Nat}

/-- One round of `while (nNewSize - cursize <= size) nNewSize += buff_length;`. Without a
value an expression has left the range. -/
def growBody (buff_length : Nat) (cursize size : Int) : Option Int → Option Int × Bool
  | none => (none, false)
  | some nNewSize =>
      match inS32 (nNewSize - cursize) with
      | none => (none, false)
      | some gap =>
          if gap ≤ size then
            match inS32 (nNewSize + buff_length) with
            | none => (none, false)
            | some nNewSize => (some nNewSize, true)
          else (some nNewSize, false)

/-- The first part of `in(pbuff, size)`, `inPlan` in `s32`. -/
def plan32 (n : Nat) (s : TStream buff_length) (size : Int) : Option InPlan := do
  let room ← inS32 (s.m_max - s.m_write)
  if size > room then
    let cursize ← inS32 (s.m_write - s.m_read)
    let free ← inS32 (s.m_max - cursize)
    if free ≤ size then
      let nNewSize ← inS32 (s.m_max + buff_length)
      let nNewSize ← (doWhile (growBody buff_length cursize size) n (some nNewSize)).join
      return .grow nNewSize
    else
      return .compact
  else
    return .stay

/-- The second part of `in`, `malloc_new_size(nNewSize)` or the compaction. Both compute
`cursize` anew. -/
def relocate32 (s : TStream buff_length) : InPlan → Option (TStream buff_length)
  | .stay => some s
  | .grow nNewSize => do
      let _ ← inS32 (s.m_write - s.m_read)
      return s.malloc_new_size nNewSize
  | .compact => do
      let _ ← inS32 (s.m_write - s.m_read)
      return s.compact

/-- `in(pbuff, size)` in `s32`. -/
def in32 (n : Nat) (s : TStream buff_length) (pbuff : Mem UInt8) (size : Int) :
    Option (TStream buff_length) := do
  let plan ← plan32 n s size
  let t ← s.relocate32 plan
  let _ ← inS32 (t.m_max - t.m_write)
  let m_write ← inS32 (t.m_write + size)
  return { t.copyIn pbuff size with m_write := m_write }

/-- `out(k)` in `s32`. -/
def out32 (s : TStream buff_length) (k : Int) : Option (TStream buff_length) := do
  let pending ← inS32 (s.m_write - s.m_read)
  if k > pending then
    return { s with m_read := s.m_write }
  else
    let m_read ← inS32 (s.m_read + k)
    return { s with m_read := m_read }

/-- `in` of `size` bytes stays in `s32`: they fit behind `m_write`, or the pending bytes,
these and `buff_length` are together below `2 ^ 31`. -/
def HasRoom (s : TStream buff_length) (size : Int) : Prop :=
  size ≤ s.m_max - s.m_write ∨ s.size + size + buff_length < 2147483648

instance (s : TStream buff_length) (size : Int) : Decidable (s.HasRoom size) :=
  inferInstanceAs (Decidable (_ ∨ _))

/-- Every `s32` expression of `in(pbuff, size)` has a value, and its loop ends. -/
def InRange (s : TStream buff_length) (pbuff : Mem UInt8) (size : Int) : Prop :=
  ∃ n t, in32 n s pbuff size = some t

/-- The streams that the constructor and the calls of `in`, `out` and `clear` lead to.
`in` is called with a size that is not negative, `out` with any. -/
inductive Reachable : TStream buff_length → Prop where
  | init : Reachable init
  | write {n : Nat} {s t : TStream buff_length} {pbuff : Mem UInt8} {size : Int} :
      Reachable s → 0 ≤ size → in32 n s pbuff size = some t → Reachable t
  | read {s t : TStream buff_length} {k : Int} :
      Reachable s → out32 s k = some t → Reachable t
  | clear {s : TStream buff_length} : Reachable s → Reachable s.clear

end TStream

end Kernel4GameServer
