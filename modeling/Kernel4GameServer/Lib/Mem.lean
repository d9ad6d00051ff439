import Mathlib.Data.List.GetD
import Mathlib.Data.List.Range
import Mathlib.Tactic.Common

/-!
# `Kernel4GameServer.Lib.Mem`: memory seen from a pointer

`Mem α` is what a pointer points into: the cell at each offset, negative offsets included.
`slice m off n` is the list of the `n` cells from the offset `off` on. The lemmas split a
slice, move it and say which writes it does not see.
-/

set_option autoImplicit false

namespace Lib

variable {α : Type*}

/-- Memory by offset from a pointer. -/
abbrev Mem (α : Type*) := Int → α

namespace Mem

/-- The memory a pointer sees that is `k` cells further on. -/
def shift (m : Mem α) (k : Int) : Mem α := fun i => m (k + i)

/-- The `n` cells from `off` on. -/
def slice (m : Mem α) (off : Int) (n : Nat) : List α :=
  (List.range n).map fun i : Nat => m (off + i)

/-- Memory that holds the list `l` from offset `0` on, and `d` elsewhere. -/
def ofList (l : List α) (d : α) : Mem α := fun i => if i < 0 then d else l.getD i.toNat d

@[simp] theorem length_slice (m : Mem α) (off : Int) (n : Nat) : (slice m off n).length = n := by
  simp [slice]

@[simp] theorem slice_zero (m : Mem α) (off : Int) : slice m off 0 = [] := rfl

/-- Two memories have the same slice when they agree on its cells, each at its own
offset. -/
theorem slice_congr {m m' : Mem α} {off off' : Int} {n : Nat}
    (h : ∀ i : Nat, i < n → m (off + i) = m' (off' + i)) : slice m off n = slice m' off' n :=
  List.map_congr_left fun i hi => h i (List.mem_range.mp hi)

/-- Two memories have the same slice just when they agree on its cells. -/
theorem slice_eq_iff {m m' : Mem α} {off : Int} {n : Nat} :
    slice m off n = slice m' off n ↔ ∀ i, off ≤ i → i < off + n → m i = m' i := by
  simp only [slice, List.map_inj_left, List.mem_range]
  constructor
  · intro h i hlo hhi
    have := h (i - off).toNat (by omega)
    rwa [show off + ((i - off).toNat : Int) = i by omega] at this
  · intro h i hi
    exact h (off + i) (by omega) (by omega)

/-- A slice of `a + b` cells is the slice of the first `a` and the slice of the next
`b`. -/
theorem slice_add (m : Mem α) (off : Int) (a b : Nat) :
    slice m off (a + b) = slice m off a ++ slice m (off + a) b := by
  simp only [slice, List.range_add, List.map_append, List.map_map]
  congr 1
  refine List.map_congr_left fun i _ => ?_
  simp only [Function.comp_apply]
  congr 1
  omega

/-- A slice splits at every length up to its own. -/
theorem slice_split (m : Mem α) (off : Int) {a n : Nat} (h : a ≤ n) :
    slice m off n = slice m off a ++ slice m (off + a) (n - a) := by
  rw [← slice_add]
  congr 1
  omega

/-- Dropping from a slice moves its start. -/
theorem drop_slice (m : Mem α) (off : Int) {k n : Nat} (h : k ≤ n) :
    (slice m off n).drop k = slice m (off + k) (n - k) := by
  rw [slice_split m off h]
  exact List.drop_left' (length_slice m off k)

/-- Taking from a slice cuts its length. -/
theorem take_slice (m : Mem α) (off : Int) {k n : Nat} (h : k ≤ n) :
    (slice m off n).take k = slice m off k := by
  rw [slice_split m off h]
  exact List.take_left' (length_slice m off k)

/-- A pointer moved by `k` sees the slice at `k`. -/
@[simp] theorem slice_shift (m : Mem α) (k off : Int) (n : Nat) :
    slice (m.shift k) off n = slice m (k + off) n :=
  slice_congr fun i _ => by
    show m (k + (off + i)) = m (k + off + i)
    rw [Int.add_assoc]

/-- The memory that holds a list has it as its slice. -/
@[simp] theorem slice_ofList (l : List α) (d : α) : slice (ofList l d) 0 l.length = l := by
  refine List.ext_getElem (length_slice _ _ _) fun i h₁ h₂ => ?_
  have hneg : ¬ (0 + (i : Int) < 0) := by omega
  have hnat : (0 + (i : Int)).toNat = i := by omega
  simp only [slice, List.getElem_map, List.getElem_range, ofList, if_neg hneg, hnat]
  exact List.getD_eq_getElem l d h₂

/-- What stands behind a list in memory does not change the cells of the list. -/
theorem ofList_append {l : List α} (r : List α) (d : α) {i : Int} (hlo : 0 ≤ i)
    (hhi : i < l.length) : ofList (l ++ r) d i = ofList l d i := by
  simp only [ofList, if_neg (show ¬ i < 0 by omega)]
  exact List.getD_append _ _ _ _ (by omega)

end Mem

end Lib
