import Mathlib.Data.List.Basic

/-!
# `Kernel4GameServer.Lib.Chain`: linked lists in memory

A linked list is a head pointer and a next pointer for each cell. `Chain next head l` says
that the cells reached from `head` are those of `l`, in this order, and that the last one
has no next. The lemmas say what a write to a next pointer does to the lists in memory:
nothing to a list without the cell (`Chain.frame`), and one more cell in front when a new
cell is pointed at the head (`Chain.push`).
-/

set_option autoImplicit false

namespace Lib

variable {α : Type*}

/-- The cells from `head` on are `l`. -/
inductive Chain (next : α → Option α) : Option α → List α → Prop where
  | nil : Chain next none []
  | cons {p : α} {l : List α} : Chain next (next p) l → Chain next (some p) (p :: l)

variable {next next' : α → Option α} {head : Option α} {p : α} {l : List α}

/-- An empty list has no head. -/
@[simp] theorem chain_none : Chain next none l ↔ l = [] := by
  constructor
  · intro h
    cases h
    rfl
  · rintro rfl
    exact .nil

/-- A list with a head is that cell and the list from its next cell. -/
theorem chain_some : Chain next (some p) l ↔ ∃ l', l = p :: l' ∧ Chain next (next p) l' := by
  constructor
  · intro h
    cases h with
    | cons h => exact ⟨_, rfl, h⟩
  · rintro ⟨l', rfl, h⟩
    exact .cons h

/-- The cells from a head are determined. -/
theorem Chain.unique {l' : List α} (h : Chain next head l) (h' : Chain next head l') :
    l = l' := by
  induction h generalizing l' with
  | nil =>
      cases h'
      rfl
  | cons _ ih =>
      cases h' with
      | cons h' => rw [ih h']

/-- A list survives writes to other cells. -/
theorem Chain.frame (h : Chain next head l) (heq : ∀ q ∈ l, next' q = next q) :
    Chain next' head l := by
  induction h with
  | nil => exact .nil
  | @cons p l _ ih =>
      have hp : next' p = next p := heq p List.mem_cons_self
      refine .cons ?_
      rw [hp]
      exact ih fun q hq => heq q (List.mem_cons_of_mem p hq)

/-- From a cell of a list on, the cells are a shorter list. -/
theorem Chain.mem_suffix (h : Chain next head l) {q : α} (hq : q ∈ l) :
    ∃ l', Chain next (some q) l' ∧ l'.length ≤ l.length := by
  induction h with
  | nil => cases hq
  | @cons p l h ih =>
      rcases List.mem_cons.mp hq with rfl | hq
      · exact ⟨q :: l, .cons h, Nat.le_refl _⟩
      · obtain ⟨l', hl', hle⟩ := ih hq
        exact ⟨l', hl', Nat.le_succ_of_le hle⟩

/-- No cell comes twice: the list behind its second coming would be the whole list. -/
theorem Chain.nodup (h : Chain next head l) : l.Nodup := by
  induction h with
  | nil => exact List.nodup_nil
  | @cons p l h ih =>
      refine List.nodup_cons.mpr ⟨fun hp => ?_, ih⟩
      obtain ⟨l', hl', hle⟩ := h.mem_suffix hp
      have heq : l' = p :: l := hl'.unique (.cons h)
      rw [heq, List.length_cons] at hle
      omega

/-- A new cell that points at the head comes in front. -/
theorem Chain.push (h : Chain next head l) (hp : p ∉ l) (hnext : next' p = head)
    (heq : ∀ q, q ≠ p → next' q = next q) : Chain next' (some p) (p :: l) := by
  refine .cons ?_
  rw [hnext]
  exact h.frame fun q hq => heq q fun hqp => hp (hqp ▸ hq)

end Lib
