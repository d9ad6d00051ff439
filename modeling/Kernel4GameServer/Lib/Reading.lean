import Mathlib.Data.List.Basic

/-!
# `Kernel4GameServer.Lib.Reading`: computations that read memory

A `Reading ι β α` is a computation that reads cells `ι` with contents `β`, one after the other,
and ends in an `α`. Which cell it reads next may depend on what it has read. `run m` is its
result on the memory `m` and `touched m` the cells it reads there.

`agree` is the two-run rule: on two memories that agree on the cells that one run reads, both
runs read the same cells and have the same result.
-/

set_option autoImplicit false

namespace Lib

/-- A computation that reads cells. -/
inductive Reading (ι β α : Type) where
  | done (a : α)
  | read (i : ι) (next : β → Reading ι β α)

namespace Reading

variable {ι β α γ : Type}

/-- One computation and then another that depends on its result. -/
def bind : Reading ι β α → (α → Reading ι β γ) → Reading ι β γ
  | .done a, f => f a
  | .read i next, f => .read i fun b => (next b).bind f

instance : Monad (Reading ι β) where
  pure := .done
  bind := bind

/-- The content of one cell. -/
def cell (i : ι) : Reading ι β β := .read i .done

/-- The contents of some cells. -/
def cells : List ι → Reading ι β (List β)
  | [] => pure []
  | i :: is => do
      let b ← cell i
      let bs ← cells is
      pure (b :: bs)

/-- The result on a memory. -/
def run (m : ι → β) : Reading ι β α → α
  | .done a => a
  | .read i next => (next (m i)).run m

/-- The cells read on a memory, in order. -/
def touched (m : ι → β) : Reading ι β α → List ι
  | .done _ => []
  | .read i next => i :: (next (m i)).touched m

variable (m : ι → β)

@[simp] theorem run_pure (a : α) : (pure a : Reading ι β α).run m = a := rfl

@[simp] theorem touched_pure (a : α) : (pure a : Reading ι β α).touched m = [] := rfl

@[simp] theorem run_cell (i : ι) : (cell i : Reading ι β β).run m = m i := rfl

@[simp] theorem touched_cell (i : ι) : (cell i : Reading ι β β).touched m = [i] := rfl

@[simp] theorem run_bind (p : Reading ι β α) (f : α → Reading ι β γ) :
    (p >>= f).run m = (f (p.run m)).run m := by
  induction p with
  | done a => rfl
  | read i next ih => exact ih (m i)

@[simp] theorem touched_bind (p : Reading ι β α) (f : α → Reading ι β γ) :
    (p >>= f).touched m = p.touched m ++ (f (p.run m)).touched m := by
  induction p with
  | done a => rfl
  | read i next ih => exact congrArg (i :: ·) (ih (m i))

@[simp] theorem run_cells (is : List ι) : (cells is : Reading ι β (List β)).run m = is.map m := by
  induction is with
  | nil => rfl
  | cons i is ih => simp [cells, ih]

@[simp] theorem touched_cells (is : List ι) :
    (cells is : Reading ι β (List β)).touched m = is := by
  induction is with
  | nil => rfl
  | cons i is ih => simp [cells, ih]

variable {m}

/-- The two-run rule. -/
theorem agree {m' : ι → β} (p : Reading ι β α) (h : ∀ i ∈ p.touched m, m' i = m i) :
    p.run m' = p.run m ∧ p.touched m' = p.touched m := by
  induction p with
  | done a => exact ⟨rfl, rfl⟩
  | read i next ih =>
      have hi : m' i = m i := h i List.mem_cons_self
      obtain ⟨hrun, htouched⟩ := ih (m i) fun j hj => h j (List.mem_cons_of_mem i hj)
      simp only [run, touched, hi]
      exact ⟨hrun, congrArg (i :: ·) htouched⟩

end Reading

end Lib
