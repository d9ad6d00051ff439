import Mathlib.Data.Int.CardIntervalMod

/-!
# `Kernel4GameServer.Lib.RoundRobin`: taking turns

`turns n k` are the first `k` of the turns `0, 1, …, n - 1, 0, 1, …`. Everybody has had as many
of them as everybody else, up to one (`turns_balanced`).
-/

set_option autoImplicit false

namespace Lib

/-- The first `k` turns of `n`. -/
def turns (n k : Nat) : List Nat := (List.range k).map (· % n)

@[simp] theorem turns_zero (n : Nat) : turns n 0 = [] := rfl

/-- One more turn. -/
theorem turns_succ (n k : Nat) : turns n (k + 1) = turns n k ++ [k % n] := by
  rw [turns, List.range_succ, List.map_append]
  rfl

/-- The turns of `n` are below `n`. -/
theorem turns_lt {n : Nat} (hn : 0 < n) {k i : Nat} (hi : i ∈ turns n k) : i < n := by
  obtain ⟨m, -, rfl⟩ := List.mem_map.mp hi
  exact Nat.mod_lt m hn

/-- How many turns `i` has had: the full rounds, and one more in the round that is going on. -/
theorem count_turns {n i : Nat} (hi : i < n) (k : Nat) :
    (turns n k).count i = k / n + if i < k % n then 1 else 0 := by
  have hcount : (turns n k).count i = Nat.count (· ≡ i [MOD n]) k := by
    induction k with
    | zero => rfl
    | succ k ih =>
        have hturn : (k ≡ i [MOD n]) ↔ k % n = i := by rw [Nat.ModEq, Nat.mod_eq_of_lt hi]
        rw [turns_succ, List.count_append, ih, Nat.count_succ, List.count_singleton]
        simp only [hturn, beq_iff_eq]
  rw [hcount, Nat.count_modEq_card k (by omega) i, Nat.mod_eq_of_lt hi]

/-- Any two have had the same number of turns, up to one. -/
theorem turns_balanced {n i j : Nat} (hi : i < n) (hj : j < n) (k : Nat) :
    (turns n k).count i ≤ (turns n k).count j + 1 := by
  rw [count_turns hi, count_turns hj]
  split <;> split <;> omega

end Lib
