import Mathlib.Data.Nat.Basic
import Mathlib.Tactic.Common

/-!
# `Kernel4GameServer.Lib.Ring`: positions in a ring buffer

A ring of `size` cells keeps the entry number `n` of a stream in the cell `n % size`. Two
entries of a window of at most `size` share no cell (`cell_inj`), and the next cell is found
by adding one and going back to zero at the end (`cell_succ`).
-/

set_option autoImplicit false

namespace Lib.Ring

variable {size a b first : Nat}

/-- Entries of one window in the same cell are the same entry. -/
theorem cell_inj (ha : first ≤ a) (ha' : a < first + size) (hb : first ≤ b)
    (hb' : b < first + size) (h : a % size = b % size) : a = b := by
  have hsize : 0 < size := by omega
  -- One of the two is the larger one, by a multiple of `size` that is below `size`.
  have key : ∀ {x y : Nat}, x ≤ y → y < x + size → x % size = y % size → x = y := by
    intro x y hle hlt heq
    have hdvd : size ∣ y - x :=
      Nat.dvd_of_mod_eq_zero (Nat.sub_mod_eq_zero_of_mod_eq heq.symm)
    have hzero : y - x = 0 := Nat.eq_zero_of_dvd_of_lt hdvd (by omega)
    omega
  rcases Nat.le_total a b with hab | hba
  · exact key hab (by omega) h
  · exact (key hba (by omega) h.symm).symm

/-- Different entries of one window are in different cells. -/
theorem cell_ne (ha : first ≤ a) (ha' : a < first + size) (hb : first ≤ b)
    (hb' : b < first + size) (hne : a ≠ b) : a % size ≠ b % size :=
  fun h => hne (cell_inj ha ha' hb hb' h)

/-- The entry one window further on is in the same cell. -/
theorem cell_add_size (n : Nat) : (n + size) % size = n % size :=
  Nat.add_mod_right n size

/-- The cell after `n % size`. -/
theorem cell_succ (hpos : 0 < size) (n : Nat) :
    (if size ≤ n % size + 1 then 0 else n % size + 1) = (n + 1) % size := by
  have hlt := Nat.mod_lt n hpos
  rw [← Nat.mod_add_mod]
  split
  · rename_i hle
    have hend : n % size + 1 = size := by omega
    rw [hend, Nat.mod_self]
  · rename_i hle
    exact (Nat.mod_eq_of_lt (by omega)).symm

end Lib.Ring
