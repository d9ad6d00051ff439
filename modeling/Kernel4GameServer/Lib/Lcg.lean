import Mathlib.Algebra.Group.Even
import Mathlib.Algebra.Order.Group.Nat
import Mathlib.Data.Finset.Card
import Mathlib.Data.Finset.Range
import Mathlib.Data.Int.GCD
import Mathlib.Data.Nat.ModEq
import Mathlib.Data.Nat.Prime.Basic
import Mathlib.Logic.Function.Iterate
import Mathlib.Tactic.Ring

/-!
# `Kernel4GameServer.Lib.Lcg`: linear congruential sequences modulo a power of two

`next a c` is `x ↦ a * x + c`, and a modulus is what one looks at its iterates by. Where `a` is one
more than a multiple of four and `c` is odd:

* `iterate_pow`: `2 ^ k` steps are again such a map, which adds `2 ^ k` modulo `2 ^ (k + 1)`.
* `iterate_modEq_iff`: the sequence comes back to where it was after the multiples of the modulus,
  and not before.
* `card_iterate`: in as many steps as the modulus it meets every residue once, so a property of
  residues is met as often as there are residues that have it.
* `high_period`: the high bits of the residue have the same period.
-/

set_option autoImplicit false

namespace Lib.Lcg

/-- One step. -/
def next (a c x : Nat) : Nat := a * x + c

variable {a c : Nat}

/-- The step repeated `2 ^ k` times. -/
theorem iterate_pow (ha : a % 4 = 1) (hc : c % 2 = 1) (k : Nat) : ∃ u v, ∀ x,
    (next a c)^[2 ^ k] x = (2 ^ (k + 2) * u + 1) * x + 2 ^ k * (2 * v + 1) := by
  induction k with
  | zero =>
      refine ⟨a / 4, c / 2, fun x => ?_⟩
      have ha' : 2 ^ (0 + 2) * (a / 4) + 1 = a := by omega
      have hc' : 2 ^ 0 * (2 * (c / 2) + 1) = c := by omega
      rw [ha', hc']
      rfl
  | succ k ih =>
      obtain ⟨u, v, hstep⟩ := ih
      refine ⟨u + 2 ^ (k + 1) * u * u, v + 2 ^ k * u * (2 * v + 1), fun x => ?_⟩
      have htwice : 2 ^ (k + 1) = 2 ^ k + 2 ^ k := by ring
      rw [htwice, Function.iterate_add_apply, hstep, hstep]
      ring

/-- So many steps change one bit, and those above it. -/
theorem iterate_pow_modEq (ha : a % 4 = 1) (hc : c % 2 = 1) (k x : Nat) :
    (next a c)^[2 ^ k] x ≡ x + 2 ^ k [MOD 2 ^ (k + 1)] := by
  obtain ⟨u, v, hstep⟩ := iterate_pow ha hc k
  have hform : (2 ^ (k + 2) * u + 1) * x + 2 ^ k * (2 * v + 1)
      = x + 2 ^ k + 2 ^ (k + 1) * (2 * u * x + v) := by ring
  rw [hstep, hform]
  exact Nat.modEq_iff_dvd.mpr ⟨-(2 * u * x + v), by push_cast; ring⟩

/-- The same for a multiple. -/
theorem iterate_mul_modEq (ha : a % 4 = 1) (hc : c % 2 = 1) (k m x : Nat) :
    (next a c)^[2 ^ k * m] x ≡ x + 2 ^ k * m [MOD 2 ^ (k + 1)] := by
  induction m with
  | zero => exact Nat.ModEq.refl x
  | succ m ih =>
      rw [Nat.mul_succ, Nat.add_comm (2 ^ k * m), Function.iterate_add_apply]
      have hlast := iterate_pow_modEq ha hc k ((next a c)^[2 ^ k * m] x)
      refine hlast.trans ?_
      rw [Nat.add_comm (2 ^ k) (2 ^ k * m), ← Nat.add_assoc]
      exact ih.add_right _

/-- The sequence is back modulo `2 ^ k` after a multiple of `2 ^ k` steps, and only then. Induction
on `k`: one more bit needs twice as many steps. -/
theorem iterate_modEq_iff (ha : a % 4 = 1) (hc : c % 2 = 1) (k n x : Nat) :
    (next a c)^[n] x ≡ x [MOD 2 ^ k] ↔ 2 ^ k ∣ n := by
  induction k generalizing n with
  | zero => simp [Nat.modEq_one]
  | succ k ih =>
      have hdvd : 2 ^ k ∣ 2 ^ (k + 1) := Nat.pow_dvd_pow 2 (Nat.le_succ k)
      constructor
      · intro h
        obtain ⟨m, rfl⟩ := (ih n).mp (h.of_dvd hdvd)
        have hback : x + 2 ^ k * m ≡ x + 0 [MOD 2 ^ (k + 1)] :=
          (iterate_mul_modEq ha hc k m x).symm.trans h
        have hzero := (Nat.modEq_zero_iff_dvd).mp (Nat.ModEq.add_left_cancel' x hback)
        exact hzero
      · rintro ⟨m, rfl⟩
        have hsame : 2 ^ (k + 1) * m = 2 ^ k * (2 * m) := by ring
        rw [hsame]
        refine (iterate_mul_modEq ha hc k (2 * m) x).trans ?_
        rw [← hsame]
        exact Nat.modEq_iff_dvd.mpr ⟨-m, by push_cast; ring⟩

/-- Two places of the sequence agree when they are a multiple of the modulus apart. -/
theorem iterate_inj (ha : a % 4 = 1) (hc : c % 2 = 1) {k i j x : Nat} (hij : i ≤ j) :
    (next a c)^[i] x ≡ (next a c)^[j] x [MOD 2 ^ k] ↔ 2 ^ k ∣ j - i := by
  obtain ⟨d, rfl⟩ := Nat.exists_eq_add_of_le hij
  rw [Nat.add_comm i d, Function.iterate_add_apply, Nat.add_sub_cancel]
  exact ⟨fun h => (iterate_modEq_iff ha hc k d _).mp h.symm,
    fun h => ((iterate_modEq_iff ha hc k d _).mpr h).symm⟩

/-- Places that are congruent agree. -/
theorem iterate_of_modEq (ha : a % 4 = 1) (hc : c % 2 = 1) {k i j x : Nat}
    (h : i ≡ j [MOD 2 ^ k]) : (next a c)^[i] x ≡ (next a c)^[j] x [MOD 2 ^ k] := by
  rcases Nat.le_total i j with hij | hji
  · exact (iterate_inj ha hc hij).mpr ((Nat.modEq_iff_dvd' hij).mp h)
  · exact ((iterate_inj ha hc hji).mpr ((Nat.modEq_iff_dvd' hji).mp h.symm)).symm

/-- In as many steps as the modulus the sequence meets every residue once. -/
theorem card_iterate (ha : a % 4 = 1) (hc : c % 2 = 1) (k x : Nat) (P : Nat → Prop)
    [DecidablePred P] :
    ((Finset.range (2 ^ k)).filter fun n => P ((next a c)^[n] x % 2 ^ k)).card
      = ((Finset.range (2 ^ k)).filter P).card := by
  have hpos : 0 < 2 ^ k := Nat.two_pow_pos k
  have hinj : Set.InjOn (fun n => (next a c)^[n] x % 2 ^ k) (Finset.range (2 ^ k)) := by
    -- Two places in a round that agree would be a round apart.
    have hle : ∀ i j, i ≤ j → j < 2 ^ k →
        (next a c)^[i] x ≡ (next a c)^[j] x [MOD 2 ^ k] → i = j := by
      intro i j hij hj heq
      have hdvd := (iterate_inj ha hc hij).mp heq
      have hzero := Nat.eq_zero_of_dvd_of_lt hdvd (by omega)
      omega
    intro i hi j hj heq
    replace hi : i < 2 ^ k := Finset.mem_range.mp hi
    replace hj : j < 2 ^ k := Finset.mem_range.mp hj
    rcases Nat.le_total i j with hij | hji
    · exact hle i j hij hj heq
    · exact (hle j i hji hi heq.symm).symm
  have himage : (Finset.range (2 ^ k)).image (fun n => (next a c)^[n] x % 2 ^ k)
      = Finset.range (2 ^ k) := by
    refine Finset.eq_of_subset_of_card_le ?_ ?_
    · intro r hr
      obtain ⟨n, -, rfl⟩ := Finset.mem_image.mp hr
      exact Finset.mem_range.mpr (Nat.mod_lt _ hpos)
    · rw [Finset.card_image_of_injOn hinj]
  conv_rhs => rw [← himage, Finset.filter_image]
  refine (Finset.card_image_of_injOn (hinj.mono ?_)).symm
  exact fun n hn => (Finset.mem_filter.mp hn).1

/-! ### The high bits -/

/-- Half a modulus away the high bits differ. -/
theorem high_ne {k j y z : Nat} (hj : j ≤ k) (h : z ≡ y + 2 ^ k [MOD 2 ^ (k + 1)]) :
    z % 2 ^ (k + 1) / 2 ^ j ≠ y % 2 ^ (k + 1) / 2 ^ j := by
  have hhalf : 2 ^ k = 2 ^ j * 2 ^ (k - j) := by
    rw [← Nat.pow_add, Nat.add_sub_cancel' hj]
  have htwice : 2 ^ (k + 1) = 2 ^ k + 2 ^ k := by ring
  have hone : 0 < 2 ^ (k - j) := Nat.two_pow_pos _
  have hlt := Nat.mod_lt y (Nat.two_pow_pos (k + 1))
  have hz : z % 2 ^ (k + 1) = (y % 2 ^ (k + 1) + 2 ^ k) % 2 ^ (k + 1) := by
    rw [Nat.mod_add_mod]
    exact h
  rw [hz]
  generalize y % 2 ^ (k + 1) = r at hlt ⊢
  rw [htwice] at hlt ⊢
  rcases Nat.lt_or_ge r (2 ^ k) with hlow | hhigh
  · rw [Nat.mod_eq_of_lt (by omega), hhalf, Nat.add_mul_div_left _ _ (Nat.two_pow_pos j)]
    omega
  · obtain ⟨d, rfl⟩ := Nat.exists_eq_add_of_le' hhigh
    have hback : (d + 2 ^ k + 2 ^ k) % (2 ^ k + 2 ^ k) = d := by
      rw [Nat.add_assoc, Nat.add_mod_right, Nat.mod_eq_of_lt (by omega)]
    rw [hback, hhalf, Nat.add_mul_div_left _ _ (Nat.two_pow_pos j)]
    omega

/-- What is no multiple of a power of two has a multiple that is congruent to half of it. -/
theorem exists_mul_modEq {k p : Nat} (hp : ¬ 2 ^ (k + 1) ∣ p) :
    ∃ m, p * m ≡ 2 ^ k [MOD 2 ^ (k + 1)] := by
  obtain ⟨i, hi, hgcd⟩ := (Nat.dvd_prime_pow Nat.prime_two).mp (Nat.gcd_dvd_right p (2 ^ (k + 1)))
  have hle : i ≤ k := by
    by_contra hlt
    have htop : i = k + 1 := by omega
    rw [htop] at hgcd
    exact hp (hgcd ▸ Nat.gcd_dvd_left p (2 ^ (k + 1)))
  have hlt : Nat.gcd p (2 ^ (k + 1)) < 2 ^ (k + 1) := by
    rw [hgcd]
    exact Nat.pow_lt_pow_right (by decide) (by omega)
  obtain ⟨m, -, hm⟩ := Nat.exists_mul_mod_eq_gcd hlt
  have hone : p * m ≡ 2 ^ i [MOD 2 ^ (k + 1)] := by
    unfold Nat.ModEq
    rw [hm, hgcd, Nat.mod_eq_of_lt (hgcd ▸ hlt)]
  refine ⟨m * 2 ^ (k - i), ?_⟩
  have hhalf : 2 ^ k = 2 ^ i * 2 ^ (k - i) := by
    rw [← Nat.pow_add, Nat.add_sub_cancel' hle]
  rw [← Nat.mul_assoc, hhalf]
  exact hone.mul_right _

/-- The high bits of the residue. -/
def high (a c k j x n : Nat) : Nat := (next a c)^[n] x % 2 ^ (k + 1) / 2 ^ j

/-- They come back after the multiples of the modulus, and not before. A smaller period would make
half a modulus a period. -/
theorem high_period (ha : a % 4 = 1) (hc : c % 2 = 1) {k j : Nat} (hj : j ≤ k) (x p : Nat) :
    (∀ n, high a c k j x (n + p) = high a c k j x n) ↔ 2 ^ (k + 1) ∣ p := by
  constructor
  · intro hperiod
    by_contra hno
    have hmany : ∀ m, high a c k j x (p * m) = high a c k j x 0 := by
      intro m
      induction m with
      | zero => rfl
      | succ m ih => rw [Nat.mul_succ, hperiod, ih]
    obtain ⟨m, hm⟩ := exists_mul_modEq hno
    have hback : (next a c)^[p * m] x ≡ x + 2 ^ k [MOD 2 ^ (k + 1)] :=
      (iterate_of_modEq ha hc hm).trans (iterate_pow_modEq ha hc k x)
    exact high_ne hj hback (hmany m)
  · intro hp n
    have hplace : n + p ≡ n [MOD 2 ^ (k + 1)] :=
      ((Nat.modEq_iff_dvd' (Nat.le_add_right n p)).mpr (by rwa [Nat.add_sub_cancel_left])).symm
    unfold high
    rw [iterate_of_modEq ha hc hplace]

end Lib.Lcg
