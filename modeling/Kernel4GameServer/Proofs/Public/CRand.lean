import Kernel4GameServer.Lib.Lcg
import Kernel4GameServer.Public.CRand
import Mathlib.Data.Int.CardIntervalMod
import Mathlib.Data.Nat.Count

/-!
# `Kernel4GameServer.Proofs.Public.CRand`: how long until the numbers repeat

The state of a `CRand` is the linear congruential sequence of `214013` and `2531011` modulo
`2 ^ 64`, and a result is the bits from 16 to 30 of it (`draw_eq`). So the results are the high bits
of the sequence modulo `2 ^ 31`, whatever the state was.

`rand_uniform` is about all results of a generator.
-/

set_option autoImplicit false

namespace Kernel4GameServer

open Lib Lib.Lcg

namespace CRand

/-- The multiplier. -/
abbrev mult : Nat := 214013

/-- The increment. -/
abbrev incr : Nat := 2531011

/-- The state is the sequence, as long as `u64` does not wrap, and congruent to it when it does. -/
theorem seed_modEq (r : CRand) (n : Nat) :
    (r.after n).m_lSeed.toNat ≡ (next mult incr)^[n] r.m_lSeed.toNat [MOD 2 ^ 64] := by
  induction n with
  | zero => exact Nat.ModEq.refl _
  | succ n ih =>
      rw [Function.iterate_succ_apply']
      have hstep : (r.after (n + 1)).m_lSeed.toNat
          ≡ next mult incr (r.after n).m_lSeed.toNat [MOD 2 ^ 64] := by
        show (nextSeed (r.after n).m_lSeed).toNat ≡ _ [MOD 2 ^ 64]
        unfold nextSeed next
        rw [UInt64.toNat_add, UInt64.toNat_mul, Nat.mul_comm mult]
        exact (Nat.mod_modEq _ _).trans ((Nat.mod_modEq _ _).add_right _)
      exact hstep.trans ((ih.mul_left mult).add_right incr)

/-- A result is the high bits of the state modulo `2 ^ 31`. -/
theorem draw_eq (r : CRand) (n : Nat) :
    r.draw n = high mult incr 30 16 (next mult incr r.m_lSeed.toNat) n := by
  have hdvd : 2 ^ 31 ∣ 2 ^ 64 := Nat.pow_dvd_pow 2 (by decide)
  have hstate : (r.after (n + 1)).m_lSeed.toNat % 2 ^ 31
      = (next mult incr)^[n + 1] r.m_lSeed.toNat % 2 ^ 31 :=
    (seed_modEq r (n + 1)).of_dvd hdvd
  have hbits : (((r.after (n + 1)).m_lSeed >>> 16) &&& 0x7fff).toNat
      = (r.after (n + 1)).m_lSeed.toNat % 2 ^ 31 / 2 ^ 16 := by
    have hmask : (0x7fff : UInt64).toNat = 2 ^ 15 - 1 := rfl
    have hshift : (16 : UInt64).toNat % 64 = 16 := rfl
    have hwidth : 2 ^ 31 = 2 ^ 16 * 2 ^ 15 := by
      rw [← Nat.pow_add]
    rw [UInt64.toNat_and, UInt64.toNat_shiftRight, hmask, Nat.and_two_pow_sub_one_eq_mod, hshift,
      Nat.shiftRight_eq_div_pow, hwidth, Nat.mod_mul_right_div_self]
  show (((((r.after (n + 1)).m_lSeed >>> 16) &&& 0x7fff).toNat : Nat) : Int) = _
  rw [hbits, hstate]
  rfl

/-- How often a property of the quotients by `m` holds below a multiple of `m`. Induction on the
multiple. -/
theorem count_div {m : Nat} (hm : 0 < m) (Q : Nat → Prop) [DecidablePred Q] (b : Nat) :
    Nat.count (fun y => Q (y / m)) (b * m) = Nat.count Q b * m := by
  induction b with
  | zero => rw [Nat.zero_mul, Nat.count_zero, Nat.count_zero, Nat.zero_mul]
  | succ b ih =>
      have hlast : ∀ y, y < m → (b * m + y) / m = b := by
        intro y hy
        rw [Nat.mul_comm, Nat.mul_add_div hm, Nat.div_eq_of_lt hy, Nat.add_zero]
      rw [Nat.succ_mul, Nat.count_add, ih, Nat.count_succ, Nat.add_mul]
      congr 1
      by_cases hb : Q b
      · rw [if_pos hb, Nat.one_mul]
        exact Nat.count_of_forall fun y hy => (hlast y hy).symm ▸ hb
      · rw [if_neg hb, Nat.zero_mul]
        exact Nat.count_of_forall_not fun y hy => (hlast y hy).symm ▸ hb

/-- In a period the results with a property are as many as there are values with it, `2 ^ 16` times
each. -/
theorem card_draw (r : CRand) (Q : Nat → Prop) [DecidablePred Q] :
    ((Finset.range (2 ^ 31)).filter fun n => Q (r.draw n).toNat).card
      = Nat.count Q (2 ^ 15) * 2 ^ 16 := by
  have hstart : ∀ n, (r.draw n).toNat
      = (next mult incr)^[n] (next mult incr r.m_lSeed.toNat) % 2 ^ 31 / 2 ^ 16 := by
    intro n
    rw [draw_eq, Int.toNat_natCast, high]
  have hround := card_iterate (a := mult) (c := incr) (by decide) (by decide) 31
    (next mult incr r.m_lSeed.toNat) (fun y => Q (y / 2 ^ 16))
  have hwidth : 2 ^ 31 = 2 ^ 15 * 2 ^ 16 := by
    rw [← Nat.pow_add]
  simp only [hstart]
  rw [hround, ← Nat.count_eq_card_filter_range, hwidth]
  exact count_div (Nat.two_pow_pos 16) Q (2 ^ 15)

/-- A result is a number of 15 bits. -/
theorem draw_range (r : CRand) (n : Nat) : 0 ≤ r.draw n ∧ r.draw n < 2 ^ 15 := by
  rw [draw_eq, high]
  have hlt : (next mult incr)^[n] (next mult incr r.m_lSeed.toNat) % 2 ^ 31 / 2 ^ 16 < 2 ^ 15 := by
    refine Nat.div_lt_of_lt_mul ?_
    rw [← Nat.pow_add]
    exact Nat.mod_lt _ (Nat.two_pow_pos 31)
  exact ⟨Int.natCast_nonneg _, by exact_mod_cast hlt⟩

/-- The results of a generator from any state. They come back after the multiples of `2 ^ 31` calls,
and not before; in so many calls each of the `2 ^ 15` values comes `2 ^ 16` times; and the delay of
a timer is below 100, where the delays below 68 come 328 times for every 327 times of the others. -/
theorem rand_uniform (r : CRand) :
    (∀ p, (∀ n, r.draw (n + p) = r.draw n) ↔ 2 ^ 31 ∣ p) ∧
    (∀ n, 0 ≤ r.draw n ∧ r.draw n < 2 ^ 15) ∧
    (∀ v : Nat, v < 2 ^ 15 →
      ((Finset.range (2 ^ 31)).filter fun n => r.draw n = v).card = 2 ^ 16) ∧
    ∀ w : Nat, w < 100 →
      ((Finset.range (2 ^ 31)).filter fun n => r.nDelay n = w).card
        = (if w < 68 then 328 else 327) * 2 ^ 16 := by
  refine ⟨fun p => ?_, r.draw_range, fun v hv => ?_, fun w hw => ?_⟩
  · have hperiod := high_period (a := mult) (c := incr) (k := 30) (j := 16) (by decide) (by decide)
      (by decide) (next mult incr r.m_lSeed.toNat) p
    rw [← hperiod]
    simp only [draw_eq, Nat.cast_inj]
  · have hsame : ∀ n, r.draw n = v ↔ (r.draw n).toNat = v := by
      intro n
      have hrange := r.draw_range n
      omega
    simp only [hsame]
    rw [r.card_draw (· = v), Nat.count_eq_card_filter_range, Finset.filter_eq',
      if_pos (Finset.mem_range.mpr hv), Finset.card_singleton, Nat.one_mul]
  · have hsame : ∀ n, r.nDelay n = w ↔ (r.draw n).toNat ≡ w [MOD 100] := by
      intro n
      have hrange := r.draw_range n
      unfold nDelay Nat.ModEq
      rw [Int.tmod_eq_emod_of_nonneg hrange.1]
      omega
    simp only [hsame]
    have hcount := Nat.count_modEq_card (2 ^ 15) (show 0 < 100 by decide) w
    have hdiv : 2 ^ 15 / 100 = 327 := by decide
    have hmod : 2 ^ 15 % 100 = 68 := by decide
    have hsum : 327 + (if w < 68 then 1 else 0) = if w < 68 then 328 else 327 := by
      split
      · rfl
      · rfl
    rw [hdiv, hmod, Nat.mod_eq_of_lt hw, hsum] at hcount
    rw [r.card_draw (· ≡ w [MOD 100]), hcount]

end CRand

end Kernel4GameServer
