import Mathlib.Algebra.Group.Nat.Defs
import Mathlib.Tactic.Common

/-!
# `Kernel4GameServer.Lib.LittleEndian`: numbers as bytes, least significant first

`split w n` is the number `n` as `w` bytes and `combine` the number that bytes stand for.
`combine_split` is the round trip of a number that fits.
-/

set_option autoImplicit false

namespace Lib.LittleEndian

/-- The `w` lowest bytes of `n`, least significant first. -/
def split : Nat → Nat → List UInt8
  | 0, _ => []
  | w + 1, n => UInt8.ofNat n :: split w (n / 256)

/-- The number that the bytes stand for. -/
def combine : List UInt8 → Nat
  | [] => 0
  | b :: bs => b.toNat + 256 * combine bs

@[simp] theorem length_split (w n : Nat) : (split w n).length = w := by
  induction w generalizing n with
  | zero => rfl
  | succ w ih => rw [split, List.length_cons, ih]

/-- A number below `256 ^ w` is what its `w` bytes stand for. -/
theorem combine_split {w n : Nat} (h : n < 256 ^ w) : combine (split w n) = n := by
  induction w generalizing n with
  | zero =>
      rw [Nat.pow_zero] at h
      rw [split, combine]
      omega
  | succ w ih =>
      rw [Nat.pow_succ] at h
      have hrest : n / 256 < 256 ^ w := by omega
      rw [split, combine, ih hrest, UInt8.toNat_ofNat']
      omega

end Lib.LittleEndian
