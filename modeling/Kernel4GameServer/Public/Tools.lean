import Kernel4GameServer.Lib.Mem

/-!
# `Kernel4GameServer.Public.Tools`: machine integers and checked copies

`Public/Linux.h` fixes the integer types, `Public/Tools.h` the checked `memcpy`. Machine
integers are `Int`. `s32` is the conversion to a 32-bit integer and `sizeT` the conversion
of an `s32` to `size_t` on a 64-bit target.

A pointer is `Mem UInt8`, the bytes by offset from it. Bytes outside the object that the
pointer points into are part of it, so a read past the end reads something.
-/

set_option autoImplicit false

namespace Kernel4GameServer

open Lib

/-- The conversion to `s32`: two's complement, 32 bits. -/
def s32 (x : Int) : Int := (BitVec.ofInt 32 x).toInt

/-- The conversion of an `s32` to `size_t`: a negative value wraps around `2 ^ 64`. -/
def sizeT (x : Int) : Int := if x < 0 then x + 18446744073709551616 else x

/-- Values of the type `s32` stay as they are. -/
theorem s32_of_range {x : Int} (h : -2147483648 ≤ x) (h' : x < 2147483648) : s32 x = x := by
  rw [s32, BitVec.toInt_ofInt]
  exact Int.bmod_eq_of_le (by omega) (by omega)

/-- The result of the conversion is in the range of `s32`. -/
theorem s32_range (x : Int) : -2147483648 ≤ s32 x ∧ s32 x < 2147483648 := by
  rw [s32, BitVec.toInt_ofInt, Int.bmod]
  split <;> omega

/-- A sum that wraps may wrap on the way. -/
theorem s32_s32_add (x y : Int) : s32 (s32 x + y) = s32 (x + y) := by
  simp only [s32, BitVec.toInt_ofInt]
  exact Int.bmod_add_bmod

@[simp] theorem sizeT_of_nonneg {x : Int} (h : 0 ≤ x) : sizeT x = x :=
  if_neg (by omega)

/-- `*(const s32 *)` at the offset `off`: four bytes, least significant first. -/
def readS32 (m : Mem UInt8) (off : Int) : Int :=
  s32 ((m off).toNat + 256 * (m (off + 1)).toNat + 65536 * (m (off + 2)).toNat
    + 16777216 * (m (off + 3)).toNat)

/-- What is read is in the range of `s32`. -/
theorem readS32_range (m : Mem UInt8) (off : Int) :
    -2147483648 ≤ readS32 m off ∧ readS32 m off < 2147483648 :=
  s32_range _

namespace tools

/-- The `TASSERT` of `SafeMemcpy` and `SafeMemset`: `__n <= __max` as `size_t`. -/
def SafeMemcpyAssert (max n : Int) : Bool := decide (sizeT n ≤ sizeT max)

/-- `SafeMemcpy(dest + destOff, max, src + srcOff, n)`: the smaller of `n` and `max` bytes,
all read before the first is written. -/
def SafeMemcpy (dest : Mem UInt8) (destOff max : Int) (src : Mem UInt8) (srcOff n : Int) :
    Mem UInt8 :=
  let len := if sizeT n ≤ sizeT max then sizeT n else sizeT max
  fun i => if destOff ≤ i ∧ i < destOff + len then src (srcOff + (i - destOff)) else dest i

/-- A copy that fits writes the `n` bytes at its destination. -/
theorem SafeMemcpy_dest {dest src : Mem UInt8} {destOff max srcOff n : Int} (hn : 0 ≤ n)
    (hmax : n ≤ max) :
    Mem.slice (SafeMemcpy dest destOff max src srcOff n) destOff n.toNat
      = Mem.slice src srcOff n.toNat := by
  refine Mem.slice_congr fun i hi => ?_
  have hlen : n ≤ sizeT max := by
    rw [sizeT_of_nonneg (by omega)]
    exact hmax
  simp only [SafeMemcpy, sizeT_of_nonneg hn, if_pos hlen]
  rw [if_pos (by omega), show srcOff + (destOff + (i : Int) - destOff) = srcOff + i by omega]

/-- A copy leaves what is in front of its destination. -/
theorem SafeMemcpy_front {dest src : Mem UInt8} {destOff max srcOff n off : Int} {len : Nat}
    (h : off + len ≤ destOff) :
    Mem.slice (SafeMemcpy dest destOff max src srcOff n) off len = Mem.slice dest off len := by
  refine Mem.slice_congr fun i hi => ?_
  simp only [SafeMemcpy]
  rw [if_neg (by omega)]

end tools

end Kernel4GameServer
