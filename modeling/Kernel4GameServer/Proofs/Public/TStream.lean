import Kernel4GameServer.Public.TStream
import Mathlib.Tactic.Common

/-!
# `Kernel4GameServer.Proofs.Public.TStream`: what the stream operations do

A stream stands for the list `unread` of its pending bytes. The theorems say, for each part
of `in` and for `out`, what it does to that list, and that it keeps the offsets in order.

* `inPlan_fits`: what the unlocked test promises. `PlanFits.out` keeps the promise while
  the reader takes bytes, so the plan may be stale when the lock is taken.
* `relocate_wf`, `relocate_room`, `relocate_unread`: a relocation makes the room the plan
  was made for and moves the unread bytes.
* `inBytes_unread`, `out_unread`: `in` appends, `out` drops.
* `inAssert_of_wf`: no `TASSERT` of a `SafeMemcpy` in `in` fails on a size that is not
  negative.
* `inBytes_max_lt`: the capacity stays below `2 ^ 31`.
-/

set_option autoImplicit false

namespace Kernel4GameServer.TStream

open Lib

variable {buff_length : Nat}

/-- The offsets are in order: `0 <= m_read <= m_write <= m_max`. -/
structure WellFormed (s : TStream buff_length) : Prop where
  read_nonneg : 0 ≤ s.m_read
  read_le : s.m_read ≤ s.m_write
  write_le : s.m_write ≤ s.m_max

/-- What a plan promises about `size` bytes: the room for them after the relocation. -/
def PlanFits (s : TStream buff_length) (size : Int) : InPlan → Prop
  | .stay => size ≤ s.m_max - s.m_write
  | .grow nNewSize => size < nNewSize - (s.m_write - s.m_read) ∧ s.m_max ≤ nNewSize
  | .compact => size < s.m_max - (s.m_write - s.m_read)

/-- The constructor gives an empty stream with its offsets in order. -/
theorem init_wf : (init : TStream buff_length).WellFormed :=
  ⟨Int.le_refl _, Int.le_refl _, Int.natCast_nonneg _⟩

@[simp] theorem init_unread : (init : TStream buff_length).unread = [] := rfl

/-- The number of unread bytes is `size()`. -/
@[simp] theorem length_unread (s : TStream buff_length) : s.unread.length = s.size.toNat :=
  Mem.length_slice _ _ _

/-- The bytes `buff()` points to, up to a length within `size()`, are the first unread
ones. -/
theorem slice_buff (s : TStream buff_length) {n : Nat} (h : n ≤ s.size.toNat) :
    Mem.slice s.buff 0 n = s.unread.take n := by
  have h' : n ≤ (s.m_write - s.m_read).toNat := h
  rw [unread, Mem.take_slice _ _ h', buff, Mem.slice_shift, Int.add_zero]

/-- All bytes `buff()` points to within `size()` are the unread ones. -/
theorem slice_buff_size (s : TStream buff_length) :
    Mem.slice s.buff 0 s.size.toNat = s.unread := by
  rw [slice_buff s (Nat.le_refl _), ← length_unread, List.take_length]

/-! ### The growth loop -/

/-- The loop never lowers `nNewSize`. -/
theorem le_growLoop (buff_length : Nat) (cursize size : Int) (fuel : Nat) (nNewSize : Int) :
    nNewSize ≤ growLoop buff_length cursize size fuel nNewSize := by
  induction fuel generalizing nNewSize with
  | zero => exact Int.le_refl _
  | succ fuel ih =>
      rw [growLoop]
      split
      · have := ih (nNewSize + buff_length)
        omega
      · exact Int.le_refl _

/-- With enough rounds the loop leaves by its condition. -/
theorem lt_growLoop (hL : 0 < buff_length) (cursize size : Int) (fuel : Nat) (nNewSize : Int)
    (hfuel : cursize + size - nNewSize + 1 ≤ fuel) :
    size < growLoop buff_length cursize size fuel nNewSize - cursize := by
  induction fuel generalizing nNewSize with
  | zero =>
      rw [growLoop]
      omega
  | succ fuel ih =>
      rw [growLoop]
      split
      · exact ih (nNewSize + buff_length) (by omega)
      · omega

/-- The loop overshoots by at most one `buff_length`. -/
theorem growLoop_le (buff_length : Nat) (cursize size : Int) (fuel : Nat) (nNewSize : Int) :
    growLoop buff_length cursize size fuel nNewSize
      ≤ max nNewSize (cursize + size + buff_length) := by
  induction fuel generalizing nNewSize with
  | zero =>
      rw [growLoop]
      omega
  | succ fuel ih =>
      rw [growLoop]
      split
      · have := ih (nNewSize + buff_length)
        omega
      · omega

/-! ### The four parts of `in` -/

/-- The unlocked test picks a plan that makes room for `size` bytes. -/
theorem inPlan_fits (hL : 0 < buff_length) (s : TStream buff_length) (size : Int) :
    s.PlanFits size (s.inPlan size) := by
  unfold inPlan
  split
  · dsimp only
    split
    · have hlt := lt_growLoop hL (s.m_write - s.m_read) size
        (s.m_write - s.m_read + size - (s.m_max + buff_length) + 1).toNat
        (s.m_max + buff_length) (by omega)
      have hge := le_growLoop buff_length (s.m_write - s.m_read) size
        (s.m_write - s.m_read + size - (s.m_max + buff_length) + 1).toNat
        (s.m_max + buff_length)
      exact ⟨hlt, by omega⟩
    · simp only [PlanFits]
      omega
  · simp only [PlanFits]
    omega

/-- A new capacity is at most one `buff_length` above the bytes it is for. -/
theorem inPlan_grow_le {s : TStream buff_length} {size n : Int} (h : s.inPlan size = .grow n) :
    n ≤ s.size + size + buff_length := by
  unfold inPlan at h
  split at h
  · dsimp only at h
    split at h
    · have hle := growLoop_le buff_length (s.m_write - s.m_read) size
        (s.m_write - s.m_read + size - (s.m_max + buff_length) + 1).toNat
        (s.m_max + buff_length)
      simp only [InPlan.grow.injEq] at h
      simp only [TStream.size]
      omega
    · cases h
  · cases h

/-- A plan stays good while the reader takes bytes: fewer bytes are pending then. -/
theorem PlanFits.out {s : TStream buff_length} {size k : Int} {plan : InPlan}
    (h : s.PlanFits size plan) (hs : s.WellFormed) (hk : 0 ≤ k) :
    (s.out k).PlanFits size plan := by
  have := hs.read_le
  unfold TStream.out
  cases plan <;> simp only [PlanFits] at h ⊢ <;> split <;> dsimp only <;> omega

/-- A relocation keeps the offsets in order. -/
theorem relocate_wf {s : TStream buff_length} {size : Int} {plan : InPlan} (h : s.WellFormed)
    (hsize : 0 ≤ size) (hp : s.PlanFits size plan) : (s.relocate plan).WellFormed := by
  obtain ⟨h0, h1, h2⟩ := h
  cases plan with
  | stay => exact ⟨h0, h1, h2⟩
  | grow n =>
      obtain ⟨hroom, -⟩ := hp
      exact ⟨Int.le_refl _, by simp only [relocate, malloc_new_size]; omega,
        by simp only [relocate, malloc_new_size]; omega⟩
  | compact =>
      exact ⟨Int.le_refl _, by simp only [relocate, compact]; omega,
        by simp only [relocate, compact]; omega⟩

/-- After the relocation there is room for the bytes the plan was made for. -/
theorem relocate_room {s : TStream buff_length} {size : Int} {plan : InPlan}
    (hp : s.PlanFits size plan) :
    size ≤ (s.relocate plan).m_max - (s.relocate plan).m_write := by
  cases plan <;> simp only [PlanFits, relocate, malloc_new_size, compact] at hp ⊢ <;> omega

/-- A relocation keeps the number of pending bytes. -/
@[simp] theorem relocate_size (s : TStream buff_length) (plan : InPlan) :
    (s.relocate plan).size = s.size := by
  cases plan <;> simp only [relocate, malloc_new_size, compact, size] <;> omega

/-- A relocation moves the unread bytes and changes none. -/
theorem relocate_unread {s : TStream buff_length} {size : Int} {plan : InPlan}
    (h : s.WellFormed) (hsize : 0 ≤ size) (hp : s.PlanFits size plan) :
    (s.relocate plan).unread = s.unread := by
  obtain ⟨h0, h1, h2⟩ := h
  have hpend : 0 ≤ s.m_write - s.m_read := by omega
  cases plan with
  | stay => rfl
  | grow n =>
      simp only [unread, relocate, malloc_new_size, Int.sub_zero]
      exact tools.SafeMemcpy_dest hpend (by have := hp.1; omega)
  | compact =>
      simp only [unread, relocate, compact, Int.sub_zero]
      exact tools.SafeMemcpy_dest hpend (by omega)

/-- The copy writes behind the unread bytes. -/
theorem copyIn_unread {s : TStream buff_length} (h : s.WellFormed) (pbuff : Mem UInt8)
    (size : Int) : (s.copyIn pbuff size).unread = s.unread := by
  have hfront : s.m_read + ((s.m_write - s.m_read).toNat : Int) ≤ s.m_write := by
    have := h.read_le
    omega
  exact tools.SafeMemcpy_front hfront

/-- The copy puts the bytes at `m_write` when they fit. -/
theorem copyIn_slice {s : TStream buff_length} {size : Int} (pbuff : Mem UInt8)
    (hsize : 0 ≤ size) (hroom : size ≤ s.m_max - s.m_write) :
    Mem.slice (s.copyIn pbuff size).m_pbuff.bytes s.m_write size.toNat
      = Mem.slice pbuff 0 size.toNat :=
  tools.SafeMemcpy_dest hsize hroom

/-- Storing `m_write` appends the bytes that stand behind the unread ones. -/
theorem advance_unread {s : TStream buff_length} {size : Int} (h : s.WellFormed)
    (hsize : 0 ≤ size) :
    (s.advance size).unread
      = s.unread ++ Mem.slice s.m_pbuff.bytes s.m_write size.toNat := by
  have := h.read_le
  have hlen : (s.m_write + size - s.m_read).toNat
      = (s.m_write - s.m_read).toNat + size.toNat := by omega
  have hoff : s.m_read + ((s.m_write - s.m_read).toNat : Int) = s.m_write := by omega
  simp only [unread, advance]
  rw [hlen, Mem.slice_add, hoff]

/-! ### The operations as a whole -/

/-- `in` keeps the offsets in order. -/
theorem inBytes_wf (hL : 0 < buff_length) {s : TStream buff_length} (h : s.WellFormed)
    (pbuff : Mem UInt8) {size : Int} (hsize : 0 ≤ size) : (s.inBytes pbuff size).WellFormed := by
  have hp := inPlan_fits hL s size
  have hroom := relocate_room hp
  obtain ⟨h0, h1, h2⟩ := relocate_wf h hsize hp
  exact ⟨h0, by simp only [inBytes, advance, copyIn]; omega,
    by simp only [inBytes, advance, copyIn]; omega⟩

/-- `in` appends its bytes to the unread ones. -/
theorem inBytes_unread (hL : 0 < buff_length) {s : TStream buff_length} (h : s.WellFormed)
    (pbuff : Mem UInt8) {size : Int} (hsize : 0 ≤ size) :
    (s.inBytes pbuff size).unread = s.unread ++ Mem.slice pbuff 0 size.toNat := by
  have hp := inPlan_fits hL s size
  have hw := relocate_wf h hsize hp
  have hcopy : ((s.relocate (s.inPlan size)).copyIn pbuff size).WellFormed :=
    ⟨hw.read_nonneg, hw.read_le, hw.write_le⟩
  rw [inBytes, advance_unread hcopy hsize, copyIn_unread hw, relocate_unread h hsize hp]
  congr 1
  exact copyIn_slice pbuff hsize (relocate_room hp)

/-- `in` makes the unread bytes longer by its size. -/
theorem inBytes_size (hL : 0 < buff_length) {s : TStream buff_length} (h : s.WellFormed)
    (pbuff : Mem UInt8) {size : Int} (hsize : 0 ≤ size) :
    (s.inBytes pbuff size).size = s.size + size := by
  have hlen := congrArg List.length (inBytes_unread hL h pbuff hsize)
  rw [List.length_append, length_unread, length_unread, Mem.length_slice] at hlen
  have hle := h.read_le
  have hle' := (inBytes_wf hL h pbuff hsize).read_le
  simp only [TStream.size] at hlen ⊢
  omega

/-- No `TASSERT` in the copies of `in` fails on a size that is not negative. -/
theorem inAssert_of_wf (hL : 0 < buff_length) {s : TStream buff_length} (h : s.WellFormed)
    {size : Int} (hsize : 0 ≤ size) : s.inAssert size = true := by
  have hp := inPlan_fits hL s size
  have hroom := relocate_room hp
  obtain ⟨h0, h1, h2⟩ := h
  have hassert : ∀ {n max : Int}, 0 ≤ n → n ≤ max → tools.SafeMemcpyAssert max n = true := by
    intro n max hn hle
    rw [tools.SafeMemcpyAssert, sizeT_of_nonneg hn, sizeT_of_nonneg (by omega)]
    exact decide_eq_true hle
  simp only [inAssert, Bool.and_eq_true]
  refine ⟨?_, hassert hsize hroom⟩
  cases hplan : s.inPlan size with
  | stay => rfl
  | grow n =>
      rw [hplan] at hp
      have := hp.1
      exact hassert (by omega) (by omega)
  | compact => exact hassert (by omega) (by omega)

/-- The capacity after `in` stays below `2 ^ 31` while pending bytes, new bytes and
`buff_length` do so together. -/
theorem inBytes_max_lt {s : TStream buff_length} {size : Int} (pbuff : Mem UInt8)
    (hmax : s.m_max < 2147483648) (hbound : s.size + size + buff_length < 2147483648) :
    (s.inBytes pbuff size).m_max < 2147483648 := by
  show (s.relocate (s.inPlan size)).m_max < 2147483648
  cases hplan : s.inPlan size with
  | stay => exact hmax
  | grow n =>
      have hle := inPlan_grow_le hplan
      simp only [relocate, malloc_new_size]
      omega
  | compact => exact hmax

/-- `out` keeps the capacity. -/
@[simp] theorem out_max (s : TStream buff_length) (k : Int) : (s.out k).m_max = s.m_max := by
  unfold out
  split <;> rfl

/-- `out` keeps the offsets in order. -/
theorem out_wf {s : TStream buff_length} (h : s.WellFormed) {k : Int} (hk : 0 ≤ k) :
    (s.out k).WellFormed := by
  obtain ⟨h0, h1, h2⟩ := h
  unfold out
  split
  · exact ⟨by dsimp only; omega, Int.le_refl _, h2⟩
  · exact ⟨by dsimp only; omega, by dsimp only; omega, h2⟩

/-- `out` of more than zero leaves fewer bytes in a stream that is not empty. -/
theorem out_size_lt {s : TStream buff_length} (h : 0 < s.size) {k : Int} (hk : 0 < k) :
    (s.out k).size.toNat < s.size.toNat := by
  simp only [size, out] at h ⊢
  split <;> dsimp only <;> omega

/-- `out` drops from the unread bytes, all of them when it is asked for more. -/
theorem out_unread {s : TStream buff_length} (h : s.WellFormed) {k : Int} (hk : 0 ≤ k) :
    (s.out k).unread = s.unread.drop k.toNat := by
  have := h.read_le
  unfold out
  split
  · rw [List.drop_of_length_le (by rw [length_unread, size]; omega)]
    simp [unread]
  · have hle : k.toNat ≤ (s.m_write - s.m_read).toNat := by omega
    have hoff : s.m_read + (k.toNat : Int) = s.m_read + k := by omega
    rw [unread, unread, Mem.drop_slice _ _ hle, hoff]
    congr 1
    dsimp only
    omega

end Kernel4GameServer.TStream
