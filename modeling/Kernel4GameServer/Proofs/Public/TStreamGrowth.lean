import Kernel4GameServer.Public.TStreamS32
import Kernel4GameServer.Proofs.Public.TStream

/-!
# `Kernel4GameServer.Proofs.Public.TStreamGrowth`: the growth of a stream stays in `s32`

`in32` and `inBytes` compute the same stream as long as every expression is in range. The
two sides meet at the growth loop: `doWhile_growBody` says that the checked loop ends with
the value of `growLoop`.

* `Sized`: what the calls keep. The capacity is a positive multiple of `buff_length`, and
  the offsets are in order. A negative `out` can make `m_read` negative, which does not
  matter here.
* `growth_in_range`: the result for every stream that the calls lead to.
-/

set_option autoImplicit false

namespace Kernel4GameServer.TStream

open Lib

variable {buff_length : Nat}

/-- The capacity and the offsets of a stream in use. -/
structure Sized (s : TStream buff_length) : Prop where
  write_nonneg : 0 ≤ s.m_write
  read_le : s.m_read ≤ s.m_write
  write_le : s.m_write ≤ s.m_max
  dvd_max : (buff_length : Int) ∣ s.m_max
  le_max : buff_length ≤ s.m_max
  max_le : s.m_max ≤ max (buff_length : Int) 2147483647

/-! ### The loop -/

/-- What the loop keeps of `nNewSize`, when it has a value. -/
def Grown (buff_length : Nat) (m_max : Int) (nNewSize : Option Int) : Prop :=
  ∀ n ∈ nNewSize, (buff_length : Int) ∣ n ∧ m_max ≤ n ∧ n < 2147483648

/-- One round keeps `nNewSize` a multiple of `buff_length` in the range of `s32`. -/
theorem growBody_grown {m_max cursize size : Int} {nNewSize : Option Int}
    (h : Grown buff_length m_max nNewSize) :
    Grown buff_length m_max (growBody buff_length cursize size nNewSize).1 := by
  cases nNewSize with
  | none =>
      intro n hn
      simp [growBody] at hn
  | some m =>
      obtain ⟨hdvd, hle, hlt⟩ := h m rfl
      intro n hn
      cases hgap : inS32 (m - cursize) with
      | none => simp [growBody, hgap] at hn
      | some gap =>
          cases hsum : inS32 (m + buff_length) with
          | none =>
              by_cases hgo : gap ≤ size
              · simp [growBody, hgap, hgo, hsum] at hn
              · have hm : m = n := by simpa [growBody, hgap, hgo] using hn
                exact hm ▸ ⟨hdvd, hle, hlt⟩
          | some m' =>
              obtain ⟨hm', -, hlt'⟩ := inS32_eq_some hsum
              by_cases hgo : gap ≤ size
              · have hn' : m' = n := by simpa [growBody, hgap, hgo, hsum] using hn
                rw [← hn', hm']
                exact ⟨Int.dvd_add hdvd (Int.dvd_refl _), by omega, hlt'⟩
              · have hm : m = n := by simpa [growBody, hgap, hgo] using hn
                exact hm ▸ ⟨hdvd, hle, hlt⟩

/-- The round that ends the loop with a value has found it large enough. -/
theorem lt_of_growBody_stop {cursize size n : Int} {nNewSize : Option Int}
    (hstop : (growBody buff_length cursize size nNewSize).2 = false)
    (hn : (growBody buff_length cursize size nNewSize).1 = some n) : size < n - cursize := by
  cases nNewSize with
  | none => simp [growBody] at hn
  | some m =>
      cases hgap : inS32 (m - cursize) with
      | none => simp [growBody, hgap] at hn
      | some gap =>
          have hval := (inS32_eq_some hgap).1
          by_cases hgo : gap ≤ size
          · cases hsum : inS32 (m + buff_length) with
            | none => simp [growBody, hgap, hgo, hsum] at hn
            | some m' => simp [growBody, hgap, hgo, hsum] at hstop
          · have hm : m = n := by simpa [growBody, hgap, hgo] using hn
            omega

/-- While the bytes and `buff_length` together are in range, so is every expression of the
loop, and it ends with the value of `growLoop`. -/
theorem doWhile_growBody (hL : 1 ≤ buff_length) {cursize size : Int} (hcur : 0 ≤ cursize)
    (hsize : 0 ≤ size) (hbound : cursize + size + buff_length ≤ 2147483647) (fuel : Nat) {n : Int}
    (hn : 0 ≤ n) (hn' : n ≤ 2147483647) (hfuel : cursize + size - n + 1 ≤ fuel) :
    doWhile (growBody buff_length cursize size) (fuel + 1) (some n)
      = some (some (growLoop buff_length cursize size fuel n)) := by
  induction fuel generalizing n with
  | zero =>
      have hgap : inS32 (n - cursize) = some (n - cursize) :=
        inS32_of_range (by omega) (by omega)
      have hstop : ¬ n - cursize ≤ size := by omega
      simp [doWhile, growBody, growLoop, hgap, hstop]
  | succ fuel ih =>
      have hgap : inS32 (n - cursize) = some (n - cursize) :=
        inS32_of_range (by omega) (by omega)
      by_cases hgo : n - cursize ≤ size
      · -- `n` is at most `cursize + size` here, so one more `buff_length` still fits.
        have hsum : inS32 (n + buff_length) = some (n + buff_length) :=
          inS32_of_range (by omega) (by omega)
        have hrest := ih (n := n + buff_length) (by omega) (by omega) (by omega)
        rw [growLoop, if_pos hgo, ← hrest, doWhile]
        simp [growBody, hgap, hgo, hsum]
      · simp [doWhile, growBody, growLoop, hgap, hgo]

/-! ### What a call that stays in range does -/

/-- A checked plan makes room for the bytes, and a new capacity is a multiple of
`buff_length` in range. -/
theorem plan32_fits {n : Nat} {s : TStream buff_length} {size : Int} {plan : InPlan}
    (hs : s.Sized) (h : s.plan32 n size = some plan) :
    s.PlanFits size plan ∧ ∀ m, plan = .grow m → Grown buff_length s.m_max (some m) := by
  unfold plan32 at h
  simp only [Option.bind_eq_bind, Option.bind_eq_some_iff] at h
  obtain ⟨room, hroom, h⟩ := h
  have hroom := (inS32_eq_some hroom).1
  split at h
  · simp only [Option.bind_eq_some_iff] at h
    obtain ⟨cursize, hcur, free, hfree, h⟩ := h
    have hcur := (inS32_eq_some hcur).1
    have hfree := (inS32_eq_some hfree).1
    split at h
    · simp only [Option.bind_eq_some_iff] at h
      obtain ⟨first, hfirst, last, hlast, h⟩ := h
      obtain ⟨hfirst, -, hlt⟩ := inS32_eq_some hfirst
      obtain ⟨rfl⟩ := h
      have hstart : Grown buff_length s.m_max (some first) := by
        intro m hm
        have hm : first = m := by simpa using hm
        have hdvd : (buff_length : Int) ∣ s.m_max + buff_length :=
          Int.dvd_add hs.dvd_max (Int.dvd_refl _)
        rw [← hm, hfirst]
        exact ⟨hdvd, by omega, hlt⟩
      rw [Option.join_eq_some_iff] at hlast
      -- The invariant of the loop, and the condition it leaves by.
      obtain ⟨t, ht, hstop, hval⟩ :=
        doWhile_exit (fun _ hg _ => growBody_grown hg) n hstart hlast
      have hgrown : Grown buff_length s.m_max (some last) := hval ▸ growBody_grown ht
      have henough : size < last - cursize := lt_of_growBody_stop hstop hval
      have hle : s.m_max ≤ last := (hgrown last rfl).2.1
      rw [hcur] at henough
      exact ⟨⟨henough, hle⟩, fun m hm => InPlan.grow.inj hm ▸ hgrown⟩
    · obtain ⟨rfl⟩ := h
      simp only [PlanFits]
      exact ⟨by omega, fun _ hm => by cases hm⟩
  · obtain ⟨rfl⟩ := h
    simp only [PlanFits]
    exact ⟨by omega, fun _ hm => by cases hm⟩

/-- A relocation whose expressions are in range is the one without the checks. -/
theorem relocate32_eq {s t : TStream buff_length} {plan : InPlan}
    (h : s.relocate32 plan = some t) : t = s.relocate plan := by
  cases plan with
  | stay => exact (Option.some.inj h).symm
  | grow n =>
      unfold relocate32 at h
      simp only [Option.bind_eq_bind, Option.bind_eq_some_iff] at h
      obtain ⟨_, _, h⟩ := h
      exact (Option.some.inj h).symm
  | compact =>
      unfold relocate32 at h
      simp only [Option.bind_eq_bind, Option.bind_eq_some_iff] at h
      obtain ⟨_, _, h⟩ := h
      exact (Option.some.inj h).symm

/-- A call of `in` that stays in range is the one without the checks. -/
theorem in32_eq {n : Nat} {s t : TStream buff_length} {pbuff : Mem UInt8} {size : Int}
    (h : in32 n s pbuff size = some t) :
    ∃ plan, s.plan32 n size = some plan
      ∧ t = ((s.relocate plan).copyIn pbuff size).advance size := by
  unfold in32 at h
  simp only [Option.bind_eq_bind, Option.bind_eq_some_iff] at h
  obtain ⟨plan, hplan, u, hu, _, _, m_write, hwrite, h⟩ := h
  have hu : u = s.relocate plan := relocate32_eq hu
  have hwrite := (inS32_eq_some hwrite).1
  refine ⟨plan, hplan, ?_⟩
  rw [← Option.some.inj h, hwrite, hu]
  rfl

/-! ### The invariant -/

/-- The constructor gives a block of `buff_length` bytes. -/
theorem init_sized : (init : TStream buff_length).Sized where
  write_nonneg := Int.le_refl _
  read_le := Int.le_refl _
  write_le := Int.natCast_nonneg _
  dvd_max := Int.dvd_refl _
  le_max := Int.le_refl _
  max_le := by simp only [init]; omega

/-- `in` keeps the capacity a multiple of `buff_length` and the offsets in order. -/
theorem in32_sized {n : Nat} {s t : TStream buff_length} {pbuff : Mem UInt8} {size : Int}
    (hs : s.Sized) (hsize : 0 ≤ size) (h : in32 n s pbuff size = some t) : t.Sized := by
  obtain ⟨plan, hplan, ht⟩ := in32_eq h
  obtain ⟨hfits, hgrown⟩ := plan32_fits hs hplan
  obtain ⟨h0, h1, h2, hdvd, hle, hmax⟩ := hs
  cases plan with
  | stay =>
      rw [ht]
      simp only [PlanFits] at hfits
      exact ⟨by simp only [relocate, copyIn, advance]; omega,
        by simp only [relocate, copyIn, advance]; omega,
        by simp only [relocate, copyIn, advance]; omega, hdvd, hle, hmax⟩
  | grow m =>
      obtain ⟨hdvd', hle', hlt⟩ := hgrown m rfl m rfl
      rw [ht]
      simp only [PlanFits] at hfits
      exact ⟨by simp only [relocate, malloc_new_size, copyIn, advance]; omega,
        by simp only [relocate, malloc_new_size, copyIn, advance]; omega,
        by simp only [relocate, malloc_new_size, copyIn, advance]; omega, hdvd',
        by simp only [relocate, malloc_new_size, copyIn, advance]; omega,
        by simp only [relocate, malloc_new_size, copyIn, advance]; omega⟩
  | compact =>
      rw [ht]
      simp only [PlanFits] at hfits
      exact ⟨by simp only [relocate, compact, copyIn, advance]; omega,
        by simp only [relocate, compact, copyIn, advance]; omega,
        by simp only [relocate, compact, copyIn, advance]; omega, hdvd, hle, hmax⟩

/-- `out` moves `m_read` up to `m_write` at most, and nothing else. -/
theorem out32_sized {s t : TStream buff_length} {k : Int} (hs : s.Sized)
    (h : out32 s k = some t) : t.Sized := by
  obtain ⟨h0, h1, h2, hdvd, hle, hmax⟩ := hs
  unfold out32 at h
  simp only [Option.bind_eq_bind, Option.bind_eq_some_iff] at h
  obtain ⟨pending, hpend, h⟩ := h
  have hpend := (inS32_eq_some hpend).1
  split at h
  · obtain ⟨rfl⟩ := h
    exact ⟨h0, Int.le_refl _, h2, hdvd, hle, hmax⟩
  · simp only [Option.bind_eq_some_iff] at h
    obtain ⟨m_read, hread, h⟩ := h
    have hread := (inS32_eq_some hread).1
    obtain ⟨rfl⟩ := h
    exact ⟨h0, by dsimp only; omega, h2, hdvd, hle, hmax⟩

/-- `clear` gives back the capacity `buff_length`, which no stream is below. -/
theorem clear_max {s : TStream buff_length} (hs : s.Sized) : s.clear.m_max = buff_length := by
  have := hs.le_max
  simp only [clear]
  split <;> omega

/-- `clear` leaves an empty block of `buff_length` bytes. -/
theorem clear_sized {s : TStream buff_length} (hs : s.Sized) : s.clear.Sized := by
  have hmax := clear_max hs
  exact ⟨Int.le_refl _, Int.le_refl _, by simp only [clear] at hmax ⊢; omega, by simp [hmax],
    Int.le_of_eq hmax.symm, by omega⟩

/-- Every stream that the calls lead to. -/
theorem Reachable.sized {s : TStream buff_length} (h : s.Reachable) : s.Sized := by
  induction h with
  | init => exact init_sized
  | write _ hsize hin ih => exact in32_sized ih hsize hin
  | read _ hout ih => exact out32_sized ih hout
  | clear _ ih => exact clear_sized ih

/-! ### The arithmetic of one call -/

/-- No expression of the first part of `in` leaves the range, and its loop ends, whenever the
offsets are in order. -/
theorem plan32_of_order (hL : 1 ≤ buff_length) {s : TStream buff_length} {size : Int}
    (hwrite : 0 ≤ s.m_write) (hread : s.m_read ≤ s.m_write) (hle : s.m_write ≤ s.m_max)
    (hmax : s.m_max ≤ max (buff_length : Int) 2147483647) (hsize : 0 ≤ size)
    (hbound : s.m_write - s.m_read + size + buff_length ≤ 2147483647) :
    ∃ n, s.plan32 n size = some (s.inPlan size) := by
  have hroom : inS32 (s.m_max - s.m_write) = some (s.m_max - s.m_write) :=
    inS32_of_range (by omega) (by omega)
  have hcur : inS32 (s.m_write - s.m_read) = some (s.m_write - s.m_read) :=
    inS32_of_range (by omega) (by omega)
  have hfree : inS32 (s.m_max - (s.m_write - s.m_read))
      = some (s.m_max - (s.m_write - s.m_read)) :=
    inS32_of_range (by omega) (by omega)
  by_cases hfit : size > s.m_max - s.m_write
  · by_cases hgrow : s.m_max - (s.m_write - s.m_read) ≤ size
    · have hfirst : inS32 (s.m_max + buff_length) = some (s.m_max + buff_length) :=
        inS32_of_range (by omega) (by omega)
      let fuel := (s.m_write - s.m_read + size - (s.m_max + buff_length) + 1).toNat
      have hloop := doWhile_growBody (n := s.m_max + buff_length) hL (by omega) hsize hbound fuel
        (by omega) (by omega) (by omega)
      exact ⟨fuel + 1,
        by simp [plan32, inPlan, hroom, hfit, hcur, hfree, hgrow, hfirst, hloop, fuel]⟩
    · exact ⟨0, by simp [plan32, inPlan, hroom, hfit, hcur, hfree, hgrow]⟩
  · exact ⟨0, by simp [plan32, inPlan, hroom, hfit]⟩

/-- The same for a stream in use. -/
theorem plan32_of_sized (hL : 1 ≤ buff_length) {s : TStream buff_length} {size : Int}
    (hs : s.Sized) (hsize : 0 ≤ size)
    (hbound : s.m_write - s.m_read + size + buff_length ≤ 2147483647) :
    ∃ n, s.plan32 n size = some (s.inPlan size) :=
  plan32_of_order hL hs.write_nonneg hs.read_le hs.write_le hs.max_le hsize hbound

/-- No expression of `in` leaves the range, and its loop ends. -/
theorem in32_of_sized (hL : 1 ≤ buff_length) {s : TStream buff_length} {size : Int}
    (hs : s.Sized) (hsize : 0 ≤ size)
    (hbound : s.m_write - s.m_read + size + buff_length ≤ 2147483647) (pbuff : Mem UInt8) :
    ∃ n, in32 n s pbuff size = some (s.inBytes pbuff size) := by
  obtain ⟨n, hplan⟩ := plan32_of_sized hL hs hsize hbound
  obtain ⟨hfits, hgrown⟩ := plan32_fits hs hplan
  obtain ⟨h0, h1, h2, hdvd, hle, hmax⟩ := hs
  have hcur : inS32 (s.m_write - s.m_read) = some (s.m_write - s.m_read) :=
    inS32_of_range (by omega) (by omega)
  have hrel : s.relocate32 (s.inPlan size) = some (s.relocate (s.inPlan size)) := by
    cases s.inPlan size <;> simp [relocate32, relocate, hcur]
  refine ⟨n, ?_⟩
  -- The room and `m_write` after the relocation, one plan at a time.
  have hrange : inS32 ((s.relocate (s.inPlan size)).m_max - (s.relocate (s.inPlan size)).m_write)
        = some ((s.relocate (s.inPlan size)).m_max - (s.relocate (s.inPlan size)).m_write)
      ∧ inS32 ((s.relocate (s.inPlan size)).m_write + size)
        = some ((s.relocate (s.inPlan size)).m_write + size) := by
    cases hp : s.inPlan size with
    | stay =>
        rw [hp] at hfits
        simp only [PlanFits] at hfits
        exact ⟨inS32_of_range (by simp only [relocate]; omega) (by simp only [relocate]; omega),
          inS32_of_range (by simp only [relocate]; omega) (by simp only [relocate]; omega)⟩
    | grow m =>
        obtain ⟨-, -, hlt⟩ := hgrown m hp m rfl
        rw [hp] at hfits
        simp only [PlanFits] at hfits
        simp only [relocate, malloc_new_size]
        exact ⟨inS32_of_range (by omega) (by omega), inS32_of_range (by omega) (by omega)⟩
    | compact =>
        rw [hp] at hfits
        simp only [PlanFits] at hfits
        simp only [relocate, compact]
        exact ⟨inS32_of_range (by omega) (by omega), inS32_of_range (by omega) (by omega)⟩
  simp [in32, hplan, hrel, hrange.1, hrange.2, inBytes, advance, copyIn]

/-- On every stream that the calls lead to, `in` stays in `s32` and its loop ends. A new
capacity is a multiple of `buff_length` that makes room and overshoots by one `buff_length` at
most, and `clear` goes back to `buff_length`. -/
theorem growth_in_range (hL : 1 ≤ buff_length) {s : TStream buff_length} (hs : s.Reachable) :
    (∀ size : Int, 0 ≤ size → s.size + size + buff_length ≤ 2147483647 → ∀ pbuff : Mem UInt8,
      (∃ n, in32 n s pbuff size = some (s.inBytes pbuff size))
      ∧ (∀ nNewSize, s.inPlan size = .grow nNewSize →
          (s.inBytes pbuff size).m_max = nNewSize
          ∧ (buff_length : Int) ∣ nNewSize
          ∧ s.size + size < nNewSize
          ∧ nNewSize ≤ max s.m_max (s.size + size) + buff_length)
      ∧ ((∀ nNewSize, s.inPlan size ≠ .grow nNewSize) →
          (s.inBytes pbuff size).m_max = s.m_max))
    ∧ s.clear.m_max = buff_length ∧ s.clear.size = 0 ∧ s.clear.unread = [] := by
  have hsized := hs.sized
  refine ⟨?_, clear_max hsized, rfl, rfl⟩
  intro size hsize hbound pbuff
  have hbytes := in32_of_sized hL hsized hsize hbound pbuff
  refine ⟨hbytes, ?_, ?_⟩
  · intro nNewSize hplan
    have hmax : (s.inBytes pbuff size).m_max = nNewSize := by
      show (s.relocate (s.inPlan size)).m_max = nNewSize
      rw [hplan]
      rfl
    have hfits := inPlan_fits hL s size
    rw [hplan] at hfits
    have hle := inPlan_grow_le hplan
    have hdvd : (buff_length : Int) ∣ nNewSize := by
      -- The `s32` loop ends at the same capacity, which is a multiple of `buff_length` at every
      -- turn.
      obtain ⟨n, hn⟩ := plan32_of_sized hL hsized hsize hbound
      exact ((plan32_fits hsized hn).2 nNewSize hplan nNewSize rfl).1
    have hlt := hfits.1
    simp only [TStream.size] at hle ⊢
    exact ⟨hmax, hdvd, by omega, by omega⟩
  · intro hno
    show (s.relocate (s.inPlan size)).m_max = s.m_max
    -- Only a growth changes the capacity.
    cases hplan : s.inPlan size with
    | stay => rfl
    | grow nNewSize => exact absurd hplan (hno nNewSize)
    | compact => rfl

/-- Five bytes are pending in a block of eight when twenty more come. The loop goes from 16
over 24 to 32. -/
theorem growth_in_range_thirtytwo :
    let five : TStream 8 := init.inBytes (fun _ => 1) 5
    (∃ n, in32 n five (fun _ => 2) 20 = some (five.inBytes (fun _ => 2) 20))
    ∧ (five.inBytes (fun _ => 2) 20).m_max = 32 ∧ five.clear.m_max = 8 := by
  have hwrite : in32 0 (init : TStream 8) (fun _ => 1) 5 = some (init.inBytes (fun _ => 1) 5) :=
    rfl
  have hfive : ((init : TStream 8).inBytes (fun _ => 1) 5).Reachable :=
    .write .init (by decide) hwrite
  obtain ⟨hin, hclear, -, -⟩ := growth_in_range (by decide) hfive
  obtain ⟨hrange, hgrow, -⟩ := hin 20 (by decide) (by decide) (fun _ => 2)
  exact ⟨hrange, (hgrow 32 (by decide)).1, hclear⟩

end Kernel4GameServer.TStream
