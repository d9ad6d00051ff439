import Kernel4GameServer.Proofs.Public.TStreamFifo
import Kernel4GameServer.Proofs.Public.TStreamGrowth

/-!
# `Kernel4GameServer.Proofs.Public.TStreamRange`: when `in` stays in `s32`

The capacity is a multiple of `buff_length`, so where this divides `2 ^ 31` the largest one is
`2 ^ 31 - buff_length`. `inRange_iff` says that a call of `in` has a value exactly when
`HasRoom`: its bytes fit behind `m_write`, or the pending bytes and they fit into the largest
block with one byte to spare. The value is then that of `inBytes`.
-/

set_option autoImplicit false

namespace Kernel4GameServer.TStream

open Lib

variable {buff_length : Nat} {s t : TStream buff_length} {pbuff : Mem UInt8} {size : Int}

/-- More rounds change nothing. -/
theorem plan32_mono {n m : Nat} {plan : InPlan} (h : s.plan32 n size = some plan) (hle : n ≤ m) :
    s.plan32 m size = some plan := by
  unfold plan32 at h ⊢
  simp only [Option.bind_eq_bind, Option.bind_eq_some_iff] at h ⊢
  obtain ⟨room, hroom, h⟩ := h
  refine ⟨room, hroom, ?_⟩
  split at h
  · rename_i hsize
    rw [if_pos hsize]
    simp only [Option.bind_eq_some_iff] at h ⊢
    obtain ⟨cursize, hcur, free, hfree, h⟩ := h
    refine ⟨cursize, hcur, free, hfree, ?_⟩
    split at h
    · rename_i hgrow
      rw [if_pos hgrow]
      simp only [Option.bind_eq_some_iff, Option.join_eq_some_iff] at h ⊢
      obtain ⟨first, hfirst, last, hlast, h⟩ := h
      exact ⟨first, hfirst, last, doWhile_mono hlast hle, h⟩
    · rename_i hgrow
      rw [if_neg hgrow]
      exact h
  · rename_i hsize
    rw [if_neg hsize]
    exact h

theorem in32_mono {n m : Nat} (h : in32 n s pbuff size = some t) (hle : n ≤ m) :
    in32 m s pbuff size = some t := by
  unfold in32 at h ⊢
  simp only [Option.bind_eq_bind, Option.bind_eq_some_iff] at h ⊢
  obtain ⟨plan, hplan, h⟩ := h
  exact ⟨plan, plan32_mono hplan hle, h⟩

/-- Bytes that fit behind `m_write` need no relocation. -/
theorem in32_of_fits (hs : s.Sized) (hmax : s.m_max < 2147483648) (hlow : -2147483648 ≤ size)
    (hfits : size ≤ s.m_max - s.m_write) (pbuff : Mem UInt8) :
    in32 0 s pbuff size = some (s.inBytes pbuff size) := by
  obtain ⟨h0, -, h2, -⟩ := hs
  have hroom : inS32 (s.m_max - s.m_write) = some (s.m_max - s.m_write) :=
    inS32_of_range (by omega) (by omega)
  have hwrite : inS32 (s.m_write + size) = some (s.m_write + size) :=
    inS32_of_range (by omega) (by omega)
  have hplan : s.inPlan size = .stay := if_neg (by omega)
  have hplan32 : s.plan32 0 size = some .stay := by
    simp only [plan32, hroom, Option.bind_eq_bind, Option.bind_some]
    exact if_neg (by omega)
  simp [in32, hplan32, relocate32, hroom, hwrite, inBytes, hplan, relocate, copyIn, advance]

/-- With room `in` stays in range, and does what it does without the checks. -/
theorem in32_of_hasRoom (hL : 1 ≤ buff_length) (hs : s.Sized) (hmax : s.m_max < 2147483648)
    (hsize : 0 ≤ size) (hroom : s.HasRoom size) (pbuff : Mem UInt8) :
    ∃ n, in32 n s pbuff size = some (s.inBytes pbuff size) := by
  rcases hroom with hfits | hbound
  · exact ⟨0, in32_of_fits hs hmax (by omega) hfits pbuff⟩
  · refine in32_of_sized hL hs hsize ?_ pbuff
    simp only [TStream.size] at hbound
    omega

/-- A capacity below `2 ^ 31` is at least a `buff_length` below it. -/
theorem le_of_dvd_of_lt {m : Int} (hdvd : (buff_length : Int) ∣ 2147483648)
    (hm : (buff_length : Int) ∣ m) (hlt : m < 2147483648) : m + buff_length ≤ 2147483648 := by
  have hle := Int.le_of_dvd (by omega) (Int.dvd_sub hdvd hm)
  omega

/-- Without room some expression of `in` leaves the range, however long its loop may run. -/
theorem hasRoom_of_plan32 {n : Nat} {plan : InPlan} (hdvd : (buff_length : Int) ∣ 2147483648)
    (hs : s.Sized) (hmax : s.m_max < 2147483648) (hplan : s.plan32 n size = some plan) :
    s.HasRoom size := by
  obtain ⟨hfits, hgrown⟩ := plan32_fits hs hplan
  cases plan with
  | stay => exact .inl hfits
  | grow m =>
      -- The new capacity is below `2 ^ 31`, and more than what it has to hold.
      obtain ⟨hm, -, hlt⟩ := hgrown m rfl m rfl
      have hle := le_of_dvd_of_lt hdvd hm hlt
      have hlarge := hfits.1
      refine .inr ?_
      simp only [TStream.size]
      omega
  | compact =>
      have hle := le_of_dvd_of_lt hdvd hs.dvd_max hmax
      simp only [PlanFits] at hfits
      refine .inr ?_
      simp only [TStream.size]
      omega

/-- A call of `in` stays in `s32` exactly when there is room. -/
theorem inRange_iff (hL : 1 ≤ buff_length) (hdvd : (buff_length : Int) ∣ 2147483648)
    (hs : s.Sized) (hmax : s.m_max < 2147483648) (hsize : 0 ≤ size) (pbuff : Mem UInt8) :
    s.InRange pbuff size ↔ s.HasRoom size := by
  constructor
  · rintro ⟨n, t, h⟩
    obtain ⟨plan, hplan, -⟩ := in32_eq h
    exact hasRoom_of_plan32 hdvd hs hmax hplan
  · intro hroom
    obtain ⟨n, hn⟩ := in32_of_hasRoom hL hs hmax hsize hroom pbuff
    exact ⟨n, _, hn⟩

/-- With room the stream behind `in` is one in use again. -/
theorem inBytes_sized (hL : 1 ≤ buff_length) (hs : s.Sized) (hmax : s.m_max < 2147483648)
    (hsize : 0 ≤ size) (hroom : s.HasRoom size) (pbuff : Mem UInt8) :
    (s.inBytes pbuff size).Sized := by
  obtain ⟨n, hn⟩ := in32_of_hasRoom hL hs hmax hsize hroom pbuff
  exact in32_sized hs hsize hn

/-- With room the capacity stays below `2 ^ 31`. -/
theorem inBytes_max_of_hasRoom (hmax : s.m_max < 2147483648) (hroom : s.HasRoom size)
    (pbuff : Mem UInt8) : (s.inBytes pbuff size).m_max < 2147483648 := by
  rcases hroom with hfits | hbound
  · have hplan : s.inPlan size = .stay := if_neg (by omega)
    simp only [inBytes, hplan, relocate, copyIn, advance]
    exact hmax
  · exact inBytes_max_lt pbuff hmax hbound

/-- Room for two pieces is room for the second behind the first. -/
theorem HasRoom.rest (hL : 0 < buff_length) (hwf : s.WellFormed) {n m : Nat}
    (hroom : s.HasRoom (n + m : Nat)) (pbuff : Mem UInt8) : (s.inBytes pbuff n).HasRoom m := by
  rcases hroom with hfits | hbound
  · have hplan : s.inPlan n = .stay := if_neg (by omega)
    refine .inl ?_
    simp only [inBytes, hplan, relocate, copyIn, advance]
    omega
  · have hsize := inBytes_size hL hwf pbuff (Int.natCast_nonneg n)
    refine .inr ?_
    rw [hsize]
    omega

/-- An `out` stays in range, and does what it does without the checks. -/
theorem out32_eq (hwf : s.WellFormed) (hmax : s.m_max < 2147483648) {k : Int}
    (hlow : -2147483648 ≤ k) : out32 s k = some (s.out k) := by
  obtain ⟨h0, h1, h2⟩ := hwf
  have hpending : inS32 (s.m_write - s.m_read) = some (s.m_write - s.m_read) :=
    inS32_of_range (by omega) (by omega)
  unfold out32 out
  simp only [hpending, Option.bind_eq_bind, Option.bind_some]
  by_cases hk : k > s.m_write - s.m_read
  · rw [if_pos hk, if_pos hk]
    rfl
  · have hread : inS32 (s.m_read + k) = some (s.m_read + k) :=
      inS32_of_range (by omega) (by omega)
    rw [if_neg hk, if_neg hk, hread]
    rfl

/-- `out` leaves a stream in use. -/
theorem out_sized (hs : s.Sized) (hwf : s.WellFormed) (hmax : s.m_max < 2147483648) {k : Int}
    (hlow : -2147483648 ≤ k) : (s.out k).Sized :=
  out32_sized hs (out32_eq hwf hmax hlow)

/-- A stream in use: its offsets are in order, and its capacity is one in `s32`. -/
structure InUse (s : TStream buff_length) : Prop where
  wf : s.WellFormed
  sized : s.Sized
  max_lt : s.m_max < 2147483648

theorem init_inUse (hlt : (buff_length : Int) < 2147483648) :
    (init : TStream buff_length).InUse :=
  ⟨init_wf, init_sized, hlt⟩

/-- Offsets that move in a block leave the stream in use. -/
theorem InUse.of_max (h : s.InUse) (hwf : t.WellFormed) (hmax : t.m_max = s.m_max) : t.InUse where
  wf := hwf
  sized :=
    { write_nonneg := Int.le_trans hwf.read_nonneg hwf.read_le
      read_le := hwf.read_le
      write_le := hwf.write_le
      dvd_max := hmax ▸ h.sized.dvd_max
      le_max := hmax ▸ h.sized.le_max
      max_le := hmax ▸ h.sized.max_le }
  max_lt := hmax ▸ h.max_lt

/-- With room `in` leaves the stream in use. -/
theorem InUse.inBytes (hL : 1 ≤ buff_length) (h : s.InUse) (hsize : 0 ≤ size)
    (hroom : s.HasRoom size) (pbuff : Mem UInt8) : (s.inBytes pbuff size).InUse where
  wf := inBytes_wf hL h.wf pbuff hsize
  sized := inBytes_sized hL h.sized h.max_lt hsize hroom pbuff
  max_lt := inBytes_max_of_hasRoom h.max_lt hroom pbuff

theorem InUse.out (h : s.InUse) {k : Int} (hk : 0 ≤ k) : (s.out k).InUse :=
  h.of_max (out_wf h.wf hk) (out_max s k)

end Kernel4GameServer.TStream

namespace Kernel4GameServer.StreamState

open Lib

variable {buff_length : Nat} {st st' : StreamState buff_length}

/-- With room the capacities stay below `2 ^ 31`. -/
theorem Small.step_of_roomy {a : StreamAction} (h : st.Small) (hroom : st.Roomy a)
    (hstep : st.step a = some st') : st'.Small := by
  have hother : st.Bounded a → st'.Small := fun hb => h.step hb hstep
  cases a with
  | write src =>
      rcases hroom with hfits | hbound
      · -- The bytes fit, so the plan is to stay.
        cases step_cases hstep with
        | write src hw =>
            have hplan : st.stream.inPlan src.length = .stay := if_neg (by omega)
            refine ⟨h.max_lt, fun n src' hw' => ?_⟩
            simp only [StreamWriter.planned.injEq, hplan] at hw'
            cases hw'.1
      · exact hother hbound
  | _ => exact hother trivial

/-- While there is room for each write, every step of the two threads stays in `s32`. -/
theorem inRange_of_roomy (hL : 1 ≤ buff_length) (h : st.Inv) (hsmall : st.Small)
    {a : StreamAction} (hroom : st.Roomy a) (hstep : st.step a = some st') : st.InRange a := by
  obtain ⟨h0, h1, h2⟩ := h.wf
  have hmax := hsmall.max_lt
  have hsome : ∀ x : Int, -2147483648 ≤ x → x < 2147483648 → (inS32 x).isSome = true :=
    fun x hx hx' => by rw [inS32_of_range hx hx']; rfl
  cases step_cases hstep with
  | write src _ =>
      rcases hroom with hfits | hbound
      · refine ⟨0, .stay, ?_⟩
        have hfree : inS32 (st.stream.m_max - st.stream.m_write)
            = some (st.stream.m_max - st.stream.m_write) := inS32_of_range (by omega) (by omega)
        simp only [TStream.plan32, hfree, Option.bind_eq_bind, Option.bind_some]
        exact if_neg (by omega)
      · simp only [TStream.size] at hbound
        have hlen : (0 : Int) ≤ src.length := Int.natCast_nonneg _
        obtain ⟨n, hn⟩ := TStream.plan32_of_order hL (by omega) h1 h2 (by omega) hlen (by omega)
        exact ⟨n, _, hn⟩
  | stay src hw =>
      rw [InRange, hw]
      rfl
  | relocate plan src hw _ =>
      rw [InRange, hw]
      have hcur : inS32 (st.stream.m_write - st.stream.m_read)
          = some (st.stream.m_write - st.stream.m_read) := inS32_of_range (by omega) (by omega)
      cases plan <;> simp [TStream.relocate32, hcur]
  | copy src _ => exact hsome _ (by omega) (by omega)
  | advance src hw =>
      have hfits := h.fits
      rw [hw] at hfits
      have hroom' := hfits.1
      rw [InRange, hw]
      exact hsome _ (by omega) (by omega)
  | lock _ => trivial
  | look _ => exact hsome _ (by omega) (by omega)
  | out v k _ hk _ =>
      show (st.stream.out32 k).isSome = true
      rw [TStream.out32_eq h.wf hmax (by omega)]
      rfl
  | free _ => trivial

end Kernel4GameServer.StreamState
