import Kernel4GameServer.Proofs.Public.TStream
import Kernel4GameServer.Public.TStreamSteps

/-!
# `Kernel4GameServer.Proofs.Public.TStreamFifo`: the stream is a byte FIFO

`StreamState.Inv` relates the offsets, the capacity and the content of the stream to where
the two threads are. `Inv.step` keeps it over each step of either thread, and `stream_fifo`
reads off it what both threads rely on.

The point of the invariant is `StreamWriter.Fits`. The writer picks its plan from a value
of `m_read` that the reader may have moved when the lock is taken. `PlanFits` speaks of
the pending bytes, and the reader can only make them fewer.
-/

set_option autoImplicit false

namespace Kernel4GameServer

open Lib

variable {buff_length : Nat}

/-- What the writer may rely on where it is. -/
def StreamWriter.Fits (s : TStream buff_length) : StreamWriter → Prop
  | .idle => True
  | .planned plan src => s.PlanFits src.length plan
  | .relocated src => (src.length : Int) ≤ s.m_max - s.m_write
  | .copied src =>
      (src.length : Int) ≤ s.m_max - s.m_write ∧
        Mem.slice s.m_pbuff.bytes s.m_write src.length = src

/-- The bytes a reader has seen are where it saw them, in the block it saw. -/
structure View.Holds (s : TStream buff_length) (v : View) : Prop where
  block : s.m_pbuff.alloc = v.block
  bytes : Mem.slice s.m_pbuff.bytes v.off v.nLeft.toNat = v.bytes
  len : v.off + v.nLeft ≤ s.m_write
  read_le : v.off ≤ s.m_read
  nLeft_nonneg : 0 ≤ v.nLeft

namespace StreamState

/-- What each step does, by action. -/
inductive Step (st : StreamState buff_length) :
    StreamAction → StreamState buff_length → Prop where
  | write (src : List UInt8) : st.writer = .idle →
      Step st (.write src) { st with writer := .planned (st.stream.inPlan src.length) src }
  | stay (src : List UInt8) : st.writer = .planned .stay src →
      Step st .relocate { st with writer := .relocated src }
  | relocate (plan : InPlan) (src : List UInt8) : st.writer = .planned plan src →
      st.reader = .idle →
      Step st .relocate
        { st with stream := st.stream.relocate plan, writer := .relocated src }
  | copy (src : List UInt8) : st.writer = .relocated src →
      Step st .copy
        { st with
          stream := st.stream.copyIn (Mem.ofList src 0) src.length
          writer := .copied src }
  | advance (src : List UInt8) : st.writer = .copied src →
      Step st .advance
        { st with
          stream := st.stream.advance src.length
          writer := .idle
          written := st.written ++ src }
  | lock : st.reader = .idle → Step st .lock { st with reader := .locked }
  | look : st.reader = .locked →
      Step st .look
        { st with
          reader := .looking
            { block := st.stream.m_pbuff.alloc
              off := st.stream.m_read
              nLeft := st.stream.size
              bytes := st.stream.unread } }
  | out (v : View) (k : Int) : st.reader = .looking v → 0 ≤ k → k ≤ v.nLeft →
      Step st (.out k)
        { st with
          stream := st.stream.out k
          reader := .done v
          taken := st.taken ++ v.bytes.take k.toNat }
  | free : st.reader ≠ .idle → Step st .free { st with reader := .idle }

/-- A step that is taken is one of the above. -/
theorem step_cases {st st' : StreamState buff_length} {a : StreamAction}
    (hstep : st.step a = some st') : Step st a st' := by
  cases a with
  | write src =>
      simp only [StreamState.step] at hstep
      split at hstep
      · rename_i hw
        exact Option.some.inj hstep ▸ .write src hw
      · cases hstep
  | relocate =>
      simp only [StreamState.step] at hstep
      split at hstep
      · rename_i src hw
        exact Option.some.inj hstep ▸ .stay src hw
      · rename_i plan src _ hw hr
        exact Option.some.inj hstep ▸ .relocate plan src hw hr
      · cases hstep
  | copy =>
      simp only [StreamState.step] at hstep
      split at hstep
      · rename_i src hw
        exact Option.some.inj hstep ▸ .copy src hw
      · cases hstep
  | advance =>
      simp only [StreamState.step] at hstep
      split at hstep
      · rename_i src hw
        exact Option.some.inj hstep ▸ .advance src hw
      · cases hstep
  | lock =>
      simp only [StreamState.step] at hstep
      split at hstep
      · rename_i hr
        exact Option.some.inj hstep ▸ .lock hr
      · cases hstep
  | look =>
      simp only [StreamState.step] at hstep
      split at hstep
      · rename_i hr
        exact Option.some.inj hstep ▸ .look hr
      · cases hstep
  | out k =>
      simp only [StreamState.step] at hstep
      split at hstep
      · rename_i v hr
        split at hstep
        · rename_i hk
          exact Option.some.inj hstep ▸ .out v k hr hk.1 hk.2
        · cases hstep
      · cases hstep
  | free =>
      simp only [StreamState.step] at hstep
      split at hstep
      · cases hstep
      · rename_i hr
        exact Option.some.inj hstep ▸ .free hr

/-- The invariant of a stream with one writer and one reader. -/
structure Inv (st : StreamState buff_length) : Prop where
  wf : st.stream.WellFormed
  fits : st.writer.Fits st.stream
  fifo : st.taken ++ st.stream.unread = st.written
  view : ∀ v, st.reader.view = some v → v.Holds st.stream
  looking : ∀ v, st.reader = .looking v → st.stream.m_read = v.off

/-- A new stream satisfies the invariant. -/
theorem inv_init : (init : StreamState buff_length).Inv where
  wf := TStream.init_wf
  fits := trivial
  fifo := rfl
  view := fun v h => by simp [init, StreamReader.view] at h
  looking := fun v h => by simp [init] at h

/-- A reader that looks sees all unread bytes, and they are a prefix of the unread bytes
for as long as it looks. -/
theorem Inv.looking_unread {st : StreamState buff_length} (h : st.Inv) {v : View}
    (hr : st.reader = .looking v) : ∃ later, st.stream.unread = v.bytes ++ later := by
  have hv := h.view v (by rw [hr]; rfl)
  have hoff := h.looking v hr
  have hlen := hv.len
  have hnn := hv.nLeft_nonneg
  have hsplit := Mem.slice_split st.stream.m_pbuff.bytes v.off
    (show v.nLeft.toNat ≤ (st.stream.m_write - v.off).toNat by omega)
  rw [TStream.unread, hoff, hsplit, hv.bytes]
  exact ⟨_, rfl⟩

/-- The bytes a looking reader has seen are `nLeft` many. -/
theorem Inv.length_view {st : StreamState buff_length} (h : st.Inv) {v : View}
    (hr : st.reader.view = some v) : v.bytes.length = v.nLeft.toNat := by
  rw [← (h.view v hr).bytes, Mem.length_slice]

/-- The unlocked test of `in` keeps the invariant. -/
theorem Inv.write (hL : 0 < buff_length) {st : StreamState buff_length} (h : st.Inv)
    (src : List UInt8) :
    ({ st with writer := .planned (st.stream.inPlan src.length) src } :
      StreamState buff_length).Inv :=
  { h with fits := TStream.inPlan_fits hL st.stream src.length }

/-- The relocation keeps the invariant: the reader is outside, so no view speaks of the
bytes that move. -/
theorem Inv.relocate {st : StreamState buff_length} (h : st.Inv) {plan : InPlan}
    {src : List UInt8} (hw : st.writer = .planned plan src) (hr : st.reader = .idle) :
    ({ st with stream := st.stream.relocate plan, writer := .relocated src } :
      StreamState buff_length).Inv := by
  have hp : st.stream.PlanFits src.length plan := by
    have hfits := h.fits
    rw [hw] at hfits
    exact hfits
  have hsize : (0 : Int) ≤ src.length := Int.natCast_nonneg _
  exact
    { wf := TStream.relocate_wf h.wf hsize hp
      fits := TStream.relocate_room hp
      fifo := by
        show st.taken ++ (st.stream.relocate plan).unread = st.written
        rw [TStream.relocate_unread h.wf hsize hp]
        exact h.fifo
      view := fun v hv => by simp [hr, StreamReader.view] at hv
      looking := fun v hv => by simp [hr] at hv }

/-- The copy keeps the invariant: it writes behind `m_write`, and every view ends there. -/
theorem Inv.copy {st : StreamState buff_length} (h : st.Inv) {src : List UInt8}
    (hw : st.writer = .relocated src) :
    ({ st with
        stream := st.stream.copyIn (Mem.ofList src 0) src.length
        writer := .copied src } : StreamState buff_length).Inv := by
  have hroom : (src.length : Int) ≤ st.stream.m_max - st.stream.m_write := by
    have hfits := h.fits
    rw [hw] at hfits
    exact hfits
  have hslice := TStream.copyIn_slice (Mem.ofList src 0) (Int.natCast_nonneg src.length) hroom
  rw [Int.toNat_natCast, Mem.slice_ofList] at hslice
  exact
    { wf := ⟨h.wf.read_nonneg, h.wf.read_le, h.wf.write_le⟩
      fits := ⟨hroom, hslice⟩
      fifo := by
        show st.taken ++ (st.stream.copyIn _ _).unread = st.written
        rw [TStream.copyIn_unread h.wf]
        exact h.fifo
      view := fun v hv => by
        obtain ⟨hblock, hbytes, hlen, hread, hnn⟩ := h.view v hv
        refine ⟨hblock, ?_, hlen, hread, hnn⟩
        rw [← hbytes]
        exact tools.SafeMemcpy_front (by omega)
      looking := h.looking }

/-- The store to `m_write` keeps the invariant: it hands the copied bytes over. -/
theorem Inv.advance {st : StreamState buff_length} (h : st.Inv) {src : List UInt8}
    (hw : st.writer = .copied src) :
    ({ st with
        stream := st.stream.advance src.length
        writer := .idle
        written := st.written ++ src } : StreamState buff_length).Inv := by
  obtain ⟨hroom, hslice⟩ : (src.length : Int) ≤ st.stream.m_max - st.stream.m_write ∧
      Mem.slice st.stream.m_pbuff.bytes st.stream.m_write src.length = src := by
    have hfits := h.fits
    rw [hw] at hfits
    exact hfits
  have hsize : (0 : Int) ≤ src.length := Int.natCast_nonneg _
  obtain ⟨h0, h1, h2⟩ := h.wf
  exact
    { wf := ⟨h0, by simp only [TStream.advance]; omega, by simp only [TStream.advance]; omega⟩
      fits := trivial
      fifo := by
        show st.taken ++ (st.stream.advance src.length).unread = st.written ++ src
        rw [TStream.advance_unread h.wf hsize, Int.toNat_natCast, hslice, ← List.append_assoc,
          h.fifo]
      view := fun v hv => by
        obtain ⟨hblock, hbytes, hlen, hread, hnn⟩ := h.view v hv
        exact ⟨hblock, hbytes, by simp only [TStream.advance]; omega, hread, hnn⟩
      looking := h.looking }

/-- Taking the lock keeps the invariant. -/
theorem Inv.lock {st : StreamState buff_length} (h : st.Inv) :
    ({ st with reader := .locked } : StreamState buff_length).Inv :=
  { h with
    view := fun v hv => by simp [StreamReader.view] at hv
    looking := fun v hv => by simp at hv }

/-- `size()` and `buff()` keep the invariant: they see all unread bytes. -/
theorem Inv.look {st : StreamState buff_length} (h : st.Inv) :
    ({ st with
        reader := .looking
          { block := st.stream.m_pbuff.alloc
            off := st.stream.m_read
            nLeft := st.stream.size
            bytes := st.stream.unread } } : StreamState buff_length).Inv := by
  have hle := h.wf.read_le
  exact
    { h with
      view := fun v hv => by
        simp only [StreamReader.view, Option.some.injEq] at hv
        subst hv
        exact ⟨rfl, rfl, by simp only [TStream.size]; omega, Int.le_refl _,
          by simp only [TStream.size]; omega⟩
      looking := fun v hv => by
        simp only [StreamReader.looking.injEq] at hv
        subst hv
        rfl }

/-- `out(k)` within the seen length keeps the invariant: it takes the first `k` bytes the
reader saw, and the plan of the writer stays good. -/
theorem Inv.out {st : StreamState buff_length} (h : st.Inv) {v : View}
    (hr : st.reader = .looking v) {k : Int} (hk : 0 ≤ k) (hkv : k ≤ v.nLeft) :
    ({ st with
        stream := st.stream.out k
        reader := .done v
        taken := st.taken ++ v.bytes.take k.toNat } : StreamState buff_length).Inv := by
  have hview : st.reader.view = some v := by rw [hr]; rfl
  have hv := h.view v hview
  have hoff := h.looking v hr
  obtain ⟨later, hlater⟩ := h.looking_unread hr
  have hlen := h.length_view hview
  have hend := hv.len
  -- What the reader saw is still there, so the test of `out` does not fail.
  have hnot : ¬ k > st.stream.m_write - st.stream.m_read := by omega
  have hout : st.stream.out k = { st.stream with m_read := st.stream.m_read + k } := by
    rw [TStream.out, if_neg hnot]
  exact
    { wf := TStream.out_wf h.wf hk
      fits := by
        show st.writer.Fits (st.stream.out k)
        have hfits := h.fits
        cases hw : st.writer with
        | idle => trivial
        | planned plan src =>
            rw [hw] at hfits
            exact TStream.PlanFits.out hfits h.wf hk
        | relocated src =>
            rw [hw] at hfits
            rw [hout]
            exact hfits
        | copied src =>
            rw [hw] at hfits
            rw [hout]
            exact hfits
      fifo := by
        -- The taken bytes and what is left make up the unread bytes of before.
        have htake : v.bytes.take k.toNat ++ (v.bytes ++ later).drop k.toNat
            = v.bytes ++ later := by
          rw [List.drop_append_of_le_length (by omega), ← List.append_assoc,
            List.take_append_drop]
        show (st.taken ++ v.bytes.take k.toNat) ++ (st.stream.out k).unread = st.written
        rw [TStream.out_unread h.wf hk, hlater, List.append_assoc, htake, ← hlater]
        exact h.fifo
      view := fun v' hv' => by
        simp only [StreamReader.view, Option.some.injEq] at hv'
        subst hv'
        rw [hout]
        exact ⟨hv.block, hv.bytes, hv.len, by have := hv.read_le; dsimp only; omega,
          hv.nLeft_nonneg⟩
      looking := fun v' hv' => by simp at hv' }

/-- Releasing the lock keeps the invariant. -/
theorem Inv.free {st : StreamState buff_length} (h : st.Inv) :
    ({ st with reader := .idle } : StreamState buff_length).Inv :=
  { h with
    view := fun v hv => by simp [StreamReader.view] at hv
    looking := fun v hv => by simp at hv }

/-- Every step of either thread keeps the invariant. -/
theorem Inv.step (hL : 0 < buff_length) {st st' : StreamState buff_length} (h : st.Inv)
    {a : StreamAction} (hstep : st.step a = some st') : st'.Inv := by
  cases step_cases hstep with
  | write src _ => exact h.write hL src
  | stay src hw =>
      have hfits := h.fits
      rw [hw] at hfits
      exact { h with fits := hfits }
  | relocate plan src hw hr => exact h.relocate hw hr
  | copy src hw => exact h.copy hw
  | advance src hw => exact h.advance hw
  | lock _ => exact h.lock
  | look _ => exact h.look
  | out v k hr hk hkv => exact h.out hr hk hkv
  | free _ => exact h.free

/-- The bytes of finished and unfinished `in` calls after a step are the ones before it and
those it begins. -/
theorem step_writes {st st' : StreamState buff_length} {a : StreamAction}
    (hstep : st.step a = some st') :
    st'.written ++ st'.writer.pending = st.written ++ st.writer.pending ++ writes [a] := by
  cases step_cases hstep <;> simp [writes, StreamWriter.pending, *]

/-- The capacity, and the one a plan asks for, are at most `n`. -/
structure CapLe (n : Int) (st : StreamState buff_length) : Prop where
  max_le : st.stream.m_max ≤ n
  grow_le : ∀ k src, st.writer = .planned (.grow k) src → k ≤ n

/-- A step keeps the capacities at most `n` when the write it may begin leaves one
`buff_length` of room. -/
theorem CapLe.step {n : Int} {st st' : StreamState buff_length} {a : StreamAction}
    (h : st.CapLe n)
    (hb : ∀ src, a = .write src → st.stream.size + src.length + buff_length ≤ n)
    (hstep : st.step a = some st') : st'.CapLe n := by
  obtain ⟨hmax, hgrow⟩ := h
  cases step_cases hstep with
  | write src _ =>
      refine ⟨hmax, fun k src' hw => ?_⟩
      simp only [StreamWriter.planned.injEq] at hw
      have hle := TStream.inPlan_grow_le hw.1
      have hroom := hb src rfl
      omega
  | stay src _ => exact ⟨hmax, fun k src' hw => by cases hw⟩
  | relocate plan src hw _ =>
      refine ⟨?_, fun k src' hw' => by cases hw'⟩
      cases plan with
      | stay => exact hmax
      | grow k => exact hgrow k src hw
      | compact => exact hmax
  | copy src _ => exact ⟨hmax, fun k src' hw => by cases hw⟩
  | advance src _ => exact ⟨hmax, fun k src' hw => by cases hw⟩
  | lock _ => exact ⟨hmax, hgrow⟩
  | look _ => exact ⟨hmax, hgrow⟩
  | out v k _ _ _ =>
      refine ⟨?_, hgrow⟩
      rw [TStream.out_max]
      exact hmax
  | free _ => exact ⟨hmax, hgrow⟩

/-- The capacity, and the one a plan asks for, are below `2 ^ 31`. -/
structure Small (st : StreamState buff_length) : Prop where
  max_lt : st.stream.m_max < 2147483648
  grow_lt : ∀ n src, st.writer = .planned (.grow n) src → n < 2147483648

/-- A step keeps the capacities below `2 ^ 31` when the write it may begin is bounded. -/
theorem Small.step {st st' : StreamState buff_length} {a : StreamAction} (h : st.Small)
    (hb : st.Bounded a) (hstep : st.step a = some st') : st'.Small := by
  have hcap : st.CapLe 2147483647 :=
    ⟨Int.le_of_lt_add_one h.max_lt, fun k src hw => Int.le_of_lt_add_one (h.grow_lt k src hw)⟩
  have hcap' : st'.CapLe 2147483647 := by
    refine hcap.step (fun src ha => ?_) hstep
    subst ha
    exact Int.le_of_lt_add_one hb
  exact ⟨Int.lt_add_one_of_le hcap'.max_le,
    fun n src hw => Int.lt_add_one_of_le (hcap'.grow_le n src hw)⟩

/-- A new stream of a small `buff_length` is small. -/
theorem small_init (hL : buff_length < 2147483648) : (init : StreamState buff_length).Small :=
  ⟨by simp only [init, TStream.init]; omega, fun n src hw => by cases hw⟩

/-- Every reachable state satisfies the invariant. -/
theorem run_inv (hL : 0 < buff_length) {as : List StreamAction} {st : StreamState buff_length}
    (h : run step init as = some st) : st.Inv :=
  run_invariant (fun _ _ _ hi hs => hi.step hL hs) inv_init h

/-- The bytes of all `in` calls of a run are the finished ones and the unfinished one. -/
theorem run_writes {as : List StreamAction} {st : StreamState buff_length}
    (h : run step init as = some st) : st.written ++ st.writer.pending = writes as :=
  run_induction (fun as st => st.written ++ st.writer.pending = writes as) rfl
    (fun as s a s' _ ih hs => by
      rw [step_writes hs, ih, writes, writes, writes, List.flatMap_append]) h

/-- The stream is a byte FIFO between one writer and one reader, for every interleaving of
the steps of `in` with the sections of the reader. The offsets stay in order. The unlocked
copy fits. The bytes taken, the unread ones and those of the unfinished `in` are together
the bytes of all `in` calls in call order. What a reader sees in its section stays where it
saw it. The capacity is an `s32` while every write is bounded. -/
theorem stream_fifo (hL : 0 < buff_length) (as : List StreamAction)
    (st : StreamState buff_length) (h : run step init as = some st) :
    st.stream.WellFormed ∧
    (∀ src, st.writer = .relocated src →
      (src.length : Int) ≤ st.stream.m_max - st.stream.m_write) ∧
    st.taken ++ st.stream.unread ++ st.writer.pending = writes as ∧
    (∀ v, st.reader.view = some v →
      st.stream.m_pbuff.alloc = v.block ∧
      Mem.slice st.stream.m_pbuff.bytes v.off v.nLeft.toNat = v.bytes) ∧
    (buff_length < 2147483648 → AllSteps step Bounded (init : StreamState buff_length) as →
      st.stream.m_max < 2147483648) := by
  have hi := run_inv hL h
  refine ⟨hi.wf, fun src hw => ?_, ?_, fun v hv => ?_, fun hL' hb => ?_⟩
  · have hfits := hi.fits
    rw [hw] at hfits
    exact hfits
  · rw [hi.fifo]
    exact run_writes h
  · have hv' := hi.view v hv
    exact ⟨hv'.block, hv'.bytes⟩
  · exact (run_invariant_of (C := Bounded) (fun _ _ _ hs hc hstep => Small.step hs hc hstep)
      (small_init hL') hb h).max_lt

/-- A write of three bytes, a reader that takes two of them, and a write that begins inside
the reader's section and compacts behind it. -/
def compactRun : List StreamAction :=
  [.write [1, 2, 3], .relocate, .copy, .advance, .lock, .look, .out 2, .write [4, 5], .free,
    .relocate, .copy, .advance]

/-- The five bytes of that run on a stream of four. -/
theorem stream_fifo_compact :
    ∃ st : StreamState 4, run step init compactRun = some st ∧ st.stream.WellFormed ∧
      st.taken ++ st.stream.unread ++ st.writer.pending = [1, 2, 3, 4, 5] := by
  obtain ⟨st, hst⟩ : ∃ st : StreamState 4, run step init compactRun = some st := ⟨_, rfl⟩
  obtain ⟨hwf, -, hfifo, -⟩ := stream_fifo (by decide) compactRun st hst
  exact ⟨st, hst, hwf, hfifo⟩

end StreamState

end Kernel4GameServer
