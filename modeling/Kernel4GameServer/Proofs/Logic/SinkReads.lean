import Kernel4GameServer.Logic.SinkReads
import Kernel4GameServer.Proofs.Logic.SinkDrain

/-!
# `Kernel4GameServer.Proofs.Logic.SinkReads`: which bytes `OnRecv` depends on

`OnRecv` reads the length before it knows that four bytes are there, takes a negative length
for one of a frame, and reads the group id of a frame that ends behind its header.
`onRecv_keeps_iff` says that these are the only calls that read what they were not given.
-/

set_option autoImplicit false

namespace Kernel4GameServer

open Lib

@[simp] theorem run_s32At (context : Mem UInt8) (off : Int) :
    (s32At off).run context = readS32 context off := by
  simp [s32At, readS32]

@[simp] theorem touched_s32At (context : Mem UInt8) (off : Int) :
    (s32At off).touched context = [off, off + 1, off + 2, off + 3] := by
  simp [s32At]

@[simp] theorem run_bytesAt (context : Mem UInt8) (n : Nat) :
    (bytesAt n).run context = Mem.slice context 0 n := by
  simp [bytesAt, Mem.slice, Function.comp_def]

theorem mem_touched_bytesAt {context : Mem UInt8} {n : Nat} {off : Int} :
    off ∈ (bytesAt n).touched context ↔ 0 ≤ off ∧ off < n := by
  simp only [bytesAt, Reading.touched_cells, List.mem_map, List.mem_range]
  constructor
  · rintro ⟨i, hi, rfl⟩
    omega
  · rintro ⟨hlo, hhi⟩
    exact ⟨off.toNat, by omega, by omega⟩

namespace ClientConnectSink

/-- The computation with its reads has the result of `OnRecv`. -/
theorem run_OnRecvReads (sink : ClientConnectSink) (context : Mem UInt8) (size : Int) :
    (sink.OnRecvReads size).run context = seenRecv (sink.OnRecv context size) := by
  simp only [OnRecvReads, OnRecv, Reading.run_bind, run_s32At]
  split
  · rfl
  · split
    · rw [Reading.run_bind, run_s32At]
      split
      · simp [seenRecv, SinkCall.seen]
      · split
        · simp [seenRecv, SinkCall.seen]
        · rfl
    · rfl

/-- `OnRecv` takes the bytes for those of a frame of the length `nLen`. -/
def Accepts (nLen size : Int) : Prop :=
  nLen ≤ 4096 ∧ nLen ≤ size ∧ sizeT nLen ≥ sizeof_testmsgheader

/-- The bytes that `OnRecv` reads. -/
theorem mem_touched {sink : ClientConnectSink} {context : Mem UInt8} {size off : Int} :
    off ∈ (sink.OnRecvReads size).touched context ↔
      0 ≤ off ∧ off < 4 ∨ Accepts (readS32 context 0) size ∧
        (4 ≤ off ∧ off < 8 ∨
          readS32 context 4 = TEST_MSG_ID_SET_GROUP ∧ 24 ≤ off ∧ off < 28 ∨
          readS32 context 4 = TEST_MSG_ID_BROADCAST ∧ 0 ≤ off ∧ off < readS32 context 0) := by
  have hlength : off ∈ ([0, 0 + 1, 0 + 2, 0 + 3] : List Int) ↔ 0 ≤ off ∧ off < 4 := by
    simp only [List.mem_cons, List.not_mem_nil, or_false]
    omega
  have hmsgid : off ∈ ([4, 4 + 1, 4 + 2, 4 + 3] : List Int) ↔ 4 ≤ off ∧ off < 8 := by
    simp only [List.mem_cons, List.not_mem_nil, or_false]
    omega
  have hgroup : off ∈ ([sizeof_testmsgheader, sizeof_testmsgheader + 1, sizeof_testmsgheader + 2,
      sizeof_testmsgheader + 3] : List Int) ↔ 24 ≤ off ∧ off < 28 := by
    simp only [List.mem_cons, List.not_mem_nil, or_false, sizeof_testmsgheader]
    omega
  simp only [OnRecvReads, Reading.touched_bind, run_s32At, touched_s32At, List.mem_append, hlength,
    Accepts]
  refine or_congr_right ?_
  by_cases hbig : readS32 context 0 > 4096
  · simp [hbig, Int.not_le.mpr hbig]
  · by_cases hframe : readS32 context 0 ≤ size ∧ sizeT (readS32 context 0) ≥ sizeof_testmsgheader
    · have hacc : readS32 context 0 ≤ 4096 ∧ readS32 context 0 ≤ size ∧
          sizeT (readS32 context 0) ≥ sizeof_testmsgheader := ⟨Int.not_lt.mp hbig, hframe⟩
      rw [if_neg hbig, if_pos hframe, Reading.touched_bind, touched_s32At, List.mem_append, hmsgid,
        and_iff_right hacc, run_s32At]
      refine or_congr_right ?_
      by_cases hset : readS32 context 4 = TEST_MSG_ID_SET_GROUP
      · simp [hset, hgroup, TEST_MSG_ID_SET_GROUP, TEST_MSG_ID_BROADCAST]
      · by_cases hcast : readS32 context 4 = TEST_MSG_ID_BROADCAST
        · rw [if_neg hset, if_pos hcast, Reading.touched_bind, List.mem_append,
            mem_touched_bytesAt]
          have hne : TEST_MSG_ID_BROADCAST ≠ TEST_MSG_ID_SET_GROUP := by decide
          simp only [hcast, hne, false_and, false_or, true_and, Reading.touched_pure,
            List.not_mem_nil, or_false]
          constructor <;> rintro ⟨hlo, hhi⟩ <;> exact ⟨hlo, by omega⟩
        · simp [hset, hcast]
    · simp only [hframe, and_false, false_and, iff_false, if_neg hbig]
      simp

/-- A call of `OnRecv` keeps to the bytes it was given. Memory that agrees with the memory at
`context` on the first `size` bytes gives the same value, the same session and the same
calls; so does memory that agrees on a frame. Nothing behind the `size` bytes is read, and of a
frame nothing behind its `nLen` bytes. -/
structure KeepsToBytes (sink : ClientConnectSink) (context : Mem UInt8) (size : Int) : Prop where
  same : ∀ context' : Mem UInt8, (∀ i, 0 ≤ i → i < size → context' i = context i) →
    seenRecv (sink.OnRecv context' size) = seenRecv (sink.OnRecv context size)
  same_frame : Accepts (readS32 context 0) size → ∀ context' : Mem UInt8,
    (∀ i, 0 ≤ i → i < readS32 context 0 → context' i = context i) →
      seenRecv (sink.OnRecv context' size) = seenRecv (sink.OnRecv context size)
  inside : ∀ off ∈ (sink.OnRecvReads size).touched context, 0 ≤ off ∧ off < size
  inside_frame : Accepts (readS32 context 0) size →
    ∀ off ∈ (sink.OnRecvReads size).touched context, off < readS32 context 0

/-- Memory that agrees on the bytes read gives the same answer. -/
theorem seenRecv_agree {sink : ClientConnectSink} {context context' : Mem UInt8} {size : Int}
    (h : ∀ off ∈ (sink.OnRecvReads size).touched context, context' off = context off) :
    seenRecv (sink.OnRecv context' size) = seenRecv (sink.OnRecv context size) := by
  rw [← run_OnRecvReads, ← run_OnRecvReads]
  exact ((sink.OnRecvReads size).agree h).1

/-- The exact condition under which `OnRecv` keeps to the bytes it was given: there are four
of them, the length is not negative, and a frame that sets the group has room for the group
id behind its header. -/
theorem onRecv_keeps_iff (sink : ClientConnectSink) (context : Mem UInt8) (size : Int) :
    sink.KeepsToBytes context size ↔
      4 ≤ size ∧ 0 ≤ readS32 context 0 ∧
        (24 ≤ readS32 context 0 → readS32 context 0 ≤ size → readS32 context 0 ≤ 4096 →
          readS32 context 4 = TEST_MSG_ID_SET_GROUP → 28 ≤ readS32 context 0) := by
  have hrange := readS32_range context 0
  have haccepts : Accepts (readS32 context 0) size ↔ readS32 context 0 ≤ 4096 ∧
      readS32 context 0 ≤ size ∧ (readS32 context 0 < 0 ∨ 24 ≤ readS32 context 0) := by
    rw [Accepts, sizeof_le_sizeT hrange.1]
  constructor
  · intro h
    -- The length field is read in any case.
    have hsize : 4 ≤ size := by
      have := h.inside 3 (mem_touched.mpr (by omega))
      omega
    refine ⟨hsize, Int.not_lt.mp fun hneg => ?_, fun hlen hle hmax hset =>
      Int.not_lt.mp fun hshort => ?_⟩
    · -- A negative length is taken for that of a frame, and the message id read behind it.
      have hacc := haccepts.mpr ⟨by omega, by omega, .inl hneg⟩
      have := h.inside_frame hacc 4 (mem_touched.mpr (.inr ⟨hacc, by omega⟩))
      omega
    · -- The group id ends at byte 28, behind a frame that is shorter.
      have hacc := haccepts.mpr ⟨hmax, hle, .inr hlen⟩
      have := h.inside_frame hacc 27 (mem_touched.mpr (.inr ⟨hacc, .inr (.inl ⟨hset, by omega⟩)⟩))
      omega
  · rintro ⟨hsize, hnonneg, hgroup⟩
    -- Everything that is read of an accepted frame lies in it.
    have hframe : Accepts (readS32 context 0) size →
        ∀ off ∈ (sink.OnRecvReads size).touched context, off < readS32 context 0 := by
      intro hacc off hoff
      obtain ⟨hmax, hle, hlen⟩ := haccepts.mp hacc
      rcases mem_touched.mp hoff with hoff | ⟨-, hoff | ⟨hset, hoff⟩ | ⟨-, hoff⟩⟩
      · omega
      · omega
      · have := hgroup (by omega) hle hmax hset
        omega
      · exact hoff.2
    have hinside : ∀ off ∈ (sink.OnRecvReads size).touched context, 0 ≤ off ∧ off < size := by
      intro off hoff
      rcases mem_touched.mp hoff with hlo | ⟨hacc, hlo⟩
      · omega
      · have := hframe hacc off hoff
        have := (haccepts.mp hacc).2.1
        omega
    refine ⟨fun context' heq => seenRecv_agree fun off hoff => ?_,
      fun hacc context' heq => seenRecv_agree fun off hoff => ?_, hinside, hframe⟩
    · exact heq off (hinside off hoff).1 (hinside off hoff).2
    · exact heq off (hinside off hoff).1 (hframe hacc off hoff)

/-- One byte is given. What is left behind it decides whether the session closes its
connection. And a frame of 24 bytes that sets the group takes the group id from the frame behind
it. -/
theorem onRecv_reads_on :
    (∃ sink : ClientConnectSink, ∃ context context' : Mem UInt8,
      (∀ i, 0 ≤ i → i < 1 → context' i = context i) ∧
        (seenRecv (sink.OnRecv context 1)).calls = [] ∧
        (seenRecv (sink.OnRecv context' 1)).calls = [.Close]) ∧
      ∃ sink : ClientConnectSink, ∃ context context' : Mem UInt8,
        readS32 context 0 = 24 ∧ (∀ i, 0 ≤ i → i < 24 → context' i = context i) ∧
          (seenRecv (sink.OnRecv context 48)).calls = [.SetGroupID 24] ∧
          (seenRecv (sink.OnRecv context' 48)).calls = [.SetGroupID 25] := by
  refine ⟨⟨⟨true, -1⟩, Mem.ofList [24] 0, Mem.ofList [24, 0, 0, 1] 0, ?_, by decide +kernel,
    by decide +kernel⟩, ⟨true, -1⟩,
    Mem.ofList ([24, 0, 0, 0] ++ List.replicate 20 0 ++ [24, 0, 0, 0]) 0,
    Mem.ofList ([24, 0, 0, 0] ++ List.replicate 20 0 ++ [25, 0, 0, 0]) 0, by decide +kernel, ?_,
    by decide +kernel, by decide +kernel⟩
  · intro i hlo hhi
    obtain rfl : i = 0 := by omega
    rfl
  · intro i hlo hhi
    have hfront := fun r : List UInt8 =>
      Mem.ofList_append (l := [24, 0, 0, 0] ++ List.replicate 20 0) r 0 hlo (by simpa using hhi)
    rw [hfront, hfront]

end ClientConnectSink

end Kernel4GameServer
