import Mathlib.Tactic.Common
import Kernel4GameServer.Proofs.Public.TStream
import Kernel4GameServer.Public.TStreamCalls

/-!
# `Kernel4GameServer.Proofs.Public.TStreamCompact`: which compactions overlap

`SafeMemcpy` declares both pointers `__restrict` and calls `memcpy`, so the bytes it reads and
the bytes it writes may not overlap. A compaction moves the unread bytes down by `m_read`. The
test in front of it asks for room behind the bytes only, so it is taken with more unread bytes
than that.

* `inPlan_compact_iff`: when `in` compacts.
* `compact_disjoint_iff`: the two ranges are disjoint when half of the written bytes are taken.
* `compaction_disjoint_iff`: the same for all compactions of a run.
-/

set_option autoImplicit false

namespace Kernel4GameServer.TStream

open Lib

variable {buff_length : Nat}

/-- If the call compacts, it copies between ranges that do not overlap. -/
def CompactsDisjoint (s : TStream buff_length) : StreamCall → Prop
  | .inBytes src => s.inPlan src.length = .compact → s.compactSrc ∩ s.compactDest = ∅
  | .out _ => True

/-- Half of the bytes written since the last relocation are taken, or there is room behind
them, or there is not enough room in the block. -/
def HalfTaken (s : TStream buff_length) : StreamCall → Prop
  | .inBytes src =>
      s.m_max - s.m_write < src.length → src.length < s.m_max - s.size → s.m_write ≤ 2 * s.m_read
  | .out _ => True

instance (s : TStream buff_length) : ∀ a, Decidable (s.HalfTaken a)
  | .inBytes _ => inferInstanceAs (Decidable (_ → _ → _))
  | .out _ => isTrue trivial

/-- `in` compacts when the bytes do not fit behind the written ones but fit into the block. -/
theorem inPlan_compact_iff (s : TStream buff_length) (size : Int) :
    s.inPlan size = .compact ↔ s.m_max - s.m_write < size ∧ size < s.m_max - s.size := by
  simp only [inPlan, TStream.size]
  split
  · split
    · exact iff_of_false (by simp) (by omega)
    · exact iff_of_true rfl (by omega)
  · exact iff_of_false (by simp) (by omega)

/-- The two ranges of a compaction are disjoint when half of the written bytes are taken. -/
theorem compact_disjoint_iff {s : TStream buff_length} (h : s.WellFormed) :
    s.compactSrc ∩ s.compactDest = ∅ ↔ s.m_write ≤ 2 * s.m_read := by
  obtain ⟨h0, h1, -⟩ := h
  rw [Set.eq_empty_iff_forall_notMem]
  simp only [compactSrc, compactDest, TStream.size, Set.mem_inter_iff, Set.mem_ofPred_eq]
  constructor
  · -- The byte at `m_read` is read, so it is not written.
    intro hdisjoint
    have hfirst := hdisjoint s.m_read
    omega
  · intro hhalf i
    omega

/-- The condition on a call is exact. -/
theorem compactsDisjoint_iff {s : TStream buff_length} (h : s.WellFormed) (a : StreamCall) :
    s.CompactsDisjoint a ↔ s.HalfTaken a := by
  cases a with
  | inBytes src =>
      simp only [CompactsDisjoint, HalfTaken]
      rw [inPlan_compact_iff, compact_disjoint_iff h, and_imp]
  | out k => exact Iff.rfl

/-- A call keeps the offsets in order. -/
theorem step_wf (hL : 0 < buff_length) {s s' : TStream buff_length} {a : StreamCall}
    (h : s.WellFormed) (hstep : s.step a = some s') : s'.WellFormed := by
  cases a with
  | inBytes src =>
      cases hstep
      exact inBytes_wf hL h _ (Int.natCast_nonneg _)
  | out k =>
      simp only [step] at hstep
      split at hstep
      · rename_i hk
        cases hstep
        exact out_wf h hk.1
      · cases hstep

/-- The compactions of a stream. In a run of calls they all copy between disjoint ranges
exactly when each of them comes after half of the bytes written since the last relocation have
been taken. -/
theorem compaction_disjoint_iff (hL : 0 < buff_length) (as : List StreamCall) :
    AllSteps step CompactsDisjoint (init : TStream buff_length) as
      ↔ AllSteps step HalfTaken (init : TStream buff_length) as := by
  constructor
  · intro hall
    exact allSteps_of_invariant (fun _ _ _ h _ hs => step_wf hL h hs)
      (fun _ a h hd => (compactsDisjoint_iff h a).mp hd) init_wf hall
  · intro hall
    exact allSteps_of_invariant (fun _ _ _ h _ hs => step_wf hL h hs)
      (fun _ a h hd => (compactsDisjoint_iff h a).mpr hd) init_wf hall

/-- A stream of eight bytes gets seven, gives six and gets two: the seventh moves alone. -/
theorem compaction_disjoint_six :
    AllSteps step CompactsDisjoint (init : TStream 8)
      [.inBytes [1, 2, 3, 4, 5, 6, 7], .out 6, .inBytes [8, 9]] :=
  (compaction_disjoint_iff (by decide) _).mpr (by decide)

/-- A stream of eight bytes gets seven, gives three and gets two. The compaction copies the
bytes from the offsets `3` to `6` to the offsets `0` to `3`. -/
theorem compaction_overlaps :
    ∃ s : TStream 8, run step init [.inBytes [1, 2, 3, 4, 5, 6, 7], .out 3] = some s ∧
      s.inPlan 2 = .compact ∧ s.compactSrc = {i | 3 ≤ i ∧ i < 7} ∧
      s.compactDest = {i | 0 ≤ i ∧ i < 4} ∧ s.compactSrc ∩ s.compactDest ≠ ∅ ∧
      ¬ AllSteps step CompactsDisjoint (init : TStream 8)
        [.inBytes [1, 2, 3, 4, 5, 6, 7], .out 3, .inBytes [8, 9]] := by
  obtain ⟨s, hs⟩ : ∃ s : TStream 8, run step init
      [.inBytes [1, 2, 3, 4, 5, 6, 7], .out 3] = some s := ⟨_, rfl⟩
  have hover : s.compactSrc ∩ s.compactDest ≠ ∅ := by
    have hwf : s.WellFormed := run_invariant (fun _ _ _ h hs => step_wf (by decide) h hs) init_wf hs
    rw [Ne, compact_disjoint_iff hwf]
    cases hs
    decide
  have hplan : s.inPlan 2 = .compact := by
    cases hs
    decide
  refine ⟨s, hs, hplan, ?_, ?_, hover, fun hall => hover ?_⟩
  · cases hs
    rfl
  · cases hs
    rfl
  · have hlast : AllSteps step CompactsDisjoint s [.inBytes [8, 9]] :=
      ((allSteps_append hs).mp hall).2
    exact hlast.1 hplan

end Kernel4GameServer.TStream
