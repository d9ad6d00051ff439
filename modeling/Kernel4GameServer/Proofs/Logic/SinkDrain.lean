import Kernel4GameServer.Logic.ClientConnectSink
import Kernel4GameServer.Proofs.Net.DrainLoop

/-!
# `Kernel4GameServer.Proofs.Logic.SinkDrain`: when the drain loop of the Gate session ends

`ClientConnectSink::OnRecv` tests `nLen >= sizeof(testmsgheader)` as `size_t`. A negative
length passes: it is below `size` as an `s32` and above the header size as a `size_t`, so
`OnRecv` returns it, and the drain loop goes round with the same bytes for ever.

* `OnRecv_ret`: the value of `OnRecv` by the length prefix.
* `PrefixesNonneg`: no frame boundary of the unread bytes has a negative length prefix.
* `drain_terminates_iff`: the drain loop ends for a session whose repeated calls come to a
  value that is not negative, and only then. For `ClientConnectSink` it ends exactly on
  the bytes with `PrefixesNonneg`.
-/

set_option autoImplicit false

namespace Kernel4GameServer

open Lib

namespace ClientConnectSink

/-- What `OnRecv` returns: a negative length, the length of a whole frame, or zero. -/
def ret (nLen size : Int) : Int :=
  if nLen < 0 ∧ nLen ≤ size ∨ 24 ≤ nLen ∧ nLen ≤ size ∧ nLen ≤ 4096 then nLen else 0

/-- The comparison with `sizeof` holds for the lengths of a header on, and for the negative
ones. -/
theorem sizeof_le_sizeT {nLen : Int} (h : -2147483648 ≤ nLen) :
    sizeT nLen ≥ sizeof_testmsgheader ↔ nLen < 0 ∨ 24 ≤ nLen := by
  unfold sizeT sizeof_testmsgheader
  split <;> omega

/-- The value of `OnRecv` depends on the length prefix and the size only. -/
theorem OnRecv_ret (sink : ClientConnectSink) (context : Mem UInt8) (size : Int) :
    (sink.OnRecv context size).nUse = ret (readS32 context 0) size := by
  have hrange := readS32_range context 0
  have hsizeT := sizeof_le_sizeT hrange.1
  simp only [OnRecv, ret]
  generalize readS32 context 0 = nLen at hrange hsizeT ⊢
  by_cases hbig : nLen > 4096
  · rw [if_pos hbig]
    exact (if_neg (by omega)).symm
  · rw [if_neg hbig]
    by_cases hframe : nLen ≤ size ∧ sizeT nLen ≥ sizeof_testmsgheader
    · have hlen := hsizeT.mp hframe.2
      have hret : nLen < 0 ∧ nLen ≤ size ∨ 24 ≤ nLen ∧ nLen ≤ size ∧ nLen ≤ 4096 := by omega
      rw [if_pos hframe, if_pos hret]
      split
      · rfl
      · split <;> rfl
    · rw [if_neg hframe]
      exact (if_neg fun h => hframe ⟨by omega, hsizeT.mpr (by omega)⟩).symm

/-- No length prefix that a walk over the frames of `n` bytes comes to is negative. The
walk ends where no whole frame is left. -/
inductive PrefixesNonneg : Mem UInt8 → Int → Prop where
  | nil {context : Mem UInt8} {n : Int} : n ≤ 0 → PrefixesNonneg context n
  | stop {context : Mem UInt8} {n : Int} : 0 ≤ readS32 context 0 →
      ¬ (24 ≤ readS32 context 0 ∧ readS32 context 0 ≤ n ∧ readS32 context 0 ≤ 4096) →
      PrefixesNonneg context n
  | frame {context : Mem UInt8} {n : Int} :
      24 ≤ readS32 context 0 → readS32 context 0 ≤ n → readS32 context 0 ≤ 4096 →
      PrefixesNonneg (context.shift (readS32 context 0)) (n - readS32 context 0) →
      PrefixesNonneg context n

/-- `out` of a frame that is there moves the pointer behind it. -/
theorem buff_out {s : TStream BUFF_SIZE} {k : Int} (hk : k ≤ s.size) :
    (s.out k).buff = s.buff.shift k ∧ (s.out k).size = s.size - k := by
  have hnot : ¬ k > s.m_write - s.m_read := by
    simp only [TStream.size] at hk
    omega
  rw [TStream.out, if_neg hnot]
  constructor
  · funext i
    simp only [TStream.buff, Mem.shift]
    congr 1
    omega
  · simp only [TStream.size]
    omega

/-- The drain loop of the session ends where no length prefix on the way is negative.
Induction on the walk: a frame is one round. -/
theorem ends_of_prefixesNonneg {context : Mem UInt8} {n : Int}
    (h : PrefixesNonneg context n) :
    ∀ d : Drain ClientConnectSink SinkCall, d.stream.buff = context → d.stream.size = n →
      Ends (drainBody OnRecv) d := by
  induction h with
  | nil hn =>
      intro d _ hsize
      exact ends_of_stop (drainBody_empty (by omega))
  | stop hnonneg hstop =>
      intro d hbuff hsize
      by_cases hpos : 0 < d.stream.size
      · refine ends_of_stop ?_
        rw [drainBody_flag hpos, OnRecv_ret, hbuff, hsize, ret, if_neg (by omega)]
        rfl
      · exact ends_of_stop (drainBody_empty (by omega))
  | frame hlen hle hmax _ ih =>
      intro d hbuff hsize
      have hpos : 0 < d.stream.size := by omega
      have hret :
          (d.session.OnRecv d.stream.buff d.stream.size).nUse = readS32 d.stream.buff 0 := by
        rw [OnRecv_ret, hbuff, hsize, ret, if_pos (by omega)]
      have hflag : (drainBody OnRecv d).2 = true := by
        rw [drainBody_flag hpos, hret, hbuff, decide_eq_true_eq]
        omega
      obtain ⟨hstream, -⟩ := drainBody_positive OnRecv hpos
        (by rw [hret, hbuff]; omega)
      obtain ⟨hb, hs⟩ := buff_out (s := d.stream) (k := readS32 d.stream.buff 0)
        (by rw [hbuff, hsize]; exact hle)
      rw [ends_round hflag]
      rw [hret] at hstream
      exact ih _ (by rw [hstream, hb, hbuff]) (by rw [hstream, hs, hbuff, hsize])

/-- Where the drain loop of the session ends, no length prefix on the way is negative.
Induction on the number of unread bytes. -/
theorem prefixesNonneg_of_ends (d : Drain ClientConnectSink SinkCall)
    (h : Ends (drainBody OnRecv) d) : PrefixesNonneg d.stream.buff d.stream.size := by
  induction hn : d.stream.size.toNat using Nat.strong_induction_on generalizing d with
  | _ n ih =>
      by_cases hpos : 0 < d.stream.size
      · by_cases hneg : readS32 d.stream.buff 0 < 0
        · -- Every repeated call returns the same negative length.
          refine absurd h (not_ends_of_negative hpos fun k => ?_)
          rw [answer, OnRecv_ret, ret, if_pos (by omega)]
          exact hneg
        · by_cases hframe : 24 ≤ readS32 d.stream.buff 0 ∧
              readS32 d.stream.buff 0 ≤ d.stream.size ∧ readS32 d.stream.buff 0 ≤ 4096
          · obtain ⟨h24, hle, hmax⟩ := hframe
            have hret : (d.session.OnRecv d.stream.buff d.stream.size).nUse
                = readS32 d.stream.buff 0 := by
              rw [OnRecv_ret, ret, if_pos (by omega)]
            have hflag : (drainBody OnRecv d).2 = true := by
              rw [drainBody_flag hpos, hret, decide_eq_true_eq]
              omega
            obtain ⟨hstream, hless⟩ := drainBody_positive OnRecv hpos
              (by rw [hret]; omega)
            obtain ⟨hb, hs⟩ := buff_out (s := d.stream) hle
            have hrest := ih _ (hn ▸ hless) _ ((ends_round hflag).mp h) rfl
            rw [hret] at hstream
            rw [hstream, hb, hs] at hrest
            exact .frame h24 hle hmax hrest
          · exact .stop (by omega) hframe
      · exact .nil (by omega)

/-- When the drain loop ends. For every session, it ends from every stream exactly when no
session state and no buffer make every repeated call of `OnRecv` return a negative value.
For `ClientConnectSink`, it ends exactly on the unread bytes in which no length prefix on
the way is negative. Where it ends, the offsets of the stream are in order. -/
theorem drain_terminates_iff {σ ε : Type} (onRecv : Kernel4GameServer.OnRecv σ ε)
    (d : Drain ClientConnectSink SinkCall) :
    ((∀ d : Drain σ ε, d.stream.WellFormed → Ends (drainBody onRecv) d) ↔
      ∀ (s : σ) (context : Mem UInt8) (size : Int), 0 < size →
        ∃ k, 0 ≤ answer onRecv context size k s) ∧
    (Ends (drainBody OnRecv) d ↔ PrefixesNonneg d.stream.buff d.stream.size) ∧
    (∀ (d d' : Drain σ ε) (n : Nat), d.stream.WellFormed →
      doWhile (drainBody onRecv) n d = some d' → d'.stream.WellFormed) := by
  refine ⟨forall_ends_iff, ⟨prefixesNonneg_of_ends d, fun h =>
    ends_of_prefixesNonneg h d rfl rfl⟩, fun d d' n hd hrun => ?_⟩
  exact doWhile_invariant (I := fun d : Drain σ ε => d.stream.WellFormed)
    (fun d hd => drainBody_wf hd) n hd hrun

/-- The drain loop does not end on the four bytes `FF FF FF FF`, the length `-1`. -/
theorem drain_hangs :
    ¬ Ends (drainBody OnRecv) (onePiece ⟨true, -1⟩ [255, 255, 255, 255]) := by
  refine not_ends_of_negative (by decide) fun k => ?_
  rw [answer, OnRecv_ret]
  decide

end ClientConnectSink

end Kernel4GameServer
