import Mathlib.Data.Int.Range
import Kernel4GameServer.Proofs.Net.Iocp.PipeSend

/-!
# `Kernel4GameServer.Proofs.Net.Iocp.PendingSend`: the bytes that a pending WSASend reads

The read lock of `m_oSendStream` keeps `Out` and a relocation apart, but the range that
WSASend was given is in use beyond the section of `Out`, until the completion is handled.
`View.Stable` says that such a range is in the buffer as it is, with the bytes it had.

`Send` may relocate the stream in between. A new block takes the range away from WSASend, and
a compaction moves bytes onto it when fewer bytes have been taken than are left. Behind a
compaction the copy of `in` may write there too. `KeepsSends` is the exact condition on a
step, `send_stable_iff` the exact condition on a run, and `send_grow` a `Send` that frees the
block under a pending WSASend.
-/

set_option autoImplicit false

namespace Kernel4GameServer.Iocp

open Lib

/-- The range is in the current block, and its bytes are what they were. -/
structure Stable (s : TStream BUFF_SIZE) (v : View) : Prop where
  block : s.m_pbuff.alloc = v.block
  off_nonneg : 0 ≤ v.off
  inside : v.off + v.nLeft ≤ s.m_max
  bytes : Mem.slice s.m_pbuff.bytes v.off v.nLeft.toNat = v.bytes

/-! ### One range -/

/-- A range stays what it is while the block and its bytes do. -/
theorem Stable.congr {s s' : TStream BUFF_SIZE} {v : View} (h : Stable s v)
    (hblock : s'.m_pbuff = s.m_pbuff) (hmax : s'.m_max = s.m_max) : Stable s' v := by
  obtain ⟨hb, h0, hin, hbytes⟩ := h
  exact ⟨hblock ▸ hb, h0, hmax ▸ hin, hblock ▸ hbytes⟩

/-- What `Out` gives WSASend is in the buffer. -/
theorem outView_stable {sNetSendSize : Nat} {p : CPipe} {long : Bool}
    (hp : p.m_oSendStream.WellFormed)
    (hlong : long = true → (sNetSendSize : Int) ≤ p.m_oSendStream.size) :
    Stable p.m_oSendStream (p.outView sNetSendSize long) := by
  obtain ⟨h0, h1, h2⟩ := hp
  refine ⟨rfl, h0, ?_, ?_⟩
  · cases long with
    | true =>
        have := hlong rfl
        simp only [CPipe.outView, TStream.size, if_true] at this ⊢
        omega
    | false =>
        simp only [CPipe.outView, TStream.size, Bool.false_eq_true, if_false]
        omega
  · simp only [CPipe.outView, TStream.buff, Mem.slice_shift, Int.add_zero]

/-- Only the bytes of a range can change while the block stays. -/
theorem stable_iff {s s' : TStream BUFF_SIZE} {v : View} (h : Stable s v)
    (hblock : s'.m_pbuff.alloc = s.m_pbuff.alloc) (hmax : s'.m_max = s.m_max) :
    Stable s' v ↔ ∀ i, v.off ≤ i → i < v.off + v.nLeft →
      s'.m_pbuff.bytes i = s.m_pbuff.bytes i := by
  have hbytes : (∀ i, v.off ≤ i → i < v.off + v.nLeft → s'.m_pbuff.bytes i = s.m_pbuff.bytes i) ↔
      Mem.slice s'.m_pbuff.bytes v.off v.nLeft.toNat = v.bytes := by
    rw [← h.bytes, Mem.slice_eq_iff]
    refine forall_congr' fun i => forall_congr' fun hlo => ?_
    constructor
    · intro hi hhi
      exact hi (by omega)
    · intro hi hhi
      exact hi (by omega)
  rw [hbytes]
  exact ⟨fun hs => hs.bytes, fun hs =>
    ⟨hblock.trans h.block, h.off_nonneg, hmax ▸ h.inside, hs⟩⟩

/-- A compaction keeps a range just when it moves the same bytes onto it. -/
theorem compact_stable_iff {s : TStream BUFF_SIZE} {v : View} (hs : s.WellFormed)
    (h : Stable s v) :
    Stable s.compact v ↔ ∀ i, v.off ≤ i → i < v.off + v.nLeft → i < s.size →
      s.m_pbuff.bytes (s.m_read + i) = s.m_pbuff.bytes i := by
  have hoff := h.off_nonneg
  obtain ⟨h0, h1, h2⟩ := hs
  have hbytes : ∀ i, 0 ≤ i → s.compact.m_pbuff.bytes i =
      if i < s.size then s.m_pbuff.bytes (s.m_read + i) else s.m_pbuff.bytes i := by
    intro i hi
    simp only [TStream.compact, tools.SafeMemcpy]
    rw [sizeT_of_nonneg (show 0 ≤ s.m_write - s.m_read by omega),
      sizeT_of_nonneg (show 0 ≤ s.m_max by omega),
      if_pos (show s.m_write - s.m_read ≤ s.m_max by omega)]
    rw [Int.zero_add, Int.sub_zero]
    by_cases hlt : i < s.size
    · rw [if_pos hlt, if_pos (show 0 ≤ i ∧ i < s.m_write - s.m_read from ⟨hi, hlt⟩)]
    · rw [if_neg hlt,
        if_neg (show ¬ (0 ≤ i ∧ i < s.m_write - s.m_read) from fun hand => hlt hand.2)]
  refine (stable_iff h (by rfl) (by rfl)).trans ?_
  refine forall_congr' fun i => forall_congr' fun hlo => forall_congr' fun hhi => ?_
  rw [hbytes i (by omega)]
  by_cases hi : i < s.size
  · rw [if_pos hi]
    exact ⟨fun heq _ => heq, fun heq => heq hi⟩
  · rw [if_neg hi]
    exact ⟨fun _ hlt => absurd hlt hi, fun _ => rfl⟩

/-- A copy keeps a range just when it writes the same bytes onto it. -/
theorem copyIn_stable_iff {s : TStream BUFF_SIZE} {v : View} {src : List UInt8}
    (hroom : (src.length : Int) ≤ s.m_max - s.m_write) (h : Stable s v) :
    Stable (s.copyIn (Mem.ofList src 0) src.length) v ↔
      ∀ i, v.off ≤ i → i < v.off + v.nLeft → s.m_write ≤ i → i < s.m_write + src.length →
        Mem.ofList src 0 (i - s.m_write) = s.m_pbuff.bytes i := by
  have hbytes : ∀ i, (s.copyIn (Mem.ofList src 0) src.length).m_pbuff.bytes i =
      if s.m_write ≤ i ∧ i < s.m_write + src.length then Mem.ofList src 0 (i - s.m_write)
      else s.m_pbuff.bytes i := by
    intro i
    simp only [TStream.copyIn, tools.SafeMemcpy]
    rw [sizeT_of_nonneg (Int.natCast_nonneg src.length),
      sizeT_of_nonneg (show 0 ≤ s.m_max - s.m_write by omega), if_pos hroom, Int.zero_add]
  refine (stable_iff h (by rfl) (by rfl)).trans ?_
  refine forall_congr' fun i => forall_congr' fun hlo => forall_congr' fun hhi => ?_
  rw [hbytes i]
  by_cases hi : s.m_write ≤ i ∧ i < s.m_write + src.length
  · rw [if_pos hi]
    exact ⟨fun heq _ _ => heq, fun heq => heq hi.1 hi.2⟩
  · rw [if_neg hi]
    exact ⟨fun _ hlo' hhi' => absurd ⟨hlo', hhi'⟩ hi, fun _ => rfl⟩

namespace PipeUse

variable {sNetSendSize : Nat} {st st' : PipeUse}

/-! ### All pending ranges -/

/-- The ranges that pending WSASend calls were given. -/
def views (st : PipeUse) : List View := st.outstanding.filterMap Overlapped.view

/-- Every range that a pending WSASend was given is in the buffer, unchanged. -/
def SendsStable (st : PipeUse) : Prop := ∀ v ∈ st.views, Stable st.pipe.m_oSendStream v

/-- The condition on a step. While a WSASend is pending, a relocation does not grow the
stream. What a compaction moves onto the range, and what a copy writes there, are the bytes
that stand there. -/
def KeepsSends (st : PipeUse) : UseAction → Prop
  | .append .relocate =>
      let s : TStream BUFF_SIZE := st.pipe.m_oSendStream
      match st.writer with
      | .planned (.grow _) _ => st.views = []
      | .planned .compact _ =>
          ∀ v ∈ st.views, ∀ i, v.off ≤ i → i < v.off + v.nLeft → i < s.size →
            s.m_pbuff.bytes (s.m_read + i) = s.m_pbuff.bytes i
      | _ => True
  | .append .copy =>
      let s : TStream BUFF_SIZE := st.pipe.m_oSendStream
      match st.writer with
      | .relocated src =>
          ∀ v ∈ st.views, ∀ i, v.off ≤ i → i < v.off + v.nLeft →
            s.m_write ≤ i → i < s.m_write + src.length →
              Mem.ofList src 0 (i - s.m_write) = s.m_pbuff.bytes i
      | _ => True
  | _ => True

/-- A pending range belongs to an outstanding operation. -/
theorem mem_views {v : View} : v ∈ st.views ↔ ∃ op ∈ st.outstanding, op.view = some v :=
  List.mem_filterMap

/-! ### Steps that write no byte -/

/-- Only the relocation and the copy of `in` write to the block. -/
theorem Does.block {a : UseAction} (hd : Does sNetSendSize st a st')
    (hrelocate : a ≠ .append .relocate) (hcopy : a ≠ .append .copy) :
    st'.pipe.m_oSendStream.m_pbuff = st.pipe.m_oSendStream.m_pbuff ∧
      st'.pipe.m_oSendStream.m_max = st.pipe.m_oSendStream.m_max := by
  have hsame : ∀ {st' : PipeUse}, SameSend st st' →
      st'.pipe.m_oSendStream.m_pbuff = st.pipe.m_oSendStream.m_pbuff ∧
        st'.pipe.m_oSendStream.m_max = st.pipe.m_oSendStream.m_max := by
    intro st' hs
    rw [hs.stream]
    exact ⟨rfl, rfl⟩
  cases hd with
  | AddClient client result => exact hsame (AddClient_sameSend ..)
  | CompletedAccept client result => exact hsame (CompletedAccept_sameSend ..)
  | Processing type queue nUse =>
      rw [(processEvent_sameSend { st with m_oEventQueue := queue } type nUse).stream]
      exact ⟨rfl, rfl⟩
  | append a io ha hio =>
      cases StreamState.step_cases hio with
      | stay | relocate => exact absurd rfl hrelocate
      | copy => exact absurd rfl hcopy
      | advance => exact ⟨rfl, rfl⟩
      | write | lock | look | out | free => cases ha
  | outTake ok pk hw =>
      simp only [CPipe.outTake, TStream.out]
      split <;> exact ⟨rfl, rfl⟩
  | _ => exact ⟨rfl, rfl⟩

/-- A step that writes nothing keeps the pending ranges. -/
theorem SendsStable.step {a : UseAction} (hstable : st.SendsStable)
    (h : SendOps sNetSendSize st) (hd : Does sNetSendSize st a st')
    (hrelocate : a ≠ .append .relocate) (hcopy : a ≠ .append .copy) : st'.SendsStable := by
  obtain ⟨hblock, hmax⟩ := hd.block hrelocate hcopy
  intro v hv
  obtain ⟨op, hop, hview⟩ := mem_views.mp hv
  rcases hd.mem_outstanding hop with hold | hnew
  · exact (hstable v (mem_views.mpr ⟨op, hold, hview⟩)).congr hblock hmax
  · cases hnew with
    | recv _ hnone | post _ _ hnone =>
        rw [hnone] at hview
        cases hview
    | WSASend pk long hw _ hsome =>
        rw [hsome, Option.some.injEq] at hview
        rw [← hview]
        exact (outView_stable h.io.wf fun hlong => h.long pk (hlong ▸ hw)).congr hblock hmax

/-! ### The relocation and the copy -/

/-- The parts of `in` leave the operations alone. -/
theorem goOn_views (st : PipeUse) (io : StreamState BUFF_SIZE) : (st.goOn io).views = st.views :=
  rfl

/-- A step keeps the pending ranges just when it meets the condition. -/
theorem sendsStable_iff {a : UseAction} (h : SendOps sNetSendSize st)
    (hstable : st.SendsStable) (hd : Does sNetSendSize st a st') :
    st'.SendsStable ↔ st.KeepsSends a := by
  -- Only a relocation and a copy by `in` write to the buffer.
  by_cases hrelocate : a = .append .relocate
  · subst hrelocate
    cases hd with
    | append _ io _ hio =>
        cases StreamState.step_cases hio with
        | stay src hw =>
            rw [KeepsSends, show st.writer = _ from hw]
            exact iff_true_intro hstable
        | relocate plan src hw _ =>
            have hw' : st.writer = .planned plan src := hw
            cases plan with
            | stay =>
                rw [KeepsSends, hw']
                exact iff_true_intro hstable
            | grow n =>
                rw [KeepsSends, hw']
                constructor
                · -- The block is a new one, so no range may be in use.
                  intro hs
                  refine List.eq_nil_iff_forall_not_mem.mpr fun v hv => ?_
                  have hold := (hstable v hv).block
                  have hnew : st.pipe.m_oSendStream.m_pbuff.alloc + 1 = v.block := (hs v hv).block
                  omega
                · intro hnil v hv
                  rw [goOn_views, hnil] at hv
                  cases hv
            | compact =>
                rw [KeepsSends, hw']
                exact forall_congr' fun v => forall_congr' fun hv =>
                  compact_stable_iff h.io.wf (hstable v hv)
  · by_cases hcopy : a = .append .copy
    · subst hcopy
      cases hd with
      | append _ io _ hio =>
          cases StreamState.step_cases hio with
          | copy src hw =>
              have hroom : (src.length : Int) ≤
                  st.pipe.m_oSendStream.m_max - st.pipe.m_oSendStream.m_write := by
                have hfits := h.io.fits
                rw [hw] at hfits
                exact hfits
              rw [KeepsSends, show st.writer = _ from hw]
              exact forall_congr' fun v => forall_congr' fun hv =>
                copyIn_stable_iff hroom (hstable v hv)
    · have htrue : st.KeepsSends a := by
        unfold KeepsSends
        split
        · exact absurd rfl hrelocate
        · exact absurd rfl hcopy
        · trivial
      exact iff_of_true (hstable.step h hd hrelocate hcopy) htrue

/-! ### The pending ranges of a run -/

/-- From the `WSASend` in `Out` until its completion is handled, the range is in the buffer
with its bytes unchanged, just when every step of the run meets `KeepsSends`. -/
theorem send_stable_iff (sNetSendSize w : Nat) (p : CPipe) (hp : p.m_oSendStream.WellFormed)
    (as : List UseAction) (st : PipeUse) (h : run (step sNetSendSize) (init p w) as = some st) :
    Throughout (step sNetSendSize) SendsStable (init p w) as ↔
      AllSteps (step sNetSendSize) KeepsSends (init p w) as := by
  refine throughout_iff (I := SendOps sNetSendSize) ?_ ?_ (sendOps_init hp w) ?_ h
  · intro s a s' hs hstable hstep
    exact sendsStable_iff hs hstable (step_does hstep)
  · intro s a s' hs _ _ hstep
    exact hs.step (step_does hstep)
  · intro v hv
    cases hv

/-- The send stream of a new pipe has its offsets in order. -/
theorem new_wf : CPipe.new.m_oSendStream.WellFormed := ⟨by decide, by decide, by decide⟩

instance (st : PipeUse) (a : UseAction) : Decidable (st.KeepsSends a) := by
  unfold KeepsSends
  split
  · dsimp only
    split <;> infer_instance
  · dsimp only
    split <;> infer_instance
  · infer_instance

/-- An accepted connection sends one byte, and the worker gives it to WSASend. -/
def pendingRun : List UseAction :=
  [.CompletedAccept 7 (.connected 5), .Send [1], .append .relocate, .append .copy,
    .append .advance, .sendLocked, .dequeue, .Run true, .Run true, .Run true, .dequeue,
    .Run true, .Run true, .Run true, .Run true, .Run true]

/-- A second byte is sent while the WSASend is pending. -/
def secondSend : List UseAction :=
  [.Send [2], .append .relocate, .append .copy, .append .advance, .sendLocked]

/-- The run meets the condition, and the range of the first byte stays in the buffer while the
second is put behind it. -/
theorem send_stable_pending :
    ∃ st, run (step 1024) (init .new 0) (pendingRun ++ secondSend) = some st ∧
      st.views.map (·.bytes) = [[1]] ∧ st.pipe.m_oSendStream.unread = [1, 2] ∧
      Throughout (step 1024) SendsStable (init .new 0) (pendingRun ++ secondSend) := by
  obtain ⟨st, hst, hfinal⟩ : ∃ st,
      run (step 1024) (init .new 0) (pendingRun ++ secondSend) = some st ∧
        (st.views.map (·.bytes), st.pipe.m_oSendStream.unread) = ([[1]], [1, 2]) :=
    Option.map_eq_some_iff.mp (by decide +kernel)
  obtain ⟨hviews, hunread⟩ := Prod.mk.inj hfinal
  exact ⟨st, hst, hviews, hunread,
    (send_stable_iff 1024 0 .new new_wf _ st hst).mpr (by decide +kernel)⟩

/-- A `Send` that grows the stream takes the block away from every pending WSASend. -/
theorem grow_not_stable {src : List UInt8} {n : Int} {v : View} (hlive : st.phase = .live)
    (hsending : st.sending = false) (hidle : st.writer = .idle) (hwait : st.worker = .wait)
    (hgrow : st.pipe.m_oSendStream.inPlan src.length = .grow n) (hv : v ∈ st.views)
    (hblock : st.pipe.m_oSendStream.m_pbuff.alloc = v.block) :
    ∃ st', run (step sNetSendSize) st [.Send src, .append .relocate] = some st' ∧
      ¬ st'.SendsStable := by
  have hsend : step sNetSendSize st (.Send src) = some (st.beginSend src) := by
    simp only [step, hlive, hsending, true_or, and_self, if_true, io, StreamState.step, hidle,
      Option.map_some]
    rfl
  obtain ⟨st', hst', hviews, halloc⟩ : ∃ st',
      step sNetSendSize (st.beginSend src) (.append .relocate) = some st' ∧
        st'.views = st.views ∧ st'.pipe.m_oSendStream.m_pbuff.alloc =
          st.pipe.m_oSendStream.m_pbuff.alloc + 1 := by
    simp only [step, goesOn, if_true, StreamState.step, io, beginSend, hgrow, hwait,
      UseWorker.locked, Bool.false_eq_true, if_false, Option.map_some]
    refine ⟨_, rfl, ?_, rfl⟩
    simp only [views, outstanding, hwait]
    rfl
  refine ⟨st', ?_, fun hs => ?_⟩
  · rw [run_cons, hsend, Option.bind_some, run_singleton, hst']
  · have hnew := (hs v (hviews ▸ hv)).block
    omega

/-- The one byte of `pendingRun` is still to be sent when the next `Send` needs a larger
block. -/
theorem send_grow : ∃ st, run (step 1024) (init .new 0)
    (pendingRun ++ [.Send (List.replicate 16384 0), .append .relocate]) = some st ∧
      ¬ st.SendsStable := by
  obtain ⟨st, v, hst, hlive, hsending, hidle, hwait, hmax, hwrite, hread, hviews, hblock⟩ :
      ∃ st v, run (step 1024) (init .new 0) pendingRun = some st ∧ st.phase = .live ∧
        st.sending = false ∧ st.writer = .idle ∧ st.worker = .wait ∧
        st.pipe.m_oSendStream.m_max = 16384 ∧ st.pipe.m_oSendStream.m_write = 1 ∧
        st.pipe.m_oSendStream.m_read = 0 ∧ st.views = [v] ∧
        st.pipe.m_oSendStream.m_pbuff.alloc = v.block :=
    ⟨_, _, rfl, rfl, rfl, rfl, rfl, rfl, rfl, rfl, rfl, rfl⟩
  have hgrow : st.pipe.m_oSendStream.inPlan (List.replicate 16384 (0 : UInt8)).length
      = .grow 32768 := by
    rw [List.length_replicate, TStream.inPlan, hmax, hwrite, hread]
    decide
  have hv : v ∈ st.views := hviews ▸ List.mem_singleton_self v
  obtain ⟨st', hst', hnot⟩ := grow_not_stable hlive hsending hidle hwait hgrow hv hblock
  refine ⟨st', ?_, hnot⟩
  rw [run_append, hst]
  exact hst'

end PipeUse

end Kernel4GameServer.Iocp
