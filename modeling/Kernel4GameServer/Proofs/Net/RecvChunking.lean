import Kernel4GameServer.Lib.Framing
import Kernel4GameServer.Net.Epoll.Processing
import Kernel4GameServer.Proofs.Public.TStreamRange

/-!
# `Kernel4GameServer.Proofs.Net.RecvChunking`: chunks and interleaving do not show

A session that cuts its frames stably sees the same frames however the bytes arrive.

* `drain_feed`: the drain loop on a stream does what `Lib.feed` does on its unread bytes.
* `RecvInv` relates a state of the two threads to `Lib.Progress`: what the session has done
  and what is unread lead to the outcome of all appended bytes in one piece.
* `Quiet` is what the main thread knows while nothing is appended: where it leaves the
  loop, `OnRecv` has used nothing of all unread bytes.
* `recv_chunking` puts them together. `run_inRange` says that no step leaves the range of
  `s32`, which asks for room at every append: `recv_overflow` is a run without it.
-/

set_option autoImplicit false

namespace Kernel4GameServer

open Lib

variable {σ ε : Type}

/-- The contract of a session as a function of its state and of the bytes it is given. -/
structure StableSession (f : σ → List UInt8 → Received σ ε) : Prop where
  used_nonneg : ∀ s b, 0 ≤ (f s b).nUse
  used_le : ∀ s b, (f s b).nUse ≤ b.length
  idle : ∀ s b, (f s b).nUse = 0 → (f s b).session = s ∧ (f s b).effects = []
  extend : ∀ s b d, 0 < (f s b).nUse → f s (b ++ d) = f s b

/-- The `OnRecv` that looks at the `size` bytes at `context` only. -/
def onBuffer (f : σ → List UInt8 → Received σ ε) : OnRecv σ ε :=
  fun s context size => f s (Mem.slice context 0 size.toNat)

/-- The session as a consumer of a growing buffer. -/
def consumer (f : σ → List UInt8 → Received σ ε) (s : σ) (b : List UInt8) : Answer σ ε where
  used := (f s b).nUse.toNat
  state := (f s b).session
  effects := (f s b).effects

variable {f : σ → List UInt8 → Received σ ε}

/-- A session that keeps the contract is a stable consumer. -/
theorem StableSession.stable (hf : StableSession f) : Stable (consumer f) where
  used_le s b := by
    have := hf.used_le s b
    simp only [consumer]
    omega
  idle s b h := by
    have := hf.used_nonneg s b
    simp only [consumer] at h
    exact hf.idle s b (by omega)
  extend s b d h := by
    simp only [consumer] at h ⊢
    rw [hf.extend s b d (by omega)]

/-- The consumer uses nothing exactly when `OnRecv` returns zero. -/
theorem StableSession.used_eq_zero (hf : StableSession f) (s : σ) (b : List UInt8) :
    (consumer f s b).used = 0 ↔ (f s b).nUse = 0 := by
  have := hf.used_nonneg s b
  simp only [consumer]
  omega

/-- A call under the read lock is the session on the bytes that `size` and `buff` gave. The
empty buffer is no exception: the loop does not call, and the session would do nothing. -/
theorem StableSession.recvCall_eq (hf : StableSession f) (s : σ) {stream : TStream BUFF_SIZE}
    {nLeft : Int} (hle : nLeft ≤ stream.size) :
    recvCall (onBuffer f) s stream nLeft = f s (stream.unread.take nLeft.toNat) := by
  unfold recvCall
  split
  · rw [onBuffer, TStream.slice_buff stream (by omega)]
  · have hnil : stream.unread.take nLeft.toNat = [] := by
      rw [show nLeft.toNat = 0 by omega, List.take_zero]
    have hzero : (f s []).nUse = 0 := by
      have h0 := hf.used_nonneg s []
      have h1 : (f s []).nUse ≤ 0 := hf.used_le s []
      omega
    obtain ⟨hs, he⟩ := hf.idle s [] hzero
    rw [hnil]
    calc (⟨0, s, []⟩ : Received σ ε)
        = ⟨(f s []).nUse, (f s []).session, (f s []).effects⟩ := by rw [hzero, hs, he]
      _ = f s [] := rfl

/-! ### The drain loop alone -/

/-- The drain loop on a stream ends, and does what feeding the unread bytes does.
Induction on the number of unread bytes: a round that goes round again takes some. -/
theorem drain_feed (hf : StableSession f) (d : Drain σ ε) (hd : d.stream.WellFormed) :
    ∃ n d', doWhile (drainBody (onBuffer f)) n d = some d' ∧
      d'.effects = d.effects ++ (feed (consumer f) d.session d.stream.unread).effects ∧
      d'.session = (feed (consumer f) d.session d.stream.unread).state ∧
      d'.stream.unread = (feed (consumer f) d.session d.stream.unread).rest := by
  induction hn : d.stream.unread.length using Nat.strong_induction_on generalizing d with
  | _ n ih =>
      -- The view is the whole of the unread bytes here.
      have hcall : recvCall (onBuffer f) d.session d.stream d.stream.size
          = f d.session d.stream.unread := by
        rw [hf.recvCall_eq d.session (Int.le_refl _), ← TStream.length_unread, List.take_length]
      rcases Nat.eq_zero_or_pos (consumer f d.session d.stream.unread).used with h | h
      · -- Nothing used: the loop ends here.
        have hzero := (hf.used_eq_zero _ _).mp h
        obtain ⟨hs, he⟩ := hf.idle _ _ hzero
        refine ⟨1, { d with effects := d.effects }, ?_, ?_⟩
        · simp [doWhile, drainBody, hcall, hzero, hs, he]
        · rw [feed_idle h]
          simp
      · have hpos : 0 < (f d.session d.stream.unread).nUse := by
          simp only [consumer] at h
          omega
        have hle := hf.used_le d.session d.stream.unread
        obtain ⟨n', d', hrun, heff, hses, hrest⟩ := ih
          (d.stream.unread.drop (consumer f d.session d.stream.unread).used).length
          (by rw [List.length_drop]; simp only [consumer] at h ⊢; omega)
          { session := (f d.session d.stream.unread).session
            stream := d.stream.out (f d.session d.stream.unread).nUse
            effects := d.effects ++ (f d.session d.stream.unread).effects }
          (TStream.out_wf hd (by omega))
          (by rw [TStream.out_unread hd (by omega)]; rfl)
        have hout := TStream.out_unread hd (k := (f d.session d.stream.unread).nUse) (by omega)
        rw [hout] at heff hses hrest
        refine ⟨n' + 1, d', ?_, ?_⟩
        · rw [doWhile, drainBody]
          simp only [hcall, if_pos hpos]
          rw [if_pos (by simp; omega)]
          exact hrun
        · rw [feed_consume hf.stable h]
          refine ⟨?_, hses, hrest⟩
          rw [heff]
          simp [Fed.after, consumer]

/-- A stream that got its bytes in one `in` has its offsets in order. -/
theorem onePiece_wf (s : σ) (w : List UInt8) :
    (onePiece s w : Drain σ ε).stream.WellFormed :=
  TStream.inBytes_wf BUFF_SIZE_pos TStream.init_wf _ (Int.natCast_nonneg _)

/-- A stream that got its bytes in one `in` has them unread. -/
theorem onePiece_unread (s : σ) (w : List UInt8) :
    (onePiece s w : Drain σ ε).stream.unread = w := by
  show (TStream.init.inBytes (Mem.ofList w 0) w.length).unread = w
  rw [TStream.inBytes_unread BUFF_SIZE_pos TStream.init_wf _ (Int.natCast_nonneg _),
    TStream.init_unread, List.nil_append, Int.toNat_natCast, Mem.slice_ofList]

/-- The drain loop on a stream that got its bytes in one `in`. -/
theorem onePiece_drain (hf : StableSession f) (s : σ) (w : List UInt8) :
    ∃ n d, doWhile (drainBody (onBuffer f)) n (onePiece s w) = some d ∧
      d.effects = (feed (consumer f) s w).effects ∧
      d.session = (feed (consumer f) s w).state ∧
      d.stream.unread = (feed (consumer f) s w).rest := by
  obtain ⟨n, d, hrun, heff, hses, hrest⟩ := drain_feed hf (onePiece s w) (onePiece_wf s w)
  rw [onePiece_unread] at heff hses hrest
  exact ⟨n, d, hrun, heff, hses, hrest⟩

/-! ### The two threads -/

namespace RecvState

/-- What each step does, by action. -/
inductive Step (onRecv : OnRecv σ ε) (st : RecvState σ ε) :
    RecvAction → RecvState σ ε → Prop where
  | append (a : StreamAction) (io : StreamState BUFF_SIZE) : a.ofWriter = true →
      st.io.step a = some io → Step onRecv st (.append a) { st with io }
  | post (t : IoEventType) : Step onRecv st (.post t) { st with queue := st.queue ++ [t] }
  | read (t : IoEventType) (queue : List IoEventType) : st.main = .idle →
      st.queue = t :: queue → Step onRecv st .read { st with main := .head t, queue }
  | lock (t : IoEventType) (io : StreamState BUFF_SIZE) : st.main = .head t →
      st.io.step .lock = some io → Step onRecv st .lock { st with io, main := .locked t }
  | look (t : IoEventType) (io : StreamState BUFF_SIZE) : st.main = .locked t →
      st.io.step .look = some io → Step onRecv st .look { st with io, main := .looked t }
  | call (t : IoEventType) (v : View) (io : StreamState BUFF_SIZE) : st.main = .looked t →
      st.io.reader = .looking v →
      (if (recvCall onRecv st.session st.io.stream v.nLeft).nUse > 0 then
          st.io.step (.out (recvCall onRecv st.session st.io.stream v.nLeft).nUse)
        else some st.io) = some io →
      Step onRecv st .call
        { st with
          io
          main := .used t (recvCall onRecv st.session st.io.stream v.nLeft).nUse
          session := (recvCall onRecv st.session st.io.stream v.nLeft).session
          trace := st.trace
            ++ (recvCall onRecv st.session st.io.stream v.nLeft).effects.map .effect }
  | again (t : IoEventType) (nUse : Int) (io : StreamState BUFF_SIZE) : st.main = .used t nUse →
      nUse ≠ 0 → st.io.step .free = some io →
      Step onRecv st .free { st with io, main := .head t }
  | finish (t : IoEventType) (io : StreamState BUFF_SIZE) : st.main = .used t 0 →
      st.io.step .free = some io →
      Step onRecv st .free
        { st with
          io
          main := .idle
          trace := if .BREAK = t then st.trace ++ [.OnDisconnect] else st.trace }

/-- A step that is taken is one of the above. -/
theorem step_cases {onRecv : OnRecv σ ε} {st st' : RecvState σ ε} {a : RecvAction}
    (hstep : st.step onRecv a = some st') : Step onRecv st a st' := by
  cases a with
  | append a =>
      simp only [RecvState.step] at hstep
      split at hstep
      · rename_i ha
        obtain ⟨io, hio, rfl⟩ := Option.map_eq_some_iff.mp hstep
        exact .append a io ha hio
      · cases hstep
  | post t =>
      simp only [RecvState.step] at hstep
      split at hstep
      · exact Option.some.inj hstep ▸ .post t
      · cases hstep
  | read =>
      simp only [RecvState.step] at hstep
      split at hstep
      · rename_i t queue hm hq
        exact Option.some.inj hstep ▸ .read t queue hm hq
      · cases hstep
  | lock =>
      simp only [RecvState.step] at hstep
      split at hstep
      · rename_i t hm
        obtain ⟨io, hio, rfl⟩ := Option.map_eq_some_iff.mp hstep
        exact .lock t io hm hio
      · cases hstep
  | look =>
      simp only [RecvState.step] at hstep
      split at hstep
      · rename_i t hm
        obtain ⟨io, hio, rfl⟩ := Option.map_eq_some_iff.mp hstep
        exact .look t io hm hio
      · cases hstep
  | call =>
      simp only [RecvState.step] at hstep
      split at hstep
      · rename_i t v hm hr
        obtain ⟨io, hio, rfl⟩ := Option.map_eq_some_iff.mp hstep
        exact .call t v io hm hr hio
      · cases hstep
  | free =>
      simp only [RecvState.step] at hstep
      split at hstep
      · rename_i t nUse hm
        obtain ⟨io, hio, heq⟩ := Option.map_eq_some_iff.mp hstep
        split at heq
        · rename_i hne
          exact heq ▸ .again t nUse io hm (Ne.symm hne) hio
        · rename_i hzero
          have hz : nUse = 0 := by omega
          subst hz
          exact heq ▸ .finish t io hm hio
      · cases hstep

/-! ### What the steps do to the stream -/

/-- A step of the writer takes nothing from the reader. It adds bytes behind the unread
ones, and only `advance` does. -/
theorem writer_step {io io' : StreamState BUFF_SIZE} (h : io.Inv) {a : StreamAction}
    (ha : a.ofWriter = true) (hstep : io.step a = some io') :
    io'.reader = io.reader ∧ ∃ d, io'.written = io.written ++ d ∧
      io'.stream.unread = io.stream.unread ++ d ∧ (a ≠ .advance → d = []) := by
  have h' := (h.step BUFF_SIZE_pos hstep).fifo
  have hfifo := h.fifo
  -- With `taken` unchanged, the unread bytes are what `written` says they are.
  have key : ∀ d, io'.taken = io.taken → io'.written = io.written ++ d →
      io'.stream.unread = io.stream.unread ++ d := by
    intro d ht hw
    rw [ht, hw, ← hfifo, List.append_assoc] at h'
    exact List.append_cancel_left h'
  cases StreamState.step_cases hstep with
  | write src _ => exact ⟨rfl, [], by simp, key [] rfl (by simp), fun _ => rfl⟩
  | stay src _ => exact ⟨rfl, [], by simp, key [] rfl (by simp), fun _ => rfl⟩
  | relocate plan src _ _ => exact ⟨rfl, [], by simp, key [] rfl (by simp), fun _ => rfl⟩
  | copy src _ => exact ⟨rfl, [], by simp, key [] rfl (by simp), fun _ => rfl⟩
  | advance src _ => exact ⟨rfl, src, rfl, key src rfl rfl, fun hne => absurd rfl hne⟩
  | lock _ => cases ha
  | look _ => cases ha
  | out v k _ _ _ => cases ha
  | free _ => cases ha

/-- Taking the lock leaves the stream and the history as they are. -/
theorem lock_step {io io' : StreamState BUFF_SIZE} (hstep : io.step .lock = some io') :
    io'.stream = io.stream ∧ io'.written = io.written ∧ io'.reader = .locked := by
  cases StreamState.step_cases hstep
  exact ⟨rfl, rfl, rfl⟩

/-- A look sees all unread bytes. -/
theorem look_step {io io' : StreamState BUFF_SIZE} (hstep : io.step .look = some io') :
    io'.stream = io.stream ∧ io'.written = io.written ∧
      ∃ v, io'.reader = .looking v ∧ v.bytes = io.stream.unread := by
  cases StreamState.step_cases hstep
  exact ⟨rfl, rfl, _, rfl, rfl⟩

/-- `out` takes from the unread bytes. -/
theorem out_step {io io' : StreamState BUFF_SIZE} (h : io.Inv) {k : Int}
    (hstep : io.step (.out k) = some io') :
    io'.written = io.written ∧ io'.stream.unread = io.stream.unread.drop k.toNat ∧
      io'.reader ≠ .idle := by
  cases StreamState.step_cases hstep with
  | out v k _ hk _ => exact ⟨rfl, TStream.out_unread h.wf hk, fun hr => by cases hr⟩

/-- Releasing the lock leaves the stream and the history as they are. -/
theorem free_step {io io' : StreamState BUFF_SIZE} (hstep : io.step .free = some io') :
    io'.stream = io.stream ∧ io'.written = io.written ∧ io'.reader = .idle := by
  cases StreamState.step_cases hstep
  exact ⟨rfl, rfl, rfl⟩

/-! ### The invariant -/

/-- The reader of the stream is where the loop is. -/
def ReaderAt (io : StreamState BUFF_SIZE) : RecvMain → Prop
  | .idle => io.reader = .idle
  | .head _ => io.reader = .idle
  | .locked _ => io.reader = .locked
  | .looked _ => ∃ v, io.reader = .looking v
  | .used _ _ => io.reader ≠ .idle

/-- The effects behind a trace that grows by effects. -/
theorem effectsOf_append (trace : List (Callback ε)) (es : List ε) :
    effectsOf (trace ++ es.map .effect) = effectsOf trace ++ es := by
  simp [effectsOf, List.filterMap_append, List.filterMap_map]

@[simp] theorem effectsOf_disconnect (trace : List (Callback ε)) :
    effectsOf (trace ++ [.OnDisconnect]) = effectsOf trace := by
  simp [effectsOf, List.filterMap_append]

/-- The invariant of a pipe between its worker and the main thread. -/
structure RecvInv (f : σ → List UInt8 → Received σ ε) (s₀ : σ) (st : RecvState σ ε) : Prop where
  io : st.io.Inv
  reader : ReaderAt st.io st.main
  progress : Progress (consumer f) s₀ st.io.written (effectsOf st.trace) st.session
    st.io.stream.unread

/-- A connected pipe satisfies the invariant. -/
theorem recvInv_init (s₀ : σ) : RecvInv f s₀ (init s₀ : RecvState σ ε) where
  io := StreamState.inv_init
  reader := rfl
  progress := Progress.start s₀ []

/-- What a looking main thread is about to call: the session on the bytes it sees. -/
theorem RecvInv.recvCall_eq (hf : StableSession f) {s₀ : σ} {st : RecvState σ ε}
    (h : RecvInv f s₀ st) {v : View} (hr : st.io.reader = .looking v) :
    recvCall (onBuffer f) st.session st.io.stream v.nLeft = f st.session v.bytes := by
  obtain ⟨later, hlater⟩ := h.io.looking_unread hr
  have hlen := h.io.length_view (v := v) (by rw [hr]; rfl)
  have hv := h.io.view v (by rw [hr]; rfl)
  have hoff := h.io.looking v hr
  rw [hf.recvCall_eq st.session (by have := hv.len; simp only [TStream.size]; omega), hlater,
    ← hlen, List.take_left']
  rfl

/-- Every step keeps the invariant. -/
theorem RecvInv.step (hf : StableSession f) {s₀ : σ} {st st' : RecvState σ ε}
    (h : RecvInv f s₀ st) {a : RecvAction} (hstep : st.step (onBuffer f) a = some st') :
    RecvInv f s₀ st' := by
  cases step_cases hstep with
  | append a io ha hio =>
      obtain ⟨hr, d, hw, hu, -⟩ := writer_step h.io ha hio
      refine ⟨h.io.step BUFF_SIZE_pos hio, ?_, ?_⟩
      · -- The writer leaves the place of the reader as it is.
        have hreader := h.reader
        dsimp only
        cases hm : st.main <;> rw [hm] at hreader <;> simp only [ReaderAt] at hreader ⊢ <;>
          rw [hr] <;> exact hreader
      · dsimp only
        rw [hw, hu]
        exact h.progress.append hf.stable d
  | post t => exact ⟨h.io, h.reader, h.progress⟩
  | read t queue hm _ =>
      have hreader := h.reader
      rw [hm] at hreader
      exact ⟨h.io, hreader, h.progress⟩
  | lock t io _ hio =>
      obtain ⟨hs, hw, hr⟩ := lock_step hio
      refine ⟨h.io.step BUFF_SIZE_pos hio, hr, ?_⟩
      dsimp only
      rw [hs, hw]
      exact h.progress
  | look t io _ hio =>
      obtain ⟨hs, hw, v, hr, -⟩ := look_step hio
      refine ⟨h.io.step BUFF_SIZE_pos hio, ⟨v, hr⟩, ?_⟩
      dsimp only
      rw [hs, hw]
      exact h.progress
  | call t v io _ hr hio =>
      -- The session sees a prefix of the unread bytes, so a stable session answers as if it saw
      -- them all.
      rw [h.recvCall_eq hf hr] at hio ⊢
      split at hio
      · rename_i hpos
        obtain ⟨hw, hu, hne⟩ := out_step h.io hio
        obtain ⟨later, hlater⟩ := h.io.looking_unread hr
        have hprog := h.progress
        rw [hlater] at hprog hu
        refine ⟨h.io.step BUFF_SIZE_pos hio, hne, ?_⟩
        dsimp only
        rw [hw, hu, effectsOf_append]
        exact hprog.consume hf.stable (by simp only [consumer]; omega)
      · rename_i hpos
        -- Nothing is used, so an idle session does not change.
        have hzero : (f st.session v.bytes).nUse = 0 := by
          have := hf.used_nonneg st.session v.bytes
          omega
        obtain ⟨hs, he⟩ := hf.idle _ _ hzero
        rw [Option.some.injEq] at hio
        subst hio
        have hne : st.io.reader ≠ .idle := fun hidle => by
          rw [hr] at hidle
          cases hidle
        refine ⟨h.io, hne, ?_⟩
        dsimp only
        rw [effectsOf_append, hs, he, List.append_nil]
        exact h.progress
  | again t nUse io _ _ hio =>
      obtain ⟨hs, hw, hr⟩ := free_step hio
      refine ⟨h.io.step BUFF_SIZE_pos hio, hr, ?_⟩
      dsimp only
      rw [hs, hw]
      exact h.progress
  | finish t io _ hio =>
      obtain ⟨hs, hw, hr⟩ := free_step hio
      -- `OnDisconnect` is no effect of the session.
      have heff : effectsOf (if .BREAK = t then st.trace ++ [.OnDisconnect] else st.trace)
          = effectsOf st.trace := by
        split <;> simp
      refine ⟨h.io.step BUFF_SIZE_pos hio, hr, ?_⟩
      dsimp only
      rw [hs, hw, heff]
      exact h.progress

/-! ### The range of `s32` -/

/-- With room for every append the capacities stay below `2 ^ 31`. -/
theorem small_step {onRecv : OnRecv σ ε} {st st' : RecvState σ ε} (h : st.io.Small)
    {a : RecvAction} (hroom : st.Roomy a) (hstep : st.step onRecv a = some st') :
    st'.io.Small := by
  cases step_cases hstep with
  | append a io _ hio => exact h.step_of_roomy hroom hio
  | post t => exact h
  | read t queue _ _ => exact h
  | lock t io _ hio => exact h.step (a := .lock) trivial hio
  | look t io _ hio => exact h.step (a := .look) trivial hio
  | call t v io _ _ hio =>
      split at hio
      · exact h.step (a := .out _) trivial hio
      · cases hio
        exact h
  | again t nUse io _ _ hio => exact h.step (a := .free) trivial hio
  | finish t io _ hio => exact h.step (a := .free) trivial hio

/-- Then every step stays in `s32`. -/
theorem RecvInv.inRange (hf : StableSession f) {s₀ : σ} {st st' : RecvState σ ε}
    (h : RecvInv f s₀ st) (hsmall : st.io.Small) {a : RecvAction} (hroom : st.Roomy a)
    (hstep : st.step (onBuffer f) a = some st') : st.InRange (onBuffer f) a := by
  cases step_cases hstep with
  | append a io _ hio => exact StreamState.inRange_of_roomy BUFF_SIZE_pos h.io hsmall hroom hio
  | look t io _ hio =>
      exact StreamState.inRange_of_roomy (a := .look) BUFF_SIZE_pos h.io hsmall trivial hio
  | call t v io _ hr hio =>
      rw [InRange, hr]
      have hcall := h.recvCall_eq hf hr
      -- `OnRecv` uses no more than it was given, which is no more than the block holds.
      have hnonneg := hf.used_nonneg st.session v.bytes
      have hle := hf.used_le st.session v.bytes
      have hlen := h.io.length_view (v := v) (by rw [hr]; rfl)
      have hv := h.io.view v (by rw [hr]; rfl)
      have hview := hv.len
      have hleft := hv.nLeft_nonneg
      have hoff := h.io.looking v hr
      obtain ⟨h0, h1, h2⟩ := h.io.wf
      have hmax := hsmall.max_lt
      refine ⟨?_, fun hpos => ?_⟩
      · rw [hcall, inS32_of_range (by omega) (by omega)]
        rfl
      · rw [if_pos hpos] at hio
        exact StreamState.inRange_of_roomy (a := .out _) BUFF_SIZE_pos h.io hsmall trivial hio
  | post t => trivial
  | read t queue _ _ => trivial
  | lock t io _ _ => trivial
  | again t nUse io _ _ _ => trivial
  | finish t io _ _ => trivial

/-- In a run with room for every append all steps stay in `s32`. -/
theorem run_inRange (hf : StableSession f) {s₀ : σ} {as : List RecvAction} {st : RecvState σ ε}
    (hroom : AllSteps (step (onBuffer f)) Roomy (init s₀) as)
    (hrun : run (step (onBuffer f)) (init s₀) as = some st) :
    AllSteps (step (onBuffer f)) (InRange (onBuffer f)) (init s₀) as := by
  have hsmall : (init s₀ : RecvState σ ε).io.Small := StreamState.small_init (by decide)
  exact allSteps_of_run (I := fun st => RecvInv f s₀ st ∧ st.io.Small)
    (fun s a s' hI hC hs => ⟨⟨hI.1.step hf hs, small_step hI.2 hC hs⟩, hI.1.inRange hf hI.2 hC hs⟩)
    ⟨recvInv_init s₀, hsmall⟩ hroom hrun

/-! ### The last event -/

/-- What the main thread knows while nothing is appended. Behind a look, it has seen all
unread bytes. Where it has left the loop, `OnRecv` used nothing of them. -/
def Quiet (f : σ → List UInt8 → Received σ ε) (st : RecvState σ ε) : Prop :=
  match st.main with
  | .idle => (f st.session st.io.stream.unread).nUse = 0
  | .looked _ => ∀ v, st.io.reader = .looking v → v.bytes = st.io.stream.unread
  | .used _ nUse => nUse = 0 → (f st.session st.io.stream.unread).nUse = 0
  | _ => True

/-- A step that appends nothing keeps what the main thread knows. -/
theorem Quiet.step (hf : StableSession f) {s₀ : σ} {st st' : RecvState σ ε}
    (h : RecvInv f s₀ st) (hq : Quiet f st) {a : RecvAction} (ha : ∀ b, a ≠ .append b)
    (hstep : st.step (onBuffer f) a = some st') : Quiet f st' := by
  cases step_cases hstep with
  | append a io _ _ => exact absurd rfl (ha a)
  | post t => exact hq
  | read t queue _ _ => trivial
  | lock t io _ _ => trivial
  | look t io _ hio =>
      obtain ⟨hs, -, v, hr, hv⟩ := look_step hio
      intro v' hr'
      rw [hr] at hr'
      cases hr'
      rw [hs, hv]
  | call t v io hm hr hio =>
      rw [h.recvCall_eq hf hr] at hio ⊢
      intro hzero
      have hall : v.bytes = st.io.stream.unread := by
        rw [Quiet, hm] at hq
        exact hq v hr
      rw [if_neg (by omega), Option.some.injEq] at hio
      subst hio
      dsimp only at hzero ⊢
      rw [(hf.idle _ _ hzero).1, ← hall]
      exact hzero
  | again t nUse io _ _ _ => trivial
  | finish t io hm hio =>
      obtain ⟨hs, -, -⟩ := free_step hio
      rw [Quiet, hm] at hq
      show (f st.session io.stream.unread).nUse = 0
      rw [hs]
      exact hq rfl

/-- The main thread handles `t`, or has handled it: then `OnDisconnect` is the last
callback when `t` is BREAK. -/
def Last (t : IoEventType) (st : RecvState σ ε) : Prop :=
  st.main.event = some t ∨
    (st.main = .idle ∧ (t = .BREAK → ∃ front, st.trace = front ++ [.OnDisconnect]))

/-- The last event stays the last one until another one is read. -/
theorem Last.step {onRecv : OnRecv σ ε} {t : IoEventType} {st st' : RecvState σ ε}
    (h : Last t st) {a : RecvAction} (ha : a ≠ .read) (hstep : st.step onRecv a = some st') :
    Last t st' := by
  cases step_cases hstep with
  | append a io _ _ => exact h
  | post t => exact h
  | read t queue _ _ => exact absurd rfl ha
  | lock t' io hm _ =>
      rcases h with hm' | ⟨hm', -⟩ <;> rw [hm] at hm'
      · exact .inl hm'
      · cases hm'
  | look t' io hm _ =>
      rcases h with hm' | ⟨hm', -⟩ <;> rw [hm] at hm'
      · exact .inl hm'
      · cases hm'
  | call t' v io hm _ _ =>
      rcases h with hm' | ⟨hm', -⟩ <;> rw [hm] at hm'
      · exact .inl hm'
      · cases hm'
  | again t' nUse io hm _ _ =>
      rcases h with hm' | ⟨hm', -⟩ <;> rw [hm] at hm'
      · exact .inl hm'
      · cases hm'
  | finish t' io hm _ =>
      rcases h with hm' | ⟨hm', -⟩ <;> rw [hm] at hm'
      · simp only [RecvMain.event, Option.some.injEq] at hm'
        subst hm'
        refine .inr ⟨rfl, fun hbreak => ⟨st.trace, ?_⟩⟩
        rw [if_pos hbreak.symm]
      · cases hm'

/-- The pieces of a run split where the run splits. -/
theorem pieces_append (as bs : List RecvAction) : pieces (as ++ bs) = pieces as ++ pieces bs :=
  List.flatMap_append

/-- A run that appends nothing has no pieces. -/
theorem pieces_eq_nil {as : List RecvAction} (h : ∀ a, .append a ∉ as) : pieces as = [] := by
  refine List.flatMap_eq_nil_iff.mpr fun a ha => ?_
  cases a with
  | append b => exact absurd ha (h b)
  | _ => rfl

/-- The bytes of finished and unfinished appends are the pieces of the run. -/
theorem run_pieces {onRecv : OnRecv σ ε} {s₀ : σ} {as : List RecvAction} {st : RecvState σ ε}
    (h : run (step onRecv) (init s₀) as = some st) :
    st.io.written ++ st.io.writer.pending = pieces as := by
  refine run_induction (fun as st => st.io.written ++ st.io.writer.pending = pieces as) rfl ?_ h
  intro as s a s' _ ih hstep
  rw [pieces_append, ← ih]
  cases step_cases hstep with
  | append b io hb hio =>
      rw [StreamState.step_writes hio]
      congr 1
      cases b <;> rfl
  | post t => simp [pieces]
  | read t queue _ _ => simp [pieces]
  | lock t io _ hio => simpa [StreamState.writes, pieces] using StreamState.step_writes hio
  | look t io _ hio => simpa [StreamState.writes, pieces] using StreamState.step_writes hio
  | call t v io _ _ hio =>
      split at hio
      · simpa [StreamState.writes, pieces] using StreamState.step_writes hio
      · cases hio
        simp [pieces]
  | again t nUse io _ _ hio => simpa [StreamState.writes, pieces] using StreamState.step_writes hio
  | finish t io _ hio => simpa [StreamState.writes, pieces] using StreamState.step_writes hio

/-- A run that reads an event behind the last append, and comes out of the loop again, has
done what the bytes in one piece do. -/
theorem processed_feed (hf : StableSession f) {s₀ : σ} {as₁ as₂ : List RecvAction}
    {st₁ st : RecvState σ ε} (h₁ : run (step (onBuffer f)) (init s₀) as₁ = some st₁)
    (h₂ : run (step (onBuffer f)) st₁ (.read :: as₂) = some st)
    (hquiet : ∀ a, .append a ∉ as₂) (hw : st.io.writer = .idle) (hm : st.main = .idle) :
    feed (consumer f) s₀ (pieces as₁)
      = ⟨effectsOf st.trace, st.session, st.io.stream.unread⟩ := by
  have hall : run (step (onBuffer f)) (init s₀) (as₁ ++ .read :: as₂) = some st := by
    rw [run_append, h₁]
    exact h₂
  -- The state behind the read, and the rest of the run from there.
  rw [run_cons] at h₂
  obtain ⟨st₂, hread, h₂⟩ := Option.bind_eq_some_iff.mp h₂
  have hinv₂ : RecvInv f s₀ st₂ :=
    (run_invariant (fun _ _ _ hi hs => hi.step hf hs) (recvInv_init s₀) h₁).step hf hread
  have hstart : Quiet f st₂ := by
    cases step_cases hread with
    | read t' queue _ hq => trivial
  -- Nothing is appended any more: the run keeps `Quiet` along with the invariant.
  have hpair : RecvInv f s₀ st ∧ Quiet f st := by
    refine run_induction
      (fun as s => (∀ a, .append a ∉ as) → RecvInv f s₀ s ∧ Quiet f s)
      (fun _ => ⟨hinv₂, hstart⟩) ?_ h₂ hquiet
    intro as s a s' _ ih hs hno
    obtain ⟨hi, hq⟩ := ih fun b hb => hno b (List.mem_append_left _ hb)
    exact ⟨hi.step hf hs, hq.step hf hi (fun b hb => hno b (by simp [hb])) hs⟩
  obtain ⟨hinv, hq⟩ := hpair
  rw [Quiet, hm] at hq
  -- All pieces are in the stream, and `OnRecv` has nothing left to use.
  have hwritten : st.io.written = pieces as₁ := by
    have hp := run_pieces hall
    have htail : pieces (.read :: as₂) = [] :=
      pieces_eq_nil fun a ha => by
        rcases List.mem_cons.mp ha with h | h
        · cases h
        · exact hquiet a h
    rw [hw, StreamWriter.pending, List.append_nil, pieces_append, htail, List.append_nil] at hp
    exact hp
  have hprog := hinv.progress
  rw [hwritten] at hprog
  exact hprog.done ((hf.used_eq_zero _ _).mpr hq)

/-- Chunks and interleaving do not show. Take a session that keeps the contract, and a run
of the worker and the main thread, with the pieces appended through the steps of `in` and
events queued at any moment, and with room for every append. Let `t` be an event that the main
thread reads with nothing appended after that. When the main thread is outside the loop again,
the effects of `OnRecv`, its state and the unread bytes are those of the drain loop on a stream
that got all pieces in one `in`. When `t` is BREAK and the last event, all effects are in front
of `OnDisconnect`. No step leaves the range of `s32`, nor does the one `in` where there is room
for it. -/
theorem recv_chunking (hf : StableSession f) (s₀ : σ) (as₁ as₂ : List RecvAction)
    (t : IoEventType) (st₁ st : RecvState σ ε)
    (h₁ : run (step (onBuffer f)) (init s₀) as₁ = some st₁)
    (ht : st₁.queue.head? = some t)
    (h₂ : run (step (onBuffer f)) st₁ (.read :: as₂) = some st)
    (hquiet : ∀ a, .append a ∉ as₂) (hw : st.io.writer = .idle) (hm : st.main = .idle)
    (hroom : AllSteps (step (onBuffer f)) Roomy (init s₀) (as₁ ++ .read :: as₂)) :
    AllSteps (step (onBuffer f)) (InRange (onBuffer f)) (init s₀) (as₁ ++ .read :: as₂) ∧
    ((pieces as₁).length + BUFF_SIZE < 2147483648 →
      ∃ n, TStream.in32 n .init (Mem.ofList (pieces as₁) 0) (pieces as₁).length
        = some (onePiece s₀ (pieces as₁) : Drain σ ε).stream) ∧
    ∃ n d, doWhile (drainBody (onBuffer f)) n (onePiece s₀ (pieces as₁)) = some d ∧
      effectsOf st.trace = d.effects ∧
      st.io.stream.unread = d.stream.unread ∧
      st.session = d.session ∧
      (t = .BREAK → .read ∉ as₂ →
        ∃ front, st.trace = front ++ [.OnDisconnect] ∧ effectsOf front = d.effects) := by
  have hall : run (step (onBuffer f)) (init s₀) (as₁ ++ .read :: as₂) = some st := by
    rw [run_append, h₁]
    exact h₂
  refine ⟨run_inRange hf hroom hall, fun hone => ?_, ?_⟩
  · refine TStream.in32_of_sized BUFF_SIZE_pos TStream.init_sized (Int.natCast_nonneg _) ?_ _
    simp only [TStream.init]
    omega
  have hfeed := processed_feed hf h₁ h₂ hquiet hw hm
  obtain ⟨n, d, hrun, heff, hses, hrest⟩ := onePiece_drain hf s₀ (pieces as₁)
  rw [hfeed] at heff hses hrest
  refine ⟨n, d, hrun, heff.symm, hrest.symm, hses.symm, fun hbreak hnoread => ?_⟩
  -- No event is read behind the first, so it is in hand until it is finished.
  have hlast : Last t st := by
    rw [run_cons] at h₂
    obtain ⟨st₂, hread, h₂⟩ := Option.bind_eq_some_iff.mp h₂
    have hlast₂ : Last t st₂ := by
      cases step_cases hread with
      | read t' queue _ hq =>
          rw [hq, List.head?_cons, Option.some.injEq] at ht
          subst ht
          exact .inl rfl
    refine run_induction (fun as s => .read ∉ as → Last t s) (fun _ => hlast₂) ?_ h₂ hnoread
    intro as s a s' _ ih hs hno
    exact (ih fun hb => hno (List.mem_append_left _ hb)).step
      (fun hb => hno (by simp [hb])) hs
  rcases hlast with hev | ⟨-, hfront⟩
  · rw [hm] at hev
    cases hev
  · obtain ⟨front, hfront⟩ := hfront hbreak
    refine ⟨front, hfront, ?_⟩
    rw [heff]
    show effectsOf front = effectsOf st.trace
    rw [hfront, effectsOf_disconnect]

/-- A session whose frames are two bytes each, and whose effects are the frames. -/
def pairSession : Unit → List UInt8 → Received Unit (List UInt8) := fun s b =>
  if 2 ≤ b.length then ⟨2, s, [b.take 2]⟩ else ⟨0, s, []⟩

/-- The frames of two bytes do not depend on what is behind them. -/
theorem pairSession_stable : StableSession pairSession where
  used_nonneg s b := by
    unfold pairSession
    split <;> dsimp only <;> omega
  used_le s b := by
    unfold pairSession
    split <;> dsimp only <;> omega
  idle s b h := by
    unfold pairSession at h ⊢
    split at h
    · cases h
    · rename_i hlen
      rw [if_neg hlen]
      exact ⟨rfl, rfl⟩
  extend s b d h := by
    unfold pairSession at h ⊢
    split at h
    · rename_i hlen
      rw [if_pos hlen, if_pos (by rw [List.length_append]; omega),
        List.take_append_of_le_length hlen]
    · cases h

/-- The bytes `1 2 3` in the pieces `1` and `2 3`. The RECV event is handled behind the first
piece. -/
def pairRun : List RecvAction :=
  [.append (.write [1]), .append .relocate, .append .copy, .append .advance, .post .RECV,
    .read, .lock, .look, .append (.write [2, 3]), .call, .free, .append .relocate,
    .append .copy, .append .advance, .post .BREAK]

/-- The two rounds of the loop for the BREAK event. -/
def pairLoop : List RecvAction := [.lock, .look, .call, .free, .lock, .look, .call, .free]

/-- The pieces `1` and `2 3` have the effects of `1 2 3` in one piece. -/
theorem recv_chunking_pair :
    ∃ st, run (step (onBuffer pairSession)) (init ()) (pairRun ++ .read :: pairLoop) = some st ∧
      ∃ n d, doWhile (drainBody (onBuffer pairSession)) n (onePiece () [1, 2, 3]) = some d ∧
        effectsOf st.trace = d.effects ∧ st.io.stream.unread = d.stream.unread := by
  obtain ⟨st₁, h₁, ht⟩ : ∃ st₁, run (step (onBuffer pairSession)) (init ()) pairRun = some st₁ ∧
      st₁.queue.head? = some .BREAK := ⟨_, rfl, rfl⟩
  obtain ⟨st, h, hw, hm⟩ : ∃ st, run (step (onBuffer pairSession)) (init ())
      (pairRun ++ .read :: pairLoop) = some st ∧ st.io.writer = .idle ∧ st.main = .idle :=
    ⟨_, rfl, rfl, rfl⟩
  have h₂ := h
  rw [run_append, h₁] at h₂
  obtain ⟨-, -, n, d, hrun, heff, hrest, -⟩ := recv_chunking pairSession_stable () pairRun
    pairLoop .BREAK st₁ st h₁ ht h₂ (fun a ha => by simp [pairLoop] at ha) hw hm (by decide)
  exact ⟨st, h, n, d, hrun, heff, hrest⟩

/-! ### An append without room -/

/-- The worker appends a piece. -/
def appendPiece (src : List UInt8) : List RecvAction :=
  [.append (.write src), .append .relocate, .append .copy, .append .advance]

/-- `k` pieces of `BUFF_SIZE` bytes, of which nothing is taken. -/
def flood : Nat → List RecvAction
  | 0 => []
  | k + 1 => flood k ++ appendPiece (List.replicate BUFF_SIZE 0)

/-- An append after which fewer than `2 ^ 31` bytes are pending. -/
def Pending (st : RecvState σ ε) : RecvAction → Prop
  | .append (.write src) => st.io.stream.size + src.length < 2147483648
  | _ => True

/-- A stream that the reader has not come to. -/
structure Piled (k : Nat) (st : RecvState σ ε) : Prop where
  writer : st.io.writer = .idle
  reader : st.io.reader = .idle
  m_read : st.io.stream.m_read = 0
  m_write : st.io.stream.m_write = 16384 * k
  m_max : st.io.stream.m_max = 16384 * (2 * (k / 2 : Nat) + 1)

/-- The block is full, so `in` of a `BUFF_SIZE` makes it two of them larger. -/
theorem inPlan_of_full {s : TStream BUFF_SIZE} (hread : s.m_read = 0)
    (hfull : s.m_write = s.m_max) :
    s.inPlan BUFF_SIZE = .grow (s.m_max + BUFF_SIZE + BUFF_SIZE) := by
  have hpos : (0 : Int) < BUFF_SIZE := by decide
  have hfuel : (s.m_write - s.m_read + BUFF_SIZE - (s.m_max + BUFF_SIZE) + 1).toNat = 1 := by omega
  unfold TStream.inPlan
  rw [if_pos (by omega)]
  dsimp only
  rw [if_pos (by omega), hfuel, TStream.growLoop, if_pos (by omega), TStream.growLoop]

/-- The four steps of an append are one `in`. -/
theorem appendPiece_run {onRecv : OnRecv σ ε} {st : RecvState σ ε} (hw : st.io.writer = .idle)
    (hr : st.io.reader = .idle) (src : List UInt8) :
    run (step onRecv) st (appendPiece src) = some { st with
      io := { st.io with
        stream := st.io.stream.inBytes (Mem.ofList src 0) src.length
        written := st.io.written ++ src } } := by
  obtain ⟨⟨stream, writer, reader, written, taken⟩, queue, main, session, trace⟩ := st
  dsimp only at hw hr
  subst hw
  subst hr
  unfold appendPiece TStream.inBytes
  cases hplan : stream.inPlan src.length <;>
    simp [RecvState.step, StreamState.step, StreamAction.ofWriter, hplan, TStream.relocate]

/-- One more piece. -/
theorem Piled.append {k : Nat} (onRecv : OnRecv σ ε) {st : RecvState σ ε} (h : st.Piled k)
    {src : List UInt8} (hsrc : src.length = BUFF_SIZE) :
    ∃ st', run (step onRecv) st (appendPiece src) = some st' ∧ st'.Piled (k + 1) := by
  obtain ⟨hw, hr, hread, hwrite, hmax⟩ := h
  have hB : (BUFF_SIZE : Int) = 16384 := rfl
  have hhalf : k % 2 = 0 ∧ (k + 1) / 2 = k / 2 ∨ k % 2 = 1 ∧ (k + 1) / 2 = k / 2 + 1 := by omega
  have hin : ∀ pbuff (n : Int), n = BUFF_SIZE → (st.io.stream.inBytes pbuff n).m_read = 0 ∧
      (st.io.stream.inBytes pbuff n).m_write = 16384 * (k + 1 : Nat) ∧
      (st.io.stream.inBytes pbuff n).m_max = 16384 * (2 * ((k + 1) / 2 : Nat) + 1) := by
    rintro pbuff _ rfl
    rcases hhalf with ⟨heven, hdiv⟩ | ⟨hodd, hdiv⟩
    · -- Behind an even number of pieces there is room for just one more.
      have hplan : st.io.stream.inPlan BUFF_SIZE = .stay := if_neg (by omega)
      simp only [TStream.inBytes, hplan, TStream.relocate, TStream.copyIn, TStream.advance]
      exact ⟨hread, by omega, by omega⟩
    · have hplan := inPlan_of_full hread (by omega)
      simp only [TStream.inBytes, hplan, TStream.relocate, TStream.malloc_new_size,
        TStream.copyIn, TStream.advance]
      exact ⟨trivial, by omega, by omega⟩
  obtain ⟨hread', hwrite', hmax'⟩ := hin (Mem.ofList src 0) src.length (by rw [hsrc])
  exact ⟨_, appendPiece_run hw hr src, hw, hr, hread', hwrite', hmax'⟩

/-- `k` pieces pile up. -/
theorem flood_run (onRecv : OnRecv σ ε) (s₀ : σ) (k : Nat) :
    ∃ st, run (step onRecv) (init s₀) (flood k) = some st ∧ st.Piled k := by
  induction k with
  | zero => exact ⟨init s₀, rfl, ⟨rfl, rfl, rfl, rfl, rfl⟩⟩
  | succ k ih =>
      obtain ⟨st, hst, hpiled⟩ := ih
      have hsrc : (List.replicate BUFF_SIZE (0 : UInt8)).length = BUFF_SIZE :=
        List.length_replicate
      obtain ⟨st', hst', hpiled'⟩ := hpiled.append onRecv hsrc
      exact ⟨st', by rw [flood, run_append, hst]; exact hst', hpiled'⟩

/-- An append whose first step leaves fewer than `2 ^ 31` bytes pending. -/
theorem appendPiece_pending {onRecv : OnRecv σ ε} {st : RecvState σ ε} {src : List UInt8}
    (h : st.io.stream.size + src.length < 2147483648) :
    AllSteps (step onRecv) Pending st (appendPiece src) := by
  refine ⟨h, ?_⟩
  split
  · refine ⟨trivial, ?_⟩
    split
    · refine ⟨trivial, ?_⟩
      split
      · refine ⟨trivial, ?_⟩
        split <;> trivial
      · trivial
    · trivial
  · trivial

/-- Up to `131071` pieces are fewer than `2 ^ 31` bytes. -/
theorem flood_pending {onRecv : OnRecv σ ε} (s₀ : σ) (k : Nat) (hk : k ≤ 131071) :
    AllSteps (step onRecv) Pending (init s₀) (flood k) := by
  induction k with
  | zero => trivial
  | succ k ih =>
      obtain ⟨st, hst, hpiled⟩ := flood_run onRecv s₀ k
      rw [flood, allSteps_append hst]
      refine ⟨ih (by omega), appendPiece_pending ?_⟩
      have hB : (BUFF_SIZE : Int) = 16384 := rfl
      rw [TStream.size, hpiled.m_write, hpiled.m_read, List.length_replicate]
      omega

/-- Behind `131071` pieces the block is the largest one and full. One more byte is no more than
`2 ^ 31` of them, but the sum for the next capacity leaves the range of `s32`. -/
theorem recv_overflow :
    ∃ st, run (step (onBuffer pairSession)) (init ()) (flood 131071) = some st ∧
      AllSteps (step (onBuffer pairSession)) Pending (init ())
        (flood 131071 ++ [.append (.write [0])]) ∧
      ¬ AllSteps (step (onBuffer pairSession)) (InRange (onBuffer pairSession)) (init ())
        (flood 131071 ++ [.append (.write [0])]) := by
  generalize hk : 131071 = k
  obtain ⟨st, hst, hpiled⟩ := flood_run (onBuffer pairSession) () k
  have hwrite := hpiled.m_write
  have hmax := hpiled.m_max
  have hread := hpiled.m_read
  have hB : (BUFF_SIZE : Int) = 16384 := rfl
  have hsized : st.io.stream.Sized :=
    ⟨by omega, by omega, by omega, ⟨131071, by rw [hmax, hB]; omega⟩, by omega, by omega⟩
  refine ⟨st, hst, ?_, ?_⟩
  · rw [allSteps_snoc hst]
    refine ⟨flood_pending () k (by omega), ?_⟩
    show st.io.stream.size + (1 : Nat) < 2147483648
    rw [TStream.size]
    omega
  · rw [allSteps_snoc hst]
    rintro ⟨-, n, plan, hplan⟩
    rcases TStream.hasRoom_of_plan32 ⟨131072, by rw [hB]; rfl⟩ hsized (by omega) hplan
      with hfits | hbound
    · rw [List.length_singleton] at hfits
      omega
    · rw [TStream.size, List.length_singleton] at hbound
      omega

end RecvState

end Kernel4GameServer
