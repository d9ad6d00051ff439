import Kernel4GameServer.Net.Iocp.Processing
import Kernel4GameServer.Proofs.Net.RecvChunking

/-!
# `Kernel4GameServer.Proofs.Net.Iocp.RecvFrames`: one frame for each RECV event

The drain loop of the epoll engine calls `OnRecv` until it uses nothing.
`iocpworker::Processing` calls it once for each RECV event, and a RECV event comes from one
completed receive. So the IOCP engine hands out at most as many frames as it has seen
receives.

* `Inv.step`: what has been consumed and what is still in the stream make up the stream so
  far, and so do their frames. Only `call` consumes, one frame at most.
* `Budget.step`: where the last `k` receives complete at most `k` frames for every `k`, the
  events that are left are always enough for the frames that are left.
* `serve_run`: every receive may be processed before the next one comes.
* `same_frames_iff`: the two engines consume the same frames under every timing exactly when
  the last `k` receives complete at most `k` frames, for every `k`.
-/

set_option autoImplicit false

namespace Kernel4GameServer.Iocp

open Lib
open Kernel4GameServer.RecvState (writer_step lock_step look_step out_step free_step)

variable {σ ε : Type} {f : σ → List UInt8 → Received σ ε}

namespace RecvState

/-- What each step does, by action. -/
inductive Step (onRecv : OnRecv σ ε) (st : RecvState σ ε) :
    RecvAction → RecvState σ ε → Prop where
  | complete (bytes : List UInt8) (io : StreamState BUFF_SIZE) : st.receiving = false →
      bytes ≠ [] → st.io.step (.write bytes) = some io →
      Step onRecv st (.complete bytes) { st with io, receiving := true }
  | append (a : StreamAction) (io : StreamState BUFF_SIZE) : goesOn a = true →
      st.io.step a = some io → Step onRecv st (.append a) { st with io }
  | Add : st.receiving = true → st.io.writer = .idle →
      Step onRecv st .Add { st with receiving := false, queue := st.queue ++ [.RECV] }
  | read (t : IoEventType) (queue : List IoEventType) : st.main = .idle →
      st.queue = t :: queue → Step onRecv st .read { st with main := .head, queue }
  | lock (io : StreamState BUFF_SIZE) : st.main = .head → st.io.step .lock = some io →
      Step onRecv st .lock { st with io, main := .locked }
  | test : st.main = .locked →
      Step onRecv st .test
        { st with main := if 0 ≠ st.io.stream.size then .tested else .done }
  | look (io : StreamState BUFF_SIZE) : st.main = .tested → st.io.step .look = some io →
      Step onRecv st .look { st with io, main := .looked }
  | call (v : View) (io : StreamState BUFF_SIZE) : st.main = .looked →
      st.io.reader = .looking v →
      (if (onRecv st.session st.io.stream.buff v.nLeft).nUse > 0 then
          st.io.step (.out (onRecv st.session st.io.stream.buff v.nLeft).nUse)
        else some st.io) = some io →
      Step onRecv st .call
        { st with
          io
          main := .done
          session := (onRecv st.session st.io.stream.buff v.nLeft).session
          effects := st.effects ++ (onRecv st.session st.io.stream.buff v.nLeft).effects }
  | free (io : StreamState BUFF_SIZE) : st.main = .done → st.io.step .free = some io →
      Step onRecv st .free { st with io, main := .idle }

/-- A step that is taken is one of the above. -/
theorem step_cases {onRecv : OnRecv σ ε} {st st' : RecvState σ ε} {a : RecvAction}
    (hstep : st.step onRecv a = some st') : Step onRecv st a st' := by
  cases a with
  | complete bytes =>
      simp only [RecvState.step] at hstep
      split at hstep
      · rename_i hc
        obtain ⟨io, hio, rfl⟩ := Option.map_eq_some_iff.mp hstep
        exact .complete bytes io hc.1 hc.2 hio
      · cases hstep
  | append a =>
      simp only [RecvState.step] at hstep
      split at hstep
      · rename_i ha
        obtain ⟨io, hio, rfl⟩ := Option.map_eq_some_iff.mp hstep
        exact .append a io ha hio
      · cases hstep
  | Add =>
      simp only [RecvState.step] at hstep
      split at hstep
      · rename_i hr hw
        exact Option.some.inj hstep ▸ .Add hr hw
      · cases hstep
  | read =>
      simp only [RecvState.step] at hstep
      split at hstep
      · rename_i t queue hm hq
        exact Option.some.inj hstep ▸ .read t queue hm hq
      · cases hstep
  | lock =>
      simp only [RecvState.step] at hstep
      split at hstep
      · rename_i hm
        obtain ⟨io, hio, rfl⟩ := Option.map_eq_some_iff.mp hstep
        exact .lock io hm hio
      · cases hstep
  | test =>
      simp only [RecvState.step] at hstep
      split at hstep
      · rename_i hm
        exact Option.some.inj hstep ▸ .test hm
      · cases hstep
  | look =>
      simp only [RecvState.step] at hstep
      split at hstep
      · rename_i hm
        obtain ⟨io, hio, rfl⟩ := Option.map_eq_some_iff.mp hstep
        exact .look io hm hio
      · cases hstep
  | call =>
      simp only [RecvState.step] at hstep
      split at hstep
      · rename_i v hm hr
        obtain ⟨io, hio, rfl⟩ := Option.map_eq_some_iff.mp hstep
        exact .call v io hm hr hio
      · cases hstep
  | free =>
      simp only [RecvState.step] at hstep
      split at hstep
      · rename_i hm
        obtain ⟨io, hio, rfl⟩ := Option.map_eq_some_iff.mp hstep
        exact .free io hm hio
      · cases hstep

/-! ### The bytes and the frames -/

/-- The reader of the stream is where the main thread is. -/
def ReaderAt (io : StreamState BUFF_SIZE) : RecvMain → Prop
  | .idle => io.reader = .idle
  | .head => io.reader = .idle
  | .locked => io.reader = .locked
  | .tested => io.reader = .locked
  | .looked => ∃ v, io.reader = .looking v
  | .done => io.reader ≠ .idle

/-- The invariant of the received bytes, where `k` frames have been consumed. -/
structure Inv (f : σ → List UInt8 → Received σ ε) (s₀ : σ) (k : Nat) (st : RecvState σ ε) :
    Prop where
  io : st.io.Inv
  writer : st.receiving = false → st.io.writer = .idle
  reader : ReaderAt st.io st.main
  progress : Progress (consumer f) s₀ st.io.written st.effects st.session st.io.stream.unread
  counted : Counted (consumer f) s₀ st.io.written k st.session st.io.stream.unread

/-- A connected pipe satisfies the invariant. -/
theorem inv_init (s₀ : σ) : Inv f s₀ 0 (init s₀) where
  io := StreamState.inv_init
  writer _ := rfl
  reader := rfl
  progress := Progress.start s₀ []
  counted := Counted.start s₀ []

/-- What a looking main thread is about to call: the session on the bytes it sees. -/
theorem Inv.onRecv_eq {s₀ : σ} {k : Nat} {st : RecvState σ ε} (h : Inv f s₀ k st) {v : View}
    (hr : st.io.reader = .looking v) :
    onBuffer f st.session st.io.stream.buff v.nLeft = f st.session v.bytes := by
  obtain ⟨later, hlater⟩ := h.io.looking_unread hr
  have hlen := h.io.length_view (v := v) (by rw [hr]; rfl)
  have hv := h.io.view v (by rw [hr]; rfl)
  have hoff := h.io.looking v hr
  have hsize : v.nLeft.toNat ≤ st.io.stream.size.toNat := by
    have := hv.len
    simp only [TStream.size]
    omega
  rw [onBuffer, TStream.slice_buff st.io.stream hsize, hlater, ← hlen, List.take_left']
  rfl

/-- A step of the writer keeps the reader where it is. -/
theorem ReaderAt.congr {io io' : StreamState BUFF_SIZE} {m : RecvMain} (h : ReaderAt io m)
    (hr : io'.reader = io.reader) : ReaderAt io' m := by
  cases m <;> simp only [ReaderAt] at h ⊢ <;> rw [hr] <;> exact h

/-- A writer that goes on with `in` is not outside of it. -/
theorem busy_of_goesOn {io io' : StreamState BUFF_SIZE} {a : StreamAction}
    (ha : goesOn a = true) (hstep : io.step a = some io') : io.writer ≠ .idle := by
  intro hidle
  cases StreamState.step_cases hstep with
  | stay src hw => cases hidle.symm.trans hw
  | relocate plan src hw hr => cases hidle.symm.trans hw
  | copy src hw => cases hidle.symm.trans hw
  | advance src hw => cases hidle.symm.trans hw
  | _ => cases ha

/-- The number of frames that a step consumes. -/
def consumes (f : σ → List UInt8 → Received σ ε) (st : RecvState σ ε) : RecvAction → Nat
  | .call =>
      match st.io.reader with
      | .looking v => if (f st.session v.bytes).nUse > 0 then 1 else 0
      | _ => 0
  | _ => 0

/-- Every step keeps the invariant. Only `call` consumes, and one frame at most. -/
theorem Inv.step (hf : StableSession f) {s₀ : σ} {k : Nat} {st st' : RecvState σ ε}
    (h : Inv f s₀ k st) {a : RecvAction} (hstep : st.step (onBuffer f) a = some st') :
    Inv f s₀ (k + consumes f st a) st' := by
  cases step_cases hstep with
  | complete bytes io _ _ hio =>
      obtain ⟨hr, d, hw, hu, -⟩ := writer_step h.io (by rfl) hio
      refine ⟨h.io.step BUFF_SIZE_pos hio, (fun hc => by cases hc), h.reader.congr hr, ?_, ?_⟩
      · dsimp only
        rw [hw, hu]
        -- The frames of what was written before are frames of the longer input too.
        exact h.progress.append hf.stable d
      · dsimp only
        rw [hw, hu]
        exact h.counted.append hf.stable h.progress d
  | append b io hb hio =>
      have hof : b.ofWriter = true := by
        cases b <;> first | rfl | cases hb
      obtain ⟨hr, d, hw, hu, -⟩ := writer_step h.io hof hio
      refine ⟨h.io.step BUFF_SIZE_pos hio, fun hrec => ?_, h.reader.congr hr, ?_, ?_⟩
      · -- The writer is outside `in` there, so none of its steps is taken.
        exact absurd (h.writer hrec) (busy_of_goesOn hb hio)
      · dsimp only
        rw [hw, hu]
        exact h.progress.append hf.stable d
      · dsimp only
        rw [hw, hu]
        exact h.counted.append hf.stable h.progress d
  | Add _ hw =>
      exact ⟨h.io, fun _ => hw, h.reader, h.progress, h.counted⟩
  | read t queue hm _ =>
      have hreader := h.reader
      rw [hm] at hreader
      exact ⟨h.io, h.writer, hreader, h.progress, h.counted⟩
  | lock io _ hio =>
      obtain ⟨hs, hw, hr⟩ := lock_step hio
      refine ⟨h.io.step BUFF_SIZE_pos hio, fun hrec => ?_, hr, ?_, ?_⟩
      · cases StreamState.step_cases hio
        exact h.writer hrec
      · dsimp only
        rw [hs, hw]
        exact h.progress
      · dsimp only
        rw [hs, hw]
        exact h.counted
  | test hm =>
      have hreader := h.reader
      rw [hm] at hreader
      refine ⟨h.io, h.writer, ?_, h.progress, h.counted⟩
      dsimp only
      split
      · exact hreader
      · intro hidle
        -- Only the lock has been taken: the reader is not idle.
        cases (show st.io.reader = .locked from hreader).symm.trans hidle
  | look io _ hio =>
      obtain ⟨hs, hw, v, hr, -⟩ := look_step hio
      refine ⟨h.io.step BUFF_SIZE_pos hio, fun hrec => ?_, ⟨v, hr⟩, ?_, ?_⟩
      · cases StreamState.step_cases hio
        exact h.writer hrec
      · dsimp only
        rw [hs, hw]
        exact h.progress
      · dsimp only
        rw [hs, hw]
        exact h.counted
  | call v io _ hr hio =>
      rw [h.onRecv_eq hr] at hio ⊢
      split at hio
      · -- One frame is consumed.
        rename_i hpos
        obtain ⟨hw, hu, hne⟩ := out_step h.io hio
        -- What the worker writes after the look comes behind the view.
        obtain ⟨later, hlater⟩ := h.io.looking_unread hr
        have hprog := h.progress
        have hcount := h.counted
        have hused : 0 < (consumer f st.session v.bytes).used := by
          simp only [consumer]
          omega
        rw [hlater] at hprog hcount hu
        simp only [consumes, hr, if_pos hpos]
        refine ⟨h.io.step BUFF_SIZE_pos hio, fun hrec => ?_, hne, ?_, ?_⟩
        · cases StreamState.step_cases hio
          exact h.writer hrec
        · dsimp only
          rw [hw, hu]
          exact hprog.consume hf.stable hused
        · dsimp only
          rw [hw, hu]
          exact hcount.consume hf.stable hused
      · rename_i hpos
        -- Nothing is consumed, and an idle session leaves everything as it was.
        have hzero : (f st.session v.bytes).nUse = 0 := by
          have := hf.used_nonneg st.session v.bytes
          omega
        obtain ⟨hs, he⟩ := hf.idle _ _ hzero
        rw [Option.some.injEq] at hio
        subst hio
        have hne : st.io.reader ≠ .idle := fun hidle => by
          rw [hr] at hidle
          cases hidle
        simp only [consumes, hr, if_neg hpos]
        refine ⟨h.io, h.writer, hne, ?_, ?_⟩
        · dsimp only
          rw [hs, he, List.append_nil]
          exact h.progress
        · dsimp only
          rw [hs]
          exact h.counted
  | free io _ hio =>
      obtain ⟨hs, hw, hr⟩ := free_step hio
      refine ⟨h.io.step BUFF_SIZE_pos hio, fun hrec => ?_, hr, ?_, ?_⟩
      · cases StreamState.step_cases hio
        exact h.writer hrec
      · dsimp only
        rw [hs, hw]
        exact h.progress
      · dsimp only
        rw [hs, hw]
        exact h.counted

/-! ### The events that are left -/

/-- The event that the main thread has taken and not called `OnRecv` for. -/
def owes : RecvMain → Nat
  | .idle => 0
  | .head => 1
  | .locked => 1
  | .tested => 1
  | .looked => 1
  | .done => 0

/-- The events whose `OnRecv` is still to come: for the receive that the worker is at, those
of the queue and the one that the main thread is at. -/
def eventsLeft (st : RecvState σ ε) : Nat :=
  (if st.receiving then 1 else 0) + st.queue.length + owes st.main

/-- The number of frames of a stream. -/
def framesOf (f : σ → List UInt8 → Received σ ε) (s₀ : σ) (w : List UInt8) : Nat :=
  frames (consumer f) s₀ w

/-- The last `k` of the chunks complete at most `k` frames, for every `k`. -/
def Spaced (f : σ → List UInt8 → Received σ ε) (s₀ : σ) (ws : List (List UInt8)) : Prop :=
  ∀ i ≤ ws.length,
    framesOf f s₀ ws.flatten ≤ framesOf f s₀ (ws.take i).flatten + (ws.length - i)

/-- What a run knows that has seen the chunks `done`, the first ones of `ws`. -/
structure Budget (f : σ → List UInt8 → Received σ ε) (s₀ : σ) (ws done : List (List UInt8))
    (k : Nat) (st : RecvState σ ε) : Prop where
  inv : Inv f s₀ k st
  pieces : st.io.written ++ st.io.writer.pending = done.flatten
  whole : ∃ j, st.io.written = (done.take j).flatten ∧ j ≤ done.length ∧
    done.length ≤ j + if st.receiving then 1 else 0
  enough : framesOf f s₀ ws.flatten ≤ k + eventsLeft st + (ws.length - done.length)
  looked : ∀ v, st.main = .looked → st.io.reader = .looking v →
    (f st.session v.bytes).nUse = 0 →
    framesOf f s₀ ws.flatten + 1 ≤ k + eventsLeft st + (ws.length - done.length)

/-- A new connection. -/
theorem budget_init {s₀ : σ} {ws : List (List UInt8)} (hspaced : Spaced f s₀ ws) :
    Budget f s₀ ws [] 0 (init s₀) where
  inv := inv_init s₀
  pieces := rfl
  whole := ⟨0, rfl, Nat.le_refl _, Nat.zero_le _⟩
  enough := by
    have h := hspaced 0 (Nat.zero_le _)
    have hnil : framesOf f s₀ ([] : List UInt8) = 0 := by
      rw [framesOf, frames, dif_neg (fun h => h.1 rfl)]
    rw [List.take_zero, List.flatten_nil, hnil] at h
    simpa [eventsLeft, init, owes] using h
  looked v hm := by cases hm

/-- Where `OnRecv` would use nothing of what is in the stream, one event more than needed is
left. -/
theorem Budget.spare (hf : StableSession f) {s₀ : σ} {ws done : List (List UInt8)} {k : Nat}
    {st : RecvState σ ε} (hspaced : Spaced f s₀ ws) (hdone : done <+: ws)
    (h : Budget f s₀ ws done k st) (howes : owes st.main = 1)
    (hidle : (f st.session st.io.stream.unread).nUse = 0) :
    framesOf f s₀ ws.flatten + 1 ≤ k + eventsLeft st + (ws.length - done.length) := by
  obtain ⟨j, hwritten, hj, hj'⟩ := h.whole
  have hlen := hdone.length_le
  have hall : framesOf f s₀ st.io.written = k := by
    have hcount := h.inv.counted
    unfold Counted at hcount
    rw [framesOf, hcount, frames_idle ((hf.used_eq_zero _ _).mpr hidle), Nat.add_zero]
  have htake : ws.take j = done.take j := by
    obtain ⟨rest, rfl⟩ := hdone
    exact List.take_append_of_le_length hj
  have hlast := hspaced j (by omega)
  rw [htake, ← hwritten, hall] at hlast
  simp only [eventsLeft, howes]
  omega

/-- The bytes of finished and unfinished appends after a step are the ones before it and
those of the chunk it begins. -/
theorem step_pieces {onRecv : OnRecv σ ε} {st st' : RecvState σ ε} {a : RecvAction}
    (hstep : st.step onRecv a = some st') :
    st'.io.written ++ st'.io.writer.pending
      = st.io.written ++ st.io.writer.pending ++ (chunks [a]).flatten := by
  cases step_cases hstep with
  | complete bytes io _ _ hio =>
      simpa [StreamState.writes, chunks] using StreamState.step_writes hio
  | append b io hb hio =>
      have hsilent : StreamState.writes [b] = [] := by
        cases b <;> first | rfl | cases hb
      simpa [hsilent, chunks] using StreamState.step_writes hio
  | Add _ _ => simp [chunks]
  | read t queue _ _ => simp [chunks]
  | lock io _ hio => simpa [StreamState.writes, chunks] using StreamState.step_writes hio
  | test _ => simp [chunks]
  | look io _ hio => simpa [StreamState.writes, chunks] using StreamState.step_writes hio
  | call v io _ _ hio =>
      split at hio
      · simpa [StreamState.writes, chunks] using StreamState.step_writes hio
      · cases hio
        simp [chunks]
  | free io _ hio => simpa [StreamState.writes, chunks] using StreamState.step_writes hio

/-- Every step keeps the budget. -/
theorem Budget.step (hf : StableSession f) {s₀ : σ} {ws done : List (List UInt8)} {k : Nat}
    {st st' : RecvState σ ε} {a : RecvAction} (hspaced : Spaced f s₀ ws)
    (hdone : done ++ chunks [a] <+: ws) (h : Budget f s₀ ws done k st)
    (hstep : st.step (onBuffer f) a = some st') :
    Budget f s₀ ws (done ++ chunks [a]) (k + consumes f st a) st' := by
  have hinv' := h.inv.step hf hstep
  have hpieces' := step_pieces hstep
  have hpre : done <+: ws := (List.prefix_append done _).trans hdone
  rw [h.pieces, ← List.flatten_append] at hpieces'
  generalize hnew : chunks [a] = new at hdone hpieces' ⊢
  cases step_cases hstep with
  | complete bytes io hrec _ hio =>
      obtain rfl : new = [bytes] := hnew.symm
      have hidle := h.inv.writer hrec
      have hlen := hdone.length_le
      have hpieces := h.pieces
      have henough := h.enough
      have hlooked := h.looked
      simp only [hidle, StreamWriter.pending, List.append_nil] at hpieces
      simp only [eventsLeft, hrec, Bool.false_eq_true, if_false] at henough hlooked
      rw [List.length_append, List.length_singleton] at hlen
      cases StreamState.step_cases hio with
      | write _ _ =>
          refine ⟨hinv', hpieces', ⟨done.length, ?_, ?_, ?_⟩, ?_, fun v hm hr hz => ?_⟩
          · rw [List.take_left' rfl]
            exact hpieces
          · simp
          · simp
          · simp only [eventsLeft, List.length_append, List.length_singleton, if_true, consumes]
            omega
          · have := hlooked v hm hr hz
            simp only [eventsLeft, List.length_append, List.length_singleton, if_true, consumes]
            omega
  | append b io hb hio =>
      obtain rfl : new = [] := hnew.symm
      simp only [List.append_nil, consumes, Nat.add_zero] at hinv' hpieces' ⊢
      -- The reader is not moved by a step of the writer.
      have hreader : io.reader = st.io.reader := by
        cases StreamState.step_cases hio <;> first | rfl | cases hb
      refine ⟨hinv', hpieces', ?_, h.enough, fun v hm hr => h.looked v hm (hreader ▸ hr)⟩
      cases StreamState.step_cases hio with
      | stay src hw => exact h.whole
      | relocate plan src hw hr => exact h.whole
      | copy src hw => exact h.whole
      | advance src hw =>
          -- The chunk is complete.
          refine ⟨done.length, ?_, Nat.le_refl _, Nat.le_add_right _ _⟩
          rw [List.take_length]
          simpa [StreamWriter.pending] using hpieces'
      | _ => cases hb
  | Add hrec hw =>
      obtain rfl : new = [] := hnew.symm
      simp only [List.append_nil, consumes, Nat.add_zero] at hinv' hpieces' ⊢
      have hpieces := h.pieces
      simp only [hw, StreamWriter.pending, List.append_nil] at hpieces
      have hevents : eventsLeft { st with receiving := false, queue := st.queue ++ [.RECV] }
          = eventsLeft st := by
        simp only [eventsLeft, hrec, List.length_append, List.length_singleton]
        simp
        omega
      refine ⟨hinv', hpieces', ⟨done.length, ?_, Nat.le_refl _, Nat.le_add_right _ _⟩, ?_, ?_⟩
      · rw [List.take_length]
        exact hpieces
      · rw [hevents]
        exact h.enough
      · intro v hm hr hz
        rw [hevents]
        exact h.looked v hm hr hz
  | read t queue hm hq =>
      obtain rfl : new = [] := hnew.symm
      simp only [List.append_nil, consumes, Nat.add_zero] at hinv' hpieces' ⊢
      have hevents : eventsLeft { st with main := .head, queue } = eventsLeft st := by
        simp only [eventsLeft, hm, hq, owes, List.length_cons]
        omega
      refine ⟨hinv', hpieces', h.whole, ?_, fun v hm' => by cases hm'⟩
      rw [hevents]
      exact h.enough
  | lock io hm hio =>
      obtain rfl : new = [] := hnew.symm
      simp only [List.append_nil, consumes, Nat.add_zero] at hinv' hpieces' ⊢
      have henough := h.enough
      simp only [eventsLeft, hm, owes] at henough
      cases StreamState.step_cases hio
      exact ⟨hinv', hpieces', h.whole, henough, fun v hm' => by cases hm'⟩
  | test hm =>
      obtain rfl : new = [] := hnew.symm
      simp only [List.append_nil, consumes, Nat.add_zero] at hinv' hpieces' ⊢
      have henough := h.enough
      have howes : owes st.main = 1 := by rw [hm]; rfl
      refine ⟨hinv', hpieces', h.whole, ?_, fun v hm' => ?_⟩
      · by_cases hsize : 0 ≠ st.io.stream.size
        · simp only [eventsLeft, hm, owes] at henough
          simp only [eventsLeft, if_pos hsize, owes]
          exact henough
        · -- The stream is empty, so the session would use nothing.
          have hnil : st.io.stream.unread = [] := by
            refine List.length_eq_zero_iff.mp ?_
            rw [TStream.length_unread, ← not_ne_iff.mp hsize]
            rfl
          have hzero : (f st.session st.io.stream.unread).nUse = 0 := by
            have hle := hf.used_le st.session []
            have hge := hf.used_nonneg st.session []
            rw [hnil]
            simp only [List.length_nil] at hle
            omega
          have hspare := h.spare hf hspaced hpre howes hzero
          simp only [eventsLeft, howes] at hspare
          simp only [eventsLeft, if_neg hsize, owes]
          omega
      · dsimp only at hm'
        split at hm' <;> cases hm'
  | look io hm hio =>
      obtain rfl : new = [] := hnew.symm
      simp only [List.append_nil, consumes, Nat.add_zero] at hinv' hpieces' ⊢
      have henough := h.enough
      have howes : owes st.main = 1 := by rw [hm]; rfl
      have hspare := h.spare hf hspaced hpre howes
      simp only [eventsLeft, howes] at henough hspare
      obtain ⟨hstream, -, v, hr, hv⟩ := look_step hio
      cases StreamState.step_cases hio
      refine ⟨hinv', hpieces', h.whole, henough, fun v' _ hr' hz => ?_⟩
      cases hr.symm.trans hr'
      rw [hv] at hz
      exact hspare hz
  | call v io hm hr hio =>
      obtain rfl : new = [] := hnew.symm
      simp only [List.append_nil] at hpieces' ⊢
      have henough := h.enough
      have hlooked := h.looked v hm hr
      have hwritten : io.written = st.io.written := by
        split at hio
        · cases StreamState.step_cases hio
          rfl
        · cases hio
          rfl
      simp only [eventsLeft, hm, owes] at henough hlooked
      refine ⟨hinv', hpieces', ?_, ?_, fun v' hm' => by cases hm'⟩
      · show ∃ j, io.written = _ ∧ _
        rw [hwritten]
        exact h.whole
      · -- Either a frame is consumed, or there was an event to spare.
        simp only [eventsLeft, owes, consumes, hr]
        split
        · omega
        · rename_i hpos
          have hge := hf.used_nonneg st.session v.bytes
          have := hlooked (by omega)
          omega
  | free io hm hio =>
      obtain rfl : new = [] := hnew.symm
      simp only [List.append_nil, consumes, Nat.add_zero] at hinv' hpieces' ⊢
      have henough := h.enough
      simp only [eventsLeft, hm, owes] at henough
      cases StreamState.step_cases hio
      exact ⟨hinv', hpieces', h.whole, henough, fun v hm' => by cases hm'⟩

/-! ### Every receive in time -/

/-- A receive of `w` that is processed before anything else happens. -/
def serve (w : List UInt8) : List RecvAction :=
  [.complete w, .append .relocate, .append .copy, .append .advance, .Add] ++
    [.read, .lock, .test, .look, .call, .free]

/-- The worker's part of `serve`. -/
theorem receive_run {onRecv : OnRecv σ ε} {st : RecvState σ ε} (hidle : st.Idle)
    (hwriter : st.io.writer = .idle) (hreader : st.io.reader = .idle) {w : List UInt8}
    (hw : w ≠ []) :
    ∃ st', run (step onRecv) st
        [.complete w, .append .relocate, .append .copy, .append .advance, .Add] = some st' ∧
      st'.receiving = false ∧ st'.queue = [.RECV] ∧ st'.main = .idle ∧
      st'.io.reader = .idle ∧ st'.io.taken = st.io.taken ∧
      st'.io.written = st.io.written ++ w := by
  obtain ⟨hrec, hqueue, hmain⟩ := hidle
  cases hplan : st.io.stream.inPlan w.length with
  | stay => simp [step, goesOn, StreamState.step, hrec, hqueue, hmain, hwriter, hreader, hw, hplan]
  | grow n =>
      simp [step, goesOn, StreamState.step, hrec, hqueue, hmain, hwriter, hreader, hw, hplan]
  | compact =>
      simp [step, goesOn, StreamState.step, hrec, hqueue, hmain, hwriter, hreader, hw, hplan]

/-- The main thread's part of `serve`. -/
theorem process_run (hf : StableSession f) {s₀ : σ} {k : Nat} {st : RecvState σ ε}
    (h : Inv f s₀ k st) (hrec : st.receiving = false) (hqueue : st.queue = [.RECV])
    (hmain : st.main = .idle) (hreader : st.io.reader = .idle)
    (hunread : st.io.stream.unread ≠ []) :
    ∃ st', run (step (onBuffer f)) st [.read, .lock, .test, .look, .call, .free] = some st' ∧
      st'.receiving = false ∧ st'.queue = [] ∧ st'.main = .idle ∧
      st'.io.written = st.io.written := by
  have hsize : 0 ≠ st.io.stream.size := by
    intro hzero
    refine hunread (List.length_eq_zero_iff.mp ?_)
    rw [TStream.length_unread, ← hzero]
    rfl
  have hcall : onBuffer f st.session st.io.stream.buff st.io.stream.size
      = f st.session st.io.stream.unread := by
    rw [onBuffer, TStream.slice_buff_size]
  have hle : (f st.session st.io.stream.unread).nUse ≤ st.io.stream.size := by
    have hused := hf.used_le st.session st.io.stream.unread
    have hwf := h.io.wf.read_le
    rw [TStream.length_unread] at hused
    simp only [TStream.size] at hused ⊢
    omega
  by_cases hpos : 0 < (f st.session st.io.stream.unread).nUse
  · simp [step, StreamState.step, hrec, hqueue, hmain, hreader, hsize, hcall, hpos, hle,
      Int.le_of_lt hpos]
  · simp [step, StreamState.step, hrec, hqueue, hmain, hreader, hsize, hcall, hpos]

/-! ### Runs -/

/-- The number of `OnRecv` calls of a run. -/
def calls (as : List RecvAction) : Nat :=
  as.countP fun
    | .call => true
    | _ => false

/-- A run keeps the invariant and consumes at most one frame for each call. -/
theorem Inv.run (hf : StableSession f) {s₀ : σ} {k : Nat} {st st' : RecvState σ ε}
    {as : List RecvAction} (h : Inv f s₀ k st)
    (hrun : Lib.run (RecvState.step (onBuffer f)) st as = some st') :
    ∃ k', Inv f s₀ k' st' ∧ k' ≤ k + calls as := by
  refine run_induction (fun as st' => ∃ k', Inv f s₀ k' st' ∧ k' ≤ k + calls as)
    ⟨k, h, Nat.le_refl k⟩ ?_ hrun
  rintro as s a s' _ ⟨k', hinv, hle⟩ hs
  refine ⟨k' + consumes f s a, hinv.step hf hs, ?_⟩
  have hone : consumes f s a ≤ calls [a] := by
    cases a with
    | call =>
        simp only [consumes, calls]
        split
        · split <;> decide
        · exact Nat.zero_le _
    | _ => exact Nat.zero_le _
  rw [calls, List.countP_append, ← calls, ← calls]
  omega

/-- The bytes of finished and unfinished appends are the chunks of the run. -/
theorem run_pieces {onRecv : OnRecv σ ε} {s₀ : σ} {as : List RecvAction} {st : RecvState σ ε}
    (h : run (step onRecv) (init s₀) as = some st) :
    st.io.written ++ st.io.writer.pending = (chunks as).flatten := by
  refine run_induction
    (fun as st => st.io.written ++ st.io.writer.pending = (chunks as).flatten) rfl ?_ h
  intro as s a s' _ ih hs
  rw [chunks, List.filterMap_append, List.flatten_append, ← chunks, ← chunks, ← ih]
  exact step_pieces hs

/-- A receive that is processed before the next one comes. -/
theorem serve_run (hf : StableSession f) {s₀ : σ} {k : Nat} {st : RecvState σ ε}
    (h : Inv f s₀ k st) (hidle : st.Idle) {w : List UInt8} (hw : w ≠ []) :
    ∃ st' k', run (step (onBuffer f)) st (serve w) = some st' ∧ st'.Idle ∧ Inv f s₀ k' st' ∧
      k' ≤ k + 1 := by
  have hreader : st.io.reader = .idle := by
    have hreader := h.reader
    rw [hidle.main] at hreader
    exact hreader
  have hreceived :=
    @receive_run σ ε (onBuffer f) st hidle (h.writer hidle.receiving) hreader w hw
  obtain ⟨st₁, hrun₁, hrec₁, hqueue₁, hmain₁, hreader₁, htaken₁, hwritten₁⟩ := hreceived
  obtain ⟨k₁, h₁, -⟩ := h.run hf hrun₁
  have hunread : st₁.io.stream.unread ≠ [] := by
    -- What was taken so far is the same, and `w` is new.
    have hfifo := h.io.fifo
    have hfifo₁ := h₁.io.fifo
    rw [htaken₁, hwritten₁, ← hfifo, List.append_assoc] at hfifo₁
    rw [List.append_cancel_left hfifo₁]
    exact fun hnil => hw (List.append_eq_nil_iff.mp hnil).2
  obtain ⟨st₂, hrun₂, hrec₂, hqueue₂, hmain₂, -⟩ :=
    process_run hf h₁ hrec₁ hqueue₁ hmain₁ hreader₁ hunread
  have hrun : run (step (onBuffer f)) st (serve w) = some st₂ := by
    rw [serve, run_append, hrun₁]
    exact hrun₂
  obtain ⟨k₂, h₂, hle⟩ := h.run hf hrun
  exact ⟨st₂, k₂, hrun, ⟨hrec₂, hqueue₂, hmain₂⟩, h₂, hle⟩

/-- Receives that are all processed before the next one comes, on some connection. -/
theorem serveAll_run (hf : StableSession f) {s₀ : σ} :
    ∀ (ws : List (List UInt8)) {k : Nat} {st : RecvState σ ε}, (∀ w ∈ ws, w ≠ []) →
      Inv f s₀ k st → st.Idle →
      ∃ st' k', run (step (onBuffer f)) st (ws.flatMap serve) = some st' ∧ st'.Idle ∧
        Inv f s₀ k' st' ∧ k' ≤ k + ws.length := by
  intro ws
  induction ws with
  | nil =>
      intro k st _ h hidle
      exact ⟨st, k, rfl, hidle, h, Nat.le_refl k⟩
  | cons w ws ih =>
      intro k st hne h hidle
      obtain ⟨st₁, k₁, hrun₁, hidle₁, h₁, hle₁⟩ := serve_run hf h hidle (hne w List.mem_cons_self)
      obtain ⟨st₂, k₂, hrun₂, hidle₂, h₂, hle₂⟩ :=
        ih (fun v hv => hne v (List.mem_cons_of_mem _ hv)) h₁ hidle₁
      refine ⟨st₂, k₂, ?_, hidle₂, h₂, ?_⟩
      · rw [List.flatMap_cons, run_append, hrun₁]
        exact hrun₂
      · rw [List.length_cons]
        omega

/-- The chunks of such a run. -/
theorem chunks_serveAll (ws : List (List UInt8)) : chunks (ws.flatMap serve) = ws := by
  induction ws with
  | nil => rfl
  | cons w ws ih =>
      rw [List.flatMap_cons, chunks, List.filterMap_append, ← chunks, ← chunks, ih]
      rfl

/-- A connection with nothing on the way has its chunks in the stream. -/
theorem written_of_idle {s₀ : σ} {k : Nat} {as : List RecvAction} {st : RecvState σ ε}
    (hrun : run (step (onBuffer f)) (init s₀) as = some st) (h : Inv f s₀ k st)
    (hidle : st.Idle) : st.io.written = (chunks as).flatten := by
  have hpieces := run_pieces hrun
  rwa [h.writer hidle.receiving, StreamWriter.pending, List.append_nil] at hpieces

/-- A run with enough events: where it comes to rest, nothing is left to be consumed. -/
theorem rest_of_spaced (hf : StableSession f) {s₀ : σ} {ws : List (List UInt8)}
    (hspaced : Spaced f s₀ ws) {as : List RecvAction} {st : RecvState σ ε}
    (hrun : run (step (onBuffer f)) (init s₀) as = some st) (hws : chunks as = ws)
    (hidle : st.Idle) : (f st.session st.io.stream.unread).nUse = 0 := by
  have hbudget : ∃ k, Budget f s₀ ws (chunks as) k st := by
    refine run_induction
      (fun as st => chunks as <+: ws → ∃ k, Budget f s₀ ws (chunks as) k st)
      (fun _ => ⟨0, budget_init hspaced⟩) ?_ hrun ⟨[], by rw [List.append_nil, hws]⟩
    intro as s a s' _ ih hs hpre
    rw [chunks, List.filterMap_append, ← chunks, ← chunks] at hpre ⊢
    obtain ⟨k, hk⟩ := ih ((List.prefix_append _ _).trans hpre)
    exact ⟨_, hk.step hf hspaced hpre hs⟩
  obtain ⟨k, hk⟩ := hbudget
  have henough := hk.enough
  have hcount := hk.inv.counted
  rw [written_of_idle hrun hk.inv hidle, hws] at hcount
  simp only [eventsLeft, hidle.receiving, hidle.queue, hidle.main, owes, hws] at henough
  refine (hf.used_eq_zero _ _).mp ((frames_eq_zero hf.stable).mp ?_)
  simp only [Counted] at hcount
  simp [framesOf] at henough
  omega

/-- The IOCP engine and the drain loop of the epoll engine on the bytes `w` have come to the
same effects, session and unread bytes. -/
def Agrees (f : σ → List UInt8 → Received σ ε) (s₀ : σ) (w : List UInt8) (st : RecvState σ ε) :
    Prop :=
  ∃ n d, doWhile (drainBody (onBuffer f)) n (onePiece s₀ w) = some d ∧
    st.effects = d.effects ∧ st.session = d.session ∧ st.io.stream.unread = d.stream.unread

/-- A connection at rest agrees with the epoll engine exactly when `OnRecv` would use nothing
of what is still in the stream. -/
theorem agrees_iff_rest (hf : StableSession f) {s₀ : σ} {k : Nat} {st : RecvState σ ε}
    (h : Inv f s₀ k st) :
    Agrees f s₀ st.io.written st ↔ (f st.session st.io.stream.unread).nUse = 0 := by
  obtain ⟨n, d, hdrain, heff, hses, hrest⟩ := onePiece_drain hf s₀ st.io.written
  constructor
  · rintro ⟨m, d', hdrain', -, hses', hrest'⟩
    rw [doWhile_unique hdrain' hdrain] at hses' hrest'
    refine (hf.used_eq_zero _ _).mp ?_
    rw [hses', hrest', hses, hrest]
    exact feed_rest_idle hf.stable s₀ st.io.written
  · intro hzero
    have hfeed := h.progress.done ((hf.used_eq_zero _ _).mpr hzero)
    rw [hfeed] at heff hses hrest
    exact ⟨n, d, hdrain, heff.symm, hses.symm, hrest.symm⟩

/-- The two engines consume the same frames, whenever the events are processed, exactly when
the last `k` of the chunks complete at most `k` frames, for every `k`. For a single run that
has come to rest, the same frames means that `OnRecv` would use nothing of what is still in
`m_oRecvStream`, and it means the effects, the session and the unread bytes of any run of the
epoll engine on the same bytes. The offsets of `m_oRecvStream` are those of `s32` while there is
room for each chunk (`TStream.HasRoom`). -/
theorem same_frames_iff (hf : StableSession f) (s₀ : σ) (ws : List (List UInt8))
    (hne : ∀ w ∈ ws, w ≠ []) :
    ((∀ as (st : RecvState σ ε), run (step (onBuffer f)) (init s₀) as = some st →
        chunks as = ws → st.Idle → Agrees f s₀ ws.flatten st) ↔ Spaced f s₀ ws) ∧
    (∀ as (st : RecvState σ ε), run (step (onBuffer f)) (init s₀) as = some st →
      chunks as = ws → st.Idle →
        (Agrees f s₀ ws.flatten st ↔ (f st.session st.io.stream.unread).nUse = 0)) ∧
    (∀ as (st : RecvState σ ε), run (step (onBuffer f)) (init s₀) as = some st →
      chunks as = ws → st.Idle → Agrees f s₀ ws.flatten st →
      ∀ as₁ as₂ (st₁ est : Kernel4GameServer.RecvState σ ε),
        run (Kernel4GameServer.RecvState.step (onBuffer f)) (.init s₀) as₁ = some st₁ →
        run (Kernel4GameServer.RecvState.step (onBuffer f)) st₁ (.read :: as₂) = some est →
        (∀ a, .append a ∉ as₂) → est.io.writer = .idle → est.main = .idle →
        Kernel4GameServer.RecvState.pieces as₁ = ws.flatten →
        st.effects = effectsOf est.trace ∧ st.session = est.session ∧
          st.io.stream.unread = est.io.stream.unread) := by
  have hrest : ∀ as (st : RecvState σ ε), run (step (onBuffer f)) (init s₀) as = some st →
      chunks as = ws → st.Idle →
        (Agrees f s₀ ws.flatten st ↔ (f st.session st.io.stream.unread).nUse = 0) := by
    intro as st hrun hws hidle
    obtain ⟨k, h, -⟩ := (inv_init s₀).run hf hrun
    -- At rest everything that was received has been written to the stream.
    have hiff := agrees_iff_rest hf h
    rwa [written_of_idle hrun h hidle, hws] at hiff
  refine ⟨⟨fun hall i hi => ?_, fun hspaced as st hrun hws hidle => ?_⟩, hrest, ?_⟩
  · -- Every receive is processed in time: the first `i`, and then the others.
    obtain ⟨st₁, k₁, hrun₁, hidle₁, h₁, -⟩ := serveAll_run hf (ws.take i)
      (fun w hw => hne w (List.mem_of_mem_take hw)) (inv_init s₀) ⟨rfl, rfl, rfl⟩
    obtain ⟨st₂, k₂, hrun₂, hidle₂, h₂, hle₂⟩ := serveAll_run hf (ws.drop i)
      (fun w hw => hne w (List.mem_of_mem_drop hw)) h₁ hidle₁
    have hrun : run (step (onBuffer f)) (init s₀) (ws.flatMap serve) = some st₂ := by
      rw [← List.take_append_drop i ws, List.flatMap_append, run_append, hrun₁]
      exact hrun₂
    have hzero := (hrest _ st₂ hrun (chunks_serveAll ws) hidle₂).mp
      (hall _ st₂ hrun (chunks_serveAll ws) hidle₂)
    have hcount₁ := h₁.counted
    have hcount₂ := h₂.counted
    rw [written_of_idle hrun₁ h₁ hidle₁, chunks_serveAll] at hcount₁
    rw [written_of_idle hrun h₂ hidle₂, chunks_serveAll] at hcount₂
    simp only [Counted] at hcount₁ hcount₂
    -- The last `k` chunks took `k` steps at most, and all the frames have come out.
    have hdone := frames_idle ((hf.used_eq_zero _ _).mpr hzero)
    rw [List.length_drop] at hle₂
    simp only [framesOf]
    omega
  · exact (hrest as st hrun hws hidle).mpr (rest_of_spaced hf hspaced hrun hws hidle)
  · intro as st _ _ _ hagrees as₁ as₂ st₁ est he₁ he₂ hquiet hwriter hmain hpieces
    have hfeed := Kernel4GameServer.RecvState.processed_feed hf he₁ he₂ hquiet hwriter hmain
    obtain ⟨n, d, hdrain, heff, hses, hrest'⟩ := onePiece_drain hf s₀ ws.flatten
    obtain ⟨m, d', hdrain', heff', hses', hunread'⟩ := hagrees
    rw [hpieces] at hfeed
    -- Both drain the same bytes, and the drain is a function of them.
    rw [doWhile_unique hdrain' hdrain] at heff' hses' hunread'
    rw [heff', hses', hunread', heff, hses, hrest', hfeed]
    exact ⟨rfl, rfl, rfl⟩

/-- The bytes `1` and `2 3` complete one frame of two bytes. -/
theorem spaced_pair : Spaced Kernel4GameServer.RecvState.pairSession () [[1], [2, 3]] := by
  have hstable := Kernel4GameServer.RecvState.pairSession_stable.stable
  have hone : framesOf Kernel4GameServer.RecvState.pairSession () [1, 2, 3] = 1 := by
    rw [framesOf, frames_consume hstable (by decide), frames_idle (by decide)]
  intro i hi
  change i ≤ 2 at hi
  show framesOf _ () [1, 2, 3] ≤ framesOf _ () ([[1], [2, 3]].take i).flatten + (2 - i)
  obtain rfl | rfl | rfl : i = 0 ∨ i = 1 ∨ i = 2 := by omega
  · omega
  · omega
  · exact Nat.le_refl _

/-- Both engines consume that frame. -/
theorem same_frames_pair :
    ∃ st : RecvState Unit (List UInt8),
      run (step (onBuffer Kernel4GameServer.RecvState.pairSession)) (init ())
        (serve [1] ++ serve [2, 3]) = some st ∧ st.Idle ∧
      Agrees Kernel4GameServer.RecvState.pairSession () [1, 2, 3] st := by
  have hrun : run (step (onBuffer Kernel4GameServer.RecvState.pairSession)) (init ())
    (serve [1] ++ serve [2, 3]) = some _ := rfl
  have hagrees := (same_frames_iff Kernel4GameServer.RecvState.pairSession_stable ()
    [[1], [2, 3]] (by decide)).1.mpr spaced_pair
  exact ⟨_, hrun, ⟨rfl, rfl, rfl⟩, hagrees _ _ hrun rfl ⟨rfl, rfl, rfl⟩⟩

/-- Two frames of two bytes in one receive: the first one is consumed, and the second one
stays in the stream, where the epoll engine consumes both. -/
theorem frame_stays :
    ∃ st : RecvState Unit (List UInt8),
      run (step (onBuffer Kernel4GameServer.RecvState.pairSession)) (init ())
        (serve [1, 2, 3, 4]) = some st ∧ st.Idle ∧
      st.effects = [[1, 2]] ∧ st.io.stream.unread = [3, 4] ∧
      (Kernel4GameServer.RecvState.pairSession st.session st.io.stream.unread).nUse = 2 ∧
      ∃ d, doWhile (drainBody (onBuffer Kernel4GameServer.RecvState.pairSession)) 3
        (onePiece () [1, 2, 3, 4]) = some d ∧ d.effects = [[1, 2], [3, 4]] :=
  ⟨_, rfl, ⟨rfl, rfl, rfl⟩, rfl, rfl, rfl, _, rfl, rfl⟩

end RecvState

end Kernel4GameServer.Iocp
