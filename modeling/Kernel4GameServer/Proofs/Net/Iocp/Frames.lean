import Kernel4GameServer.Proofs.Net.Iocp.EngineSteps

/-!
# `Kernel4GameServer.Proofs.Net.Iocp.Frames`: the callbacks that have not returned

Only `AddClient` can be called from a callback, so all frames but the first one that was
opened give back a pipe of `AddClient`. `FramesInv` says so for the frame of
`MallocConnection`, whose pipe is therefore in use until the callback returns.
`FramesInv.step` is the invariant of every step.
-/

set_option autoImplicit false

namespace Kernel4GameServer.Iocp.Engine

open Lib

variable {st st' : Engine} {sNetSendSize : Nat}

/-- The pool is in order. A frame of `MallocConnection` is the first one that was opened. Its
pipe is in use, and no other frame gives it back. -/
structure FramesInv (st : Engine) : Prop where
  pool : st.g_oCPipePool.Inv
  first : ∀ p socket rest, (.MallocConnection p socket :: rest) <:+ st.frames → rest = []
  malloc : ∀ p socket, .MallocConnection p socket ∈ st.frames →
    st.g_oCPipePool.inUse p = true ∧ .Recover p ∉ st.frames

theorem framesInv_init : FramesInv init where
  pool := TPool.init_inv CPipe.new 64
  first p socket rest hsuf := by
    obtain ⟨t, ht⟩ := hsuf
    simp [init] at ht
  malloc p socket hin := by cases hin

/-- Without a frame of `MallocConnection` only the pool matters. -/
theorem framesInv_of_none (hpool : st.g_oCPipePool.Inv)
    (h : ∀ p socket, .MallocConnection p socket ∉ st.frames) : FramesInv st where
  pool := hpool
  first p socket _ hsuf := absurd (hsuf.subset (.head _)) (h p socket)
  malloc p socket hin := absurd hin (h p socket)

/-- Without frames there is nothing to say. -/
theorem framesInv_of_nil (hpool : st.g_oCPipePool.Inv) (h : st.frames = []) : FramesInv st :=
  framesInv_of_none hpool fun p socket hin => by
    rw [h] at hin
    cases hin

/-- What is done about one pipe leaves the frames alone. -/
theorem Touches.framesInv {p : Nat} (h : Touches p st st') (hI : FramesInv st) :
    FramesInv st' where
  pool := h.pool_inv hI.pool
  first q socket rest hsuf := by
    rw [h.frames] at hsuf
    exact hI.first q socket rest hsuf
  malloc q socket hin := by
    rw [h.frames] at hin ⊢
    rw [h.inUse]
    exact hI.malloc q socket hin

/-- The top frame of `MallocConnection` is the only one. -/
theorem FramesInv.top {p : Nat} {socket : Int} {frames : List Frame} (hI : FramesInv st)
    (h : st.frames = .MallocConnection p socket :: frames) : frames = [] :=
  hI.first p socket frames (h.symm ▸ List.suffix_rfl)

/-- A new pipe does not wait for `MallocConnection`. -/
theorem FramesInv.create {p : Nat} (hI : FramesInv st) (h : st.Create = some (p, st')) :
    FramesInv st' ∧ (∀ socket, .MallocConnection p socket ∉ st'.frames) ∧
      st'.frames = st.frames := by
  obtain ⟨hinv, hfree, huse, -⟩ := Create_cases hI.pool h
  have hframes : st'.frames = st.frames := by rw [Create_eq h]
  refine ⟨⟨hinv, by rw [hframes]; exact hI.first, fun q socket hin => ?_⟩, fun socket hin => ?_,
    hframes⟩
  · rw [hframes] at hin ⊢
    obtain ⟨hq, hrec⟩ := hI.malloc q socket hin
    exact ⟨(huse q).mpr (.inr hq), hrec⟩
  · rw [hframes] at hin
    exact absurd ((hI.malloc p socket hin).1.symm.trans hfree) (by decide)

/-- A frame is opened that gives back a pipe for which no `MallocConnection` is open. -/
theorem FramesInv.push (hI : FramesInv st) {p : Nat}
    (hp : ∀ socket, .MallocConnection p socket ∉ st.frames) :
    FramesInv { st with frames := .Recover p :: st.frames } where
  pool := hI.pool
  first q socket rest hsuf := by
    rcases List.suffix_cons_iff.mp hsuf with heq | hsuf
    · cases heq
    · exact hI.first q socket rest hsuf
  malloc q socket hin := by
    have hin' : .MallocConnection q socket ∈ st.frames := by
      rcases List.mem_cons.mp hin with heq | hin'
      · cases heq
      · exact hin'
    obtain ⟨huse, hrec⟩ := hI.malloc q socket hin'
    refine ⟨huse, fun hmem => ?_⟩
    rcases List.mem_cons.mp hmem with heq | hmem
    · cases heq
      exact hp socket hin'
    · exact hrec hmem

/-- The first frame is one of `MallocConnection`. -/
theorem framesInv_malloc {p : Nat} {s : Int} (hpool : st.g_oCPipePool.Inv)
    (huse : st.g_oCPipePool.inUse p = true)
    (h : st.frames = [.MallocConnection p s]) : FramesInv st where
  pool := hpool
  first q socket rest hsuf := by
    rw [h] at hsuf
    rcases List.suffix_cons_iff.mp hsuf with heq | hsuf
    · cases heq
      rfl
    · cases List.suffix_nil.mp hsuf
  malloc q socket hin := by
    rw [h] at hin ⊢
    rw [List.mem_singleton, Frame.MallocConnection.injEq] at hin
    obtain ⟨rfl, -⟩ := hin
    exact ⟨huse, by simp⟩

/-- The top frame is closed and its pipe given back. -/
theorem FramesInv.recover {p : Nat} {frames : List Frame} (hI : FramesInv st)
    (hframes : st.frames = .Recover p :: frames) : FramesInv ({ st with frames }.Recover p) := by
  obtain ⟨hinv, -, huse⟩ := @Recover_cases { st with frames } hI.pool p
  refine ⟨hinv, fun q socket rest hsuf => ?_, fun q socket hin => ?_⟩
  · have hsuf' : (.MallocConnection q socket :: rest) <:+ frames := hsuf
    refine hI.first q socket rest ?_
    rw [hframes]
    exact hsuf'.trans (List.suffix_cons _ frames)
  · have hin' : .MallocConnection q socket ∈ frames := hin
    obtain ⟨hq, hrec⟩ := hI.malloc q socket (by rw [hframes]; exact .tail _ hin')
    rw [hframes] at hrec
    refine ⟨(huse q).mpr ⟨fun heq => hrec ?_, hq⟩, fun hmem => hrec (.tail _ hmem)⟩
    rw [heq]
    exact .head _

/-- The frames stay in order. -/
theorem FramesInv.step {a : EngineAction} (hI : FramesInv st)
    (h : Engine.step sNetSendSize st a = some st') : FramesInv st' := by
  cases step_happens h with
  | @connect client w result p st₁ x hc _ _ =>
      obtain ⟨hI₁, -, -⟩ := hI.create hc
      have hset : FramesInv (st₁.set p x) :=
        ⟨TPool.set_inv hI₁.pool p x, hI₁.first, hI₁.malloc⟩
      have hstart := (start_touches (st₁.set p x) p .m_pRecvEvent false).framesInv hset
      exact ⟨hstart.pool, hstart.first, hstart.malloc⟩
  | @noConnect client w result p st₁ x hc _ =>
      obtain ⟨hI₁, hmalloc, -⟩ := hI.create hc
      have hset : FramesInv (st₁.set p x) :=
        ⟨TPool.set_inv hI₁.pool p x, hI₁.first, hI₁.malloc⟩
      exact hset.push hmalloc
  | @accept socket p st₁ hframes hc =>
      obtain ⟨hinv, -, huse, -⟩ := Create_cases hI.pool hc
      exact framesInv_malloc (p := p) (s := socket) hinv ((huse p).mpr (.inl rfl)) rfl
  | @noAccept socket p st₁ hframes hc =>
      obtain ⟨hI₁, -, hsame⟩ := hI.create hc
      exact framesInv_of_nil (Recover_cases hI₁.pool p).1 (hsame.trans hframes)
  | @client client w ok p socket frames x st₁ _ hframes _ _ heq _ htouch =>
      have hnil := hI.top hframes
      subst hnil heq
      exact htouch.framesInv (framesInv_of_nil (TPool.set_inv hI.pool p x) rfl)
  | @noClient w ok p socket frames hframes =>
      have hnil := hI.top hframes
      subst hnil
      exact framesInv_of_nil (@Recover_cases { st with frames := [] } hI.pool p).1 rfl
  | recover hframes => exact hI.recover hframes
  | event _ _ _ _ _ htouch _ => exact htouch.framesInv hI
  | finish _ _ _ _ _ htouch =>
      refine framesInv_of_none (htouch.pool_inv hI.pool) fun p socket hin => ?_
      cases List.mem_singleton.mp hin
  | Send _ _ htouch _ => exact htouch.framesInv hI
  | Close _ htouch => exact htouch.framesInv hI
  | Run _ _ _ heq htouch =>
      subst heq
      exact htouch.framesInv ⟨hI.pool, hI.first, hI.malloc⟩

end Kernel4GameServer.Iocp.Engine
