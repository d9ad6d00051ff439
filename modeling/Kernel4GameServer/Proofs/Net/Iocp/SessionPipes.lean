import Kernel4GameServer.Proofs.Net.Iocp.Frames

/-!
# `Kernel4GameServer.Proofs.Net.Iocp.SessionPipes`: the pipe a session points to

`Owns` says that the `m_pPipe` of a session, where it is set, is a pipe in use whose
`m_pHost` is that session. `Recover` is the only step that can break it, and it does so when
the pointer of the pipe's own session is still set (`Owns.step`). `BREAK` clears the pointer.
`CONNECTFAILD` does not, so `failed_connect` ends with a session that points to a free pipe.
`session_pipe_iff` is the statement over whole runs.
-/

set_option autoImplicit false

namespace Kernel4GameServer.Iocp.Engine

open Lib

variable {st st' : Engine} {sNetSendSize : Nat}

/-- A session that points to a pipe has it for itself. -/
def Owns (st : Engine) : Prop :=
  ∀ client p, st.m_pPipe client = some p →
    st.g_oCPipePool.inUse p = true ∧ (st.pipe p).m_pHost = some client ∧
      p ∉ st.g_oCPipePool.m_list

/-- The pipe that the first frame gives back is not the one its session points to. -/
def FrameCleared (st : Engine) : List Frame → Prop
  | .Recover p :: _ => ∀ client ∈ (st.pipe p).m_pHost, st.m_pPipe client ≠ some p
  | _ => True

/-- A pipe is not given back while the pointer of its session points to it. -/
def PointerCleared (st : Engine) : EngineAction → Prop
  | .Recover => FrameCleared st st.frames
  | _ => True

instance (st : Engine) : ∀ frames, Decidable (FrameCleared st frames)
  | .Recover p :: _ =>
      inferInstanceAs (Decidable (∀ client ∈ (st.pipe p).m_pHost, st.m_pPipe client ≠ some p))
  | .MallocConnection _ _ :: _ => isTrue trivial
  | [] => isTrue trivial

instance (st : Engine) : ∀ a, Decidable (PointerCleared st a)
  | .Recover => inferInstanceAs (Decidable (FrameCleared st st.frames))
  | .AddClient _ _ _ | .CompletedAccept _ _ | .MallocConnection _ _ _ | .Processing _ _
  | .Send _ _ | .Close _ | .Run _ _ _ _ => isTrue trivial

/-- The frames are in order, and no session points to the pipe of `MallocConnection`. -/
structure PointerInv (st : Engine) : Prop where
  frames : FramesInv st
  malloc : ∀ p socket, .MallocConnection p socket ∈ st.frames →
    ∀ client, st.m_pPipe client ≠ some p

/-- A unit in use is not in the free list. -/
theorem not_free (h : st.g_oCPipePool.Inv) {p : Nat} (hp : st.g_oCPipePool.inUse p = true) :
    p ∉ st.g_oCPipePool.m_list := by
  intro hin
  exact absurd (hp.symm.trans ((h.free p).mp hin).2) (by decide)

theorem pointerInv_init : PointerInv init :=
  ⟨framesInv_init, fun p socket hin => by cases hin⟩

theorem owns_init : Owns init := by
  intro client p hp
  cases hp

/-- What is done about one pipe leaves the pointers alone. -/
theorem Touches.owns {p : Nat} (h : Touches p st st') (hP : Owns st) : Owns st' := by
  intro client q hq
  rw [h.m_pPipe] at hq
  rw [h.inUse, h.m_list, h.host q]
  exact hP client q hq

/-- Giving a pipe back keeps the property just when no session points to the pipe. -/
theorem Owns.recover (hI : st.g_oCPipePool.Inv) (hP : Owns st) (p : Nat) :
    Owns (st.Recover p) ↔
      ∀ client, (st.pipe p).m_pHost = some client → st.m_pPipe client ≠ some p := by
  obtain ⟨hinv, hpipe, huse⟩ := Recover_cases hI p
  constructor
  · intro h client _ hclient
    exact ((huse p).mp (h client p hclient).1).1 rfl
  · intro h client q hq
    obtain ⟨hin, hhost, -⟩ := hP client q hq
    have hne : q ≠ p := by
      rintro rfl
      exact h client hhost hq
    have hin' := (huse q).mpr ⟨hne, hin⟩
    refine ⟨hin', ?_, not_free hinv hin'⟩
    rw [hpipe]
    exact hhost

/-- A write to a pipe that no session points to. -/
theorem Owns.set (hP : Owns st) {p : Nat} (hp : ∀ client, st.m_pPipe client ≠ some p)
    (x : CPipe) : Owns (st.set p x) := by
  intro client q hq
  have hne : q ≠ p := by
    rintro rfl
    exact hp client hq
  rw [set_pipe_other _ _ hne]
  exact hP client q hq

/-- A pointer is set to a pipe of the session. -/
theorem Owns.setPipe (hP : Owns st) (hI : st.g_oCPipePool.Inv) {client p : Nat}
    (hp : st.g_oCPipePool.inUse p = true) (hhost : (st.pipe p).m_pHost = some client) :
    Owns (st.setPipe client p) := by
  intro c q hq
  simp only [Engine.setPipe] at hq
  split at hq
  · rename_i hc
    cases hq
    rw [hc]
    exact ⟨hp, hhost, not_free hI hp⟩
  · exact hP c q hq

/-- A new pipe is in use, and no session points to it. -/
theorem Owns.create {p : Nat} (hpool : st.g_oCPipePool.Inv) (hP : Owns st)
    (h : st.Create = some (p, st')) :
    Owns st' ∧ st'.g_oCPipePool.inUse p = true ∧ ∀ client, st'.m_pPipe client ≠ some p := by
  obtain ⟨hinv, hfree, huse, hkeep, -⟩ := Create_cases hpool h
  have hptr : st'.m_pPipe = st.m_pPipe := by rw [Create_eq h]
  refine ⟨fun client q hq => ?_, (huse p).mpr (.inl rfl), fun client hclient => ?_⟩
  · rw [hptr] at hq
    obtain ⟨hin, hhost, -⟩ := hP client q hq
    have hin' := (huse q).mpr (.inr hin)
    rw [hkeep q hin]
    exact ⟨hin', hhost, not_free hinv hin'⟩
  · rw [hptr] at hclient
    exact absurd ((hP client p hclient).1.symm.trans hfree) (by decide)

/-- A step leads to a state in which every session has its pipe for itself just when it does
not give back a pipe that its session points to. -/
theorem step_owns {a : EngineAction} (hI : PointerInv st) (hP : Owns st)
    (h : step sNetSendSize st a = some st') : Owns st' ↔ PointerCleared st a := by
  have hpool := hI.frames.pool
  -- All but `Recover` keep the property.
  have hkeeps : Owns st' → PointerCleared st a → (Owns st' ↔ PointerCleared st a) :=
    fun hown hcond => ⟨fun _ => hcond, fun _ => hown⟩
  cases step_happens h with
  | @connect client w result p st₁ x hc _ hhost =>
      -- The writes to the new pipe are invisible to the sessions.
      obtain ⟨hP₁, huse, hnone⟩ := hP.create hpool hc
      have hpool₁ := (Create_cases hpool hc).1
      have htouch := start_touches (st₁.set p x) p .m_pRecvEvent false
      refine hkeeps ((htouch.owns (hP₁.set hnone x)).setPipe (TPool.set_inv hpool₁ p x) huse ?_)
        trivial
      rw [htouch.host p, set_pipe_self]
      exact hhost
  | @noConnect client w result p st₁ x hc _ =>
      obtain ⟨hP₁, -, hnone⟩ := hP.create hpool hc
      exact hkeeps (hP₁.set hnone x) trivial
  | accept _ hc => exact hkeeps (hP.create hpool hc).1 trivial
  | @noAccept socket p st₁ _ hc =>
      obtain ⟨hP₁, -, hnone⟩ := hP.create hpool hc
      exact hkeeps ((hP₁.recover (Create_cases hpool hc).1 p).mpr fun client _ => hnone client)
        trivial
  | @client client w ok p socket frames x st₁ _ hframes _ hhost heq _ htouch =>
      subst heq
      have hin : .MallocConnection p socket ∈ st.frames := hframes ▸ .head _
      have hP' : Owns { st with frames } := hP
      have hP₂ := hP'.set (hI.malloc p socket hin) x
      refine hkeeps (htouch.owns (hP₂.setPipe (TPool.set_inv hpool p x) ?_ ?_)) trivial
      · exact (hI.frames.malloc p socket hin).1
      · rw [set_pipe_self]
        exact hhost
  | @noClient w ok p socket frames hframes =>
      have hin : .MallocConnection p socket ∈ st.frames := hframes ▸ .head _
      have hP' : Owns { st with frames } := hP
      exact hkeeps ((hP'.recover hpool p).mpr fun c _ => hI.malloc p socket hin c) trivial
  | @recover p frames hframes =>
      have hP' : Owns { st with frames } := hP
      rw [PointerCleared, hframes]
      exact hP'.recover hpool p
  | event _ _ _ _ _ htouch _ => exact hkeeps (htouch.owns hP) trivial
  | finish _ _ _ _ _ htouch =>
      refine hkeeps (fun client q hq => ?_) trivial
      -- A pointer that is still set was set before.
      dsimp only at hq
      split at hq
      · cases hq
      · exact htouch.owns hP client q hq
  | Send _ _ htouch _ => exact hkeeps (htouch.owns hP) trivial
  | Close _ htouch => exact hkeeps (htouch.owns hP) trivial
  | Run _ _ _ heq htouch =>
      subst heq
      exact hkeeps (htouch.owns hP) trivial

/-- What is done about one pipe sets no pointer. -/
theorem Touches.pointers {p : Nat} (h : Touches p st st')
    (hI : ∀ q socket, .MallocConnection q socket ∈ st.frames → ∀ c, st.m_pPipe c ≠ some q) :
    ∀ q socket, .MallocConnection q socket ∈ st'.frames → ∀ c, st'.m_pPipe c ≠ some q := by
  intro q socket hin
  rw [h.frames] at hin
  rw [h.m_pPipe]
  exact hI q socket hin

/-- No step sets a pointer to the pipe of `MallocConnection` before the callback returns. -/
theorem step_pointers {a : EngineAction} (hI : PointerInv st) (hP : Owns st)
    (h : step sNetSendSize st a = some st') : PointerInv st' := by
  have hpool := hI.frames.pool
  refine ⟨hI.frames.step h, ?_⟩
  cases step_happens h with
  | @connect client w result p st₁ x hc _ _ =>
      obtain ⟨-, hmalloc, hsame⟩ := hI.frames.create hc
      have hptr : st₁.m_pPipe = st.m_pPipe := by rw [Create_eq hc]
      intro q socket hin c hq
      have hin' : .MallocConnection q socket ∈ st₁.frames := hin
      simp only [setPipe] at hq
      split at hq
      · -- The new pipe is in no frame.
        cases hq
        exact hmalloc socket hin'
      · have hq' : st₁.m_pPipe c = some q := hq
        rw [hsame] at hin'
        rw [hptr] at hq'
        exact hI.malloc q socket hin' c hq'
  | @noConnect client w result p st₁ x hc _ =>
      obtain ⟨-, -, hsame⟩ := hI.frames.create hc
      have hptr : st₁.m_pPipe = st.m_pPipe := by rw [Create_eq hc]
      intro q socket hin c hq
      have hq' : st₁.m_pPipe c = some q := hq
      rw [hptr] at hq'
      rcases List.mem_cons.mp hin with hin | hin
      · cases hin
      · rw [hsame] at hin
        exact hI.malloc q socket hin c hq'
  | @accept socket p st₁ _ hc =>
      intro q s hin
      rw [List.mem_singleton, Frame.MallocConnection.injEq] at hin
      obtain ⟨rfl, -⟩ := hin
      -- A pipe that was free belongs to no session.
      exact (hP.create hpool hc).2.2
  | @noAccept socket p st₁ hframes hc =>
      obtain ⟨-, -, hsame⟩ := hI.frames.create hc
      intro q s hin
      have hin' : .MallocConnection q s ∈ st₁.frames := hin
      rw [hsame, hframes] at hin'
      cases hin'
  | client hframes _ _ heq _ htouch =>
      rw [hI.frames.top hframes] at heq
      subst heq
      intro q s hin
      rw [htouch.frames] at hin
      -- No frame is left.
      cases hin
  | noClient hframes =>
      rw [hI.frames.top hframes]
      intro q s hin
      cases hin
  | recover hframes => exact fun q s hin => hI.malloc q s (hframes ▸ .tail _ hin)
  | event _ _ _ _ _ htouch _ => exact htouch.pointers hI.malloc
  | finish _ _ _ _ _ _ =>
      intro q s hin
      cases List.mem_singleton.mp hin
  | Send _ _ htouch _ => exact htouch.pointers hI.malloc
  | Close _ htouch => exact htouch.pointers hI.malloc
  | Run _ _ _ heq htouch =>
      subst heq
      exact htouch.pointers hI.malloc

/-- A session connects to a server that does not answer. Behind `OnConnectFailed` its pipe is
free and its pointer still set. -/
def failedConnect : List EngineAction :=
  [.AddClient 0 0 (.pending 5), .Run 0 0 { bytes := [], code := 1225 } false, .Processing 0 0,
    .Recover]

/-- In every state of a run each session that points to a pipe has it for itself, just when no
step gives back a pipe that its session points to. -/
theorem session_pipe_iff {sNetSendSize : Nat} {as : List EngineAction} {st : Engine}
    (h : run (step sNetSendSize) init as = some st) :
    Throughout (step sNetSendSize) Owns init as ↔
      AllSteps (step sNetSendSize) PointerCleared init as :=
  throughout_iff (C := PointerCleared) (I := PointerInv) (P := Owns)
    (fun _ _ _ hI hP hs => step_owns hI hP hs)
    (fun _ _ _ hI hP _ hs => step_pointers hI hP hs) pointerInv_init owns_init h

/-- The run breaks the property: the pipe is in the free list, and the session would still send
through it. -/
theorem failed_connect : ¬ Throughout (step 4096) Owns init failedConnect := by
  intro hall
  have howns := hall failedConnect List.prefix_rfl _ rfl
  have hfree := (howns 0 0 (by decide)).2.2
  exact hfree (by decide)

/-- A session connects, its socket is closed by the other side, and it gets another pipe. -/
def reconnect : List EngineAction :=
  [.AddClient 0 0 (.pending 5), .Run 0 0 { bytes := [], code := 0 } false, .Processing 0 0,
    .Run 0 0 .ofPacket true, .Run 0 0 { bytes := [], code := 0 } false, .Processing 0 0, .Recover,
    .AddClient 0 0 (.pending 6)]

/-- Its `OnDisconnect` comes behind `m_pPipe = NULL`, so the pipe it had is given back alone. -/
theorem session_pipe_reconnect : Throughout (step 4096) Owns init reconnect := by
  have hrun : (run (step 4096) init reconnect).isSome = true := by decide
  obtain ⟨st, hst⟩ := Option.isSome_iff_exists.mp hrun
  exact (session_pipe_iff hst).mpr (by decide)

end Kernel4GameServer.Iocp.Engine
