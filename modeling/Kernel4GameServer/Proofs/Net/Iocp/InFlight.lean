import Kernel4GameServer.Proofs.Net.Iocp.Frames

/-!
# `Kernel4GameServer.Proofs.Net.Iocp.InFlight`: operations of free pipes

`NoneInFlight` says that no outstanding operation refers to an event of a free pipe. Two
things break it: a pipe is given back while one of its operations is outstanding, and a
packet is posted for a pipe that is free already. `Settled` is the condition that a step does
neither, and `in_flight_iff` says that nothing else breaks the property. `stale_recv` is the
common case: the send side ends the connection while a WSARecv is pending.
-/

set_option autoImplicit false

namespace Kernel4GameServer.Iocp

open Lib

namespace Engine

variable {st st' : Engine} {sNetSendSize : Nat}

/-- No outstanding operation refers to an event of a free pipe. -/
def NoneInFlight (st : Engine) : Prop :=
  ∀ op ∈ st.outstanding, op.pCPipe ∉ st.g_oCPipePool.m_list

instance (st : Engine) : Decidable (NoneInFlight st) :=
  inferInstanceAs (Decidable (∀ op ∈ st.outstanding, op.pCPipe ∉ st.g_oCPipePool.m_list))

/-- A pipe that is given back has no outstanding operation, and no packet is posted for a
free pipe. -/
def Settled (st : Engine) : EngineAction → Prop
  | .Recover | .MallocConnection none _ _ =>
      ∀ frame ∈ st.frames.head?, ∀ op ∈ st.outstanding, op.pCPipe = frame.pCPipe →
        st.g_oCPipePool.inUse frame.pCPipe = false
  | .Send client _ =>
      ∀ p ∈ st.m_pPipe client, p ∈ st.g_oCPipePool.m_list →
        (st.pipe p).m_bNeedPostOPT = true → (st.pipe p).m_hCompletionPort = none
  | .Processing w _ =>
      ∀ e ∈ (st.workers w).m_oEventQueue.head?, e.type = .CONNECTED →
        e.pCPipe ∈ st.g_oCPipePool.m_list → (st.pipe e.pCPipe).m_hCompletionPort = none
  | _ => True

instance (st : Engine) : ∀ a, Decidable (Settled st a)
  | .Recover | .MallocConnection none _ _ =>
      inferInstanceAs (Decidable (∀ frame ∈ st.frames.head?, ∀ op ∈ st.outstanding,
        op.pCPipe = frame.pCPipe → st.g_oCPipePool.inUse frame.pCPipe = false))
  | .Send client _ =>
      inferInstanceAs (Decidable (∀ p ∈ st.m_pPipe client, p ∈ st.g_oCPipePool.m_list →
        (st.pipe p).m_bNeedPostOPT = true → (st.pipe p).m_hCompletionPort = none))
  | .Processing w _ =>
      inferInstanceAs (Decidable (∀ e ∈ (st.workers w).m_oEventQueue.head?, e.type = .CONNECTED →
        e.pCPipe ∈ st.g_oCPipePool.m_list → (st.pipe e.pCPipe).m_hCompletionPort = none))
  | .MallocConnection (some _) _ _ | .AddClient _ _ _ | .CompletedAccept _ _ | .Close _
  | .Run _ _ _ _ => isTrue trivial

/-- The pool is in order, and all pipes that something refers to are units of it. -/
structure Allocated (st : Engine) : Prop where
  pool : st.g_oCPipePool.Inv
  outstanding : ∀ op ∈ st.outstanding, op.pCPipe < st.g_oCPipePool.allocated
  m_pPipe : ∀ client p, st.m_pPipe client = some p → p < st.g_oCPipePool.allocated
  queue : ∀ w, ∀ e ∈ (st.workers w).m_oEventQueue, e.pCPipe < st.g_oCPipePool.allocated

theorem allocated_init : Allocated init where
  pool := TPool.init_inv CPipe.new 64
  outstanding op hop := by cases hop
  m_pPipe client p hp := by cases hp
  queue w e he := by cases he

theorem noneInFlight_init : NoneInFlight init := by
  intro op hop
  cases hop

/-- What is done about a pipe of the pool refers to units of the pool. -/
theorem Touches.allocated {p : Nat} (h : Touches p st st') (hI : Allocated st)
    (hp : p < st.g_oCPipePool.allocated) : Allocated st' := by
  have hsame : st'.g_oCPipePool.allocated = st.g_oCPipePool.allocated := by rw [h.pool]
  refine ⟨h.pool_inv hI.pool, fun op hop => ?_, fun client q hq => ?_, fun w e he => ?_⟩
  · obtain ⟨ops, hops, hops'⟩ := h.outstanding
    rw [hops] at hop
    rw [hsame]
    rcases List.mem_append.mp hop with hop | hop
    · exact hI.outstanding op hop
    · rw [(hops' op hop).1]
      exact hp
  · rw [h.m_pPipe] at hq
    rw [hsame]
    exact hI.m_pPipe client q hq
  · rw [hsame]
    rcases h.queue w e he with he | he
    · exact hI.queue w e he
    · rw [he]
      exact hp

/-- What is done about a pipe that is not free starts no operation of a free one. -/
theorem Touches.noneInFlight {p : Nat} (h : Touches p st st') (hP : NoneInFlight st)
    (hp : p ∉ st.g_oCPipePool.m_list) : NoneInFlight st' := by
  intro op hop
  obtain ⟨ops, hops, hops'⟩ := h.outstanding
  rw [hops] at hop
  rw [h.m_list]
  rcases List.mem_append.mp hop with hop | hop
  · exact hP op hop
  · rw [(hops' op hop).1]
    exact hp

/-- A packet keeps the property just when it is not posted for a free pipe. -/
theorem NoneInFlight.post (hP : NoneInFlight st) (p : Nat) (slot : EventSlot) :
    NoneInFlight (st.post p slot) ↔
      (p ∈ st.g_oCPipePool.m_list → (st.pipe p).m_hCompletionPort = none) := by
  unfold Engine.post
  cases hport : (st.pipe p).m_hCompletionPort with
  | none => simp [hP]
  | some w =>
      rw [Option.isSome_some, if_pos rfl]
      constructor
      · intro h hp
        exact absurd hp (h _ (List.mem_append_right _ (List.mem_singleton.mpr rfl)))
      · intro h
        have hp : p ∉ st.g_oCPipePool.m_list := fun hp => by cases h hp
        exact (start_touches st p slot true).noneInFlight hP hp

/-- Giving a pipe back keeps the property just when none of its operations is outstanding. A
pipe that is not in use stays what it is. -/
theorem NoneInFlight.recover (hpool : st.g_oCPipePool.Inv) (hP : NoneInFlight st) (p : Nat) :
    NoneInFlight (st.Recover p) ↔
      ∀ op ∈ st.outstanding, op.pCPipe = p → st.g_oCPipePool.inUse p = false := by
  constructor
  · intro h op hop heq
    rw [← Bool.not_eq_true]
    intro huse
    exact h op hop ((TPool.mem_Recover hpool).mpr (.inr ⟨heq, huse⟩))
  · intro h op hop hin
    rcases (TPool.mem_Recover hpool).mp hin with hin | ⟨heq, huse⟩
    · exact hP op hop hin
    · exact absurd (huse.symm.trans (h op hop heq)) (by decide)

/-- Giving a pipe back takes no unit away. -/
theorem Allocated.recover (hI : Allocated st) (p : Nat) : Allocated (st.Recover p) := by
  have hsame : (st.Recover p).g_oCPipePool.allocated = st.g_oCPipePool.allocated :=
    TPool.Recover_allocated _ _
  refine ⟨(Recover_cases hI.pool p).1, ?_, ?_, ?_⟩
  · rw [hsame]
    exact hI.outstanding
  · rw [hsame]
    exact hI.m_pPipe
  · rw [hsame]
    exact hI.queue

/-- A new pipe has no outstanding operation, and taking it keeps both properties. -/
theorem Create_settled {p : Nat} (hI : Allocated st) (hP : NoneInFlight st)
    (h : st.Create = some (p, st')) :
    Allocated st' ∧ NoneInFlight st' ∧ p < st'.g_oCPipePool.allocated ∧
      p ∉ st'.g_oCPipePool.m_list ∧ (∀ op ∈ st'.outstanding, op.pCPipe ≠ p) ∧
      st'.frames = st.frames := by
  obtain ⟨hinv, hfree, huse, -, -, hle⟩ := Create_cases hI.pool h
  have hops : st'.outstanding = st.outstanding := by rw [Create_eq h]
  have hptr : st'.m_pPipe = st.m_pPipe := by rw [Create_eq h]
  have hworkers : st'.workers = st.workers := by rw [Create_eq h]
  have hp : st'.g_oCPipePool.inUse p = true := (huse p).mpr (.inl rfl)
  have hnew : ∀ op ∈ st.outstanding, st.g_oCPipePool.inUse op.pCPipe = true := by
    -- The pipe of an operation is a unit of the pool, and not a free one.
    intro op hop
    rw [← Bool.not_eq_false]
    intro hnot
    exact hP op hop ((hI.pool.free _).mpr ⟨hI.outstanding op hop, hnot⟩)
  refine ⟨⟨hinv, fun op hop => ?_, fun client q hq => ?_, fun w e he => ?_⟩, fun op hop hin => ?_,
    hinv.used p hp, fun hin => ?_, fun op hop hsame => ?_, by rw [Create_eq h]⟩
  · rw [hops] at hop
    exact (hI.outstanding op hop).trans_le hle
  · rw [hptr] at hq
    exact (hI.m_pPipe client q hq).trans_le hle
  · rw [hworkers] at he
    exact (hI.queue w e he).trans_le hle
  · rw [hops] at hop
    have hold := (huse op.pCPipe).mpr (.inr (hnew op hop))
    exact absurd (hold.symm.trans ((hinv.free _).mp hin).2) (by decide)
  · exact absurd (hp.symm.trans ((hinv.free p).mp hin).2) (by decide)
  · rw [hops] at hop
    have hold := hnew op hop
    rw [hsame] at hold
    exact absurd (hold.symm.trans hfree) (by decide)

/-- `Send` keeps the property just when it does not post for a free pipe. -/
theorem Send_settled {client : Nat} {src : List UInt8} (hP : NoneInFlight st)
    (h : st.Send client src = some st') : NoneInFlight st' ↔ Settled st (.Send client src) := by
  obtain ⟨p, hp, ⟨hflag, rfl⟩ | ⟨hflag, rfl⟩⟩ := Send_cases h
  · have hP' : NoneInFlight ((st.set p
        { ((st.pipe p).sendIn (Mem.ofList src 0) src.length).formatSend with
          m_bNeedPostOPT := false }).record (st.pointed client) (.Send src) .posted) := hP
    refine (hP'.post p .m_pSendEvent).trans ?_
    show (_ → ((st.set p _).pipe p).m_hCompletionPort = none) ↔ _
    rw [set_pipe_self]
    constructor
    · rintro hcond q hq hin -
      rw [hp] at hq
      cases hq
      exact hcond hin
    · intro hcond hin
      exact hcond p hp hin hflag
  · refine ⟨fun _ q hq _ hflag' => ?_, fun _ => hP⟩
    rw [hp] at hq
    cases hq
    exact absurd (hflag.symm.trans hflag') (by decide)

/-- An event that ends no connection keeps the property just when it does not post for a free
pipe. -/
theorem processEvent_settled {e : IoEvent} {nUse : Int} (hP : NoneInFlight st)
    (hbreak : e.type ≠ .BREAK) (hfailed : e.type ≠ .CONNECTFAILD)
    (h : st.processEvent e nUse = some st') :
    NoneInFlight st' ↔ (e.type = .CONNECTED → e.pCPipe ∈ st.g_oCPipePool.m_list →
      (st.pipe e.pCPipe).m_hCompletionPort = none) := by
  unfold processEvent at h
  cases htype : e.type <;> rw [htype] at h hbreak hfailed <;> dsimp only at h
  case BREAK => exact absurd rfl hbreak
  case CONNECTFAILD => exact absurd rfl hfailed
  case RECV =>
    split at h
    · split at h
      · cases h
      · cases h
        exact ⟨fun _ => nofun, fun _ => hP⟩
    · cases h
      exact ⟨fun _ => nofun, fun _ => hP⟩
  case CONNECTED =>
    split at h
    · cases h
    · cases h
      have hP' : NoneInFlight (st.set e.pCPipe
          ({ st.pipe e.pCPipe with m_nStatus := .SS_ESTABLISHED }.formatRecv .SO_ACCEPT)) := hP
      have hpost := hP'.post e.pCPipe .m_pRecvEvent
      rw [set_pipe_self] at hpost
      exact ⟨fun hst _ => hpost.mp hst, fun hcond => hpost.mpr (hcond rfl)⟩
  case COUNT =>
    cases h
    exact ⟨fun _ => nofun, fun _ => hP⟩

/-- A write to a unit refers to nothing new. -/
theorem Allocated.set (hI : Allocated st) (p : Nat) (x : CPipe) : Allocated (st.set p x) :=
  ⟨TPool.set_inv hI.pool p x, hI.outstanding, hI.m_pPipe, hI.queue⟩

/-- A pointer is set to a unit of the pool. -/
theorem Allocated.setPipe (hI : Allocated st) {client p : Nat}
    (hp : p < st.g_oCPipePool.allocated) : Allocated (st.setPipe client p) := by
  refine ⟨hI.pool, hI.outstanding, fun c q hq => ?_, hI.queue⟩
  simp only [Engine.setPipe] at hq
  split at hq
  · cases hq
    exact hp
  · exact hI.m_pPipe c q hq

/-- Every step refers to units of the pool only, as long as no operation refers to a free
one. -/
theorem step_allocated {a : EngineAction} (hframes : FramesInv st) (hI : Allocated st)
    (hP : NoneInFlight st) (h : step sNetSendSize st a = some st') : Allocated st' := by
  cases step_happens h with
  | @connect client w result p st₁ x hc _ _ =>
      obtain ⟨hI₁, -, hp, -⟩ := Create_settled hI hP hc
      have htouch := start_touches (st₁.set p x) p .m_pRecvEvent false
      exact (htouch.allocated (hI₁.set p x) hp).setPipe hp
  | @noConnect client w result p st₁ x hc _ =>
      have hI₁ := (Create_settled hI hP hc).1.set p x
      exact ⟨hI₁.pool, hI₁.outstanding, hI₁.m_pPipe, hI₁.queue⟩
  | accept _ hc =>
      have hI₁ := (Create_settled hI hP hc).1
      exact ⟨hI₁.pool, hI₁.outstanding, hI₁.m_pPipe, hI₁.queue⟩
  | @noAccept socket p st₁ _ hc => exact (Create_settled hI hP hc).1.recover p
  | @client client w ok p socket frames x st₁ _ hframes' _ _ heq _ htouch =>
      subst heq
      have hin : .MallocConnection p socket ∈ st.frames := hframes' ▸ .head _
      have hp := hI.pool.used p (hframes.malloc p socket hin).1
      have hI₁ : Allocated { st with frames } := ⟨hI.pool, hI.outstanding, hI.m_pPipe, hI.queue⟩
      exact htouch.allocated ((hI₁.set p x).setPipe hp) hp
  | @noClient w ok p socket frames _ =>
      have hI₁ : Allocated { st with frames } := ⟨hI.pool, hI.outstanding, hI.m_pPipe, hI.queue⟩
      exact hI₁.recover p
  | @recover p frames _ =>
      have hI₁ : Allocated { st with frames } := ⟨hI.pool, hI.outstanding, hI.m_pPipe, hI.queue⟩
      exact hI₁.recover p
  | @event w nUse e queue _ _ hqueue _ _ _ htouch _ =>
      exact htouch.allocated hI (hI.queue w e (hqueue ▸ .head _))
  | @finish w nUse e queue host st₁ _ hqueue _ _ _ htouch =>
      have hI₁ := htouch.allocated hI (hI.queue w e (hqueue ▸ .head _))
      refine ⟨hI₁.pool, hI₁.outstanding, fun client q hq => ?_, hI₁.queue⟩
      dsimp only at hq
      split at hq
      · -- `OnDisconnect` has cleared the pointer of the client.
        cases hq
      · exact hI₁.m_pPipe client q hq
  | Send hp _ htouch _ => exact htouch.allocated hI (hI.m_pPipe _ _ hp)
  | Close hp htouch => exact htouch.allocated hI (hI.m_pPipe _ _ hp)
  | @Run w i result ok op st₁ hop _ _ heq htouch =>
      subst heq
      refine htouch.allocated ⟨hI.pool, fun op' hop' => ?_, hI.m_pPipe, hI.queue⟩
        (hI.outstanding op (List.mem_of_getElem? hop))
      exact hI.outstanding op' (List.mem_of_mem_eraseIdx hop')

/-- A step leads to a state in which no operation refers to a free pipe just when it neither
gives back a pipe with an outstanding operation nor posts a packet for a free pipe. -/
theorem step_settled {a : EngineAction} (hframes : FramesInv st) (hI : Allocated st)
    (hP : NoneInFlight st) (h : step sNetSendSize st a = some st') :
    NoneInFlight st' ↔ Settled st a := by
  have hkeeps : NoneInFlight st' → Settled st a → (NoneInFlight st' ↔ Settled st a) :=
    fun hnone hcond => ⟨fun _ => hcond, fun _ => hnone⟩
  cases step_happens h with
  | @connect client w result p st₁ x hc _ _ =>
      obtain ⟨-, hP₁, -, hfree, -⟩ := Create_settled hI hP hc
      have hP₂ : NoneInFlight (st₁.set p x) := hP₁
      exact hkeeps ((start_touches _ p .m_pRecvEvent false).noneInFlight hP₂ hfree) trivial
  | noConnect hc _ => exact hkeeps (Create_settled hI hP hc).2.1 trivial
  | accept _ hc => exact hkeeps (Create_settled hI hP hc).2.1 trivial
  | @noAccept socket p st₁ _ hc =>
      obtain ⟨hI₁, hP₁, -, -, hops, -⟩ := Create_settled hI hP hc
      refine hkeeps ((hP₁.recover hI₁.pool p).mpr fun op hop heq => ?_) trivial
      -- The pipe is given back before any operation was issued on it.
      exact absurd heq (hops op hop)
  | @client client w ok p socket frames x st₁ _ hframes' _ _ heq _ htouch =>
      subst heq
      have hin : .MallocConnection p socket ∈ st.frames := hframes' ▸ .head _
      -- The pipe of the frame is in use.
      have hfree : p ∉ st.g_oCPipePool.m_list := fun hlist =>
        absurd ((hframes.malloc p socket hin).1.symm.trans ((hI.pool.free p).mp hlist).2)
          (by decide)
      exact hkeeps (htouch.noneInFlight hP hfree) trivial
  | @noClient w ok p socket frames hframes' =>
      have hP' : NoneInFlight { st with frames } := hP
      -- The pipe joins the free list, so nothing may refer to it: that is the condition.
      refine (hP'.recover hI.pool p).trans ?_
      simp only [Settled, hframes', List.head?_cons, Option.mem_def, Option.some.injEq,
        forall_eq', Frame.pCPipe]
  | @recover p frames hframes' =>
      have hP' : NoneInFlight { st with frames } := hP
      refine (hP'.recover hI.pool p).trans ?_
      simp only [Settled, hframes', List.head?_cons, Option.mem_def, Option.some.injEq,
        forall_eq', Frame.pCPipe]
  | @event w nUse e queue _ _ hqueue hbreak hfailed hevent _ _ =>
      have hP' : NoneInFlight (st.readEvent w queue) := hP
      refine (processEvent_settled hP' hbreak hfailed hevent).trans ?_
      simp only [Settled, hqueue, List.head?_cons, Option.mem_def, Option.some.injEq, forall_eq']
      exact Iff.rfl
  | @finish w nUse e queue host st₁ _ hqueue hend _ heq _ =>
      subst heq
      refine hkeeps hP fun e' he' htype => ?_
      rw [hqueue] at he'
      cases he'
      rcases hend with hend | hend <;> rw [hend] at htype <;> cases htype
  | Send _ hsend _ _ => exact Send_settled hP hsend
  | Close _ _ => exact hkeeps hP trivial
  | @Run w i result ok op st₁ hop _ _ heq htouch =>
      subst heq
      refine hkeeps (htouch.noneInFlight (fun op' hop' => ?_) ?_) trivial
      · exact hP op' (List.mem_of_mem_eraseIdx hop')
      · exact hP op (List.mem_of_getElem? hop)

/-- A client is accepted and gets an answer. The WSASend for it fails while a WSARecv is
pending, and the main thread ends the connection before the completion of the WSARecv comes. -/
def staleRecv : List EngineAction :=
  [.CompletedAccept 5 true, .MallocConnection (some 0) 0 true, .Run 0 0 .ofPacket true,
    .Send 0 [1], .Run 0 1 .ofPacket false, .Processing 0 0, .Recover]

/-- In every state of a run no outstanding operation refers to a free pipe, just when no step
gives back a pipe with an outstanding operation or posts a packet for a free pipe. -/
theorem in_flight_iff {sNetSendSize : Nat} {as : List EngineAction} {st : Engine}
    (h : run (step sNetSendSize) init as = some st) :
    Throughout (step sNetSendSize) NoneInFlight init as ↔
      AllSteps (step sNetSendSize) Settled init as :=
  throughout_iff (C := Settled) (I := fun st => FramesInv st ∧ Allocated st) (P := NoneInFlight)
    (fun _ _ _ hI hP hs => step_settled hI.1 hI.2 hP hs)
    (fun _ _ _ hI hP _ hs => ⟨hI.1.step hs, step_allocated hI.1 hI.2 hP hs⟩)
    ⟨framesInv_init, allocated_init⟩ noneInFlight_init h

/-- The run breaks the property: the WSARecv is outstanding, and its pipe is free. -/
theorem stale_recv : ¬ Throughout (step 4096) NoneInFlight init staleRecv := by
  intro hall
  have hnone := hall staleRecv List.prefix_rfl _ rfl
  exact absurd hnone (by decide)

/-- The same client, but the completion of the WSARecv comes before the main thread handles
the event. -/
def settledRecv : List EngineAction :=
  [.CompletedAccept 5 true, .MallocConnection (some 0) 0 true, .Run 0 0 .ofPacket true,
    .Send 0 [1], .Run 0 1 .ofPacket false, .Run 0 0 { bytes := [], code := 995 } false,
    .Processing 0 0, .Recover]

/-- Then nothing refers to the pipe any more when it is given back. -/
theorem in_flight_settled : Throughout (step 4096) NoneInFlight init settledRecv := by
  have hrun : (run (step 4096) init settledRecv).isSome = true := by decide
  obtain ⟨st, hst⟩ := Option.isSome_iff_exists.mp hrun
  exact (in_flight_iff hst).mpr (by decide)

end Engine

end Kernel4GameServer.Iocp
