import Kernel4GameServer.Net.Iocp.Engine
import Kernel4GameServer.Proofs.Public.TPool

/-!
# `Kernel4GameServer.Proofs.Net.Iocp.EngineSteps`: what a step does to the other pipes

Most of what the two threads do is about one pipe. `Touches p` says what of the engine is
left alone then: the other pipes, the pool, the pointers of the sessions, the frames and the
connections. What is added to the outstanding operations and to the queues is about `p`.
`dispatch_touches` is the worker's part of it. `Create_cases` says what a pipe for a
new connection is. `step_happens` puts it together: it lists what a step can do.
-/

set_option autoImplicit false

namespace Kernel4GameServer.Iocp

open Lib

/-- `DoRecv()` as one case distinction. -/
theorem CPipe.DoRecv_eq (p : CPipe) (ok : Bool) :
    p.DoRecv ok = (p.formatRecv .SO_TCPRECV,
      if p.m_nStatus = .SS_ESTABLISHED then (ok, ok) else (!p.m_bNeedPostOPT, false)) := by
  unfold DoRecv doRecvStatus
  by_cases hstatus : p.m_nStatus = .SS_ESTABLISHED
  · simp [formatRecv, hstatus]
  · simp [formatRecv, hstatus]

/-- `Send` as one case distinction. -/
theorem CPipe.Send_eq (p : CPipe) (pContext : Mem UInt8) (nSize : Int) :
    p.Send pContext nSize =
      if p.m_bNeedPostOPT = true then
        ({ (p.sendIn pContext nSize).formatSend with m_bNeedPostOPT := false }, true)
      else (p.sendIn pContext nSize, false) := rfl

namespace Engine

variable {st st' st'' : Engine} {p q : Nat}

@[simp] theorem set_pipe_self (st : Engine) (p : Nat) (x : CPipe) : (st.set p x).pipe p = x :=
  if_pos rfl

@[simp] theorem set_pipe_other (st : Engine) (x : CPipe) (h : q ≠ p) :
    (st.set p x).pipe q = st.pipe q :=
  if_neg h

/-- Only the last of two writes to a pipe counts. -/
@[simp] theorem set_set (st : Engine) (p : Nat) (x y : CPipe) :
    (st.set p x).set p y = st.set p y := by
  simp only [Engine.set, TPool.set]
  congr 2
  funext q
  split <;> rfl

/-- What is done about the pipe `p` alone. -/
structure Touches (p : Nat) (st st' : Engine) : Prop where
  pool : st'.g_oCPipePool = { st.g_oCPipePool with unit := st'.g_oCPipePool.unit }
  m_pPipe : st'.m_pPipe = st.m_pPipe
  pointed : st'.pointed = st.pointed
  frames : st'.frames = st.frames
  conn : st'.conn = st.conn
  conns : st'.conns = st.conns
  host : ∀ q, (st'.pipe q).m_pHost = (st.pipe q).m_pHost
  other : ∀ q, q ≠ p → st'.pipe q = st.pipe q
  outstanding : ∃ ops, st'.outstanding = st.outstanding ++ ops ∧
    ∀ op ∈ ops, op.pCPipe = p ∧ op.conn = st.conn p
  queue : ∀ w, ∀ e ∈ (st'.workers w).m_oEventQueue,
    e ∈ (st.workers w).m_oEventQueue ∨ e.pCPipe = p
  map : ∀ w socket q, q ≠ p →
    ((st'.workers w).m_mapSocketClient socket = some q ↔
      (st.workers w).m_mapSocketClient socket = some q)

namespace Touches

/-- Nothing is done. -/
theorem refl (p : Nat) (st : Engine) : Touches p st st where
  pool := rfl
  m_pPipe := rfl
  pointed := rfl
  frames := rfl
  conn := rfl
  conns := rfl
  host _ := rfl
  other _ _ := rfl
  outstanding := ⟨[], by simp⟩
  queue _ _ he := .inl he
  map _ _ _ _ := Iff.rfl

/-- One thing is done after another. -/
theorem trans (h : Touches p st st') (h' : Touches p st' st'') : Touches p st st'' where
  pool := by rw [h'.pool, h.pool]
  m_pPipe := h'.m_pPipe.trans h.m_pPipe
  pointed := h'.pointed.trans h.pointed
  frames := h'.frames.trans h.frames
  conn := h'.conn.trans h.conn
  conns := h'.conns.trans h.conns
  host q := (h'.host q).trans (h.host q)
  other q hq := (h'.other q hq).trans (h.other q hq)
  outstanding := by
    obtain ⟨ops, hops, hp⟩ := h.outstanding
    obtain ⟨ops', hops', hp'⟩ := h'.outstanding
    refine ⟨ops ++ ops', by rw [hops', hops, List.append_assoc], ?_⟩
    intro op hop
    rcases List.mem_append.mp hop with hop | hop
    · exact hp op hop
    · rw [← h.conn]
      exact hp' op hop
  queue w e he := by
    rcases h'.queue w e he with he | hp
    · exact h.queue w e he
    · exact .inr hp
  map w socket q hq := (h'.map w socket q hq).trans (h.map w socket q hq)

/-- The same units are in use, and the same ones are free. -/
theorem inUse (h : Touches p st st') :
    st'.g_oCPipePool.inUse = st.g_oCPipePool.inUse := by
  rw [h.pool]

theorem m_list (h : Touches p st st') :
    st'.g_oCPipePool.m_list = st.g_oCPipePool.m_list := by
  rw [h.pool]

/-- The invariant of the pool is about the units in use and the free ones. -/
theorem pool_inv (h : Touches p st st') (hpool : st.g_oCPipePool.Inv) :
    st'.g_oCPipePool.Inv := by
  rw [h.pool]
  exact ⟨hpool.nodup, hpool.free, hpool.used⟩

end Touches

/-- A write to the pipe that leaves its session alone. -/
theorem set_touches (x : CPipe) (hx : x.m_pHost = (st.pipe p).m_pHost) :
    Touches p st (st.set p x) :=
  { Touches.refl p st with
    pool := rfl
    host := by
      intro q
      by_cases hq : q = p
      · subst hq
        rw [set_pipe_self, hx]
      · rw [set_pipe_other _ _ hq]
    other := fun q hq => set_pipe_other st x hq }

/-- A new operation. -/
theorem start_touches (st : Engine) (p : Nat) (slot : EventSlot) (posted : Bool) :
    Touches p st (st.start p slot posted) :=
  { Touches.refl p st with
    outstanding := by
      refine ⟨_, rfl, ?_⟩
      intro op hop
      rw [List.mem_singleton] at hop
      subst hop
      exact ⟨rfl, rfl⟩ }

/-- A new packet. -/
theorem post_touches (st : Engine) (p : Nat) (slot : EventSlot) :
    Touches p st (st.post p slot) := by
  unfold post
  split
  · exact start_touches st p slot true
  · exact .refl p st

theorem post_workers (st : Engine) (p : Nat) (slot : EventSlot) :
    (st.post p slot).workers = st.workers := by
  unfold post
  split <;> rfl

/-- A new entry of the log. -/
theorem record_touches (st : Engine) (p c : Nat) (input : Input) (output : Output) :
    Touches p st (st.record c input output) :=
  { Touches.refl p st with }

/-- A write to a worker that relates the other pipes to the same sockets. -/
theorem setWorker_touches {w : Nat} {x : IocpWorker}
    (hqueue : ∀ e ∈ x.m_oEventQueue, e ∈ (st.workers w).m_oEventQueue ∨ e.pCPipe = p)
    (hx : ∀ socket q, q ≠ p → (x.m_mapSocketClient socket = some q ↔
      (st.workers w).m_mapSocketClient socket = some q)) :
    Touches p st (st.setWorker w x) :=
  { Touches.refl p st with
    queue := by
      intro v e he
      simp only [setWorker] at he
      split at he
      · rename_i hv
        subst hv
        exact hqueue e he
      · exact .inl he
    map := by
      intro v socket q hq
      simp only [setWorker]
      split
      · rename_i hv
        subst hv
        exact hx socket q hq
      · exact Iff.rfl }

/-- A new event. -/
theorem Add_touches (st : Engine) (w : Nat) (type : IoEventType) (p : Nat) :
    Touches p st (st.Add w type p) := by
  refine setWorker_touches (fun e he => ?_) fun _ _ _ => Iff.rfl
  rcases List.mem_append.mp he with he | he
  · exact .inl he
  · rw [List.mem_singleton.mp he]
    exact .inr rfl

/-- A read event is gone from its queue. -/
def readEvent (st : Engine) (w : Nat) (queue : List IoEvent) : Engine :=
  st.setWorker w { st.workers w with m_oEventQueue := queue }

/-- An event is read. -/
theorem read_touches {w : Nat} {e : IoEvent} {queue : List IoEvent} (p : Nat)
    (h : (st.workers w).m_oEventQueue = e :: queue) :
    Touches p st (st.readEvent w queue) := by
  refine setWorker_touches (fun e' he => .inl ?_) fun _ _ _ => Iff.rfl
  rw [h]
  exact .tail _ he

theorem RelateSocketClient_touches (st : Engine) (w : Nat) (socket : Int) (p : Nat) :
    Touches p st (st.RelateSocketClient w socket p) := by
  unfold RelateSocketClient
  split
  · rename_i hnone
    refine setWorker_touches (fun _ he => .inl he) fun s q hq => ?_
    dsimp only
    split
    · rename_i hs
      subst hs
      rw [hnone]
      simp [Ne.symm hq]
    · exact Iff.rfl
  · exact .refl p st

theorem SendDisconnectEvent_touches (st : Engine) (w : Nat) (socket : Int) (p : Nat) :
    Touches p st (st.SendDisconnectEvent w socket p) := by
  unfold SendDisconnectEvent
  split
  · rename_i hcheck
    have hp : (st.workers w).m_mapSocketClient socket = some p := of_decide_eq_true hcheck
    have hset : Touches p st (st.set p { st.pipe p with m_lSocketHandler := INVALID_SOCKET }) :=
      set_touches _ rfl
    refine hset.trans ((Add_touches _ w .BREAK p).trans
      (setWorker_touches (fun _ he => .inl he) fun s q hq => ?_))
    dsimp only [Add, setWorker, Engine.set]
    rw [if_pos rfl]
    split
    · rename_i hs
      subst hs
      rw [hp]
      simp [Ne.symm hq]
    · exact Iff.rfl
  · exact .refl p st

theorem DoRecv_touches (st : Engine) (p : Nat) (ok : Bool) :
    Touches p st (st.DoRecv p ok).1 := by
  have hset : Touches p st (st.set p ((st.pipe p).DoRecv ok).1) :=
    set_touches _ (by rw [CPipe.DoRecv_eq]; rfl)
  unfold DoRecv
  dsimp only
  split
  · exact hset.trans (start_touches _ p _ _)
  · exact hset

theorem In_touches (st : Engine) (p c : Nat) (bytes : List UInt8) :
    Touches p st (st.In p c bytes) := by
  have hset : Touches p st (st.set p ((st.pipe p).In (Mem.ofList bytes 0) bytes.length)) :=
    set_touches _ rfl
  exact hset.trans (record_touches _ p c _ _)

theorem Out_touches (sNetSendSize : Nat) (st : Engine) (p c nSize : Nat) (ok : Bool) :
    Touches p st (Out sNetSendSize st p c nSize ok).1 := by
  have hhost : ((st.pipe p).outSection sNetSendSize nSize ok).1.m_pHost
      = (st.pipe p).m_pHost := by
    simp only [CPipe.outSection]
    split <;> rfl
  unfold Out
  dsimp only
  have h := (set_touches _ hhost).trans (record_touches _ p c (.sent nSize ok)
    ((st.pipe p).outSection sNetSendSize nSize ok).2.output)
  split
  · exact h.trans (start_touches _ p _ _)
  · exact h

theorem runAccept_touches (st : Engine) (w : Nat) (op : Operation) (ok : Bool) :
    Touches op.pCPipe st (st.runAccept w op ok) := by
  have h := RelateSocketClient_touches st w (st.pipe op.pCPipe).m_lSocketHandler op.pCPipe
  unfold runAccept
  dsimp only
  split
  · exact h.trans (DoRecv_touches _ op.pCPipe ok)
  · split
    · exact h.trans (SendDisconnectEvent_touches _ w op.socket_handler op.pCPipe)
    · exact h

theorem runRecv_touches (st : Engine) (w : Nat) (op : Operation) (result : Completion)
    (ok : Bool) : Touches op.pCPipe st (st.runRecv w op result ok) := by
  have h := (In_touches st op.pCPipe op.conn result.bytes).trans (DoRecv_touches _ op.pCPipe ok)
  unfold runRecv
  dsimp only
  split
  · split
    · split
      · exact h.trans (Add_touches _ w .RECV op.pCPipe)
      · exact h.trans (SendDisconnectEvent_touches _ w op.socket_handler op.pCPipe)
    · exact SendDisconnectEvent_touches st w op.socket_handler op.pCPipe
  · exact .refl _ st

theorem runSend_touches (sNetSendSize : Nat) (st : Engine) (w : Nat) (op : Operation)
    (result : Completion) (ok : Bool) :
    Touches op.pCPipe st (runSend sNetSendSize st w op result ok) := by
  have h := Out_touches sNetSendSize st op.pCPipe op.conn result.nIOBytes ok
  unfold runSend
  dsimp only
  split
  · split
    · split
      · exact h
      · exact h.trans (SendDisconnectEvent_touches _ w op.socket_handler op.pCPipe)
    · exact .refl _ st
  · exact .refl _ st

/-- An iteration of `Run` is about the pipe of its operation. -/
theorem dispatch_touches (sNetSendSize : Nat) (st : Engine) (w : Nat) (op : Operation)
    (result : Completion) (ok : Bool) :
    Touches op.pCPipe st (dispatch sNetSendSize st w op result ok) := by
  unfold dispatch
  split
  · exact .refl _ st
  · split
    · exact Add_touches _ w _ _
    · exact runAccept_touches _ w op ok
    · exact runRecv_touches _ w op result ok
    · exact runSend_touches sNetSendSize _ w op result ok

/-- What an iteration of `Run` takes from the outstanding operations. -/
theorem Run_cases {sNetSendSize w i : Nat} {result : Completion} {ok : Bool}
    (h : Run sNetSendSize st w i result ok = some st') :
    ∃ op, st.outstanding[i]? = some op ∧ op.m_hCompletionPort = some w ∧
      (op.posted = true → result = .ofPacket) ∧
      st' = dispatch sNetSendSize { st with outstanding := st.outstanding.eraseIdx i }
        w op result ok := by
  unfold Run at h
  split at h
  · cases h
  · rename_i op hop
    split at h
    · rename_i hport
      exact ⟨op, hop, hport.1, hport.2, (Option.some.inj h).symm⟩
    · cases h

/-- `Send` of a session appends to the stream of the pipe its pointer points to, and posts a
packet where the flag is set. -/
theorem Send_cases {client : Nat} {src : List UInt8} (h : st.Send client src = some st') :
    ∃ p, st.m_pPipe client = some p ∧
      (((st.pipe p).m_bNeedPostOPT = true ∧
          st' = ((st.set p { ((st.pipe p).sendIn (Mem.ofList src 0) src.length).formatSend with
            m_bNeedPostOPT := false }).record (st.pointed client) (.Send src) .posted).post p
              .m_pSendEvent) ∨
        ((st.pipe p).m_bNeedPostOPT = false ∧
          st' = (st.set p ((st.pipe p).sendIn (Mem.ofList src 0) src.length)).record
            (st.pointed client) (.Send src) .silent)) := by
  unfold Send at h
  split at h
  · cases h
  · rename_i p hp
    refine ⟨p, hp, ?_⟩
    cases hflag : (st.pipe p).m_bNeedPostOPT with
    | true =>
        rw [CPipe.Send_eq, if_pos hflag] at h
        exact .inl ⟨rfl, (Option.some.inj h).symm⟩
    | false =>
        rw [CPipe.Send_eq, if_neg (by rw [hflag]; decide)] at h
        exact .inr ⟨rfl, (Option.some.inj h).symm⟩

/-- So it is about that pipe. -/
theorem Send_touches {client : Nat} {src : List UInt8} (h : st.Send client src = some st') :
    ∃ p, st.m_pPipe client = some p ∧ Touches p st st' ∧ st'.workers = st.workers := by
  obtain ⟨p, hp, ⟨-, rfl⟩ | ⟨-, rfl⟩⟩ := Send_cases h
  · have hset : Touches p st (st.set p
        { ((st.pipe p).sendIn (Mem.ofList src 0) src.length).formatSend with
          m_bNeedPostOPT := false }) := set_touches _ rfl
    exact ⟨p, hp, (hset.trans (record_touches _ p _ _ _)).trans (post_touches _ p _),
      post_workers _ p _⟩
  · have hset : Touches p st (st.set p ((st.pipe p).sendIn (Mem.ofList src 0) src.length)) :=
      set_touches _ rfl
    exact ⟨p, hp, hset.trans (record_touches _ p _ _ _), rfl⟩

/-- An event that is not the end of a connection is about its pipe. -/
theorem processEvent_touches {e : IoEvent} {nUse : Int}
    (h : st.processEvent e nUse = some st') (hbreak : e.type ≠ .BREAK)
    (hfailed : e.type ≠ .CONNECTFAILD) :
    Touches e.pCPipe st st' ∧ st'.workers = st.workers := by
  unfold processEvent at h
  cases htype : e.type <;> rw [htype] at h hbreak hfailed <;> dsimp only at h
  case BREAK => exact absurd rfl hbreak
  case CONNECTFAILD => exact absurd rfl hfailed
  case RECV =>
    split at h
    · split at h
      · cases h
      · rw [← Option.some.inj h]
        exact ⟨(record_touches st _ _ _ _).trans (set_touches _ rfl), rfl⟩
    · rw [← Option.some.inj h]
      exact ⟨.refl _ st, rfl⟩
  case CONNECTED =>
    split at h
    · cases h
    · rw [← Option.some.inj h]
      have hset : Touches e.pCPipe st (st.set e.pCPipe
          ({ st.pipe e.pCPipe with m_nStatus := .SS_ESTABLISHED }.formatRecv .SO_ACCEPT)) :=
        set_touches _ rfl
      exact ⟨hset.trans (post_touches _ _ _), post_workers _ _ _⟩
  case COUNT =>
    rw [← Option.some.inj h]
    exact ⟨.refl _ st, rfl⟩

/-- The end of a connection: its pipe has no status any more and goes back behind the
callback. BREAK clears the pointer of the session, a failed connect does not. -/
theorem processEvent_end {e : IoEvent} {nUse : Int} (h : st.processEvent e nUse = some st')
    (hend : e.type = .BREAK ∨ e.type = .CONNECTFAILD) :
    ∃ host, (st.pipe e.pCPipe).m_pHost = some host ∧
      st' = { (st.set e.pCPipe { st.pipe e.pCPipe with m_nStatus := .SS_UNINITIALIZE }) with
        m_pPipe := fun s =>
          if e.type = .BREAK ∧ s = host then none else st.m_pPipe s
        frames := .Recover e.pCPipe :: st.frames } := by
  unfold processEvent at h
  rcases hend with htype | htype <;> rw [htype] at h ⊢ <;> dsimp only at h <;> split at h
  · cases h
  · rename_i host hhost
    refine ⟨host, hhost, ?_⟩
    rw [← Option.some.inj h]
    simp [clearPipe, Engine.set]
  · cases h
  · rename_i host hhost
    refine ⟨host, hhost, ?_⟩
    rw [← Option.some.inj h]
    simp [Engine.set]

/-- Apart from the pool, `Create` begins a connection. -/
theorem Create_eq (h : st.Create = some (p, st')) :
    st' = { st with
      g_oCPipePool := st'.g_oCPipePool
      conn := fun q => if q = p then st.conns else st.conn q
      conns := st.conns + 1 } := by
  unfold Create at h
  rw [Option.map_eq_some_iff] at h
  obtain ⟨⟨p', pool⟩, -, heq⟩ := h
  cases heq
  rfl

/-- A pipe for a new connection was not in use. It is a free pipe as it was left, or a new
one. -/
theorem Create_cases (hpool : st.g_oCPipePool.Inv) (h : st.Create = some (p, st')) :
    st'.g_oCPipePool.Inv ∧ st.g_oCPipePool.inUse p = false ∧
      (∀ q, st'.g_oCPipePool.inUse q = true ↔ q = p ∨ st.g_oCPipePool.inUse q = true) ∧
      (∀ q, st.g_oCPipePool.inUse q = true → st'.pipe q = st.pipe q) ∧
      (∀ q, st'.pipe q = st.pipe q ∨ st'.pipe q = .new) ∧
      st.g_oCPipePool.allocated ≤ st'.g_oCPipePool.allocated := by
  unfold Create at h
  rw [Option.map_eq_some_iff] at h
  obtain ⟨⟨p', pool⟩, hc, heq⟩ := h
  cases heq
  obtain ⟨hinv, hfree, huse, hkeep⟩ := TPool.Create_spec hpool hc
  exact ⟨hinv, hfree, huse, hkeep, fun q => TPool.Create_unit hc q,
    TPool.Create_allocated hc⟩

/-- `Recover` of a pipe leaves the pipes themselves as they are. -/
theorem Recover_cases (hpool : st.g_oCPipePool.Inv) (p : Nat) :
    (st.Recover p).g_oCPipePool.Inv ∧ (st.Recover p).pipe = st.pipe ∧
      ∀ q, (st.Recover p).g_oCPipePool.inUse q = true ↔
        q ≠ p ∧ st.g_oCPipePool.inUse q = true := by
  by_cases hp : st.g_oCPipePool.inUse p = true
  · obtain ⟨hinv, hunit, huse⟩ := TPool.Recover_spec hpool hp
    refine ⟨hinv, hunit, fun q => ?_⟩
    show (st.g_oCPipePool.Recover p).inUse q = true ↔ _
    rw [huse]
    dsimp only
    split
    · rename_i hq
      simp [hq]
    · rename_i hq
      simp [hq]
  · have hsame : st.g_oCPipePool.Recover p = st.g_oCPipePool :=
      if_neg fun hand => hp hand.2
    refine ⟨?_, ?_, fun q => ?_⟩
    · show (st.g_oCPipePool.Recover p).Inv
      rw [hsame]
      exact hpool
    · show (st.g_oCPipePool.Recover p).unit = _
      rw [hsame]
      rfl
    · show (st.g_oCPipePool.Recover p).inUse q = true ↔ _
      rw [hsame]
      constructor
      · intro hq
        exact ⟨fun heq => hp (heq ▸ hq), hq⟩
      · exact fun hand => hand.2

/-- The bytes in a pipe and its flag are those of another one. -/
structure SameBytes (x y : CPipe) : Prop where
  recv : x.m_oRecvStream = y.m_oRecvStream
  send : x.m_oSendStream = y.m_oSendStream
  flag : x.m_bNeedPostOPT = y.m_bNeedPostOPT

/-- `AddClient` takes a new pipe and writes to it, but not to its streams. It either ends with
a connect on its way, or will give the pipe back. -/
theorem AddClient_cases {client w : Nat} {result : Connect}
    (h : st.AddClient client w result = some st') :
    ∃ p st₁ x, st.Create = some (p, st₁) ∧ SameBytes x (st₁.pipe p) ∧
      ((x.m_pHost = some client ∧
          st' = ((st₁.set p x).start p .m_pRecvEvent false).setPipe client p) ∨
        st' = { st₁.set p x with frames := .Recover p :: st₁.frames }) := by
  unfold AddClient at h
  split at h
  · cases h
  · rename_i p st₁ hc
    cases result with
    | noSocket =>
        refine ⟨p, st₁, st₁.pipe p, hc, ⟨rfl, rfl, rfl⟩, .inr ?_⟩
        have hset : st₁.set p (st₁.pipe p) = st₁ := by
          simp only [Engine.set, TPool.set, pipe]
          congr 2
          funext q
          split
          · rename_i hq
            rw [hq]
          · rfl
        rw [← Option.some.inj h, hset]
    | noPort socket =>
        refine ⟨p, st₁, _, hc, ?_, .inr (Option.some.inj h).symm⟩
        exact ⟨rfl, rfl, rfl⟩
    | noConnect socket =>
        simp only [AddPIPE, set_pipe_self, set_set] at h
        refine ⟨p, st₁, _, hc, ?_, .inr (Option.some.inj h).symm⟩
        exact ⟨rfl, rfl, rfl⟩
    | pending socket =>
        simp only [AddPIPE, set_pipe_self, set_set] at h
        refine ⟨p, st₁, _, hc, ?_, .inl ⟨?_, (Option.some.inj h).symm⟩⟩
        · exact ⟨rfl, rfl, rfl⟩
        · rfl

/-- The rest of `CompletedAccept` writes to the pipe, but not to its streams, sets the pointer
of the session and posts a packet where `AddPIPE` succeeds. -/
theorem acceptClient_cases (st : Engine) (p : Nat) (socket : Int) (client w : Nat) (ok : Bool) :
    ∃ x st₁, SameBytes x (st.pipe p) ∧ x.m_pHost = some client ∧
      st₁ = (st.set p x).setPipe client p ∧
      (st.acceptClient p socket client w ok = st₁ ∨
        st.acceptClient p socket client w ok = st₁.post p .m_pRecvEvent) := by
  have hcomm : ∀ (s : Engine) (x : CPipe), (s.setPipe client p).set p x
      = (s.set p x).setPipe client p := fun _ _ => rfl
  have hpipe : ∀ s : Engine, (s.setPipe client p).pipe p = s.pipe p := fun _ => rfl
  simp only [acceptClient, AddPIPE, hcomm, hpipe, set_pipe_self, set_set]
  cases ok with
  | false =>
      refine ⟨_, _, ?_, ?_, rfl, .inl rfl⟩
      · exact ⟨rfl, rfl, rfl⟩
      · rfl
  | true =>
      refine ⟨_, _, ?_, ?_, rfl, .inr rfl⟩
      · exact ⟨rfl, rfl, rfl⟩
      · rfl

/-- All that a step can do. -/
inductive Happens (sNetSendSize : Nat) (st : Engine) : EngineAction → Engine → Prop where
  | connect {client w : Nat} {result : Connect} {p : Nat} {st₁ : Engine} {x : CPipe}
      (hc : st.Create = some (p, st₁)) (hx : SameBytes x (st₁.pipe p))
      (hhost : x.m_pHost = some client) :
      Happens sNetSendSize st (.AddClient client w result)
        (((st₁.set p x).start p .m_pRecvEvent false).setPipe client p)
  | noConnect {client w : Nat} {result : Connect} {p : Nat} {st₁ : Engine} {x : CPipe}
      (hc : st.Create = some (p, st₁)) (hx : SameBytes x (st₁.pipe p)) :
      Happens sNetSendSize st (.AddClient client w result)
        { st₁.set p x with frames := .Recover p :: st₁.frames }
  | accept {socket : Int} {p : Nat} {st₁ : Engine} (hframes : st.frames = [])
      (hc : st.Create = some (p, st₁)) :
      Happens sNetSendSize st (.CompletedAccept socket true)
        { st₁ with frames := [.MallocConnection p socket] }
  | noAccept {socket : Int} {p : Nat} {st₁ : Engine} (hframes : st.frames = [])
      (hc : st.Create = some (p, st₁)) :
      Happens sNetSendSize st (.CompletedAccept socket false) (st₁.Recover p)
  | client {client w : Nat} {ok : Bool} {p : Nat} {socket : Int} {frames : List Frame}
      {x : CPipe} {st₁ st' : Engine} (hframes : st.frames = .MallocConnection p socket :: frames)
      (hx : SameBytes x (st.pipe p)) (hhost : x.m_pHost = some client)
      (heq : st₁ = ({ st with frames }.set p x).setPipe client p)
      (hcases : st' = st₁ ∨ st' = st₁.post p .m_pRecvEvent) (htouch : Touches p st₁ st') :
      Happens sNetSendSize st (.MallocConnection (some client) w ok) st'
  | noClient {w : Nat} {ok : Bool} {p : Nat} {socket : Int} {frames : List Frame}
      (hframes : st.frames = .MallocConnection p socket :: frames) :
      Happens sNetSendSize st (.MallocConnection none w ok) ({ st with frames }.Recover p)
  | recover {p : Nat} {frames : List Frame} (hframes : st.frames = .Recover p :: frames) :
      Happens sNetSendSize st .Recover ({ st with frames }.Recover p)
  | event {w : Nat} {nUse : Int} {e : IoEvent} {queue : List IoEvent} {st' : Engine}
      (hframes : st.frames = []) (hqueue : (st.workers w).m_oEventQueue = e :: queue)
      (hbreak : e.type ≠ .BREAK) (hfailed : e.type ≠ .CONNECTFAILD)
      (h : (st.readEvent w queue).processEvent e nUse = some st')
      (htouch : Touches e.pCPipe st st')
      (hworkers : st'.workers = (st.readEvent w queue).workers) :
      Happens sNetSendSize st (.Processing w nUse) st'
  | finish {w : Nat} {nUse : Int} {e : IoEvent} {queue : List IoEvent} {host : Nat}
      {st₁ : Engine} (hframes : st.frames = [])
      (hqueue : (st.workers w).m_oEventQueue = e :: queue)
      (hend : e.type = .BREAK ∨ e.type = .CONNECTFAILD)
      (hhost : (st.pipe e.pCPipe).m_pHost = some host)
      (heq : st₁ = (st.readEvent w queue).set e.pCPipe
        { st.pipe e.pCPipe with m_nStatus := .SS_UNINITIALIZE })
      (htouch : Touches e.pCPipe st st₁) :
      Happens sNetSendSize st (.Processing w nUse)
        { st₁ with
          m_pPipe := fun s => if e.type = .BREAK ∧ s = host then none else st₁.m_pPipe s
          frames := [.Recover e.pCPipe] }
  | Send {client : Nat} {src : List UInt8} {p : Nat} {st' : Engine}
      (hp : st.m_pPipe client = some p) (h : st.Send client src = some st')
      (htouch : Touches p st st') (hworkers : st'.workers = st.workers) :
      Happens sNetSendSize st (.Send client src) st'
  | Close {client : Nat} {p : Nat} (hp : st.m_pPipe client = some p)
      (htouch : Touches p st (st.set p (st.pipe p).Close)) :
      Happens sNetSendSize st (.Close client) (st.set p (st.pipe p).Close)
  | Run {w i : Nat} {result : Completion} {ok : Bool} {op : Operation} {st₁ : Engine}
      (hop : st.outstanding[i]? = some op) (hport : op.m_hCompletionPort = some w)
      (hposted : op.posted = true → result = .ofPacket)
      (heq : st₁ = { st with outstanding := st.outstanding.eraseIdx i })
      (htouch : Touches op.pCPipe st₁ (dispatch sNetSendSize st₁ w op result ok)) :
      Happens sNetSendSize st (.Run w i result ok) (dispatch sNetSendSize st₁ w op result ok)

/-- A step does one of these. -/
theorem step_happens {sNetSendSize : Nat} {a : EngineAction}
    (h : step sNetSendSize st a = some st') : Happens sNetSendSize st a st' := by
  cases a with
  | AddClient client w result =>
      obtain ⟨p, st₁, x, hc, hx, ⟨hhost, rfl⟩ | rfl⟩ := AddClient_cases h
      · exact .connect hc hx hhost
      · exact .noConnect hc hx
  | CompletedAccept socket ok =>
      simp only [step] at h
      split at h
      · rename_i hframes
        unfold CompletedAccept at h
        split at h
        · cases h
        · rename_i p st₁ hc
          cases ok with
          | false =>
              cases h
              exact .noAccept hframes hc
          | true =>
              cases h
              -- `Create` enters no callback.
              have hsame : st₁.frames = [] := by
                rw [Create_eq hc]
                exact hframes
              rw [hsame]
              exact .accept hframes hc
      · cases h
  | MallocConnection client w ok =>
      simp only [step] at h
      split at h
      · rename_i p socket frames hframes
        cases client with
        | none =>
            -- `MallocConnection` has returned NULL, and the pipe goes back.
            cases h
            exact .noClient hframes
        | some client =>
            cases h
            obtain ⟨x, st₁, hx, hhost, heq, hcases⟩ :=
              acceptClient_cases { st with frames } p socket client w ok
            refine .client hframes hx hhost heq hcases ?_
            rcases hcases with hcase | hcase
            · rw [hcase]
              exact .refl p st₁
            · rw [hcase]
              exact post_touches st₁ p .m_pRecvEvent
      · cases h
  | Recover =>
      simp only [step] at h
      split at h
      · rename_i p frames hframes
        cases h
        exact .recover hframes
      · cases h
  | Processing w nUse =>
      simp only [step] at h
      split at h
      · rename_i e queue hframes hqueue
        have hread := read_touches e.pCPipe hqueue
        -- These two end the use of the pipe: `Recover` comes next.
        by_cases hend : e.type = .BREAK ∨ e.type = .CONNECTFAILD
        · obtain ⟨host, hhost, rfl⟩ := processEvent_end h hend
          have hset : Touches e.pCPipe (st.readEvent w queue) ((st.readEvent w queue).set e.pCPipe
              { st.pipe e.pCPipe with m_nStatus := .SS_UNINITIALIZE }) := set_touches _ rfl
          have hnil : (st.setWorker w { st.workers w with m_oEventQueue := queue }).frames = [] :=
            hframes
          rw [hnil]
          exact .finish hframes hqueue hend hhost rfl (hread.trans hset)
        · rw [not_or] at hend
          obtain ⟨htouch, hworkers⟩ := processEvent_touches h hend.1 hend.2
          exact .event hframes hqueue hend.1 hend.2 h (hread.trans htouch) hworkers
      · cases h
  | Send client src =>
      obtain ⟨p, hp, htouch, hworkers⟩ := Send_touches h
      exact .Send hp h htouch hworkers
  | Close client =>
      obtain ⟨p, hp, rfl⟩ := Option.map_eq_some_iff.mp h
      exact .Close hp (set_touches _ rfl)
  | Run w i result ok =>
      obtain ⟨op, hop, hport, hposted, rfl⟩ := Run_cases h
      exact .Run hop hport hposted rfl (dispatch_touches _ _ _ _ _ _)

end Engine

end Kernel4GameServer.Iocp
