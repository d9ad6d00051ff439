import Kernel4GameServer.Proofs.Net.Iocp.Alone
import Kernel4GameServer.Proofs.Net.Iocp.Frames

/-!
# `Kernel4GameServer.Proofs.Net.Iocp.Isolation`: one pipe for many connections

A pipe goes from one connection to the next, and nothing on the way empties its streams.
`Separated` is the condition under which the connections stay apart: a pipe that is given back
is clean, a completion that gets through `CheckSocketClient` is one of the connection that has
the pipe, and so is a `Send`. `Isolated` is the invariant that carries the proof. It says that
the free pipes are clean and that the log of each connection is one of a connection alone.

`isolation` draws the conclusions over whole runs, and `leak` is a run in which a byte of one
client is offered to another one.
-/

set_option autoImplicit false

namespace Kernel4GameServer.Iocp

open Lib

/-- Empty streams, and the next `Send` posts a packet. -/
structure CPipe.Clean (p : CPipe) : Prop where
  recv : p.m_oRecvStream.size = 0
  send : p.m_oSendStream.size = 0
  flag : p.m_bNeedPostOPT = true

instance (p : CPipe) : Decidable p.Clean :=
  decidable_of_iff (p.m_oRecvStream.size = 0 ∧ p.m_oSendStream.size = 0 ∧ p.m_bNeedPostOPT = true)
    ⟨fun h => ⟨h.1, h.2.1, h.2.2⟩, fun h => ⟨h.recv, h.send, h.flag⟩⟩

/-- A clean pipe is taken for a new connection. -/
theorem CPipe.clean_iff {p : CPipe} (h : p.StreamsWF) : p.Clean ↔ p.alone = .new := by
  have hread := size_eq_zero h.recv
  have hsend := size_eq_zero h.send
  simp only [alone, Alone.new, Alone.mk.injEq]
  constructor
  · intro hclean
    exact ⟨hread.mp hclean.recv.symm, hsend.mp hclean.send.symm, hclean.flag⟩
  · rintro ⟨hr, hs, hf⟩
    exact ⟨(hread.mpr hr).symm, (hsend.mpr hs).symm, hf⟩

namespace Engine

variable {st st' st'' : Engine} {sNetSendSize : Nat} {p : Nat}

/-- What the log says about the connection `c`. -/
def entries (c : Nat) (log : List (Nat × Input × Output)) : List (Input × Output) :=
  log.filterMap fun e => if e.1 = c then some e.2 else none

/-- The connections are kept apart in this step. -/
def Separated (st : Engine) : EngineAction → Prop
  | .Recover | .MallocConnection none _ _ =>
      ∀ frame ∈ st.frames.head?, (st.pipe frame.pCPipe).Clean
  | .Send client _ =>
      ∀ p ∈ st.m_pPipe client,
        st.g_oCPipePool.inUse p = true ∧ st.pointed client = st.conn p
  | .Run w i _ _ =>
      ∀ op ∈ st.outstanding[i]?, st.CheckSocketClient w op.socket_handler op.pCPipe = true →
        (st.event op.pCPipe op.slot).opt = .SO_TCPRECV ∨
          (st.event op.pCPipe op.slot).opt = .SO_TCPSEND →
        st.g_oCPipePool.inUse op.pCPipe = true ∧ op.conn = st.conn op.pCPipe
  | _ => True

instance (st : Engine) : ∀ a, Decidable (Separated st a)
  | .Recover | .MallocConnection none _ _ =>
      inferInstanceAs (Decidable (∀ frame ∈ st.frames.head?, (st.pipe frame.pCPipe).Clean))
  | .Send client _ =>
      inferInstanceAs (Decidable (∀ p ∈ st.m_pPipe client,
        st.g_oCPipePool.inUse p = true ∧ st.pointed client = st.conn p))
  | .Run w i _ _ =>
      inferInstanceAs (Decidable (∀ op ∈ st.outstanding[i]?,
        st.CheckSocketClient w op.socket_handler op.pCPipe = true →
        (st.event op.pCPipe op.slot).opt = .SO_TCPRECV ∨
          (st.event op.pCPipe op.slot).opt = .SO_TCPSEND →
        st.g_oCPipePool.inUse op.pCPipe = true ∧ op.conn = st.conn op.pCPipe))
  | .MallocConnection (some _) _ _ | .AddClient _ _ _ | .CompletedAccept _ _ | .Close _
  | .Processing _ _ => isTrue trivial

/-- Free pipes are clean, and each connection does what it would do alone. -/
structure Isolated (sNetSendSize : Nat) (st : Engine) : Prop where
  wf : ∀ p, (st.pipe p).StreamsWF
  free : ∀ p, st.g_oCPipePool.inUse p = false → (st.pipe p).alone = .new
  current : ∀ p, st.g_oCPipePool.inUse p = true →
    Explains (Alone.step sNetSendSize) .new (entries (st.conn p) st.log) (st.pipe p).alone
  past : ∀ c, ∃ o, Explains (Alone.step sNetSendSize) .new (entries c st.log) o
  conn_lt : ∀ p, st.g_oCPipePool.inUse p = true → st.conn p < st.conns
  conn_inj : ∀ p q, st.g_oCPipePool.inUse p = true → st.g_oCPipePool.inUse q = true →
    st.conn p = st.conn q → p = q
  fresh : ∀ c, st.conns ≤ c → entries c st.log = []

/-- The bytes of the pipe and the log stay as they are. -/
structure Keeps (p : Nat) (st st' : Engine) : Prop where
  bytes : SameBytes (st'.pipe p) (st.pipe p)
  log : st'.log = st.log

/-- The pipe does with an input what a connection alone does, and that is in the log. -/
structure Answers (sNetSendSize : Nat) (p c : Nat) (i : Input) (st st' : Engine) : Prop where
  wf : (st.pipe p).StreamsWF → (st'.pipe p).StreamsWF
  alone : (st.pipe p).StreamsWF →
    (st'.pipe p).alone = ((st.pipe p).alone.step sNetSendSize i).1
  log : (st.pipe p).StreamsWF →
    st'.log = st.log ++ [(c, i, ((st.pipe p).alone.step sNetSendSize i).2)]

theorem SameBytes.alone {x y : CPipe} (h : SameBytes x y) : x.alone = y.alone := by
  rw [CPipe.alone, CPipe.alone, h.recv, h.send, h.flag]

theorem SameBytes.wf {x y : CPipe} (h : SameBytes x y) (hy : y.StreamsWF) : x.StreamsWF :=
  ⟨h.recv ▸ hy.recv, h.send ▸ hy.send⟩

theorem Keeps.refl (p : Nat) (st : Engine) : Keeps p st st := ⟨⟨rfl, rfl, rfl⟩, rfl⟩

theorem Keeps.trans (h : Keeps p st st') (h' : Keeps p st' st'') : Keeps p st st'' :=
  ⟨⟨h'.bytes.recv.trans h.bytes.recv, h'.bytes.send.trans h.bytes.send,
    h'.bytes.flag.trans h.bytes.flag⟩, h'.log.trans h.log⟩

/-- What keeps the bytes may follow an answer. -/
theorem Answers.keeps {c : Nat} {i : Input} (h : Answers sNetSendSize p c i st st')
    (h' : Keeps p st' st'') : Answers sNetSendSize p c i st st'' where
  wf hwf := h'.bytes.wf (h.wf hwf)
  alone hwf := h'.bytes.alone.trans (h.alone hwf)
  log hwf := h'.log.trans (h.log hwf)

/-! ### What the functions of the engine do to the bytes -/

/-- A write to the pipe that leaves its bytes alone. -/
theorem set_keeps {x : CPipe} (hx : SameBytes x (st.pipe p)) : Keeps p st (st.set p x) :=
  ⟨by rw [set_pipe_self]; exact hx, rfl⟩

theorem setWorker_keeps (st : Engine) (w : Nat) (x : IocpWorker) :
    Keeps p st (st.setWorker w x) := ⟨⟨rfl, rfl, rfl⟩, rfl⟩

theorem start_keeps (st : Engine) (q : Nat) (slot : EventSlot) (posted : Bool) :
    Keeps p st (st.start q slot posted) := ⟨⟨rfl, rfl, rfl⟩, rfl⟩

theorem post_keeps (st : Engine) (q : Nat) (slot : EventSlot) : Keeps p st (st.post q slot) := by
  unfold post
  split
  · exact start_keeps st q slot true
  · exact .refl p st

theorem RelateSocketClient_keeps (st : Engine) (w : Nat) (socket : Int) (q : Nat) :
    Keeps p st (st.RelateSocketClient w socket q) := by
  unfold RelateSocketClient
  split
  · exact setWorker_keeps st w _
  · exact .refl p st

theorem SendDisconnectEvent_keeps (st : Engine) (w : Nat) (socket : Int) (p : Nat) :
    Keeps p st (st.SendDisconnectEvent w socket p) := by
  unfold SendDisconnectEvent
  split
  · have hset : Keeps p st (st.set p { st.pipe p with m_lSocketHandler := INVALID_SOCKET }) :=
      set_keeps ⟨rfl, rfl, rfl⟩
    exact hset.trans ((setWorker_keeps _ w _).trans (setWorker_keeps _ w _))
  · exact .refl p st

theorem DoRecv_keeps (st : Engine) (p : Nat) (ok : Bool) : Keeps p st (st.DoRecv p ok).1 := by
  have hset : Keeps p st (st.set p ((st.pipe p).DoRecv ok).1) :=
    set_keeps (by rw [CPipe.DoRecv_eq]; exact ⟨rfl, rfl, rfl⟩)
  unfold DoRecv
  dsimp only
  split
  · exact hset.trans (start_keeps _ p _ _)
  · exact hset

theorem In_answers (st : Engine) (p c : Nat) (bytes : List UInt8) :
    Answers sNetSendSize p c (.received bytes) st (st.In p c bytes) := by
  have hpipe : (st.In p c bytes).pipe p = (st.pipe p).In (Mem.ofList bytes 0) bytes.length :=
    set_pipe_self _ _ _
  refine ⟨fun hwf => ?_, fun hwf => ?_, fun _ => rfl⟩
  · rw [hpipe]
    exact (@CPipe.In_alone _ sNetSendSize hwf bytes).1
  · rw [hpipe]
    exact (CPipe.In_alone hwf bytes).2

theorem Out_answers (st : Engine) (p c nSize : Nat) (ok : Bool) :
    Answers sNetSendSize p c (.sent nSize ok) st (Out sNetSendSize st p c nSize ok).1 := by
  have hset : Answers sNetSendSize p c (.sent nSize ok) st
      ((st.set p ((st.pipe p).outSection sNetSendSize nSize ok).1).record c (.sent nSize ok)
        ((st.pipe p).outSection sNetSendSize nSize ok).2.output) := by
    have hpipe : ((st.set p ((st.pipe p).outSection sNetSendSize nSize ok).1).record c
        (.sent nSize ok) ((st.pipe p).outSection sNetSendSize nSize ok).2.output).pipe p
          = ((st.pipe p).outSection sNetSendSize nSize ok).1 := set_pipe_self _ _ _
    refine ⟨fun hwf => ?_, fun hwf => ?_, fun hwf => ?_⟩
    · rw [hpipe]
      exact (CPipe.outSection_alone hwf nSize ok).1
    · rw [hpipe, ← (CPipe.outSection_alone hwf nSize ok).2]
    · rw [← (CPipe.outSection_alone hwf nSize ok).2]
      rfl
  unfold Out
  dsimp only
  split
  · exact hset.keeps (start_keeps _ p _ _)
  · exact hset

/-- `Send` of a session. -/
theorem Send_answers {client : Nat} {src : List UInt8} (hp : st.m_pPipe client = some p)
    (h : st.Send client src = some st') :
    Answers sNetSendSize p (st.pointed client) (.Send src) st st' := by
  obtain ⟨q, hq, hcases⟩ := Send_cases h
  rw [hp] at hq
  cases hq
  rcases hcases with ⟨hflag, rfl⟩ | ⟨hflag, rfl⟩
  · refine Answers.keeps ?_ (post_keeps _ p _)
    refine ⟨fun hwf => ?_, fun hwf => ?_, fun _ => ?_⟩
    · show ((st.set p _).pipe p).StreamsWF
      rw [set_pipe_self]
      have hin := (CPipe.sendIn_alone hwf src).1
      exact ⟨hin.recv, hin.send⟩
    · show ((st.set p _).pipe p).alone = _
      rw [set_pipe_self]
      have hin := congrArg Alone.unsent (CPipe.sendIn_alone hwf src).2
      exact congrArg (fun unsent =>
        { unread := (st.pipe p).alone.unread, unsent, needPost := false : Alone }) hin
    · simp only [record, Alone.step, CPipe.alone, hflag, if_true]
      rfl
  · refine ⟨fun hwf => ?_, fun hwf => ?_, fun _ => ?_⟩
    · show ((st.set p _).pipe p).StreamsWF
      rw [set_pipe_self]
      exact (CPipe.sendIn_alone hwf src).1
    · show ((st.set p _).pipe p).alone = _
      rw [set_pipe_self, (CPipe.sendIn_alone hwf src).2]
      simp only [Alone.step, CPipe.alone, hflag]
    · simp only [record, Alone.step, CPipe.alone, hflag, Bool.false_eq_true, if_false]
      rfl

/-- An event: `OnRecv` answers as it would alone, and the others leave the bytes alone. On a
clean pipe there is nothing to offer. -/
theorem processEvent_answers {e : IoEvent} {nUse : Int}
    (h : st.processEvent e nUse = some st') (hend : e.type ≠ .BREAK)
    (hfailed : e.type ≠ .CONNECTFAILD) :
    Keeps e.pCPipe st st' ∨
      ((st.pipe e.pCPipe).m_oRecvStream.size ≠ 0 ∧
        Answers sNetSendSize e.pCPipe (st.conn e.pCPipe) (.OnRecv nUse) st st') := by
  unfold processEvent at h
  cases htype : e.type <;> rw [htype] at h hend hfailed <;> dsimp only at h
  case BREAK => exact absurd rfl hend
  case CONNECTFAILD => exact absurd rfl hfailed
  case RECV =>
    split at h
    · rename_i hsize
      split at h
      · cases h
      · cases h
        refine .inr ⟨fun hzero => hsize hzero.symm, ?_⟩
        refine ⟨fun hwf => ?_, fun hwf => ?_, fun hwf => ?_⟩
        · rw [set_pipe_self]
          refine ⟨?_, hwf.send⟩
          dsimp only
          split
          · exact TStream.out_wf hwf.recv (by omega)
          · exact hwf.recv
        · -- `OnRecv` is given the unread bytes, and those that it uses are taken out.
          rw [set_pipe_self]
          have hunread : (if nUse > 0 then (st.pipe e.pCPipe).m_oRecvStream.out nUse
              else (st.pipe e.pCPipe).m_oRecvStream).unread
                = (st.pipe e.pCPipe).m_oRecvStream.unread.drop nUse.toNat := by
            split
            · exact TStream.out_unread hwf.recv (by omega)
            · rw [Int.toNat_of_nonpos (by omega)]
              rfl
          exact congrArg (fun unread =>
            { unread, unsent := (st.pipe e.pCPipe).alone.unsent,
              needPost := (st.pipe e.pCPipe).alone.needPost : Alone }) hunread
        · simp only [record, Engine.set, Alone.step, CPipe.alone, TStream.slice_buff_size]
    · cases h
      exact .inl (.refl _ _)
  case CONNECTED =>
    split at h
    · cases h
    · cases h
      -- `CONNECTED` sets the status and formats the receive: no bytes are touched.
      have hset : Keeps e.pCPipe st (st.set e.pCPipe
          ({ st.pipe e.pCPipe with m_nStatus := .SS_ESTABLISHED }.formatRecv .SO_ACCEPT)) :=
        set_keeps ⟨rfl, rfl, rfl⟩
      exact .inl (hset.trans (post_keeps _ _ _))
  case COUNT =>
    cases h
    exact .inl (.refl _ _)

/-- An iteration of `Run`: it keeps the bytes, or a completion that got through
`CheckSocketClient` is answered. -/
theorem dispatch_answers (st : Engine) (w : Nat) (op : Operation) (result : Completion)
    (ok : Bool) :
    Keeps op.pCPipe st (dispatch sNetSendSize st w op result ok) ∨
      ((st.CheckSocketClient w op.socket_handler op.pCPipe = true ∧
          ((st.event op.pCPipe op.slot).opt = .SO_TCPRECV ∨
            (st.event op.pCPipe op.slot).opt = .SO_TCPSEND)) ∧
        ∃ i, Answers sNetSendSize op.pCPipe op.conn i st
          (dispatch sNetSendSize st w op result ok)) := by
  unfold dispatch
  split
  · exact .inl (.refl _ _)
  · cases hopt : (st.event op.pCPipe op.slot).opt with
    | SO_CONNECT => exact .inl (setWorker_keeps st w _)
    | SO_ACCEPT =>
        have h := RelateSocketClient_keeps (p := op.pCPipe) st w
          (st.pipe op.pCPipe).m_lSocketHandler op.pCPipe
        refine .inl ?_
        simp only [runAccept]
        split
        · exact h.trans (DoRecv_keeps _ _ ok)
        · split
          · exact h.trans (SendDisconnectEvent_keeps _ w _ _)
          · exact h
    | SO_TCPRECV =>
        simp only [runRecv]
        split
        · rename_i hcheck
          split
          · have h := (@In_answers sNetSendSize st op.pCPipe op.conn result.bytes).keeps
              (DoRecv_keeps _ op.pCPipe ok)
            refine .inr ⟨⟨hcheck, .inl trivial⟩, .received result.bytes, ?_⟩
            split
            · exact h.keeps (setWorker_keeps _ w _)
            · exact h.keeps (SendDisconnectEvent_keeps _ w _ _)
          · exact .inl (SendDisconnectEvent_keeps _ w _ _)
        · exact .inl (.refl _ _)
    | SO_TCPSEND =>
        simp only [runSend]
        split
        · rename_i hcheck
          split
          · have h := @Out_answers sNetSendSize st op.pCPipe op.conn result.nIOBytes ok
            refine .inr ⟨⟨hcheck, .inr trivial⟩, .sent result.nIOBytes ok, ?_⟩
            split
            · exact h
            · exact h.keeps (SendDisconnectEvent_keeps _ w _ _)
          · exact .inl (.refl _ _)
        · exact .inl (.refl _ _)

/-! ### The invariant -/

theorem entries_append (c : Nat) (log log' : List (Nat × Input × Output)) :
    entries c (log ++ log') = entries c log ++ entries c log' :=
  List.filterMap_append

theorem entries_self (c : Nat) (i : Input) (o : Output) : entries c [(c, i, o)] = [(i, o)] := by
  simp [entries]

theorem entries_other {c d : Nat} (h : d ≠ c) (i : Input) (o : Output) :
    entries c [(d, i, o)] = [] := by
  simp [entries, h]

theorem isolated_init : Isolated sNetSendSize init := by
  have hpipe : ∀ p, init.pipe p = .new := by
    intro p
    show (TPool.init CPipe.new 64).unit p = .new
    simp only [TPool.init, TPool.AllocNewBlob]
    split <;> rfl
  have huse : ∀ p, init.g_oCPipePool.inUse p = false := by
    intro p
    simp only [init, TPool.init, TPool.AllocNewBlob]
    split <;> rfl
  exact
    { wf := fun p => by rw [hpipe]; exact CPipe.new_alone.2
      free := fun p _ => by rw [hpipe]; exact CPipe.new_alone.1
      current := fun p hp => by rw [huse] at hp; cases hp
      past := fun c => ⟨.new, explains_nil _⟩
      conn_lt := fun p hp => by rw [huse] at hp; cases hp
      conn_inj := fun p q hp => by rw [huse] at hp; cases hp
      fresh := fun c _ => rfl }

/-- The invariant is about the pool, the connections and the log. -/
theorem Isolated.congr (hI : Isolated sNetSendSize st)
    (hpool : st'.g_oCPipePool = st.g_oCPipePool) (hconn : st'.conn = st.conn)
    (hconns : st'.conns = st.conns) (hlog : st'.log = st.log) : Isolated sNetSendSize st' := by
  have hpipe : st'.pipe = st.pipe := by
    funext q
    rw [pipe, pipe, hpool]
  exact
    { wf := by rw [hpipe]; exact hI.wf
      free := by rw [hpipe, hpool]; exact hI.free
      current := by rw [hpipe, hpool, hconn, hlog]; exact hI.current
      past := by rw [hlog]; exact hI.past
      conn_lt := by rw [hpool, hconn, hconns]; exact hI.conn_lt
      conn_inj := by rw [hpool, hconn]; exact hI.conn_inj
      fresh := by rw [hconns, hlog]; exact hI.fresh }

/-- Other pipes with the same bytes keep the invariant. -/
theorem Isolated.bytes (hI : Isolated sNetSendSize st)
    (hbytes : ∀ q, SameBytes (st'.pipe q) (st.pipe q))
    (huse : st'.g_oCPipePool.inUse = st.g_oCPipePool.inUse) (hconn : st'.conn = st.conn)
    (hconns : st'.conns = st.conns) (hlog : st'.log = st.log) : Isolated sNetSendSize st' := by
  refine ⟨fun q => (hbytes q).wf (hI.wf q), fun q hq => ?_, fun q hq => ?_, ?_, ?_, ?_, ?_⟩
  · rw [huse] at hq
    rw [(hbytes q).alone]
    exact hI.free q hq
  · rw [huse] at hq
    rw [(hbytes q).alone, hconn, hlog]
    exact hI.current q hq
  · rw [hlog]
    exact hI.past
  · rw [huse, hconn, hconns]
    exact hI.conn_lt
  · rw [huse, hconn]
    exact hI.conn_inj
  · rw [hconns, hlog]
    exact hI.fresh

/-- What keeps the bytes keeps the invariant. -/
theorem Isolated.keeps (hI : Isolated sNetSendSize st) (htouch : Touches p st st')
    (h : Keeps p st st') : Isolated sNetSendSize st' := by
  refine hI.bytes (fun q => ?_) htouch.inUse htouch.conn htouch.conns h.log
  by_cases hq : q = p
  · rw [hq]
    exact h.bytes
  · rw [htouch.other q hq]
    exact ⟨rfl, rfl, rfl⟩

/-- So does a write to a pipe that leaves its bytes alone. -/
theorem Isolated.set (hI : Isolated sNetSendSize st) {x : CPipe} (hx : SameBytes x (st.pipe p)) :
    Isolated sNetSendSize (st.set p x) := by
  refine hI.bytes (fun q => ?_) rfl rfl rfl rfl
  by_cases hq : q = p
  · subst hq
    rw [set_pipe_self]
    exact hx
  · rw [set_pipe_other _ _ hq]
    exact ⟨rfl, rfl, rfl⟩

/-- An answer of the connection that has the pipe keeps the invariant. -/
theorem Isolated.answers {c : Nat} {i : Input} (hI : Isolated sNetSendSize st)
    (htouch : Touches p st st') (h : Answers sNetSendSize p c i st st')
    (hp : st.g_oCPipePool.inUse p = true) (hc : c = st.conn p) :
    Isolated sNetSendSize st' := by
  subst hc
  have hwf := hI.wf p
  have hlog := h.log hwf
  have halone := h.alone hwf
  -- The log of the connection grows by its answer, and no other log does.
  have hself : entries (st.conn p) st'.log = entries (st.conn p) st.log
      ++ [(i, ((st.pipe p).alone.step sNetSendSize i).2)] := by
    rw [hlog, entries_append, entries_self]
  have hother : ∀ d, d ≠ st.conn p → entries d st'.log = entries d st.log := by
    intro d hd
    rw [hlog, entries_append, entries_other (Ne.symm hd), List.append_nil]
  have hnow := explains_snoc (hI.current p hp) i
  refine ⟨fun q => ?_, fun q hq => ?_, fun q hq => ?_, fun d => ?_, fun q hq => ?_,
    fun q r hq hr heq => ?_, fun d hd => ?_⟩
  · by_cases hq : q = p
    · rw [hq]
      exact h.wf hwf
    · rw [htouch.other q hq]
      exact hI.wf q
  · rw [htouch.inUse] at hq
    have hne : q ≠ p := by
      rintro rfl
      exact absurd (hp.symm.trans hq) (by decide)
    rw [htouch.other q hne]
    exact hI.free q hq
  · rw [htouch.inUse] at hq
    rw [htouch.conn]
    by_cases hqp : q = p
    · subst hqp
      rw [hself, halone]
      exact hnow
    · -- The other pipes in use belong to other connections.
      rw [htouch.other q hqp, hother _ fun heq => hqp (hI.conn_inj q p hq hp heq)]
      exact hI.current q hq
  · by_cases hd : d = st.conn p
    · rw [hd, hself]
      exact ⟨_, hnow⟩
    · rw [hother d hd]
      exact hI.past d
  · rw [htouch.inUse] at hq
    rw [htouch.conn, htouch.conns]
    exact hI.conn_lt q hq
  · rw [htouch.inUse] at hq hr
    rw [htouch.conn] at heq
    exact hI.conn_inj q r hq hr heq
  · rw [htouch.conns] at hd
    have hlt := hI.conn_lt p hp
    rw [hother d (by omega)]
    exact hI.fresh d hd

/-- A pipe for a new connection is clean, and taking it keeps the invariant. -/
theorem Isolated.create (hpool : st.g_oCPipePool.Inv) (hI : Isolated sNetSendSize st)
    (h : st.Create = some (p, st')) :
    Isolated sNetSendSize st' ∧ (st'.pipe p).Clean := by
  obtain ⟨-, hfree, huse, hkeep, hunit, -⟩ := Create_cases hpool h
  have hlog : st'.log = st.log := by rw [Create_eq h]
  have hconns : st'.conns = st.conns + 1 := by rw [Create_eq h]
  have hconn : ∀ q, st'.conn q = if q = p then st.conns else st.conn q := by
    intro q
    rw [Create_eq h]
  have hwf : ∀ q, (st'.pipe q).StreamsWF := by
    intro q
    rcases hunit q with heq | heq
    · rw [heq]
      exact hI.wf q
    · rw [heq]
      exact CPipe.new_alone.2
  have hclean : ∀ q, st.g_oCPipePool.inUse q = false → (st'.pipe q).alone = .new := by
    intro q hq
    rcases hunit q with heq | heq
    · rw [heq]
      exact hI.free q hq
    · rw [heq]
      exact CPipe.new_alone.1
  have hold : ∀ {q}, q ≠ p → st'.g_oCPipePool.inUse q = true → st.g_oCPipePool.inUse q = true :=
    fun hne hq => ((huse _).mp hq).resolve_left hne
  refine ⟨⟨hwf, fun q hq => ?_, fun q hq => ?_, fun c => ?_, fun q hq => ?_,
    fun q r hq hr heq => ?_, fun c hc => ?_⟩, (CPipe.clean_iff (hwf p)).mpr (hclean p hfree)⟩
  · refine hclean q ?_
    rw [← Bool.not_eq_true]
    intro hq'
    exact absurd (((huse q).mpr (.inr hq')).symm.trans hq) (by decide)
  · rw [hlog, hconn]
    by_cases hqp : q = p
    · subst hqp
      -- The new connection has no log yet, and its pipe is as new.
      rw [if_pos rfl, hI.fresh _ (Nat.le_refl _), hclean q hfree]
      exact explains_nil _
    · rw [if_neg hqp, hkeep q (hold hqp hq)]
      exact hI.current q (hold hqp hq)
  · rw [hlog]
    exact hI.past c
  · rw [hconn, hconns]
    by_cases hqp : q = p
    · rw [if_pos hqp]
      exact Nat.lt_succ_self _
    · rw [if_neg hqp]
      exact Nat.lt_succ_of_lt (hI.conn_lt q (hold hqp hq))
  · rw [hconn, hconn] at heq
    by_cases hqp : q = p <;> by_cases hrp : r = p
    · rw [hqp, hrp]
    · rw [if_pos hqp, if_neg hrp] at heq
      -- The number of the new connection is past all others.
      exact absurd heq (Nat.ne_of_gt (hI.conn_lt r (hold hrp hr)))
    · rw [if_neg hqp, if_pos hrp] at heq
      exact absurd heq (Nat.ne_of_lt (hI.conn_lt q (hold hqp hq)))
    · rw [if_neg hqp, if_neg hrp] at heq
      exact hI.conn_inj q r (hold hqp hq) (hold hrp hr) heq
  · rw [hconns] at hc
    rw [hlog]
    exact hI.fresh c (by omega)

/-- A clean pipe may be given back. -/
theorem Isolated.recover (hpool : st.g_oCPipePool.Inv) (hI : Isolated sNetSendSize st)
    (hclean : (st.pipe p).Clean) : Isolated sNetSendSize (st.Recover p) := by
  obtain ⟨-, hpipe, huse⟩ := Recover_cases hpool p
  have hold : ∀ {q}, (st.Recover p).g_oCPipePool.inUse q = true →
      st.g_oCPipePool.inUse q = true := fun hq => ((huse _).mp hq).2
  refine ⟨?_, fun q hq => ?_, ?_, hI.past, fun q hq => hI.conn_lt q (hold hq),
    fun q r hq hr heq => hI.conn_inj q r (hold hq) (hold hr) heq, hI.fresh⟩
  · rw [hpipe]
    exact hI.wf
  · rw [hpipe]
    by_cases hqp : q = p
    · rw [hqp]
      exact (CPipe.clean_iff (hI.wf p)).mp hclean
    · refine hI.free q ?_
      rw [← Bool.not_eq_true]
      intro hq'
      exact absurd (((huse q).mpr ⟨hqp, hq'⟩).symm.trans hq) (by decide)
  · rw [hpipe]
    exact fun q hq => hI.current q (hold hq)

/-- A step that keeps the connections apart keeps the invariant. -/
theorem Isolated.step {a : EngineAction} (hframes : FramesInv st)
    (hI : Isolated sNetSendSize st) (hsep : Separated st a)
    (h : Engine.step sNetSendSize st a = some st') : Isolated sNetSendSize st' := by
  have hpool := hframes.pool
  cases step_happens h with
  | connect hc hx _ => exact ((hI.create hpool hc).1.set hx).congr rfl rfl rfl rfl
  | noConnect hc hx => exact ((hI.create hpool hc).1.set hx).congr rfl rfl rfl rfl
  | accept _ hc => exact (hI.create hpool hc).1.congr rfl rfl rfl rfl
  | noAccept _ hc =>
      obtain ⟨hI₁, hclean⟩ := hI.create hpool hc
      exact hI₁.recover (Create_cases hpool hc).1 hclean
  | @client client w ok p socket frames x st₁ _ _ hx _ heq hcases htouch =>
      subst heq
      have hI₁ : Isolated sNetSendSize { st with frames } := hI.congr rfl rfl rfl rfl
      have hI₂ : Isolated sNetSendSize (({ st with frames }.set p x).setPipe client p) :=
        (hI₁.set hx).congr rfl rfl rfl rfl
      rcases hcases with hcase | hcase
      · rw [hcase]
        exact hI₂
      · rw [hcase] at htouch ⊢
        exact hI₂.keeps htouch (post_keeps _ p _)
  | @noClient w ok p socket frames hframes' =>
      have hI' : Isolated sNetSendSize { st with frames } := hI.congr rfl rfl rfl rfl
      -- The pipe that goes back is clean by the condition.
      refine hI'.recover hpool (hsep (.MallocConnection p socket) ?_)
      rw [hframes']
      rfl
  | @recover p frames hframes' =>
      have hI' : Isolated sNetSendSize { st with frames } := hI.congr rfl rfl rfl rfl
      refine hI'.recover hpool (hsep (.Recover p) ?_)
      rw [hframes']
      rfl
  | @event w nUse e queue _ _ hqueue hbreak hfailed hevent htouch _ =>
      have hI' : Isolated sNetSendSize (st.readEvent w queue) := hI.congr rfl rfl rfl rfl
      have htouch' := (processEvent_touches hevent hbreak hfailed).1
      rcases @processEvent_answers _ _ sNetSendSize _ _ hevent hbreak hfailed with
        hkeep | ⟨hsize, hans⟩
      · exact hI'.keeps htouch' hkeep
      · -- Only a pipe in use has bytes to offer.
        refine hI'.answers htouch' hans ?_ rfl
        rw [← Bool.not_eq_false]
        intro hfree
        have hclean := (CPipe.clean_iff (hI'.wf e.pCPipe)).mpr (hI'.free e.pCPipe hfree)
        exact hsize hclean.recv
  | finish _ _ _ _ heq _ =>
      subst heq
      refine (Isolated.set ?_ ?_).congr rfl rfl rfl rfl
      · exact hI.congr rfl rfl rfl rfl
      · exact ⟨rfl, rfl, rfl⟩
  | @Send client src p _ hp hsend htouch _ =>
      obtain ⟨huse, hconn⟩ := hsep p hp
      exact hI.answers htouch (Send_answers hp hsend) huse hconn
  | Close _ htouch => exact hI.keeps htouch (set_keeps ⟨rfl, rfl, rfl⟩)
  | @Run w i result ok op st₁ hop _ _ heq htouch =>
      subst heq
      have hI' : Isolated sNetSendSize { st with outstanding := st.outstanding.eraseIdx i } :=
        hI.congr rfl rfl rfl rfl
      rcases @dispatch_answers sNetSendSize
        { st with outstanding := st.outstanding.eraseIdx i } w op result ok with
        hkeep | ⟨⟨hcheck, hopt⟩, j, hans⟩
      · exact hI'.keeps htouch hkeep
      · -- A completion that is answered belongs to the connection that has the pipe now.
        obtain ⟨huse, hconn⟩ := hsep op hop hcheck hopt
        exact hI'.answers htouch hans huse hconn

/-- A pipe that `Create` hands out is clean. -/
def CreatesClean (st : Engine) : Prop :=
  ∀ p st', st.Create = some (p, st') → (st'.pipe p).Clean

/-- The inputs of the connection `c`. -/
def inputs (c : Nat) (st : Engine) : List Input := (entries c st.log).map Prod.fst

/-- What the connection `c` did with them. -/
def answers (c : Nat) (st : Engine) : List Output := (entries c st.log).map Prod.snd

/-- A run that keeps the connections apart keeps the invariant. -/
theorem run_isolated {as : List EngineAction} {st : Engine}
    (hsep : AllSteps (step sNetSendSize) Separated init as)
    (h : run (step sNetSendSize) init as = some st) :
    FramesInv st ∧ Isolated sNetSendSize st :=
  run_invariant_of (I := fun st => FramesInv st ∧ Isolated sNetSendSize st)
    (fun _ _ _ hI hs h => ⟨hI.1.step h, hI.2.step hI.1 hs h⟩) ⟨framesInv_init, isolated_init⟩
    hsep h

/-- A client is accepted and sends the byte `b`, which its session does not use. It goes, and
63 other connections take a pipe and give it back. The next client gets the first pipe, and
sends the byte `2`. -/
def leakRun (b : UInt8) : List EngineAction :=
  [.CompletedAccept 5 true, .MallocConnection (some 0) 0 true, .Run 0 0 .ofPacket true,
    .Run 0 0 { bytes := [b], code := 0 } true, .Processing 0 0,
    .Run 0 0 { bytes := [], code := 0 } true, .Processing 0 0, .Recover] ++
  (List.replicate 63 [.AddClient 1 0 .noSocket, .Recover]).flatten ++
  [.CompletedAccept 6 true, .MallocConnection (some 1) 0 true, .Run 0 0 .ofPacket true,
    .Run 0 0 { bytes := [2], code := 0 } true, .Processing 0 0]

/-- In a run that keeps the connections apart every pipe that is handed out is clean. What a
connection does depends on what reaches it and on nothing else, also from one such run to
another. It offers bytes that it received to `OnRecv`, and sends bytes of its `Send` calls. -/
theorem isolation {sNetSendSize : Nat} {as as' : List EngineAction} {st st' : Engine}
    (hsep : AllSteps (step sNetSendSize) Separated init as)
    (h : run (step sNetSendSize) init as = some st)
    (hsep' : AllSteps (step sNetSendSize) Separated init as')
    (h' : run (step sNetSendSize) init as' = some st') :
    Throughout (step sNetSendSize) CreatesClean init as ∧
      (∀ c c', inputs c st = inputs c' st' → answers c st = answers c' st') ∧
      (∀ c bytes, .offered bytes ∈ answers c st → bytes <:+: Alone.received (inputs c st)) ∧
      ∀ c bytes, .WSASend bytes ∈ answers c st → bytes <:+: Alone.sends (inputs c st) := by
  have hI := (run_isolated hsep h).2
  have hI' := (run_isolated hsep' h').2
  refine ⟨?_, fun c c' hin => ?_, fun c bytes hmem => ?_, fun c bytes hmem => ?_⟩
  · rintro bs ⟨cs, rfl⟩ t ht p t' hc
    obtain ⟨hframes, hIt⟩ := run_isolated ((allSteps_append ht).mp hsep).1 ht
    exact (hIt.create hframes.pool hc).2
  · obtain ⟨o, ho⟩ := hI.past c
    obtain ⟨o', ho'⟩ := hI'.past c'
    exact ho.outputs_unique ho' hin
  · obtain ⟨o, ho⟩ := hI.past c
    rw [answers, ho.outputs] at hmem
    exact Alone.offered_own hmem
  · obtain ⟨o, ho⟩ := hI.past c
    rw [answers, ho.outputs] at hmem
    exact Alone.sent_own hmem

/-- The next client gets a pipe with the byte in it. For two values of the byte its own inputs
are the same, and it is offered something else. -/
theorem leak :
    ((run (step 4096) init ((leakRun 1).take 134)).bind Create).map
        (fun r => (r.2.pipe r.1).m_oRecvStream.size) = some 1 ∧
      (run (step 4096) init (leakRun 1)).map (inputs 64)
        = (run (step 4096) init (leakRun 9)).map (inputs 64) ∧
      (run (step 4096) init (leakRun 1)).map (answers 64)
        = some [.silent, .offered [1, 2]] ∧
      (run (step 4096) init (leakRun 9)).map (answers 64)
        = some [.silent, .offered [9, 2]] := by
  decide +kernel

/-- The same with a session that uses the byte. -/
def cleanRun (b : UInt8) : List EngineAction :=
  [.CompletedAccept 5 true, .MallocConnection (some 0) 0 true, .Run 0 0 .ofPacket true,
    .Run 0 0 { bytes := [b], code := 0 } true, .Processing 0 1,
    .Run 0 0 { bytes := [], code := 0 } true, .Processing 0 0, .Recover] ++
  (List.replicate 63 [.AddClient 1 0 .noSocket, .Recover]).flatten ++
  [.CompletedAccept 6 true, .MallocConnection (some 1) 0 true, .Run 0 0 .ofPacket true,
    .Run 0 0 { bytes := [2], code := 0 } true, .Processing 0 0]

/-- The next client gets the first pipe again. For two values of the byte of the first client its
own inputs are the same, and so it is offered the same, its own byte. -/
theorem isolation_clean : ∃ st st',
    run (step 4096) init (cleanRun 1) = some st ∧ run (step 4096) init (cleanRun 9) = some st' ∧
      (st.conn 0 = 64 ∧ st'.conn 0 = 64) ∧ answers 0 st ≠ answers 0 st' ∧
      Throughout (step 4096) CreatesClean init (cleanRun 1) ∧
      answers 64 st = answers 64 st' ∧
      ∀ bytes, .offered bytes ∈ answers 64 st → bytes <:+: Alone.received (inputs 64 st) := by
  have hsep : AllSteps (step 4096) Separated init (cleanRun 1) := by decide +kernel
  have hsep' : AllSteps (step 4096) Separated init (cleanRun 9) := by decide +kernel
  have hpair : ((run (step 4096) init (cleanRun 1)).bind fun st =>
      (run (step 4096) init (cleanRun 9)).map fun st' =>
        (decide (st.conn 0 = 64 ∧ st'.conn 0 = 64), decide (answers 0 st ≠ answers 0 st'),
          decide (inputs 64 st = inputs 64 st'))) = some (true, true, true) := by
    decide +kernel
  obtain ⟨st, hst, hrest⟩ := Option.bind_eq_some_iff.mp hpair
  obtain ⟨st', hst', hfacts⟩ := Option.map_eq_some_iff.mp hrest
  simp only [Prod.mk.injEq, decide_eq_true_eq] at hfacts
  obtain ⟨hconn, hother, hinputs⟩ := hfacts
  obtain ⟨hclean, hsame, hoffered, -⟩ := isolation hsep hst hsep' hst'
  exact ⟨st, st', hst, hst', hconn, hother, hclean, hsame 64 64 hinputs, hoffered 64⟩

end Engine

end Kernel4GameServer.Iocp
