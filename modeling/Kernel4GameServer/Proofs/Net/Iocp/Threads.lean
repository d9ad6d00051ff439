import Kernel4GameServer.Net.Iocp.Threads
import Kernel4GameServer.Proofs.Net.Iocp.EngineSteps
import Kernel4GameServer.Proofs.Net.Iocp.PipeUseSteps

/-!
# `Kernel4GameServer.Proofs.Net.Iocp.Threads`: the whole steps of the engine as runs of its threads

`Net.Iocp.Engine` takes an iteration of `Run` and a `Send` as one step, `Net.Iocp.Threads` cuts
them. With nothing in between the parts lead to what the whole step leads to:
`iteration_reaches` for `Run` and `send_parts` for `Send`. So every run of the engine is a run of
its threads (`engine_run`).
-/

set_option autoImplicit false

namespace Kernel4GameServer.Iocp

open Lib

/-- `DoRecv` as one case distinction. -/
theorem Engine.DoRecv_cases (st : Engine) (p : Nat) (ok : Bool) :
    st.DoRecv p ok =
      if (st.pipe p).m_nStatus = .SS_ESTABLISHED then
        (if ok then (st.set p ((st.pipe p).formatRecv .SO_TCPRECV)).start p .m_pRecvEvent false
          else st.set p ((st.pipe p).formatRecv .SO_TCPRECV), ok)
      else (st.set p ((st.pipe p).formatRecv .SO_TCPRECV), !(st.pipe p).m_bNeedPostOPT) := by
  unfold DoRecv
  rw [CPipe.DoRecv_eq]
  by_cases hstatus : (st.pipe p).m_nStatus = .SS_ESTABLISHED
  · rw [if_pos hstatus, if_pos hstatus]
  · rw [if_neg hstatus, if_neg hstatus]
    simp

namespace Threads

variable {st st' : Threads} {sNetSendSize w : Nat} {ok : Bool}

/-- The worker `w` goes on without a break from `st` to `st'`. -/
def Reaches (sNetSendSize w : Nat) (ok : Bool) (st st' : Threads) : Prop :=
  ∃ n, run (step sNetSendSize) st (List.replicate n (.Run w ok)) = some st'

/-- One more step. -/
theorem Reaches.head {st₁ : Threads} (h : st.runWorker sNetSendSize w ok = some st₁)
    (hrest : Reaches sNetSendSize w ok st₁ st') : Reaches sNetSendSize w ok st st' := by
  obtain ⟨n, hn⟩ := hrest
  refine ⟨n + 1, ?_⟩
  rw [List.replicate_succ, run_cons, show step sNetSendSize st (.Run w ok) = some st₁ from h]
  exact hn

/-- The last step. -/
theorem Reaches.last (h : st.runWorker sNetSendSize w ok = some st') :
    Reaches sNetSendSize w ok st st' :=
  ⟨1, (run_singleton st _).trans h⟩

/-- The worker `w` is at `x`, and the engine at `engine`. -/
def place (st : Threads) (w : Nat) (x : RunWorker) (engine : Engine) : Threads :=
  { st.go w x with engine := engine }

@[simp] theorem place_worker (st : Threads) (w : Nat) (x : RunWorker) (engine : Engine) :
    (st.place w x engine).worker w = x := if_pos rfl

@[simp] theorem place_engine (st : Threads) (w : Nat) (x : RunWorker) (engine : Engine) :
    (st.place w x engine).engine = engine := rfl

@[simp] theorem place_locked (st : Threads) (w : Nat) (x : RunWorker) (engine : Engine) :
    (st.place w x engine).locked = st.locked := rfl

/-- Where a worker has been does not matter behind its next step. -/
@[simp] theorem place_place (st : Threads) (w : Nat) (x y : RunWorker) (engine engine' : Engine) :
    (st.place w x engine).place w y engine' = st.place w y engine' := by
  simp only [place, go, Threads.mk.injEq, true_and, and_true]
  funext v
  split <;> rfl

@[simp] theorem place_go (st : Threads) (w : Nat) (x y : RunWorker) (engine : Engine) :
    (st.place w x engine).go w y = st.place w y engine :=
  place_place st w x y engine engine

/-- `SendDisconnectEvent` ends an iteration. -/
theorem disconnect_reaches (op : Operation) (engine : Engine) :
    Reaches sNetSendSize w ok (st.place w (.disconnect op) engine)
      (st.place w .wait (engine.SendDisconnectEvent w op.socket_handler op.pCPipe)) := by
  refine .last ?_
  rw [runWorker, place_worker]
  exact congrArg some (place_place st w _ _ _ _)

/-- `DoRecv` has returned, and the worker does what its caller does with the result. -/
theorem recvDone_reaches (op : Operation) (received res : Bool) (x : RunWorker)
    (engine : Engine) :
    Reaches sNetSendSize w ok ((st.place w x engine).recvDone w op received res)
      (st.place w .wait
        (if received then
          if res then engine.Add w .RECV op.pCPipe
          else engine.SendDisconnectEvent w op.socket_handler op.pCPipe
        else engine)) := by
  unfold recvDone
  rw [place_go, place_go]
  cases received with
  | false => exact ⟨0, rfl⟩
  | true =>
      cases res with
      | true => exact ⟨0, rfl⟩
      | false => exact disconnect_reaches op engine

/-- From the test of `m_nStatus` on: `DoRecv`, and what its caller does with the result. -/
theorem doRecv_reaches (op : Operation) (received : Bool) (engine : Engine) :
    Reaches sNetSendSize w ok (st.place w (.doRecv op received) engine) (st.place w .wait
      (if received then
        if (engine.DoRecv op.pCPipe ok).2 then (engine.DoRecv op.pCPipe ok).1.Add w .RECV op.pCPipe
        else (engine.DoRecv op.pCPipe ok).1.SendDisconnectEvent w op.socket_handler op.pCPipe
      else (engine.DoRecv op.pCPipe ok).1)) := by
  have hrun : (st.place w (.doRecv op received) engine).runWorker sNetSendSize w ok
      = some ((st.place w (.doRecv op received) engine).doRecv w op received ok) := by
    rw [runWorker, place_worker]
  refine .head hrun ?_
  rw [Engine.DoRecv_cases]
  unfold doRecv CPipe.doRecvStatus
  by_cases hstatus : (engine.pipe op.pCPipe).m_nStatus = .SS_ESTABLISHED
  · have hformat : ((engine.pipe op.pCPipe).formatRecv .SO_TCPRECV).m_nStatus
        = .SS_ESTABLISHED := hstatus
    simp only [place_engine, hstatus, hformat, if_true]
    cases ok with
    | true => exact recvDone_reaches op received true (.doRecv op received) _
    | false => exact recvDone_reaches op received false (.doRecv op received) _
  · have hformat : ((engine.pipe op.pCPipe).formatRecv .SO_TCPRECV).m_nStatus
        ≠ .SS_ESTABLISHED := hstatus
    simp only [place_engine, hstatus, hformat, if_false]
    show Reaches sNetSendSize w ok ((st.place w (.doRecv op received) _).go w _) _
    rw [place_go]
    -- `m_bNeedPostOPT` is read in a step of its own.
    refine .head ?_ (recvDone_reaches op received _ (.doRecvFlag op received) _)
    rw [runWorker, place_worker]
    dsimp only
    rw [place_engine, Engine.set_pipe_self]
    rfl

/-- The case SO_ACCEPT. -/
theorem accept_reaches (op : Operation) (engine : Engine) :
    Reaches sNetSendSize w ok (st.place w (.relate op) engine)
      (st.place w .wait (engine.runAccept w op ok)) := by
  have hrelate : (st.place w (.relate op) engine).runWorker sNetSendSize w ok
      = some (st.place w (.acceptStatus op) (engine.RelateSocketClient w
          (engine.pipe op.pCPipe).m_lSocketHandler op.pCPipe)) := by
    rw [runWorker, place_worker]
    dsimp only
    rw [place_go]
    rfl
  refine .head hrelate ?_
  unfold Engine.runAccept
  dsimp only
  generalize engine.RelateSocketClient w (engine.pipe op.pCPipe).m_lSocketHandler op.pCPipe
    = engine
  have htest : (st.place w (.acceptStatus op) engine).runWorker sNetSendSize w ok
      = some (st.place w (if (engine.pipe op.pCPipe).m_nStatus = .SS_ESTABLISHED then
          .doRecv op false else .acceptFlag op) engine) := by
    rw [runWorker, place_worker]
    dsimp only
    rw [place_go, place_engine]
  refine .head htest ?_
  by_cases hstatus : (engine.pipe op.pCPipe).m_nStatus = .SS_ESTABLISHED
  · rw [if_pos hstatus, if_pos hstatus]
    exact doRecv_reaches op false engine
  · rw [if_neg hstatus, if_neg hstatus]
    have hflag : (st.place w (.acceptFlag op) engine).runWorker sNetSendSize w ok
        = some (st.place w (if (engine.pipe op.pCPipe).m_bNeedPostOPT then .disconnect op
            else .wait) engine) := by
      rw [runWorker, place_worker]
      dsimp only
      rw [place_go, place_engine]
    refine .head hflag ?_
    cases (engine.pipe op.pCPipe).m_bNeedPostOPT with
    | true => exact disconnect_reaches op engine
    | false => exact ⟨0, rfl⟩

/-- The lock is free again. -/
theorem free_locked (st : Threads) {p : Nat} (h : st.locked p = false) :
    (st.setLocked p true).setLocked p false = st := by
  obtain ⟨engine, worker, locked, sending⟩ := st
  simp only [setLocked, Threads.mk.injEq, true_and, and_true]
  funext q
  by_cases hq : q = p
  · rw [if_pos hq, hq]
    exact h.symm
  · rw [if_neg hq, if_neg hq]

/-- `Out`, and what its caller does with the result. The lock is free before it and behind it. -/
theorem out_reaches (op : Operation) (nIOBytes : Nat) (engine : Engine)
    (hlock : st.locked op.pCPipe = false) :
    Reaches sNetSendSize w ok (st.place w (.outTake op nIOBytes) engine) (st.place w .wait
      (if (engine.Out sNetSendSize op.pCPipe op.conn nIOBytes ok).2 then
        (engine.Out sNetSendSize op.pCPipe op.conn nIOBytes ok).1
      else (engine.Out sNetSendSize op.pCPipe op.conn nIOBytes ok).1.SendDisconnectEvent w
        op.socket_handler op.pCPipe)) := by
  have hfree : ∀ (x : RunWorker) (e : Engine),
      ((st.setLocked op.pCPipe true).place w x e).setLocked op.pCPipe false
        = st.place w x e := fun x e => by
    rw [← congrArg (fun t : Threads => t.place w x e) (free_locked st hlock)]
    rfl
  have htake : (st.place w (.outTake op nIOBytes) engine).runWorker sNetSendSize w ok
      = some ((st.setLocked op.pCPipe true).place w (.outTest op nIOBytes)
          (engine.set op.pCPipe ((engine.pipe op.pCPipe).outTake nIOBytes))) := by
    rw [runWorker, place_worker]
    dsimp only
    rw [place_locked, hlock, place_go]
    rfl
  refine .head htake ?_
  unfold Engine.Out
  rw [CPipe.outSection_eq]
  dsimp only
  generalize (engine.pipe op.pCPipe).outTake nIOBytes = x
  generalize hS : st.setLocked op.pCPipe true = locked at hfree
  have htest : (locked.place w (.outTest op nIOBytes) (engine.set op.pCPipe x)).runWorker
      sNetSendSize w ok = some (if x.outTest.2 then
        st.place w (.outStatus op) ((engine.set op.pCPipe x.outTest.1).record op.conn
          (.sent nIOBytes ok) .silent)
      else locked.place w (.outLook op nIOBytes) (engine.set op.pCPipe x)) := by
    rw [runWorker, place_worker]
    dsimp only
    rw [place_engine, Engine.set_pipe_self, place_go, place_go, Engine.set_set, ← hfree]
    rfl
  refine .head htest ?_
  cases hempty : x.outTest.2 with
  | true =>
      have hstatus : x.outTest.1.m_nStatus = x.m_nStatus := by
        unfold CPipe.outTest
        split <;> rfl
      have hclose : (st.place w (.outStatus op) ((engine.set op.pCPipe x.outTest.1).record op.conn
          (.sent nIOBytes ok) .silent)).runWorker sNetSendSize w ok
          = some (st.place w (if x.m_nStatus = .SS_WAITCLOSE then .disconnect op else .wait)
            ((engine.set op.pCPipe x.outTest.1).record op.conn (.sent nIOBytes ok) .silent)) := by
        rw [runWorker, place_worker]
        dsimp only
        have hpipe : ((engine.set op.pCPipe x.outTest.1).record op.conn (.sent nIOBytes ok)
            .silent).pipe op.pCPipe = x.outTest.1 := Engine.set_pipe_self engine _ _
        rw [place_go, place_engine, hpipe, hstatus]
      refine .head hclose ?_
      simp only [if_true]
      dsimp only [OutEnd.output]
      by_cases hwait : x.m_nStatus = .SS_WAITCLOSE
      · have hres : x.outTest.1.outResult .emptied = false := by
          simp [CPipe.outResult, hstatus, hwait]
        rw [if_pos hwait, hres]
        exact disconnect_reaches op _
      · have hres : x.outTest.1.outResult .emptied = true := by
          simp [CPipe.outResult, hstatus, hwait]
        rw [if_neg hwait, hres]
        exact ⟨0, rfl⟩
  | false =>
      have hlook : (locked.place w (.outLook op nIOBytes) (engine.set op.pCPipe x)).runWorker
          sNetSendSize w ok = some (locked.place w
            (.outIssue op nIOBytes (x.outLong sNetSendSize))
            (engine.set op.pCPipe x.formatSend)) := by
        rw [runWorker, place_worker]
        dsimp only
        rw [place_go, place_engine, Engine.set_pipe_self, Engine.set_set]
        rfl
      refine .head hlook ?_
      have hview : x.formatSend.outView sNetSendSize (x.outLong sNetSendSize)
          = x.outView sNetSendSize (x.outLong sNetSendSize) := rfl
      generalize x.outLong sNetSendSize = long at hview ⊢
      have hissue : (locked.place w (.outIssue op nIOBytes long)
          (engine.set op.pCPipe x.formatSend)).runWorker sNetSendSize w ok
          = some (if ok then
              st.place w .wait (((engine.set op.pCPipe x.formatSend).record op.conn
                (.sent nIOBytes ok) (.WSASend (x.outView sNetSendSize long).bytes)).start
                  op.pCPipe .m_pSendEvent false)
            else
              st.place w (.disconnect op) ((engine.set op.pCPipe x.formatSend).record op.conn
                (.sent nIOBytes ok) .silent)) := by
        rw [runWorker, place_worker]
        dsimp only
        rw [place_engine, Engine.set_pipe_self, place_go, place_go, hview, ← hfree, ← hfree]
        rfl
      refine .head hissue ?_
      cases ok with
      | true => exact ⟨0, rfl⟩
      | false => exact disconnect_reaches op _

/-- The whole iteration behind `GetQueuedCompletionStatus`. -/
theorem dispatch_reaches (op : Operation) (result : Completion) (engine : Engine)
    (hlock : st.locked op.pCPipe = false) :
    Reaches sNetSendSize w ok
      (st.place w (if result.code = WAIT_TIMEOUT then .wait else .dispatch op result) engine)
      (st.place w .wait (engine.dispatch sNetSendSize w op result ok)) := by
  unfold Engine.dispatch
  split
  · exact ⟨0, rfl⟩
  · have hdispatch : (st.place w (.dispatch op result) engine).runWorker sNetSendSize w ok
        = some ((st.place w (.dispatch op result) engine).dispatch w op result) := by
      rw [runWorker, place_worker]
    refine .head hdispatch ?_
    unfold dispatch
    dsimp only
    rw [place_engine]
    cases (engine.event op.pCPipe op.slot).opt with
    | SO_CONNECT =>
        dsimp only
        rw [place_go]
        exact ⟨0, rfl⟩
    | SO_ACCEPT =>
        dsimp only
        rw [place_go]
        exact accept_reaches op engine
    | SO_TCPRECV =>
        simp only [place_go]
        unfold Engine.runRecv
        dsimp only
        split
        · split
          · exact doRecv_reaches op true _
          · exact disconnect_reaches op engine
        · exact ⟨0, rfl⟩
    | SO_TCPSEND =>
        simp only [place_go]
        unfold Engine.runSend
        dsimp only
        split
        · split
          · exact out_reaches op result.nIOBytes engine hlock
          · exact ⟨0, rfl⟩
        · exact ⟨0, rfl⟩

/-- No other thread is on its way. -/
theorem idle_place (engine engine' : Engine) (w : Nat) :
    (idle engine).place w .wait engine' = idle engine' := by
  simp only [idle, place, go, Threads.mk.injEq, true_and, and_true]
  funext v
  split <;> rfl

/-- An iteration of `Run` with nothing in between is the whole one. -/
theorem iteration_reaches {engine engine' : Engine} {i : Nat} {result : Completion}
    (h : Engine.Run sNetSendSize engine w i result ok = some engine') :
    ∃ n, run (step sNetSendSize) (idle engine)
      (.GetQueuedCompletionStatus w i result :: List.replicate n (.Run w ok))
      = some (idle engine') := by
  obtain ⟨op, hop, hport, hposted, rfl⟩ := Engine.Run_cases h
  have htake : step sNetSendSize (idle engine) (.GetQueuedCompletionStatus w i result)
      = some ((idle engine).place w
        (if result.code = WAIT_TIMEOUT then .wait else .dispatch op result)
        { engine with outstanding := engine.outstanding.eraseIdx i }) := by
    simp only [step, idle, hop]
    rw [if_pos ⟨hport, hposted⟩]
    rfl
  have hrest : Reaches sNetSendSize w ok ((idle engine).place w
      (if result.code = WAIT_TIMEOUT then .wait else .dispatch op result)
      { engine with outstanding := engine.outstanding.eraseIdx i }) _ :=
    dispatch_reaches op result _ rfl
  obtain ⟨n, hn⟩ := hrest
  refine ⟨n, ?_⟩
  rw [run_cons, htake]
  exact hn.trans (congrArg some (idle_place _ _ w))

/-- What `in` goes on with behind a part of it. -/
theorem io_setIo (st : Threads) (s : Sending) (io : StreamState BUFF_SIZE) :
    (st.setIo s io).io { s with writer := io.writer }
      = { st.io s with stream := io.stream, writer := io.writer } := by
  simp only [Threads.io, setIo, Engine.set_pipe_self]
  rfl

/-- Only the last of two parts counts. -/
theorem setIo_setIo (st : Threads) (s : Sending) (io io' : StreamState BUFF_SIZE) :
    (st.setIo s io).setIo { s with writer := io.writer } io' = st.setIo s io' := by
  simp only [setIo, Engine.set_pipe_self, Engine.set_set]

/-- The main thread in `in`: the next part of it. -/
theorem append_step {s : Sending} {a : StreamAction} {io : StreamState BUFF_SIZE}
    (hs : st.sending = some s) (ha : goesOn a = true) (hio : (st.io s).step a = some io) :
    step sNetSendSize st (.append a) = some (st.setIo s io) := by
  simp only [step, hs, ha, if_true, hio, Option.map_some]

/-- The parts of `in` with nothing in between are the whole `in`. -/
theorem in_parts {s : Sending} (hs : st.sending = some s) (hlock : st.locked s.pCPipe = false)
    (hwriter : s.writer = .planned
      ((st.engine.pipe s.pCPipe).m_oSendStream.inPlan s.src.length) s.src) :
    run (step sNetSendSize) st [.append .relocate, .append .copy, .append .advance]
      = some { st with
          engine := st.engine.set s.pCPipe
            ((st.engine.pipe s.pCPipe).sendIn (Mem.ofList s.src 0) s.src.length)
          sending := some { s with writer := .idle } } := by
  have hio : st.io s = { stream := (st.engine.pipe s.pCPipe).m_oSendStream
                         writer := s.writer, reader := .idle, written := [], taken := [] } := by
    rw [Threads.io, hlock]
    rfl
  have hrelocate : ∃ io, (st.io s).step .relocate = some io ∧
      io.stream = (st.engine.pipe s.pCPipe).m_oSendStream.relocate
        ((st.engine.pipe s.pCPipe).m_oSendStream.inPlan s.src.length) ∧
      io.writer = .relocated s.src := by
    rw [hio, hwriter]
    cases (st.engine.pipe s.pCPipe).m_oSendStream.inPlan s.src.length with
    | stay => exact ⟨_, rfl, rfl, rfl⟩
    | grow n => exact ⟨_, rfl, rfl, rfl⟩
    | compact => exact ⟨_, rfl, rfl, rfl⟩
  obtain ⟨io, hstep, hstream, hrelocated⟩ := hrelocate
  rw [run_cons, append_step hs rfl hstep, Option.bind_some, run_cons]
  have hcopy : ((st.setIo s io).io { s with writer := io.writer }).step .copy
      = some { st.io s with
          stream := io.stream.copyIn (Mem.ofList s.src 0) s.src.length
          writer := .copied s.src } := by
    rw [io_setIo, hrelocated]
    rfl
  rw [append_step rfl rfl hcopy, setIo_setIo, Option.bind_some, run_cons]
  have hadvance : ∀ x : TStream BUFF_SIZE,
      ((st.setIo s { st.io s with stream := x, writer := .copied s.src }).io
        { s with writer := .copied s.src }).step .advance
      = some { st.io s with
          stream := x.advance s.src.length
          writer := .idle
          written := (st.io s).written ++ s.src } := fun x => by
    rw [io_setIo st s { st.io s with stream := x, writer := .copied s.src }]
    rfl
  rw [append_step rfl rfl (hadvance _), Option.bind_some, run_nil]
  refine congrArg some ?_
  refine (setIo_setIo st s { st.io s with
    stream := io.stream.copyIn (Mem.ofList s.src 0) s.src.length
    writer := .copied s.src } _).trans ?_
  rw [hstream]
  rfl

/-- The parts of a `Send` with nothing in between are the whole one. -/
theorem send_parts {engine engine' : Engine} {client : Nat} {src : List UInt8}
    (h : engine.Send client src = some engine') :
    run (step sNetSendSize) (idle engine)
      [.Send client src, .append .relocate, .append .copy, .append .advance, .sendLocked]
      = some (idle engine') := by
  unfold Engine.Send at h
  split at h
  · cases h
  · rename_i p hp
    cases h
    have hSend : step sNetSendSize (idle engine) (.Send client src) = some { idle engine with
        sending := some
          { client
            src
            pCPipe := p
            writer := .planned ((engine.pipe p).m_oSendStream.inPlan src.length) src } } := by
      simp only [step, idle, hp]
    rw [run_cons, hSend, Option.bind_some]
    have happend : [ThreadAction.append .relocate, .append .copy, .append .advance, .sendLocked]
        = [.append .relocate, .append .copy, .append .advance] ++ [.sendLocked] := rfl
    rw [happend, run_append, in_parts rfl rfl rfl, Option.bind_some, run_singleton]
    show some (sendLocked _ _) = _
    unfold sendLocked
    dsimp only
    rw [Engine.set_pipe_self, Engine.set_set]
    rfl

/-- Every run of the engine is a run of its threads. -/
theorem engine_run {as : List EngineAction} {engine : Engine}
    (h : run (Engine.step sNetSendSize) .init as = some engine) :
    ∃ bs, run (step sNetSendSize) init bs = some (idle engine) := by
  refine run_induction (fun _ e => ∃ bs, run (step sNetSendSize) init bs = some (idle e))
    ⟨[], rfl⟩ ?_ h
  rintro - e a e' - ⟨bs, hbs⟩ ha
  have hmain : a.whole = true → step sNetSendSize (idle e) (.main a) = some (idle e') := by
    intro hwhole
    simp only [step, idle, hwhole, if_true, ha, Option.map_some]
  -- Each step of the engine is a run of the threads from an idle state to an idle one.
  suffices hparts : ∃ cs, run (step sNetSendSize) (idle e) cs = some (idle e') by
    obtain ⟨cs, hcs⟩ := hparts
    exact ⟨bs ++ cs, by rw [run_append, hbs, Option.bind_some, hcs]⟩
  cases a with
  | Send client src => exact ⟨_, send_parts ha⟩
  | Run w i result ok =>
      obtain ⟨n, hn⟩ := iteration_reaches ha
      exact ⟨_, hn⟩
  | _ => exact ⟨[_], (run_singleton _ _).trans (hmain rfl)⟩

end Threads

end Kernel4GameServer.Iocp
