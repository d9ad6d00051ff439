import Kernel4GameServer.Net.Iocp.PipeUse

/-!
# `Kernel4GameServer.Net.Iocp.Threads`: the IOCP engine, thread by thread

`Net.Iocp.Engine` takes an iteration of `iocpworker::Run` and a `Send` of a session as one
step. Here both are cut where another thread can come between, for all pipes and any number
of workers. The cuts are those of `Net.Iocp.PipeUse`: a worker reads `m_nStatus`,
`m_bNeedPostOPT` or the event of an operation once in a step, and the main thread may `Close`
or `Send` before the next one.

What a worker adds to its event queue goes with the step before it. The main thread reads the
queue from the front, so it sees no difference. The append of received bytes is one step too,
`Net.Iocp.Processing` has its parts. A step of the main thread other than `Send` is the one of
`Net.Iocp.Engine`.
-/

set_option autoImplicit false

namespace Kernel4GameServer.Iocp

open Lib

/-- Where a worker is in `Run`, with the operation that it handles. `received` says that
`DoRecv` is called by the case SO_TCPRECV. -/
inductive RunWorker where
  | wait
  | dispatch (op : Operation) (result : Completion)
  | relate (op : Operation)
  | acceptStatus (op : Operation)
  | acceptFlag (op : Operation)
  | doRecv (op : Operation) (received : Bool)
  | doRecvFlag (op : Operation) (received : Bool)
  | outTake (op : Operation) (nIOBytes : Nat)
  | outTest (op : Operation) (nIOBytes : Nat)
  | outLook (op : Operation) (nIOBytes : Nat)
  | outIssue (op : Operation) (nIOBytes : Nat) (long : Bool)
  | outStatus (op : Operation)
  | disconnect (op : Operation)

/-- The pipe that the iteration is about. -/
def RunWorker.pCPipe : RunWorker → Option Nat
  | .wait => none
  | .dispatch op _ => some op.pCPipe
  | .relate op => some op.pCPipe
  | .acceptStatus op => some op.pCPipe
  | .acceptFlag op => some op.pCPipe
  | .doRecv op _ => some op.pCPipe
  | .doRecvFlag op _ => some op.pCPipe
  | .outTake op _ => some op.pCPipe
  | .outTest op _ => some op.pCPipe
  | .outLook op _ => some op.pCPipe
  | .outIssue op _ _ => some op.pCPipe
  | .outStatus op => some op.pCPipe
  | .disconnect op => some op.pCPipe

/-- The main thread in `Send(src, src.length)` of a session. Behind `in` the writer is idle, and
the locked section is next. -/
structure Sending where
  client : Nat
  src : List UInt8
  pCPipe : Nat
  writer : StreamWriter

/-- The engine with its threads. `locked` is the read lock of the send stream of a pipe, as
far as `Out` holds it. The locked sections of the main thread are one step each. -/
structure Threads where
  engine : Engine
  worker : Nat → RunWorker
  locked : Nat → Bool
  sending : Option Sending

/-- The steps: of the main thread, the parts of its `Send`, the next completion of the worker
`w`, and what the worker does next about it. `ok` is the result of WSARecv or WSASend. -/
inductive ThreadAction where
  | main (a : EngineAction)
  | Send (client : Nat) (src : List UInt8)
  | append (a : StreamAction)
  | sendLocked
  | GetQueuedCompletionStatus (w i : Nat) (result : Completion)
  | Run (w : Nat) (ok : Bool)

/-- The steps of the main thread that are not cut. -/
def EngineAction.whole : EngineAction → Bool
  | .Send _ _ => false
  | .Run _ _ _ _ => false
  | _ => true

namespace Threads

/-- No thread is on its way. -/
def idle (engine : Engine) : Threads where
  engine := engine
  worker _ := .wait
  locked _ := false
  sending := none

/-- The engine behind `Initialize`. -/
def init : Threads := idle .init

/-- The worker `w` goes on at `x`. -/
def go (st : Threads) (w : Nat) (x : RunWorker) : Threads :=
  { st with worker := fun v => if v = w then x else st.worker v }

/-- `LockRead()` and `FreeRead()` of the send stream at `p`. -/
def setLocked (st : Threads) (p : Nat) (b : Bool) : Threads :=
  { st with locked := fun q => if q = p then b else st.locked q }

/-! ### The main thread in `Send` -/

/-- The send stream that `in` writes to. -/
def io (st : Threads) (s : Sending) : StreamState BUFF_SIZE where
  stream := (st.engine.pipe s.pCPipe).m_oSendStream
  writer := s.writer
  reader := if st.locked s.pCPipe then .locked else .idle
  written := []
  taken := []

/-- What a step of `in` changes. -/
def setIo (st : Threads) (s : Sending) (io : StreamState BUFF_SIZE) : Threads :=
  { st with
    engine := st.engine.set s.pCPipe
      { st.engine.pipe s.pCPipe with m_oSendStream := io.stream }
    sending := some { s with writer := io.writer } }

/-- The locked section of `Send`. -/
def sendLocked (st : Threads) (s : Sending) : Threads :=
  let r := (st.engine.pipe s.pCPipe).sendSection
  let engine := (st.engine.set s.pCPipe r.1).record (st.engine.pointed s.client) (.Send s.src)
    (if r.2 then .posted else .silent)
  { st with
    engine := if r.2 then engine.post s.pCPipe .m_pSendEvent else engine
    sending := none }

/-! ### A worker -/

/-- `GetQueuedCompletionStatus`, and the test for `WAIT_TIMEOUT`. -/
def take (st : Threads) (w i : Nat) (op : Operation) (result : Completion) : Threads :=
  { st.go w (if result.code = WAIT_TIMEOUT then .wait else .dispatch op result) with
    engine := { st.engine with outstanding := st.engine.outstanding.eraseIdx i } }

/-- The `switch` of `Run`, up to where it reads what the main thread may write. -/
def dispatch (st : Threads) (w : Nat) (op : Operation) (result : Completion) : Threads :=
  let p := op.pCPipe
  match (st.engine.event p op.slot).opt with
  | .SO_CONNECT =>
      { st.go w .wait with
        engine := st.engine.Add w
          (if result.code = ERROR_SUCCESS then .CONNECTED else .CONNECTFAILD) p }
  | .SO_ACCEPT => st.go w (.relate op)
  | .SO_TCPRECV =>
      if st.engine.CheckSocketClient w op.socket_handler p then
        if result.nIOBytes > 0 ∧ result.code = ERROR_SUCCESS then
          { st.go w (.doRecv op true) with engine := st.engine.In p op.conn result.bytes }
        else st.go w (.disconnect op)
      else st.go w .wait
  | .SO_TCPSEND =>
      if st.engine.CheckSocketClient w op.socket_handler p then
        if result.code = ERROR_SUCCESS then st.go w (.outTake op result.nIOBytes)
        -- A send that failed is not reported.
        else st.go w .wait
      else st.go w .wait

/-- `DoRecv` has returned `res`. The case SO_ACCEPT does not look at the result. -/
def recvDone (st : Threads) (w : Nat) (op : Operation) (received res : Bool) : Threads :=
  if received then
    if res then { st.go w .wait with engine := st.engine.Add w .RECV op.pCPipe }
    else st.go w (.disconnect op)
  else st.go w .wait

/-- `DoRecv`, up to the result of WSARecv. -/
def doRecv (st : Threads) (w : Nat) (op : Operation) (received ok : Bool) : Threads :=
  let p := op.pCPipe
  let r := (st.engine.pipe p).doRecvStatus ok
  let st := { st with engine := st.engine.set p r.1 }
  match r.2 with
  | some true =>
      { st with engine := st.engine.start p .m_pRecvEvent false }.recvDone w op received true
  | some false => st.recvDone w op received false
  | none => st.go w (.doRecvFlag op received)

/-- The next step of the worker `w`. -/
def runWorker (sNetSendSize : Nat) (st : Threads) (w : Nat) (ok : Bool) : Option Threads :=
  match st.worker w with
  | .wait => none
  | .dispatch op result => some (st.dispatch w op result)
  | .relate op =>
      let p := op.pCPipe
      some { st.go w (.acceptStatus op) with
        engine := st.engine.RelateSocketClient w (st.engine.pipe p).m_lSocketHandler p }
  | .acceptStatus op =>
      some (st.go w
        (if (st.engine.pipe op.pCPipe).m_nStatus = .SS_ESTABLISHED then .doRecv op false
        else .acceptFlag op))
  -- `Close` came before the packet. With a send on its way the pipe stays.
  | .acceptFlag op =>
      some (st.go w
        (if (st.engine.pipe op.pCPipe).m_bNeedPostOPT then .disconnect op else .wait))
  | .doRecv op received => some (st.doRecv w op received ok)
  | .doRecvFlag op received =>
      some (st.recvDone w op received (!(st.engine.pipe op.pCPipe).m_bNeedPostOPT))
  | .outTake op nIOBytes =>
      let p := op.pCPipe
      if st.locked p then none
      else
        some { (st.go w (.outTest op nIOBytes)).setLocked p true with
          engine := st.engine.set p ((st.engine.pipe p).outTake nIOBytes) }
  | .outTest op nIOBytes =>
      let p := op.pCPipe
      let r := (st.engine.pipe p).outTest
      some
        (if r.2 then
          { (st.go w (.outStatus op)).setLocked p false with
            engine := (st.engine.set p r.1).record op.conn (.sent nIOBytes ok) .silent }
        else st.go w (.outLook op nIOBytes))
  | .outLook op nIOBytes =>
      let p := op.pCPipe
      some { st.go w (.outIssue op nIOBytes ((st.engine.pipe p).outLong sNetSendSize)) with
        engine := st.engine.set p (st.engine.pipe p).formatSend }
  | .outIssue op nIOBytes long =>
      let p := op.pCPipe
      let view := (st.engine.pipe p).outView sNetSendSize long
      some
        (if ok then
          { (st.go w .wait).setLocked p false with
            engine := (st.engine.record op.conn (.sent nIOBytes ok) (.WSASend view.bytes)).start p
              .m_pSendEvent false }
        else
          { (st.go w (.disconnect op)).setLocked p false with
            engine := st.engine.record op.conn (.sent nIOBytes ok) .silent })
  -- A `Close` is noticed where the buffer is empty.
  | .outStatus op =>
      some (st.go w
        (if (st.engine.pipe op.pCPipe).m_nStatus = .SS_WAITCLOSE then .disconnect op else .wait))
  | .disconnect op =>
      some { st.go w .wait with
        engine := st.engine.SendDisconnectEvent w op.socket_handler op.pCPipe }

/-- One step. -/
def step (sNetSendSize : Nat) (st : Threads) : ThreadAction → Option Threads
  | .main a =>
      match st.sending with
      | none =>
          if a.whole then
            (Engine.step sNetSendSize st.engine a).map fun engine => { st with engine }
          else none
      | some _ => none
  | .Send client src =>
      match st.sending, st.engine.m_pPipe client with
      | none, some p =>
          some { st with
            sending := some
              { client
                src
                pCPipe := p
                writer := .planned
                  ((st.engine.pipe p).m_oSendStream.inPlan src.length) src } }
      | _, _ => none
  | .append a =>
      match st.sending with
      | some s => if goesOn a then ((st.io s).step a).map fun io => st.setIo s io else none
      | none => none
  | .sendLocked =>
      match st.sending with
      | some s =>
          match s.writer with
          | .idle => if st.locked s.pCPipe then none else some (st.sendLocked s)
          | _ => none
      | none => none
  | .GetQueuedCompletionStatus w i result =>
      match st.worker w, st.engine.outstanding[i]? with
      | .wait, some op =>
          if op.m_hCompletionPort = some w ∧ (op.posted = true → result = .ofPacket) then
            some (st.take w i op result)
          else none
      | _, _ => none
  | .Run w ok => st.runWorker sNetSendSize w ok

end Threads

end Kernel4GameServer.Iocp
