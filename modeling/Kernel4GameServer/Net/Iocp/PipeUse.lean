import Kernel4GameServer.Net.Iocp.Engine
import Kernel4GameServer.Net.Iocp.Processing

/-!
# `Kernel4GameServer.Net.Iocp.PipeUse`: one use of a pipe, step by step

A pipe between `Create` and `Recover`, with the main thread and the worker that
`BalancingWork` picked for it. The pipe is what its last use left behind. `Net.Iocp.Engine`
takes an iteration of `iocpworker::Run` and a `Send` as one step. Here each of them is cut
where the other thread can come between:

* `Send` is the four parts of `TStream::in` and its locked section,
* `Out` is `out`, the test of `size()`, the two reads of `size()` for the length, and the
  read of `m_nStatus`. The first four are under the read lock of `m_oSendStream`, and a
  relocation and the locked section of `Send` wait for it,
* `DoRecv` and the case SO_ACCEPT are cut in front of every read of `m_nStatus` and of
  `m_bNeedPostOPT`.

An operation that completes becomes a packet of the completion port, and the worker takes
the packets in order. Posted packets go to the port at once. When the operations complete,
and with which result, is up to the environment, but a WSASend completes with no more bytes
than it was given.
-/

set_option autoImplicit false

namespace Kernel4GameServer.Iocp

open Lib

/-- How far `CompletedAccept` gets: it gives the pipe back, `AddPIPE` fails, or the
connection is there. -/
inductive Accept where
  | refused
  | noPort (socket : Int)
  | connected (socket : Int)
  deriving DecidableEq, Repr

/-- The callbacks of a session. -/
inductive SessionCallback where
  | OnConnected
  | OnConnectFailed
  | OnRecv
  | OnDisconnect
  deriving DecidableEq, Repr

/-- An operation with an event of the pipe: ConnectEx, WSARecv, WSASend or a posted packet.
`view` is the range that a WSASend was given. -/
structure Overlapped where
  slot : EventSlot
  socket_handler : Int
  view : Option View

/-- A packet of the completion port. -/
structure Packet where
  op : Overlapped
  result : Completion

/-- Where the worker is in `Run`. `received` says that `DoRecv` is called by the case
SO_TCPRECV, `graceful` that a disconnect does not come from an I/O error. -/
inductive UseWorker where
  | wait
  | dispatch (pk : Packet)
  | acceptStatus (pk : Packet)
  | acceptFlag (pk : Packet)
  | doRecv (pk : Packet) (received : Bool)
  | doRecvFlag (pk : Packet) (received : Bool)
  | addRecv
  | outTake (pk : Packet)
  | outTest (pk : Packet)
  | outLook (pk : Packet)
  | outIssue (pk : Packet) (long : Bool)
  | outStatus (pk : Packet)
  | disconnect (graceful : Bool) (socket_handler : Int)

/-- The worker is in the locked section of `Out`. -/
def UseWorker.locked : UseWorker → Bool
  | .outTest _ => true
  | .outLook _ => true
  | .outIssue _ _ => true
  | _ => false

/-- The operation whose completion the worker handles. With the locked section of `Out` the
handling is over. -/
def UseWorker.handling : UseWorker → List Overlapped
  | .dispatch pk => [pk.op]
  | .outTake pk => [pk.op]
  | .outTest pk => [pk.op]
  | .outLook pk => [pk.op]
  | .outIssue pk _ => [pk.op]
  | _ => []

/-- How far the use of the pipe is. `ending` is a callback behind which `Recover` follows. -/
inductive UsePhase where
  | created
  | live
  | ending
  | recovered
  deriving DecidableEq, Repr

/-- One use of a pipe. `m_mapSocketClient` is the part of the map that leads to this pipe,
`m_oEventQueue` the events for it, `w` the worker. `writer` and `sending` say where the main
thread is in `Send`: inside `in`, or in front of the locked section.

The rest is history: the callbacks, the events that were queued, the arguments of all `Send`
calls (`sent`) and of those whose `in` has finished (`written`), the bytes whose WSASend has
completed, what was written before the `Close` of the established pipe, and whether an
operation on `m_pSendEvent` has failed. -/
structure PipeUse where
  pipe : CPipe
  w : Nat
  m_mapSocketClient : Int → Bool
  m_oEventQueue : List IoEventType
  issued : List Overlapped
  port : List Packet
  worker : UseWorker
  phase : UsePhase
  writer : StreamWriter
  sending : Bool
  callbacks : List SessionCallback
  queued : List IoEventType
  sent : List UInt8
  written : List UInt8
  completed : List UInt8
  beforeClose : List UInt8
  sendFailed : Bool

/-- The steps: of the main thread, of the environment that completes the `i`-th issued
operation, and of the worker. `ok` is the result of WSARecv or WSASend. -/
inductive UseAction where
  | AddClient (client : Nat) (result : Connect)
  | CompletedAccept (client : Nat) (result : Accept)
  | Send (src : List UInt8)
  | append (a : StreamAction)
  | sendLocked
  | Close
  | Processing (nUse : Int)
  | Recover
  | complete (i : Nat) (result : Completion)
  | dequeue
  | Run (ok : Bool)

namespace CPipe

/-- `m_oSendStream.out(nSize)` of `Out`. -/
def outTake (p : CPipe) (nSize : Int) : CPipe :=
  { p with m_oSendStream := p.m_oSendStream.out nSize }

/-- `0 == m_oSendStream.size()` of `Out`, and the store where it is. -/
def outTest (p : CPipe) : CPipe × Bool :=
  if 0 = p.m_oSendStream.size then ({ p with m_bNeedPostOPT := true }, true) else (p, false)

/-- `m_oSendStream.size() >= sLen` of `Out`. -/
def outLong (p : CPipe) (sNetSendSize : Nat) : Bool :=
  decide (p.m_oSendStream.size ≥ sNetSendSize)

/-- What `Out` gives WSASend. `long` is the result of `size() >= sLen`. -/
def outView (p : CPipe) (sNetSendSize : Nat) (long : Bool) : View :=
  let s : TStream BUFF_SIZE := p.m_oSendStream
  let len : Int := if long then sNetSendSize else s.size
  { block := s.m_pbuff.alloc
    off := s.m_read
    nLeft := len
    bytes := Mem.slice s.buff 0 len.toNat }

end CPipe

namespace PipeUse

/-- A pipe that leaves the pool. What the last use has left in the send stream counts as
written. -/
def init (p : CPipe) (w : Nat) : PipeUse where
  pipe := p
  w := w
  m_mapSocketClient _ := false
  m_oEventQueue := []
  issued := []
  port := []
  worker := .wait
  phase := .created
  writer := .idle
  sending := false
  callbacks := []
  queued := []
  sent := []
  written := p.m_oSendStream.unread
  completed := []
  beforeClose := []
  sendFailed := false

/-- The send stream with the main thread as its writer. The worker is its reader. -/
def io (st : PipeUse) : StreamState BUFF_SIZE where
  stream := st.pipe.m_oSendStream
  writer := st.writer
  reader := if st.worker.locked then .locked else .idle
  written := st.written
  taken := st.completed

/-- What a step of the main thread on the send stream changes. -/
def setIo (st : PipeUse) (io : StreamState BUFF_SIZE) : PipeUse :=
  { st with
    pipe := { st.pipe with m_oSendStream := io.stream }
    writer := io.writer
    written := io.written }

/-- The operations that are outstanding: issued, completed or posted, being handled. -/
def outstanding (st : PipeUse) : List Overlapped :=
  st.issued ++ st.port.map Packet.op ++ st.worker.handling

/-- A callback of the session. -/
def call (st : PipeUse) (c : SessionCallback) : PipeUse :=
  { st with callbacks := st.callbacks ++ [c] }

/-- `m_oEventQueue.Add(event)`. -/
def Add (st : PipeUse) (type : IoEventType) : PipeUse :=
  { st with
    m_oEventQueue := st.m_oEventQueue ++ [type]
    queued := st.queued ++ [type] }

/-- `PostQueuedCompletionStatus` with an event of the pipe. A port that is not the one of
the worker is none, or it belongs to a worker that does not know the pipe. -/
def post (st : PipeUse) (slot : EventSlot) : PipeUse :=
  let packet : Packet :=
    { op := { slot, socket_handler := st.pipe.m_lSocketHandler, view := none }
      result := .ofPacket }
  { st with
    port := st.port ++ if st.pipe.m_hCompletionPort = some st.w then [packet] else [] }

/-- An operation is started. -/
def issue (st : PipeUse) (slot : EventSlot) (view : Option View) : PipeUse :=
  { st with
    issued := st.issued ++ [{ slot, socket_handler := st.pipe.m_lSocketHandler, view }] }

/-- `SendDisconnectEvent(socket, pCPipe)`. -/
def SendDisconnectEvent (st : PipeUse) (socket : Int) : PipeUse :=
  if st.m_mapSocketClient socket then
    { st.Add .BREAK with
      pipe := { st.pipe with m_lSocketHandler := INVALID_SOCKET }
      m_mapSocketClient := fun s => if s = socket then false else st.m_mapSocketClient s }
  else st

/-- The event that an operation was started with, as it is now. -/
def event (st : PipeUse) : EventSlot → IocpEvent
  | .m_pRecvEvent => st.pipe.m_pRecvEvent
  | .m_pSendEvent => st.pipe.m_pSendEvent

/-! ### The main thread -/

/-- `AddClient(client, ip, port)` with the pipe that `Create` gave it. -/
def AddClient (st : PipeUse) (client : Nat) (result : Connect) : PipeUse :=
  let related (socket : Int) : CPipe :=
    { st.pipe with m_lSocketHandler := socket, m_pHost := some client }
  let added (socket : Int) : CPipe :=
    { related socket with m_hCompletionPort := some st.w }.formatRecv .SO_CONNECT
  match result with
  | .noSocket => { st.call .OnConnectFailed with phase := .ending }
  | .noPort socket => { st.call .OnConnectFailed with pipe := related socket, phase := .ending }
  | .noConnect socket => { st.call .OnConnectFailed with pipe := added socket, phase := .ending }
  | .pending socket => { st with pipe := added socket, phase := .live }.issue .m_pRecvEvent none

/-- The state of the pipe changes to ESTABLISHED, and the packet for SO_ACCEPT is posted. The
worker looks at the pipe when it gets the packet. -/
def establish (st : PipeUse) : PipeUse :=
  { st with
    pipe := { st.pipe with m_nStatus := .SS_ESTABLISHED }.formatRecv .SO_ACCEPT }.post .m_pRecvEvent

/-- `CompletedAccept()` with the pipe that `Create` gave it. -/
def CompletedAccept (st : PipeUse) (client : Nat) (result : Accept) : PipeUse :=
  let related (socket : Int) : CPipe :=
    { st.pipe with m_lSocketHandler := socket, m_pHost := some client }
  match result with
  | .refused => { st with phase := .ending }
  | .noPort socket => { st.call .OnConnectFailed with pipe := related socket, phase := .live }
  | .connected socket =>
      { st with
        pipe := { related socket with m_hCompletionPort := some st.w }
        phase := .live }.establish.call .OnConnected

/-- The `switch` of `Processing` for one event. `nUse` is what `OnRecv` returns. -/
def processEvent (st : PipeUse) (type : IoEventType) (nUse : Int) : PipeUse :=
  match type with
  | .RECV =>
      let s : TStream BUFF_SIZE := st.pipe.m_oRecvStream
      if 0 ≠ s.size then
        { st.call .OnRecv with
          pipe := { st.pipe with m_oRecvStream := if nUse > 0 then s.out nUse else s } }
      else st
  | .BREAK =>
      { st.call .OnDisconnect with
        pipe := { st.pipe with m_nStatus := .SS_UNINITIALIZE }
        phase := .ending }
  | .CONNECTED => st.establish.call .OnConnected
  | .CONNECTFAILD =>
      { st.call .OnConnectFailed with
        pipe := { st.pipe with m_nStatus := .SS_UNINITIALIZE }
        phase := .ending }
  | .COUNT => st

/-- The locked section of `Send`. -/
def sendLocked (st : PipeUse) : PipeUse :=
  let r := st.pipe.sendSection
  let st := { st with pipe := r.1, sending := false }
  if r.2 then st.post .m_pSendEvent else st

/-- `Close()`. -/
def Close (st : PipeUse) : PipeUse :=
  { st with
    pipe := st.pipe.Close
    beforeClose :=
      if st.pipe.m_nStatus = .SS_ESTABLISHED then st.written else st.beforeClose }

/-! ### The worker -/

/-- `GetQueuedCompletionStatus`, and the test for `WAIT_TIMEOUT`. -/
def take (st : PipeUse) (pk : Packet) : PipeUse :=
  if pk.result.code = WAIT_TIMEOUT then
    { st with sendFailed := st.sendFailed || decide (pk.op.slot = .m_pSendEvent) }
  else { st with worker := .dispatch pk }

/-- The `switch` of `Run`, up to where it reads what the main thread may write. -/
def dispatch (st : PipeUse) (pk : Packet) : PipeUse :=
  let key := pk.op.socket_handler
  let st := { st with worker := .wait }
  match (st.event pk.op.slot).opt with
  | .SO_CONNECT => st.Add (if pk.result.code = ERROR_SUCCESS then .CONNECTED else .CONNECTFAILD)
  | .SO_ACCEPT =>
      -- `RelateSocketClient(pCPipe->m_lSocketHandler, pCPipe)`.
      { st with
        m_mapSocketClient := fun s =>
          if s = st.pipe.m_lSocketHandler then true else st.m_mapSocketClient s
        worker := .acceptStatus pk }
  | .SO_TCPRECV =>
      if st.m_mapSocketClient key then
        if pk.result.nIOBytes > 0 ∧ pk.result.code = ERROR_SUCCESS then
          { st with
            pipe := st.pipe.In (Mem.ofList pk.result.bytes 0) pk.result.nIOBytes
            worker := .doRecv pk true }
        else { st with worker := .disconnect false key }
      else st
  | .SO_TCPSEND =>
      if st.m_mapSocketClient key then
        if pk.result.code = ERROR_SUCCESS then { st with worker := .outTake pk }
        -- A send that failed is not reported.
        else { st with sendFailed := true }
      else st

/-- `DoRecv` has returned `res`. The case SO_ACCEPT does not look at the result. -/
def recvDone (st : PipeUse) (pk : Packet) (received res graceful : Bool) : PipeUse :=
  { st with
    worker :=
      if received then
        if res then .addRecv else .disconnect graceful pk.op.socket_handler
      else .wait }

/-- `DoRecv`, up to the result of WSARecv. -/
def doRecv (st : PipeUse) (pk : Packet) (received ok : Bool) : PipeUse :=
  let r := st.pipe.doRecvStatus ok
  let st := { st with pipe := r.1 }
  match r.2 with
  | some true => (st.issue .m_pRecvEvent none).recvDone pk received true false
  | some false => st.recvDone pk received false false
  | none => { st with worker := .doRecvFlag pk received }

/-- The next step of the worker. -/
def runWorker (sNetSendSize : Nat) (st : PipeUse) (ok : Bool) : Option PipeUse :=
  match st.worker with
  | .wait => none
  | .dispatch pk => some (st.dispatch pk)
  | .acceptStatus pk =>
      some { st with
        worker := if st.pipe.m_nStatus = .SS_ESTABLISHED then .doRecv pk false else .acceptFlag pk }
  -- `Close` came before the packet. With a send on its way the pipe stays.
  | .acceptFlag pk =>
      some { st with
        worker :=
          if st.pipe.m_bNeedPostOPT then .disconnect true pk.op.socket_handler else .wait }
  | .doRecv pk received => some (st.doRecv pk received ok)
  | .doRecvFlag pk received => some (st.recvDone pk received (!st.pipe.m_bNeedPostOPT) true)
  | .addRecv => some { st.Add .RECV with worker := .wait }
  | .outTake pk =>
      let nIOBytes := pk.result.nIOBytes
      some { st with
        pipe := st.pipe.outTake nIOBytes
        completed := st.completed ++ (pk.op.view.elim [] fun v => v.bytes.take nIOBytes)
        worker := .outTest pk }
  | .outTest pk =>
      let r := st.pipe.outTest
      some { st with pipe := r.1, worker := if r.2 then .outStatus pk else .outLook pk }
  | .outLook pk =>
      some { st with
        pipe := st.pipe.formatSend
        worker := .outIssue pk (st.pipe.outLong sNetSendSize) }
  | .outIssue pk long =>
      if ok then
        some { st.issue .m_pSendEvent (some (st.pipe.outView sNetSendSize long)) with
          worker := .wait }
      else
        some { st with
          sendFailed := true
          worker := .disconnect false pk.op.socket_handler }
  -- A `Close` is noticed where the buffer is empty.
  | .outStatus pk =>
      some { st with
        worker :=
          if st.pipe.m_nStatus = .SS_WAITCLOSE then .disconnect true pk.op.socket_handler
          else .wait }
  | .disconnect _ socket => some { st.SendDisconnectEvent socket with worker := .wait }

/-- One step. A session calls `Send` and `Close` while it has the pipe, also in the callback
in front of `Recover`. -/
def step (sNetSendSize : Nat) (st : PipeUse) : UseAction → Option PipeUse
  | .AddClient client result =>
      match st.phase with
      | .created => some (st.AddClient client result)
      | _ => none
  | .CompletedAccept client result =>
      match st.phase with
      | .created => some (st.CompletedAccept client result)
      | _ => none
  | .Send src =>
      if (st.phase = .live ∨ st.phase = .ending) ∧ st.sending = false then
        (st.io.step (.write src)).map fun io => { st.setIo io with sent := st.sent ++ src }
      else none
  | .append a =>
      if goesOn a then
        (st.io.step a).map fun io =>
          { st.setIo io with
            -- Behind its last part `in` returns.
            sending := match io.writer with | .idle => true | _ => false }
      else none
  | .sendLocked =>
      if st.sending = true ∧ st.worker.locked = false then some st.sendLocked else none
  | .Close =>
      match st.writer with
      | .idle =>
          if (st.phase = .live ∨ st.phase = .ending) ∧ st.sending = false then some st.Close
          else none
      | _ => none
  | .Processing nUse =>
      match st.writer, st.m_oEventQueue with
      | .idle, type :: queue =>
          if st.phase = .live ∧ st.sending = false then
            some ({ st with m_oEventQueue := queue }.processEvent type nUse)
          else none
      | _, _ => none
  | .Recover =>
      match st.writer with
      | .idle =>
          if st.phase = .ending ∧ st.sending = false then some { st with phase := .recovered }
          else none
      | _ => none
  | .complete i result =>
      match st.issued[i]? with
      | none => none
      | some op =>
          -- WSASend sends no more than it was given.
          if ∀ v ∈ op.view, result.nIOBytes ≤ v.bytes.length then
            some { st with
              issued := st.issued.eraseIdx i
              port := st.port ++ [{ op, result }] }
          else none
  | .dequeue =>
      match st.worker, st.port with
      | .wait, pk :: port => some ({ st with port }.take pk)
      | _, _ => none
  | .Run ok => st.runWorker sNetSendSize ok

end PipeUse

end Kernel4GameServer.Iocp
