import Kernel4GameServer.Lib.Run
import Kernel4GameServer.Net.Iocp.CPipe
import Kernel4GameServer.Public.TPool

/-!
# `Kernel4GameServer.Net.Iocp.Engine`: the IOCP engine with all its connections

`iocper.cpp` and `iocpworker.cpp` over the pool `g_oCPipePool`. The main thread takes pipes
from the pool for connections it starts or accepts, handles the events of the workers and
gives the pipes back. Each worker takes one completion after the other from its completion
port. One iteration of `iocpworker::Run` is one step, and so is one event of
`iocpworker::Processing`. `Net.Iocp.Threads` cuts the iterations.

A callback may call `Send`, `Close` and `AddClient`, so these are steps of their own. What
the main thread still has to do when a callback returns stays in `frames`.

The environment decides which outstanding operation a worker gets next, how it ended, and
whether a new one fails at once. Closing a socket ends no operation by itself: its
completion comes later.
-/

set_option autoImplicit false

namespace Kernel4GameServer.Iocp

open Lib

/-- `ERROR_SUCCESS`. -/
def ERROR_SUCCESS : Nat := 0

/-- `WAIT_TIMEOUT`. -/
def WAIT_TIMEOUT : Nat := 258

/-- `ioevent`. -/
structure IoEvent where
  type : IoEventType
  pCPipe : Nat
  deriving DecidableEq, Repr

/-- Which event of its pipe an operation was started with. -/
inductive EventSlot where
  | m_pRecvEvent
  | m_pSendEvent
  deriving DecidableEq, Repr

/-- An outstanding operation: a posted packet, or a call of ConnectEx, WSARecv or WSASend
that is not completed. `conn` is the connection it was started for. -/
structure Operation where
  pCPipe : Nat
  slot : EventSlot
  m_hCompletionPort : Option Nat
  socket_handler : Int
  posted : Bool
  conn : Nat
  deriving DecidableEq, Repr

/-- What `GetQueuedCompletionStatus` reports: the bytes that were transferred, and the error
code. The code is `ERROR_SUCCESS` when the call succeeds, and only then. -/
structure Completion where
  bytes : List UInt8
  code : Nat
  deriving DecidableEq, Repr

/-- `nIOBytes`. -/
def Completion.nIOBytes (c : Completion) : Nat := c.bytes.length

/-- The completion of a posted packet. -/
def Completion.ofPacket : Completion := { bytes := [], code := ERROR_SUCCESS }

/-- What the two threads of an `iocpworker` share, apart from the pipes. -/
structure IocpWorker where
  m_mapSocketClient : Int → Option Nat
  m_oEventQueue : List IoEvent

/-- What follows a callback that has not returned: the rest of `CompletedAccept` for a
socket, or `Recover` of a pipe. -/
inductive Frame where
  | MallocConnection (pCPipe : Nat) (socket : Int)
  | Recover (pCPipe : Nat)
  deriving DecidableEq, Repr

/-- The pipe of a frame. -/
def Frame.pCPipe : Frame → Nat
  | .MallocConnection p _ => p
  | .Recover p => p

/-- What reaches a connection: received bytes, `OnRecv` with its result, `Send`, and the end
of a WSASend, with whether the next one starts. -/
inductive Input where
  | received (bytes : List UInt8)
  | OnRecv (nUse : Int)
  | Send (src : List UInt8)
  | sent (nIOBytes : Nat) (ok : Bool)
  deriving DecidableEq, Repr

/-- What a connection does then: it offers bytes to `OnRecv`, posts a packet for `Send`, or
gives bytes to WSASend. -/
inductive Output where
  | silent
  | offered (bytes : List UInt8)
  | posted
  | WSASend (bytes : List UInt8)
  deriving DecidableEq, Repr

/-- The engine. `m_pPipe` is the pointer of a session, and `pointed` the connection for which
it was set. `conn` is the connection that has a pipe, or had it last, `conns` the number of
connections so far, and `log` what reached each of them and what it did. -/
structure Engine where
  g_oCPipePool : TPool CPipe
  m_pPipe : Nat → Option Nat
  pointed : Nat → Nat
  workers : Nat → IocpWorker
  outstanding : List Operation
  frames : List Frame
  conn : Nat → Nat
  conns : Nat
  log : List (Nat × Input × Output)

/-- How far `AddClient` gets: the socket, `AddPIPE` or `DoConnect` fails, or the connect is
on its way. -/
inductive Connect where
  | noSocket
  | noPort (socket : Int)
  | noConnect (socket : Int)
  | pending (socket : Int)
  deriving DecidableEq, Repr

/-- The steps. `w` is the worker that `BalancingWork` picks, or the worker that runs. -/
inductive EngineAction where
  | AddClient (client w : Nat) (result : Connect)
  | CompletedAccept (socket : Int) (ok : Bool)
  | MallocConnection (client : Option Nat) (w : Nat) (ok : Bool)
  | Recover
  | Processing (w : Nat) (nUse : Int)
  | Send (client : Nat) (src : List UInt8)
  | Close (client : Nat)
  | Run (w i : Nat) (result : Completion) (ok : Bool)

/-- The output of the locked section of `Out`. -/
def OutEnd.output : OutEnd → Output
  | .emptied => .silent
  | .issued view => .WSASend view.bytes
  | .failed => .silent

namespace Engine

/-- The engine behind `Initialize`: 64 new pipes, nothing connected. -/
def init : Engine where
  g_oCPipePool := .init .new 64
  m_pPipe _ := none
  pointed _ := 0
  workers _ := { m_mapSocketClient := fun _ => none, m_oEventQueue := [] }
  outstanding := []
  frames := []
  conn _ := 0
  conns := 0
  log := []

/-- The pipe at `p`. -/
def pipe (st : Engine) (p : Nat) : CPipe := st.g_oCPipePool.unit p

/-- A write to the pipe at `p`. -/
def set (st : Engine) (p : Nat) (x : CPipe) : Engine :=
  { st with g_oCPipePool := st.g_oCPipePool.set p x }

/-- `client->m_pPipe = pCPipe`. -/
def setPipe (st : Engine) (client p : Nat) : Engine :=
  { st with
    m_pPipe := fun s => if s = client then some p else st.m_pPipe s
    pointed := fun s => if s = client then st.conn p else st.pointed s }

/-- `host->m_pPipe = NULL`. -/
def clearPipe (st : Engine) (host : Nat) : Engine :=
  { st with m_pPipe := fun s => if s = host then none else st.m_pPipe s }

/-- A write to the worker `w`. -/
def setWorker (st : Engine) (w : Nat) (x : IocpWorker) : Engine :=
  { st with workers := fun v => if v = w then x else st.workers v }

/-- A new entry of the log for the connection `c`. -/
def record (st : Engine) (c : Nat) (input : Input) (output : Output) : Engine :=
  { st with log := st.log ++ [(c, input, output)] }

/-- An operation is outstanding from now on. -/
def start (st : Engine) (p : Nat) (slot : EventSlot) (posted : Bool) : Engine :=
  { st with
    outstanding := st.outstanding ++
      [{ pCPipe := p
         slot
         m_hCompletionPort := (st.pipe p).m_hCompletionPort
         socket_handler := (st.pipe p).m_lSocketHandler
         posted
         conn := st.conn p }] }

/-- `PostQueuedCompletionStatus` with an event of `p`. Without a port it fails. -/
def post (st : Engine) (p : Nat) (slot : EventSlot) : Engine :=
  if (st.pipe p).m_hCompletionPort.isSome then st.start p slot true else st

/-- `m_oEventQueue.Add(event)`. -/
def Add (st : Engine) (w : Nat) (type : IoEventType) (p : Nat) : Engine :=
  st.setWorker w { st.workers w with
    m_oEventQueue := (st.workers w).m_oEventQueue ++ [{ type, pCPipe := p }] }

/-- `g_oCPipePool.Create()`, for the next connection. -/
def Create (st : Engine) : Option (Nat × Engine) :=
  (st.g_oCPipePool.Create .new 64).map fun r =>
    (r.1, { st with
      g_oCPipePool := r.2
      conn := fun q => if q = r.1 then st.conns else st.conn q
      conns := st.conns + 1 })

/-- `g_oCPipePool.Recover(pCPipe)`. -/
def Recover (st : Engine) (p : Nat) : Engine :=
  { st with g_oCPipePool := st.g_oCPipePool.Recover p }

/-- `AddPIPE(pCPipe)` where it succeeds. -/
def AddPIPE (st : Engine) (w p : Nat) : Engine :=
  st.set p { st.pipe p with m_hCompletionPort := some w }

/-- `CheckSocketClient(socket, pCPipe)`. -/
def CheckSocketClient (st : Engine) (w : Nat) (socket : Int) (p : Nat) : Bool :=
  decide ((st.workers w).m_mapSocketClient socket = some p)

/-- `RelateSocketClient(socket, pClient)`. -/
def RelateSocketClient (st : Engine) (w : Nat) (socket : Int) (p : Nat) : Engine :=
  match (st.workers w).m_mapSocketClient socket with
  | none =>
      st.setWorker w { st.workers w with
        m_mapSocketClient := fun s =>
          if s = socket then some p else (st.workers w).m_mapSocketClient s }
  -- A socket that is there already keeps its pipe.
  | some _ => st

/-- `SendDisconnectEvent(socket, pCPipe)`. -/
def SendDisconnectEvent (st : Engine) (w : Nat) (socket : Int) (p : Nat) : Engine :=
  if st.CheckSocketClient w socket p then
    -- The socket is closed here. The pipe goes back when the BREAK event is processed.
    let st := st.set p { st.pipe p with m_lSocketHandler := INVALID_SOCKET }
    let st := st.Add w .BREAK p
    st.setWorker w { st.workers w with
      m_mapSocketClient := fun s =>
        if s = socket then none else (st.workers w).m_mapSocketClient s }
  else st

/-- The event of the pipe at `p` that an operation was started with, as it is now. -/
def event (st : Engine) (p : Nat) : EventSlot → IocpEvent
  | .m_pRecvEvent => (st.pipe p).m_pRecvEvent
  | .m_pSendEvent => (st.pipe p).m_pSendEvent

/-- `DoRecv()`, and the WSARecv that may be pending then. -/
def DoRecv (st : Engine) (p : Nat) (ok : Bool) : Engine × Bool :=
  let r := (st.pipe p).DoRecv ok
  let st := st.set p r.1
  (if r.2.2 then st.start p .m_pRecvEvent false else st, r.2.1)

/-- `In(pContext, nSize)` of bytes that the connection `c` has received. -/
def In (st : Engine) (p c : Nat) (bytes : List UInt8) : Engine :=
  (st.set p ((st.pipe p).In (Mem.ofList bytes 0) bytes.length)).record c (.received bytes) .silent

/-- `Out(nSize)` for bytes that the connection `c` has sent, and the WSASend that may be
pending then. -/
def Out (sNetSendSize : Nat) (st : Engine) (p c nSize : Nat) (ok : Bool) : Engine × Bool :=
  let r := (st.pipe p).outSection sNetSendSize nSize ok
  let st := (st.set p r.1).record c (.sent nSize ok) r.2.output
  (match r.2 with
    | .issued _ => st.start p .m_pSendEvent false
    | _ => st, r.1.outResult r.2)

/-- The case SO_ACCEPT of `Run`. -/
def runAccept (st : Engine) (w : Nat) (op : Operation) (ok : Bool) : Engine :=
  let p := op.pCPipe
  let st := st.RelateSocketClient w (st.pipe p).m_lSocketHandler p
  if (st.pipe p).m_nStatus = .SS_ESTABLISHED then (st.DoRecv p ok).1
  -- `Close` came before the packet, and no send is on its way.
  else if (st.pipe p).m_bNeedPostOPT then st.SendDisconnectEvent w op.socket_handler p
  else st

/-- The case SO_TCPRECV of `Run`. -/
def runRecv (st : Engine) (w : Nat) (op : Operation) (result : Completion) (ok : Bool) :
    Engine :=
  let p := op.pCPipe
  if st.CheckSocketClient w op.socket_handler p then
    if result.nIOBytes > 0 ∧ result.code = ERROR_SUCCESS then
      let r := (st.In p op.conn result.bytes).DoRecv p ok
      if r.2 then r.1.Add w .RECV p else r.1.SendDisconnectEvent w op.socket_handler p
    else st.SendDisconnectEvent w op.socket_handler p
  else st

/-- The case SO_TCPSEND of `Run`. -/
def runSend (sNetSendSize : Nat) (st : Engine) (w : Nat) (op : Operation) (result : Completion)
    (ok : Bool) : Engine :=
  let p := op.pCPipe
  if st.CheckSocketClient w op.socket_handler p then
    if result.code = ERROR_SUCCESS then
      let r := st.Out sNetSendSize p op.conn result.nIOBytes ok
      if r.2 then r.1 else r.1.SendDisconnectEvent w op.socket_handler p
    -- A send that failed is not reported.
    else st
  else st

/-- What `Run` does with a completion behind `GetQueuedCompletionStatus`. -/
def dispatch (sNetSendSize : Nat) (st : Engine) (w : Nat) (op : Operation) (result : Completion)
    (ok : Bool) : Engine :=
  -- A completion with this code is dropped.
  if result.code = WAIT_TIMEOUT then st
  else
    match (st.event op.pCPipe op.slot).opt with
    | .SO_CONNECT =>
        st.Add w (if result.code = ERROR_SUCCESS then .CONNECTED else .CONNECTFAILD) op.pCPipe
    | .SO_ACCEPT => st.runAccept w op ok
    | .SO_TCPRECV => st.runRecv w op result ok
    | .SO_TCPSEND => st.runSend sNetSendSize w op result ok

/-- One iteration of `Run` that gets the completion of the operation at `i`. -/
def Run (sNetSendSize : Nat) (st : Engine) (w i : Nat) (result : Completion) (ok : Bool) :
    Option Engine :=
  match st.outstanding[i]? with
  | none => none
  | some op =>
      if op.m_hCompletionPort = some w ∧ (op.posted = true → result = .ofPacket) then
        some (dispatch sNetSendSize { st with outstanding := st.outstanding.eraseIdx i }
          w op result ok)
      else none

/-- One event of `Processing`, up to the end of its callback. -/
def processEvent (st : Engine) (e : IoEvent) (nUse : Int) : Option Engine :=
  let p := e.pCPipe
  match e.type with
  | .RECV =>
      if 0 ≠ (st.pipe p).m_oRecvStream.size then
        match (st.pipe p).m_pHost with
        | none => none
        | some _ =>
            let s := (st.pipe p).m_oRecvStream
            let st := st.record (st.conn p) (.OnRecv nUse)
              (.offered (Mem.slice s.buff 0 s.size.toNat))
            some (st.set p
              { st.pipe p with m_oRecvStream := if nUse > 0 then s.out nUse else s })
      else some st
  | .BREAK =>
      match (st.pipe p).m_pHost with
      | none => none
      | some host =>
          let st := st.set p { st.pipe p with m_nStatus := .SS_UNINITIALIZE }
          -- `OnDisconnect` runs with the pointer cleared, and `Recover` comes behind it.
          let st := st.clearPipe host
          some { st with frames := .Recover p :: st.frames }
  | .CONNECTED =>
      match (st.pipe p).m_pHost with
      | none => none
      | some _ =>
          let st := st.set p
            ({ st.pipe p with m_nStatus := .SS_ESTABLISHED }.formatRecv .SO_ACCEPT)
          some (st.post p .m_pRecvEvent)
  | .CONNECTFAILD =>
      match (st.pipe p).m_pHost with
      | none => none
      | some _ =>
          -- The pointer of the host stays.
          let st := st.set p { st.pipe p with m_nStatus := .SS_UNINITIALIZE }
          some { st with frames := .Recover p :: st.frames }
  | .COUNT => some st

/-- `AddClient(client, ip, port)`, up to the end of its callback. -/
def AddClient (st : Engine) (client w : Nat) (result : Connect) : Option Engine :=
  match st.Create with
  | none => none
  | some (p, st) =>
      match result with
      -- Each failure calls `OnConnectFailed`, and `Recover` comes behind it.
      | .noSocket => some { st with frames := .Recover p :: st.frames }
      | .noPort socket =>
          let st := st.set p
            { st.pipe p with m_lSocketHandler := socket, m_pHost := some client }
          some { st with frames := .Recover p :: st.frames }
      | .noConnect socket =>
          let st := st.set p
            { st.pipe p with m_lSocketHandler := socket, m_pHost := some client }
          let st := st.AddPIPE w p
          let st := st.set p ((st.pipe p).formatRecv .SO_CONNECT)
          some { st with frames := .Recover p :: st.frames }
      | .pending socket =>
          let st := st.set p
            { st.pipe p with m_lSocketHandler := socket, m_pHost := some client }
          let st := st.AddPIPE w p
          let st := st.set p ((st.pipe p).formatRecv .SO_CONNECT)
          some ((st.start p .m_pRecvEvent false).setPipe client p)

/-- `CompletedAccept()`, up to the end of `MallocConnection`. `ok` says that `setsockopt` and
`getpeername` succeed. -/
def CompletedAccept (st : Engine) (socket : Int) (ok : Bool) : Option Engine :=
  match st.Create with
  | none => none
  | some (p, st) =>
      if ok then some { st with frames := .MallocConnection p socket :: st.frames }
      else some (st.Recover p)

/-- The rest of `CompletedAccept()`. `ok` is the result of `AddPIPE`. -/
def acceptClient (st : Engine) (p : Nat) (socket : Int) (client w : Nat) (ok : Bool) : Engine :=
  let st := st.set p { st.pipe p with m_pHost := some client }
  let st := st.setPipe client p
  let st := st.set p { st.pipe p with m_lSocketHandler := socket }
  if ok then
    let st := st.AddPIPE w p
    let st := st.set p ({ st.pipe p with m_nStatus := .SS_ESTABLISHED }.formatRecv .SO_ACCEPT)
    st.post p .m_pRecvEvent
  -- `OnConnectFailed` is called, and the pipe is not given back.
  else st

/-- `Send(context, size)` of a session. -/
def Send (st : Engine) (client : Nat) (src : List UInt8) : Option Engine :=
  match st.m_pPipe client with
  | none => none
  | some p =>
      let r := (st.pipe p).Send (Mem.ofList src 0) src.length
      let st := (st.set p r.1).record (st.pointed client) (.Send src)
        (if r.2 then .posted else .silent)
      some (if r.2 then st.post p .m_pSendEvent else st)

/-- `Close()` of a session. -/
def Close (st : Engine) (client : Nat) : Option Engine :=
  (st.m_pPipe client).map fun p => st.set p (st.pipe p).Close

/-- One step. A pointer that is null is not followed, so a thread that would do so has no
step. -/
def step (sNetSendSize : Nat) (st : Engine) : EngineAction → Option Engine
  | .AddClient client w result => st.AddClient client w result
  | .CompletedAccept socket ok =>
      match st.frames with
      | [] => st.CompletedAccept socket ok
      | _ => none
  | .MallocConnection client w ok =>
      match st.frames with
      | .MallocConnection p socket :: frames =>
          let st := { st with frames }
          match client with
          | none => some (st.Recover p)
          | some client => some (st.acceptClient p socket client w ok)
      | _ => none
  | .Recover =>
      match st.frames with
      | .Recover p :: frames => some ({ st with frames }.Recover p)
      | _ => none
  | .Processing w nUse =>
      match st.frames, (st.workers w).m_oEventQueue with
      | [], e :: queue =>
          (st.setWorker w { st.workers w with m_oEventQueue := queue }).processEvent e nUse
      | _, _ => none
  | .Send client src => st.Send client src
  | .Close client => st.Close client
  | .Run w i result ok => Run sNetSendSize st w i result ok

end Engine

end Kernel4GameServer.Iocp
