import Kernel4GameServer.Net.Epoll.SendPath

/-!
# `Kernel4GameServer.Net.Epoll.Worker`: the worker and the main thread on one connection

`epollWorker::Run` for one accepted connection, with the main thread beside it. While the
socket is in its epoll set the worker may get any event mask. It goes through the tests of
`Run` one by one, through `DoRecv` one `recv` at a time and through `DoSend` one iteration
at a time, and adds the event type it ends with to the queue. The main thread calls `Send`
and `Close` at any moment and handles the queued events one after the other.

`log` records what the queue and the session get to see: every event that is added, with
the state of the socket at that moment, and the callbacks.
-/

set_option autoImplicit false

namespace Kernel4GameServer

open Lib

/-- The result of `recv`: a piece of data, `EAGAIN`, or the end of the stream or another
error. -/
inductive RecvResult where
  | data (piece : List UInt8)
  | EAGAIN
  | ended
  deriving DecidableEq, Repr

/-- Where the worker is in `Run`. `eventType` is the local variable of that name. -/
inductive WorkerPc where
  | wait
  | testRecv (mask : EpollFlags)
  | inRecv (mask : EpollFlags) (nRecvSize : Nat)
  | testSend (mask : EpollFlags) (eventType : IoEventType)
  | inSend (mask : EpollFlags) (eventType : IoEventType)
  | testClose (mask : EpollFlags) (eventType : IoEventType)
  | add (eventType : IoEventType)
  deriving DecidableEq, Repr

/-- Where the main thread is in `Processing`: outside, in the drain loop of an event, or
behind it. -/
inductive MainPc where
  | idle
  | draining (type : IoEventType)
  | drained (type : IoEventType)
  deriving DecidableEq, Repr

/-- An entry of the log. `closed` says that the socket was closed and out of the epoll set
when the event was added. -/
inductive Logged where
  | Add (type : IoEventType) (closed : Bool)
  | OnRecv
  | OnDisconnect
  deriving DecidableEq, Repr

/-- A connection. `call` is where the main thread is inside `Send` or `Close`, which it may
call from a callback or from anywhere else. -/
structure Connection where
  pipe : CPipe
  registered : Bool
  worker : WorkerPc
  call : SendMain
  main : MainPc
  queue : List IoEventType
  log : List Logged

/-- The steps: those of the worker, the calls of the main thread, and its way through the
queue. -/
inductive ConnAction where
  | event (mask : EpollFlags)
  | testRecv
  | recv (result : RecvResult)
  | testSend
  | send (result : SendResult)
  | testClose
  | add
  | Send (src : List UInt8)
  | SendLocked (results : List SendResult)
  | Close
  | CloseLocked
  | read
  | round (nUse : Int)
  | finish
  deriving DecidableEq, Repr

/-- The event that the main thread is handling. -/
def MainPc.event : MainPc → List IoEventType
  | .idle => []
  | .draining t => [t]
  | .drained t => [t]

namespace Connection

/-- An accepted connection behind `DoConnect`. -/
def init (lSocket : Nat) : Connection where
  pipe := .established lSocket
  registered := true
  worker := .wait
  call := .idle
  main := .idle
  queue := []
  log := []

/-- `DoClose()`, with the removal of the socket from the epoll set. -/
def DoClose (st : Connection) : Connection :=
  if st.pipe.m_nStatus ≠ .SS_UNINITIALIZE then
    { st with pipe := st.pipe.DoClose, registered := false }
  else st

/-- The socket is closed and out of the epoll set. -/
def isClosed (st : Connection) : Bool := decide (st.pipe.m_lSocketHandler = -1) && !st.registered

/-- The events that the main thread has not finished: the one it handles and the queue. -/
def events (st : Connection) : List IoEventType := st.main.event ++ st.queue

/-- A step of the worker. -/
def workerStep (st : Connection) : ConnAction → Option Connection
  | .event mask =>
      match st.worker with
      | .wait => if st.registered then some { st with worker := .testRecv mask } else none
      | _ => none
  | .testRecv =>
      match st.worker with
      | .testRecv mask =>
          if mask.EPOLLIN ∧ st.pipe.m_nStatus = .SS_ESTABLISHED then
            some { st with worker := .inRecv mask 0 }
          else some { st with worker := .testSend mask .COUNT }
      | _ => none
  | .recv result =>
      match st.worker with
      | .inRecv mask nRecvSize =>
          match result with
          | .data piece =>
              if 0 < piece.length then
                some { st with
                  pipe := { st.pipe with
                    m_oRecvStream :=
                      st.pipe.m_oRecvStream.inBytes (Mem.ofList piece 0) piece.length }
                  worker := .inRecv mask (nRecvSize + piece.length) }
              else none
          | .EAGAIN =>
              some { st with
                worker := .testSend mask (if nRecvSize > 0 then .RECV else .COUNT) }
          -- The end of the stream, or an error.
          | .ended => some { st.DoClose with worker := .testSend mask .BREAK }
      | _ => none
  | .testSend =>
      match st.worker with
      | .testSend mask t =>
          if mask.EPOLLOUT ∧ st.pipe.m_nStatus ≠ .SS_UNINITIALIZE then
            some { st with worker := .inSend mask t }
          else some { st with worker := .testClose mask t }
      | _ => none
  | .send result =>
      match st.worker with
      | .inSend mask t =>
          (st.pipe.doSendRound result).map fun r =>
            match r.2 with
            | .again => { st with pipe := r.1.pipe }
            | .returned type =>
                { st with
                  pipe := r.1.pipe
                  worker := .testClose mask (if t ≠ .BREAK ∧ type ≠ .COUNT then type else t) }
      | _ => none
  | .testClose =>
      match st.worker with
      | .testClose mask t =>
          -- The type that `DoRecv` and `DoSend` have left goes on as it is.
          if mask.hasError ∧ st.pipe.m_nStatus ≠ .SS_UNINITIALIZE then
            some { st.DoClose with worker := .add t }
          else some { st with worker := .add t }
      | _ => none
  | .add =>
      match st.worker with
      | .add t =>
          -- COUNT stands for no event.
          if t ≠ .COUNT then
            some { st with
              worker := .wait
              queue := st.queue ++ [t]
              log := st.log ++ [.Add t st.isClosed] }
          else some { st with worker := .wait }
      | _ => none
  | _ => none

/-- A step of the main thread inside `Send` or `Close`. -/
def callStep (st : Connection) : ConnAction → Option Connection
  | .Send src =>
      match st.call with
      | .idle =>
          let r := st.pipe.sendIn (Mem.ofList src 0) src.length
          some { st with pipe := r.1, call := if r.2 then .sending else .idle }
      | _ => none
  | .SendLocked results =>
      match st.call with
      | .sending =>
          (st.pipe.sendSection results).map fun r => { st with pipe := r.pipe, call := .idle }
      | _ => none
  | .Close =>
      match st.call with
      | .idle => some { st with pipe := st.pipe.closeMark, call := .closing }
      | _ => none
  | .CloseLocked =>
      match st.call with
      | .closing => some { st with pipe := st.pipe.closeSection.pipe, call := .idle }
      | _ => none
  | _ => none

/-- A step of the main thread in `Processing`. A call of `Send` or `Close` that it is in
comes first. -/
def mainStep (st : Connection) : ConnAction → Option Connection
  | .read =>
      match st.call, st.main, st.queue with
      | .idle, .idle, t :: queue => some { st with main := .draining t, queue }
      | _, _, _ => none
  | .round nUse =>
      match st.call, st.main with
      | .idle, .draining t =>
          let s := st.pipe.m_oRecvStream
          if s.size > 0 then
            some { st with
              pipe := { st.pipe with m_oRecvStream := if nUse > 0 then s.out nUse else s }
              -- The loop goes on while `OnRecv` uses something.
              main := if 0 ≠ nUse then .draining t else .drained t
              log := st.log ++ [.OnRecv] }
          else some { st with main := .drained t }
      | _, _ => none
  | .finish =>
      match st.call, st.main with
      | .idle, .drained t =>
          some { st with
            main := .idle
            log := if .BREAK = t then st.log ++ [.OnDisconnect] else st.log }
      | _, _ => none
  | _ => none

/-- One step of a thread. -/
def step (st : Connection) (a : ConnAction) : Option Connection :=
  match a with
  | .event _ | .testRecv | .recv _ | .testSend | .send _ | .testClose | .add => st.workerStep a
  | .Send _ | .SendLocked _ | .Close | .CloseLocked => st.callStep a
  | .read | .round _ | .finish => st.mainStep a

end Connection

end Kernel4GameServer
