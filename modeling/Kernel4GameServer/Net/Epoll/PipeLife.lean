import Kernel4GameServer.Lib.Run
import Kernel4GameServer.Net.Epoll.Worker

/-!
# `Kernel4GameServer.Net.Epoll.PipeLife`: one `CPipe` object from use to use

`CPipe.cpp`, `epoller.cpp`, `SPipe.cpp` and `epollWorker.cpp` for one unit of `s_oCPipePool`.
`AddClient` and `DoAccept` take it from the pool, `Release` gives it back, and so on. In
between, three parties work on it.

* The main thread handles the events of its own epoll set (`DealEvent`), runs `Processing` on
  the queued events and calls the session, which may call `Send` and `Close` from inside
  `OnConnected` and `OnRecv`.
* A worker handles the events of its epoll set, through the tests of `Run`, `DoRecv`,
  `DoSend` and `DoClose`. `BalancingWorker` may give each use another worker, which is
  `m_lEpollFD` here.
* The environment decides what the system calls return and which events the two sets report.

A socket stays in an epoll set until it is closed or taken out. `mainSet` and `workerSet` say
where the socket of the current use is. `Release` closes nothing, so it can leave a socket in
a set whose event still points to the pipe. `mainStale` counts those in the main set, and
`workerStale` lists the workers that have one. So two workers can be at one pipe.

Each statement that reads or writes what another thread may write is a step of its own: the
`TASSERT` and the test of `Send`, the store of `Close`, each iteration of the loops, the
`epoll_ctl` of `PostOPTInEpollQueue`, and the store, the `EPOLL_CTL_DEL` and the `close` of
`DoClose`. A callback on a pipe without a host is a crash, and there is no step.

The fields from `outbound` on are ghosts of the current use, `failed` and `revived` ghosts of
the whole life.
-/

set_option autoImplicit false

namespace Kernel4GameServer

open Lib

/-- What the session of a pipe gets to see. -/
inductive PipeCallback where
  | OnConnected
  | OnConnectFailed
  | OnRecv
  | OnDisconnect
  deriving DecidableEq, Repr

/-- Where a worker is: in `Run`, or in `DoClose` behind the store to `m_nStatus` or behind
`EPOLL_CTL_DEL`. Behind `DoClose` it goes on at `next`. -/
inductive LifePc where
  | run (pc : WorkerPc)
  | del (next : WorkerPc)
  | shut (next : WorkerPc)
  deriving DecidableEq, Repr

/-- What a worker has to do with the pipe: the events that `epoll_wait` returned and that it
has not looked at yet, where it is, and what it added to its `m_oEventQueue`. -/
structure LifeWorker where
  events : List EpollFlags
  pc : LifePc
  queue : List IoEventType
  deriving DecidableEq, Repr

/-- Where the main thread is. `again` says that `AddClient` calls `OnConnected` once more. -/
inductive LifeMain where
  | idle
  | accepted
  | connected (again : Bool)
  | draining (type : IoEventType)
  | inRecv (type : IoEventType)
  | drained (type : IoEventType)
  deriving DecidableEq, Repr

/-- Where the main thread is inside `Send` or `Close`: behind the `TASSERT`, behind
`m_oSendStream.in`, in the loop, behind the store of `Close`, or in front of the `epoll_ctl` of
`PostOPTInEpollQueue`. -/
inductive LifeCall where
  | idle
  | sendTest (src : List UInt8)
  | sendLock
  | sendLoop
  | closeLock
  | post (opt : EpollFlags)
  deriving DecidableEq, Repr

namespace CPipe

/-- `Clear()`. -/
def Clear (p : CPipe) : CPipe where
  m_nStatus := .SS_UNINITIALIZE
  m_lSocketHandler := -1
  m_bNeedSend := true
  m_oRecvStream := p.m_oRecvStream.clear
  m_oSendStream := p.m_oSendStream.clear

/-- A new pipe, as the constructor leaves it. -/
def new : CPipe where
  m_nStatus := .SS_UNINITIALIZE
  m_lSocketHandler := -1
  m_bNeedSend := true
  m_oRecvStream := .init
  m_oSendStream := .init

/-- The results that `send` and `recv` have on a socket that is `-1`: a failure. -/
def allows (p : CPipe) (ok : Bool) : Bool := decide (p.m_lSocketHandler ≠ -1) || !ok

/-- One iteration of the loop of `Send`, and where the main thread goes on. `none` when `send`
accepts a number of bytes outside `1 .. nLen`. -/
def sendRound (p : CPipe) (result : SendResult) : Option (CPipe × LifeCall) :=
  let nLen := p.m_oSendStream.size
  if nLen > 0 then
    match result with
    | .sent k => if 0 < k ∧ (k : Int) ≤ nLen then some (p.sendOut k, .sendLoop) else none
    | .EAGAIN => some ({ p with m_bNeedSend := false }, .idle)
    | .failed => some (p, .post .errors)
  else if p.m_nStatus = .SS_WAITCLOSE then some (p, .post .errors)
  else some ({ p with m_bNeedSend := true }, .idle)

end CPipe

/-- A pipe, where the threads are with it, and the ghosts. -/
structure PipeLife where
  pipe : CPipe
  inUse : Bool
  pointed : Bool
  m_lEpollFD : Option Nat
  mainSet : Bool
  workerSet : Bool
  mainStale : Nat
  workerStale : List Nat
  dealing : List EpollFlags
  worker : Nat → LifeWorker
  main : LifeMain
  call : LifeCall
  outbound : Bool
  connecting : Bool
  opened : Bool
  doClosed : Bool
  closeCalled : Bool
  callbacks : List PipeCallback
  doConnects : Nat
  lost : Bool
  failed : Bool
  revived : Bool

/-- What `connect` returned, when `AddClient` goes on to create a pipe. -/
inductive ConnectResult where
  | connected
  | EINPROGRESS
  deriving DecidableEq, Repr

/-- The steps. An `ok` is the result of an `epoll_ctl` with `EPOLL_CTL_ADD`. -/
inductive LifeAction where
  | AddClient (lSocket lEpollFD : Nat) (ret : ConnectResult) (ok : Bool)
  | DoAccept (lSocket lEpollFD : Nat) (ok : Bool)
  | SetStatus
  | ret
  | wait (mask : EpollFlags)
  | DealEvent (ok : Bool)
  | Send (src : List UInt8)
  | Close
  | goOn (result : SendResult)
  | read (w : Nat)
  | look
  | used (nUse : Int)
  | finish
  | event (w : Nat) (mask : EpollFlags)
  | work (w : Nat) (received : RecvResult) (sent : SendResult)
  deriving DecidableEq, Repr

/-- The session is in a callback from which it may call `Send` and `Close`. -/
def LifeMain.inCallback : LifeMain → Bool
  | .connected _ | .inRecv _ => true
  | _ => false

namespace PipeLife

/-- A unit that was never in use. -/
def init : PipeLife where
  pipe := .new
  inUse := false
  pointed := false
  m_lEpollFD := none
  mainSet := false
  workerSet := false
  mainStale := 0
  workerStale := []
  dealing := []
  worker _ := ⟨[], .run .wait, []⟩
  main := .idle
  call := .idle
  outbound := false
  connecting := false
  opened := false
  doClosed := false
  closeCalled := false
  callbacks := []
  doConnects := 0
  lost := false
  failed := false
  revived := false

/-! ### Use and release -/

/-- `CPipe::Create` and `Relate`. -/
def start (st : PipeLife) (lSocket lEpollFD : Nat) (outbound : Bool) : PipeLife :=
  { st with
    pipe := { st.pipe with m_lSocketHandler := lSocket }
    inUse := true
    pointed := true
    m_lEpollFD := some lEpollFD
    outbound
    connecting := false
    opened := false
    doClosed := false
    closeCalled := false
    callbacks := []
    doConnects := 0
    lost := false }

/-- `Release()`. The sockets stay in their epoll sets. -/
def Release (st : PipeLife) : PipeLife :=
  { st with
    pipe := st.pipe.Clear
    inUse := false
    m_lEpollFD := none
    mainSet := false
    workerSet := false
    mainStale := st.mainStale + if st.mainSet then 1 else 0
    workerStale := st.workerStale ++ if st.workerSet then st.m_lEpollFD.toList else []
    connecting := false
    opened := false
    doClosed := false
    closeCalled := false }

/-- `m_nStatus = SS_ESTABLISHED;`. -/
def establish (st : PipeLife) : PipeLife :=
  { st with
    pipe := { st.pipe with m_nStatus := .SS_ESTABLISHED }
    opened := true
    closeCalled := false
    revived := st.revived || st.doClosed }

/-- `DoConnect()`. With `ok` the main thread is in `OnConnected` afterwards. -/
def DoConnect (st : PipeLife) (ok again : Bool) : PipeLife :=
  let st := { st.establish with doConnects := st.doConnects + 1, connecting := false }
  if ok then
    { st with
      workerSet := true
      main := .connected again
      callbacks := st.callbacks ++ [.OnConnected] }
  else
    -- `close` takes the socket out of both sets.
    { st with
      pipe := { st.pipe with m_nStatus := .SS_UNINITIALIZE }
      mainSet := false
      workerSet := false
      pointed := false
      lost := st.lost || decide (PipeCallback.OnConnected ∈ st.callbacks)
      callbacks := st.callbacks ++ [PipeCallback.OnConnectFailed] }.Release

/-- The error branch of `DealEvent`. -/
def connectFailed (st : PipeLife) : PipeLife :=
  { st with
    pointed := false
    lost := st.lost || decide (PipeCallback.OnConnected ∈ st.callbacks)
    callbacks := st.callbacks ++ [PipeCallback.OnConnectFailed] }.Release

/-- `EPOLL_CTL_ADD` of the socket to the set of the worker can succeed: it is open and not in
the set. -/
def canAdd (st : PipeLife) (ok : Bool) : Bool :=
  (!st.workerSet && decide (st.pipe.m_lSocketHandler ≠ -1)) || !ok

/-! ### The workers -/

/-- The worker `w` is at `pc`. -/
def goTo (st : PipeLife) (w : Nat) (pc : LifePc) : PipeLife :=
  { st with worker := fun u => if u = w then { st.worker w with pc } else st.worker u }

/-- `DoClose()` of the worker `w` up to the store to `m_nStatus`. -/
def DoClose (st : PipeLife) (w : Nat) (next : WorkerPc) : PipeLife :=
  if st.pipe.m_nStatus ≠ .SS_UNINITIALIZE then
    { st with
      pipe := { st.pipe with m_nStatus := .SS_UNINITIALIZE }
      doClosed := true }.goTo w (.del next)
  else st.goTo w (.run next)

/-- The worker `w` begins with the next event that `epoll_wait` returned. -/
def take (st : PipeLife) (w : Nat) : Option PipeLife :=
  match (st.worker w).events with
  | [] => none
  | mask :: events =>
      some { st with
        worker := fun u =>
          if u = w then { st.worker w with events, pc := .run (.testRecv mask) }
          else st.worker u }

/-- `m_oEventQueue.Add` of the worker `w`, and the end of the event. -/
def Add (st : PipeLife) (w : Nat) (t : IoEventType) : PipeLife :=
  { st with
    worker := fun u =>
      if u = w then
        { st.worker w with
          pc := .run .wait
          queue := if t ≠ .COUNT then (st.worker w).queue ++ [t] else (st.worker w).queue }
      else st.worker u }

/-- The next step of the worker `w`. -/
def work (st : PipeLife) (w : Nat) (received : RecvResult) (sent : SendResult) :
    Option PipeLife :=
  match (st.worker w).pc with
  | .run .wait => st.take w
  | .run (.testRecv mask) =>
      if mask.EPOLLIN ∧ st.pipe.m_nStatus = .SS_ESTABLISHED then
        some (st.goTo w (.run (.inRecv mask 0)))
      else some (st.goTo w (.run (.testSend mask .COUNT)))
  | .run (.inRecv mask nRecvSize) =>
      match received with
      | .data piece =>
          if 0 < piece.length ∧ st.pipe.m_lSocketHandler ≠ -1 then
            some ({ st with
              pipe := { st.pipe with
                m_oRecvStream :=
                  st.pipe.m_oRecvStream.inBytes (Mem.ofList piece 0) piece.length } }.goTo w
              (.run (.inRecv mask (nRecvSize + piece.length))))
          else none
      | .EAGAIN =>
          if st.pipe.m_lSocketHandler ≠ -1 then
            some (st.goTo w (.run (.testSend mask (if nRecvSize > 0 then .RECV else .COUNT))))
          else none
      -- The end of the stream, or an error.
      | .ended => some (st.DoClose w (.testSend mask .BREAK))
  | .run (.testSend mask t) =>
      if mask.EPOLLOUT ∧ st.pipe.m_nStatus ≠ .SS_UNINITIALIZE then
        some (st.goTo w (.run (.inSend mask t)))
      else some (st.goTo w (.run (.testClose mask t)))
  | .run (.inSend mask t) =>
      if st.pipe.allows (decide (sent ≠ .failed)) then
        (st.pipe.doSendRound sent).map fun r =>
          match r.2 with
          | .again => { st with pipe := r.1.pipe }
          | .returned type =>
              { st with pipe := r.1.pipe }.goTo w
                (.run (.testClose mask
                  (if t ≠ IoEventType.BREAK ∧ type ≠ IoEventType.COUNT then type else t)))
      else none
  | .run (.testClose mask t) =>
      if mask.hasError ∧ st.pipe.m_nStatus ≠ .SS_UNINITIALIZE then some (st.DoClose w (.add t))
      else some (st.goTo w (.run (.add t)))
  | .run (.add t) => some (st.Add w t)
  | .del next => some ({ st with workerSet := false }.goTo w (.shut next))
  | .shut next =>
      -- `close` takes the socket out of both sets.
      some ({ st with
        pipe := { st.pipe with m_lSocketHandler := -1 }
        mainSet := false
        workerSet := false }.goTo w (.run next))

/-! ### The main thread -/

/-- The next step inside `Send` or `Close`. -/
def goOn (st : PipeLife) (result : SendResult) : Option PipeLife :=
  match st.call with
  | .idle => none
  | .sendTest src =>
      let r := st.pipe.sendIn (Mem.ofList src 0) src.length
      some { st with pipe := r.1, call := if r.2 then .sendLock else .idle }
  | .sendLock => some { st with call := if st.pipe.m_bNeedSend then .sendLoop else .idle }
  | .sendLoop =>
      if st.pipe.allows (decide (result ≠ .failed)) then
        (st.pipe.sendRound result).map fun r => { st with pipe := r.1, call := r.2 }
      else none
  | .closeLock =>
      some { st with call := if st.pipe.m_bNeedSend then .post .outOnce else .idle }
  -- EPOLL_CTL_MOD fails where the socket is not in the set.
  | .post _ => some { st with call := .idle, failed := st.failed || !st.workerSet }

/-- `case SO_CONNECT` of `DealEvent` with the event mask `mask`. -/
def deal (st : PipeLife) (mask : EpollFlags) (ok : Bool) : Option PipeLife :=
  if st.inUse then
    if mask.hasError then some st.connectFailed
    else if mask.EPOLLOUT then
      if st.canAdd ok then some (st.DoConnect ok false) else none
    else some st
  else none

/-- One step. -/
def step (st : PipeLife) : LifeAction → Option PipeLife
  | .AddClient lSocket lEpollFD ret ok =>
      if st.inUse = false ∧ st.main = .idle then
        match ret with
        | .connected =>
            let st := (st.start lSocket lEpollFD true).DoConnect ok true
            -- `AddClient` calls `OnConnected` whatever `DoConnect` did.
            some (if ok then st else { st with callbacks := st.callbacks ++ [.OnConnected] })
        | .EINPROGRESS =>
            some { st.start lSocket lEpollFD true with mainSet := ok, connecting := true }
      else none
  | .DoAccept lSocket lEpollFD ok =>
      if st.inUse = false ∧ st.main = .idle then
        let st := (st.start lSocket lEpollFD false).establish
        some (if ok then { st with workerSet := true, main := .accepted } else st.Release)
      else none
  | .SetStatus =>
      if st.main = .accepted then
        some { st.establish with
          main := .connected false
          callbacks := st.callbacks ++ [.OnConnected] }
      else none
  | .ret =>
      match st.main, st.call with
      | .connected again, .idle =>
          some (if again then
            { st with main := .connected false, callbacks := st.callbacks ++ [.OnConnected] }
          else { st with main := .idle })
      | _, _ => none
  | .wait mask =>
      -- The socket of an earlier use may still be in the set.
      if st.main = .idle ∧ (st.mainSet = true ∨ 0 < st.mainStale) then
        some { st with dealing := st.dealing ++ [mask] }
      else none
  | .DealEvent ok =>
      match st.main, st.dealing with
      | .idle, mask :: dealing => { st with dealing }.deal mask ok
      | _, _ => none
  | .Send src =>
      if st.main.inCallback ∧ st.call = .idle then
        some { st with
          call := .sendTest src
          failed := st.failed || decide (st.pipe.m_nStatus ≠ .SS_ESTABLISHED) }
      else none
  | .Close =>
      if st.main.inCallback ∧ st.call = .idle then
        some { st with
          pipe := st.pipe.closeMark
          call := .closeLock
          closeCalled := true
          revived := st.revived || st.doClosed }
      else none
  | .goOn result => st.goOn result
  | .read w =>
      match st.main, st.dealing, (st.worker w).queue with
      | .idle, [], t :: queue =>
          some { st with
            main := .draining t
            worker := fun u => if u = w then { st.worker w with queue } else st.worker u }
      | _, _, _ => none
  | .look =>
      match st.main with
      | .draining t =>
          if st.pipe.m_oRecvStream.size > 0 then
            -- A unit that was given back has no session to call.
            if st.inUse then
              some { st with main := .inRecv t, callbacks := st.callbacks ++ [.OnRecv] }
            else none
          else some { st with main := .drained t }
      | _ => none
  | .used nUse =>
      match st.main, st.call with
      | .inRecv t, .idle =>
          let s := st.pipe.m_oRecvStream
          some { st with
            pipe := { st.pipe with m_oRecvStream := if nUse > 0 then s.out nUse else s }
            main := if 0 ≠ nUse then .draining t else .drained t }
      | _, _ => none
  | .finish =>
      match st.main with
      | .drained t =>
          if .BREAK = t then
            if st.inUse then
              some { st with main := .idle, callbacks := st.callbacks ++ [.OnDisconnect] }
            else none
          else some { st with main := .idle }
      | _ => none
  | .event w mask =>
      if (st.worker w).pc = .run .wait ∧
          ((st.workerSet = true ∧ st.m_lEpollFD = some w) ∨ w ∈ st.workerStale) then
        some { st with
          worker := fun u =>
            if u = w then { st.worker w with events := (st.worker w).events ++ [mask] }
            else st.worker u }
      else none
  | .work w received sent => st.work w received sent

end PipeLife

end Kernel4GameServer
