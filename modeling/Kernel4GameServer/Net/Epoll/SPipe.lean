import Kernel4GameServer.Lib.Run
import Kernel4GameServer.Net.Epoll.PipeLife
import Kernel4GameServer.Public.TPool

/-!
# `Kernel4GameServer.Net.Epoll.SPipe`: the accept loop with sockets, pipes and sessions

`kernel/net/epoll/SPipe.cpp`. One iteration of `DoAccept` takes a socket with `accept`, a pipe
from `s_oCPipePool` and a session from `MallocConnection`, and relates the three.

The engine around it is what the three refer to: the pool of pipes, `m_pPipe` of every
session, and the sockets that are open. The other parts of the engine that change it are
`AddClient`, the failed end of a `connect` (`connectFailed`: `DoConnect` closes the socket and
`DealEvent` does not) and `DoClose`. Without `_DEBUG` a `TASSERT` is empty, so `Release` clears
a pipe of any status.
-/

set_option autoImplicit false

namespace Kernel4GameServer

/-- A `CPipe` with the fields that relate it. A session is its number. -/
structure SessionPipe where
  pipe : CPipe
  m_oAddr : Option Nat
  m_pHost : Option Nat
  m_lEpollFD : Option Nat

namespace SessionPipe

/-- A new pipe, as the constructor leaves it. -/
def new : SessionPipe where
  pipe := .new
  m_oAddr := none
  m_pHost := none
  m_lEpollFD := none

/-- `Clear()`. -/
def Clear (p : SessionPipe) : SessionPipe where
  pipe := p.pipe.Clear
  m_oAddr := none
  m_pHost := none
  m_lEpollFD := none

/-- Nothing of a use is left: what `Clear` leaves of a pipe stays what it is. -/
structure Cleared (p : SessionPipe) : Prop where
  status : p.pipe.m_nStatus = .SS_UNINITIALIZE
  socket : p.pipe.m_lSocketHandler = -1
  need_send : p.pipe.m_bNeedSend = true
  recv : p.pipe.m_oRecvStream.unread = []
  send : p.pipe.m_oSendStream.unread = []
  addr : p.m_oAddr = none
  host : p.m_pHost = none
  epoll : p.m_lEpollFD = none

end SessionPipe

/-- What the pipes, the sessions and the sockets refer to. -/
structure AcceptEngine where
  s_oCPipePool : TPool SessionPipe
  m_pPipe : Nat → Option Nat
  sockets : List Nat

/-- What `accept` and the calls behind it give to one iteration: the socket, the address,
whether `setnonblocking` succeeds, the session, the set of the worker, and whether `epoll_ctl`
succeeds. -/
structure Accepting where
  lSocket : Nat
  addr : Nat
  nonblocking : Bool
  pSession : Nat
  lEpollFD : Nat
  added : Bool

/-- The steps of the engine. -/
inductive EngineAction where
  | DoAccept (x : Accepting)
  | AddClient (lSocket pSession lEpollFD : Nat)
  | connectFailed (p : Nat) (closes : Bool)
  | DoClose (p : Nat)

namespace AcceptEngine

/-- An engine without connections. -/
def init : AcceptEngine where
  s_oCPipePool := .init .new 64
  m_pPipe _ := none
  sockets := []

/-- The pipe at `p`. -/
def pipe (st : AcceptEngine) (p : Nat) : SessionPipe := st.s_oCPipePool.unit p

/-- `Relate(pHost, lSocket, lEpollFD)` of the pipe at `p`. -/
def Relate (st : AcceptEngine) (p pHost lSocket lEpollFD : Nat) : AcceptEngine :=
  { st with
    s_oCPipePool := st.s_oCPipePool.set p { st.pipe p with
      pipe := { (st.pipe p).pipe with m_lSocketHandler := lSocket }
      m_pHost := some pHost
      m_lEpollFD := some lEpollFD }
    m_pPipe := fun s => if s = pHost then some p else st.m_pPipe s }

/-- `Release()` of the pipe at `p`. -/
def Release (st : AcceptEngine) (p : Nat) : AcceptEngine :=
  { st with s_oCPipePool := (st.s_oCPipePool.set p (st.pipe p).Clear).Recover p }

/-- `close(m_lSocketHandler)` of the pipe at `p`. -/
def close (st : AcceptEngine) (p : Nat) : AcceptEngine :=
  { st with sockets := st.sockets.filter fun s => (st.pipe p).pipe.m_lSocketHandler ≠ s }

/-- `SetSockAddr` and `SetStatus(SS_ESTABLISHED)` of the pipe at `p`. -/
def establish (st : AcceptEngine) (p addr : Nat) : AcceptEngine :=
  { st with
    s_oCPipePool := st.s_oCPipePool.set p { st.pipe p with
      pipe := { (st.pipe p).pipe with m_nStatus := .SS_ESTABLISHED }
      m_oAddr := some addr } }

/-- `m_pHost->m_pPipe = NULL;` of the pipe at `p`. -/
def unpoint (st : AcceptEngine) (p : Nat) : AcceptEngine :=
  { st with m_pPipe := fun s => if some s = (st.pipe p).m_pHost then none else st.m_pPipe s }

/-- One iteration of the loop of `DoAccept`, from the socket that `accept` returned on. The
second part is the pipe it created. -/
def acceptRound (st : AcceptEngine) (x : Accepting) : AcceptEngine × Option Nat :=
  let st := { st with sockets := x.lSocket :: st.sockets }
  if x.nonblocking then
    match st.s_oCPipePool.Create .new 64 with
    | none => (st, none)
    | some (p, pool) =>
        let st := { st with s_oCPipePool := pool }
        let st := (st.establish p x.addr).Relate p x.pSession x.lSocket x.lEpollFD
        (if x.added then st else st.Release p, some p)
  else (st, none)

/-- One step. -/
def step (st : AcceptEngine) : EngineAction → Option AcceptEngine
  | .DoAccept x => if x.lSocket ∉ st.sockets then some (st.acceptRound x).1 else none
  | .AddClient lSocket pSession lEpollFD =>
      if lSocket ∉ st.sockets then
        (st.s_oCPipePool.Create .new 64).map fun r =>
          { st with s_oCPipePool := r.2, sockets := lSocket :: st.sockets }.Relate r.1 pSession
            lSocket lEpollFD
      else none
  | .connectFailed p closes =>
      if st.s_oCPipePool.inUse p = true then
        let st := if closes then st.close p else st
        some ((st.unpoint p).Release p)
      else none
  | .DoClose p =>
      if st.s_oCPipePool.inUse p = true then
        let st := st.close p
        some { st with
          s_oCPipePool := st.s_oCPipePool.set p { st.pipe p with
            pipe := (st.pipe p).pipe.DoClose } }
      else none

end AcceptEngine

end Kernel4GameServer
