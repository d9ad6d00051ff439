import Kernel4GameServer.Net.Header
import Kernel4GameServer.Public.TStreamSteps

/-!
# `Kernel4GameServer.Net.Iocp.CPipe`: one connection of the IOCP engine

`kernel/net/iocp/CPipe.cpp` with what it uses of `iocphead.cpp` and `Pipe.h`. The functions
are cut where another thread can come between: at the read lock of `m_oSendStream`, and in
front of every read of `m_nStatus` and of `m_bNeedPostOPT` that is not under it.

The calls of Winsock are the environment. Whether WSARecv or WSASend fails at once is an
argument, the range that WSASend is given is part of the result. A packet is posted by
`PostQueuedCompletionStatus`, which does not fail (the `TASSERT` behind each call) where
there is a completion port.
-/

set_option autoImplicit false

namespace Kernel4GameServer.Iocp

open Lib

/-- `eSocketOpt`. -/
inductive SocketOpt where
  | SO_ACCEPT
  | SO_TCPRECV
  | SO_TCPSEND
  | SO_CONNECT
  deriving DecidableEq, Repr

/-- `INVALID_SOCKET`. -/
def INVALID_SOCKET : Int := -1

/-- `iocp_event`: the operation and the socket. `pContext` is the pipe of the event. -/
structure IocpEvent where
  opt : SocketOpt
  socket : Int
  deriving DecidableEq, Repr

/-- `clear()`. The value `0` of `opt` is `SO_ACCEPT`. -/
def IocpEvent.cleared : IocpEvent := { opt := .SO_ACCEPT, socket := 0 }

/-- `formartIocpevent(pEvent, p, socket, event)`: what `pEvent` is afterwards. -/
def formartIocpevent (socket : Int) (event : SocketOpt) : IocpEvent := { opt := event, socket }

/-- `CPipe`. A completion port is the number of its worker, a session a number too. -/
structure CPipe where
  m_nStatus : SocketStatus
  m_lSocketHandler : Int
  m_hCompletionPort : Option Nat
  m_pHost : Option Nat
  m_bNeedPostOPT : Bool
  m_pRecvEvent : IocpEvent
  m_pSendEvent : IocpEvent
  m_oRecvStream : TStream BUFF_SIZE
  m_oSendStream : TStream BUFF_SIZE

/-- What the locked section of `Out` leads to. `issued` is the range that a WSASend was
given, with the bytes there. -/
inductive OutEnd where
  | emptied
  | issued (view : View)
  | failed

namespace CPipe

/-- `Clear()`. -/
def Clear (p : CPipe) : CPipe :=
  { p with
    m_nStatus := .SS_UNINITIALIZE
    m_lSocketHandler := INVALID_SOCKET
    m_hCompletionPort := none
    m_bNeedPostOPT := true
    m_oRecvStream := p.m_oRecvStream.clear
    m_oSendStream := p.m_oSendStream.clear
    m_pRecvEvent := .cleared
    m_pSendEvent := .cleared }

/-- The constructor `CPipe()`. -/
def new : CPipe :=
  Clear
    { m_nStatus := .SS_UNINITIALIZE
      m_lSocketHandler := INVALID_SOCKET
      m_hCompletionPort := none
      m_pHost := none
      m_bNeedPostOPT := true
      m_pRecvEvent := .cleared
      m_pSendEvent := .cleared
      m_oRecvStream := .init
      m_oSendStream := .init }

/-- `formartIocpevent(m_pRecvEvent, this, m_lSocketHandler, event)`. -/
def formatRecv (p : CPipe) (event : SocketOpt) : CPipe :=
  { p with m_pRecvEvent := formartIocpevent p.m_lSocketHandler event }

/-- `formartIocpevent(m_pSendEvent, this, m_lSocketHandler, SO_TCPSEND)`. -/
def formatSend (p : CPipe) : CPipe :=
  { p with m_pSendEvent := formartIocpevent p.m_lSocketHandler .SO_TCPSEND }

/-- `Close()`. -/
def Close (p : CPipe) : CPipe := { p with m_nStatus := .SS_WAITCLOSE }

/-- `In(pContext, nSize)`. -/
def In (p : CPipe) (pContext : Mem UInt8) (nSize : Int) : CPipe :=
  { p with m_oRecvStream := p.m_oRecvStream.inBytes pContext nSize }

/-- The first part of `DoRecv`. On an established pipe it calls WSARecv, and `some` is what
`DoRecv` returns. Otherwise `m_bNeedPostOPT` is read next. -/
def doRecvStatus (p : CPipe) (ok : Bool) : CPipe × Option Bool :=
  let p := p.formatRecv .SO_TCPRECV
  (p, if p.m_nStatus = .SS_ESTABLISHED then some ok else none)

/-- `DoRecv()` with nothing in between: the pipe, the result, and whether a WSARecv is
pending. -/
def DoRecv (p : CPipe) (ok : Bool) : CPipe × Bool × Bool :=
  match p.doRecvStatus ok with
  | (p, some ok) => (p, ok, ok)
  | (p, none) => (p, !p.m_bNeedPostOPT, false)

/-- The first part of `Send`. -/
def sendIn (p : CPipe) (pContext : Mem UInt8) (nSize : Int) : CPipe :=
  { p with m_oSendStream := p.m_oSendStream.inBytes pContext nSize }

/-- The locked section of `Send`. The flag says that a packet is posted. -/
def sendSection (p : CPipe) : CPipe × Bool :=
  if p.m_bNeedPostOPT then ({ p.formatSend with m_bNeedPostOPT := false }, true)
  else (p, false)

/-- `Send(pContext, nSize)` with nothing in between. -/
def Send (p : CPipe) (pContext : Mem UInt8) (nSize : Int) : CPipe × Bool :=
  (p.sendIn pContext nSize).sendSection

/-- The locked section of `Out(nSize)`. -/
def outSection (p : CPipe) (sNetSendSize : Nat) (nSize : Int) (ok : Bool) : CPipe × OutEnd :=
  let s : TStream BUFF_SIZE := p.m_oSendStream.out nSize
  let p := { p with m_oSendStream := s }
  -- Nothing is left, so the next `Send` posts a packet again.
  if 0 = s.size then ({ p with m_bNeedPostOPT := true }, .emptied)
  else
    -- One WSASend takes `sNetSendSize` bytes at most.
    let len : Int := if s.size ≥ sNetSendSize then sNetSendSize else s.size
    (p.formatSend,
      if ok then
        .issued
          { block := s.m_pbuff.alloc
            off := s.m_read
            nLeft := len
            bytes := Mem.slice s.buff 0 len.toNat }
      else .failed)

/-- What `Out` returns behind its locked section. -/
def outResult (p : CPipe) : OutEnd → Bool
  -- Here a `Close` is noticed.
  | .emptied => decide (p.m_nStatus ≠ .SS_WAITCLOSE)
  | .issued _ => true
  | .failed => false

end CPipe

end Kernel4GameServer.Iocp
