import Kernel4GameServer.Net.Header
import Kernel4GameServer.Public.TStream

/-!
# `Kernel4GameServer.Net.Epoll.CPipe`: one connection of the epoll engine

`kernel/net/epoll/CPipe.cpp`. The functions are cut at the read lock of `m_oSendStream`:
what runs between `LockRead` and `FreeRead` is one definition. `send`, `recv` and
`epoll_ctl` are the environment. A result of `send` is an argument, the bytes it accepts
and the options posted with `epoll_ctl` are part of the result.
-/

set_option autoImplicit false

namespace Kernel4GameServer

open Lib

/-- A set of epoll flags, as an event mask or as the options of `epoll_ctl`. -/
structure EpollFlags where
  EPOLLIN : Bool := false
  EPOLLOUT : Bool := false
  EPOLLERR : Bool := false
  EPOLLHUP : Bool := false
  EPOLLRDHUP : Bool := false
  EPOLLONESHOT : Bool := false
  deriving DecidableEq, Repr

/-- `EPOLLERR | EPOLLHUP | EPOLLRDHUP`. -/
def EpollFlags.errors : EpollFlags where
  EPOLLERR := true
  EPOLLHUP := true
  EPOLLRDHUP := true

/-- `EPOLLOUT | EPOLLONESHOT`. -/
def EpollFlags.outOnce : EpollFlags where
  EPOLLOUT := true
  EPOLLONESHOT := true

/-- `events & (EPOLLERR | EPOLLHUP | EPOLLRDHUP)`. -/
def EpollFlags.hasError (mask : EpollFlags) : Bool :=
  mask.EPOLLERR || mask.EPOLLHUP || mask.EPOLLRDHUP

/-- The result of `send(socket, buff, n, 0)`: `k` bytes accepted, `EAGAIN`, or a failure. -/
inductive SendResult where
  | sent (k : Nat)
  | EAGAIN
  | failed
  deriving DecidableEq, Repr

/-- The fields of `CPipe` that sending, receiving and closing use. -/
structure CPipe where
  m_nStatus : SocketStatus
  m_lSocketHandler : Int
  m_bNeedSend : Bool
  m_oRecvStream : TStream BUFF_SIZE
  m_oSendStream : TStream BUFF_SIZE

/-- What a locked section of the send path did: the pipe after it, the bytes that `send`
accepted, the options it posted, and whether a `send` failed. -/
structure Sent where
  pipe : CPipe
  wire : List UInt8 := []
  posted : List EpollFlags := []
  failed : Bool := false

/-- What an iteration of `DoSend` leads to. -/
inductive DoSendEnd where
  | again
  | returned (type : IoEventType)
  deriving DecidableEq, Repr

namespace CPipe

/-- A connected pipe on a new socket. -/
def established (lSocket : Int) : CPipe where
  m_nStatus := .SS_ESTABLISHED
  m_lSocketHandler := lSocket
  m_bNeedSend := true
  m_oRecvStream := .init
  m_oSendStream := .init

/-- `m_oSendStream.out(k)`. -/
def sendOut (p : CPipe) (k : Int) : CPipe := { p with m_oSendStream := p.m_oSendStream.out k }

/-- `Send` with nothing left to send. -/
def sendDone (p : CPipe) : Sent :=
  if p.m_nStatus = .SS_WAITCLOSE then { pipe := p, posted := [.errors] }
  else { pipe := { p with m_bNeedSend := true } }

/-- The `while (true)` of `Send`, one result of `send` a round. `none` when the results run
out or `send` accepts a number of bytes outside `1 .. nLen`. -/
def sendLoop (p : CPipe) : List SendResult → Option Sent
  | [] => if p.m_oSendStream.size > 0 then none else some p.sendDone
  | result :: rest =>
      let nLen := p.m_oSendStream.size
      if nLen > 0 then
        match result with
        | .sent k =>
            if 0 < k ∧ (k : Int) ≤ nLen then
              ((p.sendOut k).sendLoop rest).map fun r =>
                { r with wire := Mem.slice p.m_oSendStream.buff 0 k ++ r.wire }
            else none
        -- The worker goes on at the next EPOLLOUT.
        | .EAGAIN => some { pipe := { p with m_bNeedSend := false } }
        | .failed => some { pipe := p, posted := [.errors], failed := true }
      else some p.sendDone

/-- The locked section of `Send`. -/
def sendSection (p : CPipe) (results : List SendResult) : Option Sent :=
  if p.m_bNeedSend then p.sendLoop results else some { pipe := p }

/-- The first part of `Send`: the status test and `m_oSendStream.in`. The flag says that
`Send` goes on. -/
def sendIn (p : CPipe) (context : Mem UInt8) (nSize : Int) : CPipe × Bool :=
  if p.m_nStatus ≠ .SS_ESTABLISHED then (p, false)
  else ({ p with m_oSendStream := p.m_oSendStream.inBytes context nSize }, true)

/-- `Send(context, nSize)` with nothing in between. -/
def Send (p : CPipe) (context : Mem UInt8) (nSize : Int) (results : List SendResult) :
    Option Sent :=
  let (p', goesOn) := p.sendIn context nSize
  if goesOn then p'.sendSection results else some { pipe := p' }

/-- The first part of `Close`. -/
def closeMark (p : CPipe) : CPipe := { p with m_nStatus := .SS_WAITCLOSE }

/-- The locked section of `Close`. -/
def closeSection (p : CPipe) : Sent :=
  { pipe := p, posted := if p.m_bNeedSend then [.outOnce] else [] }

/-- `Close()` with nothing in between. -/
def Close (p : CPipe) : Sent := p.closeMark.closeSection

/-- One iteration of `DoSend`. The result of `send` is not looked at when nothing is
pending. `none` when `send` accepts a number of bytes outside `1 .. nLen`. -/
def doSendRound (p : CPipe) (result : SendResult) : Option (Sent × DoSendEnd) :=
  let nLen := p.m_oSendStream.size
  if nLen > 0 then
    match result with
    | .sent k =>
        if 0 < k ∧ (k : Int) ≤ nLen then
          some ({ pipe := p.sendOut k, wire := Mem.slice p.m_oSendStream.buff 0 k }, .again)
        else none
    | .EAGAIN => some ({ pipe := p }, .returned .COUNT)
    | .failed => some ({ pipe := p, failed := true }, .returned .BREAK)
  -- `Close` has come, and everything is out.
  else if p.m_nStatus = .SS_WAITCLOSE then some ({ pipe := p }, .returned .BREAK)
  else some ({ pipe := { p with m_bNeedSend := true } }, .returned .COUNT)

/-- `DoClose()`. The removal from the epoll set and the `close` of the socket are the
environment's; the socket is gone when `m_lSocketHandler` is `-1`. -/
def DoClose (p : CPipe) : CPipe :=
  if p.m_nStatus ≠ .SS_UNINITIALIZE then
    { p with m_nStatus := .SS_UNINITIALIZE, m_lSocketHandler := -1 }
  else p

end CPipe

end Kernel4GameServer
