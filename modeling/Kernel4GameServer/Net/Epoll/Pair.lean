import Kernel4GameServer.Net.Epoll.Edge

/-!
# `Kernel4GameServer.Net.Epoll.Pair`: two connections joined by the network

The two ends of a TCP connection, both run by the epoll engine. What `send` accepts at one end
comes to the socket of the other in the order it was sent, in pieces of any size, as long as that
socket has space. The room of the sender comes back with it.

Neither side closes or hangs up, and the network does not move between two calls of `send` in one
`Send`. The offsets of the streams are those of `s32` while there is room for the bytes of every
`Send` and of every `recv` (`TStream.HasRoom`).
-/

set_option autoImplicit false

namespace Kernel4GameServer

open Lib

/-- An end of the connection. -/
inductive Side where
  | left
  | right
  deriving DecidableEq, Repr

/-- The other end. -/
def Side.other : Side → Side
  | .left => .right
  | .right => .left

@[simp] theorem Side.other_other (i : Side) : i.other.other = i := by
  cases i <;> rfl

theorem Side.other_ne (i : Side) : i.other ≠ i := by
  cases i <;> decide

/-- The two ends. A socket holds at most `recvCap` bytes that were not read. -/
structure EdgePair where
  ends : Side → EdgeState
  recvCap : Nat

/-- A step of a thread that closes nothing. The locked section of `Send` is one step, so the
network moves in front of it or behind it. -/
def EdgeAction.talks : EdgeAction → Bool
  | .arrive _ _ | .free _ _ | .hangup _ | .Close | .closeLocked => false
  | .sendLocked calls => calls.all (·.freed.isNone)
  | _ => true

/-- A step on the way of bytes from `Send` to `m_oRecvStream`: those of the worker, and the locked
section of `Send`. -/
def EdgeAction.moves : EdgeAction → Bool
  | .Send _ | .read | .round _ | .finish => false
  | a => a.talks

/-- The steps: those of the threads at an end, and `k` bytes from it that come to the other. -/
inductive PairAction where
  | thread (i : Side) (a : EdgeAction)
  | deliver (i : Side) (k : Nat) (freeEdge arriveEdge : Bool)
  deriving DecidableEq, Repr

/-- A step on the way of bytes. -/
def PairAction.moves : PairAction → Bool
  | .thread _ a => a.moves
  | .deliver _ _ _ _ => true

namespace EdgePair

/-- Two connected ends, with sockets that take `sendCap i` bytes. -/
def init (lSocket sendCap : Side → Nat) (recvCap : Nat) : EdgePair where
  ends i := .init (lSocket i) (sendCap i)
  recvCap := recvCap

/-- What was sent at `i` and has not come to the other end. -/
def inFlight (s : EdgePair) (i : Side) : List UInt8 :=
  (s.ends i).wire.drop (s.ends i.other).arrived.length

/-- One step. -/
def step (s : EdgePair) : PairAction → Option EdgePair
  | .thread i a =>
      if a.talks then
        ((s.ends i).step a).map fun e => { s with ends := Function.update s.ends i e }
      else none
  | .deliver i k freeEdge arriveEdge =>
      if k ≤ (s.inFlight i).length ∧
          (s.ends i.other).sock.recvBuf.length + k ≤ s.recvCap then
        ((s.ends i).step (.free k freeEdge)).bind fun e =>
          ((s.ends i.other).step (.arrive ((s.inFlight i).take k) arriveEdge)).map fun e' =>
            { s with ends := Function.update (Function.update s.ends i e) i.other e' }
      else none

end EdgePair

end Kernel4GameServer
