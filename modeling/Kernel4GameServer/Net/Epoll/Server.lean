import Kernel4GameServer.Net.Epoll.Pair
import Kernel4GameServer.Net.Epoll.Processing

/-!
# `Kernel4GameServer.Net.Epoll.Server`: a session that answers what comes

Two connected ends, of which the right one is run by a session. Its main thread takes the events
from the queue, runs the drain loop, and calls `Send` from within `OnRecv` only. The main thread of
the left end, the client, sends and reads as it likes.

`OnRecv` is any function of the session, of the memory at `buff()` and of `size()`. Its effects are
calls, of which `send` tells the bytes of a `Send`. The calls are made one by one in front of
`m_oRecvStream.out`, and the worker runs between them. A call of `OnRecv` that sends nothing is one
step with the `out` behind it.
-/

set_option autoImplicit false

namespace Kernel4GameServer

open Lib

/-- `OnRecv` has come to its value, and `sends` are the calls of `Send` that are still to be
made. -/
structure Answering where
  nUse : Int
  sends : List (List UInt8)

/-- The two ends with the session at the right one. `effects` are those of all calls of `OnRecv` so
far, `served` is the number of calls that used something. -/
structure ServerPair (σ ε : Type) where
  pair : EdgePair
  session : σ
  answer : Option Answering
  effects : List ε
  served : Nat

/-- The steps: those of the two ends and the network, and those of the main thread of the server in
the drain loop. -/
inductive ServerAction where
  | net (a : PairAction)
  | OnRecv
  | Send
  | out
  deriving DecidableEq, Repr

/-- A step that the main thread of the server takes in the drain loop only. -/
def PairAction.ofSession : PairAction → Bool
  | .thread .right (.Send _) => true
  | .thread .right (.round _) => true
  | _ => false

/-- A step that brings an answer on: one on the way of bytes, or one of the main thread of the
server. -/
def ServerAction.serves : ServerAction → Bool
  | .net (.thread .right .read) => true
  | .net (.thread .right .finish) => true
  | .net a => a.moves
  | _ => true

namespace ServerPair

variable {σ ε : Type}

/-- Two connected ends, nothing received. -/
def init (lSocket sendCap : Side → Nat) (recvCap : Nat) (session : σ) : ServerPair σ ε where
  pair := .init lSocket sendCap recvCap
  session := session
  answer := none
  effects := []
  served := 0

/-- The end of the client. -/
def client (s : ServerPair σ ε) : EdgeState := s.pair.ends .left

/-- The end of the session. -/
def server (s : ServerPair σ ε) : EdgeState := s.pair.ends .right

/-- A step of the main thread of the server at its end. -/
def main (s : ServerPair σ ε) (a : EdgeAction) : Option (ServerPair σ ε) :=
  (s.pair.step (.thread .right a)).map fun pair => { s with pair }

/-- The call of `OnRecv` in a round of the drain loop. -/
def received (onRecv : OnRecv σ ε) (s : ServerPair σ ε) : Received σ ε :=
  recvCall onRecv s.session s.server.conn.pipe.m_oRecvStream
    s.server.conn.pipe.m_oRecvStream.size

/-- The state behind a call of `OnRecv`. -/
def called (s : ServerPair σ ε) (r : Received σ ε) : ServerPair σ ε :=
  { s with
    session := r.session
    effects := s.effects ++ r.effects
    served := s.served + (decide (0 < r.nUse)).toNat }

/-- One step. -/
def step (onRecv : OnRecv σ ε) (send : ε → Option (List UInt8)) (s : ServerPair σ ε) :
    ServerAction → Option (ServerPair σ ε)
  | .net a =>
      if a.ofSession then none else (s.pair.step a).map fun pair => { s with pair }
  | .OnRecv =>
      match s.answer, s.server.conn.call, s.server.conn.main with
      | none, .idle, .draining _ =>
          let r := s.received onRecv
          match r.effects.filterMap send with
          | [] => (s.called r).main (.round r.nUse)
          | src :: rest => some { s.called r with answer := some ⟨r.nUse, src :: rest⟩ }
      | _, _, _ => none
  | .Send =>
      match s.answer with
      | some ⟨nUse, src :: rest⟩ => ({ s with answer := some ⟨nUse, rest⟩ }).main (.Send src)
      | _ => none
  | .out =>
      match s.answer with
      | some ⟨nUse, []⟩ => ({ s with answer := none }).main (.round nUse)
      | _ => none

end ServerPair

end Kernel4GameServer
