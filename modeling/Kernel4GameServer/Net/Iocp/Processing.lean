import Kernel4GameServer.Lib.Run
import Kernel4GameServer.Net.Epoll.Processing

/-!
# `Kernel4GameServer.Net.Iocp.Processing`: received bytes in the IOCP engine

The way of received bytes from a completed WSARecv to the session, on one live connection.
`iocpworker::Run` appends the bytes of a completion to `m_oRecvStream` and adds a RECV event
to the queue. `iocpworker::Processing` takes one event after the other. For a RECV event it
calls `OnRecv` once, under the read lock, and takes out what `OnRecv` used.

The sibling in the epoll engine is `Net.Epoll.Processing`, from which the types of the
session are taken.
-/

set_option autoImplicit false

namespace Kernel4GameServer.Iocp

open Lib

variable {σ ε : Type}

/-- Where the main thread is in the case RECV of `Processing`: outside, behind `Read`, behind
`LockRead`, behind `0 != size()`, behind `buff()` and `size()`, in front of `FreeRead`. -/
inductive RecvMain where
  | idle
  | head
  | locked
  | tested
  | looked
  | done
  deriving DecidableEq, Repr

/-- A connection on the way of its bytes from the socket to the session. `receiving` says
that the worker is between a completion and the RECV event for it. -/
structure RecvState (σ ε : Type) where
  io : StreamState BUFF_SIZE
  receiving : Bool
  queue : List IoEventType
  main : RecvMain
  session : σ
  effects : List ε

/-- The steps: a WSARecv completes with some bytes, the worker goes through `in` and adds the
event, the main thread takes an event and goes through the case RECV. -/
inductive RecvAction where
  | complete (bytes : List UInt8)
  | append (a : StreamAction)
  | Add
  | read
  | lock
  | test
  | look
  | call
  | free

/-- The steps of `in` behind its first one. -/
def goesOn : StreamAction → Bool
  | .relocate => true
  | .copy => true
  | .advance => true
  | _ => false

namespace RecvState

/-- A connected pipe, nothing received. -/
def init (session : σ) : RecvState σ ε where
  io := .init
  receiving := false
  queue := []
  main := .idle
  session := session
  effects := []

/-- One step of a thread. -/
def step (onRecv : OnRecv σ ε) (st : RecvState σ ε) : RecvAction → Option (RecvState σ ε)
  | .complete bytes =>
      -- No bytes are the end of the connection.
      if st.receiving = false ∧ bytes ≠ [] then
        (st.io.step (.write bytes)).map fun io => { st with io, receiving := true }
      else none
  | .append a =>
      if goesOn a then (st.io.step a).map fun io => { st with io } else none
  | .Add =>
      match st.receiving, st.io.writer with
      | true, .idle => some { st with receiving := false, queue := st.queue ++ [.RECV] }
      | _, _ => none
  | .read =>
      match st.main, st.queue with
      | .idle, _ :: queue => some { st with main := .head, queue }
      | _, _ => none
  | .lock =>
      match st.main with
      | .head => (st.io.step .lock).map fun io => { st with io, main := .locked }
      | _ => none
  | .test =>
      match st.main with
      | .locked =>
          some { st with main := if 0 ≠ st.io.stream.size then .tested else .done }
      | _ => none
  | .look =>
      match st.main with
      | .tested => (st.io.step .look).map fun io => { st with io, main := .looked }
      | _ => none
  | .call =>
      match st.main, st.io.reader with
      | .looked, .looking v =>
          let r := onRecv st.session st.io.stream.buff v.nLeft
          (if r.nUse > 0 then st.io.step (.out r.nUse) else some st.io).map fun io =>
            { st with
              io
              main := .done
              session := r.session
              effects := st.effects ++ r.effects }
      | _, _ => none
  | .free =>
      match st.main with
      | .done => (st.io.step .free).map fun io => { st with io, main := .idle }
      | _ => none

/-- The bytes of the completions of a run, one list for each. -/
def chunks (as : List RecvAction) : List (List UInt8) :=
  as.filterMap fun
    | .complete bytes => some bytes
    | _ => none

/-- Every event is processed, and nothing is on the way. -/
structure Idle (st : RecvState σ ε) : Prop where
  receiving : st.receiving = false
  queue : st.queue = []
  main : st.main = .idle

end RecvState

end Kernel4GameServer.Iocp
