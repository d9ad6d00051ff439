import Kernel4GameServer.Lib.Run
import Kernel4GameServer.Net.Epoll.CPipe

/-!
# `Kernel4GameServer.Net.Epoll.Listener`: a listening socket and the loop that accepts

`AddServer` adds the listening socket to `m_lEpollFD` with `EPOLLIN | EPOLLET`, `DealEvent` calls
`DoAccept` for a report of it, and `DoAccept` calls `accept` until it fails or a socket cannot be
made non-blocking.

`ListenSocket` is what the system promises of such a socket and no more: a report is due when a
connection comes behind an `accept` that said EAGAIN. `SPipe` says what one iteration does to the
pipes and the sessions. Here an iteration is what became of its connection.

`arrived` are the connections in the order they came, `taken` those that left the backlog,
`connected` those whose session got `OnConnected`, and `early` says that the last report was
answered without an `accept` that said EAGAIN. They are ghosts.
-/

set_option autoImplicit false

namespace Kernel4GameServer

open Lib

/-- A listening socket. `backlog` are the connections that wait, the oldest first. `failed` says
that an error is on the socket, `ready` that a report is due, and `acceptEdge` that the next
connection must be reported. -/
structure ListenSocket where
  backlog : List Nat
  failed : Bool
  ready : Bool
  acceptEdge : Bool
  deriving DecidableEq, Repr

namespace ListenSocket

/-- The socket behind `epoll_ctl(EPOLL_CTL_ADD)`, with the connections since `listen`. -/
def added (backlog : List Nat) : ListenSocket where
  backlog := backlog
  failed := false
  ready := !backlog.isEmpty
  acceptEdge := backlog.isEmpty

/-- `epoll_wait` may report `mask`. -/
def reports (s : ListenSocket) (mask : EpollFlags) : Bool :=
  s.ready && decide (mask.hasError = s.failed) && (mask.EPOLLIN || mask.hasError) &&
    (s.backlog.isEmpty || mask.EPOLLIN)

end ListenSocket

/-- What `accept` returns: a socket, with whether `setnonblocking` and `epoll_ctl` succeed on it, or
an error. With `aborted` the connection is gone too. -/
inductive AcceptResult where
  | socket (nonblocking added : Bool)
  | aborted
  | EAGAIN
  | error
  deriving DecidableEq, Repr

/-- The steps: those of the socket, a report to `DealEvent`, and one iteration of `DoAccept`. -/
inductive ListenAction where
  | arrive (c : Nat) (edge : Bool)
  | fail
  | skip
  | event (mask : EpollFlags)
  | accept (result : AcceptResult)
  deriving DecidableEq, Repr

/-- A listener. `accepting` says that the main thread is inside of `DoAccept`, `errors` counts the
calls of `Error`. -/
structure Listener where
  sock : ListenSocket
  accepting : Bool
  errors : Nat
  arrived : List Nat
  taken : List Nat
  connected : List Nat
  early : Bool
  deriving DecidableEq, Repr

namespace Listener

/-- A listener behind `AddServer`. -/
def init (backlog : List Nat) : Listener where
  sock := .added backlog
  accepting := false
  errors := 0
  arrived := backlog
  taken := []
  connected := []
  early := false

/-- `DealEvent` for a report of an `SO_ACCEPT`. -/
def DealEvent (st : Listener) (mask : EpollFlags) : Listener :=
  let sock := { st.sock with ready := false }
  if mask.hasError then { st with sock, errors := st.errors + 1, early := true }
  else if mask.EPOLLIN then { st with sock, accepting := true, early := false }
  else { st with sock }

/-- One iteration of `DoAccept`. -/
def DoAccept (st : Listener) (result : AcceptResult) : Option Listener :=
  match result, st.sock.backlog with
  | .socket nonblocking added, c :: backlog =>
      let st := { st with sock := { st.sock with backlog }, taken := st.taken ++ [c] }
      if nonblocking then
        if added then some { st with connected := st.connected ++ [c] }
        -- The pipe is released, and the loop goes on.
        else some st
      else some { st with accepting := false, early := true }
  | .aborted, c :: backlog =>
      some { st with
        sock := { st.sock with backlog }
        taken := st.taken ++ [c]
        accepting := false
        early := true }
  | .EAGAIN, [] =>
      some { st with sock := { st.sock with acceptEdge := true }, accepting := false }
  | .error, _ => some { st with accepting := false, early := true }
  | _, _ => none

/-- One step. -/
def step (st : Listener) : ListenAction → Option Listener
  | .arrive c edge =>
      if edge = true ∨ st.sock.acceptEdge = false then
        some { st with
          sock := { st.sock with
            backlog := st.sock.backlog ++ [c]
            ready := st.sock.ready || edge
            acceptEdge := st.sock.acceptEdge && !edge }
          arrived := st.arrived ++ [c] }
      else none
  | .fail => some { st with sock := { st.sock with failed := true, ready := true } }
  | .skip =>
      if st.accepting = false ∧ st.sock.backlog = [] ∧ st.sock.failed = false then
        some { st with sock := { st.sock with ready := false } }
      else none
  | .event mask =>
      if st.accepting = false ∧ st.sock.reports mask = true then some (st.DealEvent mask) else none
  | .accept result => if st.accepting then st.DoAccept result else none

/-- Nothing fails: no error is on the socket, and a socket from `accept` becomes a session. -/
def Smooth (_ : Listener) : ListenAction → Prop
  | .accept result => result = .socket true true ∨ result = .EAGAIN
  | .fail => False
  | _ => True

/-- Whether a step is smooth can be decided. -/
instance : ∀ (st : Listener) (a : ListenAction), Decidable (st.Smooth a)
  | _, .accept _ => inferInstanceAs (Decidable (_ ∨ _))
  | _, .fail => inferInstanceAs (Decidable False)
  | _, .arrive .. | _, .skip | _, .event _ => inferInstanceAs (Decidable True)

end Listener

/-- It is an iteration of `DoAccept`. -/
def ListenAction.accepts : ListenAction → Bool
  | .accept _ => true
  | _ => false

/-- The iterations that a step makes possible. -/
def ListenAction.cost : ListenAction → Nat
  | .arrive .. | .event _ => 1
  | _ => 0

end Kernel4GameServer
