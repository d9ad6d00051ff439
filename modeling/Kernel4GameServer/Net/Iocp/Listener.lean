import Kernel4GameServer.Lib.Run

/-!
# `Kernel4GameServer.Net.Iocp.Listener`: a listening socket and its one AcceptEx

`AddServer` and `CompletedAccept` in `kernel/net/iocp/iocper.cpp` and `DoAccept` in `SPipe.cpp`. A
listener has one `m_pAcceptEvent`. `DoAccept` opens a socket and hands both to `AcceptEx`,
`CompletedAccept` gets the event back from `m_hCompletionPortAC`, makes a session of the connection
and calls `DoAccept` again.

`DoAccept` returns false where no socket is opened, and both callers then tell the host by `Error`.
Where `AcceptEx` itself fails it closes the listening socket and returns true.

The system completes an `AcceptEx` with the oldest connection that waits, or with an error. It gives
an event back once. `CompletedAccept` also returns early where an `AcceptEx` comes back with
`WAIT_TIMEOUT`, and does not call `DoAccept` again. That is the code of a port without an event, and
no error of an `AcceptEx` here. `arrived`, `taken` and `connected` are the connections that came,
that an `AcceptEx` got, and whose session got `OnConnected`. They are ghosts.
-/

set_option autoImplicit false

namespace Kernel4GameServer

open Lib

/-- Where `m_pAcceptEvent` is: with no operation, with the system, or in the port, with the
connection or without one. -/
inductive AcceptOp where
  | none
  | pending
  | completed (c : Option Nat)
  deriving DecidableEq, Repr

/-- Where the main thread is: in `AddServer` before `DoAccept`, outside, in `CompletedAccept` with
an event, or in it before `DoAccept`. -/
inductive AcceptPc where
  | adding
  | outside
  | completing (c : Option Nat)
  | posting
  deriving DecidableEq, Repr

/-- What becomes of the connection in `CompletedAccept`: an option or `getpeername` fails,
`MallocConnection` returns NULL, `AddPIPE` fails, or the session is connected. -/
inductive Completion where
  | optionFailed
  | noSession
  | addFailed
  | connected
  deriving DecidableEq, Repr

/-- The steps: those of the system, and those of the main thread. `opened` and `posted` are whether
`WSASocket` and `AcceptEx` succeed. -/
inductive IocpListenAction where
  | arrive (c : Nat)
  | accepted
  | broken
  | CompletedAccept
  | complete (result : Completion)
  | DoAccept (opened posted : Bool)
  deriving DecidableEq, Repr

/-- A listener. `listening` says that the listening socket is open, `m_pPipe` that the one of the
host is set, `errors` counts the calls of `Error`, and `failures` those of `OnConnectFailed`. -/
structure IocpListener where
  backlog : List Nat
  op : AcceptOp
  pc : AcceptPc
  listening : Bool
  m_pPipe : Bool
  errors : Nat
  failures : Nat
  arrived : List Nat
  taken : List Nat
  connected : List Nat
  deriving DecidableEq, Repr

namespace IocpListener

/-- A listener in `AddServer`, in front of `DoAccept`. -/
def init : IocpListener where
  backlog := []
  op := .none
  pc := .adding
  listening := true
  m_pPipe := true
  errors := 0
  failures := 0
  arrived := []
  taken := []
  connected := []

/-- `DoAccept()` and what its callers do where it returns false. -/
def DoAccept (st : IocpListener) (opened posted : Bool) : IocpListener :=
  if opened then
    if posted then { st with op := .pending, pc := .outside }
    -- The socket is closed, and the result is true.
    else { st with listening := false, pc := .outside }
  else
    { st with
      listening := false
      m_pPipe := false
      errors := st.errors + 1
      pc := .outside }

/-- `CompletedAccept()` with the event of a connection, up to `DoAccept`. Where the operation failed
the socket has no peer, and no session is made. -/
def complete (st : IocpListener) (c : Option Nat) (result : Completion) : Option IocpListener :=
  match c, result with
  | some c, .connected => some { st with connected := st.connected ++ [c], pc := .posting }
  | some _, .addFailed => some { st with failures := st.failures + 1, pc := .posting }
  | some _, .noSession => some { st with pc := .posting }
  | _, .optionFailed => some { st with pc := .posting }
  | none, _ => none

/-- One step. -/
def step (st : IocpListener) : IocpListenAction → Option IocpListener
  | .arrive c =>
      -- A closed socket takes no connection.
      if st.listening then
        some { st with backlog := st.backlog ++ [c], arrived := st.arrived ++ [c] }
      else none
  | .accepted =>
      match st.op, st.backlog with
      | .pending, c :: backlog =>
          some { st with op := .completed (some c), backlog, taken := st.taken ++ [c] }
      | _, _ => none
  | .broken =>
      match st.op with
      | .pending => some { st with op := .completed .none }
      | _ => none
  | .CompletedAccept =>
      match st.pc, st.op with
      | .outside, .completed c => some { st with op := .none, pc := .completing c }
      | _, _ => none
  | .complete result =>
      match st.pc with
      | .completing c => st.complete c result
      | _ => none
  | .DoAccept opened posted =>
      match st.pc with
      | .adding | .posting => some (st.DoAccept opened posted)
      | _ => none

/-- The listener waits for a connection, or is on the way to. -/
def alive (st : IocpListener) : Bool := decide (st.op ≠ .none) || decide (st.pc ≠ .outside)

/-- The listener is not waiting for a connection any more, and its host was not told. -/
def Deaf (st : IocpListener) : Prop :=
  st.alive = false ∧ st.errors = 0 ∧ st.m_pPipe = true ∧ st.listening = false

/-- `AcceptEx` does not fail on an open socket. -/
def Posts (_ : IocpListener) : IocpListenAction → Prop
  | .DoAccept opened posted => opened = true → posted = true
  | _ => True

/-- Whether a step does so can be decided. -/
instance : ∀ (st : IocpListener) (a : IocpListenAction), Decidable (st.Posts a)
  | _, .DoAccept opened posted => inferInstanceAs (Decidable (opened = true → posted = true))
  | _, .arrive _ | _, .accepted | _, .broken | _, .CompletedAccept | _, .complete _ =>
      inferInstanceAs (Decidable True)

end IocpListener

end Kernel4GameServer
