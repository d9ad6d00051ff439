import Kernel4GameServer.Lib.DoWhile
import Kernel4GameServer.Net.Header
import Kernel4GameServer.Public.TStreamSteps

/-!
# `Kernel4GameServer.Net.Epoll.Processing`: `epollWorker::Processing` on one pipe

`Processing` takes an event from the queue and runs the drain loop on `m_oRecvStream`: under
the read lock it hands the unread bytes to `OnRecv` and takes out what `OnRecv` used, until
`OnRecv` uses nothing. After a BREAK event it calls `OnDisconnect`.

`drainRound` is one round of the loop, `drainBody` the loop body for `Lib.doWhile`.
`RecvState.step` is the same code with the worker thread running beside it: the worker
appends to the stream through the steps of `in` and queues events, the main thread goes
through the loop. Events are those of one pipe.
-/

set_option autoImplicit false

namespace Kernel4GameServer

open Lib

/-- What a call of `ITcpSession::OnRecv` did: its value, the session after it, and its
effects. -/
structure Received (σ ε : Type) where
  nUse : Int
  session : σ
  effects : List ε

/-- `ITcpSession::OnRecv(pKernel, context, size)` of a session with states `σ`. -/
abbrev OnRecv (σ ε : Type) := σ → Mem UInt8 → Int → Received σ ε

variable {σ ε : Type}

/-- `nUse = 0; if (nLeft > 0) nUse = OnRecv(buff(), nLeft);` -/
def recvCall {buff_length : Nat} (onRecv : OnRecv σ ε) (session : σ) (s : TStream buff_length)
    (nLeft : Int) : Received σ ε :=
  if nLeft > 0 then onRecv session s.buff nLeft else ⟨0, session, []⟩

/-- A stream with the session that reads it, and the effects of its calls so far. -/
structure Drain (σ ε : Type) where
  session : σ
  stream : TStream BUFF_SIZE
  effects : List ε

/-- The body of the drain loop. The flag is `0 != nUse`. -/
def drainBody (onRecv : OnRecv σ ε) (d : Drain σ ε) : Drain σ ε × Bool :=
  let r := recvCall onRecv d.session d.stream d.stream.size
  ({ session := r.session
     stream := if r.nUse > 0 then d.stream.out r.nUse else d.stream
     effects := d.effects ++ r.effects },
   decide (0 ≠ r.nUse))

/-- The drain loop is about to run on a stream that got the bytes `w` in one `in`. -/
def onePiece (session : σ) (w : List UInt8) : Drain σ ε where
  session := session
  stream := TStream.init.inBytes (Mem.ofList w 0) w.length
  effects := []

/-- A callback the session has seen: an effect of `OnRecv`, or `OnDisconnect`. -/
inductive Callback (ε : Type) where
  | effect (e : ε)
  | OnDisconnect
  deriving DecidableEq, Repr

/-- The effects among the callbacks. -/
def effectsOf (trace : List (Callback ε)) : List ε :=
  trace.filterMap fun
    | .effect e => some e
    | .OnDisconnect => none

/-- Where the main thread is: outside, at the loop head, or behind `LockRead`, `size` and
`OnRecv`. The event is the one it handles. -/
inductive RecvMain where
  | idle
  | head (t : IoEventType)
  | locked (t : IoEventType)
  | looked (t : IoEventType)
  | used (t : IoEventType) (nUse : Int)
  deriving DecidableEq, Repr

/-- The event that the main thread handles. -/
def RecvMain.event : RecvMain → Option IoEventType
  | .idle => none
  | .head t => some t
  | .locked t => some t
  | .looked t => some t
  | .used t _ => some t

/-- A pipe on its way from the socket to the session. -/
structure RecvState (σ ε : Type) where
  io : StreamState BUFF_SIZE
  queue : List IoEventType
  main : RecvMain
  session : σ
  trace : List (Callback ε)

/-- The steps: the worker runs a step of `m_oRecvStream.in` or queues an event, the main
thread takes an event or runs a step of the loop. -/
inductive RecvAction where
  | append (a : StreamAction)
  | post (t : IoEventType)
  | read
  | lock
  | look
  | call
  | free

/-- The steps of `in`. -/
def StreamAction.ofWriter : StreamAction → Bool
  | .write _ => true
  | .relocate => true
  | .copy => true
  | .advance => true
  | _ => false

namespace RecvState

/-- A connected pipe, nothing received. -/
def init (session : σ) : RecvState σ ε where
  io := .init
  queue := []
  main := .idle
  session := session
  trace := []

/-- One step of a thread. -/
def step (onRecv : OnRecv σ ε) (st : RecvState σ ε) : RecvAction → Option (RecvState σ ε)
  | .append a =>
      if a.ofWriter then (st.io.step a).map fun io => { st with io } else none
  | .post t =>
      -- `Run` queues what `DoRecv` and `DoSend` return, which is no other type.
      if t = .BREAK ∨ t = .RECV then some { st with queue := st.queue ++ [t] } else none
  | .read =>
      match st.main, st.queue with
      | .idle, t :: queue => some { st with main := .head t, queue }
      | _, _ => none
  | .lock =>
      match st.main with
      | .head t => (st.io.step .lock).map fun io => { st with io, main := .locked t }
      | _ => none
  | .look =>
      match st.main with
      | .locked t => (st.io.step .look).map fun io => { st with io, main := .looked t }
      | _ => none
  | .call =>
      match st.main, st.io.reader with
      | .looked t, .looking v =>
          let r := recvCall onRecv st.session st.io.stream v.nLeft
          (if r.nUse > 0 then st.io.step (.out r.nUse) else some st.io).map fun io =>
            { st with
              io
              main := .used t r.nUse
              session := r.session
              trace := st.trace ++ r.effects.map .effect }
      | _, _ => none
  | .free =>
      match st.main with
      | .used t nUse =>
          (st.io.step .free).map fun io =>
            if 0 ≠ nUse then { st with io, main := .head t }
            else
              { st with
                io
                main := .idle
                trace := if .BREAK = t then st.trace ++ [.OnDisconnect] else st.trace }
      | _ => none

/-- An append for which there is room. -/
def Roomy (st : RecvState σ ε) : RecvAction → Prop
  | .append a => st.io.Roomy a
  | _ => True

instance (st : RecvState σ ε) : ∀ a, Decidable (st.Roomy a)
  | .append a => inferInstanceAs (Decidable (st.io.Roomy a))
  | .post _ | .read | .lock | .look | .call | .free => isTrue trivial

/-- Every `s32` expression of the step has a value, and the loop of `in` ends. -/
def InRange (onRecv : OnRecv σ ε) (st : RecvState σ ε) : RecvAction → Prop
  | .append a => st.io.InRange a
  | .look => st.io.InRange .look
  | .call =>
      match st.io.reader with
      | .looking v =>
          let nUse := (recvCall onRecv st.session st.io.stream v.nLeft).nUse
          (inS32 nUse).isSome ∧ (nUse > 0 → st.io.InRange (.out nUse))
      | _ => True
  | _ => True

/-- The pieces that the worker begins to append in a run, one behind the other. -/
def pieces (as : List RecvAction) : List UInt8 :=
  as.flatMap fun
    | .append (.write src) => src
    | _ => []

end RecvState

end Kernel4GameServer
