import Kernel4GameServer.Lib.Run
import Kernel4GameServer.Net.Epoll.CPipe

/-!
# `Kernel4GameServer.Net.Epoll.SendPath`: the main thread and the worker on one send stream

The main thread calls `CPipe::Send` and `CPipe::Close` in any order, the worker runs
`CPipe::DoSend` at any moment. What runs under the read lock of `m_oSendStream` is one step,
and so is one iteration of `DoSend`. The unlocked parts of `Send` and `Close`, in front of
their locked sections, are steps of their own.

`wire` is what `send` has accepted so far, `posted` the options given to `epoll_ctl`.
-/

set_option autoImplicit false

namespace Kernel4GameServer

open Lib

/-- Where the main thread is: outside, or in front of the locked section of `Send` or
`Close`. -/
inductive SendMain where
  | idle
  | sending
  | closing
  deriving DecidableEq, Repr

/-- Where the worker is: outside, or in the loop of `DoSend`. -/
inductive SendWorker where
  | idle
  | inDoSend
  deriving DecidableEq, Repr

/-- A pipe with its two threads. `failed` says that some `send` failed, `closed` that a
`Close` has finished, `flushed` that `DoSend` has returned BREAK without a failure of its
own. -/
structure SendState where
  pipe : CPipe
  main : SendMain
  worker : SendWorker
  wire : List UInt8
  posted : List EpollFlags
  failed : Bool
  closed : Bool
  flushed : Bool

/-- The steps of the two threads, with the results of the `send` calls they make. -/
inductive SendAction where
  | send (src : List UInt8)
  | sendLocked (results : List SendResult)
  | close
  | closeLocked
  | doSend
  | iterate (result : SendResult)
  deriving DecidableEq, Repr

namespace SendState

/-- A connected pipe, nothing sent. -/
def init (lSocket : Int) : SendState where
  pipe := .established lSocket
  main := .idle
  worker := .idle
  wire := []
  posted := []
  failed := false
  closed := false
  flushed := false

/-- The bookkeeping for a locked section of either thread. -/
def sent (st : SendState) (r : Sent) : SendState :=
  { st with
    pipe := r.pipe
    wire := st.wire ++ r.wire
    posted := st.posted ++ r.posted
    failed := st.failed || r.failed }

/-- One step of a thread. -/
def step (st : SendState) : SendAction → Option SendState
  | .send src =>
      match st.main with
      | .idle =>
          let r := st.pipe.sendIn (Mem.ofList src 0) src.length
          -- On a pipe that is not established `Send` returns at once.
          some { st with pipe := r.1, main := if r.2 then .sending else .idle }
      | _ => none
  | .sendLocked results =>
      match st.main with
      | .sending =>
          (st.pipe.sendSection results).map fun r => { st.sent r with main := .idle }
      | _ => none
  | .close =>
      match st.main with
      | .idle => some { st with pipe := st.pipe.closeMark, main := .closing }
      | _ => none
  | .closeLocked =>
      match st.main with
      | .closing => some { st.sent st.pipe.closeSection with main := .idle, closed := true }
      | _ => none
  | .doSend =>
      match st.worker with
      | .idle => some { st with worker := .inDoSend }
      | .inDoSend => none
  | .iterate result =>
      match st.worker with
      | .idle => none
      | .inDoSend =>
          (st.pipe.doSendRound result).map fun r =>
            match r.2 with
            | .again => st.sent r.1
            | .returned type =>
                { st.sent r.1 with
                  worker := .idle
                  flushed := st.flushed || (decide (type = .BREAK) && !r.1.failed) }

/-- The arguments of the `Send` calls in front of the first `Close`, one behind the
other. -/
def arguments : List SendAction → List UInt8
  | [] => []
  | .send src :: as => src ++ arguments as
  | .close :: _ => []
  | _ :: as => arguments as

end SendState

end Kernel4GameServer
