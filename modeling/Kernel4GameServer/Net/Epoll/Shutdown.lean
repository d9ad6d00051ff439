import Kernel4GameServer.Lib.Run
import Kernel4GameServer.Net.Header
import Kernel4GameServer.Public.CThread
import Mathlib.Logic.Function.Basic

/-!
# `Kernel4GameServer.Net.Epoll.Shutdown`: the workers of `epoller` and its main thread

`epoller::Initialize` starts `m_nWorkerCount` workers, the main thread reads their queues in
`Processing`, and `epoller::Destory` calls `Terminate` of one after the other and then deletes
all of them. A worker is `epollWorker::Run` with the tests and waits it goes through. What the
handlers of a pipe do with an event is the environment; they leave an event type or `COUNT`.

The queue is that of `Public.TQueue`, taken as the list of the events in it. `Add` sleeps while
it is full.
-/

set_option autoImplicit false

namespace Kernel4GameServer

open Lib

/-- The `size` of `IOEVENT_QUEUE`. -/
def IOEVENT_QUEUE_SIZE : Nat := 4096

/-- `EPOLLER_EVENTS_COUNT`. -/
def EPOLLER_EVENTS_COUNT : Int := 128

/-- Where `Run` is in its loop: at the test of the status, at `epoll_wait`, in the loop over
the events with `left` of them to go, or in `Add`. -/
inductive RunLoopPc where
  | test
  | wait
  | events (left : Nat)
  | add (type : IoEventType) (left : Nat)
  deriving DecidableEq, Repr

/-- `Run` is in `Add`. -/
def RunLoopPc.inAdd : RunLoopPc → Bool
  | .add _ _ => true
  | _ => false

/-- The loop over the events goes on, or back to the test. -/
def RunLoopPc.next (left : Nat) : RunLoopPc := if left = 0 then .test else .events left

/-- `epollWorker`. -/
structure EpollWorker where
  thread : CThread
  loop : RunLoopPc
  m_oEventQueue : List IoEventType
  deriving DecidableEq, Repr

/-- The steps of `Run`. -/
inductive RunAction where
  | begin
  | test
  | epoll_wait (nRetCount : Int)
  | event (eventType : IoEventType)
  | Add
  deriving DecidableEq, Repr

/-- A step of `Run` that goes to `Add`. -/
def RunAction.adds : RunAction → Bool
  | .event eventType => decide (eventType ≠ .COUNT)
  | _ => false

namespace EpollWorker

/-- A worker behind its constructor. -/
def init : EpollWorker where
  thread := .init
  loop := .test
  m_oEventQueue := []

/-- The queue has no free slot. -/
def full (w : EpollWorker) : Bool := decide (IOEVENT_QUEUE_SIZE ≤ w.m_oEventQueue.length)

/-- A step of `Run`. -/
def step (w : EpollWorker) (a : RunAction) : Option EpollWorker :=
  match w.thread.run, w.loop, a with
  | .created, _, .begin => w.thread.begin.map fun thread => { w with thread, loop := .test }
  | .running, .test, .test =>
      if w.thread.m_nStatus = .THREAD_STOPPING then some { w with thread := w.thread.finish }
      else some { w with loop := .wait }
  | .running, .wait, .epoll_wait nRetCount =>
      -- No event and an interrupted call go back to the test.
      if nRetCount = 0 ∨ nRetCount = -1 then some { w with loop := .test }
      else if 0 < nRetCount ∧ nRetCount ≤ EPOLLER_EVENTS_COUNT then
        some { w with loop := .events nRetCount.toNat }
      else none
  | .running, .events (left + 1), .event eventType =>
      if eventType ≠ .COUNT then some { w with loop := .add eventType left }
      else some { w with loop := .next left }
  | .running, .add type left, .Add =>
      if w.full then some w
      else some { w with m_oEventQueue := w.m_oEventQueue ++ [type], loop := .next left }
  | _, _, _ => none

/-- The worker waits in `Add`. -/
def Blocked (w : EpollWorker) : Prop :=
  w.thread.run = .running ∧ w.loop.inAdd = true ∧ w.full = true

instance (w : EpollWorker) : Decidable w.Blocked := inferInstanceAs (Decidable (_ ∧ _))

end EpollWorker

/-- Where the main thread is: in `Initialize` before the start of the worker `i`, in its loop,
in `Destory` at the `Terminate` of the worker `i`, or behind `delete[] m_pWorkerAry`. -/
inductive EpollerPc where
  | Initialize (i : Nat)
  | running
  | Destory (i : Nat)
  | deleted
  deriving DecidableEq, Repr

/-- `epoller`. -/
structure Epoller where
  m_nWorkerCount : Nat
  m_pWorkerAry : Nat → EpollWorker
  main : EpollerPc

/-- The steps of the main thread and of the worker `i`. `Read` takes one event out of the
queue of a worker. -/
inductive EpollerAction where
  | Start
  | Read (i : Nat)
  | Destory
  | Terminate
  | worker (i : Nat) (a : RunAction)
  deriving DecidableEq, Repr

namespace Epoller

/-- The engine in `Initialize`, in front of the start of its workers. -/
def init (m_nWorkerCount : Nat) : Epoller where
  m_nWorkerCount := m_nWorkerCount
  m_pWorkerAry _ := .init
  main := .Initialize 0

/-- A write to a worker. -/
def setWorker (st : Epoller) (i : Nat) (w : EpollWorker) : Epoller :=
  { st with m_pWorkerAry := Function.update st.m_pWorkerAry i w }

/-- One step. -/
def step (st : Epoller) : EpollerAction → Option Epoller
  | .Start =>
      match st.main with
      | .Initialize i =>
          if i < st.m_nWorkerCount then
            (st.m_pWorkerAry i).thread.Start.map fun thread =>
              { st.setWorker i { st.m_pWorkerAry i with thread } with main := .Initialize (i + 1) }
          else some { st with main := .running }
      | _ => none
  | .Read i =>
      match st.main, (st.m_pWorkerAry i).m_oEventQueue with
      | .running, _ :: rest =>
          if i < st.m_nWorkerCount then
            some (st.setWorker i { st.m_pWorkerAry i with m_oEventQueue := rest })
          else none
      | _, _ => none
  | .Destory =>
      match st.main with
      | .running => some { st with main := .Destory 0 }
      | _ => none
  | .Terminate =>
      match st.main with
      | .Destory i =>
          if i < st.m_nWorkerCount then
            (st.m_pWorkerAry i).thread.Terminate.map fun thread =>
              { st.setWorker i { st.m_pWorkerAry i with thread } with
                main :=
                  match thread.terminate with
                  | .returned _ => .Destory (i + 1)
                  | _ => .Destory i }
          else some { st with main := .deleted }
      | _ => none
  | .worker i a => ((st.m_pWorkerAry i).step a).map (st.setWorker i)

/-- `Destory` is behind the `Terminate` of the worker `i`. -/
def Terminated (st : Epoller) (i : Nat) : Prop :=
  match st.main with
  | .Initialize _ => False
  | .running => False
  | .Destory j => i < j
  | .deleted => True

/-- `Run` of every worker whose `Terminate` has returned has returned too, so that it takes no
further step. -/
def Stopped (st : Epoller) : Prop :=
  ∀ i, i < st.m_nWorkerCount → st.Terminated i → (st.m_pWorkerAry i).thread.run = .returned

/-- `Terminate` of the worker `i` waits for STOPED, and the worker waits in `Add` for the main
thread. -/
def Deadlock (st : Epoller) (i : Nat) : Prop :=
  st.main = .Destory i ∧ (st.m_pWorkerAry i).thread.terminate = .waiting ∧
    (st.m_pWorkerAry i).Blocked

/-- `Terminate` tests the status of a worker that has begun, and it stores STOPPING when the
worker does not wait in `Add`. While it waits for the worker, the worker adds no event to a full
queue. -/
def InTime (st : Epoller) : EpollerAction → Prop
  | .Terminate =>
      match st.main with
      | .Destory i =>
          i < st.m_nWorkerCount →
            ((st.m_pWorkerAry i).thread.terminate = .idle →
              (st.m_pWorkerAry i).thread.run = .running) ∧
            ((st.m_pWorkerAry i).thread.terminate = .storing → ¬ (st.m_pWorkerAry i).Blocked)
      | _ => True
  | .worker i a =>
      a.adds = true → (st.m_pWorkerAry i).thread.terminate = .waiting →
        (st.m_pWorkerAry i).full = false
  | _ => True

instance (st : Epoller) : ∀ a, Decidable (st.InTime a)
  | .Start => isTrue trivial
  | .Read _ => isTrue trivial
  | .Destory => isTrue trivial
  | .Terminate =>
      match h : st.main with
      | .Initialize _ => isTrue (by rw [InTime, h]; trivial)
      | .running => isTrue (by rw [InTime, h]; trivial)
      | .Destory i =>
          decidable_of_iff (i < st.m_nWorkerCount →
            ((st.m_pWorkerAry i).thread.terminate = .idle →
              (st.m_pWorkerAry i).thread.run = .running) ∧
            ((st.m_pWorkerAry i).thread.terminate = .storing → ¬ (st.m_pWorkerAry i).Blocked))
            (by rw [InTime, h])
      | .deleted => isTrue (by rw [InTime, h]; trivial)
  | .worker _ _ => inferInstanceAs (Decidable (_ → _ → _))

end Epoller

end Kernel4GameServer
