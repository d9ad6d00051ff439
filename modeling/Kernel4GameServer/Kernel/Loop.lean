import Kernel4GameServer.Net.Epoll.Processing
import Kernel4GameServer.Public.TQueue

/-!
# `Kernel4GameServer.Kernel.Loop`: the loop of the main thread

`kernel/Kernel.cpp` with the parts of the network engines that the loop runs through. A round of
`Kernel::Loop` is one `netengine::Processing` and one `Timermgr::Processing`. `Processing` of either
engine looks at the listeners once (`DealEvent`, `CompletedAccept`) and then visits its workers in
their order, each with a share of `sNetframetick`:

* `epollWorker::Processing` reads events as long as there are any, and for each runs the drain loop
  on the pipe, `drainBody` of `Net.Epoll.Processing`;
* `iocpworker::Processing` calls `OnRecv` once for a RECV event. It asks `IsEmpty()` where `Read`
  found no event, and reads again when the counters of the queue say that there is one.

Both leave behind an event when the share is used up. The drain loop does not look at the clock: it
goes round as long as `OnRecv` returns anything but zero. The clock is `now` of the step, any value.

The queues are those of `TQueue`, with the `Add` of the worker threads in steps of their own. A
round of the drain loop is one step, and so is the `in` of a worker (`received`). A callback is
assumed to return. `OnRecv` is any function, and `Shutdown` may be called at any moment. The
`TASSERT` of `out` on a value above `size()`, which ends a build with `_DEBUG`, is empty. The
offsets of the streams are those of `s32` while there is room for every piece (`TStream.HasRoom`).

`rounds`, `handled`, `spins`, `drains` and `bytes` are ghosts: the rounds, the events whose handling
has ended, how often a queue was read again because of its counters, how often the drain loop went
round again, and the bytes received.
-/

set_option autoImplicit false

namespace Kernel4GameServer

open Lib

/-- `netengine`. -/
inductive NetEngine where
  | epoller
  | iocper
  deriving DecidableEq, Repr

/-- What of `overtime` an engine leaves to one of its `m_nWorkerCount` workers. -/
def NetEngine.share (engine : NetEngine) (m_nWorkerCount : Nat) (overtime : Int) : Int :=
  match engine with
  | .epoller => overtime.tdiv (m_nWorkerCount + 1)
  | .iocper => overtime.tdiv 4

/-- `ioevent`, about one of `m` pipes. -/
structure IoEvent (m : Nat) where
  type : IoEventType
  pCPipe : Fin m
  deriving DecidableEq, Repr

/-- A worker adds an event of this type. In the epoll engine it is what `DoRecv` and `DoSend`
return. -/
def NetEngine.adds (engine : NetEngine) (type : IoEventType) : Bool :=
  match engine with
  | .epoller => type = .BREAK ∨ type = .RECV
  | .iocper => type ≠ .COUNT

/-- Where the main thread is. `i` is the index of the worker and `lTick` the clock when its visit
began. -/
inductive LoopPc (m : Nat) where
  | before
  | head
  | deal
  | visit (i : Nat)
  | read (i : Nat) (lTick : Int)
  | reading (i : Nat) (lTick : Int)
  | handling (i : Nat) (lTick : Int) (event : IoEvent m)
  | empty (i : Nat) (lTick : Int)
  | timed (i : Nat) (lTick : Int)
  | timers
  | done
  deriving DecidableEq, Repr

/-- The kernel, the queues of its workers, the pipes with their sessions, and the ghosts. -/
structure LoopState (σ ε : Type) (m size : Nat) where
  m_bShutdown : Bool
  m_oEventQueue : Nat → QueueState (IoEvent m) size
  pipes : Fin m → Drain σ ε
  pc : LoopPc m
  rounds : Nat
  handled : Nat
  spins : Nat
  drains : Nat
  bytes : Nat

/-- A step of the main thread, a call of `Add` by the worker `i`, the next step of that call, bytes
for a pipe, or a call of `Shutdown`. -/
inductive LoopAction (m : Nat) where
  | main (now : Int)
  | Add (i : Nat) (event : IoEvent m)
  | produce (i : Nat)
  | received (pCPipe : Fin m) (piece : List UInt8)
  | Shutdown

/-- It is a step of the main thread. -/
def LoopAction.isMain {m : Nat} : LoopAction m → Bool
  | .main _ => true
  | _ => false

/-- What the kernel is built and configured with: the engine, `sNetThdCount` and
`sNetframetick`. -/
structure LoopConfig where
  engine : NetEngine
  sNetThdCount : Nat
  sNetframetick : Int
  deriving DecidableEq, Repr

/-- What `Processing` gives a worker. -/
def LoopConfig.share (c : LoopConfig) : Int := c.engine.share c.sNetThdCount c.sNetframetick

/-- The case RECV of `iocpworker::Processing`. -/
def recvOnce {σ ε : Type} (onRecv : OnRecv σ ε) (d : Drain σ ε) : Drain σ ε :=
  if 0 ≠ d.stream.size then
    let r := onRecv d.session d.stream.buff d.stream.size
    { session := r.session
      stream := if r.nUse > 0 then d.stream.out r.nUse else d.stream
      effects := d.effects ++ r.effects }
  else d

/-- What `Processing` does with an event once. The flag says that it does so again. -/
def NetEngine.handle {σ ε : Type} (engine : NetEngine) (onRecv : OnRecv σ ε) (type : IoEventType)
    (d : Drain σ ε) : Drain σ ε × Bool :=
  match engine, type with
  | .epoller, .BREAK | .epoller, .RECV => drainBody onRecv d
  -- `default:`, a failed `TASSERT`. No worker adds such an event.
  | .epoller, _ => (d, false)
  | .iocper, .RECV => (recvOnce onRecv d, false)
  -- `OnConnected`, `OnConnectFailed` or `OnDisconnect`.
  | .iocper, _ => (d, false)

namespace LoopState

variable {σ ε : Type} {m size : Nat}

/-- `Kernel()`, with new queues, and pipes on which nothing has been received. -/
def init (m_queue : Nat → Nat → IoEvent m) (session : Fin m → σ) : LoopState σ ε m size where
  m_bShutdown := true
  m_oEventQueue i := QueueState.init (m_queue i)
  pipes p := { session := session p, stream := .init, effects := [] }
  pc := .before
  rounds := 0
  handled := 0
  spins := 0
  drains := 0
  bytes := 0

/-- One of the queues takes a step. -/
def setQueue (s : LoopState σ ε m size) (i : Nat) (q : QueueState (IoEvent m) size) :
    LoopState σ ε m size :=
  { s with m_oEventQueue := Function.update s.m_oEventQueue i q }

/-- One of the pipes takes a step. -/
def setPipe (s : LoopState σ ε m size) (p : Fin m) (d : Drain σ ε) : LoopState σ ε m size :=
  { s with pipes := Function.update s.pipes p d }

/-- Where `Processing` goes on when `Read` has found no event. -/
def nothing (c : LoopConfig) (i : Nat) (lTick : Int) : LoopPc m :=
  match c.engine with
  | .epoller => .visit (i + 1)
  | .iocper => .empty i lTick

/-- Where `Read` goes on, by the assignment it makes next. -/
def behind (c : LoopConfig) (q : QueueState (IoEvent m) size) (i : Nat) (lTick : Int) : LoopPc m :=
  match q.consumer with
  | .test => if q.queue.missing then nothing c i lTick else .reading i lTick
  | .reset event => .handling i lTick event
  | _ => .reading i lTick

/-- A round of the handling of an event. -/
def handle (c : LoopConfig) (onRecv : OnRecv σ ε) (s : LoopState σ ε m size) (i : Nat)
    (lTick : Int) (event : IoEvent m) : LoopState σ ε m size :=
  let (d, again) := c.engine.handle onRecv event.type (s.pipes event.pCPipe)
  if again then { s.setPipe event.pCPipe d with drains := s.drains + 1 }
  else { s.setPipe event.pCPipe d with pc := .timed i lTick, handled := s.handled + 1 }

/-- The next step of `Loop()`. -/
def main (c : LoopConfig) (onRecv : OnRecv σ ε) (s : LoopState σ ε m size) (now : Int) :
    Option (LoopState σ ε m size) :=
  match s.pc with
  | .before => some { s with m_bShutdown := false, pc := .head }
  | .head => some { s with pc := if s.m_bShutdown then .done else .deal }
  | .deal => some { s with pc := .visit 0 }
  | .visit i => some { s with pc := if i < c.sNetThdCount then .read i now else .timers }
  | .read i lTick =>
      ((s.m_oEventQueue i).step .Read).map fun q => { s.setQueue i q with pc := .reading i lTick }
  | .reading i lTick =>
      ((s.m_oEventQueue i).step .consume).map fun q =>
        { s.setQueue i q with pc := behind c (s.m_oEventQueue i) i lTick }
  | .handling i lTick event => some (s.handle c onRecv i lTick event)
  | .empty i lTick =>
      if (s.m_oEventQueue i).queue.IsEmpty then some { s with pc := .visit (i + 1) }
      else some { s with pc := .timed i lTick, spins := s.spins + 1 }
  | .timed i lTick =>
      some { s with pc := if c.share ≤ now - lTick then .visit (i + 1) else .read i lTick }
  | .timers => some { s with pc := .head, rounds := s.rounds + 1 }
  | .done => none

/-- One step of a thread. -/
def step (c : LoopConfig) (onRecv : OnRecv σ ε) (s : LoopState σ ε m size) :
    LoopAction m → Option (LoopState σ ε m size)
  | .main now => s.main c onRecv now
  | .Add i event =>
      if c.engine.adds event.type then
        ((s.m_oEventQueue i).step (.Add event)).map (s.setQueue i)
      else none
  | .produce i => ((s.m_oEventQueue i).step .produce).map (s.setQueue i)
  | .received p piece =>
      let d := s.pipes p
      let stream := d.stream.inBytes (Mem.ofList piece 0) piece.length
      some { s.setPipe p { d with stream } with bytes := s.bytes + piece.length }
  | .Shutdown => some { s with m_bShutdown := true }

/-- The events that the worker `i` has added, the oldest first. -/
def added (s : LoopState σ ε m size) (i : Nat) : List (IoEvent m) := (s.m_oEventQueue i).added

/-- The events of the worker `i` that `Processing` has taken up, the oldest first. -/
def given (s : LoopState σ ε m size) (i : Nat) : List (IoEvent m) := (s.m_oEventQueue i).returned

end LoopState

end Kernel4GameServer
