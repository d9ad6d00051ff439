import Kernel4GameServer.Net.Epoll.PipeLife
import Kernel4GameServer.Public.TPool

/-!
# `Kernel4GameServer.Net.Epoll.PipePool`: all pipes of the epoll engine

`s_oCPipePool` with every `CPipe` in it as a `PipeLife`. `AddClient` and `DoAccept` begin with
`CPipe::Create`, which takes a unit from the pool. Every other step is a step of one unit.
Where a step ran `Release`, the unit goes back to the pool.

The threads are kept apart by unit only: the main thread may be at several units at once.
That gives more runs than one main thread has.
-/

set_option autoImplicit false

namespace Kernel4GameServer

/-- The pool of pipes. -/
structure PipePool where
  s_oCPipePool : TPool PipeLife

/-- The steps: the two that create a pipe, and those of the pipe at `p`. -/
inductive PoolAction where
  | AddClient (lSocket lEpollFD : Nat) (ret : ConnectResult) (ok : Bool)
  | DoAccept (lSocket lEpollFD : Nat) (ok : Bool)
  | pipe (p : Nat) (a : LifeAction)
  deriving DecidableEq, Repr

/-- The step begins a use of the pipe. -/
def LifeAction.begins : LifeAction → Bool
  | .AddClient .. | .DoAccept .. => true
  | _ => false

namespace PipePool

/-- A pool whose pipes are all free. -/
def init : PipePool := ⟨.init .init 64⟩

/-- The pipe at `p`. -/
def pipe (st : PipePool) (p : Nat) : PipeLife := st.s_oCPipePool.unit p

/-- The pipe at `p` after a step. `Release` calls `Recover`. -/
def put (pool : TPool PipeLife) (p : Nat) (x : PipeLife) : PipePool :=
  if x.inUse then ⟨pool.set p x⟩ else ⟨(pool.set p x).Recover p⟩

/-- `CPipe::Create()` and the step that uses the new pipe. -/
def create (st : PipePool) (a : LifeAction) : Option PipePool :=
  match st.s_oCPipePool.Create .init 64 with
  | none => none
  | some (p, pool) => ((pool.unit p).step a).map (put pool p)

/-- One step. -/
def step (st : PipePool) : PoolAction → Option PipePool
  | .AddClient lSocket lEpollFD ret ok => st.create (.AddClient lSocket lEpollFD ret ok)
  | .DoAccept lSocket lEpollFD ok => st.create (.DoAccept lSocket lEpollFD ok)
  | .pipe p a =>
      if p < st.s_oCPipePool.allocated ∧ a.begins = false then
        ((st.pipe p).step a).map (put st.s_oCPipePool p)
      else none

end PipePool

end Kernel4GameServer
