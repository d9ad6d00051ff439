import Kernel4GameServer.Lib.Run
import Kernel4GameServer.Public.Tools

/-!
# `Kernel4GameServer.Net.Balancing`: which worker gets a connection

`kernel/net/epoll/epoller.cpp` and `kernel/net/iocp/iocper.cpp`. `BalancingWorker` looks for the
smallest `GetOPTCount()`. No code changes a `m_lOptCount` behind the constructor. `BalancingWork`
takes turns by a counter of the type `s32`, which wraps in two's complement, and the remainder
of C++ has the sign of the dividend.

`assigned` are the choices so far, the first one first, and `connected` the workers of the
connections that are still there. Both are ghosts.
-/

set_option autoImplicit false

namespace Kernel4GameServer

open Lib

/-- A connection comes, or the one at a place in the list of connections ends. -/
inductive BalanceAction where
  | connect
  | disconnect (place : Nat)
  deriving DecidableEq, Repr

/-- The number of connects. -/
def connects (as : List BalanceAction) : Nat := as.count .connect

/-! ### The epoll engine -/

/-- `epollWorker`, as far as the choice reads it. -/
structure WorkerLoad where
  m_lOptCount : Int
  deriving DecidableEq, Repr

/-- `epollWorker()`. -/
def WorkerLoad.init : WorkerLoad := { m_lOptCount := 0 }

/-- `GetOPTCount()`. -/
def WorkerLoad.GetOPTCount (w : WorkerLoad) : Int := w.m_lOptCount

/-- The workers of `epoller` and their connections. -/
structure EpollBalance where
  m_pWorkerAry : List WorkerLoad
  assigned : List Nat
  connected : List Nat
  deriving DecidableEq, Repr

namespace EpollBalance

/-- `Initialize()` with `m_nWorkerCount` workers. -/
def init (m_nWorkerCount : Nat) : EpollBalance where
  m_pWorkerAry := List.replicate m_nWorkerCount .init
  assigned := []
  connected := []

/-- `m_pWorkerAry[i].GetOPTCount()`. -/
def optCount (st : EpollBalance) (i : Nat) : Int :=
  (st.m_pWorkerAry.getD i .init).GetOPTCount

/-- `BalancingWorker()`, the index of the worker it returns. -/
def BalancingWorker (st : EpollBalance) : Nat :=
  (List.range' 1 (st.m_pWorkerAry.length - 1)).foldl
    (fun pWorker i => if st.optCount i < st.optCount pWorker then i else pWorker) 0

/-- `DoAccept` and `AddClient` give a connection to the chosen worker. -/
def step (st : EpollBalance) : BalanceAction → Option EpollBalance
  | .connect =>
      let pWorker := st.BalancingWorker
      some { st with
        assigned := st.assigned ++ [pWorker]
        connected := st.connected ++ [pWorker] }
  | .disconnect place =>
      if place < st.connected.length then
        some { st with connected := st.connected.eraseIdx place }
      else none

/-- A connection goes to a worker with the smallest number of connections. -/
def LeastLoaded (st : EpollBalance) : BalanceAction → Prop
  | .connect => ∀ i < st.m_pWorkerAry.length,
      st.connected.count st.BalancingWorker ≤ st.connected.count i
  | .disconnect _ => True

/-- A connection comes when there is none, or there is but one worker. -/
def FirstOrOnly (st : EpollBalance) : BalanceAction → Prop
  | .connect => st.m_pWorkerAry.length = 1 ∨ st.connected = []
  | .disconnect _ => True

instance (st : EpollBalance) (a : BalanceAction) : Decidable (st.FirstOrOnly a) :=
  match a with
  | .connect => inferInstanceAs (Decidable (_ ∨ _))
  | .disconnect _ => isTrue trivial

end EpollBalance

/-! ### The IOCP engine -/

/-- `BalancingWork()` with its static `index`: the index into `m_pIocpworkerAry`, and the
counter behind it. -/
def BalancingWork (sNetThdCount index : Int) : Int × Int :=
  (index.tmod sNetThdCount, s32 (index + 1))

/-- The counter of `iocper` and its connections. -/
structure IocpBalance where
  index : Int
  assigned : List Int
  connected : List Int
  deriving DecidableEq, Repr

namespace IocpBalance

/-- No connection was made yet. -/
def init : IocpBalance := { index := 0, assigned := [], connected := [] }

/-- `CompletedAccept` and `AddClient` give a connection to the chosen worker. -/
def step (sNetThdCount : Nat) (st : IocpBalance) : BalanceAction → Option IocpBalance
  | .connect =>
      let work := BalancingWork sNetThdCount st.index
      some
        { index := work.2
          assigned := st.assigned ++ [work.1]
          connected := st.connected ++ [work.1] }
  | .disconnect place =>
      if place < st.connected.length then
        some { st with connected := st.connected.eraseIdx place }
      else none

/-- Every chosen worker exists, and any two were chosen equally often, up to one. -/
structure Balanced (sNetThdCount : Nat) (st : IocpBalance) : Prop where
  exist : ∀ w ∈ st.assigned, 0 ≤ w ∧ w < sNetThdCount
  even : ∀ i j : Nat, i < sNetThdCount → j < sNetThdCount →
    st.assigned.count (i : Int) ≤ st.assigned.count (j : Int) + 1

end IocpBalance

end Kernel4GameServer
