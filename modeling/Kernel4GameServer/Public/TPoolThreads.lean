import Kernel4GameServer.Public.TPoolBlocks

/-!
# `Kernel4GameServer.Public.TPoolThreads`: the locked object pool under several threads

`Public/TPool.h` with `lock` true. `Create` runs under the lock as a whole. `Recover` reads `len`
and `status` in front of the lock, and only then takes it: `recoverCheck` and `recoverLocked`
are its two steps. Any number of threads call the pool, and any of them may call `Recover` on
any unit.

An ownership is a unit with the number of times it was handed out so far. A call of `Recover` is
one of the ownership in which its check read `IN_USE`. `live` are the ownerships that have
begun and that no call of theirs has ended, `ended` those of the calls that returned true.
-/

set_option autoImplicit false

namespace Kernel4GameServer.TPool

namespace Blocks

variable {type : Type} {sizeof : Nat}

/-- The test of `Recover` in front of the lock. -/
def recoverCheck (pool : Blocks type sizeof) (p : UnitPtr) : Option Bool :=
  (pool.deref p).map fun info => CheckAddr sizeof info && info.status = .IN_USE

/-- The locked section of `Recover`. -/
def recoverLocked (pool : Blocks type sizeof) (p : UnitPtr) : Blocks type sizeof :=
  { pool.setStatus p .IS_FREE with m_list := pool.m_list ++ [p] }

end Blocks

/-- Where a thread is. Behind the check it has the ownership it is about, and the number of
locked sections that had run on the unit when it looked. -/
inductive PoolThread where
  | idle
  | checked (p : UnitPtr) (own seen : Nat)
  deriving DecidableEq

/-- A pool with its threads. `handed` counts how often `Create` returned a unit, `recovers` how
many locked sections of `Recover` ran on it. -/
structure PoolThreads (type : Type) (sizeof : Nat) where
  pool : Blocks type sizeof
  thread : Nat → PoolThread
  handed : UnitPtr → Nat
  recovers : UnitPtr → Nat
  live : List (UnitPtr × Nat)
  ended : List (UnitPtr × Nat)

/-- The steps of the threads. -/
inductive PoolAction (type : Type) where
  | Create (t : Nat) (new : type)
  | check (t : Nat) (p : UnitPtr)
  | locked (t : Nat)

/-- A count with one more for `p`. -/
def countUp (f : UnitPtr → Nat) (p : UnitPtr) : UnitPtr → Nat :=
  fun q => if q = p then f q + 1 else f q

namespace PoolThreads

variable {type : Type} {sizeof : Nat}

/-- A new pool, all threads outside. -/
def init (new : type) (size : Nat) : PoolThreads type sizeof where
  pool := Blocks.init new size
  thread _ := .idle
  handed _ := 0
  recovers _ := 0
  live := []
  ended := []

/-- The thread `t` goes to `x`. -/
def goto (st : PoolThreads type sizeof) (t : Nat) (x : PoolThread) : Nat → PoolThread :=
  fun u => if u = t then x else st.thread u

/-- One step of a thread. -/
def step (count : Nat) (st : PoolThreads type sizeof) :
    PoolAction type → Option (PoolThreads type sizeof)
  | .Create t new =>
      match st.thread t with
      | .idle =>
          let r := st.pool.Create new count
          match r.1 with
          | none => some { st with pool := r.2 }
          | some p =>
              some { st with
                pool := r.2
                handed := countUp st.handed p
                live := (p, st.handed p + 1) :: st.live }
      | .checked _ _ _ => none
  | .check t p =>
      match st.thread t with
      | .idle =>
          (st.pool.recoverCheck p).map fun inUse =>
            if inUse then
              { st with thread := st.goto t (.checked p (st.handed p) (st.recovers p)) }
            -- `Recover` returns false.
            else st
      | .checked _ _ _ => none
  | .locked t =>
      match st.thread t with
      | .idle => none
      | .checked p own _ =>
          some { st with
            pool := st.pool.recoverLocked p
            thread := st.goto t .idle
            recovers := countUp st.recovers p
            live := st.live.erase (p, own)
            ended := (p, own) :: st.ended }

end PoolThreads

end Kernel4GameServer.TPool
