import Mathlib.Tactic.Common

/-!
# `Kernel4GameServer.Public.CRand`: the random numbers of the modules

`Public/CRand.h`. The state is a `u64`, which the constructor leaves as it is. `Gate::OnTime` sets
it to the clock and takes the delay of a timer from `Rand() % 100`.
-/

set_option autoImplicit false

namespace Kernel4GameServer

/-- `CRand`. -/
structure CRand where
  m_lSeed : UInt64
  deriving DecidableEq, Repr

namespace CRand

/-- `SetSeed(seed)`. -/
def SetSeed (seed : UInt32) : CRand where
  m_lSeed := seed.toUInt64

/-- `m_lSeed * 214013L + 2531011L`. -/
def nextSeed (m_lSeed : UInt64) : UInt64 := m_lSeed * 214013 + 2531011

/-- `Rand()`. -/
def Rand (r : CRand) : CRand × Int :=
  let m_lSeed := nextSeed r.m_lSeed
  ({ m_lSeed }, ((m_lSeed >>> 16) &&& 0x7fff).toNat)

/-- The generator behind `n` calls. -/
def after (r : CRand) : Nat → CRand
  | 0 => r
  | n + 1 => (r.after n).Rand.1

/-- The result of the call behind `n` others. -/
def draw (r : CRand) (n : Nat) : Int := (r.after n).Rand.2

/-- `nDelay` of `Gate::OnTime`, from that call. -/
def nDelay (r : CRand) (n : Nat) : Int := (r.draw n).tmod 100

end CRand

end Kernel4GameServer
