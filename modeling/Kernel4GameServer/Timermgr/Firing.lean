import Kernel4GameServer.Timermgr.Timermgr

/-!
# `Kernel4GameServer.Timermgr.Firing`: the life of one timer

What the node of a timer goes through from `StartTimer` to `OnTerminate`: `OnTimer` fires it,
and between two firings everything else happens that leaves the node its interval, its counts
and its next tick. `Timermgr.Fired` is the managers on the way, `Timermgr.Honours` what a
caller asked for with `interval`, `delay` and `loop`.
-/

set_option autoImplicit false

namespace Kernel4GameServer

namespace TimeNode

/-- The test behind a firing in `OnTimer`: the timer ends. -/
def Ends (n : TimeNode) : Prop :=
  n.m_nHitCount = n.m_nMaxHitCount ∧ n.m_nMaxHitCount ≠ LOOP_FOREVER

/-- The nodes have the same interval, counts and next tick. -/
structure Same (n n' : TimeNode) : Prop where
  interval : n'.m_nInterval = n.m_nInterval
  hitCount : n'.m_nHitCount = n.m_nHitCount
  maxHitCount : n'.m_nMaxHitCount = n.m_nMaxHitCount
  nextRunTick : n'.m_lNextRunTick = n.m_lNextRunTick

end TimeNode

namespace Timermgr

/-- The manager `m₀`, then `k` firings of the node at `p` that do not end its timer, and
whatever else between them. -/
inductive Fired (m₀ : Timermgr) (p : Nat) : Nat → Timermgr → Prop where
  | started : Fired m₀ p 0 m₀
  | OnTimer {k : Nat} {m : Timermgr} : Fired m₀ p k m → ¬ (m.node p).hit.Ends →
      Fired m₀ p (k + 1) ((m.setNode p (m.node p).hit).ResetTimeNode p)
  | other {k : Nat} {m m' : Timermgr} : Fired m₀ p k m → (m.node p).Same (m'.node p) →
      Fired m₀ p k m'

/-- The timer of the node at `p` keeps the arguments of its `StartTimer` at the time `now`:
its first tick is `delay` later, the others follow `interval` apart, and it ends with the
firing `loop`. -/
structure Honours (m₀ : Timermgr) (p : Nat) (now interval delay loop : Int) : Prop where
  due : ∀ k m, Fired m₀ p k m → (m.node p).m_lNextRunTick = now + delay + k * interval
  ends : ∀ k m, Fired m₀ p k m → ((m.node p).hit.Ends ↔ (k : Int) + 1 = loop)

/-- The slot numbers of all firings are `s32`. -/
def SlotsFit (start now interval delay loop : Int) : Prop :=
  ∀ k : Nat, (k : Int) < loop →
    -2147483648 ≤ (now + delay + k * interval - start).tdiv 20 ∧
      (now + delay + k * interval - start).tdiv 20 < 2147483648

end Timermgr

end Kernel4GameServer
