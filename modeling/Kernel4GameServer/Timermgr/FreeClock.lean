import Kernel4GameServer.Timermgr.Steps

/-!
# `Kernel4GameServer.Timermgr.FreeClock`: a clock that steps back

`tools::GetTimeMillisecond` reads the wall clock, which may be set back while the server runs.
`TimerState.freeStep` is `TimerState.step` with readings in any order. All of them are at
`m_lStartRunTick` or behind it, and `clock` is the greatest one so far.
-/

set_option autoImplicit false

namespace Kernel4GameServer

/-- What a step reads from the clock. -/
def TimerAction.reading : TimerAction → Option Int
  | .StartTimer now _ _ _ _ _ => some now
  | .KillTimer _ _ => none
  | .Processing now => some now
  | .go => none

namespace TimerState

/-- One step, where the clock reads anything from the start on. -/
def freeStep (st : TimerState) (a : TimerAction) : Option TimerState :=
  match a.reading with
  | none => st.step a
  | some now =>
      if st.mgr.m_lStartRunTick ≤ now then
        (step { st with clock := now } a).map fun st' => { st' with clock := max st.clock now }
      else none

/-- A new timer has its first slot at the cursor or ahead of it. -/
def Ahead (st : TimerState) : TimerAction → Prop
  | .StartTimer now _ _ _ delay _ =>
      st.mgr.m_nCursor ≤ (now + delay - st.mgr.m_lStartRunTick) / 20
  | _ => True

instance (st : TimerState) : ∀ a, Decidable (st.Ahead a)
  | .StartTimer _ _ _ _ _ _ => inferInstanceAs (Decidable (_ ≤ _))
  | .KillTimer _ _ => isTrue trivial
  | .Processing _ => isTrue trivial
  | .go => isTrue trivial

end TimerState

end Kernel4GameServer
