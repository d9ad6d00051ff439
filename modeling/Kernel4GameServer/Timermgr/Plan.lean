import Kernel4GameServer.Timermgr.Steps
import Mathlib.Logic.Function.Basic

/-!
# `Kernel4GameServer.Timermgr.Plan`: the timers without their memory

What the timer manager is for, with no nodes, no lists and no pool: every call of
`StartTimer` is in a `Phase`, and a cursor goes through the slots. `Plan.Step` says what may
happen next. A timer that waits for a firing is picked when the cursor is at the slot of
that firing, and the cursor leaves a slot when no timer waits there.

`Proofs.Timermgr.Refine` shows that the timer manager does nothing else, and the statements
about schedule, lifecycle and identity are proved of the plan.
-/

set_option autoImplicit false

namespace Kernel4GameServer

/-- Where a call of `StartTimer` is. `waiting h` waits for the firing `h`, `firing h` is in
the `OnTime` of that firing. -/
inductive Phase where
  | waiting (h : Nat)
  | starting
  | firing (h : Nat)
  | ending
  | released
  deriving DecidableEq, Repr

/-- What a timer gets, and the release of its node. -/
inductive TimerCallback where
  | OnStart
  | OnTime
  | OnTerminate (nonviolent : Bool)
  | Release
  deriving DecidableEq, Repr

/-- What the timer of the call `i` gets in an event. -/
def TimerEvent.callback (i : Nat) : TimerEvent → Option TimerCallback
  | .OnStart call _ => if call = i then some .OnStart else none
  | .OnTime call _ => if call = i then some .OnTime else none
  | .OnTerminate call nonviolent _ => if call = i then some (.OnTerminate nonviolent) else none
  | .Release call => if call = i then some .Release else none
  | _ => none

/-- What the timer of the call `i` got, in this order. -/
def callbacks (i : Nat) (trace : List TimerEvent) : List TimerCallback :=
  trace.filterMap (TimerEvent.callback i)

/-- How often the timer of the call `i` fired. -/
def hits (i : Nat) (trace : List TimerEvent) : Nat := (callbacks i trace).count .OnTime

/-- The callbacks of a timer that fired `h` times. -/
def fired (h : Nat) : List TimerCallback :=
  if h = 0 then [] else .OnStart :: List.replicate h .OnTime

/-- The callbacks of a call in each phase. -/
def Phase.callbacks (c : StartCall) : Phase → List TimerCallback
  | .waiting h => fired h
  | .starting => [.OnStart]
  | .firing h => fired (h + 1)
  | .ending => fired c.loop.toNat ++ [.OnTerminate true]
  | .released => fired c.loop.toNat ++ [.OnTerminate true, .Release]

/-- Where `Processing` is: outside, between two slots, in a slot, or in a callback of a
call. -/
inductive PlanPc where
  | idle
  | cursor (lTick nCursor : Int)
  | slot (lTick nCursor : Int)
  | callback (lTick nCursor : Int) (call : Nat)
  deriving DecidableEq, Repr

/-- The user runs. -/
def PlanPc.user : PlanPc → Bool
  | .idle => true
  | .cursor _ _ => false
  | .slot _ _ => false
  | .callback _ _ _ => true

/-- The callback is one of the call `i`. -/
def PlanPc.Calls (i : Nat) : PlanPc → Prop
  | .callback _ _ call => call = i
  | _ => False

/-- The bounds on a call. -/
structure StartCall.Bounded (start : Int) (c : StartCall) : Prop where
  due_lt : c.t0 + c.delay - start < 42949672960
  interval_pos : 1 ≤ c.interval
  interval_lt : c.interval < 2147483648
  delay_nonneg : 0 ≤ c.delay
  delay_lt : c.delay < 2147483648

/-- The slot up to which a `Processing` at the time `lTick` goes. The elapsed time is narrowed
to `s32` before it is divided. -/
def reach (start lTick : Int) : Int := (s32 (lTick - start)).tdiv 20

/-- The timers of a run. -/
structure Plan where
  calls : List StartCall
  phase : Nat → Phase
  cursor : Int
  pc : PlanPc
  clock : Int
  trace : List TimerEvent

namespace Plan

/-- The plan before anything is started. -/
def init (start : Int) : Plan where
  calls := []
  phase _ := .released
  cursor := 0
  pc := .idle
  clock := start
  trace := []

/-- A call changes its phase. -/
def setPhase (s : Plan) (call : Nat) (x : Phase) : Plan :=
  { s with phase := Function.update s.phase call x }

/-- No timer waits in the slot of the cursor. -/
def Empty (start : Int) (s : Plan) : Prop :=
  ∀ i c h, s.calls[i]? = some c → s.phase i = .waiting h → c.slot start h ≠ s.cursor

/-- What may happen next. The code takes the steps `.go`, in an order that the slots and the
phases leave open. -/
inductive Step (start : Int) (s : Plan) : TimerAction → Plan → Prop where
  | StartTimer (c : StartCall) (interval delay loop : Int) : s.pc.user = true →
      s.clock ≤ c.t0 → c.Bounded start →
      Step start s (.StartTimer c.t0 c.id c.timer interval delay loop)
        { s.setPhase s.calls.length (.waiting 0) with
          clock := c.t0
          calls := s.calls ++ [c]
          trace := s.trace ++ [.StartTimer s.calls.length] }
  | KillTimer (id : Int) (timer : Nat) : s.pc.user = true →
      Step start s (.KillTimer id timer) { s with trace := s.trace ++ [.KillTimer id timer] }
  | Processing (lTick : Int) : s.pc = .idle → s.clock ≤ lTick →
      Step start s (.Processing lTick) { s with
        pc := .cursor lTick (reach start lTick)
        clock := lTick
        trace := s.trace ++ [.Processing lTick] }
  | stop (lTick nCursor : Int) : s.pc = .cursor lTick nCursor → ¬ s.cursor < nCursor →
      Step start s .go { s with pc := .idle }
  | enter (lTick nCursor : Int) : s.pc = .cursor lTick nCursor → s.cursor < nCursor →
      Step start s .go { s with pc := .slot lTick nCursor }
  | skip (lTick nCursor : Int) : s.pc = .cursor lTick nCursor → s.cursor < nCursor →
      s.Empty start → Step start s .go { s with cursor := s.cursor + 1 }
  | leave (lTick nCursor : Int) : s.pc = .slot lTick nCursor → s.Empty start →
      Step start s .go { s with cursor := s.cursor + 1, pc := .cursor lTick nCursor }
  | first (lTick nCursor : Int) (call : Nat) (c : StartCall) : s.pc = .slot lTick nCursor →
      s.calls[call]? = some c → s.phase call = .waiting 0 → c.slot start 0 = s.cursor →
      Step start s .go { s.setPhase call .starting with
        pc := .callback lTick nCursor call
        trace := s.trace ++ [.OnStart call lTick] }
  | pick (lTick nCursor : Int) (call : Nat) (c : StartCall) (h : Nat) :
      s.pc = .slot lTick nCursor → s.calls[call]? = some c → s.phase call = .waiting h →
      0 < h → c.slot start h = s.cursor →
      Step start s .go { s.setPhase call (.firing h) with
        pc := .callback lTick nCursor call
        trace := s.trace ++ [.OnTime call lTick] }
  | started (lTick nCursor : Int) (call : Nat) (c : StartCall) :
      s.pc = .callback lTick nCursor call → s.calls[call]? = some c →
      s.phase call = .starting →
      Step start s .go { s.setPhase call (.firing 0) with
        trace := s.trace ++ [.OnTime call lTick] }
  | again (lTick nCursor : Int) (call : Nat) (c : StartCall) (h : Nat) :
      s.pc = .callback lTick nCursor call → s.calls[call]? = some c →
      s.phase call = .firing h → (h : Int) + 1 ≠ c.loop →
      Step start s .go { s.setPhase call (.waiting (h + 1)) with pc := .slot lTick nCursor }
  | last (lTick nCursor : Int) (call : Nat) (c : StartCall) (h : Nat) :
      s.pc = .callback lTick nCursor call → s.calls[call]? = some c →
      s.phase call = .firing h → (h : Int) + 1 = c.loop →
      Step start s .go { s.setPhase call .ending with
        trace := s.trace ++ [.OnTerminate call true lTick] }
  | ended (lTick nCursor : Int) (call : Nat) (c : StartCall) :
      s.pc = .callback lTick nCursor call → s.calls[call]? = some c →
      s.phase call = .ending →
      Step start s .go { s.setPhase call .released with
        pc := .slot lTick nCursor
        trace := s.trace ++ [.Release call] }

end Plan

end Kernel4GameServer
