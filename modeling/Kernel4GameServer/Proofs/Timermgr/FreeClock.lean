import Kernel4GameServer.Proofs.Timermgr.Refine
import Kernel4GameServer.Timermgr.FreeClock

/-!
# `Kernel4GameServer.Proofs.Timermgr.FreeClock`: timers behind the cursor

The cursor stays where the greatest reading so far has moved it. A node is linked again into a
slot that is counted from its own ticks, so no reading moves it behind the cursor. The first
slot of a new timer is counted from a fresh reading. When the clock was set back it may be one
the cursor has passed, and then no `Processing` comes to it.

`TimerState.notPassed_iff` is the main result: in runs whose clock may step back, no node is
ever behind the cursor exactly when no timer is started there. `TimerState.lost_timer` is a run
that starts one, and the timer is still there when it is long due.
-/

set_option autoImplicit false

namespace Kernel4GameServer

open Lib

namespace TimerState

/-- Every node in use is in a slot at the cursor or ahead of it, or its callback runs. -/
def NotPassed (st : TimerState) : Prop :=
  ∀ p, st.mgr.InUse p → st.pc.Running p ∨
    ∃ key l, st.mgr.m_nCursor ≤ key ∧ Chain st.mgr.next (st.mgr.head key) l ∧ p ∈ l

variable {start : Int} {st st' : TimerState} {lists : Int → List Nat} {phase : Nat → Phase}

/-- The states of the plan have no node behind the cursor. -/
theorem Sim.notPassed (h : Sim start st lists phase) : st.NotPassed := by
  intro p hp
  rcases (h.holds.inUse p).mp hp with ⟨key, hin⟩ | hrun
  · obtain ⟨c, k, hc, hphase, -, hkey⟩ := h.holds.waiting hin
    have hplaced := h.inv.placed hc
    rw [show (st.plan phase).phase _ = .waiting k from hphase] at hplaced
    have hle : st.mgr.m_nCursor ≤ c.slot start k := hplaced.2
    exact .inr ⟨key, lists key, hkey ▸ hle, h.holds.rep.chain key, hin⟩
  · exact .inl hrun

/-- A node that waits behind the cursor has been passed. -/
theorem passed_of_waiting {calls : List StartCall} {i k : Nat} {c : StartCall}
    (h : Timermgr.Holds start st.mgr lists st.pc.Running calls phase) (hc : calls[i]? = some c)
    (hphase : phase i = .waiting k) (hlt : c.slot start k < st.mgr.m_nCursor) :
    ¬ st.NotPassed := by
  intro hall
  obtain ⟨p, hp, -⟩ := h.covered hc hphase
  have hlinked : Timermgr.Linked lists p := ⟨_, hp⟩
  rcases hall p ((h.inUse p).mpr (.inl hlinked)) with hrun | ⟨key, l, hle, hl, hin⟩
  · exact h.apart hrun hlinked
  · rw [hl.unique (h.rep.chain key)] at hin
    have hkey := h.rep.apart hin hp
    omega

/-- A `StartTimer` at any time from the start on: the new node is in its first slot, and no
node is behind the cursor when that slot is not. -/
theorem Sim.freeStart (h : Sim start st lists phase) {now id interval delay loop : Int}
    {timer : Nat} (hA : st.Fitting (.StartTimer now id timer interval delay loop))
    (hstep : st.freeStep (.StartTimer now id timer interval delay loop) = some st') :
    (st.Ahead (.StartTimer now id timer interval delay loop) →
      ∃ lists' phase', Sim start st' lists' phase') ∧
    (¬ st.Ahead (.StartTimer now id timer interval delay loop) → ¬ st'.NotPassed) := by
  have hc := bounded_of_fitting h.holds.started hA
  obtain ⟨-, -, hdelay, hdelay', -⟩ := hA
  have hd : s32 delay = delay := s32_of_range (by omega) hdelay'
  simp only [freeStep, TimerAction.reading] at hstep
  split at hstep
  · rename_i hstart
    rw [h.holds.started] at hstart
    obtain ⟨st'', hst'', rfl⟩ := Option.map_eq_some_iff.mp hstep
    simp only [TimerState.step] at hst''
    split at hst''
    · obtain ⟨m', hm', rfl⟩ := Option.map_eq_some_iff.mp hst''
      obtain ⟨⟨lists', hholds⟩, hfits, hpc, hcursor⟩ := h.started hc hstart hm'
      have hslot : StartCall.slot ⟨now, id, timer, s32 interval, s32 delay, s32 loop⟩ start 0
          = (now + delay - st.mgr.m_lStartRunTick) / 20 := by
        unfold StartCall.slot
        rw [StartCall.due_zero, hd, h.holds.started]
      constructor
      · intro hahead
        have hahead : st.mgr.m_nCursor ≤ _ := hahead
        rw [← hslot] at hahead
        have hinv := h.inv.begin (Int.le_max_left st.clock now) hstart hahead hc
        refine ⟨lists', _, hholds, hfits, ?_⟩
        unfold plan
        rw [hpc, hcursor]
        exact hinv
      · intro hbehind
        -- The node goes to a slot that the cursor has passed.
        have hbehind : ¬ st.mgr.m_nCursor ≤ _ := hbehind
        rw [← hslot, ← hcursor] at hbehind
        exact passed_of_waiting hholds List.getElem?_concat_length (Function.update_self _ _ _)
          (Int.not_le.mp hbehind)
    · cases hst''
  · cases hstep

/-- A `Processing` at any time from the start on. Its target may be behind the cursor. -/
theorem Sim.freeProcessing (h : Sim start st lists phase) {now : Int}
    (hstep : st.freeStep (.Processing now) = some st') :
    ∃ lists' phase', Sim start st' lists' phase' := by
  obtain ⟨m, pc, clock, calls, trace⟩ := st
  simp only [freeStep, TimerAction.reading] at hstep
  split at hstep
  · rename_i hstart
    rw [h.holds.started] at hstart
    obtain ⟨st'', hst'', rfl⟩ := Option.map_eq_some_iff.mp hstep
    simp only [TimerState.step] at hst''
    split at hst''
    · rename_i hidle
      obtain rfl : pc = .idle := hidle.1
      obtain rfl := Option.some.inj hst''
      refine ⟨lists, phase, h.holds, trivial, ?_⟩
      have htimed : PlanPc.Timed start (max clock now) m.m_nCursor
          (.cursor now (reach start now)) := ⟨Int.le_max_right _ _, reach_le hstart, rfl⟩
      have hnote := @Plan.Inv.note _ _ h.inv _ _ (.Processing now) (fun _ => rfl)
        (Int.le_max_left clock now) htimed fun _ hcalls => hcalls.elim
      rw [Timermgr.target_eq (m := m) h.holds.started h.holds.scale]
      exact hnote
    · cases hst''
  · cases hstep

/-- A step leads to a state of the plan, or it starts a timer behind the cursor. -/
theorem Sim.freeStep (h : Sim start st lists phase) {a : TimerAction} (hA : st.Fitting a)
    (hstep : st.freeStep a = some st') :
    (st.Ahead a → ∃ lists' phase', Sim start st' lists' phase') ∧
      (¬ st.Ahead a → ¬ st'.NotPassed) := by
  cases a with
  | StartTimer now id timer interval delay loop => exact h.freeStart hA hstep
  | KillTimer id timer =>
      obtain ⟨lists', phase', -, hsim⟩ := h.step (a := .KillTimer id timer) hA hstep
      exact ⟨fun _ => ⟨lists', phase', hsim⟩, fun hbehind => absurd trivial hbehind⟩
  | Processing now =>
      exact ⟨fun _ => h.freeProcessing hstep, fun hbehind => absurd trivial hbehind⟩
  | go =>
      obtain ⟨lists', phase', -, hsim⟩ := h.step (a := .go) hA hstep
      exact ⟨fun _ => ⟨lists', phase', hsim⟩, fun hbehind => absurd trivial hbehind⟩

/-- No timer is lost, where the clock may step back. In every run whose readings are from the
start on, in whatever order, every node in use is in a slot that the cursor has not passed, in
every state on the way, exactly when every `StartTimer` has its first slot at the cursor or
ahead of it. A timer that is linked again behind a firing is never behind the cursor. -/
theorem notPassed_iff {start : Int} {as : List TimerAction} {st : TimerState}
    (hrun : run freeStep (init start) as = some st)
    (hA : AllSteps freeStep Fitting (init start) as) :
    Throughout freeStep NotPassed (init start) as ↔ AllSteps freeStep Ahead (init start) as := by
  refine throughout_iff_of (I := fun st => ∃ lists phase, Sim start st lists phase) ?_ ?_
    ⟨_, _, init_sim start⟩ (init_sim start).notPassed hA hrun
  · rintro s a s' ⟨lists, phase, hsim⟩ - hA hstep
    obtain ⟨hahead, hbehind⟩ := hsim.freeStep hA hstep
    constructor
    · intro hnot
      by_contra hnone
      exact hbehind hnone hnot
    · intro ha
      obtain ⟨lists', phase', hsim'⟩ := hahead ha
      exact hsim'.notPassed
  · rintro s a s' ⟨lists, phase, hsim⟩ - hnot hA hstep
    obtain ⟨hahead, hbehind⟩ := hsim.freeStep hA hstep
    refine hahead ?_
    by_contra hnone
    exact hbehind hnone hnot

/-- The clock steps back by 20 ms, and the timer started then is ahead of the cursor. -/
theorem notPassed_early :
    ∃ st, run freeStep (init 0) [.Processing 40, .go, .go, .go, .StartTimer 20 1 7 100 40 2]
        = some st ∧
      Throughout freeStep NotPassed (init 0)
        [.Processing 40, .go, .go, .go, .StartTimer 20 1 7 100 40 2] :=
  ⟨_, rfl, (notPassed_iff rfl (by decide)).mpr (by decide)⟩

/-- The clock is set back by 40 ms, and a timer is started at once. Its slot is behind the
cursor, and it has got no callback when the `Processing` 80 ms later has returned. -/
theorem lost_timer :
    ∃ st st', run freeStep (init 0) [.Processing 40, .go, .go, .go, .StartTimer 0 1 7 100 0 2]
        = some st ∧
      AllSteps freeStep Admissible (init 0)
        [.Processing 40, .go, .go, .go, .StartTimer 0 1 7 100 0 2] ∧
      ¬ st.NotPassed ∧ run freeStep st [.Processing 80, .go, .go, .go] = some st' ∧
      st'.pc = .idle ∧ callbacks 0 st'.trace = [] := by
  refine ⟨_, _, rfl, by decide, fun hnot => ?_, rfl, rfl, rfl⟩
  rcases hnot 0 rfl with hrun | ⟨key, l, hle, hl, hin⟩
  · exact hrun
  · -- The only slot in the map has the number 0, and the cursor is at 2.
    have hle : 2 ≤ key := hle
    have hnil : l = [] := hl.unique (by
      show Chain _ (Option.bind (if key = 0 then _ else none) _) []
      rw [if_neg (by omega)]
      exact .nil)
    rw [hnil] at hin
    cases hin

end TimerState

end Kernel4GameServer
