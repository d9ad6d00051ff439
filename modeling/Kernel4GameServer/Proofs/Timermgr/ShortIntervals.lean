import Kernel4GameServer.Proofs.Timermgr.Uptime

/-!
# `Kernel4GameServer.Proofs.Timermgr.ShortIntervals`: `Processing` returns with any interval

The assertion in `StartTimer` that an interval is at least 100 ms is compiled away where
`_DEBUG` is not defined. A timer with an interval below 20 ms is then linked again into the
slot that runs, and `TimeSlot::Run` meets it again before it leaves the slot.

`TimerState.processing_returns` is the main result: `Processing` still returns, and it leaves
the timers alone that its callbacks start. The bound is the work of
`Proofs.Timermgr.Progress`, and `Plan.Since` says where the slots of the new timers are.
-/

set_option autoImplicit false

namespace Kernel4GameServer

open Lib

namespace Plan

variable {start now : Int} {s₀ s s' : Plan} {a : TimerAction}

/-- A call that got no callback gets none in a step that does not pick it for its first
firing. -/
theorem Step.unstarted (hstep : Step start s a s') (hs : s.Inv start) {i : Nat}
    (hnone : callbacks i s.trace = [])
    (hfirst : ∀ lTick nCursor c, s.pc = .slot lTick nCursor → s.calls[i]? = some c →
      c.slot start 0 ≠ s.cursor) : callbacks i s'.trace = [] := by
  have hcalled : ∀ {c : StartCall}, s.calls[i]? = some c → (s.phase i).callbacks c = [] :=
    fun hc => (hs.called hc).symm.trans hnone
  cases hstep with
  | StartTimer c interval delay loop huser hclock hc => exact (callbacks_snoc_none rfl).trans hnone
  | KillTimer id timer huser => exact (callbacks_snoc_none rfl).trans hnone
  | Processing lTick hpc hclock => exact (callbacks_snoc_none rfl).trans hnone
  | stop lTick nCursor hpc hlt => exact hnone
  | enter lTick nCursor hpc hlt => exact hnone
  | skip lTick nCursor hpc hlt hempty => exact hnone
  | leave lTick nCursor hpc hempty => exact hnone
  | first lTick nCursor call c hpc hc hphase hslot =>
      have hne : call ≠ i := by
        rintro rfl
        exact hfirst lTick nCursor c hpc hc hslot
      exact (callbacks_snoc_none (e := .OnStart call lTick) (if_neg hne)).trans hnone
  | pick lTick nCursor call c h hpc hc hphase hpos hslot =>
      have hne : call ≠ i := by
        -- A timer that waits for a later firing has fired.
        rintro rfl
        have hfired : fired h = [] := by
          have hwaiting := hcalled hc
          rwa [hphase] at hwaiting
        have hzero : h = 0 := by
          rw [← count_fired h, hfired]
          rfl
        omega
      exact (callbacks_snoc_none (e := .OnTime call lTick) (if_neg hne)).trans hnone
  | started lTick nCursor call c hpc hc hphase =>
      have hne : call ≠ i := by
        rintro rfl
        have hstarting := hcalled hc
        rw [hphase] at hstarting
        cases hstarting
      exact (callbacks_snoc_none (e := .OnTime call lTick) (if_neg hne)).trans hnone
  | again lTick nCursor call c h hpc hc hphase hloop => exact hnone
  | last lTick nCursor call c h hpc hc hphase hloop =>
      have hne : call ≠ i := by
        rintro rfl
        have hfiring := hcalled hc
        rw [hphase] at hfiring
        cases hfiring
      exact (callbacks_snoc_none (e := .OnTerminate call true lTick) (if_neg hne)).trans hnone
  | ended lTick nCursor call c hpc hc hphase =>
      have hne : call ≠ i := by
        rintro rfl
        have hending := hcalled hc
        rw [hphase] at hending
        exact List.concat_ne_nil _ _ hending
      exact (callbacks_snoc_none (e := .Release call) (if_neg hne)).trans hnone

/-- The timers started since `s₀` got no callback. -/
def Fresh (s₀ s : Plan) : Prop := ∀ i, s₀.calls.length ≤ i → callbacks i s.trace = []

/-- In the `Processing` that began in `s₀` they get none. -/
theorem Fresh.step (h : Fresh s₀ s) (hsince : Since start now s₀ s) (hs : s.Inv start)
    (hstep : Step start s a s') : Fresh s₀ s' := by
  intro i hi
  refine hstep.unstarted hs (h i hi) fun lTick nCursor c hpc hc hslot => ?_
  have htimed := hs.timed
  rw [hpc] at htimed
  obtain ⟨-, hup, -, hlt⟩ := htimed
  obtain rfl : lTick = now := hsince.tick lTick (by rw [hpc]; rfl)
  -- The slot of a new timer is at the target or beyond, and the cursor is before it.
  rcases hsince.fresh i c hc with hold | hnew
  · exact absurd (List.getElem?_eq_some_iff.mp hold).1 (Nat.not_lt.mpr hi)
  · omega

/-- A `Processing` begins. -/
theorem Step.fresh {lTick : Int} (hstep : Step start s (.Processing lTick) s')
    (hs : s.Inv start) : Fresh s s' := by
  intro i hi
  cases hstep
  exact (callbacks_snoc_none rfl).trans (hs.silent hi)

end Plan

namespace TimerState

/-- `Processing` returns, at an uptime and with delays below `2 ^ 31` ms and with intervals
from 1 ms on. From any state of any run, when `Processing` is called at the time `now`, there
is a bound such that, whatever the callbacks do:
* the code takes at most that many steps, and it never gets stuck before it returns;
* every firing it makes was due before `now`, so a timer linked again into the slot that runs
  fires only finitely often;
* a timer started since gets no callback. -/
theorem processing_returns {start now : Int} {as : List TimerAction} {st₀ st₁ : TimerState}
    (hrun₀ : run step (init start) as = some st₀)
    (hF₀ : AllSteps step Fitting (init start) as)
    (hnow : st₀.step (.Processing now) = some st₁) :
    ∃ bound, ∀ bs st, run step st₁ bs = some st → AllSteps step Fitting st₁ bs →
      (∀ t, .Processing t ∉ bs) →
      bs.count .go ≤ bound ∧ (st.pc ≠ .idle → ∃ st', st.step .go = some st') ∧
      (∀ (i k : Nat) (c : StartCall), st₀.calls[i]? = some c → hits i st₀.trace ≤ k →
        k < hits i st.trace → c.due k < now) ∧
      ∀ i, st₀.calls.length ≤ i → callbacks i st.trace = [] := by
  obtain ⟨lists₀, phase₀, hsim₀, -⟩ := run_plan (I := fun _ => True) trivial
    (fun _ _ _ => trivial) hrun₀ hF₀
  obtain ⟨lists₁, phase₁, hplan₁, hsim₁⟩ := hsim₀.step (a := .Processing now) trivial hnow
  refine ⟨(st₁.plan phase₁).work start, fun bs st hrun hF hbs => ?_⟩
  obtain ⟨lists, phase, hsim, hsince, hfresh⟩ := Sim.run_plan
    (C := fun a => ∀ t, a ≠ .Processing t)
    (I := fun s => Plan.Since start now (st₀.plan phase₀) s ∧ Plan.Fresh (st₀.plan phase₀) s)
    (fun hinv hI hC hplan =>
      ⟨hI.1.step hinv hC hplan, Plan.Fresh.step hI.2 hI.1 hinv hplan⟩)
    hsim₁ ⟨hplan₁.since, hplan₁.fresh hsim₀.inv⟩ (fun a ha t heq => hbs t (heq ▸ ha)) hrun hF
  refine ⟨go_count_le hsim₁ hrun hF hbs, hsim.go_isSome, fun i k c hc hge hlt => ?_, hfresh⟩
  have hslot := (hsince.fired i c hc).2 k hge hlt
  have hreach := reach_le (hplan₁.start_le hsim₀.inv)
  unfold StartCall.slot at hslot
  omega

/-- A timer with an interval of 3 ms has four firings in one slot. -/
theorem processing_returns_burst :
    ∃ st₀ st₁, run step (init 0) [.StartTimer 5 1 7 3 0 4] = some st₀ ∧
      st₀.step (.Processing 30) = some st₁ ∧
      ∃ bound, ∀ bs st, run step st₁ bs = some st → AllSteps step Fitting st₁ bs →
        (∀ t, .Processing t ∉ bs) →
        bs.count .go ≤ bound ∧ (st.pc ≠ .idle → ∃ st', st.step .go = some st') ∧
        (∀ (i k : Nat) (c : StartCall), st₀.calls[i]? = some c → hits i st₀.trace ≤ k →
          k < hits i st.trace → c.due k < 30) ∧
        ∀ i, st₀.calls.length ≤ i → callbacks i st.trace = [] :=
  ⟨_, _, rfl, rfl,
    @processing_returns 0 30 [.StartTimer 5 1 7 3 0 4] _ _ rfl (by decide) rfl⟩

end TimerState

end Kernel4GameServer
