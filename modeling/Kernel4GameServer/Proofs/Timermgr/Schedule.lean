import Kernel4GameServer.Proofs.Timermgr.Progress
import Kernel4GameServer.Lib.History

/-!
# `Kernel4GameServer.Proofs.Timermgr.Schedule`: when a timer fires

`TimerState.schedule` is the main result. The firing `k` of a timer is made in the first
`Processing` whose tick is beyond the slot of that firing: not before, since a timer fires
when the cursor is at its slot, and not later, since the cursor leaves no slot in which a
timer waits. The firings of all timers are in the order of their slots, since the cursor
only goes forward.

`Plan.Scheduled` is the invariant. It is about the history: `Latest` says how the cursor
stands to the calls of `Processing` so far. `Plan.Step.effect` says once what a step does to
the history, the cursor and the calls.
-/

set_option autoImplicit false

namespace Kernel4GameServer

open Lib

/-- Behind the events `pre`, the `Processing` of the tick `lTick` runs, and it is the first
one whose tick is beyond the slot. `slotOf` is the slot of a tick. -/
def FirstBeyond (slotOf : Int → Int) (pre : List TimerEvent) (lTick slot : Int) : Prop :=
  ∃ before since, pre = before ++ .Processing lTick :: since ∧
    (∀ t, .Processing t ∉ since) ∧ slot < slotOf lTick ∧
    ∀ t, .Processing t ∈ before → slotOf t ≤ slot

/-- Only the ticks so far matter. -/
theorem FirstBeyond.congr {slotOf slotOf' : Int → Int} {pre : List TimerEvent}
    {lTick slot : Int} (h : FirstBeyond slotOf pre lTick slot)
    (heq : ∀ t, .Processing t ∈ pre → slotOf' t = slotOf t) :
    FirstBeyond slotOf' pre lTick slot := by
  obtain ⟨before, since, hpre, hsince, hlt, hbefore⟩ := h
  refine ⟨before, since, hpre, hsince, ?_, fun t ht => ?_⟩
  · rw [heq lTick (by rw [hpre]; exact List.mem_append_right _ List.mem_cons_self)]
    exact hlt
  · rw [heq t (by rw [hpre]; exact List.mem_append_left _ ht)]
    exact hbefore t ht

/-- An `OnTime` behind the events `pre` is on schedule. -/
def OnSchedule (start : Int) (calls : List StartCall) (pre : List TimerEvent) :
    TimerEvent → Prop
  | .OnTime i lTick => ∃ c, calls[i]? = some c ∧ c.Allows (hits i pre) ∧
      FirstBeyond (reach start) pre lTick (c.slot start (hits i pre)) ∧
      ∀ p j t q, pre = p ++ .OnTime j t :: q →
        ∃ d, calls[j]? = some d ∧ d.slot start (hits j p) ≤ c.slot start (hits i pre)
  | _ => True

/-- The cursor has come to the slot of an `OnTime`. -/
def Reached (start : Int) (calls : List StartCall) (cursor : Int) (pre : List TimerEvent) :
    TimerEvent → Prop
  | .OnTime i _ => ∃ c, calls[i]? = some c ∧ c.slot start (hits i pre) ≤ cursor
  | _ => True

/-- No `Processing` is before the start. -/
def FromStart (start : Int) (_ : List TimerEvent) : TimerEvent → Prop
  | .Processing lTick => start ≤ lTick
  | _ => True

/-- The tick of the `Processing` that runs. -/
def PlanPc.tick : PlanPc → Option Int
  | .idle => none
  | .cursor lTick _ => some lTick
  | .slot lTick _ => some lTick
  | .callback lTick _ _ => some lTick

/-- How the cursor stands to the calls of `Processing`: those that returned left it at their
target or beyond. -/
def Latest (start cursor : Int) (trace : List TimerEvent) : Option Int → Prop
  | none => ∀ t, .Processing t ∈ trace → reach start t ≤ cursor
  | some lTick => ∃ before since, trace = before ++ .Processing lTick :: since ∧
      (∀ t, .Processing t ∉ since) ∧ ∀ t, .Processing t ∈ before → reach start t ≤ cursor

/-- The event is neither a firing nor a call of `Processing`. -/
def TimerEvent.Quiet : TimerEvent → Prop
  | .OnTime _ _ => False
  | .Processing _ => False
  | _ => True

namespace Plan

/-- What a step does to the history, the cursor and the calls. -/
inductive Effect (start : Int) (s s' : Plan) (a : TimerAction) : Prop where
  | quiet : (∀ (i : Nat) (c : StartCall), s.calls[i]? = some c → s'.calls[i]? = some c) →
      s.cursor ≤ s'.cursor → s'.pc.tick = s.pc.tick →
      (s'.trace = s.trace ∨ ∃ e, s'.trace = s.trace ++ [e] ∧ e.Quiet) → Effect start s s' a
  | fires (i : Nat) (c : StartCall) (lTick : Int) : s.calls[i]? = some c →
      c.Allows (hits i s.trace) → c.slot start (hits i s.trace) = s.cursor →
      s.cursor < reach start lTick → s.pc.tick = some lTick → s'.pc.tick = some lTick →
      s'.calls = s.calls → s'.cursor = s.cursor → s'.trace = s.trace ++ [.OnTime i lTick] →
      Effect start s s' a
  | calls (lTick : Int) : a = .Processing lTick → start ≤ lTick → s.pc.tick = none →
      s'.pc.tick = some lTick → s'.calls = s.calls → s'.cursor = s.cursor →
      s'.trace = s.trace ++ [.Processing lTick] → Effect start s s' a
  | returns (lTick : Int) : s.pc.tick = some lTick → reach start lTick ≤ s.cursor →
      s'.pc.tick = none → s'.calls = s.calls → s'.cursor = s.cursor → s'.trace = s.trace →
      Effect start s s' a

variable {start : Int} {s s' : Plan} {a : TimerAction}

/-- Every step has one of these effects. -/
theorem Step.effect (hstep : Step start s a s') (hs : s.Inv start) : Effect start s s' a := by
  have htimed := hs.timed
  cases hstep with
  | StartTimer c interval delay loop huser hclock hc =>
      refine .quiet (fun i d hd => ?_) (Int.le_refl _) rfl (.inr ⟨_, rfl, trivial⟩)
      exact (List.getElem?_append_left (List.getElem?_eq_some_iff.mp hd).1).trans hd
  | KillTimer id timer huser =>
      exact .quiet (fun _ _ hd => hd) (Int.le_refl _) rfl (.inr ⟨_, rfl, trivial⟩)
  | Processing lTick hpc hclock =>
      exact .calls lTick rfl (Int.le_trans hs.start_le hclock) (by rw [hpc]; rfl) rfl rfl rfl rfl
  | stop lTick nCursor hpc hlt =>
      rw [hpc] at htimed
      -- The loop stops past the slot of the clock.
      obtain ⟨-, -, hn⟩ := htimed
      exact .returns lTick (by rw [hpc]; rfl) (by omega) rfl rfl rfl rfl
  | enter lTick nCursor hpc hlt =>
      exact .quiet (fun _ _ hd => hd) (Int.le_refl _) (by rw [hpc]; rfl) (.inl rfl)
  | skip lTick nCursor hpc hlt hempty =>
      exact .quiet (fun _ _ hd => hd) (Int.le_add_one (Int.le_refl _)) rfl (.inl rfl)
  | leave lTick nCursor hpc hempty =>
      exact .quiet (fun _ _ hd => hd) (Int.le_add_one (Int.le_refl _)) (by rw [hpc]; rfl)
        (.inl rfl)
  | first lTick nCursor call c hpc hc hphase hslot =>
      exact .quiet (fun _ _ hd => hd) (Int.le_refl _) (by rw [hpc]; rfl)
        (.inr ⟨_, rfl, trivial⟩)
  | pick lTick nCursor call c h hpc hc hphase hpos hslot =>
      have hplaced := hs.placed hc
      rw [hpc] at htimed
      rw [hphase] at hplaced
      have hhits : hits call s.trace = h := hs.hits_waiting hc hphase
      obtain ⟨-, -, hn, hlt⟩ := htimed
      exact .fires call c lTick hc (hhits.symm ▸ hplaced.1) (hhits.symm ▸ hslot) (hn ▸ hlt)
        (by rw [hpc]; rfl) rfl rfl rfl rfl
  | started lTick nCursor call c hpc hc hphase =>
      have hcalled := hs.called hc
      have hplaced := hs.placed hc
      rw [hpc] at htimed
      rw [hphase] at hcalled hplaced
      -- A timer that was only started has not fired.
      have hhits : hits call s.trace = 0 := by
        unfold hits
        rw [hcalled]
        rfl
      obtain ⟨-, -, hn, hlt⟩ := htimed
      exact .fires call c lTick hc (hhits.symm ▸ c.allows_zero) (hhits.symm ▸ hplaced.1)
        (hn ▸ hlt) (by rw [hpc]; rfl) (by show s.pc.tick = _; rw [hpc]; rfl) rfl rfl rfl
  | again lTick nCursor call c h hpc hc hphase hloop =>
      exact .quiet (fun _ _ hd => hd) (Int.le_refl _) (by rw [hpc]; rfl) (.inl rfl)
  | last lTick nCursor call c h hpc hc hphase hloop =>
      exact .quiet (fun _ _ hd => hd) (Int.le_refl _) rfl (.inr ⟨_, rfl, trivial⟩)
  | ended lTick nCursor call c hpc hc hphase =>
      exact .quiet (fun _ _ hd => hd) (Int.le_refl _) (by rw [hpc]; rfl)
        (.inr ⟨_, rfl, trivial⟩)

/-- The firings so far are on schedule. -/
structure Scheduled (start : Int) (s : Plan) : Prop where
  fromStart : Always (FromStart start) s.trace
  latest : Latest start s.cursor s.trace s.pc.tick
  onSchedule : Always (OnSchedule start s.calls) s.trace
  reached : Always (Reached start s.calls s.cursor) s.trace

/-- Nothing has fired at the start. -/
theorem init_scheduled (start : Int) : (init start).Scheduled start where
  fromStart := always_nil
  latest t ht := by cases ht
  onSchedule := always_nil
  reached := always_nil

end Plan

/-- A firing stays on schedule when calls are added. -/
theorem OnSchedule.mono {start : Int} {calls calls' : List StartCall} {pre : List TimerEvent}
    {e : TimerEvent}
    (hcalls : ∀ (i : Nat) (c : StartCall), calls[i]? = some c → calls'[i]? = some c)
    (h : OnSchedule start calls pre e) : OnSchedule start calls' pre e := by
  cases e with
  | OnTime i lTick =>
      obtain ⟨c, hc, hallows, hfirst, horder⟩ := h
      refine ⟨c, hcalls i c hc, hallows, hfirst, fun p j t q hpre => ?_⟩
      obtain ⟨d, hd, hle⟩ := horder p j t q hpre
      exact ⟨d, hcalls j d hd, hle⟩
  | _ => trivial

/-- The cursor stays at the slot of a firing or beyond. -/
theorem Reached.mono {start cursor cursor' : Int} {calls calls' : List StartCall}
    {pre : List TimerEvent} {e : TimerEvent}
    (hcalls : ∀ (i : Nat) (c : StartCall), calls[i]? = some c → calls'[i]? = some c)
    (hcursor : cursor ≤ cursor') (h : Reached start calls cursor pre e) :
    Reached start calls' cursor' pre e := by
  cases e with
  | OnTime i lTick =>
      obtain ⟨c, hc, hle⟩ := h
      exact ⟨c, hcalls i c hc, Int.le_trans hle hcursor⟩
  | _ => trivial

/-- The cursor goes forward, and an event is added that is no `Processing`. -/
theorem Latest.mono {start cursor cursor' : Int} {trace : List TimerEvent} {tick : Option Int}
    (hcursor : cursor ≤ cursor') (h : Latest start cursor trace tick) :
    Latest start cursor' trace tick := by
  cases tick with
  | none => exact fun t ht => Int.le_trans (h t ht) hcursor
  | some lTick =>
      obtain ⟨before, since, htrace, hsince, hbefore⟩ := h
      exact ⟨before, since, htrace, hsince, fun t ht => Int.le_trans (hbefore t ht) hcursor⟩

/-- Another event that is no `Processing`. -/
theorem Latest.snoc {start cursor : Int} {trace : List TimerEvent} {tick : Option Int}
    {e : TimerEvent} (he : ∀ t, e ≠ .Processing t) (h : Latest start cursor trace tick) :
    Latest start cursor (trace ++ [e]) tick := by
  cases tick with
  | none =>
      intro t ht
      rcases List.mem_append.mp ht with ht | ht
      · exact h t ht
      · exact absurd (List.mem_singleton.mp ht).symm (he t)
  | some lTick =>
      obtain ⟨before, since, htrace, hsince, hbefore⟩ := h
      refine ⟨before, since ++ [e], by rw [htrace, List.append_assoc]; rfl, fun t ht => ?_,
        hbefore⟩
      rcases List.mem_append.mp ht with ht | ht
      · exact hsince t ht
      · exact he t (List.mem_singleton.mp ht).symm

namespace Plan

variable {start : Int} {s s' : Plan} {a : TimerAction}

/-- Every step keeps the firings on schedule. -/
theorem Scheduled.effect (h : s.Scheduled start) (heffect : Effect start s s' a) :
    s'.Scheduled start := by
  cases heffect with
  | quiet hcalls hcursor htick htrace =>
      -- What the trace says so far stays true with more calls and a later cursor.
      have honSchedule : Always (OnSchedule start s'.calls) s.trace :=
        h.onSchedule.mono fun _ _ => OnSchedule.mono hcalls
      have hreached : Always (Reached start s'.calls s'.cursor) s.trace :=
        h.reached.mono fun _ _ => Reached.mono hcalls hcursor
      have hlatest := h.latest.mono hcursor
      rcases htrace with htrace | ⟨e, htrace, hquiet⟩
      · refine ⟨?_, ?_, ?_, ?_⟩
        · rw [htrace]
          exact h.fromStart
        · rwa [htick, htrace]
        · rwa [htrace]
        · rwa [htrace]
      · refine ⟨?_, ?_, ?_, ?_⟩
        · rw [htrace]
          exact always_snoc.mpr ⟨h.fromStart, by cases e <;> trivial⟩
        · rw [htick, htrace]
          -- A quiet event is no tick, so the latest one is the same.
          exact hlatest.snoc fun t heq => by rw [heq] at hquiet; exact hquiet
        · rw [htrace]
          exact always_snoc.mpr ⟨honSchedule, by cases e <;> trivial⟩
        · rw [htrace]
          exact always_snoc.mpr ⟨hreached, by cases e <;> trivial⟩
  | fires i c lTick hc hallows hslot hlt htick htick' hcalls hcursor htrace =>
      have hlatest := h.latest
      rw [htick] at hlatest
      have hnew : OnSchedule start s.calls s.trace (.OnTime i lTick) := by
        obtain ⟨before, since, heq, hsince, hbefore⟩ := hlatest
        refine ⟨c, hc, hallows, ⟨before, since, heq, hsince, ?_, ?_⟩, ?_⟩
        · rw [hslot]
          exact hlt
        · rw [hslot]
          exact hbefore
        · -- The cursor has reached the slots of all firings so far, and it is at this one.
          intro p j t q hpre
          rw [hslot]
          exact h.reached p (.OnTime j t) q hpre
      refine ⟨?_, ?_, ?_, ?_⟩
      · rw [htrace]
        exact always_snoc.mpr ⟨h.fromStart, trivial⟩
      · rw [htick', hcursor, htrace]
        exact hlatest.snoc fun t heq => by cases heq
      · rw [hcalls, htrace]
        exact always_snoc.mpr ⟨h.onSchedule, hnew⟩
      · rw [hcalls, hcursor, htrace]
        exact always_snoc.mpr ⟨h.reached, c, hc, Int.le_of_eq hslot⟩
  | calls lTick ha hle htick htick' hcalls hcursor htrace =>
      have hlatest := h.latest
      rw [htick] at hlatest
      refine ⟨?_, ?_, ?_, ?_⟩
      · rw [htrace]
        exact always_snoc.mpr ⟨h.fromStart, hle⟩
      · rw [htick', hcursor, htrace]
        -- Nothing has happened since this tick.
        exact ⟨s.trace, [], rfl, fun _ => List.not_mem_nil, hlatest⟩
      · rw [hcalls, htrace]
        exact always_snoc.mpr ⟨h.onSchedule, trivial⟩
      · rw [hcalls, hcursor, htrace]
        exact always_snoc.mpr ⟨h.reached, trivial⟩
  | returns lTick htick hle htick' hcalls hcursor htrace =>
      have hlatest := h.latest
      rw [htick] at hlatest
      refine ⟨?_, ?_, ?_, ?_⟩
      · rw [htrace]
        exact h.fromStart
      · rw [htick', hcursor, htrace]
        obtain ⟨before, since, heq, hsince, hbefore⟩ := hlatest
        intro t ht
        rw [heq] at ht
        rcases List.mem_append.mp ht with ht | ht
        · exact hbefore t ht
        · rcases List.mem_cons.mp ht with ht | ht
          · -- The tick that returns has reached its slot, and the ones before had.
            cases ht
            exact hle
          · exact absurd ht (hsince t)
      · rw [hcalls, htrace]
        exact h.onSchedule
      · rw [hcalls, hcursor, htrace]
        exact h.reached

/-- The firings of a timer that rests, and the slot it waits in, when it still waits. -/
theorem Inv.rest (hs : s.Inv start) (hpc : s.pc = .idle) {i : Nat} {c : StartCall}
    (hc : s.calls[i]? = some c) :
    (s.phase i = .waiting (hits i s.trace) ∧ c.Allows (hits i s.trace) ∧
      s.cursor ≤ c.slot start (hits i s.trace)) ∨
    ∀ k, c.Allows k → k < hits i s.trace := by
  have hcalled := hs.called hc
  have hplaced := hs.placed hc
  rw [hpc] at hplaced
  unfold hits
  rw [hcalled]
  cases hphase : s.phase i with
  | waiting h =>
      rw [hphase] at hplaced
      have hcount : ((Phase.waiting h).callbacks c).count .OnTime = h := count_fired h
      rw [hcount]
      exact .inl ⟨rfl, hplaced⟩
  | starting =>
      rw [hphase] at hplaced
      exact hplaced.2.elim
  | firing h =>
      rw [hphase] at hplaced
      exact hplaced.2.2.elim
  | ending =>
      rw [hphase] at hplaced
      exact hplaced.2.elim
  | released =>
      rw [hphase] at hplaced
      have hloop : 1 ≤ c.loop := hplaced
      refine .inr fun k hallows => ?_
      show k < (fired c.loop.toNat ++ [TimerCallback.OnTerminate true, .Release]).count .OnTime
      rw [List.count_append, count_fired]
      unfold StartCall.Allows at hallows
      omega

/-- Outside of `Processing` no firing is due: every slot that a `Processing` has gone beyond
is empty, and its firings are made. -/
theorem Inv.hits_of_slot_lt (hs : s.Inv start) (hpc : s.pc = .idle) {i k : Nat} {c : StartCall}
    (hc : s.calls[i]? = some c) (hallows : c.Allows k) (hlt : c.slot start k < s.cursor) :
    k < hits i s.trace := by
  rcases hs.rest hpc hc with ⟨-, -, hle⟩ | hall
  · exact StartCall.lt_of_slot_lt (hs.bounded hc) (Int.lt_of_lt_of_le hlt hle)
  · exact hall k hallows

end Plan

namespace TimerState

/-- The timer schedule, at an uptime below `2 ^ 31` ms. In every run, with `k` the number of
firings of the timer so far:
* an `OnTime` is the firing `k` of its timer; the loop count allows it, it is due, and it is
  made in the first `Processing` whose tick is beyond its slot;
* the slots of the firings, of whatever timers, do not decrease;
* outside of `Processing`, every firing with a slot before the target of some `Processing`
  so far is made;
* inside of `Processing` the code never gets stuck, and it returns after a bounded number of
  steps, whatever the callbacks do. -/
theorem schedule {start : Int} {as : List TimerAction} {st : TimerState}
    (hrun : run step (init start) as = some st)
    (hA : AllSteps step Admissible (init start) as)
    (hup : ∀ lTick, .Processing lTick ∈ st.trace → lTick - start < 2147483648) :
    (∀ pre i lTick post, st.trace = pre ++ .OnTime i lTick :: post →
      ∃ c, st.calls[i]? = some c ∧ c.Allows (hits i pre) ∧ c.due (hits i pre) ≤ lTick ∧
        FirstBeyond (fun t => (t - start) / 20) pre lTick (c.slot start (hits i pre))) ∧
    (∀ pre i lTick mid j lTick' post,
      st.trace = (pre ++ .OnTime i lTick :: mid) ++ .OnTime j lTick' :: post →
      ∃ c d, st.calls[i]? = some c ∧ st.calls[j]? = some d ∧
        c.slot start (hits i pre) ≤ d.slot start (hits j (pre ++ .OnTime i lTick :: mid))) ∧
    (st.pc = .idle → ∀ (i k : Nat) (c : StartCall) (lTick : Int), st.calls[i]? = some c →
      c.Allows k → .Processing lTick ∈ st.trace → c.slot start k < (lTick - start) / 20 →
      k < hits i st.trace) ∧
    (st.pc ≠ .idle → ∃ st', st.step .go = some st') ∧
    ∃ bound, ∀ bs st', run step st bs = some st' → AllSteps step Admissible st bs →
      (∀ now, .Processing now ∉ bs) → bs.count .go ≤ bound := by
  obtain ⟨lists, phase, hsim, hscheduled⟩ := run_plan (Plan.init_scheduled start)
    (fun hinv hI hstep => hI.effect (hstep.effect hinv)) hrun (fitting_of_admissible hA)
  have hreach : ∀ t, .Processing t ∈ st.trace → (t - start) / 20 = reach start t := by
    intro t ht
    obtain ⟨pre, post, heq⟩ := List.append_of_mem ht
    -- The clock is not before the start and the uptime fits in 31 bits, so the division is exact.
    have hle : start ≤ t := hscheduled.fromStart pre _ post heq
    exact (reach_eq hle (hup t ht)).symm
  refine ⟨fun pre i lTick post heq => ?_, fun pre i lTick mid j lTick' post heq => ?_,
    fun hpc i k c lTick hc hallows hin hlt => ?_, hsim.go_isSome,
    (st.plan phase).work start,
    fun bs st' hbs hAbs hnone => go_count_le hsim hbs (fitting_of_admissible hAbs) hnone⟩
  · obtain ⟨c, hc, hallows, hfirst, -⟩ := hscheduled.onSchedule pre _ post heq
    have hfirst : FirstBeyond (fun t => (t - start) / 20) pre lTick
        (c.slot start (hits i pre)) := by
      refine hfirst.congr fun t ht => hreach t ?_
      rw [heq]
      exact List.mem_append_left _ ht
    refine ⟨c, hc, hallows, ?_, hfirst⟩
    obtain ⟨-, -, -, -, hlt, -⟩ := hfirst
    -- The slot lies behind the clock, so the due time does.
    have hlt : c.slot start (hits i pre) < (lTick - start) / 20 := hlt
    unfold StartCall.slot at hlt
    omega
  · obtain ⟨d, hd, -, -, horder⟩ := hscheduled.onSchedule _ _ post heq
    obtain ⟨c, hc, hle⟩ := horder pre i lTick mid rfl
    exact ⟨c, d, hc, hd, hle⟩
  · have hidle : (st.plan phase).pc = .idle := by
      show st.pc.plan st.mgr = _
      rw [hpc]
      rfl
    have hlatest := hscheduled.latest
    rw [hidle] at hlatest
    rw [hreach lTick hin] at hlt
    exact hsim.inv.hits_of_slot_lt hidle hc hallows (Int.lt_of_lt_of_le hlt (hlatest lTick hin))

/-- A timer that fires twice, one slot late, with a stall between. -/
def firesTwice : List TimerAction :=
  [.StartTimer 5 1 7 100 0 2, .Processing 30, .go, .go, .go, .go, .go, .go, .Processing 400,
    .go, .go, .go, .go, .go, .go, .go]

/-- The firings of that run are on schedule. -/
theorem schedule_twice :
    ∃ st, run step (init 0) firesTwice = some st ∧
      (∀ pre i lTick post, st.trace = pre ++ .OnTime i lTick :: post →
        ∃ c, st.calls[i]? = some c ∧ c.Allows (hits i pre) ∧ c.due (hits i pre) ≤ lTick ∧
          FirstBeyond (fun t => (t - 0) / 20) pre lTick (c.slot 0 (hits i pre))) := by
  obtain ⟨st, hst, htrace⟩ : ∃ st, run step (init 0) firesTwice = some st ∧
      st.trace = [.StartTimer 0, .Processing 30, .OnStart 0 30, .OnTime 0 30, .Processing 400,
        .OnTime 0 400, .OnTerminate 0 true 400] := ⟨_, rfl, rfl⟩
  refine ⟨st, hst, (schedule hst (by decide) fun t ht => ?_).1⟩
  rw [htrace] at ht
  have hmem : t = 30 ∨ t = 400 := by simpa using ht
  omega

end TimerState

end Kernel4GameServer
