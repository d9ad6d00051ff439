import Kernel4GameServer.Timermgr.Plan
import Mathlib.Tactic.Common

/-!
# `Kernel4GameServer.Proofs.Timermgr.PlanInv`: the invariant of the plan

`Plan.Inv` says what holds in every state of a plan:

- the clock and the cursor: the cursor is never behind zero nor ahead of the clock, and in a
  `Processing` it is not beyond the target;
- the calls: each call is within its bounds, its callbacks are those of its phase, and its
  phase fits the cursor. A timer that waits for a firing has the slot of that firing at the
  cursor or ahead of it, and a timer in a callback has it at the cursor.

Two facts carry the proof. A timer started now has its first slot at the target or beyond,
so it is never in the slot that runs. A timer that fired waits in the same slot or a later one.
-/

set_option autoImplicit false

namespace Kernel4GameServer

/-! ### The slots of a call -/

namespace StartCall

variable {start : Int} {c : StartCall}

/-- The due time of the next firing. -/
theorem due_succ (c : StartCall) (k : Nat) : c.due (k + 1) = c.due k + c.interval := by
  have hmul : ((k + 1 : Nat) : Int) * c.interval = k * c.interval + c.interval := by
    rw [Int.natCast_succ, Int.add_mul, Int.one_mul]
  unfold due
  omega

@[simp] theorem due_zero (c : StartCall) : c.due 0 = c.t0 + c.delay := by simp [due]

/-- The next firing is not in an earlier slot. -/
theorem slot_succ (hc : c.Bounded start) (k : Nat) : c.slot start k ≤ c.slot start (k + 1) := by
  have hinterval := hc.interval_pos
  have hdue := c.due_succ k
  unfold slot
  omega

/-- A later firing is not in an earlier slot. -/
theorem slot_mono (hc : c.Bounded start) {k h : Nat} (hle : k ≤ h) :
    c.slot start k ≤ c.slot start h := by
  induction hle with
  | refl => exact Int.le_refl _
  | step _ ih => exact Int.le_trans ih (slot_succ hc _)

/-- Firings in slots before that of a firing come before it. -/
theorem lt_of_slot_lt (hc : c.Bounded start) {k h : Nat} (hlt : c.slot start k < c.slot start h) :
    k < h := by
  by_contra hge
  have := slot_mono hc (Nat.le_of_not_lt hge)
  omega

/-- The first firing is always allowed. -/
theorem allows_zero (c : StartCall) : c.Allows 0 := by
  unfold Allows
  omega

end StartCall

/-! ### The reach of a `Processing` -/

/-- Below `2 ^ 31` ms a `Processing` goes up to the slot of its tick. -/
theorem reach_eq {start lTick : Int} (hle : start ≤ lTick) (hlt : lTick - start < 2147483648) :
    reach start lTick = (lTick - start) / 20 := by
  unfold reach
  rw [s32_of_range (by omega) hlt]
  exact Int.tdiv_eq_ediv_of_nonneg (by omega)

/-- The reach is an `s32`. -/
theorem reach_lt (start lTick : Int) : 20 * reach start lTick < 2147483648 := by
  have hlt := (s32_range (lTick - start)).2
  unfold reach
  rcases Int.le_total 0 (s32 (lTick - start)) with hpos | hneg
  · rw [Int.tdiv_eq_ediv_of_nonneg hpos]
    omega
  · have hle : (s32 (lTick - start)).tdiv 20 ≤ Int.tdiv 0 20 :=
      Int.tdiv_le_tdiv (by decide) hneg
    rw [Int.zero_tdiv] at hle
    omega

/-- A `Processing` never goes beyond the slot of its tick. -/
theorem reach_le {start lTick : Int} (hle : start ≤ lTick) :
    20 * reach start lTick ≤ lTick - start := by
  rcases Int.lt_or_le (lTick - start) 2147483648 with hlt | hge
  · rw [reach_eq hle hlt]
    omega
  · have := reach_lt start lTick
    omega

/-! ### The callbacks of a call -/

/-- One more event. -/
theorem callbacks_snoc (i : Nat) (trace : List TimerEvent) (e : TimerEvent) :
    callbacks i (trace ++ [e]) = callbacks i trace ++ (e.callback i).toList := by
  unfold callbacks
  rw [List.filterMap_append]
  cases h : e.callback i <;> simp [h]

/-- An event that is none of the call's. -/
theorem callbacks_snoc_none {i : Nat} {trace : List TimerEvent} {e : TimerEvent}
    (he : e.callback i = none) : callbacks i (trace ++ [e]) = callbacks i trace := by
  rw [callbacks_snoc, he]
  exact List.append_nil _

/-- An event of the call. -/
theorem callbacks_snoc_some {i : Nat} {trace : List TimerEvent} {e : TimerEvent}
    {x : TimerCallback} (he : e.callback i = some x) :
    callbacks i (trace ++ [e]) = callbacks i trace ++ [x] := by
  rw [callbacks_snoc, he]
  rfl

/-- One more firing of a timer that fired before. -/
theorem fired_succ {h : Nat} (hpos : 0 < h) : fired (h + 1) = fired h ++ [.OnTime] := by
  unfold fired
  rw [if_neg (by omega), if_neg (by omega), List.replicate_succ', List.cons_append]

/-- A timer that fired `h` times got `OnTime` so often. -/
@[simp] theorem count_fired (h : Nat) : (fired h).count .OnTime = h := by
  unfold fired
  split
  · rename_i hzero
    rw [hzero]
    rfl
  · simp

/-- A call in a list with one more call is an old one or the new one. -/
theorem getElem?_snoc {α : Type} {l : List α} {x y : α} {i : Nat}
    (h : (l ++ [x])[i]? = some y) : l[i]? = some y ∨ i = l.length ∧ x = y := by
  rcases Nat.lt_or_ge i l.length with hlt | hge
  · rw [List.getElem?_append_left hlt] at h
    exact .inl h
  · rw [List.getElem?_append_right hge, List.getElem?_singleton] at h
    split at h
    · exact .inr ⟨by omega, Option.some.inj h⟩
    · cases h

/-! ### The invariant -/

/-- How a phase fits the cursor. Only the call of a callback is not at rest. -/
def Phase.Placed (start cursor : Int) (pc : PlanPc) (i : Nat) (c : StartCall) : Phase → Prop
  | .waiting h => c.Allows h ∧ cursor ≤ c.slot start h
  | .starting => c.slot start 0 = cursor ∧ pc.Calls i
  | .firing h => c.Allows h ∧ c.slot start h = cursor ∧ pc.Calls i
  | .ending => 1 ≤ c.loop ∧ pc.Calls i
  | .released => 1 ≤ c.loop

/-- The local variables of `Processing`. -/
def PlanPc.Timed (start clock cursor : Int) : PlanPc → Prop
  | .idle => True
  | .cursor lTick nCursor =>
      lTick ≤ clock ∧ 20 * nCursor ≤ lTick - start ∧ nCursor = reach start lTick
  | .slot lTick nCursor =>
      lTick ≤ clock ∧ 20 * nCursor ≤ lTick - start ∧ nCursor = reach start lTick ∧
        cursor < nCursor
  | .callback lTick nCursor _ =>
      lTick ≤ clock ∧ 20 * nCursor ≤ lTick - start ∧ nCursor = reach start lTick ∧
        cursor < nCursor

namespace Phase

variable {start cursor : Int} {pc pc' : PlanPc} {i : Nat} {c : StartCall} {x : Phase}

/-- A phase fits another place of `Processing` when the call is in a callback there too. -/
theorem Placed.frame (h : x.Placed start cursor pc i c) (hpc : pc.Calls i → pc'.Calls i) :
    x.Placed start cursor pc' i c := by
  cases x with
  | waiting h' => exact h
  | starting => exact ⟨h.1, hpc h.2⟩
  | firing h' => exact ⟨h.1, h.2.1, hpc h.2.2⟩
  | ending => exact ⟨h.1, hpc h.2⟩
  | released => exact h

/-- Outside of callbacks a phase fits the next slot when its timer does not wait in this
one. -/
theorem Placed.advance (h : x.Placed start cursor pc i c) (hpc : ¬ pc.Calls i)
    (hempty : ∀ k, x = .waiting k → c.slot start k ≠ cursor) :
    x.Placed start (cursor + 1) pc' i c := by
  cases x with
  | waiting k =>
      have hne := hempty k rfl
      have hle := h.2
      exact ⟨h.1, by omega⟩
  | starting => exact absurd h.2 hpc
  | firing k => exact absurd h.2.2 hpc
  | ending => exact absurd h.2 hpc
  | released => exact h

end Phase

namespace Plan

/-- What holds in every state of a plan. -/
structure Inv (start : Int) (s : Plan) : Prop where
  start_le : start ≤ s.clock
  cursor_nonneg : 0 ≤ s.cursor
  cursor_le : 20 * s.cursor ≤ s.clock - start
  timed : s.pc.Timed start s.clock s.cursor
  bounded : ∀ {i : Nat} {c : StartCall}, s.calls[i]? = some c → c.Bounded start
  from_start : ∀ {i : Nat} {c : StartCall}, s.calls[i]? = some c → start ≤ c.t0
  called : ∀ {i : Nat} {c : StartCall}, s.calls[i]? = some c →
    callbacks i s.trace = (s.phase i).callbacks c
  placed : ∀ {i : Nat} {c : StartCall}, s.calls[i]? = some c →
    (s.phase i).Placed start s.cursor s.pc i c
  silent : ∀ {i : Nat}, s.calls.length ≤ i → callbacks i s.trace = []

variable {start : Int} {s s' : Plan} {a : TimerAction}

/-- A timer that waits for the firing `k` fired `k` times. -/
theorem Inv.hits_waiting (hs : s.Inv start) {i k : Nat} {c : StartCall}
    (hc : s.calls[i]? = some c) (hphase : s.phase i = .waiting k) : hits i s.trace = k := by
  have hcalled := hs.called hc
  rw [hphase] at hcalled
  unfold hits
  rw [hcalled]
  exact count_fired k

@[simp] theorem setPhase_self (s : Plan) (i : Nat) (x : Phase) : (s.setPhase i x).phase i = x :=
  Function.update_self _ _ _

@[simp] theorem setPhase_other (s : Plan) {i j : Nat} (x : Phase) (h : j ≠ i) :
    (s.setPhase i x).phase j = s.phase j :=
  Function.update_of_ne h _ _

/-- The plan at the start. -/
theorem init_inv (start : Int) : (init start).Inv start where
  start_le := Int.le_refl _
  cursor_nonneg := Int.le_refl _
  cursor_le := by simp [init]
  timed := trivial
  bounded h := by cases h
  from_start h := by cases h
  called h := by cases h
  placed h := by cases h
  silent _ := rfl

/-- One call moves to another phase, and the others are at rest. -/
theorem Inv.move (hs : s.Inv start) {i : Nat} {c : StartCall} {x : Phase} {pc : PlanPc}
    {trace : List TimerEvent} (hc : s.calls[i]? = some c)
    (hrest : ∀ j, j ≠ i → ¬ s.pc.Calls j) (hpc : pc.Timed start s.clock s.cursor)
    (hplaced : x.Placed start s.cursor pc i c) (hcalled : callbacks i trace = x.callbacks c)
    (hothers : ∀ j, j ≠ i → callbacks j trace = callbacks j s.trace) :
    ({ s.setPhase i x with pc, trace } : Plan).Inv start where
  start_le := hs.start_le
  cursor_nonneg := hs.cursor_nonneg
  cursor_le := hs.cursor_le
  timed := hpc
  bounded := hs.bounded
  from_start := hs.from_start
  called := by
    intro j d hd
    by_cases hj : j = i
    · subst hj
      obtain rfl : c = d := Option.some.inj (hc.symm.trans hd)
      show callbacks j trace = ((s.setPhase j x).phase j).callbacks c
      rw [setPhase_self, hcalled]
    · show callbacks j trace = ((s.setPhase i x).phase j).callbacks d
      rw [setPhase_other s x hj, hothers j hj]
      exact hs.called hd
  placed := by
    intro j d hd
    by_cases hj : j = i
    · subst hj
      obtain rfl : c = d := Option.some.inj (hc.symm.trans hd)
      show ((s.setPhase j x).phase j).Placed start s.cursor pc j c
      rwa [setPhase_self]
    · show ((s.setPhase i x).phase j).Placed start s.cursor pc j d
      rw [setPhase_other s x hj]
      exact (hs.placed hd).frame fun hcalls => absurd hcalls (hrest j hj)
  silent := by
    intro j hj
    have hlt : i < s.calls.length := (List.getElem?_eq_some_iff.mp hc).1
    show callbacks j trace = []
    rw [hothers j (by intro heq; subst heq; exact absurd hlt (Nat.not_lt.mpr hj))]
    exact hs.silent hj

/-- Outside of callbacks every call is at rest. -/
theorem not_calls_slot {lTick nCursor : Int} (hpc : s.pc = .slot lTick nCursor) (j : Nat) :
    ¬ s.pc.Calls j := by
  rw [hpc]
  exact fun h => h

/-- In a callback every other call is at rest. -/
theorem not_calls_other {lTick nCursor : Int} {call : Nat}
    (hpc : s.pc = .callback lTick nCursor call) (j : Nat) (hj : j ≠ call) : ¬ s.pc.Calls j := by
  rw [hpc]
  exact fun h => hj h.symm

/-- The cursor leaves a slot in which no timer waits. -/
theorem Inv.advance (hs : s.Inv start) {pc : PlanPc} (hrest : ∀ j, ¬ s.pc.Calls j)
    (hempty : s.Empty start) (hpc : pc.Timed start s.clock (s.cursor + 1))
    (hle : 20 * (s.cursor + 1) ≤ s.clock - start) :
    ({ s with cursor := s.cursor + 1, pc } : Plan).Inv start where
  start_le := hs.start_le
  cursor_nonneg := Int.add_nonneg hs.cursor_nonneg (by decide)
  cursor_le := hle
  timed := hpc
  bounded := hs.bounded
  from_start := hs.from_start
  called := hs.called
  placed := by
    intro j d hd
    exact (hs.placed hd).advance (hrest j) fun k hk => hempty j d k hd hk
  silent := hs.silent

/-- `Processing` goes to another place outside of callbacks. -/
theorem Inv.goto (hs : s.Inv start) {pc : PlanPc} (hrest : ∀ j, ¬ s.pc.Calls j)
    (hpc : pc.Timed start s.clock s.cursor) : ({ s with pc } : Plan).Inv start where
  start_le := hs.start_le
  cursor_nonneg := hs.cursor_nonneg
  cursor_le := hs.cursor_le
  timed := hpc
  bounded := hs.bounded
  from_start := hs.from_start
  called := hs.called
  placed hd := (hs.placed hd).frame fun hcalls => absurd hcalls (hrest _)
  silent := hs.silent

/-- The local variables of `Processing` stay right when the clock goes on. -/
theorem Timed.later {pc : PlanPc} {clock clock' cursor : Int} (hle : clock ≤ clock')
    (h : pc.Timed start clock cursor) : pc.Timed start clock' cursor := by
  cases pc with
  | idle => trivial
  | cursor lTick nCursor => exact ⟨Int.le_trans h.1 hle, h.2⟩
  | slot lTick nCursor => exact ⟨Int.le_trans h.1 hle, h.2⟩
  | callback lTick nCursor call => exact ⟨Int.le_trans h.1 hle, h.2⟩

/-- Another event that is no callback, at a later time. -/
theorem Inv.note (hs : s.Inv start) {pc : PlanPc} {clock : Int} {e : TimerEvent}
    (he : ∀ i, e.callback i = none) (hclock : s.clock ≤ clock)
    (hpc : pc.Timed start clock s.cursor) (hcalls : ∀ i, s.pc.Calls i → pc.Calls i) :
    ({ s with clock, pc, trace := s.trace ++ [e] } : Plan).Inv start where
  start_le := Int.le_trans hs.start_le hclock
  cursor_nonneg := hs.cursor_nonneg
  cursor_le := Int.le_trans hs.cursor_le (Int.sub_le_sub_right hclock start)
  timed := hpc
  bounded := hs.bounded
  from_start := hs.from_start
  called hd := (callbacks_snoc_none (he _)).trans (hs.called hd)
  placed hd := (hs.placed hd).frame (hcalls _)
  silent hj := (callbacks_snoc_none (he _)).trans (hs.silent hj)

/-- A call that is not made before the time of the cursor has its first slot at the cursor or
ahead of it. -/
theorem Inv.ahead (hs : s.Inv start) {c : StartCall} (hclock : s.clock ≤ c.t0)
    (hc : c.Bounded start) : s.cursor ≤ c.slot start 0 := by
  have hle := hs.cursor_le
  have hdelay := hc.delay_nonneg
  unfold StartCall.slot
  rw [StartCall.due_zero]
  omega

/-- A new call waits for its first firing, whose slot is at the cursor or ahead of it. -/
theorem Inv.begin (hs : s.Inv start) {c : StartCall} {clock : Int} (hclock : s.clock ≤ clock)
    (hstart : start ≤ c.t0) (hahead : s.cursor ≤ c.slot start 0) (hc : c.Bounded start) :
    ({ s.setPhase s.calls.length (.waiting 0) with
        clock
        calls := s.calls ++ [c]
        trace := s.trace ++ [.StartTimer s.calls.length] } : Plan).Inv start where
  start_le := Int.le_trans hs.start_le hclock
  cursor_nonneg := hs.cursor_nonneg
  cursor_le := Int.le_trans hs.cursor_le (Int.sub_le_sub_right hclock start)
  timed := Timed.later hclock hs.timed
  bounded := by
    intro i d hd
    rcases getElem?_snoc hd with hold | ⟨-, rfl⟩
    · exact hs.bounded hold
    · exact hc
  from_start := by
    intro i d hd
    rcases getElem?_snoc hd with hold | ⟨-, rfl⟩
    · exact hs.from_start hold
    · exact hstart
  called := by
    intro i d hd
    show callbacks i (s.trace ++ [.StartTimer s.calls.length])
      = ((s.setPhase s.calls.length (.waiting 0)).phase i).callbacks d
    rw [callbacks_snoc_none rfl]
    rcases getElem?_snoc hd with hold | ⟨rfl, rfl⟩
    · have hlt := (List.getElem?_eq_some_iff.mp hold).1
      rw [setPhase_other s _ (by omega)]
      exact hs.called hold
    · rw [setPhase_self, hs.silent (Nat.le_refl _)]
      rfl
  placed := by
    intro i d hd
    show ((s.setPhase s.calls.length (.waiting 0)).phase i).Placed start s.cursor s.pc i d
    rcases getElem?_snoc hd with hold | ⟨rfl, rfl⟩
    · have hlt := (List.getElem?_eq_some_iff.mp hold).1
      rw [setPhase_other s _ (by omega)]
      exact hs.placed hold
    · rw [setPhase_self]
      exact ⟨c.allows_zero, hahead⟩
  silent := by
    intro i hi
    rw [List.length_append] at hi
    exact (callbacks_snoc_none rfl).trans (hs.silent (by omega))

/-- Every step keeps the invariant. -/
theorem Step.inv (hstep : Step start s a s') (hs : s.Inv start) : s'.Inv start := by
  cases hstep with
  | StartTimer c interval delay loop huser hclock hc =>
      exact hs.begin hclock (Int.le_trans hs.start_le hclock) (hs.ahead hclock hc) hc
  | KillTimer id timer huser =>
      exact hs.note (fun _ => rfl) (Int.le_refl _) hs.timed fun _ h => h
  | Processing lTick hpc hclock =>
      have hle := reach_le (Int.le_trans hs.start_le hclock)
      refine hs.note (fun _ => rfl) hclock ⟨Int.le_refl _, hle, rfl⟩ fun i hcalls => ?_
      rw [hpc] at hcalls
      exact hcalls.elim
  | stop lTick nCursor hpc hlt => exact hs.goto (by rw [hpc]; exact fun _ h => h) trivial
  | enter lTick nCursor hpc hlt =>
      have htimed := hs.timed
      rw [hpc] at htimed
      exact hs.goto (by rw [hpc]; exact fun _ h => h) ⟨htimed.1, htimed.2.1, htimed.2.2, hlt⟩
  | skip lTick nCursor hpc hlt hempty =>
      have htimed := hs.timed
      rw [hpc] at htimed
      refine hs.advance (by rw [hpc]; exact fun _ h => h) hempty ?_ ?_
      · rw [hpc]
        exact htimed
      · obtain ⟨hL, hup, -⟩ := htimed
        omega
  | leave lTick nCursor hpc hempty =>
      have htimed := hs.timed
      rw [hpc] at htimed
      obtain ⟨hL, hup, hn, hlt⟩ := htimed
      exact hs.advance (not_calls_slot hpc) hempty ⟨hL, hup, hn⟩ (by omega)
  | first lTick nCursor call c hpc hc hphase hslot =>
      have htimed := hs.timed
      have hcalled := hs.called hc
      rw [hpc] at htimed
      rw [hphase] at hcalled
      refine hs.move hc (fun j _ => not_calls_slot hpc j) htimed ⟨hslot, rfl⟩ ?_ fun j hj => ?_
      · rw [callbacks_snoc_some (i := call) (e := .OnStart call lTick) (if_pos rfl), hcalled]
        rfl
      · exact callbacks_snoc_none (if_neg hj.symm)
  | pick lTick nCursor call c h hpc hc hphase hpos hslot =>
      have htimed := hs.timed
      have hcalled := hs.called hc
      have hplaced := hs.placed hc
      rw [hpc] at htimed
      rw [hphase] at hcalled hplaced
      refine hs.move hc (fun j _ => not_calls_slot hpc j) htimed ⟨hplaced.1, hslot, rfl⟩ ?_
        fun j hj => ?_
      · rw [callbacks_snoc_some (i := call) (e := .OnTime call lTick) (if_pos rfl), hcalled]
        exact (fired_succ hpos).symm
      · exact callbacks_snoc_none (if_neg hj.symm)
  | started lTick nCursor call c hpc hc hphase =>
      have hcalled := hs.called hc
      have hplaced := hs.placed hc
      rw [hphase] at hcalled hplaced
      refine hs.move hc (not_calls_other hpc) hs.timed ⟨c.allows_zero, hplaced.1, hplaced.2⟩ ?_
        fun j hj => ?_
      · rw [callbacks_snoc_some (i := call) (e := .OnTime call lTick) (if_pos rfl), hcalled]
        rfl
      · exact callbacks_snoc_none (if_neg hj.symm)
  | again lTick nCursor call c h hpc hc hphase hloop =>
      have htimed := hs.timed
      have hcalled := hs.called hc
      have hplaced := hs.placed hc
      have hnext := StartCall.slot_succ (hs.bounded hc) h
      rw [hpc] at htimed
      rw [hphase] at hcalled hplaced
      obtain ⟨hallows, hslot, -⟩ := hplaced
      refine hs.move hc (not_calls_other hpc) htimed ⟨?_, by omega⟩ hcalled fun _ _ => rfl
      -- The count has not reached the loop count, so another firing is allowed.
      unfold StartCall.Allows at hallows ⊢
      omega
  | last lTick nCursor call c h hpc hc hphase hloop =>
      have hcalled := hs.called hc
      have hplaced := hs.placed hc
      rw [hphase] at hcalled hplaced
      refine hs.move hc (not_calls_other hpc) hs.timed ⟨by omega, hplaced.2.2⟩ ?_ fun j hj => ?_
      · rw [callbacks_snoc_some (i := call) (e := .OnTerminate call true lTick) (if_pos rfl),
          hcalled]
        show fired (h + 1) ++ _ = fired c.loop.toNat ++ _
        rw [← hloop]
        rfl
      · exact callbacks_snoc_none (if_neg hj.symm)
  | ended lTick nCursor call c hpc hc hphase =>
      have htimed := hs.timed
      have hcalled := hs.called hc
      have hplaced := hs.placed hc
      rw [hpc] at htimed
      rw [hphase] at hcalled hplaced
      refine hs.move hc (not_calls_other hpc) htimed hplaced.1 ?_ fun j hj => ?_
      · rw [callbacks_snoc_some (i := call) (e := .Release call) (if_pos rfl), hcalled]
        exact List.append_assoc _ _ _
      · exact callbacks_snoc_none (if_neg hj.symm)

end Plan

end Kernel4GameServer
