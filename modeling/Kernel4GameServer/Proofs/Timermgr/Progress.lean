import Kernel4GameServer.Proofs.Timermgr.Refine
import Mathlib.Algebra.Order.BigOperators.Group.Finset

/-!
# `Kernel4GameServer.Proofs.Timermgr.Progress`: `Processing` returns

A timer that catches up after a stall is linked again into a slot that the same `Processing`
still has to run, possibly the slot that runs, and a callback may start further timers
meanwhile. `Plan.work` bounds what is left to do. It counts the backlog of a timer in ms and
not in slots: the next firing is due at least 1 ms later, so the work gets less with every
step of the code (`Plan.Step.work_lt`). A new timer has its first slot at the target or
beyond, so the user adds no work (`Plan.Step.work_le`).

`TimerState.go_count_le` is the result: in one `Processing` the code takes no more steps
than the work there is, whatever the callbacks do.
-/

set_option autoImplicit false

namespace Kernel4GameServer

open Lib

/-- The backlog of a firing: how far it is due before the slot `nCursor`. -/
def StartCall.backlog (start nCursor : Int) (c : StartCall) (h : Nat) : Nat :=
  (20 * nCursor - (c.due h - start)).toNat

/-- What a call in this phase has left to do before the slot `nCursor`. -/
def Phase.load (start nCursor : Int) (c : StartCall) : Phase → Nat
  | .waiting h => 4 * c.backlog start nCursor h
  | .starting => 4 * c.backlog start nCursor 0 - 1
  | .firing h => 4 * c.backlog start nCursor h - 2
  | .ending => 1
  | .released => 0

/-- A firing in a slot before the target has a backlog. -/
theorem StartCall.backlog_pos {start nCursor : Int} {c : StartCall} {h : Nat}
    (hlt : c.slot start h < nCursor) : 0 < c.backlog start nCursor h := by
  unfold slot at hlt
  unfold backlog
  omega

/-- A firing in the slot of the target or beyond has none. -/
theorem StartCall.backlog_eq_zero {start nCursor : Int} {c : StartCall} {h : Nat}
    (hle : nCursor ≤ c.slot start h) : c.backlog start nCursor h = 0 := by
  unfold slot at hle
  unfold backlog
  omega

/-- The next firing of a timer has a smaller backlog. -/
theorem StartCall.backlog_succ {start nCursor : Int} {c : StartCall} (hc : c.Bounded start)
    {h : Nat} (hlt : c.slot start h < nCursor) :
    c.backlog start nCursor (h + 1) < c.backlog start nCursor h := by
  have hpos := backlog_pos hlt
  have hinterval := hc.interval_pos
  have hdue := c.due_succ h
  unfold backlog at hpos ⊢
  omega

namespace Plan

/-- What the call `i` has left to do before the slot `nCursor`. -/
def load (start nCursor : Int) (calls : List StartCall) (phase : Nat → Phase) (i : Nat) : Nat :=
  calls[i]?.elim 0 ((phase i).load start nCursor)

/-- What all calls have left to do before the slot `nCursor`. -/
def total (start nCursor : Int) (calls : List StartCall) (phase : Nat → Phase) : Nat :=
  ∑ i ∈ Finset.range calls.length, load start nCursor calls phase i

/-- What `Processing` has left to do. -/
def work (start : Int) (s : Plan) : Nat :=
  match s.pc with
  | .idle => 0
  | .cursor _ nCursor =>
      2 * (nCursor - s.cursor).toNat + 1 + total start nCursor s.calls s.phase
  | .slot _ nCursor => 2 * (nCursor - s.cursor).toNat + total start nCursor s.calls s.phase
  | .callback _ nCursor _ =>
      2 * (nCursor - s.cursor).toNat + total start nCursor s.calls s.phase

/-- `Processing` is in a slot, on the way to the slot `nCursor`. -/
def InSlot (nCursor : Int) : PlanPc → Prop
  | .slot _ n => n = nCursor
  | .callback _ n _ => n = nCursor
  | _ => False

variable {start nCursor : Int} {calls : List StartCall} {phase : Nat → Phase}

/-- One call has less to do, the others as much as before. -/
theorem total_lt {i : Nat} {c : StartCall} {x : Phase} (hc : calls[i]? = some c)
    (hlt : x.load start nCursor c < (phase i).load start nCursor c) :
    total start nCursor calls (Function.update phase i x) < total start nCursor calls phase := by
  have hi : i < calls.length := (List.getElem?_eq_some_iff.mp hc).1
  have hless : load start nCursor calls (Function.update phase i x) i
      < load start nCursor calls phase i := by
    unfold load
    rw [hc, Function.update_self]
    exact hlt
  refine Finset.sum_lt_sum (fun j _ => ?_) ⟨i, Finset.mem_range.mpr hi, hless⟩
  by_cases hj : j = i
  · subst hj
    exact Nat.le_of_lt hless
  · unfold load
    rw [Function.update_of_ne hj]

/-- A call whose first slot is not before the target has nothing to do. -/
theorem total_start {c : StartCall} (hslot : nCursor ≤ c.slot start 0) :
    total start nCursor (calls ++ [c]) (Function.update phase calls.length (.waiting 0))
      = total start nCursor calls phase := by
  unfold total
  rw [List.length_append, List.length_singleton, Finset.sum_range_succ]
  have hnew : load start nCursor (calls ++ [c])
      (Function.update phase calls.length (.waiting 0)) calls.length = 0 := by
    unfold load
    rw [List.getElem?_concat_length, Function.update_self]
    show 4 * c.backlog start nCursor 0 = 0
    rw [StartCall.backlog_eq_zero hslot]
  rw [hnew, Nat.add_zero]
  refine Finset.sum_congr rfl fun i hi => ?_
  have hlt : i < calls.length := Finset.mem_range.mp hi
  unfold load
  rw [List.getElem?_append_left hlt, Function.update_of_ne (Nat.ne_of_lt hlt)]

variable {s s' : Plan} {a : TimerAction}

/-- Outside of `Processing` there is no work. -/
theorem work_idle (h : s.pc = .idle) : s.work start = 0 := by
  unfold work
  rw [h]

/-- The places in a slot. -/
theorem inSlot_cases {pc : PlanPc} (h : InSlot nCursor pc) :
    (∃ lTick, pc = .slot lTick nCursor) ∨ ∃ lTick call, pc = .callback lTick nCursor call := by
  cases pc with
  | idle => exact h.elim
  | cursor lTick n => exact h.elim
  | slot lTick n =>
      obtain rfl : n = nCursor := h
      exact .inl ⟨lTick, rfl⟩
  | callback lTick n call =>
      obtain rfl : n = nCursor := h
      exact .inr ⟨lTick, call, rfl⟩

/-- The work in a slot. -/
theorem work_inSlot (h : InSlot nCursor s.pc) :
    s.work start = 2 * (nCursor - s.cursor).toNat + total start nCursor s.calls s.phase := by
  unfold work
  rcases inSlot_cases h with ⟨lTick, hpc⟩ | ⟨lTick, call, hpc⟩ <;> rw [hpc]

/-- In a slot the cursor is before the target, and the target is not ahead of the clock. -/
theorem Inv.inSlot (hs : s.Inv start) (h : InSlot nCursor s.pc) :
    s.cursor < nCursor ∧ 20 * nCursor ≤ s.clock - start := by
  have htimed := hs.timed
  rcases inSlot_cases h with ⟨lTick, hpc⟩ | ⟨lTick, call, hpc⟩
  all_goals
    rw [hpc] at htimed
    obtain ⟨hle, hup, -, hlt⟩ := htimed
    omega

/-- A call that has less to do makes the work less. -/
theorem work_move {i : Nat} {c : StartCall} {x : Phase} {pc : PlanPc} {trace : List TimerEvent}
    (hpc : InSlot nCursor s.pc) (hpc' : InSlot nCursor pc) (hc : s.calls[i]? = some c)
    (hlt : x.load start nCursor c < (s.phase i).load start nCursor c) :
    ({ s.setPhase i x with pc, trace } : Plan).work start < s.work start := by
  rw [work_inSlot hpc, work_inSlot (s := { s.setPhase i x with pc, trace }) hpc']
  exact Nat.add_lt_add_left (total_lt hc hlt) _

/-- The code works off its work. -/
theorem Step.work_lt (hstep : Step start s .go s') (hs : s.Inv start) :
    s'.work start < s.work start := by
  generalize ha : TimerAction.go = a at hstep
  cases hstep with
  | StartTimer c interval delay loop huser hclock hc => cases ha
  | KillTimer id timer huser => cases ha
  | Processing lTick hpc hclock => cases ha
  | stop lTick nCursor hpc hlt =>
      unfold work
      rw [hpc]
      dsimp only
      omega
  | enter lTick nCursor hpc hlt =>
      unfold work
      rw [hpc]
      dsimp only
      omega
  | skip lTick nCursor hpc hlt hempty =>
      unfold work
      rw [hpc]
      dsimp only
      omega
  | leave lTick nCursor hpc hempty =>
      have hin : InSlot nCursor s.pc := by rw [hpc]; rfl
      have hlt := (hs.inSlot hin).1
      unfold work
      rw [hpc]
      dsimp only
      omega
  | first lTick nCursor call c hpc hc hphase hslot =>
      have hin : InSlot nCursor s.pc := by rw [hpc]; rfl
      have hpos := StartCall.backlog_pos (hslot.trans_lt (hs.inSlot hin).1)
      refine work_move hin rfl hc ?_
      rw [hphase]
      show 4 * c.backlog start nCursor 0 - 1 < 4 * c.backlog start nCursor 0
      omega
  | pick lTick nCursor call c h hpc hc hphase hpos hslot =>
      have hin : InSlot nCursor s.pc := by rw [hpc]; rfl
      have hload := StartCall.backlog_pos (hslot.trans_lt (hs.inSlot hin).1)
      refine work_move hin rfl hc ?_
      rw [hphase]
      show 4 * c.backlog start nCursor h - 2 < 4 * c.backlog start nCursor h
      omega
  | started lTick nCursor call c hpc hc hphase =>
      have hin : InSlot nCursor s.pc := by rw [hpc]; rfl
      have hplaced := hs.placed hc
      rw [hphase] at hplaced
      have hslot : c.slot start 0 = s.cursor := hplaced.1
      have hpos := StartCall.backlog_pos (hslot.trans_lt (hs.inSlot hin).1)
      refine work_move hin hin hc ?_
      rw [hphase]
      show 4 * c.backlog start nCursor 0 - 2 < 4 * c.backlog start nCursor 0 - 1
      omega
  | again lTick nCursor call c h hpc hc hphase hloop =>
      have hin : InSlot nCursor s.pc := by rw [hpc]; rfl
      have hplaced := hs.placed hc
      rw [hphase] at hplaced
      have hslot : c.slot start h = s.cursor := hplaced.2.1
      -- The next firing is due later, which outweighs the two callbacks of this one.
      have hnext := StartCall.backlog_succ (hs.bounded hc) (hslot.trans_lt (hs.inSlot hin).1)
      refine work_move hin rfl hc ?_
      rw [hphase]
      show 4 * c.backlog start nCursor (h + 1) < 4 * c.backlog start nCursor h - 2
      omega
  | last lTick nCursor call c h hpc hc hphase hloop =>
      have hin : InSlot nCursor s.pc := by rw [hpc]; rfl
      have hplaced := hs.placed hc
      rw [hphase] at hplaced
      have hslot : c.slot start h = s.cursor := hplaced.2.1
      have hpos := StartCall.backlog_pos (hslot.trans_lt (hs.inSlot hin).1)
      refine work_move hin hin hc ?_
      rw [hphase]
      show 1 < 4 * c.backlog start nCursor h - 2
      omega
  | ended lTick nCursor call c hpc hc hphase =>
      have hin : InSlot nCursor s.pc := by rw [hpc]; rfl
      refine work_move hin rfl hc ?_
      rw [hphase]
      show 0 < 1
      omega

/-- The user adds no work: the first slot of a new timer is at the target or beyond. -/
theorem Step.work_le (hstep : Step start s a s') (hs : s.Inv start)
    (ha : ∀ lTick, a ≠ .Processing lTick) : s'.work start ≤ s.work start := by
  cases a with
  | StartTimer now id timer interval delay loop =>
      cases hstep with
      | StartTimer c interval delay loop huser hclock hc =>
          cases hpc : s.pc with
          | idle =>
              rw [work_idle (s := { s.setPhase s.calls.length (.waiting 0) with
                clock := c.t0
                calls := s.calls ++ [c]
                trace := s.trace ++ [.StartTimer s.calls.length] }) hpc]
              exact Nat.zero_le _
          | cursor lTick nCursor =>
              rw [hpc] at huser
              cases huser
          | slot lTick nCursor =>
              rw [hpc] at huser
              cases huser
          | callback lTick nCursor call =>
              have hin : InSlot nCursor s.pc := by rw [hpc]; rfl
              have htarget := (hs.inSlot hin).2
              have hdelay := hc.delay_nonneg
              -- A call from a callback is due at the target or later, which adds no work.
              have hslot : nCursor ≤ c.slot start 0 := by
                unfold StartCall.slot
                rw [c.due_zero]
                omega
              rw [work_inSlot hin]
              exact Nat.le_of_eq ((work_inSlot (s := { s.setPhase s.calls.length (.waiting 0) with
                clock := c.t0
                calls := s.calls ++ [c]
                trace := s.trace ++ [.StartTimer s.calls.length] }) hin).trans
                  (congrArg _ (total_start hslot)))
  | KillTimer id timer =>
      cases hstep with
      | KillTimer id timer huser => exact Nat.le_refl _
  | Processing lTick => exact absurd rfl (ha lTick)
  | go => exact Nat.le_of_lt (hstep.work_lt hs)

end Plan

namespace TimerState

/-- In one `Processing` the code takes no more steps than there is work, whatever the
callbacks do. -/
theorem go_count_le {start : Int} : ∀ {as : List TimerAction} {st st' : TimerState}
    {lists : Int → List Nat} {phase : Nat → Phase}, Sim start st lists phase →
    run step st as = some st' → AllSteps step Fitting st as →
    (∀ now, .Processing now ∉ as) → as.count .go ≤ (st.plan phase).work start := by
  intro as
  induction as with
  | nil =>
      intro st st' lists phase _ _ _ _
      exact Nat.zero_le _
  | cons a as ih =>
      intro st st' lists phase h hrun hA hnone
      rw [run_cons] at hrun
      obtain ⟨t, ht, hrun⟩ := Option.bind_eq_some_iff.mp hrun
      obtain ⟨hAa, hAs⟩ := (allSteps_cons ht).mp hA
      obtain ⟨lists', phase', hplan, hsim⟩ := h.step hAa ht
      have hrest := ih hsim hrun hAs fun now hin => hnone now (List.mem_cons_of_mem _ hin)
      have hle := hplan.work_le h.inv fun now heq => hnone now (heq ▸ List.mem_cons_self)
      by_cases ha : a = .go
      · subst ha
        have hlt := hplan.work_lt h.inv
        rw [List.count_cons_self]
        omega
      · rw [List.count_cons_of_ne ha]
        omega

end TimerState

end Kernel4GameServer
