import Kernel4GameServer.Lib.History
import Kernel4GameServer.Timermgr.Plan

/-!
# `Kernel4GameServer.Proofs.Timermgr.Identity`: one timer for each pair

`FindNode` looks a timer up in `s_oTimeNodeMap`, but no function enters a node into that map.
So `StartTimer` never replaces a timer, `KillTimer` never stops one, and no timer ever gets
`OnTerminate(false)`.

`Lawful` is what the interface promises for a pair of an id and an `ITimer`.
`TimerState.lawful_iff` is the main result: a run keeps the promise exactly when it never
uses it, that is, when no `StartTimer` and no `KillTimer` is for a pair with an active timer.
The proof goes through `Orderly`, which says the same of the events of the run.
`TimerState.killed_fires` is a run that breaks the promise.
-/

set_option autoImplicit false

namespace Kernel4GameServer

open Lib

/-- What an event does to whether the timer of the call `i` is active: it is from its
`StartTimer` to its `OnTerminate`. -/
def TimerEvent.activates (i : Nat) (active : Bool) : TimerEvent → Bool
  | .StartTimer call => if call = i then true else active
  | .OnTerminate call _ _ => if call = i then false else active
  | _ => active

/-- The timer of the call `i` is active behind the events. -/
def active (i : Nat) (trace : List TimerEvent) : Bool :=
  trace.foldl (TimerEvent.activates i) false

/-- The pair of the call `i`. -/
def pairOf (calls : List StartCall) (i : Nat) : Option (Int × Nat) :=
  calls[i]?.map fun c => (c.id, c.timer)

/-- No other timer of the pair is active. -/
def Free (calls : List StartCall) (trace : List TimerEvent) (pair : Int × Nat) : Prop :=
  ∀ i, i < calls.length → pairOf calls i = some pair → active i trace = false

instance (calls : List StartCall) (trace : List TimerEvent) (pair : Int × Nat) :
    Decidable (Free calls trace pair) :=
  inferInstanceAs (Decidable (∀ i, i < calls.length → _ → _))

/-! ### The events of a run -/

/-- One more event. -/
theorem active_snoc (i : Nat) (trace : List TimerEvent) (e : TimerEvent) :
    active i (trace ++ [e]) = e.activates i (active i trace) := by
  unfold active
  rw [List.foldl_append]
  rfl

/-- The pair of a call stays when calls are added. -/
theorem pairOf_append {calls : List StartCall} {i : Nat} (hi : i < calls.length)
    (more : List StartCall) : pairOf (calls ++ more) i = pairOf calls i := by
  unfold pairOf
  rw [List.getElem?_append_left hi]

/-- The pair of a new call. -/
theorem pairOf_new (calls : List StartCall) (c : StartCall) :
    pairOf (calls ++ [c]) calls.length = some (c.id, c.timer) := by
  unfold pairOf
  rw [List.getElem?_concat_length]
  rfl

/-- A timer that is active has been started. -/
theorem mem_of_active {i : Nat} {trace : List TimerEvent} (h : active i trace = true) :
    .StartTimer i ∈ trace := by
  induction trace using List.reverseRecOn with
  | nil => cases h
  | append_singleton trace e ih =>
      rw [active_snoc] at h
      rw [List.mem_append, List.mem_singleton]
      cases e with
      | StartTimer call =>
          by_cases hi : call = i
          · rw [hi]
            exact .inr rfl
          · rw [TimerEvent.activates, if_neg hi] at h
            exact .inl (ih h)
      | OnTerminate call nonviolent lTick =>
          rw [TimerEvent.activates] at h
          split at h
          · cases h
          · exact .inl (ih h)
      | _ => exact .inl (ih h)

namespace TimerState

/-- What the interface promises:
* no two timers of one pair are active at a time;
* a timer that is replaced never calls `OnTime` again;
* nor does a timer that is killed, and sooner or later it gets `OnTerminate(false)`, once. -/
structure Lawful (st : TimerState) : Prop where
  single : ∀ pre post, st.trace = pre ++ post → ∀ i j, active i pre = true →
    active j pre = true → pairOf st.calls i = pairOf st.calls j → i = j
  replaced : ∀ pre j post, st.trace = pre ++ .StartTimer j :: post → ∀ i, i ≠ j →
    active i pre = true → pairOf st.calls i = pairOf st.calls j → ∀ lTick, .OnTime i lTick ∉ post
  killed : ∀ pre id timer post, st.trace = pre ++ .KillTimer id timer :: post → ∀ i,
    active i pre = true → pairOf st.calls i = some (id, timer) →
    (∀ lTick, .OnTime i lTick ∉ post) ∧
      ∃ bs st', run step st bs = some st' ∧
        (callbacks i st'.trace).count (.OnTerminate false) = 1

/-- The condition on a step: no `StartTimer` and no `KillTimer` is for a pair with an active
timer. -/
def PairFree (st : TimerState) : TimerAction → Prop
  | .StartTimer _ id timer _ _ _ => Free st.calls st.trace (id, timer)
  | .KillTimer id timer => Free st.calls st.trace (id, timer)
  | _ => True

instance (st : TimerState) : ∀ a, Decidable (st.PairFree a)
  | .StartTimer _ _ _ _ _ _ => inferInstanceAs (Decidable (Free _ _ _))
  | .KillTimer _ _ => inferInstanceAs (Decidable (Free _ _ _))
  | .Processing _ => isTrue trivial
  | .go => isTrue trivial

/-- An event is in order when it is none of `StartTimer` and `KillTimer` for a pair with an
active timer. -/
def InOrder (calls : List StartCall) (pre : List TimerEvent) : TimerEvent → Prop
  | .StartTimer j => ∀ i, i ≠ j → pairOf calls i = pairOf calls j → active i pre = false
  | .KillTimer id timer => ∀ i, pairOf calls i = some (id, timer) → active i pre = false
  | _ => True

/-- The events of a run are in order. -/
def Orderly (st : TimerState) : Prop := Always (InOrder st.calls) st.trace

/-- What the code itself tells a timer. -/
def Callback : TimerEvent → Prop
  | .StartTimer _ => False
  | .KillTimer _ _ => False
  | .OnTerminate _ nonviolent _ => nonviolent = true
  | _ => True

variable {st st' : TimerState} {a : TimerAction}

/-- What a step does to the calls and the events. -/
inductive Notes (st st' : TimerState) : TimerAction → Prop where
  | StartTimer (c : StartCall) (interval delay loop : Int) :
      st'.calls = st.calls ++ [c] → st'.trace = st.trace ++ [.StartTimer st.calls.length] →
      Notes st st' (.StartTimer c.t0 c.id c.timer interval delay loop)
  | KillTimer (id : Int) (timer : Nat) : st'.calls = st.calls →
      st'.trace = st.trace ++ [.KillTimer id timer] → Notes st st' (.KillTimer id timer)
  | note (a : TimerAction) (e : TimerEvent) : st'.calls = st.calls →
      st'.trace = st.trace ++ [e] → Callback e → st.PairFree a → Notes st st' a
  | none (a : TimerAction) : st'.calls = st.calls → st'.trace = st.trace → st.PairFree a →
      Notes st st' a

/-- Every step has one of these effects. -/
theorem step_notes (hstep : st.step a = some st') : Notes st st' a := by
  cases a with
  | StartTimer now id timer interval delay loop =>
      simp only [step] at hstep
      split at hstep
      · obtain ⟨m, -, rfl⟩ := Option.map_eq_some_iff.mp hstep
        exact .StartTimer ⟨now, id, timer, _, _, _⟩ interval delay loop rfl rfl
      · cases hstep
  | KillTimer id timer =>
      simp only [step] at hstep
      split at hstep
      · obtain rfl := Option.some.inj hstep
        exact .KillTimer id timer rfl rfl
      · cases hstep
  | Processing now =>
      simp only [step] at hstep
      split at hstep
      · obtain rfl := Option.some.inj hstep
        exact .note _ _ rfl rfl trivial trivial
      · cases hstep
  | go =>
      have hstep : st.go = some st' := hstep
      unfold go at hstep
      split at hstep
      · cases hstep
      · obtain rfl := Option.some.inj hstep
        unfold goCursor
        split
        · split
          · exact .none _ rfl rfl trivial
          · exact .none _ rfl rfl trivial
        · exact .none _ rfl rfl trivial
      · obtain ⟨slot, -, rfl⟩ := Option.map_eq_some_iff.mp hstep
        split
        · exact .none _ rfl rfl trivial
        · dsimp only
          split
          · split
            · exact .note _ _ rfl rfl trivial trivial
            · exact .note _ _ rfl rfl trivial trivial
          · exact .note _ _ rfl rfl trivial trivial
          · exact .none _ rfl rfl trivial
      · obtain rfl := Option.some.inj hstep
        exact .note _ _ rfl rfl trivial trivial
      · obtain rfl := Option.some.inj hstep
        -- A node whose hits are used up gets `OnTerminate(true)`, any other is linked again.
        unfold goHit
        dsimp only
        split
        · exact .note _ _ rfl rfl rfl trivial
        · exact .none _ rfl rfl trivial
      · obtain rfl := Option.some.inj hstep
        exact .note _ _ rfl rfl trivial trivial

/-- The calls are numbered, and no timer gets `OnTerminate(false)`. -/
structure Noted (st : TimerState) : Prop where
  numbered : ∀ i, .StartTimer i ∈ st.trace → i < st.calls.length
  nonviolent : ∀ i lTick, .OnTerminate i false lTick ∉ st.trace

/-- Every step keeps this. -/
theorem Noted.step (h : st.Noted) (hstep : st.step a = some st') : st'.Noted := by
  cases step_notes hstep with
  | StartTimer c interval delay loop hcalls htrace =>
      constructor
      · intro i hi
        rw [htrace, List.mem_append, List.mem_singleton] at hi
        rw [hcalls, List.length_append, List.length_singleton]
        rcases hi with hi | hi
        · exact Nat.lt_succ_of_lt (h.numbered i hi)
        · cases hi
          exact Nat.lt_succ_self _
      · intro i lTick hi
        rw [htrace, List.mem_append, List.mem_singleton] at hi
        rcases hi with hi | hi
        · exact h.nonviolent i lTick hi
        · cases hi
  | KillTimer id timer hcalls htrace =>
      constructor
      · intro i hi
        rw [htrace, List.mem_append, List.mem_singleton] at hi
        rw [hcalls]
        rcases hi with hi | hi
        · exact h.numbered i hi
        · cases hi
      · intro i lTick hi
        rw [htrace, List.mem_append, List.mem_singleton] at hi
        rcases hi with hi | hi
        · exact h.nonviolent i lTick hi
        · cases hi
  | note _ e hcalls htrace he =>
      constructor
      · intro i hi
        rw [htrace, List.mem_append, List.mem_singleton] at hi
        rw [hcalls]
        rcases hi with hi | rfl
        · exact h.numbered i hi
        · exact he.elim
      · intro i lTick hi
        rw [htrace, List.mem_append, List.mem_singleton] at hi
        rcases hi with hi | rfl
        · exact h.nonviolent i lTick hi
        · -- No event of the loop is an `OnTerminate(false)`.
          exact absurd he Bool.false_ne_true
  | none _ hcalls htrace =>
      constructor
      · rw [hcalls, htrace]
        exact h.numbered
      · rw [htrace]
        exact h.nonviolent

/-- No timer has got `OnTerminate(false)`. -/
theorem Noted.count_eq (h : st.Noted) (i : Nat) :
    (callbacks i st.trace).count (.OnTerminate false) = 0 := by
  refine List.count_eq_zero.mpr fun hin => ?_
  obtain ⟨e, he, hi⟩ := List.mem_filterMap.mp hin
  cases e with
  | OnTerminate call nonviolent lTick =>
      simp only [TimerEvent.callback] at hi
      split at hi
      · cases hi
        exact h.nonviolent call lTick he
      · cases hi
  | StartTimer call => cases hi
  | KillTimer id timer => cases hi
  | Processing lTick => cases hi
  | OnStart call lTick =>
      simp only [TimerEvent.callback] at hi
      split at hi <;> cases hi
  | OnTime call lTick =>
      simp only [TimerEvent.callback] at hi
      split at hi <;> cases hi
  | Release call =>
      simp only [TimerEvent.callback] at hi
      split at hi <;> cases hi

/-- Whether an event of the run is in order does not depend on later calls. -/
theorem Noted.inOrder_append (h : st.Noted) {pre post : List TimerEvent} {e : TimerEvent}
    (heq : st.trace = pre ++ e :: post) (more : List StartCall) :
    InOrder (st.calls ++ more) pre e ↔ InOrder st.calls pre e := by
  -- An active timer is one of the calls so far, and more calls do not change its pair.
  have hactive : ∀ {i}, active i pre = true → i < st.calls.length := by
    intro i hi
    refine h.numbered i ?_
    rw [heq]
    exact List.mem_append_left _ (mem_of_active hi)
  cases e with
  | StartTimer j =>
      have hj : j < st.calls.length := by
        refine h.numbered j ?_
        rw [heq]
        exact List.mem_append_right _ List.mem_cons_self
      constructor
      · intro hin i hij hpair
        by_contra hi
        rw [Bool.not_eq_false] at hi
        refine absurd (hin i hij ?_) (by rw [hi]; decide)
        rwa [pairOf_append (hactive hi), pairOf_append hj]
      · intro hin i hij hpair
        by_contra hi
        rw [Bool.not_eq_false] at hi
        rw [pairOf_append (hactive hi), pairOf_append hj] at hpair
        exact absurd (hin i hij hpair) (by rw [hi]; decide)
  | KillTimer id timer =>
      constructor
      · intro hin i hpair
        by_contra hi
        rw [Bool.not_eq_false] at hi
        refine absurd (hin i ?_) (by rw [hi]; decide)
        rwa [pairOf_append (hactive hi)]
      · intro hin i hpair
        by_contra hi
        rw [Bool.not_eq_false] at hi
        rw [pairOf_append (hactive hi)] at hpair
        exact absurd (hin i hpair) (by rw [hi]; decide)
  | _ => exact Iff.rfl

/-! ### The condition is exact -/

/-- The events up to now are in order for the calls of now when they were for those of
before. -/
theorem Noted.always_append (h : st.Noted) (more : List StartCall) :
    Always (InOrder (st.calls ++ more)) st.trace ↔ st.Orderly := by
  constructor
  · intro hall pre e post heq
    exact (h.inOrder_append heq more).mp (hall pre e post heq)
  · intro hall pre e post heq
    exact (h.inOrder_append heq more).mpr (hall pre e post heq)

/-- A step from an orderly run keeps it so exactly when it meets the condition. -/
theorem Noted.orderly_step (h : st.Noted) (hstep : st.step a = some st') :
    st'.Orderly ↔ st.Orderly ∧ st.PairFree a := by
  unfold Orderly
  cases step_notes hstep with
  | StartTimer c interval delay loop hcalls htrace =>
      rw [hcalls, htrace, always_snoc, h.always_append]
      refine and_congr_right fun _ => ⟨fun hin i hi hpair => ?_, fun hfree i hi hpair => ?_⟩
      · refine hin i (Nat.ne_of_lt hi) ?_
        rw [pairOf_append hi, hpair, pairOf_new]
      · by_contra hactive
        rw [Bool.not_eq_false] at hactive
        have hlt := h.numbered i (mem_of_active hactive)
        rw [pairOf_append hlt, pairOf_new] at hpair
        exact absurd (hfree i hlt hpair) (by rw [hactive]; decide)
  | KillTimer id timer hcalls htrace =>
      rw [hcalls, htrace, always_snoc]
      refine and_congr_right fun _ => ⟨fun hin i _ hpair => hin i hpair, fun hfree i hpair => ?_⟩
      refine hfree i ?_ hpair
      obtain ⟨c, hc, -⟩ := Option.map_eq_some_iff.mp hpair
      exact (List.getElem?_eq_some_iff.mp hc).1
  | note _ e hcalls htrace he hfree =>
      rw [hcalls, htrace, always_snoc]
      refine and_congr_right fun _ => ⟨fun _ => hfree, fun _ => ?_⟩
      cases e <;> trivial
  | none _ hcalls htrace hfree =>
      rw [hcalls, htrace]
      exact ⟨fun hall => ⟨hall, hfree⟩, fun hand => hand.1⟩

/-- In an orderly run no two timers of one pair are ever active at a time. -/
theorem Orderly.single (h : st.Orderly) (pre : List TimerEvent) :
    ∀ post, st.trace = pre ++ post → ∀ i j, active i pre = true → active j pre = true →
      pairOf st.calls i = pairOf st.calls j → i = j := by
  induction pre using List.reverseRecOn with
  | nil =>
      intro post _ i j hi
      cases hi
  | append_singleton pre e ih =>
      intro post heq i j hi hj hpair
      rw [List.append_assoc] at heq
      have hin : InOrder st.calls pre e := h pre e post heq
      rw [active_snoc] at hi hj
      cases e with
      | StartTimer call =>
          simp only [TimerEvent.activates] at hi hj
          by_cases hci : call = i
          · by_cases hcj : call = j
            · exact hci.symm.trans hcj
            · rw [if_neg hcj] at hj
              rw [← hci] at hpair
              exact absurd (hin j (Ne.symm hcj) hpair.symm) (by rw [hj]; decide)
          · rw [if_neg hci] at hi
            by_cases hcj : call = j
            · rw [← hcj] at hpair
              exact absurd (hin i (Ne.symm hci) hpair) (by rw [hi]; decide)
            · rw [if_neg hcj] at hj
              exact ih _ heq i j hi hj hpair
      | OnTerminate call nonviolent lTick =>
          simp only [TimerEvent.activates] at hi hj
          split at hi
          · cases hi
          · split at hj
            · cases hj
            · exact ih _ heq i j hi hj hpair
      | _ => exact ih _ heq i j hi hj hpair

/-- The promise is kept exactly in the runs that do not use it. -/
theorem Noted.lawful_iff_orderly (h : st.Noted) : st.Lawful ↔ st.Orderly := by
  constructor
  · intro hlawful pre e post heq
    cases e with
    | StartTimer j =>
        intro i hij hpair
        by_contra hi
        rw [Bool.not_eq_false] at hi
        -- The two timers are active behind the `StartTimer`.
        refine hij (hlawful.single (pre ++ [.StartTimer j]) post ?_ i j ?_ ?_ hpair)
        · rw [heq, List.append_assoc]
          rfl
        · rw [active_snoc, TimerEvent.activates, if_neg (Ne.symm hij)]
          exact hi
        · rw [active_snoc, TimerEvent.activates, if_pos rfl]
    | KillTimer id timer =>
        intro i hpair
        by_contra hi
        rw [Bool.not_eq_false] at hi
        obtain ⟨-, bs, st', hbs, hcount⟩ := hlawful.killed pre id timer post heq i hi hpair
        have hnoted : st'.Noted := run_invariant (fun _ _ _ hn hs => Noted.step hn hs) h hbs
        rw [hnoted.count_eq i] at hcount
        cases hcount
    | _ => trivial
  · intro hall
    refine ⟨hall.single, fun pre j post heq i hij hi hpair => ?_,
      fun pre id timer post heq i hi hpair => ?_⟩
    · have hin : InOrder st.calls pre (.StartTimer j) := hall pre _ post heq
      exact absurd (hin i hij hpair) (by rw [hi]; decide)
    · have hin : InOrder st.calls pre (.KillTimer id timer) := hall pre _ post heq
      exact absurd (hin i hpair) (by rw [hi]; decide)

/-- When the promise for a pair is kept: in a run, exactly when no `StartTimer` and no
`KillTimer` is for a pair with an active timer. -/
theorem lawful_iff {start : Int} {as : List TimerAction} {st : TimerState}
    (hrun : run step (init start) as = some st) :
    st.Lawful ↔ AllSteps step PairFree (init start) as := by
  have hinit : (init start).Noted := ⟨(fun i hi => by cases hi), fun i lTick hi => by cases hi⟩
  have hnoted : st.Noted := run_invariant (fun _ _ _ hn hs => Noted.step hn hs) hinit hrun
  rw [hnoted.lawful_iff_orderly]
  have hboth := run_good_iff (A := fun _ _ => True) (C := PairFree)
    (G := fun st => st.Noted ∧ st.Orderly) (B := fun st => st.Noted ∧ ¬ st.Orderly)
    (fun _ _ _ hg _ hc hs => ⟨hg.1.step hs, (hg.1.orderly_step hs).mpr ⟨hg.2, hc⟩⟩)
    (fun _ _ _ hg _ hc hs => ⟨hg.1.step hs, fun h => hc ((hg.1.orderly_step hs).mp h).2⟩)
    (fun _ _ _ hb _ hs => ⟨hb.1.step hs, fun h => hb.2 ((hb.1.orderly_step hs).mp h).1⟩)
    (fun _ hg hb => hb.2 hg.2) ⟨hinit, always_nil⟩
    (allSteps_of_forall (fun _ _ => trivial) _ _) hrun
  rw [← hboth]
  exact ⟨fun h => ⟨hnoted, h⟩, fun h => h.2⟩

/-- A pair without a timer is killed, and a timer is started again behind its end. -/
def startsAgain : List TimerAction :=
  [.KillTimer 1 7, .StartTimer 5 1 7 100 0 1, .Processing 30, .go, .go, .go, .go, .go, .go, .go,
    .StartTimer 30 1 7 100 0 1]

/-- That run is lawful. -/
theorem lawful_again : ∃ st, run step (init 0) startsAgain = some st ∧ st.Lawful := by
  obtain ⟨st, hst⟩ : ∃ st, run step (init 0) startsAgain = some st := ⟨_, rfl⟩
  exact ⟨st, hst, (lawful_iff hst).mpr (by decide)⟩

/-- A timer is killed and fires none the less. -/
theorem killed_fires :
    ∃ st, run step (init 0) [.StartTimer 5 1 7 100 0 (-1), .KillTimer 1 7, .Processing 30, .go,
        .go, .go] = some st ∧
      st.trace = [.StartTimer 0, .KillTimer 1 7, .Processing 30, .OnStart 0 30, .OnTime 0 30] ∧
      ¬ st.Lawful := by
  refine ⟨_, rfl, rfl, fun hlawful => ?_⟩
  refine (hlawful.killed [.StartTimer 0] 1 7 _ rfl 0 rfl rfl).1 30 ?_
  decide

end TimerState

end Kernel4GameServer
