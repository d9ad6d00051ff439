import Mathlib.Data.List.Induction

/-!
# `Kernel4GameServer.Lib.Run`: runs of a partial step function

A system is a step function `σ → α → Option σ`: `step s a` is the state after the action
`a`, and `none` when `a` is not enabled in `s`. A run is a list of actions, each enabled
where it is taken.

* `run_append` splits a run where a statement names a moment in it.
* `run_induction` is the rule for a property of the history and of the state it leads to.
* `run_invariant` is the rule for a property of the state alone.
* `run_invariant_of` is the same rule for the runs all of whose steps meet a condition, and
  `run_good_or_bad` the rule for a condition that is exact.
* `throughout_iff` is the rule for an exact condition of a property of all states of a run, and
  `run_iff` that for a property which once lost stays lost.
-/

set_option autoImplicit false

namespace Lib

variable {σ α : Type*}

/-- The state after the actions `as`, or `none` when one of them is not enabled. -/
def run (step : σ → α → Option σ) (s : σ) (as : List α) : Option σ :=
  as.foldlM step s

/-- Each step of the run `as` from `s` meets the condition `C` on the state before it. -/
def AllSteps (step : σ → α → Option σ) (C : σ → α → Prop) : σ → List α → Prop
  | _, [] => True
  | s, a :: as =>
      C s a ∧ match step s a with
        | some s' => AllSteps step C s' as
        | none => True

/-- A condition that can be decided on a step can be decided on a run. -/
instance AllSteps.decidable (step : σ → α → Option σ) (C : σ → α → Prop)
    [∀ s a, Decidable (C s a)] : ∀ s as, Decidable (AllSteps step C s as)
  | _, [] => isTrue trivial
  | s, a :: as =>
      have : Decidable (match step s a with
          | some s' => AllSteps step C s' as
          | none => True) :=
        match step s a with
        | some s' => AllSteps.decidable step C s' as
        | none => isTrue trivial
      inferInstanceAs (Decidable (C s a ∧ _))

variable {step : σ → α → Option σ}

@[simp] theorem run_nil (s : σ) : run step s [] = some s := rfl

@[simp] theorem run_cons (s : σ) (a : α) (as : List α) :
    run step s (a :: as) = (step s a).bind fun s' => run step s' as := rfl

/-- A run of `as ++ bs` is a run of `as` and then a run of `bs`. -/
theorem run_append (s : σ) (as bs : List α) :
    run step s (as ++ bs) = (run step s as).bind fun s' => run step s' bs := by
  simp only [run, List.foldlM_append]
  rfl

/-- A successful run of `as ++ bs` passes through the state after `as`. -/
theorem run_append_some {s s' : σ} {as bs : List α} (h : run step s (as ++ bs) = some s') :
    ∃ t, run step s as = some t ∧ run step t bs = some s' := by
  rw [run_append] at h
  exact Option.bind_eq_some_iff.mp h

/-- The run of one action. -/
theorem run_singleton (s : σ) (a : α) : run step s [a] = step s a := by
  simp

/-- Induction over a run, last step last. `P as s` speaks of the actions taken so far and
of the state they lead to. -/
theorem run_induction {s₀ : σ} (P : List α → σ → Prop) (nil : P [] s₀)
    (snoc : ∀ as s a s', run step s₀ as = some s → P as s → step s a = some s' →
      P (as ++ [a]) s') :
    ∀ {as : List α} {s : σ}, run step s₀ as = some s → P as s := by
  intro as
  induction as using List.reverseRecOn with
  | nil =>
      intro s h
      rw [run_nil, Option.some.injEq] at h
      exact h ▸ nil
  | append_singleton as a ih =>
      intro s h
      obtain ⟨t, ht, hs⟩ := run_append_some h
      rw [run_singleton] at hs
      exact snoc as t a s ht (ih ht) hs

/-- A property that every step keeps holds after a run when it holds before. -/
theorem run_invariant {I : σ → Prop}
    (hstep : ∀ s a s', I s → step s a = some s' → I s') {s s' : σ} {as : List α}
    (hs : I s) (h : run step s as = some s') : I s' :=
  run_induction (fun _ t => I t) hs (fun _ t a t' _ ht h' => hstep t a t' ht h') h

/-- The condition on the steps of a run that begins with the step to `t`. -/
theorem allSteps_cons {C : σ → α → Prop} {s t : σ} {a : α} {as : List α}
    (ht : step s a = some t) :
    AllSteps step C s (a :: as) ↔ C s a ∧ AllSteps step C t as := by
  rw [AllSteps, ht]

/-- A property that every step meeting `C` keeps holds after a run whose steps all meet
`C`. -/
theorem run_invariant_of {C : σ → α → Prop} {I : σ → Prop}
    (hstep : ∀ s a s', I s → C s a → step s a = some s' → I s') :
    ∀ {as : List α} {s s' : σ}, I s → AllSteps step C s as → run step s as = some s' → I s' := by
  intro as
  induction as with
  | nil =>
      intro s s' hs _ h
      rw [run_nil, Option.some.injEq] at h
      exact h ▸ hs
  | cons a as ih =>
      intro s s' hs hC h
      rw [run_cons] at h
      obtain ⟨t, ht, h'⟩ := Option.bind_eq_some_iff.mp h
      obtain ⟨hCa, hCs⟩ := (allSteps_cons ht).mp hC
      exact ih (hstep s a t hs hCa ht) hCs h'

/-- Where the steps that meet `C` keep `I`, and `I` promises `D` of the next step, a run whose
steps meet `C` is one whose steps meet `D`. -/
theorem allSteps_of_invariant {C D : σ → α → Prop} {I : σ → Prop}
    (hstep : ∀ s a s', I s → C s a → step s a = some s' → I s')
    (hD : ∀ s a, I s → C s a → D s a) :
    ∀ {as : List α} {s : σ}, I s → AllSteps step C s as → AllSteps step D s as := by
  intro as
  induction as with
  | nil =>
      intro s _ _
      trivial
  | cons a as ih =>
      rintro s hs ⟨hCa, hCs⟩
      refine ⟨hD s a hs hCa, ?_⟩
      cases ht : step s a with
      | none => trivial
      | some t =>
          rw [ht] at hCs
          exact ih (hstep s a t hs hCa ht) hCs

/-- The same for a run that goes through, where `D` is promised of a step that is taken. -/
theorem allSteps_of_run {C D : σ → α → Prop} {I : σ → Prop}
    (hstep : ∀ s a s', I s → C s a → step s a = some s' → I s' ∧ D s a) :
    ∀ {as : List α} {s s' : σ}, I s → AllSteps step C s as → run step s as = some s' →
      AllSteps step D s as := by
  intro as
  induction as with
  | nil => exact fun _ _ _ => trivial
  | cons a as ih =>
      intro s s' hs hC h
      rw [run_cons] at h
      obtain ⟨t, ht, h'⟩ := Option.bind_eq_some_iff.mp h
      obtain ⟨hCa, hCs⟩ := (allSteps_cons ht).mp hC
      obtain ⟨hIt, hD⟩ := hstep s a t hs hCa ht
      exact (allSteps_cons ht).mpr ⟨hD, ih hIt hCs h'⟩

/-- The condition on the steps of a run of `as` and then of `bs`. -/
theorem allSteps_append {C : σ → α → Prop} {s t : σ} {as bs : List α}
    (h : run step s as = some t) :
    AllSteps step C s (as ++ bs) ↔ AllSteps step C s as ∧ AllSteps step C t bs := by
  induction as generalizing s with
  | nil =>
      rw [run_nil, Option.some.injEq] at h
      subst h
      simp only [List.nil_append, AllSteps, true_and]
  | cons b as ih =>
      rw [run_cons] at h
      obtain ⟨u, hu, h'⟩ := Option.bind_eq_some_iff.mp h
      rw [List.cons_append, allSteps_cons hu, allSteps_cons hu, ih h', and_assoc]

/-- The condition on the steps of a run with one more step. -/
theorem allSteps_snoc {C : σ → α → Prop} {s t : σ} {as : List α} {a : α}
    (h : run step s as = some t) :
    AllSteps step C s (as ++ [a]) ↔ AllSteps step C s as ∧ C t a := by
  rw [allSteps_append h]
  -- Behind the last step nothing is asked.
  refine and_congr_right fun _ => ⟨fun hlast => hlast.1, fun ha => ⟨ha, ?_⟩⟩
  split <;> trivial

/-- Induction over a run whose steps all meet `A`, last step last. -/
theorem run_induction_of {A : σ → α → Prop} {s₀ : σ} (P : List α → σ → Prop) (nil : P [] s₀)
    (snoc : ∀ as s a s', run step s₀ as = some s → P as s → A s a → step s a = some s' →
      P (as ++ [a]) s') {as : List α} {s : σ} (hA : AllSteps step A s₀ as)
    (h : run step s₀ as = some s) : P as s :=
  run_induction (fun as s => AllSteps step A s₀ as → P as s) (fun _ => nil)
    (fun as s a s' hrun ih hs hall => by
      obtain ⟨has, ha⟩ := (allSteps_snoc hrun).mp hall
      exact snoc as s a s' hrun (ih has) ha hs) h hA

/-- A condition that holds of every step holds of the steps of every run. -/
theorem allSteps_of_forall {C : σ → α → Prop} (h : ∀ s a, C s a) :
    ∀ (s : σ) (as : List α), AllSteps step C s as
  | _, [] => trivial
  | s, a :: as => by
      rw [AllSteps]
      refine ⟨h s a, ?_⟩
      split
      · exact allSteps_of_forall h _ as
      · trivial

/-- A condition that every step meeting `C` meets holds of the steps of a run where `C`
does. -/
theorem allSteps_mono {C D : σ → α → Prop} (h : ∀ s a, C s a → D s a) {s : σ} {as : List α}
    (hC : AllSteps step C s as) : AllSteps step D s as :=
  allSteps_of_invariant (I := fun _ => True) (fun _ _ _ _ _ _ => trivial) (fun s a _ => h s a)
    trivial hC

/-- Conditions that are the same on every step are the same on a run. -/
theorem allSteps_congr {C D : σ → α → Prop} (h : ∀ s a, C s a ↔ D s a) {s : σ} {as : List α} :
    AllSteps step C s as ↔ AllSteps step D s as := by
  have hCD : C = D := funext fun s => funext fun a => propext (h s a)
  rw [hCD]

/-- Conditions that are the same on every step that can be taken are the same on a run that
goes through. -/
theorem allSteps_iff_of_run {C D : σ → α → Prop}
    (h : ∀ s a s', step s a = some s' → (C s a ↔ D s a)) :
    ∀ {as : List α} {s s' : σ}, run step s as = some s' →
      (AllSteps step C s as ↔ AllSteps step D s as) := by
  intro as
  induction as with
  | nil => exact fun _ => Iff.rfl
  | cons a as ih =>
      intro s s' hrun
      rw [run_cons] at hrun
      obtain ⟨t, ht, hrest⟩ := Option.bind_eq_some_iff.mp hrun
      rw [allSteps_cons ht, allSteps_cons ht, h s a t ht, ih hrest]

/-- Two conditions on the steps of a run, asked together. -/
theorem allSteps_and {C D : σ → α → Prop} :
    ∀ {s : σ} {as : List α}, AllSteps step (fun s a => C s a ∧ D s a) s as ↔
      AllSteps step C s as ∧ AllSteps step D s as
  | _, [] => by simp only [AllSteps, and_self]
  | s, a :: as => by
      simp only [AllSteps]
      split
      · rw [allSteps_and]
        exact and_and_and_comm
      · simp only [and_true]

/-- The condition on the steps of a run whose actions are named otherwise. -/
theorem allSteps_map {β : Type*} (g : β → α) {C : σ → α → Prop} {s : σ} {bs : List β} :
    AllSteps step C s (bs.map g)
      ↔ AllSteps (fun s b => step s (g b)) (fun s b => C s (g b)) s bs := by
  induction bs generalizing s with
  | nil => exact Iff.rfl
  | cons b bs ih =>
      simp only [List.map_cons, AllSteps]
      cases step s (g b) with
      | none => exact Iff.rfl
      | some t => exact and_congr_right fun _ => ih

/-- The run whose actions are named otherwise. -/
theorem run_map {β : Type*} (g : β → α) (s : σ) (bs : List β) :
    run step s (bs.map g) = run (fun s b => step s (g b)) s bs :=
  List.foldlM_map ..

/-- `P` holds of every state on the way of the run `as` from `s`. -/
def Throughout (step : σ → α → Option σ) (P : σ → Prop) (s : σ) (as : List α) : Prop :=
  ∀ bs, bs <+: as → ∀ t, run step s bs = some t → P t

/-- The states on the way of a run that begins with the step to `t`. -/
theorem throughout_cons {P : σ → Prop} {s t : σ} {a : α} {as : List α}
    (ht : step s a = some t) :
    Throughout step P s (a :: as) ↔ P s ∧ Throughout step P t as := by
  constructor
  · intro h
    refine ⟨h [] List.nil_prefix s rfl, fun bs hbs u hu => ?_⟩
    exact h (a :: bs) ((List.prefix_cons_inj a).mpr hbs) u (by rw [run_cons, ht]; exact hu)
  · rintro ⟨hs, h⟩ bs hbs u hu
    cases bs with
    | nil =>
        rw [run_nil, Option.some.injEq] at hu
        exact hu ▸ hs
    | cons b bs =>
        obtain ⟨heq, hbs'⟩ := List.cons_prefix_cons.mp hbs
        rw [heq, run_cons, ht] at hu
        exact h bs hbs' u hu

/-- The rule for an exact condition of a property of all states, in the runs all of whose
steps meet `A`. Where the invariant `I` and the property hold, a step leads to a state with the
property just when it meets `C`. -/
theorem throughout_iff_of {A C : σ → α → Prop} {I P : σ → Prop}
    (exact_step : ∀ s a s', I s → P s → A s a → step s a = some s' → (P s' ↔ C s a))
    (keep : ∀ s a s', I s → P s → P s' → A s a → step s a = some s' → I s') :
    ∀ {as : List α} {s s' : σ}, I s → P s → AllSteps step A s as → run step s as = some s' →
      (Throughout step P s as ↔ AllSteps step C s as) := by
  intro as
  induction as with
  | nil =>
      intro s s' _ hP _ _
      refine ⟨fun _ => trivial, fun _ bs hbs t ht => ?_⟩
      rw [List.prefix_nil.mp hbs, run_nil, Option.some.injEq] at ht
      exact ht ▸ hP
  | cons a as ih =>
      intro s s' hI hP hA h
      rw [run_cons] at h
      obtain ⟨t, ht, h'⟩ := Option.bind_eq_some_iff.mp h
      obtain ⟨hAa, hAs⟩ := (allSteps_cons ht).mp hA
      rw [throughout_cons ht, allSteps_cons ht, ← exact_step s a t hI hP hAa ht,
        and_iff_right hP]
      constructor
      · intro hall
        have hPt : P t := hall [] List.nil_prefix t rfl
        exact ⟨hPt, (ih (keep s a t hI hP hPt hAa ht) hPt hAs h').mp hall⟩
      · rintro ⟨hPt, hall⟩
        exact (ih (keep s a t hI hP hPt hAa ht) hPt hAs h').mpr hall

/-- The same rule for all runs. -/
theorem throughout_iff {C : σ → α → Prop} {I P : σ → Prop}
    (exact_step : ∀ s a s', I s → P s → step s a = some s' → (P s' ↔ C s a))
    (keep : ∀ s a s', I s → P s → P s' → step s a = some s' → I s') {as : List α} {s s' : σ}
    (hI : I s) (hP : P s) (h : run step s as = some s') :
    Throughout step P s as ↔ AllSteps step C s as :=
  throughout_iff_of (A := fun _ _ => True) (fun s a s' hI hP _ => exact_step s a s' hI hP)
    (fun s a s' hI hP hP' _ => keep s a s' hI hP hP') hI hP
    (allSteps_of_forall (fun _ _ => trivial) s as) h

/-- The rule for a property that once lost stays lost. Where every step keeps `I`, and leads to
a state with the property just from one with it by a step that meets `C`, a run does so just
when all its steps meet `C`. -/
theorem run_iff {C : σ → α → Prop} {I P : σ → Prop}
    (hstep : ∀ s a s', I s → step s a = some s' → I s' ∧ (P s' ↔ P s ∧ C s a)) :
    ∀ {as : List α} {s s' : σ}, I s → run step s as = some s' →
      I s' ∧ (P s' ↔ P s ∧ AllSteps step C s as) := by
  intro as
  induction as with
  | nil =>
      intro s s' hs h
      rw [run_nil, Option.some.injEq] at h
      subst h
      exact ⟨hs, (and_iff_left trivial).symm⟩
  | cons a as ih =>
      intro s s' hs h
      rw [run_cons] at h
      obtain ⟨t, ht, h'⟩ := Option.bind_eq_some_iff.mp h
      obtain ⟨hIt, hPt⟩ := hstep s a t hs ht
      obtain ⟨hI, hP⟩ := ih hIt h'
      rw [allSteps_cons ht, hP, hPt, and_assoc]
      exact ⟨hI, Iff.rfl⟩

/-- The rule for a condition that is exact. A step from a good state leads to a good state
when it meets `C` and to a bad one when it does not, and bad states stay bad. `A` is what is
assumed of all steps. Then a run all of whose steps meet `C` ends well, and every other run
ends badly. -/
theorem run_good_or_bad {A C : σ → α → Prop} {G B : σ → Prop}
    (good : ∀ s a s', G s → A s a → C s a → step s a = some s' → G s')
    (bad : ∀ s a s', G s → A s a → ¬ C s a → step s a = some s' → B s')
    (stays : ∀ s a s', B s → A s a → step s a = some s' → B s') :
    ∀ {as : List α} {s s' : σ}, G s → AllSteps step A s as → run step s as = some s' →
      (AllSteps step C s as ∧ G s') ∨ (¬ AllSteps step C s as ∧ B s') := by
  intro as
  induction as with
  | nil =>
      intro s s' hs _ h
      rw [run_nil, Option.some.injEq] at h
      exact .inl ⟨trivial, h ▸ hs⟩
  | cons a as ih =>
      intro s s' hs hA h
      rw [run_cons] at h
      obtain ⟨t, ht, h'⟩ := Option.bind_eq_some_iff.mp h
      obtain ⟨hA, hAs⟩ := (allSteps_cons ht).mp hA
      rw [allSteps_cons ht]
      by_cases hC : C s a
      · rcases ih (good s a t hs hA hC ht) hAs h' with ⟨has, hgood⟩ | ⟨has, hbad⟩
        · exact .inl ⟨⟨hC, has⟩, hgood⟩
        · exact .inr ⟨fun hand => has hand.2, hbad⟩
      · have hbad : B s' := run_invariant_of stays (bad s a t hs hA hC ht) hAs h'
        exact .inr ⟨fun hand => hC hand.1, hbad⟩

/-- Where no state is both good and bad, the runs that end well are those whose steps all
meet the condition. -/
theorem run_good_iff {A C : σ → α → Prop} {G B : σ → Prop}
    (good : ∀ s a s', G s → A s a → C s a → step s a = some s' → G s')
    (bad : ∀ s a s', G s → A s a → ¬ C s a → step s a = some s' → B s')
    (stays : ∀ s a s', B s → A s a → step s a = some s' → B s') (clash : ∀ s, G s → ¬ B s)
    {as : List α} {s s' : σ} (hs : G s) (hA : AllSteps step A s as)
    (h : run step s as = some s') : G s' ↔ AllSteps step C s as := by
  rcases run_good_or_bad good bad stays hs hA h with ⟨has, hgood⟩ | ⟨has, hbad⟩
  · exact ⟨fun _ => has, fun _ => hgood⟩
  · exact ⟨fun hgood => absurd hbad (clash s' hgood), fun h => absurd h has⟩

end Lib
