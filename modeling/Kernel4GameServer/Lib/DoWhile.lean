import Mathlib.Data.Nat.Find

/-!
# `Kernel4GameServer.Lib.DoWhile`: termination of a `do … while` loop

`body s` runs the loop body once and says whether the loop goes round again. `doWhile n s`
is the state in which the loop ends when it ends within `n` rounds. `Ends s` says that it
ends at all.

The termination rule is `ends_iff_of_measure`. A loop whose condition is weaker than its
progress may go round with its measure unchanged. It ends exactly when from every head it
comes back to, finitely many such rounds lead to a stop or to a smaller measure.
-/

set_option autoImplicit false

namespace Lib

variable {σ : Type*}

/-- The state in which the loop ends, when it ends within `n` rounds. The flag of
`body s` is the loop condition: `true` means another round. -/
def doWhile (body : σ → σ × Bool) : Nat → σ → Option σ
  | 0, _ => none
  | n + 1, s => if (body s).2 then doWhile body n (body s).1 else some (body s).1

/-- The loop from `s` ends after finitely many rounds. -/
def Ends (body : σ → σ × Bool) (s : σ) : Prop :=
  ∃ n s', doWhile body n s = some s'

/-- `Reaches body s t`: the loop from `s` comes to the head of the loop in the state `t`. -/
inductive Reaches (body : σ → σ × Bool) : σ → σ → Prop where
  | refl (s : σ) : Reaches body s s
  | round {s t : σ} : (body s).2 = true → Reaches body (body s).1 t → Reaches body s t

variable {body : σ → σ × Bool}

/-- A loop that does not go round again ends at once. -/
theorem ends_of_stop {s : σ} (h : (body s).2 = false) : Ends body s :=
  ⟨1, (body s).1, by simp [doWhile, h]⟩

/-- A loop that goes round again ends exactly when the rest of it ends. -/
theorem ends_round {s : σ} (h : (body s).2 = true) : Ends body s ↔ Ends body (body s).1 := by
  constructor
  · rintro ⟨n, s', hn⟩
    cases n with
    | zero => exact absurd hn (by simp [doWhile])
    | succ n => exact ⟨n, s', by simpa [doWhile, h] using hn⟩
  · rintro ⟨n, s', hn⟩
    exact ⟨n + 1, s', by simpa [doWhile, h] using hn⟩

/-- The loop ends from `s` exactly when it ends from every state it comes back to. -/
theorem ends_of_reaches {s t : σ} (h : Reaches body s t) : Ends body s ↔ Ends body t := by
  induction h with
  | refl s => exact Iff.rfl
  | round hb _ ih => exact (ends_round hb).trans ih

/-- Coming back to a loop head is transitive. -/
theorem reaches_trans {s t u : σ} (h : Reaches body s t) (h' : Reaches body t u) :
    Reaches body s u := by
  induction h with
  | refl s => exact h'
  | round hb _ ih => exact .round hb (ih h')

/-- A property of the state at the loop head that every round keeps holds where the loop
ends. -/
theorem doWhile_invariant {I : σ → Prop} (hI : ∀ s, I s → I (body s).1) :
    ∀ (n : Nat) {s s' : σ}, I s → doWhile body n s = some s' → I s' := by
  intro n
  induction n with
  | zero => intro s s' _ h; exact absurd h (by simp [doWhile])
  | succ n ih =>
      intro s s' hs h
      rw [doWhile] at h
      split at h
      · exact ih (hI s hs) h
      · rw [Option.some.injEq] at h
        exact h ▸ hI s hs

/-- The rule of a `while` loop. Where it ends, the last round starts from a state with the
invariant that every earlier round keeps, and does not go round again. -/
theorem doWhile_exit {I : σ → Prop} (hI : ∀ s, I s → (body s).2 = true → I (body s).1) :
    ∀ (n : Nat) {s s' : σ}, I s → doWhile body n s = some s' →
      ∃ t, I t ∧ (body t).2 = false ∧ (body t).1 = s' := by
  intro n
  induction n with
  | zero => intro s s' _ h; exact absurd h (by simp [doWhile])
  | succ n ih =>
      intro s s' hs h
      rw [doWhile] at h
      split at h
      · rename_i hb
        exact ih (hI s hs hb) h
      · rename_i hb
        exact ⟨s, hs, by simpa using hb, Option.some.inj h⟩

/-- The state in which the loop ends does not depend on the bound on its rounds. -/
theorem doWhile_unique {n m : Nat} {s t u : σ} (hn : doWhile body n s = some t)
    (hm : doWhile body m s = some u) : t = u := by
  induction n generalizing m s with
  | zero => exact absurd hn (by simp [doWhile])
  | succ n ih =>
      cases m with
      | zero => exact absurd hm (by simp [doWhile])
      | succ m =>
          rw [doWhile] at hn hm
          split at hn
          · rename_i hb
            rw [if_pos hb] at hm
            exact ih hn hm
          · rename_i hb
            rw [if_neg hb] at hm
            exact Option.some.inj (hn.symm.trans hm)

/-- A loop that ends within `n` rounds ends within any larger number of them. -/
theorem doWhile_mono {n m : Nat} {s t : σ} (hn : doWhile body n s = some t) (hle : n ≤ m) :
    doWhile body m s = some t := by
  induction n generalizing m s with
  | zero => exact absurd hn (by simp [doWhile])
  | succ n ih =>
      obtain ⟨m, rfl⟩ := Nat.exists_eq_add_of_le' (Nat.le_trans (Nat.le_add_left 1 n) hle)
      rw [doWhile] at hn ⊢
      split at hn
      · rename_i hb
        rw [if_pos hb]
        exact ih hn (Nat.le_of_add_le_add_right hle)
      · rename_i hb
        rw [if_neg hb]
        exact hn

/-- The state after `n` rounds, whatever the loop condition says in between. -/
def rounds (body : σ → σ × Bool) : Nat → σ → σ
  | 0, s => s
  | n + 1, s => rounds body n (body s).1

/-- The last of `n + 1` rounds comes behind the other `n`. -/
theorem rounds_succ (n : Nat) (s : σ) : rounds body (n + 1) s = (body (rounds body n s)).1 := by
  induction n generalizing s with
  | zero => rfl
  | succ n ih => exact ih (body s).1

/-- The first `n` rounds from `s` all go round again. -/
def GoesRound (body : σ → σ × Bool) (n : Nat) (s : σ) : Prop :=
  ∀ k < n, (body (rounds body k s)).2 = true

/-- The loop comes back to its head after rounds that all go round again. -/
theorem reaches_rounds (n : Nat) (s : σ) (h : GoesRound body n s) :
    Reaches body s (rounds body n s) := by
  induction n generalizing s with
  | zero => exact .refl s
  | succ n ih =>
      have h0 : (body s).2 = true := h 0 (Nat.succ_pos n)
      exact .round h0 (ih (body s).1 fun k hk => h (k + 1) (Nat.succ_lt_succ hk))

/-- A loop all of whose rounds go round again does not end. -/
theorem not_ends_of_goesRound {s : σ} (h : ∀ n, GoesRound body n s) : ¬ Ends body s := by
  rintro ⟨n, s', hn⟩
  induction n generalizing s with
  | zero => exact absurd hn (by simp [doWhile])
  | succ n ih =>
      have h0 : (body s).2 = true := h 1 0 Nat.one_pos
      refine ih (s := (body s).1) (fun m k hk => h (m + 1) (k + 1) (Nat.succ_lt_succ hk)) ?_
      simpa [doWhile, h0] using hn

/-- A loop that does not end goes round again in all its rounds. -/
theorem goesRound_of_not_ends {s : σ} (h : ¬ Ends body s) (n : Nat) : GoesRound body n s := by
  induction n with
  | zero => exact fun k hk => absurd hk (Nat.not_lt_zero k)
  | succ n ih =>
      intro k hk
      rcases Nat.lt_succ_iff_lt_or_eq.mp hk with hlt | rfl
      · exact ih k hlt
      · by_contra hstop
        exact h ((ends_of_reaches (reaches_rounds k s ih)).mpr
          (ends_of_stop (Bool.eq_false_iff.mpr hstop)))

/-- A loop that ends has a last round. -/
theorem exists_last_of_ends {s : σ} (h : Ends body s) :
    ∃ n, GoesRound body n s ∧ (body (rounds body n s)).2 = false := by
  classical
  have hex : ∃ n, (body (rounds body n s)).2 = false := by
    by_contra hall
    refine not_ends_of_goesRound (fun n k _ => ?_) h
    by_contra hstop
    exact hall ⟨k, Bool.eq_false_iff.mpr hstop⟩
  refine ⟨Nat.find hex, fun k hk => ?_, Nat.find_spec hex⟩
  have hmin := Nat.find_min hex hk
  simpa using hmin

/-- The termination rule. For any measure `μ` on the states, the loop ends exactly when
from every head it comes back to, some later round stops it or finds `μ` lowered. -/
theorem ends_iff_of_measure (μ : σ → Nat) {s : σ} :
    Ends body s ↔ ∀ t, Reaches body s t →
      ∃ n, (body (rounds body n t)).2 = false ∨ μ (rounds body n t) < μ t := by
  constructor
  · intro h t ht
    by_contra hcon
    push Not at hcon
    have hgo : ∀ n, GoesRound body n t := fun n k _ => by simpa using (hcon k).1
    exact not_ends_of_goesRound hgo ((ends_of_reaches ht).mp h)
  · intro h
    -- Strong induction on the measure: `h` finds the first later head that stops or has a
    -- smaller one, and every round before it goes round again.
    induction hm : μ s using Nat.strong_induction_on generalizing s with
    | _ m ih =>
        classical
        have hex := h s (.refl s)
        have hgo : GoesRound body (Nat.find hex) s := fun k hk => by
          have hmin := Nat.find_min hex hk
          push Not at hmin
          simpa using hmin.1
        have hreach := reaches_rounds (Nat.find hex) s hgo
        rw [ends_of_reaches hreach]
        rcases Nat.find_spec hex with hstop | hless
        · exact ends_of_stop hstop
        · exact ih _ (hm ▸ hless) (fun t ht => h t (reaches_trans hreach ht)) rfl

end Lib
