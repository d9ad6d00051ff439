import Mathlib.Data.List.Basic

/-!
# `Kernel4GameServer.Lib.History`: properties of the events of a run

A history is the list of the events so far, the last one last. `Always Ok h` says that
every event of `h` is `Ok` for the events in front of it. Such a property is kept by an
event that is `Ok` for the whole history in front of it (`always_snoc`), so an invariant of
the state is enough to prove it.
-/

set_option autoImplicit false

namespace Lib

variable {ε : Type*}

/-- Every event is fine for the events in front of it. -/
def Always (Ok : List ε → ε → Prop) (h : List ε) : Prop :=
  ∀ pre e post, h = pre ++ e :: post → Ok pre e

variable {Ok : List ε → ε → Prop}

/-- The empty history is fine. -/
theorem always_nil : Always Ok [] := by
  intro pre e post h
  cases pre <;> cases h

/-- A history with one more event splits in front of that event or in front of an earlier
one. -/
theorem split_snoc {h pre post : List ε} {a e : ε} (heq : h ++ [a] = pre ++ e :: post) :
    (pre = h ∧ e = a ∧ post = []) ∨ ∃ post', post = post' ++ [a] ∧ h = pre ++ e :: post' := by
  rcases List.eq_nil_or_concat post with rfl | ⟨post', x, rfl⟩
  · obtain ⟨hpre, hlast⟩ := List.append_inj' heq rfl
    cases hlast
    exact .inl ⟨hpre.symm, rfl, rfl⟩
  · rw [List.concat_eq_append, ← List.cons_append, ← List.append_assoc] at heq
    obtain ⟨hpre, hlast⟩ := List.append_inj' heq rfl
    cases hlast
    exact .inr ⟨post', List.concat_eq_append, hpre⟩

/-- One more event. -/
theorem always_snoc {h : List ε} {a : ε} : Always Ok (h ++ [a]) ↔ Always Ok h ∧ Ok h a := by
  constructor
  · intro hall
    refine ⟨fun pre e post heq => hall pre e (post ++ [a]) ?_, hall h a [] rfl⟩
    rw [heq, List.append_assoc]
    rfl
  · rintro ⟨hall, ha⟩ pre e post heq
    rcases split_snoc heq with ⟨rfl, rfl, rfl⟩ | ⟨post', -, hpre⟩
    · exact ha
    · exact hall pre e post' hpre

/-- The events in front of later ones. -/
theorem Always.of_append {h h' : List ε} (hall : Always Ok (h ++ h')) : Always Ok h := by
  intro pre e post heq
  refine hall pre e (post ++ h') ?_
  rw [heq, List.append_assoc, List.cons_append]

/-- An event is fine in a weaker sense too. -/
theorem Always.mono {Ok' : List ε → ε → Prop} {h : List ε} (hall : Always Ok h)
    (himp : ∀ pre e, Ok pre e → Ok' pre e) : Always Ok' h :=
  fun pre e post heq => himp pre e (hall pre e post heq)

end Lib
