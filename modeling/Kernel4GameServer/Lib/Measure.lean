import Mathlib.Algebra.GroupWithZero.Nat
import Mathlib.Algebra.Order.BigOperators.Group.List
import Kernel4GameServer.Lib.Run

/-!
# `Kernel4GameServer.Lib.Measure`: runs that can go on only so long

Some steps of a system bring it closer to its end, by a measure, and others put work in. A run has
no more steps of the first kind than the work that was there and that was put in. What a step puts
in may be known from the step, or only from the state it leads to.
-/

set_option autoImplicit false

namespace Lib

variable {σ α : Type*} {step : σ → α → Option σ}

/-- Where every step, on the states with `I`, raises the measure by no more than its cost and what
it gains, and one that is counted by one less, the number of counted steps of a run is bounded by
the measure before it, the costs and what the run has gained. -/
theorem run_gain_le {I : σ → Prop} (counted : α → Bool) (μ gain : σ → Nat) (cost : α → Nat)
    (keep : ∀ s a s', I s → step s a = some s' → I s')
    (bound : ∀ s a s', I s → step s a = some s' →
      (counted a).toNat + μ s' + gain s ≤ μ s + gain s' + cost a) :
    ∀ {as : List α} {s s' : σ}, I s → run step s as = some s' →
      as.countP counted + μ s' + gain s ≤ μ s + gain s' + (as.map cost).sum := by
  intro as
  induction as with
  | nil =>
      intro s s' _ h
      rw [run_nil, Option.some.injEq] at h
      subst h
      simp
  | cons a as ih =>
      intro s s' hs h
      rw [run_cons] at h
      obtain ⟨t, ht, hrest⟩ := Option.bind_eq_some_iff.mp h
      have hhead := bound s a t hs ht
      have htail := ih (keep s a t hs ht) hrest
      have hcount : (a :: as).countP counted = (counted a).toNat + as.countP counted := by
        rw [List.countP_cons, Nat.add_comm]
        cases counted a <;> rfl
      rw [hcount, List.map_cons, List.sum_cons]
      omega

/-- The same where all that is put in is known from the steps. -/
theorem run_count_le {I : σ → Prop} (counted : α → Bool) (μ : σ → Nat) (cost : α → Nat)
    (keep : ∀ s a s', I s → step s a = some s' → I s')
    (bound : ∀ s a s', I s → step s a = some s' →
      (counted a).toNat + μ s' ≤ μ s + cost a)
    {as : List α} {s s' : σ} (hs : I s) (h : run step s as = some s') :
    as.countP counted + μ s' ≤ μ s + (as.map cost).sum :=
  run_gain_le counted μ (fun _ => 0) cost keep bound hs h

end Lib
