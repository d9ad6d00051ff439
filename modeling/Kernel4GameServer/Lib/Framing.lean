import Mathlib.Data.List.Basic
import Mathlib.Order.Basic
import Mathlib.Data.Nat.Init

/-!
# `Kernel4GameServer.Lib.Framing`: consumers of a growing buffer

A consumer looks at a state and a buffer and answers how many symbols of the buffer it
uses, with the new state and the effects. It is *stable* when more symbols behind the
buffer do not change an answer that uses some: the frames it cuts do not depend on how
much of the stream is there.

`feed c s b` is the consumer run on the buffer `b` until it uses nothing. `feed_append` is
the main fact: a stable consumer that is fed `b` and later `d` does what it does on
`b ++ d`. `Progress` is the form an interleaved run needs. It relates what has been
consumed so far and what is still buffered to the stream in one piece, and it is kept both
by new symbols (`Progress.append`) and by one answer (`Progress.consume`). `frames` counts the
answers that use some of the buffer, which are the pieces it is cut into. `Cut` says how a state of
an interleaved run was come to, where more than `Progress` is to be known of it.
-/

set_option autoImplicit false

namespace Lib

variable {σ α ε : Type*}

/-- The answer of a consumer: the number of symbols used, the new state, the effects. -/
structure Answer (σ ε : Type*) where
  used : Nat
  state : σ
  effects : List ε

/-- What holds of a consumer whose frames do not depend on the symbols behind them. -/
structure Stable (c : σ → List α → Answer σ ε) : Prop where
  used_le : ∀ s b, (c s b).used ≤ b.length
  idle : ∀ s b, (c s b).used = 0 → (c s b).state = s ∧ (c s b).effects = []
  extend : ∀ s b d, 0 < (c s b).used → c s (b ++ d) = c s b

/-- The outcome of feeding a buffer: all effects in order, the last state, the symbols
that stay unused. -/
structure Fed (σ α ε : Type*) where
  effects : List ε
  state : σ
  rest : List α

/-- An outcome with earlier effects in front. -/
def Fed.after (r : Fed σ α ε) (es : List ε) : Fed σ α ε :=
  { r with effects := es ++ r.effects }

/-- The consumer run on `b` until it uses nothing. -/
def feed (c : σ → List α → Answer σ ε) (s : σ) (b : List α) : Fed σ α ε :=
  if _h : b ≠ [] ∧ 0 < (c s b).used then
    (feed c (c s b).state (b.drop (c s b).used)).after (c s b).effects
  else ⟨[], s, b⟩
termination_by b.length
decreasing_by
  have := List.length_pos_iff.mpr _h.1
  rw [List.length_drop]
  omega

@[simp] theorem Fed.after_after (r : Fed σ α ε) (es es' : List ε) :
    (r.after es).after es' = r.after (es' ++ es) := by
  simp [Fed.after, List.append_assoc]

variable {c : σ → List α → Answer σ ε}

/-- A stable consumer uses nothing of the empty buffer. -/
theorem Stable.used_nil (hc : Stable c) (s : σ) : (c s []).used = 0 :=
  Nat.le_zero.mp (hc.used_le s [])

/-- A buffer of which the consumer uses nothing stays as it is. -/
theorem feed_idle {s : σ} {b : List α} (h : (c s b).used = 0) : feed c s b = ⟨[], s, b⟩ := by
  rw [feed, dif_neg (by omega)]

/-- One answer of the consumer, and the rest of the buffer after it. -/
theorem feed_consume (hc : Stable c) {s : σ} {b : List α} (h : 0 < (c s b).used) :
    feed c s b
      = (feed c (c s b).state (b.drop (c s b).used)).after (c s b).effects := by
  have hb : b ≠ [] := by
    rintro rfl
    exact absurd (hc.used_nil s) (by omega)
  rw [feed, dif_pos ⟨hb, h⟩]

/-- The consumer uses nothing of what a feed leaves. -/
theorem feed_rest_idle (hc : Stable c) (s : σ) (b : List α) :
    (c (feed c s b).state (feed c s b).rest).used = 0 := by
  induction hn : b.length using Nat.strong_induction_on generalizing s b with
  | _ n ih =>
      rcases Nat.eq_zero_or_pos (c s b).used with h | h
      · rw [feed_idle h]
        exact h
      · have hle := hc.used_le s b
        rw [feed_consume hc h]
        exact ih _ (by rw [List.length_drop]; omega) _ (b.drop (c s b).used) rfl

/-- Feeding `b` and then `d` is feeding `b ++ d`. Induction on the length of `b`: an answer
on `b` is the answer on `b ++ d` by stability. -/
theorem feed_append (hc : Stable c) (s : σ) (b d : List α) :
    feed c s (b ++ d)
      = (feed c (feed c s b).state ((feed c s b).rest ++ d)).after (feed c s b).effects := by
  induction hn : b.length using Nat.strong_induction_on generalizing s b with
  | _ n ih =>
      rcases Nat.eq_zero_or_pos (c s b).used with h | h
      · rw [feed_idle h]
        rfl
      · have hle := hc.used_le s b
        have hext := hc.extend s b d h
        have hlen : (b.drop (c s b).used).length < n := by
          rw [List.length_drop]
          omega
        have hdrop : (b ++ d).drop (c s b).used = b.drop (c s b).used ++ d :=
          List.drop_append_of_le_length hle
        rw [feed_consume hc (by rw [hext]; exact h), hext, hdrop,
          ih _ hlen (c s b).state (b.drop (c s b).used) rfl, feed_consume hc h]
        simp [Fed.after]

/-- More symbols behind a buffer add effects behind those of the buffer. -/
theorem feed_effects_mono (hc : Stable c) (s : σ) {b w : List α} (h : b <+: w) :
    (feed c s b).effects <+: (feed c s w).effects := by
  obtain ⟨d, rfl⟩ := h
  rw [feed_append hc]
  exact List.prefix_append _ _

/-- `Progress c s₀ w es s b`: after the effects `es`, in the state `s` with `b` still
buffered, what remains to be done leads to the outcome of `w` in one piece from `s₀`. -/
def Progress (c : σ → List α → Answer σ ε) (s₀ : σ) (w : List α) (es : List ε) (s : σ)
    (b : List α) : Prop :=
  feed c s₀ w = (feed c s b).after es

namespace Progress

/-- Nothing has been consumed yet. -/
theorem start (s : σ) (w : List α) : Progress c s w [] s w := rfl

/-- New symbols arrive behind the stream and behind the buffer. -/
theorem append (hc : Stable c) {s₀ s : σ} {w b : List α} {es : List ε}
    (h : Progress c s₀ w es s b) (d : List α) : Progress c s₀ (w ++ d) es s (b ++ d) := by
  unfold Progress at h ⊢
  rw [feed_append hc s₀ w d, h, feed_append hc s b d]
  simp [Fed.after]

/-- The consumer answers on the part `b` of the buffer `b ++ d` and uses some of it. -/
theorem consume (hc : Stable c) {s₀ s : σ} {w b d : List α} {es : List ε}
    (h : Progress c s₀ w es s (b ++ d)) (hu : 0 < (c s b).used) :
    Progress c s₀ w (es ++ (c s b).effects) (c s b).state ((b ++ d).drop (c s b).used) := by
  have hext := hc.extend s b d hu
  unfold Progress at h ⊢
  rw [h, feed_consume hc (by rw [hext]; exact hu), hext, Fed.after_after]

/-- Where the consumer uses nothing of the buffer, the stream in one piece has the same
effects, the same last state and the same rest. -/
theorem done {s₀ s : σ} {w b : List α} {es : List ε} (h : Progress c s₀ w es s b)
    (hu : (c s b).used = 0) : feed c s₀ w = ⟨es, s, b⟩ := by
  unfold Progress at h
  rw [h, feed_idle hu]
  simp [Fed.after]

end Progress

/-- The number of answers that use some of the buffer when the consumer is run on it until it
uses nothing. -/
def frames (c : σ → List α → Answer σ ε) (s : σ) (b : List α) : Nat :=
  if _h : b ≠ [] ∧ 0 < (c s b).used then
    frames c (c s b).state (b.drop (c s b).used) + 1
  else 0
termination_by b.length
decreasing_by
  have := List.length_pos_iff.mpr _h.1
  rw [List.length_drop]
  omega

/-- A buffer of which the consumer uses nothing has no frame. -/
theorem frames_idle {s : σ} {b : List α} (h : (c s b).used = 0) : frames c s b = 0 := by
  rw [frames, dif_neg (by omega)]

/-- The first frame of a buffer, and those of the rest. -/
theorem frames_consume (hc : Stable c) {s : σ} {b : List α} (h : 0 < (c s b).used) :
    frames c s b = frames c (c s b).state (b.drop (c s b).used) + 1 := by
  have hb : b ≠ [] := by
    rintro rfl
    exact absurd (hc.used_nil s) (by omega)
  rw [frames, dif_pos ⟨hb, h⟩]

/-- A buffer has no frame exactly when the consumer uses nothing of it. -/
theorem frames_eq_zero (hc : Stable c) {s : σ} {b : List α} :
    frames c s b = 0 ↔ (c s b).used = 0 := by
  constructor
  · intro h
    by_contra hne
    rw [frames_consume hc (Nat.pos_of_ne_zero hne)] at h
    cases h
  · exact frames_idle

/-- The frames of `b ++ d` are those of `b` and those of what `b` leaves in front of `d`. -/
theorem frames_append (hc : Stable c) (s : σ) (b d : List α) :
    frames c s (b ++ d)
      = frames c s b + frames c (feed c s b).state ((feed c s b).rest ++ d) := by
  induction hn : b.length using Nat.strong_induction_on generalizing s b with
  | _ n ih =>
      rcases Nat.eq_zero_or_pos (c s b).used with h | h
      · rw [feed_idle h, frames_idle h, Nat.zero_add]
      · have hle := hc.used_le s b
        have hext := hc.extend s b d h
        have hlen : (b.drop (c s b).used).length < n := by
          rw [List.length_drop]
          omega
        have hdrop : (b ++ d).drop (c s b).used = b.drop (c s b).used ++ d :=
          List.drop_append_of_le_length hle
        rw [frames_consume hc (by rw [hext]; exact h), hext, hdrop,
          ih _ hlen (c s b).state (b.drop (c s b).used) rfl, feed_consume hc h,
          frames_consume hc h]
        simp only [Fed.after]
        omega

/-- More symbols behind a buffer take away no frame. -/
theorem frames_le_of_prefix (hc : Stable c) (s : σ) {b w : List α} (h : b <+: w) :
    frames c s b ≤ frames c s w := by
  obtain ⟨d, rfl⟩ := h
  rw [frames_append hc]
  exact Nat.le_add_right _ _

/-- `Counted c s₀ w k s b`: of the frames of `w` from `s₀`, `k` are behind, and those of `b`
from `s` are still to come. -/
def Counted (c : σ → List α → Answer σ ε) (s₀ : σ) (w : List α) (k : Nat) (s : σ)
    (b : List α) : Prop :=
  frames c s₀ w = k + frames c s b

namespace Counted

/-- No frame is behind at the start. -/
theorem start (s : σ) (w : List α) : Counted c s w 0 s w := (Nat.zero_add _).symm

/-- New symbols arrive behind the stream and behind the buffer. -/
theorem append (hc : Stable c) {s₀ s : σ} {w b : List α} {es : List ε} {k : Nat}
    (h : Counted c s₀ w k s b) (hp : Progress c s₀ w es s b) (d : List α) :
    Counted c s₀ (w ++ d) k s (b ++ d) := by
  unfold Counted Progress at *
  rw [frames_append hc s₀ w d, hp, frames_append hc s b d, h]
  simp only [Fed.after]
  omega

/-- The consumer answers on the part `b` of the buffer `b ++ d` and uses some of it. -/
theorem consume (hc : Stable c) {s₀ s : σ} {w b d : List α} {k : Nat}
    (h : Counted c s₀ w k s (b ++ d)) (hu : 0 < (c s b).used) :
    Counted c s₀ w (k + 1) (c s b).state ((b ++ d).drop (c s b).used) := by
  have hext := hc.extend s b d hu
  unfold Counted at h ⊢
  rw [h, frames_consume hc (by rw [hext]; exact hu), hext]
  omega

end Counted

/-- `Cut c s₀ w es k s b`: from the state `s₀`, `k` answers on the symbols `w`, given bit by bit,
have had the effects `es` and have led to the state `s` with `b` still buffered. -/
inductive Cut (c : σ → List α → Answer σ ε) (s₀ : σ) :
    List α → List ε → Nat → σ → List α → Prop where
  | start : Cut c s₀ [] [] 0 s₀ []
  | append {w b : List α} {es : List ε} {k : Nat} {s : σ} (d : List α) :
      Cut c s₀ w es k s b → Cut c s₀ (w ++ d) es k s (b ++ d)
  | consume {w b : List α} {es : List ε} {k : Nat} {s : σ} : Cut c s₀ w es k s b →
      0 < (c s b).used →
      Cut c s₀ w (es ++ (c s b).effects) (k + 1) (c s b).state (b.drop (c s b).used)

namespace Cut

/-- What is left to do leads to the outcome of the symbols in one piece, with the same frames. -/
theorem progress (hc : Stable c) {s₀ s : σ} {w b : List α} {es : List ε} {k : Nat}
    (h : Cut c s₀ w es k s b) : Progress c s₀ w es s b ∧ Counted c s₀ w k s b := by
  induction h with
  | start => exact ⟨.start s₀ [], .start s₀ []⟩
  | append d _ ih => exact ⟨ih.1.append hc d, ih.2.append hc ih.1 d⟩
  | @consume w b es k s _ hu ih =>
      have hp := ih.1
      have hk := ih.2
      rw [← List.append_nil b] at hp hk
      have hp' := hp.consume hc hu
      have hk' := hk.consume hc hu
      rw [List.append_nil] at hp' hk'
      exact ⟨hp', hk'⟩

end Cut

end Lib
