import Mathlib.Data.List.Basic

/-!
# `Kernel4GameServer.Lib.Transducer`: machines that answer every input

A machine `f : σ → ι → σ × ω` answers each input and changes its state. `after` is the state
that a list of inputs leads to, `outputs` the answers to them.

`Explains f s es t` says that a log `es` of inputs with their answers is one of `f` from `s`
to `t`. `explains_snoc` extends a log by one entry, and `Explains.outputs_unique` is what such
a log is good for: the inputs in it determine its answers.
-/

set_option autoImplicit false

namespace Lib

variable {σ ι ω : Type*}

/-- The state after some inputs. -/
def after (f : σ → ι → σ × ω) : σ → List ι → σ
  | s, [] => s
  | s, i :: is => after f (f s i).1 is

/-- The answers to some inputs. -/
def outputs (f : σ → ι → σ × ω) : σ → List ι → List ω
  | _, [] => []
  | s, i :: is => (f s i).2 :: outputs f (f s i).1 is

/-- The log `es` is what the machine does from `s` on, and it ends in `t`. -/
structure Explains (f : σ → ι → σ × ω) (s : σ) (es : List (ι × ω)) (t : σ) : Prop where
  outputs : es.map Prod.snd = outputs f s (es.map Prod.fst)
  after : t = after f s (es.map Prod.fst)

variable {f : σ → ι → σ × ω} {s t : σ}

theorem after_append (s : σ) (is js : List ι) :
    after f s (is ++ js) = after f (after f s is) js := by
  induction is generalizing s with
  | nil => rfl
  | cons i is ih => exact ih (f s i).1

theorem outputs_append (s : σ) (is js : List ι) :
    outputs f s (is ++ js) = outputs f s is ++ outputs f (after f s is) js := by
  induction is generalizing s with
  | nil => rfl
  | cons i is ih =>
      rw [List.cons_append, outputs, ih, outputs, after]
      rfl

/-- An empty log leads nowhere. -/
theorem explains_nil (s : σ) : Explains f s [] s := ⟨rfl, rfl⟩

/-- The next entry of a log is an input with the answer of the machine. -/
theorem explains_snoc {es : List (ι × ω)} (h : Explains f s es t) (i : ι) :
    Explains f s (es ++ [(i, (f t i).2)]) (f t i).1 := by
  refine ⟨?_, ?_⟩
  · rw [List.map_append, List.map_append, outputs_append, h.outputs, ← h.after]
    rfl
  · rw [List.map_append, after_append, ← h.after]
    rfl

/-- The inputs of a log determine its answers. -/
theorem Explains.outputs_unique {es es' : List (ι × ω)} {t' : σ} (h : Explains f s es t)
    (h' : Explains f s es' t') (hin : es.map Prod.fst = es'.map Prod.fst) :
    es.map Prod.snd = es'.map Prod.snd := by
  rw [h.outputs, h'.outputs, hin]

end Lib
