import Kernel4GameServer.Lib.Run
import Mathlib.Data.List.Find
import Mathlib.Data.List.Nodup

/-!
# `Kernel4GameServer.Lib.KeyedMap`: a map that compares its keys through a projection

A map is the list of its entries, each with the key it was stored under. Two keys are the same
for the map when `f` takes them to one value. With `id` for `f` this is the map of the keys
themselves.

* `Own`: an operation touches no entry but that of its own key.
* `Apart`: no entry of another key has the image of this one. `own_iff` says that this is what
  it takes.
* `allSteps_own_iff`, `run_eq_of_apart`: the same for a sequence of operations, with the entries
  that the map of the keys themselves would have. The two maps are equal then.
-/

set_option autoImplicit false

namespace Lib.KeyedMap

variable {κ ν ι : Type*}

/-- An operation on the entry of a key. `assign` stores a value in any case, and `insert` only
where there is no entry. -/
inductive Op (κ ν : Type*) where
  | insert (k : κ) (v : ν)
  | assign (k : κ) (v : ν)
  | update (k : κ) (g : ν → ν)
  | erase (k : κ)

/-- The key of an operation. -/
def Op.key : Op κ ν → κ
  | .insert k _ | .assign k _ | .update k _ | .erase k => k

section
variable [DecidableEq ι]

/-- The entry that a key leads to. -/
def find (f : κ → ι) (m : List (κ × ν)) (k : κ) : Option (κ × ν) :=
  m.find? fun e => f e.1 = f k

/-- A change of the value that a key leads to. The entry keeps the key it has. -/
def modify (f : κ → ι) (m : List (κ × ν)) (k : κ) (g : ν → ν) : List (κ × ν) :=
  m.map fun e => if f e.1 = f k then (e.1, g e.2) else e

/-- The map behind an operation. -/
def apply (f : κ → ι) (m : List (κ × ν)) : Op κ ν → List (κ × ν)
  | .insert k v => if (find f m k).isSome then m else m ++ [(k, v)]
  | .assign k v => if (find f m k).isSome then modify f m k fun _ => v else m ++ [(k, v)]
  | .update k g => modify f m k g
  | .erase k => m.filter fun e => f e.1 ≠ f k

/-- An operation as a step. -/
def step (f : κ → ι) (m : List (κ × ν)) (op : Op κ ν) : Option (List (κ × ν)) :=
  some (apply f m op)

end

/-- No two entries have the same image. -/
def Distinct (f : κ → ι) (m : List (κ × ν)) : Prop := (m.map fun e => f e.1).Nodup

/-- No entry of another key has the image of `k`. -/
def Apart (f : κ → ι) (m : List (κ × ν)) (k : κ) : Prop := ∀ e ∈ m, f e.1 = f k → e.1 = k

/-- The operation finds no entry of another key, and leaves them all. -/
structure Own [DecidableEq ι] (f : κ → ι) (m : List (κ × ν)) (op : Op κ ν) : Prop where
  finds : ∀ e, find f m op.key = some e → e.1 = op.key
  keeps : ∀ e ∈ m, e.1 ≠ op.key → e ∈ apply f m op

variable [DecidableEq ι] {f : κ → ι} {m : List (κ × ν)} {k : κ}

/-! ### One operation -/

/-- What is found is an entry with the image of the key. -/
theorem find_some {e : κ × ν} (h : find f m k = some e) : e ∈ m ∧ f e.1 = f k :=
  ⟨List.mem_of_find?_eq_some h, by simpa using List.find?_some h⟩

/-- An entry with the image of the key is what is found. -/
theorem find_eq (hd : Distinct f m) {e : κ × ν} (he : e ∈ m) (hf : f e.1 = f k) :
    find f m k = some e := by
  have hsome : (find f m k).isSome := List.find?_isSome.mpr ⟨e, he, by simpa using hf⟩
  obtain ⟨e', he'⟩ := Option.isSome_iff_exists.mp hsome
  obtain ⟨hmem, hf'⟩ := find_some he'
  have heq : e' = e := List.inj_on_of_nodup_map hd hmem he (hf'.trans hf.symm)
  rw [he', heq]

/-- Where nothing is found, no entry has the image of the key. -/
theorem image_notMem (h : ¬ (find f m k).isSome) : f k ∉ m.map fun e => f e.1 := by
  intro hmem
  obtain ⟨e, he, hf⟩ := List.mem_map.mp hmem
  exact h (List.find?_isSome.mpr ⟨e, he, by simpa using hf⟩)

/-- A key that leads nowhere leaves the map as it is, whatever is changed behind it. -/
theorem modify_of_none (h : find f m k = none) (g : ν → ν) : modify f m k g = m := by
  refine (List.map_congr_left fun e he => ?_).trans (List.map_id m)
  have hne : f e.1 ≠ f k := by simpa using List.find?_eq_none.mp h e he
  exact if_neg hne

/-- Nothing is erased at a key that leads nowhere. -/
theorem erase_of_none (h : find f m k = none) : apply f m (.erase k) = m := by
  refine List.filter_eq_self.mpr fun e he => ?_
  simpa using List.find?_eq_none.mp h e he

/-- A change of a value keeps the keys. -/
theorem modify_keys (f : κ → ι) (m : List (κ × ν)) (k : κ) (g : ν → ν) :
    (modify f m k g).map (fun e => f e.1) = m.map fun e => f e.1 := by
  rw [modify, List.map_map]
  refine List.map_congr_left fun e _ => ?_
  show f (if f e.1 = f k then (e.1, g e.2) else e).1 = f e.1
  split <;> rfl

/-- An operation keeps the images distinct. -/
theorem apply_distinct (hd : Distinct f m) (op : Op κ ν) : Distinct f (apply f m op) := by
  have hsnoc : ∀ {k : κ} {v : ν}, ¬ (find f m k).isSome → Distinct f (m ++ [(k, v)]) := by
    intro k v hnone
    rw [Distinct, List.map_append]
    refine List.nodup_append.mpr ⟨hd, by simp, ?_⟩
    intro a ha b hb hab
    obtain rfl : b = f k := by simpa using hb
    exact image_notMem hnone (hab ▸ ha)
  cases op with
  | insert k v =>
      rw [apply]
      split
      · exact hd
      · rename_i hnone
        exact hsnoc hnone
  | assign k v =>
      rw [apply]
      split
      · rw [Distinct, modify_keys]
        exact hd
      · rename_i hnone
        exact hsnoc hnone
  | update k g =>
      rw [apply, Distinct, modify_keys]
      exact hd
  | erase k => exact hd.sublist ((List.filter_sublist).map _)

/-- An entry with another image stays. -/
theorem mem_apply {e : κ × ν} (he : e ∈ m) (op : Op κ ν) (hf : f e.1 ≠ f op.key) :
    e ∈ apply f m op := by
  have hmodify : ∀ {k : κ} (g : ν → ν), f e.1 ≠ f k → e ∈ modify f m k g := by
    intro k g hne
    exact List.mem_map.mpr ⟨e, he, if_neg hne⟩
  cases op with
  | insert k v =>
      rw [apply]
      split
      · exact he
      · exact List.mem_append_left _ he
  | assign k v =>
      rw [apply]
      split
      · exact hmodify _ hf
      · exact List.mem_append_left _ he
  | update k g => exact hmodify g hf
  | erase k =>
      have hne : f e.1 ≠ f k := hf
      exact List.mem_filter.mpr ⟨he, by simpa using hne⟩

/-- An operation keeps to its own entry just where no other entry has the image of its key. -/
theorem own_iff (hd : Distinct f m) (op : Op κ ν) : Own f m op ↔ Apart f m op.key := by
  constructor
  · intro h e he hf
    exact h.finds e (find_eq hd he hf)
  · intro h
    refine ⟨fun e he => ?_, fun e he hne => ?_⟩
    · obtain ⟨hmem, hf⟩ := find_some he
      exact h e hmem hf
    · exact mem_apply he op fun hf => hne (h e he hf)

section
variable [DecidableEq κ]

/-- A key that is apart leads where it leads in the map of the keys themselves. -/
theorem find_of_apart (h : Apart f m k) : find f m k = find id m k := by
  refine List.find?_congr fun e he => ?_
  have hiff : f e.1 = f k ↔ e.1 = k := ⟨h e he, fun heq => heq ▸ rfl⟩
  simp [hiff]

/-- So does the change of its value. -/
theorem modify_of_apart (h : Apart f m k) (g : ν → ν) : modify f m k g = modify id m k g := by
  refine List.map_congr_left fun e he => ?_
  have hiff : f e.1 = f k ↔ e.1 = k := ⟨h e he, fun heq => heq ▸ rfl⟩
  simp [hiff]

/-- So does every operation. -/
theorem apply_of_apart (op : Op κ ν) (h : Apart f m op.key) : apply f m op = apply id m op := by
  cases op with
  | insert k v =>
      have hk : Apart f m k := h
      rw [apply, apply, find_of_apart hk]
  | assign k v =>
      have hk : Apart f m k := h
      rw [apply, apply, find_of_apart hk, modify_of_apart hk]
  | update k g => exact modify_of_apart h g
  | erase k =>
      refine List.filter_congr fun e he => ?_
      have hiff : f e.1 = f k ↔ e.1 = k := ⟨h e he, fun heq => heq ▸ rfl⟩
      simp [hiff]

/-! ### Sequences of operations -/

/-- In a sequence of operations, each keeps to its own entry just where each finds its key apart
in the map of the keys themselves. -/
theorem allSteps_own_iff (hd : Distinct f m) (ops : List (Op κ ν)) :
    AllSteps (step f) (Own f) m ops
      ↔ AllSteps (step id) (fun m op => Apart f m op.key) m ops := by
  induction ops generalizing m with
  | nil => exact Iff.rfl
  | cons op ops ih =>
      have hf : step f m op = some (apply f m op) := rfl
      have hid : step id m op = some (apply id m op) := rfl
      rw [allSteps_cons hf, allSteps_cons hid, own_iff hd]
      refine and_congr_right fun h => ?_
      rw [← apply_of_apart op h]
      exact ih (apply_distinct hd op)

/-- The two maps are equal then. -/
theorem run_eq_of_apart (ops : List (Op κ ν))
    (h : AllSteps (step id) (fun m op => Apart f m op.key) m ops) :
    run (step f) m ops = run (step id) m ops := by
  induction ops generalizing m with
  | nil => rfl
  | cons op ops ih =>
      have hid : step id m op = some (apply id m op) := rfl
      obtain ⟨hop, hops⟩ := (allSteps_cons hid).mp h
      rw [run_cons, run_cons, step, step, apply_of_apart op hop]
      exact ih hops

end

end Lib.KeyedMap
