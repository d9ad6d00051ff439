import Kernel4GameServer.Public.CDataObject

/-!
# `Kernel4GameServer.Proofs.Public.CDataObject`: what a `CData` holds behind its setters

`SetValue` frees the string of a `CData` but leaves its tag, so the readers go through NULL
afterwards. `GetS32` does not store into its argument. Nothing else goes wrong.

* `hasString_step`: a call leaves a string behind the tag of a string, unless it is a
  `SetValue` on one. `readable_iff` says what the readers make of it.
* `readsBack_step`: the getters behind a typed setter, except `SetS32`.
* `consistent_iff`: both, for all runs.
-/

set_option autoImplicit false

namespace Kernel4GameServer

open Lib DATA_TYPE

/-- Two enumerators have different values. -/
theorem DATA_TYPE.toS8_inj {t u : DATA_TYPE} : t.toS8 = u.toS8 ↔ t = u := by
  cases t <;> cases u <;> decide

namespace CDataObject

variable {d d' : CDataObject}

/-! ### The readers -/

/-- What the readers see of an object. -/
theorem value_isSome : d.value.isSome ↔ d.HasString := by
  unfold value HasString
  split
  · rename_i htype
    rw [Option.isSome_map, Option.isSome_iff_exists]
    exact ⟨fun h _ => h, fun h => h htype⟩
  · rename_i htype
    exact ⟨fun _ h => absurd h htype, fun _ => rfl⟩

/-- The readers are safe just where the tag of a string has a live string behind it. -/
theorem readable_iff : d.Readable ↔ d.HasString := by
  constructor
  · intro h
    rw [← value_isSome]
    simpa [GetDataSize] using h.getDataSize
  · intro h
    have hvalue := value_isSome.mpr h
    refine ⟨?_, by simpa [GetDataSize] using hvalue, ?_, ?_⟩
    · intro strValue
      unfold GetString
      split
      · rename_i htype
        exact Option.isSome_iff_exists.mpr (h htype)
      · rfl
    · intro pMem nLen
      simpa [SetDataToMem] using hvalue
    · intro args
      simpa [shl] using hvalue

/-- `GetS32` leaves the object and its argument as they are. -/
theorem GetS32_idle (d : CDataObject) (x : BitVec 32) : d.GetS32 x = (d, x) := by
  simp [GetS32, putMember_member]

/-- A getter of another type than the object's leaves its argument. -/
theorem getNumber_other {w : Nat} {type other : DATA_TYPE} (htype : d.type = type.toS8)
    (hne : type ≠ other) (x : BitVec w) : d.getNumber other x = x := by
  have hother : d.type ≠ other.toS8 := by
    rw [htype]
    exact fun heq => hne (toS8_inj.mp heq)
  exact if_neg hother

/-- All getters of other types leave their argument. -/
theorem leavesOthers_of_type {type : DATA_TYPE} (htype : d.type = type.toS8) :
    d.LeavesOthers type where
  getS8 hne x := getNumber_other htype hne x
  getS16 hne x := getNumber_other htype hne x
  getS32 _ x := by rw [GetS32_idle]
  getS64 hne x := getNumber_other htype hne x
  getDouble hne x := getNumber_other htype hne x
  getString hne x := by
    have hother : d.type ≠ DATA_TYPE_STRING.toS8 := by
      rw [htype]
      exact fun heq => hne (toS8_inj.mp heq)
    exact if_neg hother

/-! ### The setters -/

@[simp] theorem setNumber_type {w : Nat} (d : CDataObject) (type : DATA_TYPE) (v : BitVec w) :
    (d.setNumber type v).type = type.toS8 := rfl

/-- The number that was set is read back. -/
theorem getNumber_setNumber {w : Nat} (hw : w ≤ 64) (d : CDataObject) (type : DATA_TYPE)
    (v x : BitVec w) : (d.setNumber type v).getNumber type x = v := by
  rw [getNumber, if_pos (setNumber_type d type v)]
  exact member_putMember hw _ v

/-- The tag of a number has no string behind it. -/
theorem hasString_of_type {type : DATA_TYPE} (htype : d.type = type.toS8)
    (hne : type ≠ DATA_TYPE_STRING) : d.HasString := by
  intro hstring
  rw [htype] at hstring
  exact absurd (toS8_inj.mp hstring) hne

/-- `SetString` stores a live string. -/
theorem SetString_spec {s : List UInt8} {p : BitVec 64} (h : d.SetString s p = some d') :
    d'.type = DATA_TYPE_STRING.toS8 ∧ d'.strValue = some s := by
  simp only [SetString] at h
  split at h
  · rename_i hp
    obtain rfl := Option.some.inj h
    refine ⟨rfl, ?_⟩
    rw [strValue, if_neg hp.1]
    exact if_pos rfl
  · cases h

/-- `clear_string` keeps the tag. -/
@[simp] theorem clear_string_type (d : CDataObject) : d.clear_string.type = d.type := by
  unfold clear_string
  split <;> rfl

/-- Behind `clear_string` the pointer of a string is NULL. -/
theorem clear_string_word (htype : d.type = DATA_TYPE_STRING.toS8) : d.clear_string.word = 0 := by
  unfold clear_string
  split
  · rfl
  · rename_i hnull
    by_contra hword
    exact hnull ⟨htype, hword⟩

/-- `SetValue` keeps the tag. -/
theorem SetValue_type (d : CDataObject) (value : ConvertedValue) :
    (d.SetValue value).type = d.type := by
  unfold SetValue
  dsimp only
  split <;> exact clear_string_type d

/-- `SetValue` on a string leaves NULL behind its tag. -/
theorem SetValue_string (htype : d.type = DATA_TYPE_STRING.toS8) (value : ConvertedValue) :
    (d.SetValue value).word = 0 := by
  have hlabel : ofS8 d.clear_string.type = some DATA_TYPE_STRING := by
    rw [clear_string_type, htype]
    decide
  simp only [SetValue, hlabel]
  exact clear_string_word htype

/-! ### Runs -/

/-- One call leaves a string behind the tag of a string, unless it is a `SetValue` on one. -/
theorem hasString_step {a : CDataAction} (hstep : d.step a = some d') :
    d'.HasString ↔ d.KeepsString a := by
  cases a with
  | SetString s p =>
      obtain ⟨-, hs⟩ := SetString_spec hstep
      exact ⟨fun _ => trivial, fun _ _ => ⟨s, hs⟩⟩
  | SetValue value =>
      obtain rfl := Option.some.inj hstep
      constructor
      · intro h htype
        obtain ⟨s, hs⟩ := h ((SetValue_type d value).trans htype)
        rw [strValue, if_pos (SetValue_string htype value)] at hs
        cases hs
      · intro hne htype
        rw [SetValue_type] at htype
        exact absurd htype hne
  | SetS8 v | SetS16 v | SetS32 v | SetS64 v | SetDouble v =>
      obtain rfl := Option.some.inj hstep
      exact ⟨fun _ => trivial, fun _ => hasString_of_type (setNumber_type ..) (by decide)⟩

/-- The getters behind a typed setter, where it is not `SetS32`. -/
theorem readsBack_step {a : CDataAction} (hstep : d.step a = some d') :
    d'.ReadsBack a ↔ d.NotS32 a := by
  cases a with
  | SetString s p =>
      obtain ⟨htype, hs⟩ := SetString_spec hstep
      refine ⟨fun _ => trivial, fun _ => ⟨fun x => ?_, leavesOthers_of_type htype⟩⟩
      rw [GetString, if_pos htype, hs]
  | SetValue value => exact ⟨fun _ => trivial, fun _ => trivial⟩
  | SetS32 v =>
      -- The argument keeps what it had, and that need not be `v`.
      refine ⟨fun h => ?_, False.elim⟩
      have hx := h.1 (v + 1)
      rw [GetS32_idle] at hx
      simp at hx
  | SetS8 v | SetS16 v | SetS64 v | SetDouble v =>
      obtain rfl := Option.some.inj hstep
      exact ⟨fun _ => trivial, fun _ => ⟨fun x => getNumber_setNumber (by decide) d _ v x,
        leavesOthers_of_type (setNumber_type ..)⟩⟩

/-- In every run of the setters and of `SetValue`, a tag of a string has a live string behind it,
so that no reader goes through NULL, and every typed setter is read back by its getter alone,
just where `SetValue` is never called on a string and `SetS32` not at all. -/
theorem consistent_iff (word : BitVec 64) (strings : BitVec 64 → Option (List UInt8))
    (as : List CDataAction) (d : CDataObject) (h : run step (init word strings) as = some d) :
    (Throughout step (fun d => d.HasString ∧ d.Readable) (init word strings) as
        ∧ AllSteps step (fun d a => ∀ d', d.step a = some d' → d'.ReadsBack a)
            (init word strings) as)
      ↔ AllSteps step (fun d a => d.KeepsString a ∧ d.NotS32 a) (init word strings) as := by
  have htype : (init word strings).type = DATA_TYPE_INVALID.toS8 := rfl
  have hinit : (init word strings).HasString := hasString_of_type htype (by decide)
  have hstring : Throughout step (fun d => d.HasString ∧ d.Readable) (init word strings) as
      ↔ AllSteps step KeepsString (init word strings) as :=
    throughout_iff (I := fun _ => True)
      (fun d a d' _ _ hstep => by
        rw [readable_iff, and_self]
        exact hasString_step hstep)
      (fun _ _ _ _ _ _ _ => trivial) trivial ⟨hinit, readable_iff.mpr hinit⟩ h
  have hreads : AllSteps step (fun d a => ∀ d', d.step a = some d' → d'.ReadsBack a)
        (init word strings) as
      ↔ AllSteps step NotS32 (init word strings) as := by
    refine allSteps_iff_of_run ?_ h
    intro d a d' hstep
    rw [← readsBack_step hstep]
    refine ⟨fun hall => hall d' hstep, fun hback e he => ?_⟩
    rw [hstep, Option.some.injEq] at he
    exact he ▸ hback
  rw [allSteps_and, hstring, hreads]

/-- An argument of `SetValue` that is 7 in every type. The bits of the `double` stand for it. -/
def seven : ConvertedValue :=
  { s8Value := 7, s16Value := 7, s32Value := 7, s64Value := 7, dValue := 0x401C000000000000 }

/-- A number is changed, and a string comes behind it. -/
def numberThenString : List CDataAction :=
  [.SetS16 300, .SetValue seven, .SetString [97, 98] 4096, .SetDouble 0, .SetS8 1]

/-- That run is in order. -/
theorem consistent_numberThenString :
    ∃ d, run step (init 0 fun _ => none) numberThenString = some d
      ∧ Throughout step (fun d => d.HasString ∧ d.Readable) (init 0 fun _ => none)
          numberThenString := by
  obtain ⟨d, hd⟩ : ∃ d, run step (init 0 fun _ => none) numberThenString = some d :=
    Option.isSome_iff_exists.mp (by decide)
  have hfine : AllSteps step (fun d a => d.KeepsString a ∧ d.NotS32 a) (init 0 fun _ => none)
      numberThenString :=
    ⟨⟨trivial, trivial⟩, ⟨show ¬ _ by decide, trivial⟩, ⟨trivial, trivial⟩, ⟨trivial, trivial⟩,
      ⟨trivial, trivial⟩, trivial⟩
  exact ⟨d, hd, ((consistent_iff 0 (fun _ => none) numberThenString d hd).mpr hfine).1⟩

/-- A `SetValue` on the string "a" leaves the tag of a string with NULL behind it, and
`GetDataSize` goes through it. A `SetS32` of 5 is not read back. -/
theorem string_lost :
    (∃ d, run step (init 0 fun _ => none) [.SetString [97] 4096, .SetValue seven] = some d
      ∧ ¬ d.HasString ∧ d.GetDataSize = none)
    ∧ ∃ d, run step (init 0 fun _ => none) [.SetS32 5] = some d ∧ ¬ d.ReadsBack (.SetS32 5) := by
  refine ⟨⟨_, rfl, ?_, by decide⟩, _, rfl, ?_⟩
  · intro h
    obtain ⟨s, hs⟩ := h (by decide)
    exact absurd hs (by simp [strValue, SetValue, clear_string, ofS8, toS8])
  · intro h
    exact absurd (h.1 0) (by decide)

end CDataObject

end Kernel4GameServer
