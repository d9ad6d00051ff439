import Kernel4GameServer.Public.TPool

/-!
# `Kernel4GameServer.Proofs.Public.TPool`: units are in use or free, never both

`Inv` says that the free list holds exactly the allocated units that are not in use, each
once. `Create_spec` gives a unit that was not in use and touches no unit that is, and
`Recover_spec` takes a unit back.
-/

set_option autoImplicit false

namespace Kernel4GameServer.TPool

variable {type : Type}

/-- The free list and the status of the units agree. -/
structure Inv (pool : TPool type) : Prop where
  nodup : pool.m_list.Nodup
  free : ∀ p, p ∈ pool.m_list ↔ p < pool.allocated ∧ pool.inUse p = false
  used : ∀ p, pool.inUse p = true → p < pool.allocated

/-- Another block keeps the invariant and the units in use. -/
theorem AllocNewBlob_inv {pool : TPool type} (h : pool.Inv) (new : type) (n : Nat) :
    (pool.AllocNewBlob new n).Inv where
  nodup := by
    refine List.nodup_append.mpr ⟨h.nodup, List.nodup_range', ?_⟩
    rintro p hp q hq rfl
    have hold := ((h.free p).mp hp).1
    have hnew := (List.mem_range'_1.mp hq).1
    omega
  free p := by
    simp only [AllocNewBlob, List.mem_append, List.mem_range'_1, h.free p]
    by_cases hnew : pool.allocated ≤ p ∧ p < pool.allocated + n
    · rw [if_pos hnew]
      simp only [and_true]
      omega
    · rw [if_neg hnew]
      constructor
      · rintro (⟨hlt, hfree⟩ | hin)
        · exact ⟨by omega, hfree⟩
        · exact absurd hin hnew
      · rintro ⟨hlt, hfree⟩
        exact .inl ⟨by omega, hfree⟩
  used p hp := by
    simp only [AllocNewBlob] at hp ⊢
    split at hp
    · cases hp
    · have := h.used p hp
      omega

/-- A pool starts with all its units free. -/
theorem init_inv (new : type) (size : Nat) : (init new size).Inv :=
  AllocNewBlob_inv ⟨List.nodup_nil, fun p => by simp, fun p hp => by cases hp⟩ new size

/-- Another block leaves the units in use as they are, and adds none. -/
theorem AllocNewBlob_keeps {pool : TPool type} (h : pool.Inv) (new : type) (n : Nat) {q : Nat} :
    ((pool.AllocNewBlob new n).inUse q = true ↔ pool.inUse q = true) ∧
      (pool.inUse q = true → (pool.AllocNewBlob new n).unit q = pool.unit q) := by
  have hold := h.used q
  simp only [AllocNewBlob]
  constructor
  · split
    · constructor
      · intro hq
        cases hq
      · intro hq
        have := hold hq
        omega
    · exact Iff.rfl
  · intro hq
    have := hold hq
    exact if_neg (by omega)

/-- What taking from the front does: it hands out a unit that was not in use, and leaves the
others as they are. -/
theorem takeFront_spec {pool pool' : TPool type} {p : Nat} (h : pool.Inv)
    (ht : pool.takeFront = some (p, pool')) :
    pool'.Inv ∧ pool.inUse p = false ∧ pool'.unit = pool.unit ∧
      pool'.inUse = fun q => if q = p then true else pool.inUse q := by
  unfold takeFront at ht
  cases hl : pool.m_list with
  | nil =>
      rw [hl] at ht
      cases ht
  | cons x rest =>
      rw [hl] at ht
      cases ht
      have hp := (h.free p).mp (hl ▸ List.mem_cons_self)
      have hnodup := h.nodup
      rw [hl, List.nodup_cons] at hnodup
      refine ⟨⟨hnodup.2, fun q => ?_, fun q hq => ?_⟩, hp.2, rfl, rfl⟩
      · have hmem := h.free q
        rw [hl, List.mem_cons] at hmem
        dsimp only
        by_cases hqp : q = p
        · subst hqp
          rw [if_pos rfl]
          exact ⟨fun hin => absurd hin hnodup.1, fun hand => by cases hand.2⟩
        · rw [if_neg hqp, ← hmem, or_iff_right hqp]
      · dsimp only at hq
        split at hq
        · rename_i hqp
          subst hqp
          exact hp.1
        · exact h.used q hq

/-- `Create` never returns the null pointer where blocks have units. -/
theorem Create_isSome (pool : TPool type) (new : type) {count : Nat} (hcount : 0 < count) :
    (pool.Create new count).isSome = true := by
  obtain ⟨n, rfl⟩ : ∃ n, count = n + 1 := ⟨count - 1, by omega⟩
  unfold Create takeFront
  cases hl : pool.m_list with
  | nil => simp [AllocNewBlob, hl, List.range'_succ]
  | cons p rest => simp

/-- What `Create` does: it hands out a unit that was not in use, and leaves those in use as
they are. -/
theorem Create_spec {pool pool' : TPool type} {new : type} {count p : Nat} (h : pool.Inv)
    (hc : pool.Create new count = some (p, pool')) :
    pool'.Inv ∧ pool.inUse p = false ∧
      (∀ q, pool'.inUse q = true ↔ q = p ∨ pool.inUse q = true) ∧
      ∀ q, pool.inUse q = true → pool'.unit q = pool.unit q := by
  unfold Create at hc
  split at hc
  · obtain ⟨hinv, hp, hunit, hin⟩ := takeFront_spec (AllocNewBlob_inv h new count) hc
    refine ⟨hinv, ?_, fun q => ?_, fun q hq => ?_⟩
    · rw [← Bool.not_eq_true]
      intro hused
      have hmid := (AllocNewBlob_keeps h new count).1.mpr hused
      exact absurd (hmid.symm.trans hp) (by decide)
    · rw [hin, ← (AllocNewBlob_keeps h new count).1]
      dsimp only
      split <;> simp_all
    · rw [hunit]
      exact (AllocNewBlob_keeps h new count).2 hq
  · obtain ⟨hinv, hp, hunit, hin⟩ := takeFront_spec h hc
    refine ⟨hinv, hp, fun q => ?_, fun q _ => by rw [hunit]⟩
    rw [hin]
    dsimp only
    split <;> simp_all

/-- `Create` changes no unit, apart from the new ones of another block. -/
theorem Create_unit {pool pool' : TPool type} {new : type} {count p : Nat}
    (hc : pool.Create new count = some (p, pool')) (q : Nat) :
    pool'.unit q = pool.unit q ∨ pool'.unit q = new := by
  have htake : ∀ {pool₀ : TPool type}, pool₀.takeFront = some (p, pool') →
      pool'.unit = pool₀.unit := by
    intro pool₀ ht
    unfold takeFront at ht
    split at ht <;> cases ht
    rfl
  unfold Create at hc
  split at hc
  · rw [htake hc]
    simp only [AllocNewBlob]
    split
    · exact .inr rfl
    · exact .inl rfl
  · exact .inl (by rw [htake hc])

/-- `Create` takes no unit away. -/
theorem Create_allocated {pool pool' : TPool type} {new : type} {count p : Nat}
    (hc : pool.Create new count = some (p, pool')) : pool.allocated ≤ pool'.allocated := by
  have htake : ∀ {pool₀ : TPool type}, pool₀.takeFront = some (p, pool') →
      pool'.allocated = pool₀.allocated := by
    intro pool₀ ht
    unfold takeFront at ht
    split at ht <;> cases ht
    rfl
  unfold Create at hc
  split at hc
  · rw [htake hc]
    exact Nat.le_add_right _ _
  · rw [htake hc]

/-- The free units after `Recover`. -/
theorem mem_Recover {pool : TPool type} (h : pool.Inv) {p q : Nat} :
    q ∈ (pool.Recover p).m_list ↔ q ∈ pool.m_list ∨ (q = p ∧ pool.inUse p = true) := by
  unfold Recover
  split
  · rename_i hp
    simp [hp.2]
  · rename_i hp
    have hfree : ¬ pool.inUse p = true := fun huse => hp ⟨h.used p huse, huse⟩
    simp [hfree]

/-- `Recover` allocates nothing. -/
theorem Recover_allocated (pool : TPool type) (p : Nat) :
    (pool.Recover p).allocated = pool.allocated := by
  unfold Recover
  split <;> rfl

/-- `Recover` does not touch the units. -/
@[simp] theorem Recover_unit (pool : TPool type) (p : Nat) :
    (pool.Recover p).unit = pool.unit := by
  unfold Recover
  split <;> rfl

/-- What `Recover` of a unit in use does. -/
theorem Recover_spec {pool : TPool type} {p : Nat} (h : pool.Inv) (hp : pool.inUse p = true) :
    (pool.Recover p).Inv ∧ (pool.Recover p).unit = pool.unit ∧
      (pool.Recover p).inUse = fun q => if q = p then false else pool.inUse q := by
  have hlt := h.used p hp
  unfold Recover
  rw [if_pos ⟨hlt, hp⟩]
  refine ⟨⟨?_, fun q => ?_, fun q hq => ?_⟩, rfl, rfl⟩
  · refine List.nodup_append.mpr ⟨h.nodup, by simp, ?_⟩
    rintro q hq r hr rfl
    rw [List.mem_singleton] at hr
    subst hr
    exact absurd (hp.symm.trans ((h.free q).mp hq).2) (by decide)
  · rw [List.mem_append, List.mem_singleton, h.free q]
    dsimp only
    by_cases hqp : q = p
    · subst hqp
      simp [hlt]
    · simp [hqp]
  · dsimp only at hq
    split at hq
    · cases hq
    · exact h.used q hq

/-- `Recover` keeps the invariant, whatever it is called on. -/
theorem Recover_inv {pool : TPool type} (h : pool.Inv) (p : Nat) : (pool.Recover p).Inv := by
  by_cases hp : pool.inUse p = true
  · exact (Recover_spec h hp).1
  · rw [Recover, if_neg fun hand => hp hand.2]
    exact h

/-- Several `Recover`s do not touch the units. -/
@[simp] theorem foldl_Recover_unit (pool : TPool type) (ps : List Nat) :
    (ps.foldl Recover pool).unit = pool.unit := by
  induction ps generalizing pool with
  | nil => rfl
  | cons p ps ih => rw [List.foldl_cons, ih, Recover_unit]

/-- `Recover` of each of some units in use, none of them twice. -/
theorem foldl_Recover_spec {pool : TPool type} (h : pool.Inv) {ps : List Nat} (hps : ps.Nodup)
    (huse : ∀ p ∈ ps, pool.inUse p = true) :
    (ps.foldl Recover pool).Inv ∧ (ps.foldl Recover pool).m_list = pool.m_list ++ ps ∧
      ∀ q, (ps.foldl Recover pool).inUse q = true ↔ pool.inUse q = true ∧ q ∉ ps := by
  induction ps generalizing pool with
  | nil => exact ⟨h, (List.append_nil _).symm, fun q => by simp⟩
  | cons p ps ih =>
      obtain ⟨hp, hps'⟩ := List.nodup_cons.mp hps
      have hpuse := huse p List.mem_cons_self
      obtain ⟨hinv, -, hin⟩ := Recover_spec h hpuse
      have hlist : (pool.Recover p).m_list = pool.m_list ++ [p] := by
        rw [Recover, if_pos ⟨h.used p hpuse, hpuse⟩]
      -- The rest is still in use: `p` is not among it.
      have hrest : ∀ q ∈ ps, (pool.Recover p).inUse q = true := by
        intro q hq
        have hne : q ≠ p := fun heq => hp (heq ▸ hq)
        rw [hin]
        exact (if_neg hne).trans (huse q (List.mem_cons_of_mem p hq))
      obtain ⟨hinv', hlist', hin'⟩ := ih hinv hps' hrest
      refine ⟨hinv', ?_, fun q => ?_⟩
      · rw [List.foldl_cons, hlist', hlist, List.append_assoc]
        rfl
      · rw [List.foldl_cons, hin' q, hin]
        by_cases hq : q = p
        · simp [hq]
        · simp [hq]

/-- A write to a unit keeps the invariant. -/
theorem set_inv {pool : TPool type} (h : pool.Inv) (p : Nat) (x : type) : (pool.set p x).Inv :=
  ⟨h.nodup, h.free, h.used⟩

end Kernel4GameServer.TPool
