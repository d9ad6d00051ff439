import Mathlib.Data.List.Nodup
import Kernel4GameServer.Proofs.Public.TPoolBlocks
import Kernel4GameServer.Public.TPoolThreads

/-!
# `Kernel4GameServer.Proofs.Public.TPoolThreads`: what two threads can do to a locked pool

The test that rejects a unit which is not in use stands in front of the lock. Two threads that
both pass it both free the unit, and the second one frees it a second time, or frees it while it
belongs to the next owner.

* `Recover_eq`: one thread alone sees the two steps of `Recover` as the whole call.
* `Owned`: the units in use are those of a live ownership, and every thread behind its check is
  in the ownership it looked at unless another one got in between.
* `Safe.step_iff`: a step keeps the pool safe exactly when it meets `Undisturbed`, and
  `safe_iff` says so of runs.
-/

set_option autoImplicit false

namespace Kernel4GameServer.TPool

open Lib

variable {type : Type} {sizeof : Nat}

namespace Blocks

/-- `Recover` is its check and then its locked section. -/
theorem Recover_eq (pool : Blocks type sizeof) (p : UnitPtr) :
    pool.Recover p
      = (pool.recoverCheck p).map fun inUse =>
          if inUse then (true, pool.recoverLocked p) else (false, pool) := by
  rw [Recover, recoverCheck, Option.map_map]
  congr 1
  funext info
  cases hlen : CheckAddr sizeof info <;> by_cases hstatus : info.status = .IN_USE <;>
    simp [hlen, hstatus, recoverLocked]

/-- The check passes for the units in use. -/
theorem recoverCheck_eq {pool : Blocks type sizeof} (h : pool.Inv) {p : UnitPtr} {inUse : Bool}
    (hc : pool.recoverCheck p = some inUse) : inUse = true ↔ pool.status p = some .IN_USE := by
  obtain ⟨info, hinfo, rfl⟩ := Option.map_eq_some_iff.mp hc
  have hlen := h.len p info hinfo
  rw [status, hinfo]
  simp [CheckAddr, hlen]

/-- The locked section frees a unit in use. -/
theorem recoverLocked_spec {pool : Blocks type sizeof} (h : pool.Inv) {p : UnitPtr}
    (hp : pool.status p = some .IN_USE) :
    (pool.recoverLocked p).Inv ∧ (pool.recoverLocked p).status p = some .IS_FREE ∧
      ∀ q, q ≠ p → (pool.recoverLocked p).status q = pool.status q := by
  have hcheck : pool.recoverCheck p = some true := by
    obtain ⟨info, hinfo, hstatus⟩ := Option.map_eq_some_iff.mp hp
    rw [recoverCheck, hinfo]
    simp [CheckAddr, h.len p info hinfo, hstatus]
  have hr : pool.Recover p = some (true, pool.recoverLocked p) := by
    rw [Recover_eq, hcheck]
    rfl
  obtain ⟨-, hinv, hfree, hothers⟩ := Recover_used h hr hp
  exact ⟨hinv, hfree, fun q hq => status_congr (hothers q hq)⟩

end Blocks

namespace PoolThreads

/-- The pool is safe: no unit is in the free list twice, none has two owners, and at most one
`Recover` of an ownership returned true. -/
structure Safe (st : PoolThreads type sizeof) : Prop where
  free_once : st.pool.m_list.Nodup
  one_owner : (st.live.map Prod.fst).Nodup
  ended_once : st.ended.Nodup

/-- Between the check and the locked section of a `Recover` no other `Recover` of the unit ran
its locked section. -/
def Undisturbed (st : PoolThreads type sizeof) : PoolAction type → Prop
  | .locked t =>
      match st.thread t with
      | .idle => True
      | .checked p _ seen => st.recovers p = seen
  | _ => True

/-- What the units, the ownerships and the threads have to do with one another. -/
structure Owned (st : PoolThreads type sizeof) : Prop where
  pool : st.pool.Inv
  used : ∀ p, st.pool.status p = some .IN_USE ↔ ∃ n, (p, n) ∈ st.live
  current : ∀ p n, (p, n) ∈ st.live → n = st.handed p
  ended_le : ∀ p n, (p, n) ∈ st.ended → n ≤ st.handed p
  running : ∀ x ∈ st.live, x ∉ st.ended
  seen_le : ∀ t p own seen, st.thread t = .checked p own seen → seen ≤ st.recovers p
  quiet : ∀ t p own seen, st.thread t = .checked p own seen → st.recovers p = seen →
    (p, own) ∈ st.live
  disturbed : ∀ t p own seen, st.thread t = .checked p own seen → st.recovers p ≠ seen →
    (p, own) ∈ st.ended

/-- A new pool is safe. -/
theorem init_safe (new : type) (size : Nat) : (init new size : PoolThreads type sizeof).Safe where
  free_once := (Blocks.init_inv new size).nodup
  one_owner := List.nodup_nil
  ended_once := List.nodup_nil

/-- No unit of a new pool is in use. -/
theorem init_owned (new : type) (size : Nat) : (init new size : PoolThreads type sizeof).Owned where
  pool := Blocks.init_inv new size
  used p := by
    show (Blocks.init new size : Blocks type sizeof).status p = _ ↔ ∃ n, (p, n) ∈ []
    rw [Blocks.init, Blocks.status_AllocNewBlob, Blocks.status, Blocks.deref]
    split
    · split <;> simp
    · simp
  current p n h := by cases h
  ended_le p n h := by cases h
  running x h := by cases h
  seen_le t p own seen h := by cases h
  quiet t p own seen h := by cases h
  disturbed t p own seen h := by cases h

/-- `Create` hands out a unit without an owner. -/
theorem Owned.create {st : PoolThreads type sizeof} (h : st.Owned) {pool' : Blocks type sizeof}
    {p : UnitPtr} (hinv : pool'.Inv) (hbefore : st.pool.status p ≠ some .IN_USE)
    (hafter : pool'.status p = some .IN_USE)
    (hothers : ∀ q, q ≠ p → (pool'.status q = some .IN_USE ↔ st.pool.status q = some .IN_USE)) :
    Owned { st with
      pool := pool'
      handed := countUp st.handed p
      live := (p, st.handed p + 1) :: st.live } := by
  -- A unit that was not in use has no live ownership.
  have hnone : ∀ n, (p, n) ∉ st.live := fun n hn => hbefore ((h.used p).mpr ⟨n, hn⟩)
  refine
    { pool := hinv
      used := fun q => ?_
      current := fun q n hn => ?_
      ended_le := fun q n hn => ?_
      running := fun x hx => ?_
      seen_le := h.seen_le
      quiet := fun t q own seen ht hseen => List.mem_cons_of_mem _ (h.quiet t q own seen ht hseen)
      disturbed := h.disturbed }
  · by_cases hq : q = p
    · subst hq
      exact iff_of_true hafter ⟨_, List.mem_cons_self⟩
    · rw [hothers q hq, h.used q]
      simp [hq]
  · show n = countUp st.handed p q
    unfold countUp
    rcases List.mem_cons.mp hn with heq | hn
    · cases heq
      rw [if_pos rfl]
    · have hq : q ≠ p := fun heq => hnone n (heq ▸ hn)
      rw [if_neg hq]
      exact h.current q n hn
  · have hle := h.ended_le q n hn
    show n ≤ countUp st.handed p q
    unfold countUp
    split <;> omega
  · rcases List.mem_cons.mp hx with rfl | hx
    · -- The new ownership has a number past those that have ended.
      intro hended
      have := h.ended_le _ _ hended
      omega
    · exact h.running x hx

/-- A check that passes looks at a live ownership. -/
theorem Owned.check {st : PoolThreads type sizeof} (h : st.Owned) (t : Nat) {p : UnitPtr}
    (hp : st.pool.status p = some .IN_USE) :
    Owned { st with thread := st.goto t (.checked p (st.handed p) (st.recovers p)) } := by
  obtain ⟨n, hn⟩ := (h.used p).mp hp
  have hlive : (p, st.handed p) ∈ st.live := h.current p n hn ▸ hn
  have hthread : ∀ u q own seen, st.goto t (.checked p (st.handed p) (st.recovers p)) u
      = .checked q own seen →
      (q = p ∧ own = st.handed p ∧ seen = st.recovers p) ∨ st.thread u = .checked q own seen := by
    intro u q own seen hu
    unfold goto at hu
    split at hu
    · cases hu
      exact .inl ⟨rfl, rfl, rfl⟩
    · exact .inr hu
  refine { h with seen_le := ?_, quiet := ?_, disturbed := ?_ }
  · intro u q own seen hu
    rcases hthread u q own seen hu with ⟨rfl, rfl, rfl⟩ | hold
    · exact Nat.le_refl _
    · exact h.seen_le u q own seen hold
  · intro u q own seen hu hseen
    rcases hthread u q own seen hu with ⟨rfl, rfl, rfl⟩ | hold
    · exact hlive
    · exact h.quiet u q own seen hold hseen
  · intro u q own seen hu hseen
    rcases hthread u q own seen hu with ⟨rfl, rfl, rfl⟩ | hold
    · exact absurd rfl hseen
    · exact h.disturbed u q own seen hold hseen

/-- The locked section of a `Recover` that nothing got in between of ends its ownership. -/
theorem Owned.locked {st : PoolThreads type sizeof} (h : st.Owned) (hs : st.Safe) {t : Nat}
    {p : UnitPtr} {own seen : Nat} (ht : st.thread t = .checked p own seen)
    (hseen : st.recovers p = seen) :
    Owned { st with
      pool := st.pool.recoverLocked p
      thread := st.goto t .idle
      recovers := countUp st.recovers p
      live := st.live.erase (p, own)
      ended := (p, own) :: st.ended } := by
  have hlive := h.quiet t p own seen ht hseen
  have hnodup : st.live.Nodup := List.Nodup.of_map Prod.fst hs.one_owner
  have hown : own = st.handed p := h.current p own hlive
  obtain ⟨hinv, hfree, hothers⟩ := Blocks.recoverLocked_spec h.pool ((h.used p).mpr ⟨own, hlive⟩)
  have hthread : ∀ u q own' seen', st.goto t .idle u = .checked q own' seen' →
      st.thread u = .checked q own' seen' := by
    intro u q own' seen' hu
    unfold goto at hu
    split at hu
    · cases hu
    · exact hu
  refine
    { pool := hinv
      used := fun q => ?_
      current := fun q n hn => h.current q n (List.mem_of_mem_erase hn)
      ended_le := fun q n hn => ?_
      running := fun x hx => ?_
      seen_le := fun u q own' seen' hu => ?_
      quiet := fun u q own' seen' hu hq => ?_
      disturbed := fun u q own' seen' hu hq => ?_ }
  · by_cases hq : q = p
    · subst hq
      refine iff_of_false (by rw [hfree]; decide) ?_
      rintro ⟨n, hn⟩
      -- Another live ownership of the unit would be the same one.
      have hmem := List.mem_of_mem_erase hn
      rw [h.current q n hmem, ← hown] at hn
      exact hnodup.not_mem_erase hn
    · rw [hothers q hq, h.used q]
      refine exists_congr fun n => ?_
      rw [List.mem_erase_of_ne fun heq => hq (congrArg Prod.fst heq)]
  · rcases List.mem_cons.mp hn with heq | hn
    · cases heq
      exact Nat.le_of_eq hown
    · exact h.ended_le q n hn
  · intro hended
    rcases List.mem_cons.mp hended with rfl | hended
    · exact hnodup.not_mem_erase hx
    · exact h.running x (List.mem_of_mem_erase hx) hended
  · have hle := h.seen_le u q own' seen' (hthread u q own' seen' hu)
    show seen' ≤ countUp st.recovers p q
    unfold countUp
    split <;> omega
  · have hold := hthread u q own' seen' hu
    have hle := h.seen_le u q own' seen' hold
    have hcount : (if q = p then st.recovers q + 1 else st.recovers q) = seen' := hq
    have hne : q ≠ p := by
      intro heq
      rw [if_pos heq] at hcount
      omega
    rw [if_neg hne] at hcount
    rw [List.mem_erase_of_ne fun heq => hne (congrArg Prod.fst heq)]
    exact h.quiet u q own' seen' hold hcount
  · have hold := hthread u q own' seen' hu
    by_cases hsame : st.recovers q = seen'
    · -- The section that got in between is this one.
      have hcount : (if q = p then st.recovers q + 1 else st.recovers q) ≠ seen' := hq
      have hqp : q = p := by
        by_contra hne
        rw [if_neg hne] at hcount
        exact hcount hsame
      subst hqp
      have hcur := h.current q own' (h.quiet u q own' seen' hold hsame)
      rw [hcur, ← hown]
      exact List.mem_cons_self
    · exact List.mem_cons_of_mem _ (h.disturbed u q own' seen' hold hsame)

/-- A step of a safe pool that meets `Undisturbed` keeps the ownerships right. -/
theorem Owned.step {count : Nat} (hcount : 0 < count) {st st' : PoolThreads type sizeof}
    {a : PoolAction type} (h : st.Owned) (hs : st.Safe) (hu : st.Undisturbed a)
    (hstep : st.step count a = some st') : st'.Owned := by
  cases a with
  | Create t new =>
      obtain ⟨p, pool', hcreate, hinv, hbefore, hafter, hothers, -⟩ :=
        Blocks.Create_spec h.pool new hcount
      simp only [PoolThreads.step, hcreate] at hstep
      split at hstep
      · cases hstep
        exact h.create hinv hbefore hafter hothers
      · cases hstep
  | check t p =>
      simp only [PoolThreads.step] at hstep
      split at hstep
      · obtain ⟨inUse, hcheck, rfl⟩ := Option.map_eq_some_iff.mp hstep
        split
        · rename_i hpass
          exact h.check t ((Blocks.recoverCheck_eq h.pool hcheck).mp hpass)
        · exact h
      · cases hstep
  | locked t =>
      simp only [PoolThreads.step] at hstep
      split at hstep
      · cases hstep
      · rename_i p own seen ht
        cases hstep
        simp only [Undisturbed, ht] at hu
        exact h.locked hs ht hu

/-- A step keeps the pool safe exactly when it meets `Undisturbed`. -/
theorem Safe.step_iff {count : Nat} (hcount : 0 < count) {st st' : PoolThreads type sizeof}
    {a : PoolAction type} (h : st.Owned) (hs : st.Safe)
    (hstep : st.step count a = some st') : st'.Safe ↔ st.Undisturbed a := by
  cases a with
  | Create t new =>
      obtain ⟨p, pool', hcreate, hinv, hbefore, -, -, -⟩ :=
        Blocks.Create_spec h.pool new hcount
      simp only [PoolThreads.step, hcreate] at hstep
      split at hstep
      · cases hstep
        refine iff_of_true ⟨hinv.nodup, ?_, hs.ended_once⟩ trivial
        rw [List.map_cons]
        refine List.nodup_cons.mpr ⟨fun hmem => ?_, hs.one_owner⟩
        obtain ⟨⟨q, n⟩, hlive, rfl⟩ := List.mem_map.mp hmem
        exact hbefore ((h.used q).mpr ⟨n, hlive⟩)
      · cases hstep
  | check t p =>
      simp only [PoolThreads.step] at hstep
      split at hstep
      · obtain ⟨inUse, -, rfl⟩ := Option.map_eq_some_iff.mp hstep
        refine iff_of_true ?_ trivial
        split
        · exact ⟨hs.free_once, hs.one_owner, hs.ended_once⟩
        · exact hs
      · cases hstep
  | locked t =>
      simp only [PoolThreads.step] at hstep
      split at hstep
      · cases hstep
      · rename_i p own seen ht
        cases hstep
        simp only [Undisturbed, ht]
        constructor
        · -- Had another section run on the unit, its ownership would be over already.
          intro hsafe
          by_contra hne
          exact (List.nodup_cons.mp hsafe.ended_once).1 (h.disturbed t p own seen ht hne)
        · intro hseen
          have hlive := h.quiet t p own seen ht hseen
          refine ⟨(h.locked hs ht hseen).pool.nodup, ?_, ?_⟩
          · exact hs.one_owner.sublist (List.erase_sublist.map _)
          · exact List.nodup_cons.mpr ⟨h.running _ hlive, hs.ended_once⟩

/-- The locked pool. In a run of any number of threads the free list holds no unit twice, no
unit has two owners and at most one `Recover` of each ownership returned true, in every state,
exactly when no `Recover` has the locked section of another one on its unit between its check and
its own locked section. -/
theorem safe_iff {count : Nat} (hcount : 0 < count) (new : type) (size : Nat)
    {as : List (PoolAction type)} {st : PoolThreads type sizeof}
    (hrun : run (step count) (init new size) as = some st) :
    Throughout (step count) Safe (init new size : PoolThreads type sizeof) as
      ↔ AllSteps (step count) Undisturbed (init new size : PoolThreads type sizeof) as :=
  throughout_iff (I := Owned) (fun _ _ _ h hs hstep => Safe.step_iff hcount h hs hstep)
    (fun _ _ _ h hs hs' hstep => h.step hcount hs ((Safe.step_iff hcount h hs hstep).mp hs') hstep)
    (init_owned new size) (init_safe new size) hrun

instance (st : PoolThreads type sizeof) : ∀ a, Decidable (st.Undisturbed a)
  | .Create _ _ | .check _ _ => isTrue trivial
  | .locked t =>
      match ht : st.thread t with
      | .idle => isTrue (by simp [Undisturbed, ht])
      | .checked p _ seen =>
          decidable_of_iff (st.recovers p = seen) (by simp [Undisturbed, ht])

/-- Two threads give a unit back one after the other: the second one is turned away. -/
def inTurn : List (PoolAction Nat) :=
  [.Create 0 0, .check 0 ⟨0, 0⟩, .locked 0, .check 1 ⟨0, 0⟩, .Create 1 0]

/-- The pool is safe on the way. -/
theorem safe_inTurn :
    ∃ st : PoolThreads Nat 8, run (step 1) (init 0 1) inTurn = some st ∧
      Throughout (step 1) Safe (init 0 1 : PoolThreads Nat 8) inTurn := by
  obtain ⟨st, hst⟩ : ∃ st : PoolThreads Nat 8, run (step 1) (init 0 1) inTurn = some st := ⟨_, rfl⟩
  exact ⟨st, hst, (safe_iff (by decide) 0 1 hst).mpr (by decide)⟩

/-- Two threads give a unit back at the same time: both checks come before both locked sections.
Both calls return true, the unit is in the free list twice, and the next two calls of `Create`
hand it to two owners. -/
theorem recover_twice :
    ∃ st st' : PoolThreads Nat 8,
      run (step 1) (init 0 1)
          [.Create 0 0, .check 0 ⟨0, 0⟩, .check 1 ⟨0, 0⟩, .locked 0, .locked 1] = some st ∧
        st.pool.m_list = [⟨0, 0⟩, ⟨0, 0⟩] ∧ st.ended = [(⟨0, 0⟩, 1), (⟨0, 0⟩, 1)] ∧
      run (step 1) st [.Create 2 0, .Create 3 0] = some st' ∧
        st'.live = [(⟨0, 0⟩, 3), (⟨0, 0⟩, 2)] ∧ ¬ st.Safe ∧ ¬ st'.Safe :=
  ⟨_, _, rfl, rfl, rfl, rfl, rfl, fun h => absurd h.free_once (by decide),
    fun h => absurd h.one_owner (by decide)⟩

end PoolThreads

end Kernel4GameServer.TPool
