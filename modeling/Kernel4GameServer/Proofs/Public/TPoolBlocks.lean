import Kernel4GameServer.Lib.History
import Kernel4GameServer.Public.TPoolBlocks

/-!
# `Kernel4GameServer.Proofs.Public.TPoolBlocks`: who owns the units of a pool

`Blocks.Inv` ties the free list, the status of the units and the array of blocks together.
Growing and a write to a status are described by what is behind each pointer afterwards
(`deref_AllocNewBlob`, `deref_setStatus`), and the spec of each call follows from these two.
`pool_ownership` is about any calls one after the other: a pool gives out units that belong to
no caller, and takes back those that do.
-/

set_option autoImplicit false

namespace Kernel4GameServer.TPool

open Lib

variable {type : Type} {sizeof : Nat}

namespace Blocks

/-- The free list, the status of the units and the array of blocks agree. -/
structure Inv (pool : Blocks type sizeof) : Prop where
  array : pool.m_pUnitAry.getD [] = List.range pool.m_sBlockCount
  blocks : pool.heap.length = pool.m_sBlockCount
  len : ∀ p info, pool.deref p = some info → info.len = sizeof
  nodup : pool.m_list.Nodup
  free : ∀ p, p ∈ pool.m_list ↔ pool.status p = some .IS_FREE

/-! ### What is behind the pointers -/

/-- A unit is in one of the blocks. -/
theorem block_lt_of_deref {pool : Blocks type sizeof} {p : UnitPtr} {info : TypeInfo type}
    (h : pool.deref p = some info) : p.block < pool.heap.length := by
  obtain ⟨block, hblock, -⟩ := Option.bind_eq_some_iff.mp h
  exact (List.getElem?_eq_some_iff.mp hblock).1

/-- A write to a status changes the status behind one pointer. -/
theorem deref_setStatus (pool : Blocks type sizeof) (p q : UnitPtr) (s : UnitStatus) :
    (pool.setStatus p s).deref q
      = if q = p then (pool.deref q).map fun info => { info with status := s }
        else pool.deref q := by
  simp only [deref, setStatus, List.getElem?_modify]
  by_cases hb : p.block = q.block
  · rw [hb]
    cases hblock : pool.heap[q.block]? with
    | none => simp
    | some block =>
        by_cases hi : p.i = q.i
        · have hqp : q = p := by
            cases q
            cases p
            simp_all
          subst hqp
          simp
        · have hqp : q ≠ p := fun h => hi (h ▸ rfl)
          simp [hi, hqp]
  · have hqp : q ≠ p := fun h => hb (h ▸ rfl)
    simp [hb, hqp]

/-- A new block is behind the pointers into it; the earlier units stay where they are. -/
theorem deref_AllocNewBlob (pool : Blocks type sizeof) (new : type) (n : Nat) (q : UnitPtr) :
    (pool.AllocNewBlob new n).deref q
      = if q.block = pool.heap.length then
          (if q.i < n then some ⟨new, sizeof, .IS_FREE⟩ else none)
        else pool.deref q := by
  simp only [deref, AllocNewBlob]
  by_cases hb : q.block = pool.heap.length
  · rw [if_pos hb, hb, List.getElem?_concat_length, Option.bind_some, List.getElem?_replicate]
  · rw [if_neg hb]
    rcases Nat.lt_or_gt_of_ne hb with hlt | hgt
    · rw [List.getElem?_append_left hlt]
    · rw [List.getElem?_eq_none (by simp; omega), List.getElem?_eq_none (by omega)]

/-- Growing keeps all earlier units with their states. -/
theorem AllocNewBlob_keeps {pool : Blocks type sizeof} {p : UnitPtr} {info : TypeInfo type}
    (h : pool.deref p = some info) (new : type) (n : Nat) :
    (pool.AllocNewBlob new n).deref p = some info := by
  have hlt := block_lt_of_deref h
  rw [deref_AllocNewBlob, if_neg (by omega), h]

/-- The status of a unit after a write to a status. -/
theorem status_setStatus (pool : Blocks type sizeof) (p q : UnitPtr) (s : UnitStatus) :
    (pool.setStatus p s).status q
      = if q = p then (pool.status q).map fun _ => s else pool.status q := by
  unfold status
  rw [deref_setStatus]
  split
  · rw [Option.map_map, Option.map_map]
    rfl
  · rfl

/-- The status of a unit after growing. -/
theorem status_AllocNewBlob (pool : Blocks type sizeof) (new : type) (n : Nat) (q : UnitPtr) :
    (pool.AllocNewBlob new n).status q
      = if q.block = pool.heap.length then (if q.i < n then some .IS_FREE else none)
        else pool.status q := by
  unfold status
  rw [deref_AllocNewBlob]
  split
  · split <;> rfl
  · rfl

/-! ### The invariant -/

/-- The units of a block that is not there have no status. -/
theorem status_none {pool : Blocks type sizeof} {p : UnitPtr} (h : p.block = pool.heap.length) :
    pool.status p = none := by
  rw [status, deref, h, List.getElem?_eq_none (Nat.le_refl _)]
  rfl

/-- The copy takes all pointers to blocks. -/
theorem Inv.copied_eq {pool : Blocks type sizeof} (h : pool.Inv) :
    pool.copied = List.range pool.m_sBlockCount := by
  have harray := h.array
  unfold copied
  cases hary : pool.m_pUnitAry with
  | none =>
      rw [hary] at harray
      exact harray
  | some ary =>
      rw [hary, Option.getD_some] at harray
      simp [harray]

/-- Another block keeps the invariant. -/
theorem Inv.AllocNewBlob {pool : Blocks type sizeof} (h : pool.Inv) (new : type) (n : Nat) :
    (pool.AllocNewBlob new n).Inv where
  array := by
    show pool.copied ++ [pool.heap.length] = List.range (pool.m_sBlockCount + 1)
    rw [h.copied_eq, h.blocks, List.range_succ]
  blocks := by simp [Blocks.AllocNewBlob, h.blocks]
  len p info hp := by
    rw [deref_AllocNewBlob] at hp
    split at hp
    · split at hp
      · cases hp
        rfl
      · cases hp
    · exact h.len p info hp
  nodup := by
    refine List.nodup_append.mpr ⟨h.nodup, ?_, ?_⟩
    · refine List.Pairwise.map _ (fun i j hij heq => hij ?_) List.nodup_range
      exact congrArg UnitPtr.i heq
    · rintro p hp q hq rfl
      -- A unit of the new block has no status in the old pool, so it is not in its free list.
      obtain ⟨i, -, rfl⟩ := List.mem_map.mp hq
      have hfree := (h.free _).mp hp
      rw [status_none rfl] at hfree
      cases hfree
  free p := by
    rw [status_AllocNewBlob]
    show p ∈ pool.m_list ++ (List.range n).map (UnitPtr.mk pool.heap.length) ↔ _
    rw [List.mem_append, h.free p]
    by_cases hb : p.block = pool.heap.length
    · rw [if_pos hb, status_none hb]
      obtain ⟨block, i⟩ := p
      subst hb
      simp
    · rw [if_neg hb]
      refine or_iff_left fun hmem => ?_
      obtain ⟨i, -, rfl⟩ := List.mem_map.mp hmem
      exact hb rfl

/-- A new pool satisfies the invariant. -/
theorem init_inv (new : type) (size : Nat) : (init new size : Blocks type sizeof).Inv :=
  Inv.AllocNewBlob
    { array := rfl
      blocks := rfl
      len := fun p info hp => by simp [deref] at hp
      nodup := List.nodup_nil
      free := fun p => by simp [status, deref] } new size

/-- A write to the status of a unit, with the free list put right, keeps the invariant. -/
theorem Inv.setStatus {pool : Blocks type sizeof} (h : pool.Inv) {p : UnitPtr} {s : UnitStatus}
    {l : List UnitPtr} (hnodup : l.Nodup)
    (hl : ∀ q, q ∈ l ↔ if q = p then s = .IS_FREE ∧ (pool.deref p).isSome = true
      else q ∈ pool.m_list) :
    ({ pool.setStatus p s with m_list := l } : Blocks type sizeof).Inv where
  array := h.array
  blocks := by
    show (pool.setStatus p s).heap.length = _
    rw [Blocks.setStatus, List.length_modify]
    exact h.blocks
  len q info hq := by
    have hq' : (pool.setStatus p s).deref q = some info := hq
    rw [deref_setStatus] at hq'
    split at hq'
    · obtain ⟨old, hold, rfl⟩ := Option.map_eq_some_iff.mp hq'
      exact h.len q old hold
    · exact h.len q info hq'
  nodup := hnodup
  free q := by
    show q ∈ l ↔ (pool.setStatus p s).status q = _
    rw [hl, status_setStatus]
    split
    · rename_i hqp
      subst hqp
      unfold status
      cases pool.deref q <;> simp
    · exact h.free q

/-! ### The calls -/

/-- What `Create` does when a unit is free: the unit at the front is now in use. -/
theorem takeFront_spec {pool : Blocks type sizeof} (h : pool.Inv) {p : UnitPtr}
    {rest : List UnitPtr} (hl : pool.m_list = p :: rest) :
    ({ pool.setStatus p .IN_USE with m_list := rest } : Blocks type sizeof).Inv ∧
      pool.status p = some .IS_FREE := by
  have hnodup := h.nodup
  rw [hl, List.nodup_cons] at hnodup
  refine ⟨h.setStatus hnodup.2 fun q => ?_, (h.free p).mp (hl ▸ List.mem_cons_self)⟩
  rw [hl, List.mem_cons]
  split
  · rename_i hqp
    subst hqp
    simp [hnodup.1]
  · rename_i hqp
    rw [or_iff_right hqp]

/-- What `Create` does: it gives out a unit that was not in use, and leaves the others as they
are. -/
theorem Create_spec {pool : Blocks type sizeof} (h : pool.Inv) (new : type) {count : Nat}
    (hcount : 0 < count) :
    ∃ p pool', pool.Create new count = (some p, pool') ∧ pool'.Inv ∧
      pool.status p ≠ some .IN_USE ∧ pool'.status p = some .IN_USE ∧
      (∀ q, q ≠ p → (pool'.status q = some .IN_USE ↔ pool.status q = some .IN_USE)) ∧
      ∀ q info, q ≠ p → pool.deref q = some info → pool'.deref q = some info := by
  -- The pool that `Create` takes the front of has the units in use of the given one.
  obtain ⟨mid, p, rest, hl, hcreate, hmid, huse, hkeep⟩ :
      ∃ (mid : Blocks type sizeof) (p : UnitPtr) (rest : List UnitPtr),
        mid.m_list = p :: rest ∧
        pool.Create new count = (some p, { mid.setStatus p .IN_USE with m_list := rest }) ∧
        mid.Inv ∧ (∀ q, mid.status q = some .IN_USE ↔ pool.status q = some .IN_USE) ∧
        ∀ q info, pool.deref q = some info → mid.deref q = some info := by
    cases hlist : pool.m_list with
    | nil =>
        obtain ⟨n, rfl⟩ : ∃ n, count = n + 1 := ⟨count - 1, by omega⟩
        have hfront : (pool.AllocNewBlob new (n + 1)).m_list
            = ⟨pool.heap.length, 0⟩ ::
              ((List.range n).map Nat.succ).map (UnitPtr.mk pool.heap.length) := by
          simp [AllocNewBlob, hlist, List.range_succ_eq_map]
        refine ⟨_, _, _, hfront, ?_, h.AllocNewBlob new _, fun q => ?_, fun q info hq =>
          AllocNewBlob_keeps hq new _⟩
        · simp only [Create, hlist, List.isEmpty_nil, if_true, hfront]
        · rw [status_AllocNewBlob]
          split
          · rename_i hb
            rw [status_none hb]
            split <;> simp
          · exact Iff.rfl
    | cons p rest =>
        refine ⟨pool, p, rest, hlist, ?_, h, fun q => Iff.rfl, fun q info hq => hq⟩
        simp [Create, hlist]
  obtain ⟨hinv, hfree⟩ := takeFront_spec hmid hl
  refine ⟨p, _, hcreate, hinv, ?_, ?_, fun q hq => ?_, fun q info hq hd => ?_⟩
  · intro hp
    rw [← huse, hfree] at hp
    cases hp
  · show (mid.setStatus p .IN_USE).status p = _
    rw [status_setStatus, if_pos rfl, hfree]
    rfl
  · show (mid.setStatus p .IN_USE).status q = _ ↔ _
    rw [status_setStatus, if_neg hq, huse]
  · show (mid.setStatus p .IN_USE).deref q = _
    rw [deref_setStatus, if_neg hq]
    exact hkeep q info hd

/-- `Recover` of a unit that is not in use returns false and changes nothing. -/
theorem Recover_free {pool : Blocks type sizeof} {p : UnitPtr} {ret : Bool}
    {pool' : Blocks type sizeof} (hr : pool.Recover p = some (ret, pool'))
    (hp : pool.status p ≠ some .IN_USE) : ret = false ∧ pool' = pool := by
  obtain ⟨info, hinfo, hr⟩ := Option.map_eq_some_iff.mp hr
  have hstatus : info.status ≠ .IN_USE := fun heq => hp (by rw [status, hinfo, ← heq]; rfl)
  rw [if_pos (by simp [hstatus])] at hr
  cases hr
  exact ⟨rfl, rfl⟩

/-- `Recover` of a unit in use returns true and frees the unit. -/
theorem Recover_used {pool : Blocks type sizeof} (h : pool.Inv) {p : UnitPtr} {ret : Bool}
    {pool' : Blocks type sizeof} (hr : pool.Recover p = some (ret, pool'))
    (hp : pool.status p = some .IN_USE) :
    ret = true ∧ pool'.Inv ∧ pool'.status p = some .IS_FREE ∧
      ∀ q, q ≠ p → pool'.deref q = pool.deref q := by
  obtain ⟨info, hinfo, hr⟩ := Option.map_eq_some_iff.mp hr
  have hstatus : info.status = .IN_USE := by
    rw [status, hinfo] at hp
    exact Option.some.inj hp
  rw [if_neg (by simp [CheckAddr, h.len p info hinfo, hstatus])] at hr
  cases hr
  have hnot : p ∉ pool.m_list := fun hin => by
    rw [h.free, hp] at hin
    cases hin
  refine ⟨rfl, h.setStatus ?_ fun q => ?_, ?_, fun q hq => ?_⟩
  · refine List.nodup_append.mpr ⟨h.nodup, by simp, ?_⟩
    rintro q hq r hr rfl
    exact hnot (List.mem_singleton.mp hr ▸ hq)
  · rw [List.mem_append, List.mem_singleton]
    split
    · rename_i hqp
      simp [hqp, hinfo]
    · rename_i hqp
      rw [or_iff_left hqp]
  · show (pool.setStatus p .IS_FREE).status p = _
    rw [status_setStatus, if_pos rfl, hp]
    rfl
  · show (pool.setStatus p .IS_FREE).deref q = _
    rw [deref_setStatus, if_neg hq]

/-- What is behind a pointer decides its status. -/
theorem status_congr {pool pool' : Blocks type sizeof} {p : UnitPtr}
    (h : pool'.deref p = pool.deref p) : pool'.status p = pool.status p := by
  rw [status, h, status]

end Blocks

/-! ### Any calls one after the other -/

/-- The owner of a unit after one more call. -/
theorem owns_snoc (log : List PoolEvent) (e : PoolEvent) (q : UnitPtr) :
    owns (log ++ [e]) q = e.owned q (owns log q) := by
  rw [owns, List.foldl_append]
  rfl

/-- The units in use are those that belong to a caller, and all calls so far were answered as
the owners say. -/
structure PoolRun.Inv (st : PoolRun type sizeof) : Prop where
  pool : st.pool.Inv
  used : ∀ p, st.pool.status p = some .IN_USE ↔ owns st.log p = true
  log : Always (fun log e => PoolEvent.Ok (owns log) e) st.log

/-- A new pool satisfies the invariant. -/
theorem PoolRun.init_inv (new : type) (size : Nat) :
    (PoolRun.init new size : PoolRun type sizeof).Inv where
  pool := Blocks.init_inv new size
  used p := by
    show (Blocks.init new size : Blocks type sizeof).status p = _ ↔ false = true
    rw [Blocks.init, Blocks.status_AllocNewBlob, Blocks.status, Blocks.deref]
    split
    · split <;> simp
    · simp
  log := always_nil

/-- Each call keeps the invariant. -/
theorem PoolRun.Inv.step {count : Nat} (hcount : 0 < count) {st st' : PoolRun type sizeof}
    {c : PoolCall type} (h : st.Inv) (hstep : st.step count c = some st') : st'.Inv := by
  cases c with
  | Create new =>
      obtain ⟨p, pool', hcreate, hinv, hbefore, hafter, hothers, -⟩ :=
        Blocks.Create_spec h.pool new hcount
      rw [PoolRun.step, hcreate, Option.some.injEq] at hstep
      subst hstep
      refine ⟨hinv, fun q => ?_, always_snoc.mpr ⟨h.log, p, rfl, ?_⟩⟩
      · rw [owns_snoc]
        by_cases hqp : q = p
        · subst hqp
          simp [PoolEvent.owned, hafter]
        · rw [hothers q hqp, h.used q]
          simp [PoolEvent.owned, Ne.symm hqp]
      · rw [← Bool.not_eq_true, ← h.used p]
        exact hbefore
  | Recover p =>
      obtain ⟨⟨ret, pool'⟩, hr, rfl⟩ := Option.map_eq_some_iff.mp hstep
      -- `Recover` returns whether the unit was in use.
      by_cases hp : st.pool.status p = some .IN_USE
      · obtain ⟨rfl, hinv, hafter, hothers⟩ := Blocks.Recover_used h.pool hr hp
        refine ⟨hinv, fun q => ?_, always_snoc.mpr ⟨h.log, ((h.used p).mp hp).symm⟩⟩
        rw [owns_snoc]
        by_cases hqp : q = p
        · subst hqp
          simp [PoolEvent.owned, hafter]
        · rw [Blocks.status_congr (hothers q hqp), h.used q]
          simp [PoolEvent.owned, Ne.symm hqp]
      · obtain ⟨rfl, rfl⟩ := Blocks.Recover_free hr hp
        have howns : owns st.log p = false := by
          rw [← Bool.not_eq_true, ← h.used p]
          exact hp
        refine ⟨h.pool, fun q => ?_, always_snoc.mpr ⟨h.log, howns.symm⟩⟩
        rw [owns_snoc, h.used q]
        by_cases hqp : q = p
        · subst hqp
          simp [PoolEvent.owned, howns]
        · simp [PoolEvent.owned, Ne.symm hqp]

/-- The ownership of the units of a pool, for any calls one after the other. The free list
holds exactly the free units, each once, and every block is in the array. Every unit is free
or belongs to a caller. Every `Create` gave out a unit that belonged to no caller, and every
`Recover` returned whether its unit belonged to one; a `Recover` that returns false changes
nothing, one that returns true frees its unit only. Growing keeps the units with their
states. -/
theorem pool_ownership {count : Nat} (hcount : 0 < count) (new : type) (size : Nat)
    {calls : List (PoolCall type)} {st : PoolRun type sizeof}
    (h : run (PoolRun.step count) (PoolRun.init new size) calls = some st) :
    st.pool.m_list.Nodup ∧ (∀ p, p ∈ st.pool.m_list ↔ st.pool.status p = some .IS_FREE) ∧
      st.pool.m_pUnitAry.getD [] = List.range st.pool.heap.length ∧
      (∀ p, (st.pool.deref p).isSome = true → p ∈ st.pool.m_list ∨ owns st.log p = true) ∧
      (∀ p, owns st.log p = true ↔ st.pool.status p = some .IN_USE) ∧
      Always (fun log e => PoolEvent.Ok (owns log) e) st.log ∧
      (∀ p ret pool', st.pool.Recover p = some (ret, pool') →
        ret = owns st.log p ∧ (ret = false → pool' = st.pool) ∧
          (ret = true → pool'.status p = some .IS_FREE ∧
            ∀ q, q ≠ p → pool'.deref q = st.pool.deref q)) ∧
      (∀ new', ∃ p pool', st.pool.Create new' count = (some p, pool') ∧ owns st.log p = false ∧
        ∀ q info, q ≠ p → st.pool.deref q = some info → pool'.deref q = some info) ∧
      ∀ new' n p info, st.pool.deref p = some info →
        (st.pool.AllocNewBlob new' n).deref p = some info := by
  have hinv : st.Inv := run_invariant (I := PoolRun.Inv) (fun _ _ _ h hs => h.step hcount hs)
    (PoolRun.init_inv new size) h
  refine ⟨hinv.pool.nodup, hinv.pool.free, ?_, fun p hp => ?_, fun p => (hinv.used p).symm,
    hinv.log, fun p ret pool' hr => ?_, fun new' => ?_, fun new' n p info hp =>
      Blocks.AllocNewBlob_keeps hp new' n⟩
  · rw [hinv.pool.array, hinv.pool.blocks]
  · obtain ⟨info, hinfo⟩ := Option.isSome_iff_exists.mp hp
    rw [hinv.pool.free, ← hinv.used]
    have hstatus : st.pool.status p = some info.status := by
      rw [Blocks.status, hinfo]
      rfl
    rw [hstatus]
    -- A unit is in use or free, and in use means that it has an owner.
    cases info.status
    · exact .inr rfl
    · exact .inl rfl
  · by_cases hp : st.pool.status p = some .IN_USE
    · obtain ⟨rfl, -, hafter, hothers⟩ := Blocks.Recover_used hinv.pool hr hp
      exact ⟨((hinv.used p).mp hp).symm, nofun, fun _ => ⟨hafter, hothers⟩⟩
    · obtain ⟨rfl, rfl⟩ := Blocks.Recover_free hr hp
      refine ⟨?_, fun _ => rfl, nofun⟩
      rw [eq_comm, ← Bool.not_eq_true, ← hinv.used p]
      exact hp
  · obtain ⟨p, pool', hcreate, -, hbefore, -, -, hkeep⟩ :=
      Blocks.Create_spec hinv.pool new' hcount
    refine ⟨p, pool', hcreate, ?_, hkeep⟩
    rw [← Bool.not_eq_true, ← hinv.used p]
    exact hbefore

/-- A pool with blocks of one unit that grows: its second unit is given back twice, and the
second time `Recover` returns false. -/
theorem pool_ownership_double_free :
    ∃ st : PoolRun Nat 8,
      run (PoolRun.step 1) (PoolRun.init 0 1)
          [.Create 0, .Create 0, .Recover ⟨1, 0⟩, .Recover ⟨1, 0⟩] = some st ∧
        st.log = [.created (some ⟨0, 0⟩), .created (some ⟨1, 0⟩), .recovered ⟨1, 0⟩ true,
          .recovered ⟨1, 0⟩ false] ∧
        ∀ p, p ∈ st.pool.m_list ↔ st.pool.status p = some .IS_FREE :=
  ⟨_, rfl, rfl, (@pool_ownership Nat 8 1 (by decide) 0 1
    [.Create 0, .Create 0, .Recover ⟨1, 0⟩, .Recover ⟨1, 0⟩] _ rfl).2.1⟩

end Kernel4GameServer.TPool
