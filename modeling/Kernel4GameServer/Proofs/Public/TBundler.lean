import Kernel4GameServer.Public.TBundler

/-!
# `Kernel4GameServer.Proofs.Public.TBundler`: entries, marks and delete nodes

What the parts of the `bundler_pool` operations do to three things: the entries of each list,
the handlers that are bound (`live`), and the nodes in `m_delete_list`. The operations are made
of `push`, `mark`, `dropNode` and, in `reflush`, of many `deleted`.

`Inv` is what every run keeps: an id that is no key has no entries, a handler has one entry for
an id, and every marked entry has a node in `m_delete_list`.
-/

set_option autoImplicit false
set_option linter.unusedSectionVars false

namespace Kernel4GameServer

open Lib

namespace BundlerPool

variable {ID_TYPE t member_fun : Type} [DecidableEq ID_TYPE] [DecidableEq t]
  [DecidableEq member_fun]

/-! ### The handlers of a list that are not marked -/

/-- The handlers of the entries that are not marked, in order. -/
def liveOf (ns : List (Nat × Bundler t member_fun)) : List (t × member_fun) :=
  (ns.filter fun x => !x.2.m_deleted).map fun x => x.2.handler

/-- The handlers that are bound for an id. -/
def live (pool : BundlerPool ID_TYPE t member_fun) (id : ID_TYPE) : List (t × member_fun) :=
  liveOf (pool.lists id).nodes

section LiveOf

variable {ns : List (Nat × Bundler t member_fun)}

theorem mem_liveOf {h : t × member_fun} :
    h ∈ liveOf ns ↔ ∃ i b, (i, b) ∈ ns ∧ b.handler = h ∧ b.m_deleted = false := by
  simp only [liveOf, List.mem_map, List.mem_filter, Bool.not_eq_true', Prod.exists]
  constructor
  · rintro ⟨i, b, ⟨hmem, hdel⟩, rfl⟩
    exact ⟨i, b, hmem, rfl, hdel⟩
  · rintro ⟨i, b, hmem, rfl, hdel⟩
    exact ⟨i, b, ⟨hmem, hdel⟩, rfl⟩

theorem liveOf_append (ms : List (Nat × Bundler t member_fun)) :
    liveOf (ns ++ ms) = liveOf ns ++ liveOf ms := by
  simp [liveOf]

/-- Marking the entries with a property takes their handlers away. -/
theorem liveOf_map {f : Nat × Bundler t member_fun → Nat × Bundler t member_fun}
    {p : t × member_fun → Bool}
    (hmark : ∀ x ∈ ns, p x.2.handler = true → (f x).2.m_deleted = true)
    (hkeep : ∀ x ∈ ns, p x.2.handler = false → f x = x) :
    liveOf (ns.map f) = (liveOf ns).filter fun h => !p h := by
  induction ns with
  | nil => rfl
  | cons x ns ih =>
      have hrest := ih (fun y hy => hmark y (List.mem_cons_of_mem x hy))
        fun y hy => hkeep y (List.mem_cons_of_mem x hy)
      have hsplit : ∀ y (ms : List (Nat × Bundler t member_fun)),
          liveOf (y :: ms) = liveOf [y] ++ liveOf ms := fun y ms => by
            rw [← liveOf_append]
            rfl
      rw [List.map_cons, hsplit, hsplit x, List.filter_append, hrest]
      congr 1
      cases hp : p x.2.handler with
      | true =>
          have hdel := hmark x List.mem_cons_self hp
          cases hx : x.2.m_deleted <;> simp [liveOf, hdel, hx, hp]
      | false =>
          rw [hkeep x List.mem_cons_self hp]
          cases hx : x.2.m_deleted <;> simp [liveOf, hx, hp]

/-- Erasing marked entries changes no bound handler. -/
theorem liveOf_filter {q : Nat × Bundler t member_fun → Bool}
    (h : ∀ x ∈ ns, q x = false → x.2.m_deleted = true) : liveOf (ns.filter q) = liveOf ns := by
  rw [liveOf, liveOf, List.filter_filter]
  congr 1
  refine List.filter_congr fun x hx => ?_
  cases hq : q x with
  | true => simp
  | false => simp [h x hx hq]

end LiveOf

/-! ### The lists after each part -/

/-- The lists after one is set. -/
theorem lists_set (pool : BundlerPool ID_TYPE t member_fun) (id id' : ID_TYPE)
    (l : NodeList (Bundler t member_fun)) :
    (pool.set id l).lists id' = if id' = id then l else pool.lists id' := rfl

/-- The entries after one is pushed. -/
theorem mem_push {pool : BundlerPool ID_TYPE t member_fun} {id id' : ID_TYPE}
    {h : t × member_fun} {x : Nat × Bundler t member_fun} :
    x ∈ ((pool.push id h).lists id').nodes ↔
      x ∈ (pool.lists id').nodes ∨
        id' = id ∧ x = ((pool.lists id).fresh, ⟨h.1, h.2, false⟩) := by
  rw [push, lists_set]
  split
  · rename_i hid
    subst hid
    simp
  · rename_i hid
    simp [hid]

/-- The bound handlers after one is pushed. -/
theorem live_push (pool : BundlerPool ID_TYPE t member_fun) (id id' : ID_TYPE)
    (h : t × member_fun) :
    (pool.push id h).live id' = if id' = id then pool.live id ++ [h] else pool.live id' := by
  rw [live, push, lists_set]
  split
  · exact liveOf_append _
  · rfl

/-- The entries after one is marked. -/
theorem mem_mark {pool : BundlerPool ID_TYPE t member_fun} {id id' : ID_TYPE} {i j : Nat}
    {b : Bundler t member_fun} :
    (j, b) ∈ ((pool.mark id i).lists id').nodes ↔
      if id' = id ∧ j = i then
        ∃ b₀, (j, b₀) ∈ (pool.lists id').nodes ∧ b = { b₀ with m_deleted := true }
      else (j, b) ∈ (pool.lists id').nodes := by
  show (j, b) ∈ ((pool.set id _).lists id').nodes ↔ _
  rw [lists_set]
  by_cases hid : id' = id
  · subst hid
    rw [if_pos rfl, NodeList.mem_modify]
    simp
  · rw [if_neg hid, if_neg fun h => hid h.1]

/-- Marking erases nothing. -/
theorem ids_mark (pool : BundlerPool ID_TYPE t member_fun) (id id' : ID_TYPE) (i : Nat) :
    ((pool.mark id i).lists id').ids = (pool.lists id').ids := by
  show ((pool.set id _).lists id').ids = _
  rw [lists_set]
  split
  · rename_i hid
    rw [hid, NodeList.ids_modify]
  · rfl

/-- A push gives out a new number. -/
theorem fresh_push (pool : BundlerPool ID_TYPE t member_fun) (id id' : ID_TYPE)
    (h : t × member_fun) : (pool.lists id').fresh ≤ ((pool.push id h).lists id').fresh := by
  rw [push, lists_set]
  split
  · rename_i hid
    rw [hid, NodeList.fresh_push_back]
    exact Nat.le_succ _
  · exact Nat.le_refl _

/-- Marking gives out no new number. -/
theorem fresh_mark (pool : BundlerPool ID_TYPE t member_fun) (id id' : ID_TYPE) (i : Nat) :
    ((pool.mark id i).lists id').fresh = (pool.lists id').fresh := by
  show ((pool.set id _).lists id').fresh = _
  rw [lists_set]
  split
  · rename_i hid
    rw [hid, NodeList.fresh_modify]
  · rfl

/-- The entries after a delete node is carried out. -/
theorem mem_deleted {pool : BundlerPool ID_TYPE t member_fun} {node : DeleteNode ID_TYPE}
    {id : ID_TYPE} {x : Nat × Bundler t member_fun} :
    x ∈ ((pool.deleted node).lists id).nodes ↔
      x ∈ (pool.lists id).nodes ∧ (⟨id, x.1⟩ : DeleteNode ID_TYPE) ≠ node := by
  show x ∈ ((pool.set _ _).lists id).nodes ↔ _
  rw [lists_set]
  obtain ⟨id₀, i⟩ := node
  split
  · rename_i hid
    subst hid
    simp
  · rename_i hid
    simp [hid]

/-- The iterators after a delete node is carried out. -/
theorem mem_ids_deleted {pool : BundlerPool ID_TYPE t member_fun} {node : DeleteNode ID_TYPE}
    {id : ID_TYPE} {i : Nat} :
    i ∈ ((pool.deleted node).lists id).ids ↔
      i ∈ (pool.lists id).ids ∧ (⟨id, i⟩ : DeleteNode ID_TYPE) ≠ node := by
  simp only [NodeList.mem_ids, mem_deleted]
  exact exists_and_right

/-- Carrying out a delete node gives out no new number. -/
theorem fresh_deleted (pool : BundlerPool ID_TYPE t member_fun) (node : DeleteNode ID_TYPE)
    (id : ID_TYPE) : ((pool.deleted node).lists id).fresh = (pool.lists id).fresh := by
  show ((pool.set _ _).lists id).fresh = _
  rw [lists_set]
  split
  · rename_i hid
    rw [hid, NodeList.fresh_erase]
  · rfl

/-- What is found is an entry of the handler. -/
theorem mem_of_find {pool : BundlerPool ID_TYPE t member_fun} {id : ID_TYPE}
    {h : t × member_fun} {i : Nat} (hfind : pool.find id h = some i) :
    ∃ b, (i, b) ∈ (pool.lists id).nodes ∧ b.handler = h := by
  obtain ⟨b, hmem, heq⟩ := NodeList.find_some hfind
  exact ⟨b, hmem, beq_iff_eq.mp heq⟩

/-- A handler that is not found has no entry. -/
theorem not_mem_of_find {pool : BundlerPool ID_TYPE t member_fun} {id : ID_TYPE}
    {h : t × member_fun} (hfind : pool.find id h = none) {x : Nat × Bundler t member_fun}
    (hx : x ∈ (pool.lists id).nodes) : x.2.handler ≠ h := fun heq => by
  have hne := NodeList.find_none hfind hx
  rw [heq] at hne
  simp at hne

/-- The mark of an entry. -/
theorem isDeleted_of_mem {pool : BundlerPool ID_TYPE t member_fun} {id : ID_TYPE} {i : Nat}
    {b : Bundler t member_fun} (hmem : (i, b) ∈ (pool.lists id).nodes) :
    pool.isDeleted id i = b.m_deleted := by
  rw [isDeleted, NodeList.get?_eq_some.mpr hmem]
  rfl

/-! ### Carrying out many delete nodes -/

/-- The entries that many delete nodes leave. -/
theorem mem_foldl_deleted (ds : List (DeleteNode ID_TYPE)) :
    ∀ {pool : BundlerPool ID_TYPE t member_fun} {id : ID_TYPE} {x : Nat × Bundler t member_fun},
      x ∈ ((ds.foldl deleted pool).lists id).nodes ↔
        x ∈ (pool.lists id).nodes ∧ (⟨id, x.1⟩ : DeleteNode ID_TYPE) ∉ ds := by
  induction ds with
  | nil => simp
  | cons d ds ih =>
      intro pool id x
      rw [List.foldl_cons, ih, mem_deleted, List.mem_cons, not_or, and_assoc]

/-- The list that many delete nodes leave. -/
theorem nodes_foldl_deleted (ds : List (DeleteNode ID_TYPE)) :
    ∀ (pool : BundlerPool ID_TYPE t member_fun) (id : ID_TYPE),
      ((ds.foldl deleted pool).lists id).nodes
        = (pool.lists id).nodes.filter fun x => decide (⟨id, x.1⟩ ∉ ds) := by
  induction ds with
  | nil => simp
  | cons d ds ih =>
      intro pool id
      have hd : ((pool.deleted d).lists id).nodes
          = (pool.lists id).nodes.filter
              fun x => decide ((⟨id, x.1⟩ : DeleteNode ID_TYPE) ≠ d) := by
        show ((pool.set _ _).lists id).nodes = _
        rw [lists_set]
        obtain ⟨id₀, i⟩ := d
        split
        · rename_i hid
          subst hid
          refine List.filter_congr fun x _ => ?_
          simp [bne, beq_eq_decide]
        · rename_i hid
          simp [hid]
      rw [List.foldl_cons, ih, hd, List.filter_filter]
      refine List.filter_congr fun x _ => ?_
      rw [← Bool.decide_and]
      refine decide_eq_decide.mpr ?_
      rw [List.mem_cons, not_or, and_comm]

/-- Delete nodes can be carried out one after the other just when they are of different
entries that are all there. -/
theorem erasedTwice_foldl (ds : List (DeleteNode ID_TYPE)) :
    ∀ pool : BundlerPool ID_TYPE t member_fun,
      (ds.foldl deleted pool).erasedTwice = false ↔
        pool.erasedTwice = false ∧ ds.Nodup ∧
          ∀ d ∈ ds, d.list_itor ∈ (pool.lists d.map_itor).ids := by
  induction ds with
  | nil => simp
  | cons d ds ih =>
      intro pool
      have hone : (pool.deleted d).erasedTwice = false ↔
          pool.erasedTwice = false ∧ d.list_itor ∈ (pool.lists d.map_itor).ids := by
        simp [deleted]
      rw [List.foldl_cons, ih, hone, List.nodup_cons]
      constructor
      · rintro ⟨⟨hpool, hd⟩, hnodup, hall⟩
        refine ⟨hpool, ⟨fun hin => (mem_ids_deleted.mp (hall d hin)).2 rfl, hnodup⟩,
          fun e he => ?_⟩
        rcases List.mem_cons.mp he with rfl | he
        · exact hd
        · exact (mem_ids_deleted.mp (hall e he)).1
      · rintro ⟨hpool, ⟨hnot, hnodup⟩, hall⟩
        refine ⟨⟨hpool, hall d List.mem_cons_self⟩, hnodup, fun e he => ?_⟩
        refine mem_ids_deleted.mpr ⟨hall e (List.mem_cons_of_mem d he), fun heq => hnot ?_⟩
        exact heq ▸ he

/-- Carrying out delete nodes keeps the keys. -/
theorem keys_foldl_deleted (ds : List (DeleteNode ID_TYPE)) :
    ∀ pool : BundlerPool ID_TYPE t member_fun, (ds.foldl deleted pool).keys = pool.keys := by
  induction ds with
  | nil => exact fun _ => rfl
  | cons d ds ih => exact fun pool => ih (pool.deleted d)

/-! ### `unbind(pObj)` -/

/-- The entry with its mark set, when it is one of the object. -/
def markObj (pObj : t) (x : Nat × Bundler t member_fun) : Nat × Bundler t member_fun :=
  if x.2.m_pObj = pObj then (x.1, { x.2 with m_deleted := true }) else x

/-- The delete nodes for the entries of an object. -/
def objNodes (id : ID_TYPE) (pObj : t) (ns : List (Nat × Bundler t member_fun)) :
    List (DeleteNode ID_TYPE) :=
  (ns.filter fun x => x.2.m_pObj = pObj).map fun x => ⟨id, x.1⟩

/-- What the inner loop does: other lists stay, and the entries of the object among those it
walks over are marked. -/
theorem unbindNodes_spec (id : ID_TYPE) (pObj : t) (ns : List (Nat × Bundler t member_fun)) :
    ∀ pool : BundlerPool ID_TYPE t member_fun,
      (pool.unbindNodes id pObj ns).keys = pool.keys ∧
        (pool.unbindNodes id pObj ns).erasedTwice = pool.erasedTwice ∧
        (pool.unbindNodes id pObj ns).m_delete_list
          = pool.m_delete_list ++ objNodes id pObj ns ∧
        (∀ id', id' ≠ id → (pool.unbindNodes id pObj ns).lists id' = pool.lists id') ∧
        ((pool.unbindNodes id pObj ns).lists id).nodes
          = (pool.lists id).nodes.map fun x =>
              if ∃ y ∈ ns, y.1 = x.1 ∧ y.2.m_pObj = pObj then
                (x.1, { x.2 with m_deleted := true })
              else x := by
  induction ns with
  | nil => simp [unbindNodes, objNodes]
  | cons y ns ih =>
      intro pool
      obtain ⟨i, b⟩ := y
      by_cases hobj : b.m_pObj = pObj
      · obtain ⟨hkeys, htwice, hnodes, hothers, hlist⟩ := ih (pool.mark id i)
        have hmark : ((pool.mark id i).lists id).nodes = (pool.lists id).nodes.map fun x =>
            if x.1 = i then (x.1, { x.2 with m_deleted := true }) else x := by
          show ((pool.set id _).lists id).nodes = _
          rw [lists_set, if_pos rfl]
          rfl
        rw [unbindNodes, if_pos hobj]
        refine ⟨hkeys, htwice, ?_, fun id' hid => ?_, ?_⟩
        · rw [hnodes]
          simp [mark, objNodes, hobj]
        · rw [hothers id' hid]
          show (pool.set id _).lists id' = _
          rw [lists_set, if_neg hid]
        · rw [hlist, hmark, List.map_map]
          refine List.map_congr_left fun x _ => ?_
          -- Marking an entry a second time changes nothing.
          by_cases hx : x.1 = i
          · have hex : ∃ y ∈ (i, b) :: ns, y.1 = x.1 ∧ y.2.m_pObj = pObj :=
              ⟨_, List.mem_cons_self, hx.symm, hobj⟩
            simp only [Function.comp_apply, if_pos hx, if_pos hex]
            split <;> rfl
          · have hiff : (∃ y ∈ (i, b) :: ns, y.1 = x.1 ∧ y.2.m_pObj = pObj) ↔
                ∃ y ∈ ns, y.1 = x.1 ∧ y.2.m_pObj = pObj := by
              simp [Ne.symm hx]
            simp only [Function.comp_apply, if_neg hx, hiff]
      · obtain ⟨hkeys, htwice, hnodes, hothers, hlist⟩ := ih pool
        rw [unbindNodes, if_neg hobj]
        refine ⟨hkeys, htwice, ?_, hothers, ?_⟩
        · rw [hnodes]
          simp [objNodes, hobj]
        · rw [hlist]
          refine List.map_congr_left fun x _ => ?_
          have hiff : (∃ y ∈ (i, b) :: ns, y.1 = x.1 ∧ y.2.m_pObj = pObj) ↔
              ∃ y ∈ ns, y.1 = x.1 ∧ y.2.m_pObj = pObj := by
            simp [hobj]
          simp only [hiff]

/-- What the inner loop does over a whole list. -/
theorem unbindNodes_all (id : ID_TYPE) (pObj : t) (pool : BundlerPool ID_TYPE t member_fun) :
    ((pool.unbindNodes id pObj (pool.lists id).nodes).lists id).nodes
      = (pool.lists id).nodes.map (markObj pObj) := by
  rw [(unbindNodes_spec id pObj _ pool).2.2.2.2]
  refine List.map_congr_left fun x hx => ?_
  have hiff : (∃ y ∈ (pool.lists id).nodes, y.1 = x.1 ∧ y.2.m_pObj = pObj) ↔
      x.2.m_pObj = pObj := by
    constructor
    · rintro ⟨⟨i, b⟩, hy, rfl, hobj⟩
      rwa [← NodeList.node_unique hy hx]
    · intro hobj
      exact ⟨x, hx, rfl, hobj⟩
  simp only [markObj, hiff]

/-- What `unbind(pObj)` does, over the ids in any order without repetition. -/
theorem unbindObj_spec (pObj : t) (order : List ID_TYPE) :
    ∀ pool : BundlerPool ID_TYPE t member_fun, order.Nodup →
      (pool.unbindObj pObj order).keys = pool.keys ∧
        (pool.unbindObj pObj order).erasedTwice = pool.erasedTwice ∧
        (pool.unbindObj pObj order).m_delete_list
          = pool.m_delete_list ++
            order.flatMap (fun id => objNodes id pObj (pool.lists id).nodes) ∧
        ∀ id, ((pool.unbindObj pObj order).lists id).nodes
          = if id ∈ order then (pool.lists id).nodes.map (markObj pObj)
            else (pool.lists id).nodes := by
  induction order with
  | nil => simp [unbindObj]
  | cons id₀ order ih =>
      intro pool hnodup
      obtain ⟨hnot, hnodup⟩ := List.nodup_cons.mp hnodup
      obtain ⟨hkeys₀, htwice₀, hnodes₀, hothers₀, -⟩ :=
        unbindNodes_spec id₀ pObj (pool.lists id₀).nodes pool
      have hall₀ := unbindNodes_all id₀ pObj pool
      obtain ⟨hkeys, htwice, hnodes, hlists⟩ :=
        ih (pool.unbindNodes id₀ pObj (pool.lists id₀).nodes) hnodup
      refine ⟨hkeys.trans hkeys₀, htwice.trans htwice₀, ?_, fun id => ?_⟩
      · show (unbindObj _ pObj order).m_delete_list = _
        rw [hnodes, hnodes₀, List.flatMap_cons, List.append_assoc]
        congr 2
        refine List.flatMap_congr fun id hid => ?_
        rw [hothers₀ id fun heq => hnot (heq ▸ hid)]
      · show ((unbindObj _ pObj order).lists id).nodes = _
        rw [hlists]
        by_cases hid : id = id₀
        · subst hid
          rw [if_neg hnot, if_pos List.mem_cons_self, hall₀]
        · rw [hothers₀ id hid]
          simp [hid]

/-! ### Entries that are gone -/

/-- The number is one of an entry that was erased. -/
def Gone (pool : BundlerPool ID_TYPE t member_fun) (id : ID_TYPE) (i : Nat) : Prop :=
  i < (pool.lists id).fresh ∧ i ∉ (pool.lists id).ids

section Gone

variable {pool : BundlerPool ID_TYPE t member_fun} {id' : ID_TYPE} {i : Nat}

/-- A new entry is none of the erased ones. -/
theorem Gone.push (hgone : pool.Gone id' i) (id : ID_TYPE) (h : t × member_fun) :
    (pool.push id h).Gone id' i := by
  refine ⟨Nat.lt_of_lt_of_le hgone.1 (fresh_push pool id id' h), ?_⟩
  rw [BundlerPool.push, lists_set]
  split
  · rename_i hid
    rw [NodeList.mem_ids_push_back, ← hid]
    exact fun hin => hin.elim hgone.2 (Nat.ne_of_lt hgone.1)
  · exact hgone.2

/-- An erased entry is not marked. -/
theorem Gone.mark (hgone : pool.Gone id' i) (id : ID_TYPE) (j : Nat) :
    (pool.mark id j).Gone id' i :=
  ⟨by rw [fresh_mark]; exact hgone.1, by rw [ids_mark]; exact hgone.2⟩

/-- An erased entry does not come back when another is erased. -/
theorem Gone.deleted (hgone : pool.Gone id' i) (node : DeleteNode ID_TYPE) :
    (pool.deleted node).Gone id' i :=
  ⟨by rw [fresh_deleted]; exact hgone.1, fun hin => hgone.2 (mem_ids_deleted.mp hin).1⟩

/-- An erased entry does not come back when a delete node is dropped. -/
theorem Gone.dropNode (hgone : pool.Gone id' i) (node : DeleteNode ID_TYPE) :
    (pool.dropNode node).Gone id' i := by
  unfold BundlerPool.dropNode
  split
  · exact hgone.deleted node
  · exact hgone

/-- No `bind` brings an erased entry back. -/
theorem Gone.bind (hgone : pool.Gone id' i) (id : ID_TYPE) (h : t × member_fun) :
    (pool.bind id h).2.Gone id' i := by
  unfold BundlerPool.bind
  split
  · split
    · exact hgone.push id h
    · split
      · exact (hgone.dropNode _).push id h
      · exact hgone
  · exact hgone.push id h

/-- No `unbind` of a handler brings an erased entry back. -/
theorem Gone.unbind (hgone : pool.Gone id' i) (id : ID_TYPE) (h : t × member_fun) :
    (pool.unbind id h).2.Gone id' i := by
  unfold BundlerPool.unbind
  split
  · split
    · exact hgone
    · exact hgone.mark id _
  · exact hgone

/-- A property that marking keeps is kept by `unbind(pObj)`. -/
theorem unbindObj_induction {P : BundlerPool ID_TYPE t member_fun → Prop}
    (hmark : ∀ pool id j, P pool → P (pool.mark id j)) (pObj : t) (order : List ID_TYPE) :
    ∀ pool, P pool → P (pool.unbindObj pObj order) := by
  have hinner : ∀ (id : ID_TYPE) (ns : List (Nat × Bundler t member_fun)) pool,
      P pool → P (pool.unbindNodes id pObj ns) := by
    intro id ns
    induction ns with
    | nil => exact fun _ hp => hp
    | cons x ns ih =>
        intro pool hp
        rw [unbindNodes]
        split
        · exact ih _ (hmark pool id x.1 hp)
        · exact ih _ hp
  induction order with
  | nil => exact fun _ hp => hp
  | cons id order ih => exact fun pool hp => ih _ (hinner id _ pool hp)

/-- `unbind(pObj)` gives out no new number. -/
theorem fresh_unbindObj (pool : BundlerPool ID_TYPE t member_fun) (pObj : t)
    (order : List ID_TYPE) (id : ID_TYPE) :
    ((pool.unbindObj pObj order).lists id).fresh = (pool.lists id).fresh :=
  unbindObj_induction (P := fun pool' => (pool'.lists id).fresh = (pool.lists id).fresh)
    (fun pool' id' j hp => (fresh_mark pool' id' id j).trans hp) pObj order pool rfl

/-- No `unbind(pObj)` brings an erased entry back. -/
theorem Gone.unbindObj (hgone : pool.Gone id' i) (pObj : t) (order : List ID_TYPE) :
    (pool.unbindObj pObj order).Gone id' i :=
  unbindObj_induction (P := fun pool => pool.Gone id' i) (fun _ id j hp => hp.mark id j) pObj order
    pool hgone

end Gone

/-! ### What every run keeps -/

/-- An id that is no key has no entries, a handler has one entry for an id, every marked entry
has a delete node, and every delete node is of an entry that is marked or gone. -/
structure Inv (pool : BundlerPool ID_TYPE t member_fun) : Prop where
  keyed : ∀ id, id ∉ pool.keys → (pool.lists id).nodes = []
  keys_nodup : pool.keys.Nodup
  unique : ∀ id i j b b', (i, b) ∈ (pool.lists id).nodes → (j, b') ∈ (pool.lists id).nodes →
    b.handler = b'.handler → i = j
  marked : ∀ id i b, (i, b) ∈ (pool.lists id).nodes → b.m_deleted = true →
    (⟨id, i⟩ : DeleteNode ID_TYPE) ∈ pool.m_delete_list
  delete_nodes : ∀ d ∈ pool.m_delete_list, d.list_itor < (pool.lists d.map_itor).fresh ∧
    ∀ b, (d.list_itor, b) ∈ (pool.lists d.map_itor).nodes → b.m_deleted = true

/-- A new pool satisfies the invariant. -/
theorem init_inv : (init : BundlerPool ID_TYPE t member_fun).Inv where
  keyed _ _ := rfl
  keys_nodup := List.nodup_nil
  unique _ _ _ _ _ h := by cases h
  marked _ _ _ h := by cases h
  delete_nodes _ h := by cases h

variable {pool : BundlerPool ID_TYPE t member_fun} {id : ID_TYPE} {h : t × member_fun}

/-- What `bind` does. The handler has no entry and gets one; or it has a marked one, which leaves
the list before it gets a new one; or it is bound. -/
theorem bind_cases (hinv : pool.Inv) (id : ID_TYPE) (h : t × member_fun) :
    (∃ keys', keys'.Nodup ∧ id ∈ keys' ∧ pool.keys ⊆ keys' ∧
      (keys' = if id ∈ pool.keys then pool.keys else pool.keys ++ [id]) ∧
      (∀ x ∈ (pool.lists id).nodes, x.2.handler ≠ h) ∧
      pool.bind id h = (true, { pool.push id h with keys := keys' })) ∨
    (∃ i b, id ∈ pool.keys ∧ (i, b) ∈ (pool.lists id).nodes ∧ b.handler = h ∧
      b.m_deleted = true ∧
      pool.bind id h = (true, (pool.dropNode ⟨id, i⟩).push id h)) ∨
    ∃ i b, id ∈ pool.keys ∧ (i, b) ∈ (pool.lists id).nodes ∧ b.handler = h ∧
      b.m_deleted = false ∧ pool.bind id h = (false, pool) := by
  by_cases hid : id ∈ pool.keys
  · cases hfind : pool.find id h with
    | none =>
        refine .inl ⟨pool.keys, hinv.keys_nodup, hid, List.Subset.refl _, (if_pos hid).symm,
          fun x hx => not_mem_of_find hfind hx, ?_⟩
        simp only [bind, if_pos hid, hfind]
        rfl
    | some i =>
        obtain ⟨b, hmem, hb⟩ := mem_of_find hfind
        have hdel := isDeleted_of_mem hmem
        cases hmark : b.m_deleted with
        | true =>
            refine .inr (.inl ⟨i, b, hid, hmem, hb, hmark, ?_⟩)
            simp only [bind, if_pos hid, hfind, hdel, hmark, if_true]
        | false =>
            refine .inr (.inr ⟨i, b, hid, hmem, hb, hmark, ?_⟩)
            simp only [bind, if_pos hid, hfind, hdel, hmark]
            rfl
  · refine .inl ⟨pool.keys ++ [id], ?_, by simp, by simp, (if_neg hid).symm, fun x hx => ?_, ?_⟩
    · exact List.nodup_append.mpr ⟨hinv.keys_nodup, List.nodup_singleton id, fun a ha b hb heq =>
        hid (List.mem_singleton.mp hb ▸ heq ▸ ha)⟩
    · rw [hinv.keyed id hid] at hx
      cases hx
    · rw [bind, if_neg hid]

/-- What `unbind` of a handler does. -/
theorem unbind_cases (hinv : pool.Inv) (id : ID_TYPE) (h : t × member_fun) :
    (∀ x ∈ (pool.lists id).nodes, x.2.handler ≠ h) ∧ pool.unbind id h = (false, pool) ∨
    ∃ i b, (i, b) ∈ (pool.lists id).nodes ∧ b.handler = h ∧
      pool.unbind id h = (true, pool.mark id i) := by
  by_cases hid : id ∈ pool.keys
  · cases hfind : pool.find id h with
    | none =>
        refine .inl ⟨fun x hx => not_mem_of_find hfind hx, ?_⟩
        simp only [unbind, if_pos hid, hfind]
    | some i =>
        obtain ⟨b, hmem, hb⟩ := mem_of_find hfind
        refine .inr ⟨i, b, hmem, hb, ?_⟩
        simp only [unbind, if_pos hid, hfind]
  · refine .inl ⟨fun x hx => ?_, by rw [unbind, if_neg hid]⟩
    rw [hinv.keyed id hid] at hx
    cases hx

/-- A new entry for a handler that has none. -/
theorem Inv.push (hinv : pool.Inv) {keys' : List ID_TYPE} (hnodup : keys'.Nodup)
    (hid : id ∈ keys') (hsub : pool.keys ⊆ keys')
    (hnew : ∀ x ∈ (pool.lists id).nodes, x.2.handler ≠ h) :
    ({ pool.push id h with keys := keys' } : BundlerPool ID_TYPE t member_fun).Inv where
  keyed id' hid' := by
    show ((pool.push id h).lists id').nodes = []
    have hne : id' ≠ id := fun heq => hid' (heq ▸ hid)
    rw [BundlerPool.push, lists_set, if_neg hne]
    exact hinv.keyed id' fun hin => hid' (hsub hin)
  keys_nodup := hnodup
  unique id' i j b b' hi hj heq := by
    rcases mem_push.mp hi with hi | ⟨hid', hi⟩ <;> rcases mem_push.mp hj with hj | ⟨hid'', hj⟩
    · exact hinv.unique id' i j b b' hi hj heq
    · cases hj
      exact absurd heq (hnew _ (hid'' ▸ hi))
    · cases hi
      exact absurd heq.symm (hnew _ (hid' ▸ hj))
    · cases hi
      cases hj
      rfl
  marked id' i b hi hdel := by
    rcases mem_push.mp hi with hi | ⟨hid', hi⟩
    · exact hinv.marked id' i b hi hdel
    · cases hi
      cases hdel
  delete_nodes d hd := by
    obtain ⟨hlt, hall⟩ := hinv.delete_nodes d hd
    refine ⟨Nat.lt_of_lt_of_le hlt (fresh_push pool id d.map_itor h), fun b hmem => ?_⟩
    rcases mem_push.mp hmem with hmem | ⟨hid, heq⟩
    · exact hall b hmem
    · have hnew : d.list_itor = (pool.lists id).fresh := congrArg Prod.fst heq
      rw [hid, hnew] at hlt
      exact absurd hlt (Nat.lt_irrefl _)

/-- An entry is marked. -/
theorem Inv.mark (hinv : pool.Inv) {i : Nat} (hi : i ∈ (pool.lists id).ids) :
    (pool.mark id i).Inv where
  keyed id' hid' := by
    rw [List.eq_nil_iff_forall_not_mem]
    rintro ⟨j, b⟩ hmem
    have hids := ids_mark pool id id' i ▸ NodeList.mem_ids_of_mem hmem
    rw [NodeList.ids, hinv.keyed id' hid'] at hids
    cases hids
  keys_nodup := hinv.keys_nodup
  unique id' j k b b' hj hk heq := by
    -- A marked entry has the handler it had.
    have hold : ∀ {l : Nat} {b : Bundler t member_fun},
        (l, b) ∈ ((pool.mark id i).lists id').nodes →
          ∃ b₀, (l, b₀) ∈ (pool.lists id').nodes ∧ b₀.handler = b.handler := by
      intro l b hl
      rw [mem_mark] at hl
      split at hl
      · obtain ⟨b₀, hmem, rfl⟩ := hl
        exact ⟨b₀, hmem, rfl⟩
      · exact ⟨b, hl, rfl⟩
    obtain ⟨b₀, hb₀, heq₀⟩ := hold hj
    obtain ⟨b₁, hb₁, heq₁⟩ := hold hk
    exact hinv.unique id' j k b₀ b₁ hb₀ hb₁ (heq₀.trans (heq.trans heq₁.symm))
  marked id' j b hj hdel := by
    show _ ∈ pool.m_delete_list ++ [⟨id, i⟩]
    rw [mem_mark] at hj
    split at hj
    · rename_i heq
      rw [heq.1, heq.2]
      simp
    · exact List.mem_append_left _ (hinv.marked id' j b hj hdel)
  delete_nodes d hd := by
    rw [fresh_mark]
    rcases List.mem_append.mp hd with hd | hd
    · obtain ⟨hlt, hall⟩ := hinv.delete_nodes d hd
      refine ⟨hlt, fun b hmem => ?_⟩
      rw [mem_mark] at hmem
      split at hmem
      · obtain ⟨b₀, -, rfl⟩ := hmem
        rfl
      · exact hall b hmem
    · rw [List.mem_singleton.mp hd]
      refine ⟨NodeList.lt_fresh hi, fun b hmem => ?_⟩
      rw [mem_mark, if_pos ⟨rfl, rfl⟩] at hmem
      obtain ⟨b₀, -, rfl⟩ := hmem
      rfl

/-- The entries after a delete node is dropped, when there is one. -/
theorem mem_dropNode {node : DeleteNode ID_TYPE} (hnode : node ∈ pool.m_delete_list)
    {x : Nat × Bundler t member_fun} :
    x ∈ ((pool.dropNode node).lists id).nodes ↔
      x ∈ (pool.lists id).nodes ∧ (⟨id, x.1⟩ : DeleteNode ID_TYPE) ≠ node := by
  rw [dropNode, if_pos hnode]
  exact mem_deleted

/-- The keys after a delete node is dropped. -/
theorem keys_dropNode (pool : BundlerPool ID_TYPE t member_fun) (node : DeleteNode ID_TYPE) :
    (pool.dropNode node).keys = pool.keys := by
  unfold dropNode
  split <;> rfl

/-- A delete node is dropped and its entry erased. -/
theorem Inv.dropNode (hinv : pool.Inv) {node : DeleteNode ID_TYPE}
    (hnode : node ∈ pool.m_delete_list) : (pool.dropNode node).Inv where
  keyed id' hid' := by
    rw [List.eq_nil_iff_forall_not_mem]
    intro x hx
    rw [keys_dropNode] at hid'
    have hmem := ((mem_dropNode hnode).mp hx).1
    rw [hinv.keyed id' hid'] at hmem
    cases hmem
  keys_nodup := by
    rw [keys_dropNode]
    exact hinv.keys_nodup
  unique id' i j b b' hi hj :=
    hinv.unique id' i j b b' ((mem_dropNode hnode).mp hi).1 ((mem_dropNode hnode).mp hj).1
  marked id' i b hi hdel := by
    obtain ⟨hmem, hne⟩ := (mem_dropNode hnode).mp hi
    have hdl : (pool.dropNode node).m_delete_list = pool.m_delete_list.erase node := by
      rw [BundlerPool.dropNode, if_pos hnode]
    rw [hdl, List.mem_erase_of_ne hne]
    exact hinv.marked id' i b hmem hdel
  delete_nodes d hd := by
    rw [BundlerPool.dropNode, if_pos hnode] at hd
    obtain ⟨hlt, hall⟩ := hinv.delete_nodes d (List.mem_of_mem_erase hd)
    refine ⟨?_, fun b hmem => hall b ((mem_dropNode hnode).mp hmem).1⟩
    rw [BundlerPool.dropNode, if_pos hnode]
    exact (fresh_deleted pool node d.map_itor).symm ▸ hlt

/-- Once the marked entry of a handler is dropped, the handler has no entry. -/
theorem Inv.dropNode_new (hinv : pool.Inv) {i : Nat} {b : Bundler t member_fun}
    (hmem : (i, b) ∈ (pool.lists id).nodes) (hb : b.handler = h) (hdel : b.m_deleted = true) :
    ∀ x ∈ ((pool.dropNode ⟨id, i⟩).lists id).nodes, x.2.handler ≠ h := by
  rintro ⟨j, b'⟩ hx heq
  obtain ⟨hx, hne⟩ := (mem_dropNode (hinv.marked id i b hmem hdel)).mp hx
  exact hne (by rw [hinv.unique id j i b' b hx hmem (heq.trans hb.symm)])

/-- `bind` keeps the invariant. -/
theorem Inv.bind (hinv : pool.Inv) (id : ID_TYPE) (h : t × member_fun) :
    (pool.bind id h).2.Inv := by
  rcases bind_cases hinv id h with ⟨keys', hnodup, hid, hsub, -, hnew, heq⟩ |
    ⟨i, b, hid, hmem, hb, hdel, heq⟩ | ⟨i, b, -, -, -, -, heq⟩
  · rw [heq]
    exact hinv.push hnodup hid hsub hnew
  · rw [heq]
    have hdrop := hinv.dropNode (hinv.marked id i b hmem hdel)
    exact hdrop.push hdrop.keys_nodup (by rw [keys_dropNode]; exact hid) (List.Subset.refl _)
      (hinv.dropNode_new hmem hb hdel)
  · rw [heq]
    exact hinv

/-- `unbind` of a handler keeps the invariant. -/
theorem Inv.unbind (hinv : pool.Inv) (id : ID_TYPE) (h : t × member_fun) :
    (pool.unbind id h).2.Inv := by
  rcases unbind_cases hinv id h with ⟨-, heq⟩ | ⟨i, b, hmem, -, heq⟩
  · rw [heq]
    exact hinv
  · rw [heq]
    exact hinv.mark (NodeList.mem_ids_of_mem hmem)

/-- An entry after `unbind(pObj)` is one from before, marked when it is of the object. -/
theorem mem_unbindObj (hinv : pool.Inv) {pObj : t} {order : List ID_TYPE}
    (horder : order.Perm pool.keys) {i : Nat} {b : Bundler t member_fun} :
    (i, b) ∈ ((pool.unbindObj pObj order).lists id).nodes ↔
      ∃ b₀, (i, b₀) ∈ (pool.lists id).nodes ∧ (i, b) = markObj pObj (i, b₀) := by
  rw [(unbindObj_spec pObj order pool (horder.nodup_iff.mpr hinv.keys_nodup)).2.2.2 id]
  have hmap : (i, b) ∈ (pool.lists id).nodes.map (markObj pObj) ↔
      ∃ b₀, (i, b₀) ∈ (pool.lists id).nodes ∧ (i, b) = markObj pObj (i, b₀) := by
    rw [List.mem_map]
    constructor
    · rintro ⟨⟨j, b₀⟩, hmem, heq⟩
      have hj : j = i := by
        have hfst : (markObj pObj (j, b₀)).1 = j := by
          unfold markObj
          split <;> rfl
        rw [← hfst, heq]
      subst hj
      exact ⟨b₀, hmem, heq.symm⟩
    · rintro ⟨b₀, hmem, heq⟩
      exact ⟨_, hmem, heq.symm⟩
  split
  · exact hmap
  · rename_i hid
    have hempty := hinv.keyed id fun hin => hid (horder.mem_iff.mpr hin)
    rw [hempty]
    simp

/-- The delete nodes after `unbind(pObj)`. -/
theorem mem_delete_unbindObj (hinv : pool.Inv) {pObj : t} {order : List ID_TYPE}
    (horder : order.Perm pool.keys) {i : Nat} :
    (⟨id, i⟩ : DeleteNode ID_TYPE) ∈ (pool.unbindObj pObj order).m_delete_list ↔
      (⟨id, i⟩ : DeleteNode ID_TYPE) ∈ pool.m_delete_list ∨
        ∃ b, (i, b) ∈ (pool.lists id).nodes ∧ b.m_pObj = pObj := by
  rw [(unbindObj_spec pObj order pool (horder.nodup_iff.mpr hinv.keys_nodup)).2.2.1,
    List.mem_append]
  refine or_congr_right ?_
  simp only [List.mem_flatMap, objNodes, List.mem_map, List.mem_filter, decide_eq_true_eq,
    DeleteNode.mk.injEq]
  constructor
  · rintro ⟨id', -, ⟨j, b⟩, ⟨hmem, hobj⟩, rfl, rfl⟩
    exact ⟨b, hmem, hobj⟩
  · rintro ⟨b, hmem, hobj⟩
    refine ⟨id, horder.mem_iff.mpr ?_, (i, b), ⟨hmem, hobj⟩, rfl, rfl⟩
    by_contra hid
    rw [hinv.keyed id hid] at hmem
    cases hmem

/-- `unbind(pObj)` keeps the invariant. -/
theorem Inv.unbindObj (hinv : pool.Inv) {pObj : t} {order : List ID_TYPE}
    (horder : order.Perm pool.keys) : (pool.unbindObj pObj order).Inv := by
  have hnodup := horder.nodup_iff.mpr hinv.keys_nodup
  obtain ⟨hkeys, -, -, hlists⟩ := unbindObj_spec pObj order pool hnodup
  refine ⟨fun id hid => ?_, by rw [hkeys]; exact hinv.keys_nodup,
    fun id i j b b' hi hj heq => ?_, fun id i b hi hdel => ?_, fun ⟨id, i⟩ hd => ?_⟩
  · rw [hkeys] at hid
    rw [hlists, hinv.keyed id hid]
    split <;> rfl
  · -- Marking changes no handler.
    have hold : ∀ {k : Nat} {b : Bundler t member_fun},
        (k, b) ∈ ((pool.unbindObj pObj order).lists id).nodes →
          ∃ b₀, (k, b₀) ∈ (pool.lists id).nodes ∧ b₀.handler = b.handler := by
      intro k b hk
      obtain ⟨b₀, hmem, heq⟩ := (mem_unbindObj hinv horder).mp hk
      refine ⟨b₀, hmem, ?_⟩
      unfold markObj at heq
      split at heq <;> cases heq <;> rfl
    obtain ⟨b₀, hb₀, heq₀⟩ := hold hi
    obtain ⟨b₁, hb₁, heq₁⟩ := hold hj
    exact hinv.unique id i j b₀ b₁ hb₀ hb₁ (heq₀.trans (heq.trans heq₁.symm))
  · obtain ⟨b₀, hmem, heq⟩ := (mem_unbindObj hinv horder).mp hi
    rw [mem_delete_unbindObj hinv horder]
    unfold markObj at heq
    split at heq
    · rename_i hobj
      exact .inr ⟨b₀, hmem, hobj⟩
    · cases heq
      exact .inl (hinv.marked id i b hmem hdel)
  · rw [fresh_unbindObj]
    rcases (mem_delete_unbindObj hinv horder).mp hd with hd | ⟨b, hmem, hobj⟩
    · obtain ⟨hlt, hall⟩ := hinv.delete_nodes ⟨id, i⟩ hd
      refine ⟨hlt, fun b hmem => ?_⟩
      obtain ⟨b₀, hmem₀, heq⟩ := (mem_unbindObj hinv horder).mp hmem
      unfold markObj at heq
      split at heq <;> cases heq
      · rfl
      · exact hall b hmem₀
    · refine ⟨NodeList.lt_fresh (NodeList.mem_ids_of_mem hmem), fun b' hmem' => ?_⟩
      obtain ⟨b₀, hmem₀, heq⟩ := (mem_unbindObj hinv horder).mp hmem'
      rw [NodeList.node_unique hmem₀ hmem, markObj, if_pos hobj] at heq
      cases heq
      rfl

/-- The entries after `reflush` are those without a delete node. -/
theorem mem_reflush {x : Nat × Bundler t member_fun} :
    x ∈ (pool.reflush.lists id).nodes ↔
      x ∈ (pool.lists id).nodes ∧ (⟨id, x.1⟩ : DeleteNode ID_TYPE) ∉ pool.m_delete_list :=
  mem_foldl_deleted pool.m_delete_list

/-- `reflush` keeps the invariant: no marked entry is left. -/
theorem Inv.reflush (hinv : pool.Inv) : pool.reflush.Inv where
  keyed id hid := by
    rw [List.eq_nil_iff_forall_not_mem]
    intro x hx
    have hkeys : pool.reflush.keys = pool.keys := keys_foldl_deleted _ _
    rw [hkeys] at hid
    have hmem := (mem_reflush.mp hx).1
    rw [hinv.keyed id hid] at hmem
    cases hmem
  keys_nodup := by
    have hkeys : pool.reflush.keys = pool.keys := keys_foldl_deleted _ _
    rw [hkeys]
    exact hinv.keys_nodup
  unique id i j b b' hi hj := hinv.unique id i j b b' (mem_reflush.mp hi).1 (mem_reflush.mp hj).1
  marked id i b hi hdel := by
    obtain ⟨hmem, hnot⟩ := mem_reflush.mp hi
    exact absurd (hinv.marked id i b hmem hdel) hnot
  delete_nodes d hd := by cases hd

/-! ### The bound handlers after each operation -/

/-- Dropping the node of a marked entry changes no bound handler. -/
theorem live_dropNode (hinv : pool.Inv) {i : Nat} {b : Bundler t member_fun}
    (hmem : (i, b) ∈ (pool.lists id).nodes) (hdel : b.m_deleted = true) (id' : ID_TYPE) :
    (pool.dropNode ⟨id, i⟩).live id' = pool.live id' := by
  rw [BundlerPool.dropNode, if_pos (hinv.marked id i b hmem hdel)]
  show liveOf ((pool.set id _).lists id').nodes = _
  rw [lists_set]
  split
  · rename_i hid
    subst hid
    refine liveOf_filter fun x hx hq => ?_
    have hi : x.1 = i := by simpa using hq
    obtain ⟨j, b'⟩ := x
    subst hi
    rw [NodeList.node_unique hx hmem]
    exact hdel
  · rfl

/-- The bound handlers after an entry is marked. -/
theorem live_mark (hinv : pool.Inv) {i : Nat} {b : Bundler t member_fun}
    (hmem : (i, b) ∈ (pool.lists id).nodes) (hb : b.handler = h) (id' : ID_TYPE) :
    (pool.mark id i).live id'
      = if id' = id then (pool.live id).filter (· ≠ h) else pool.live id' := by
  show liveOf ((pool.set id _).lists id').nodes = _
  rw [lists_set]
  split
  · rename_i hid
    refine (liveOf_map (p := fun g => decide (g = h))
      (f := fun x => if x.1 = i then (x.1, { x.2 with m_deleted := true }) else x) ?_ ?_).trans
      (List.filter_congr fun g _ => by simp)
    · rintro ⟨j, b'⟩ hx hp
      have hj : j = i := hinv.unique id j i b' b hx hmem (by simpa [hb] using hp)
      simp [hj]
    · rintro ⟨j, b'⟩ hx hp
      refine if_neg fun hj => ?_
      simp only at hj
      subst hj
      rw [NodeList.node_unique hx hmem, hb] at hp
      simp at hp
  · rfl

/-- The bound handlers after `unbind(pObj)`. -/
theorem live_unbindObj (hinv : pool.Inv) {pObj : t} {order : List ID_TYPE}
    (horder : order.Perm pool.keys) (id : ID_TYPE) :
    (pool.unbindObj pObj order).live id = (pool.live id).filter fun g => g.1 ≠ pObj := by
  have hlists := (unbindObj_spec pObj order pool (horder.nodup_iff.mpr hinv.keys_nodup)).2.2.2 id
  have hnodes : ((pool.unbindObj pObj order).lists id).nodes
      = (pool.lists id).nodes.map (markObj pObj) := by
    rw [hlists]
    split
    · rfl
    · rename_i hid
      rw [hinv.keyed id fun hin => hid (horder.mem_iff.mpr hin)]
      rfl
  have hmap : liveOf ((pool.lists id).nodes.map (markObj pObj))
      = (pool.live id).filter fun g => !decide (g.1 = pObj) :=
    liveOf_map
      (fun x _ hp => by
        have hobj : x.2.m_pObj = pObj := of_decide_eq_true hp
        rw [markObj, if_pos hobj])
      (fun x _ hp => by
        have hobj : x.2.m_pObj ≠ pObj := of_decide_eq_false hp
        rw [markObj, if_neg hobj])
  rw [live, hnodes, hmap]
  exact List.filter_congr fun g _ => by simp

/-- `reflush` changes no bound handler. -/
theorem live_reflush (hinv : pool.Inv) (id : ID_TYPE) : pool.reflush.live id = pool.live id := by
  show liveOf ((pool.m_delete_list.foldl deleted pool).lists id).nodes = _
  rw [nodes_foldl_deleted]
  refine liveOf_filter fun x hx hq => ?_
  exact (hinv.delete_nodes ⟨id, x.1⟩ (by simpa using hq)).2 x.2 hx

end BundlerPool

end Kernel4GameServer
