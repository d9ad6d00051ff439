import Kernel4GameServer.Lib.Transducer
import Kernel4GameServer.Proofs.Public.TBundler

/-!
# `Kernel4GameServer.Proofs.Public.LazyDeletion`: when deleting later is like deleting at once

`unbind` does not look at `m_deleted`. Of a handler that is unbound already, but whose entry is
still in the list, it returns true and puts a second delete node into `m_delete_list`; one of
the two nodes is then carried out on an erased element. `lazy_deletion_iff` says that this is
the only difference: in all other runs the answers are those of a pool that deletes at once,
each marked entry has exactly one delete node, and more `reflush`es change nothing.
-/

set_option autoImplicit false
set_option linter.unusedSectionVars false

namespace Kernel4GameServer

open Lib

variable {ID_TYPE t member_fun : Type} [DecidableEq ID_TYPE] [DecidableEq t]
  [DecidableEq member_fun]

namespace BundlerPool

variable {pool : BundlerPool ID_TYPE t member_fun} {id : ID_TYPE} {h : t × member_fun}

/-- `m_delete_list` has exactly one node for each marked entry, and no element was erased
twice. -/
structure OneNode (pool : BundlerPool ID_TYPE t member_fun) : Prop where
  nodup : pool.m_delete_list.Nodup
  nodes : ∀ id i, (⟨id, i⟩ : DeleteNode ID_TYPE) ∈ pool.m_delete_list ↔
    ∃ b, (i, b) ∈ (pool.lists id).nodes ∧ b.m_deleted = true
  erased : pool.erasedTwice = false

/-- The invariant of the runs in which no handler is unbound twice. -/
structure Exact (pool : BundlerPool ID_TYPE t member_fun) : Prop extends Inv pool, OneNode pool

/-- A delete node was or will be carried out on an erased element. -/
def Spoilt (pool : BundlerPool ID_TYPE t member_fun) : Prop :=
  pool.erasedTwice = true ∨ ¬ pool.m_delete_list.Nodup ∨
    ∃ d ∈ pool.m_delete_list, pool.Gone d.map_itor d.list_itor

/-- A pool is not both. -/
theorem OneNode.not_spoilt (hone : pool.OneNode) : ¬ pool.Spoilt := by
  rintro (htwice | hdup | ⟨d, hd, -, hnot⟩)
  · rw [hone.erased] at htwice
    cases htwice
  · exact hdup hone.nodup
  · obtain ⟨b, hmem, -⟩ := (hone.nodes d.map_itor d.list_itor).mp hd
    exact hnot (NodeList.mem_ids_of_mem hmem)

/-- A new pool satisfies the invariant. -/
theorem init_exact : (init : BundlerPool ID_TYPE t member_fun).Exact :=
  { init_inv with
    nodup := List.nodup_nil
    nodes := fun id i => by simp [init]
    erased := rfl }

/-- A handler is unbound, and its entry is still in the list. -/
def Marked (pool : BundlerPool ID_TYPE t member_fun) (id : ID_TYPE) (h : t × member_fun) : Prop :=
  ∃ i b, (i, b) ∈ (pool.lists id).nodes ∧ b.handler = h ∧ b.m_deleted = true

/-! ### The operations, on a pool with the invariant -/

/-- A new entry for a handler that has none. -/
theorem Exact.push (hex : pool.Exact) {keys' : List ID_TYPE} (hnodup : keys'.Nodup)
    (hid : id ∈ keys') (hsub : pool.keys ⊆ keys')
    (hnew : ∀ x ∈ (pool.lists id).nodes, x.2.handler ≠ h) :
    ({ pool.push id h with keys := keys' } : BundlerPool ID_TYPE t member_fun).Exact where
  toInv := hex.toInv.push hnodup hid hsub hnew
  nodup := hex.nodup
  nodes id' i := by
    show (⟨id', i⟩ : DeleteNode ID_TYPE) ∈ pool.m_delete_list ↔
      ∃ b, (i, b) ∈ ((pool.push id h).lists id').nodes ∧ b.m_deleted = true
    rw [hex.nodes id' i]
    refine exists_congr fun b => ?_
    rw [mem_push]
    constructor
    · rintro ⟨hmem, hdel⟩
      exact ⟨.inl hmem, hdel⟩
    · rintro ⟨hmem | ⟨-, heq⟩, hdel⟩
      · exact ⟨hmem, hdel⟩
      · cases heq
        cases hdel
  erased := hex.erased

/-- An entry that is not marked yet is marked. -/
theorem Exact.mark (hex : pool.Exact) {i : Nat} {b : Bundler t member_fun}
    (hmem : (i, b) ∈ (pool.lists id).nodes) (hlive : b.m_deleted = false) :
    (pool.mark id i).Exact where
  toInv := hex.toInv.mark (NodeList.mem_ids_of_mem hmem)
  nodup := by
    refine List.nodup_append.mpr ⟨hex.nodup, List.nodup_singleton _, fun d hd e he heq => ?_⟩
    rw [List.mem_singleton.mp he] at heq
    obtain ⟨b', hmem', hdel⟩ := (hex.nodes id i).mp (heq ▸ hd)
    rw [NodeList.node_unique hmem' hmem, hlive] at hdel
    cases hdel
  nodes id' j := by
    show (⟨id', j⟩ : DeleteNode ID_TYPE) ∈ pool.m_delete_list ++ [⟨id, i⟩] ↔ _
    rw [List.mem_append, List.mem_singleton, hex.nodes id' j]
    simp only [mem_mark, DeleteNode.mk.injEq]
    by_cases heq : id' = id ∧ j = i
    · obtain ⟨rfl, rfl⟩ := heq
      simp only [and_self, if_true, or_true, true_iff]
      exact ⟨_, ⟨b, hmem, rfl⟩, rfl⟩
    · simp only [heq, if_false, or_false]
  erased := hex.erased

/-- The delete node of a marked entry is dropped. -/
theorem Exact.dropNode (hex : pool.Exact) {node : DeleteNode ID_TYPE}
    (hnode : node ∈ pool.m_delete_list) : (pool.dropNode node).Exact where
  toInv := hex.toInv.dropNode hnode
  nodup := by
    rw [BundlerPool.dropNode, if_pos hnode]
    exact hex.nodup.erase node
  nodes id' i := by
    have hdl : (pool.dropNode node).m_delete_list = pool.m_delete_list.erase node := by
      rw [BundlerPool.dropNode, if_pos hnode]
    rw [hdl, hex.nodup.mem_erase_iff, hex.nodes id' i, and_comm, ← exists_and_right]
    refine exists_congr fun b => ?_
    rw [mem_dropNode hnode]
    constructor
    · rintro ⟨⟨hmem, hdel⟩, hne⟩
      exact ⟨⟨hmem, hne⟩, hdel⟩
    · rintro ⟨⟨hmem, hne⟩, hdel⟩
      exact ⟨⟨hmem, hdel⟩, hne⟩
  erased := by
    rw [BundlerPool.dropNode, if_pos hnode]
    obtain ⟨b, hmem, -⟩ := (hex.nodes node.map_itor node.list_itor).mp hnode
    have hids := NodeList.mem_ids_of_mem hmem
    simp [deleted, hex.erased, hids]

/-- `bind` does what it does on a pool that deletes at once. -/
theorem Exact.bind (hex : pool.Exact) (id : ID_TYPE) (h : t × member_fun) :
    (pool.bind id h).2.Exact ∧
      Bound.step pool.live (.bind id h) = ((pool.bind id h).2.live, .value (pool.bind id h).1) := by
  have hnot : (∀ x ∈ (pool.lists id).nodes, x.2.handler = h → x.2.m_deleted = true) →
      h ∉ pool.live id := fun hall hin => by
    obtain ⟨i, b, hmem, hb, hlive⟩ := mem_liveOf.mp hin
    rw [hall _ hmem hb] at hlive
    cases hlive
  rcases bind_cases hex.toInv id h with ⟨keys', hnodup, hid, hsub, -, hnew, heq⟩ |
    ⟨i, b, hid, hmem, hb, hdel, heq⟩ | ⟨i, b, hid, hmem, hb, hlive, heq⟩
  · rw [heq]
    refine ⟨hex.push hnodup hid hsub hnew, ?_⟩
    rw [Bound.step, if_neg (hnot fun x hx hb => absurd hb (hnew x hx))]
    congr 1
    exact funext fun id' => (live_push pool id id' h).symm
  · rw [heq]
    have hnode := hex.marked id i b hmem hdel
    have hdrop := hex.dropNode hnode
    refine ⟨hdrop.push hdrop.keys_nodup (by rw [keys_dropNode]; exact hid) (List.Subset.refl _)
      (hex.toInv.dropNode_new hmem hb hdel), ?_⟩
    rw [Bound.step, if_neg (hnot ?_)]
    · congr 1
      funext id'
      rw [live_push, live_dropNode hex.toInv hmem hdel, live_dropNode hex.toInv hmem hdel]
      rfl
    · rintro ⟨j, b'⟩ hx hb'
      have hji : j = i := hex.unique id j i b' b hx hmem (hb'.trans hb.symm)
      subst hji
      rw [NodeList.node_unique hx hmem]
      exact hdel
  · rw [heq]
    refine ⟨hex, ?_⟩
    have hin : h ∈ pool.live id := mem_liveOf.mpr ⟨i, b, hmem, hb, hlive⟩
    rw [Bound.step, if_pos hin]

/-- `unbind` of a handler that is not marked does what it does on a pool that deletes at
once. -/
theorem Exact.unbind (hex : pool.Exact) (hclean : ¬ pool.Marked id h) :
    (pool.unbind id h).2.Exact ∧
      Bound.step pool.live (.unbind id h)
        = ((pool.unbind id h).2.live, .value (pool.unbind id h).1) := by
  rcases unbind_cases hex.toInv id h with ⟨hnone, heq⟩ | ⟨i, b, hmem, hb, heq⟩
  · rw [heq]
    refine ⟨hex, ?_⟩
    rw [Bound.step, if_neg fun hin => ?_]
    obtain ⟨i, b, hmem, hb, -⟩ := mem_liveOf.mp hin
    exact hnone _ hmem hb
  · have hlive : b.m_deleted = false := by
      rw [← Bool.not_eq_true]
      exact fun hdel => hclean ⟨i, b, hmem, hb, hdel⟩
    rw [heq]
    refine ⟨hex.mark hmem hlive, ?_⟩
    have hin : h ∈ pool.live id := mem_liveOf.mpr ⟨i, b, hmem, hb, hlive⟩
    rw [Bound.step, if_pos hin]
    congr 1
    exact funext fun id' => (live_mark hex.toInv hmem hb id').symm

/-- `unbind(pObj)` of an object without marked entries keeps the invariant. -/
theorem Exact.unbindObj (hex : pool.Exact) {pObj : t} {order : List ID_TYPE}
    (horder : order.Perm pool.keys)
    (hclean : ∀ id i b, (i, b) ∈ (pool.lists id).nodes → b.m_pObj = pObj → b.m_deleted = false) :
    (pool.unbindObj pObj order).Exact := by
  have hnodup := horder.nodup_iff.mpr hex.keys_nodup
  obtain ⟨-, htwice, hnodes, -⟩ := unbindObj_spec pObj order pool hnodup
  refine { hex.toInv.unbindObj horder with nodup := ?_, nodes := fun id i => ?_, erased := ?_ }
  · rw [hnodes]
    refine List.nodup_append.mpr ⟨hex.nodup, ?_, fun d hd e he hde => ?_⟩
    · refine List.nodup_flatMap.mpr ⟨fun id _ => ?_, hnodup.imp fun {id id'} hne => ?_⟩
      · -- The entries of one list have different numbers.
        refine List.Nodup.of_map DeleteNode.list_itor ?_
        rw [objNodes, List.map_map]
        exact (pool.lists id).ids_nodup.sublist ((List.filter_sublist).map _)
      · intro d hd hd'
        obtain ⟨x, -, rfl⟩ := List.mem_map.mp hd
        obtain ⟨y, -, heq⟩ := List.mem_map.mp hd'
        exact hne (congrArg DeleteNode.map_itor heq).symm
    · -- An entry that was in the list of deletions is marked, and those of the object are not.
      obtain ⟨id, -, he⟩ := List.mem_flatMap.mp he
      obtain ⟨⟨i, b⟩, hx, rfl⟩ := List.mem_map.mp he
      obtain ⟨hmem, hobj⟩ := List.mem_filter.mp hx
      obtain ⟨b', hmem', hdel⟩ := (hex.nodes id i).mp (hde ▸ hd)
      rw [NodeList.node_unique hmem' hmem, hclean id i b hmem (by simpa using hobj)] at hdel
      cases hdel
  · rw [mem_delete_unbindObj hex.toInv horder, hex.nodes id i]
    constructor
    · rintro (⟨b, hmem, hdel⟩ | ⟨b, hmem, hobj⟩)
      · refine ⟨(markObj pObj (i, b)).2, (mem_unbindObj hex.toInv horder).mpr ⟨b, hmem, ?_⟩, ?_⟩
        · unfold markObj
          split <;> rfl
        · unfold markObj
          split
          · rfl
          · exact hdel
      · refine ⟨{ b with m_deleted := true },
          (mem_unbindObj hex.toInv horder).mpr ⟨b, hmem, ?_⟩, rfl⟩
        rw [markObj, if_pos hobj]
    · rintro ⟨b, hmem, hdel⟩
      obtain ⟨b₀, hmem₀, heq⟩ := (mem_unbindObj hex.toInv horder).mp hmem
      unfold markObj at heq
      split at heq
      · -- A marked entry was marked before, or by this call.
        rename_i hobj
        exact .inr ⟨b₀, hmem₀, hobj⟩
      · cases heq
        exact .inl ⟨b, hmem₀, hdel⟩
  · rw [htwice]
    exact hex.erased

/-- `reflush` erases each marked entry once, and nothing else. -/
theorem Exact.reflush (hex : pool.Exact) :
    pool.reflush.Exact ∧ pool.reflush.live = pool.live := by
  refine ⟨{ hex.toInv.reflush with
    nodup := List.nodup_nil
    nodes := fun id i => ⟨nofun, ?_⟩
    erased := ?_ }, funext fun id => ?_⟩
  · rintro ⟨b, hmem, hdel⟩
    obtain ⟨hmem, hnot⟩ := mem_reflush.mp hmem
    exact absurd ((hex.nodes id i).mpr ⟨b, hmem, hdel⟩) hnot
  · refine (erasedTwice_foldl pool.m_delete_list pool).mpr ⟨hex.erased, hex.nodup, ?_⟩
    rintro ⟨id, i⟩ hd
    obtain ⟨b, hmem, -⟩ := (hex.nodes id i).mp hd
    exact NodeList.mem_ids_of_mem hmem
  · exact live_reflush hex.toInv id

/-! ### A pool that is spoilt -/

/-- A handler with a marked entry is unbound. -/
theorem Exact.unbind_spoils (hex : pool.Exact) (hmark : pool.Marked id h) :
    (pool.unbind id h).2.Spoilt := by
  obtain ⟨i, b, hmem, hb, hdel⟩ := hmark
  rcases unbind_cases hex.toInv id h with ⟨hnone, -⟩ | ⟨j, b', hmem', hb', heq⟩
  · exact absurd hb (hnone _ hmem)
  · have hji : j = i := hex.unique id j i b' b hmem' hmem (hb'.trans hb.symm)
    subst hji
    rw [heq]
    refine .inr (.inl fun hnodup => ?_)
    -- The entry has a delete node already.
    exact (List.nodup_append.mp hnodup).2.2 _ (hex.marked id j b hmem hdel) _
      (List.mem_singleton_self _) rfl

/-- An object with a marked entry is unbound. -/
theorem Exact.unbindObj_spoils (hex : pool.Exact) {pObj : t} {order : List ID_TYPE}
    (horder : order.Perm pool.keys) {i : Nat} {b : Bundler t member_fun}
    (hmem : (i, b) ∈ (pool.lists id).nodes) (hobj : b.m_pObj = pObj) (hdel : b.m_deleted = true) :
    (pool.unbindObj pObj order).Spoilt := by
  obtain ⟨-, -, hnodes, -⟩ :=
    unbindObj_spec pObj order pool (horder.nodup_iff.mpr hex.keys_nodup)
  refine .inr (.inl fun hnodup => ?_)
  rw [hnodes] at hnodup
  refine (List.nodup_append.mp hnodup).2.2 _ (hex.marked id i b hmem hdel) _ ?_ rfl
  refine List.mem_flatMap.mpr ⟨id, horder.mem_iff.mpr ?_, ?_⟩
  · by_contra hid
    rw [hex.keyed id hid] at hmem
    cases hmem
  · exact List.mem_map.mpr ⟨_, List.mem_filter.mpr ⟨hmem, by simpa using hobj⟩, rfl⟩

/-- A new entry. -/
theorem Spoilt.push (hsp : pool.Spoilt) (id : ID_TYPE) (h : t × member_fun)
    (keys' : List ID_TYPE) :
    ({ pool.push id h with keys := keys' } : BundlerPool ID_TYPE t member_fun).Spoilt := by
  rcases hsp with htwice | hdup | ⟨d, hd, hgone⟩
  · exact .inl htwice
  · exact .inr (.inl hdup)
  · exact .inr (.inr ⟨d, hd, hgone.push id h⟩)

/-- Another mark. -/
theorem Spoilt.mark (hsp : pool.Spoilt) (id : ID_TYPE) (i : Nat) : (pool.mark id i).Spoilt := by
  rcases hsp with htwice | hdup | ⟨d, hd, hgone⟩
  · exact .inl htwice
  · exact .inr (.inl fun hnodup => hdup (List.nodup_append.mp hnodup).1)
  · exact .inr (.inr ⟨d, List.mem_append_left _ hd, hgone.mark id i⟩)

/-- A delete node is dropped whose entry is there. When it was there twice, its second copy is
now one of an erased element. -/
theorem Spoilt.dropNode (hsp : pool.Spoilt) {i : Nat} (hi : i ∈ (pool.lists id).ids) :
    (pool.dropNode ⟨id, i⟩).Spoilt := by
  unfold BundlerPool.dropNode
  split
  · rename_i hnode
    rcases hsp with htwice | hdup | ⟨d, hd, hgone⟩
    · exact .inl (by simp [deleted, htwice])
    · by_cases hrest : (pool.m_delete_list.erase ⟨id, i⟩).Nodup
      · have hsecond : (⟨id, i⟩ : DeleteNode ID_TYPE) ∈ pool.m_delete_list.erase ⟨id, i⟩ := by
          by_contra hone
          refine hdup ((List.perm_cons_erase hnode).nodup_iff.mpr ?_)
          exact List.nodup_cons.mpr ⟨hone, hrest⟩
        refine .inr (.inr ⟨_, hsecond, ?_, fun hin => (mem_ids_deleted.mp hin).2 rfl⟩)
        show i < ((pool.deleted ⟨id, i⟩).lists id).fresh
        rw [fresh_deleted]
        exact NodeList.lt_fresh hi
      · exact .inr (.inl hrest)
    · have hne : d ≠ ⟨id, i⟩ := by
        rintro rfl
        exact hgone.2 hi
      exact .inr (.inr ⟨d, (List.mem_erase_of_ne hne).mpr hd, hgone.deleted ⟨id, i⟩⟩)
  · exact hsp

/-- `bind` does not mend the pool. -/
theorem Spoilt.bind (hsp : pool.Spoilt) (id : ID_TYPE) (h : t × member_fun) :
    (pool.bind id h).2.Spoilt := by
  unfold BundlerPool.bind
  split
  · split
    · exact hsp.push id h pool.keys
    · rename_i i hfind
      split
      · obtain ⟨b, hmem, -⟩ := mem_of_find hfind
        exact (hsp.dropNode (NodeList.mem_ids_of_mem hmem)).push id h _
      · exact hsp
  · exact hsp.push id h _

/-- `unbind` of a handler does not mend the pool. -/
theorem Spoilt.unbind (hsp : pool.Spoilt) (id : ID_TYPE) (h : t × member_fun) :
    (pool.unbind id h).2.Spoilt := by
  unfold BundlerPool.unbind
  split
  · split
    · exact hsp
    · exact hsp.mark id _
  · exact hsp

/-- `unbind(pObj)` does not mend the pool. -/
theorem Spoilt.unbindObj (hsp : pool.Spoilt) (pObj : t) (order : List ID_TYPE) :
    (pool.unbindObj pObj order).Spoilt :=
  unbindObj_induction (P := Spoilt) (fun _ id j hp => hp.mark id j) pObj order pool hsp

/-- `reflush` erases an element twice. -/
theorem Spoilt.reflush (hsp : pool.Spoilt) : pool.reflush.Spoilt := by
  refine .inl ?_
  show (pool.m_delete_list.foldl deleted pool).erasedTwice = true
  rw [← Bool.not_eq_false, erasedTwice_foldl]
  rintro ⟨hpool, hnodup, hall⟩
  rcases hsp with htwice | hdup | ⟨d, hd, -, hnot⟩
  · rw [htwice] at hpool
    cases hpool
  · exact hdup hnodup
  · exact hnot (hall d hd)

/-! ### Which handlers have an entry -/

/-- A handler has an entry, marked or not. -/
def Has (pool : BundlerPool ID_TYPE t member_fun) (id : ID_TYPE) (h : t × member_fun) : Prop :=
  ∃ i b, (i, b) ∈ (pool.lists id).nodes ∧ b.handler = h

/-- The handlers with a marked entry are those that have one and are not bound. -/
theorem marked_iff (hinv : pool.Inv) : pool.Marked id h ↔ pool.Has id h ∧ h ∉ pool.live id := by
  constructor
  · rintro ⟨i, b, hmem, hb, hdel⟩
    refine ⟨⟨i, b, hmem, hb⟩, fun hin => ?_⟩
    obtain ⟨j, b', hmem', hb', hlive⟩ := mem_liveOf.mp hin
    have hji : j = i := hinv.unique id j i b' b hmem' hmem (hb'.trans hb.symm)
    subst hji
    rw [NodeList.node_unique hmem' hmem, hdel] at hlive
    cases hlive
  · rintro ⟨⟨i, b, hmem, hb⟩, hnot⟩
    refine ⟨i, b, hmem, hb, ?_⟩
    rw [← Bool.not_eq_false]
    exact fun hlive => hnot (mem_liveOf.mpr ⟨i, b, hmem, hb, hlive⟩)

/-- A pushed handler has an entry. -/
theorem has_push (pool : BundlerPool ID_TYPE t member_fun) (id id' : ID_TYPE)
    (h g : t × member_fun) :
    (pool.push id h).Has id' g ↔ pool.Has id' g ∨ id' = id ∧ g = h := by
  constructor
  · rintro ⟨i, b, hmem, rfl⟩
    rcases mem_push.mp hmem with hmem | ⟨hid, heq⟩
    · exact .inl ⟨i, b, hmem, rfl⟩
    · cases heq
      exact .inr ⟨hid, rfl⟩
  · rintro (⟨i, b, hmem, rfl⟩ | ⟨hid, rfl⟩)
    · exact ⟨i, b, mem_push.mpr (.inl hmem), rfl⟩
    · exact ⟨_, _, mem_push.mpr (.inr ⟨hid, rfl⟩), rfl⟩

/-- After `bind` the handler has an entry, and the others have one when they had. -/
theorem has_bind (hinv : pool.Inv) (id id' : ID_TYPE) (h g : t × member_fun) :
    (pool.bind id h).2.Has id' g ↔ pool.Has id' g ∨ id' = id ∧ g = h := by
  rcases bind_cases hinv id h with ⟨keys', -, -, -, -, -, heq⟩ |
    ⟨i, b, -, hmem, hb, hdel, heq⟩ | ⟨i, b, -, hmem, hb, -, heq⟩
  · rw [heq]
    exact has_push pool id id' h g
  · rw [heq]
    refine (has_push _ id id' h g).trans ?_
    constructor
    · rintro (⟨j, b', hmem', hb'⟩ | hself)
      · exact .inl ⟨j, b', ((mem_dropNode (hinv.marked id i b hmem hdel)).mp hmem').1, hb'⟩
      · exact .inr hself
    · rintro (⟨j, b', hmem', hb'⟩ | hself)
      · by_cases hnode : (⟨id', j⟩ : DeleteNode ID_TYPE) = ⟨id, i⟩
        · cases hnode
          rw [NodeList.node_unique hmem' hmem, hb] at hb'
          exact .inr ⟨rfl, hb'.symm⟩
        · exact .inl ⟨j, b', (mem_dropNode (hinv.marked id i b hmem hdel)).mpr ⟨hmem', hnode⟩,
            hb'⟩
      · exact .inr hself
  · rw [heq]
    refine ⟨.inl, ?_⟩
    rintro (hhas | ⟨rfl, rfl⟩)
    · exact hhas
    · exact ⟨i, b, hmem, hb⟩

/-- Marking takes no entry away. -/
theorem has_mark (pool : BundlerPool ID_TYPE t member_fun) (id id' : ID_TYPE) (i : Nat)
    (g : t × member_fun) : (pool.mark id i).Has id' g ↔ pool.Has id' g := by
  constructor
  · rintro ⟨j, b, hmem, rfl⟩
    rw [mem_mark] at hmem
    split at hmem
    · obtain ⟨b₀, hmem, rfl⟩ := hmem
      exact ⟨j, b₀, hmem, rfl⟩
    · exact ⟨j, b, hmem, rfl⟩
  · rintro ⟨j, b, hmem, rfl⟩
    by_cases heq : id' = id ∧ j = i
    · exact ⟨j, { b with m_deleted := true },
        mem_mark.mpr (by rw [if_pos heq]; exact ⟨b, hmem, rfl⟩), rfl⟩
    · exact ⟨j, b, mem_mark.mpr (by rwa [if_neg heq]), rfl⟩

/-- `unbind` of a handler takes no entry away. -/
theorem has_unbind (hinv : pool.Inv) (id id' : ID_TYPE) (h g : t × member_fun) :
    (pool.unbind id h).2.Has id' g ↔ pool.Has id' g := by
  rcases unbind_cases hinv id h with ⟨-, heq⟩ | ⟨i, b, -, -, heq⟩
  · rw [heq]
  · rw [heq]
    exact has_mark pool id id' i g

/-- `unbind(pObj)` takes no entry away. -/
theorem has_unbindObj (hinv : pool.Inv) {pObj : t} {order : List ID_TYPE}
    (horder : order.Perm pool.keys) (id : ID_TYPE) (g : t × member_fun) :
    (pool.unbindObj pObj order).Has id g ↔ pool.Has id g := by
  have hhandler : ∀ i (b : Bundler t member_fun),
      (markObj pObj (i, b)).1 = i ∧ (markObj pObj (i, b)).2.handler = b.handler := by
    intro i b
    unfold markObj
    split <;> exact ⟨rfl, rfl⟩
  constructor
  · rintro ⟨i, b, hmem, rfl⟩
    obtain ⟨b₀, hmem, heq⟩ := (mem_unbindObj hinv horder).mp hmem
    exact ⟨i, b₀, hmem, by rw [← (hhandler i b₀).2, ← heq]⟩
  · rintro ⟨i, b, hmem, rfl⟩
    refine ⟨i, (markObj pObj (i, b)).2, (mem_unbindObj hinv horder).mpr ⟨b, hmem, ?_⟩,
      (hhandler i b).2⟩
    exact Prod.ext (hhandler i b).1.symm rfl

/-- After `reflush` the bound handlers have an entry. -/
theorem Exact.has_reflush (hex : pool.Exact) (id : ID_TYPE) (g : t × member_fun) :
    pool.reflush.Has id g ↔ g ∈ pool.live id := by
  rw [← hex.reflush.2, live, mem_liveOf]
  refine exists_congr fun i => exists_congr fun b => ?_
  rw [← and_assoc]
  refine ⟨fun hhas => ⟨hhas, ?_⟩, fun hlive => hlive.1⟩
  rw [← Bool.not_eq_true]
  intro hdel
  obtain ⟨hmem, hnot⟩ := mem_reflush.mp hhas.1
  exact hnot (hex.marked id i b hmem hdel)

/-- The handlers that a call runs are those that are bound. -/
theorem call_bundler_eq (hinv : pool.Inv) (id : ID_TYPE) : pool.call_bundler id = pool.live id := by
  unfold call_bundler
  split
  · simp [live, liveOf, NodeList.values, List.filter_map, Function.comp_def]
  · rename_i hid
    rw [live, hinv.keyed id hid]
    rfl

/-- The keys after `bind`. -/
theorem keys_bind (hinv : pool.Inv) (id : ID_TYPE) (h : t × member_fun) :
    (pool.bind id h).2.keys = if id ∈ pool.keys then pool.keys else pool.keys ++ [id] := by
  rcases bind_cases hinv id h with ⟨keys', -, -, -, hkeys, -, heq⟩ |
    ⟨i, b, hid, -, -, -, heq⟩ | ⟨i, b, hid, -, -, -, heq⟩
  · rw [heq]
    exact hkeys
  · rw [heq, if_pos hid]
    exact keys_dropNode pool _
  · rw [heq, if_pos hid]

/-- The keys after `unbind` of a handler. -/
theorem keys_unbind (hinv : pool.Inv) (id : ID_TYPE) (h : t × member_fun) :
    (pool.unbind id h).2.keys = pool.keys := by
  rcases unbind_cases hinv id h with ⟨-, heq⟩ | ⟨i, b, -, -, heq⟩ <;> rw [heq]
  rfl

end BundlerPool

/-! ### Runs -/

namespace BundlerRun

open BundlerPool

/-- The condition on a call: it does not unbind a handler that is unbound already and whose
entry is still in the list. -/
def Clean (st : BundlerRun ID_TYPE t member_fun) : BundlerCall ID_TYPE t member_fun → Prop
  | .unbind id h => ¬ st.pool.Marked id h
  | .unbindObj pObj _ => ∀ id h, h.1 = pObj → ¬ st.pool.Marked id h
  | _ => True

/-- The answers are those of a pool that deletes at once, and `m_delete_list` has one node for
each marked entry. -/
def Unobservable (st : BundlerRun ID_TYPE t member_fun) : Prop :=
  st.log.map Prod.snd = outputs Bound.step (fun _ => []) (st.log.map Prod.fst) ∧ st.pool.OneNode

/-- One call that meets the condition does what it does on a pool that deletes at once. -/
theorem step_refines {st st' : BundlerRun ID_TYPE t member_fun}
    {c : BundlerCall ID_TYPE t member_fun} (hex : st.pool.Exact) (hclean : st.Clean c)
    (hstep : st.step c = some st') :
    st'.pool.Exact ∧ ∃ ans, st'.log = st.log ++ [(c, ans)] ∧
      Bound.step st.pool.live c = (st'.pool.live, ans) := by
  cases c with
  | bind id h =>
      obtain ⟨hex', heq⟩ := hex.bind id h
      cases hstep
      exact ⟨hex', _, rfl, heq⟩
  | unbind id h =>
      obtain ⟨hex', heq⟩ := hex.unbind hclean
      cases hstep
      exact ⟨hex', _, rfl, heq⟩
  | unbindObj pObj order =>
      simp only [step] at hstep
      split at hstep
      · rename_i horder
        cases hstep
        refine ⟨hex.unbindObj horder fun id i b hmem hobj => ?_, _, rfl, ?_⟩
        · rw [← Bool.not_eq_true]
          exact fun hdel => hclean id b.handler hobj ⟨i, b, hmem, rfl, hdel⟩
        · rw [Bound.step]
          congr 1
          exact funext fun id => (live_unbindObj hex.toInv horder id).symm
      · cases hstep
  | call_bundler id =>
      cases hstep
      refine ⟨hex, _, rfl, ?_⟩
      rw [call_bundler_eq hex.toInv]
      rfl
  | reflush =>
      obtain ⟨hex', hlive⟩ := hex.reflush
      cases hstep
      exact ⟨hex', _, rfl, by rw [hlive]; rfl⟩

/-- The invariant of the runs whose calls all meet the condition. -/
structure Good (st : BundlerRun ID_TYPE t member_fun) : Prop where
  exact : st.pool.Exact
  explains : Explains Bound.step (fun _ => []) st.log st.pool.live

/-- A new pool satisfies the invariant. -/
theorem init_good : (init : BundlerRun ID_TYPE t member_fun).Good where
  exact := init_exact
  explains := explains_nil _

/-- A call that meets the condition keeps the invariant. -/
theorem Good.step {st st' : BundlerRun ID_TYPE t member_fun}
    {c : BundlerCall ID_TYPE t member_fun} (h : st.Good) (hclean : st.Clean c)
    (hstep : st.step c = some st') : st'.Good := by
  obtain ⟨hex, ans, hlog, heq⟩ := step_refines h.exact hclean hstep
  refine ⟨hex, ?_⟩
  have hsnoc := explains_snoc h.explains c
  rw [heq] at hsnoc
  rw [hlog]
  exact hsnoc

/-- A call that does not meet the condition spoils the pool. -/
theorem Good.step_spoils {st st' : BundlerRun ID_TYPE t member_fun}
    {c : BundlerCall ID_TYPE t member_fun} (h : st.Good) (hclean : ¬ st.Clean c)
    (hstep : st.step c = some st') : st'.pool.Spoilt := by
  cases c with
  | unbind id g =>
      cases hstep
      exact h.exact.unbind_spoils (not_not.mp hclean)
  | unbindObj pObj order =>
      simp only [BundlerRun.step] at hstep
      split at hstep
      · rename_i horder
        cases hstep
        simp only [Clean, not_forall, not_not] at hclean
        obtain ⟨id, g, hobj, i, b, hmem, rfl, hdel⟩ := hclean
        exact h.exact.unbindObj_spoils horder hmem hobj hdel
      · cases hstep
  | bind id g => exact absurd trivial hclean
  | call_bundler id => exact absurd trivial hclean
  | reflush => exact absurd trivial hclean

/-- No call mends a spoilt pool. -/
theorem spoilt_step {st st' : BundlerRun ID_TYPE t member_fun}
    {c : BundlerCall ID_TYPE t member_fun} (h : st.pool.Spoilt) (hstep : st.step c = some st') :
    st'.pool.Spoilt := by
  cases c with
  | bind id g =>
      cases hstep
      exact h.bind id g
  | unbind id g =>
      cases hstep
      exact h.unbind id g
  | unbindObj pObj order =>
      simp only [BundlerRun.step] at hstep
      split at hstep
      · cases hstep
        exact h.unbindObj pObj order
      · cases hstep
  | call_bundler id =>
      cases hstep
      exact h
  | reflush =>
      cases hstep
      exact h.reflush

/-! ### One more `reflush` -/

/-- `st'` is `st` with fewer marked entries. -/
structure Flushed (st st' : BundlerRun ID_TYPE t member_fun) : Prop where
  keys : st'.pool.keys = st.pool.keys
  live : st'.pool.live = st.pool.live
  has : ∀ id h, st'.pool.Has id h → st.pool.Has id h

/-- The state after one more `reflush` has fewer marked entries. -/
theorem Good.flushed {st : BundlerRun ID_TYPE t member_fun} (h : st.Good)
    (log : List (BundlerCall ID_TYPE t member_fun × BundlerAnswer t member_fun)) :
    Flushed st ⟨st.pool.reflush, log⟩ where
  keys := keys_foldl_deleted _ _
  live := h.exact.reflush.2
  has id g hhas := by
    obtain ⟨i, b, hmem, hb, -⟩ := mem_liveOf.mp ((h.exact.has_reflush id g).mp hhas)
    exact ⟨i, b, hmem, hb⟩

/-- With fewer marked entries the same call meets the condition too, shows the same, and leaves
fewer marked entries. -/
theorem Flushed.step {s s' u : BundlerRun ID_TYPE t member_fun}
    {c : BundlerCall ID_TYPE t member_fun} (h : Flushed s s') (hs : s.pool.Exact)
    (hs' : s'.pool.Exact) (hclean : s.Clean c) (hstep : s.step c = some u) :
    s'.Clean c ∧ ∃ u' e, s'.step c = some u' ∧ Flushed u u' ∧ u.log = s.log ++ [e] ∧
      u'.log = s'.log ++ [e] := by
  have hmarked : ∀ id g, s'.pool.Marked id g → s.pool.Marked id g := by
    intro id g hm
    rw [marked_iff hs'.toInv, h.live] at hm
    exact (marked_iff hs.toInv).mpr ⟨h.has id g hm.1, hm.2⟩
  have hclean' : s'.Clean c := by
    cases c with
    | unbind id g => exact fun hm => hclean (hmarked id g hm)
    | unbindObj pObj order => exact fun id g hobj hm => hclean id g hobj (hmarked id g hm)
    | bind id g => trivial
    | call_bundler id => trivial
    | reflush => trivial
  obtain ⟨u', hstep'⟩ : ∃ u', s'.step c = some u' := by
    cases c with
    | unbindObj pObj order =>
        simp only [BundlerRun.step] at hstep ⊢
        rw [h.keys]
        split at hstep
        · rename_i horder
          exact ⟨_, if_pos horder⟩
        · cases hstep
    | bind id g => exact ⟨_, rfl⟩
    | unbind id g => exact ⟨_, rfl⟩
    | call_bundler id => exact ⟨_, rfl⟩
    | reflush => exact ⟨_, rfl⟩
  obtain ⟨-, ans, hlog, heq⟩ := step_refines hs hclean hstep
  obtain ⟨-, ans', hlog', heq'⟩ := step_refines hs' hclean' hstep'
  -- Both pools have the same bound handlers, so they show the same.
  rw [h.live, heq] at heq'
  obtain ⟨hlive, rfl⟩ := Prod.mk.inj heq'
  refine ⟨hclean', u', _, hstep', ⟨?_, hlive.symm, fun id g hhas => ?_⟩, hlog, hlog'⟩
  · cases c with
    | bind id g =>
        cases hstep
        cases hstep'
        rw [keys_bind hs.toInv, keys_bind hs'.toInv, h.keys]
    | unbind id g =>
        cases hstep
        cases hstep'
        rw [keys_unbind hs.toInv, keys_unbind hs'.toInv, h.keys]
    | unbindObj pObj order =>
        simp only [BundlerRun.step] at hstep hstep'
        split at hstep
        · rename_i horder
          rw [if_pos (h.keys ▸ horder)] at hstep'
          cases hstep
          cases hstep'
          have hnodup := horder.nodup_iff.mpr hs.keys_nodup
          rw [(unbindObj_spec pObj order _ hnodup).1, (unbindObj_spec pObj order _ hnodup).1,
            h.keys]
        · cases hstep
    | call_bundler id =>
        cases hstep
        cases hstep'
        exact h.keys
    | reflush =>
        cases hstep
        cases hstep'
        exact (keys_foldl_deleted _ _).trans (h.keys.trans (keys_foldl_deleted _ _).symm)
  · cases c with
    | bind id' f =>
        cases hstep
        cases hstep'
        rw [has_bind hs'.toInv] at hhas
        exact (has_bind hs.toInv id' id f g).mpr (hhas.imp_left (h.has id g))
    | unbind id' f =>
        cases hstep
        cases hstep'
        rw [has_unbind hs'.toInv] at hhas
        exact (has_unbind hs.toInv id' id f g).mpr (h.has id g hhas)
    | unbindObj pObj order =>
        simp only [BundlerRun.step] at hstep hstep'
        split at hstep
        · rename_i horder
          have horder' := h.keys ▸ horder
          rw [if_pos horder'] at hstep'
          cases hstep
          cases hstep'
          rw [has_unbindObj hs'.toInv horder'] at hhas
          exact (has_unbindObj hs.toInv horder id g).mpr (h.has id g hhas)
        · cases hstep
    | call_bundler id' =>
        cases hstep
        cases hstep'
        exact h.has id g hhas
    | reflush =>
        cases hstep
        cases hstep'
        rw [hs'.has_reflush, h.live] at hhas
        exact (hs.has_reflush id g).mpr hhas

/-- With fewer marked entries the same calls show the same. -/
theorem Flushed.run {as : List (BundlerCall ID_TYPE t member_fun)} :
    ∀ {s s' u : BundlerRun ID_TYPE t member_fun}, Flushed s s' → s.Good → s'.Good →
      AllSteps BundlerRun.step Clean s as → Lib.run BundlerRun.step s as = some u →
        ∃ u' m, Lib.run BundlerRun.step s' as = some u' ∧ u'.Good ∧ u.log = s.log ++ m ∧
          u'.log = s'.log ++ m := by
  induction as with
  | nil =>
      intro s s' u _ _ hs' _ hrun
      rw [run_nil, Option.some.injEq] at hrun
      exact ⟨s', [], rfl, hs', by simp [hrun], by simp⟩
  | cons c as ih =>
      intro s s' u h hs hs' hall hrun
      rw [run_cons] at hrun
      obtain ⟨v, hstep, hrun⟩ := Option.bind_eq_some_iff.mp hrun
      obtain ⟨hclean, hall⟩ := (allSteps_cons hstep).mp hall
      obtain ⟨hclean', v', e, hstep', hv, hlog, hlog'⟩ := h.step hs.exact hs'.exact hclean hstep
      obtain ⟨u', m, hrun', hu', hm, hm'⟩ :=
        ih hv (hs.step hclean hstep) (hs'.step hclean' hstep') hall hrun
      refine ⟨u', e :: m, ?_, hu', by rw [hm, hlog, List.append_assoc]; rfl,
        by rw [hm', hlog', List.append_assoc]; rfl⟩
      rw [run_cons, hstep']
      exact hrun'

/-- Each call has its place in the log. -/
theorem length_log {as : List (BundlerCall ID_TYPE t member_fun)}
    {st : BundlerRun ID_TYPE t member_fun} (h : run step init as = some st) :
    st.log.length = as.length := by
  refine run_induction (fun as st => st.log.length = as.length) rfl ?_ h
  intro as s c s' _ hlen hstep
  have hone : s'.log.length = s.log.length + 1 := by
    cases c with
    | unbindObj pObj order =>
        simp only [step] at hstep
        split at hstep
        · cases hstep
          simp
        · cases hstep
    | bind id g =>
        cases hstep
        simp
    | unbind id g =>
        cases hstep
        simp
    | call_bundler id =>
        cases hstep
        simp
    | reflush =>
        cases hstep
        simp
  rw [hone, hlen, List.length_append, List.length_singleton]

/-- A `reflush` at any place of a run changes no answer: the log of the run with it is the log
of the run, with the `reflush` in its place. -/
def ReflushAnywhere (as : List (BundlerCall ID_TYPE t member_fun))
    (st : BundlerRun ID_TYPE t member_fun) : Prop :=
  ∀ as₁ as₂, as = as₁ ++ as₂ → ∃ st', run step init (as₁ ++ .reflush :: as₂) = some st' ∧
    st'.Unobservable ∧
    st'.log = st.log.take as₁.length ++ (.reflush, .none) :: st.log.drop as₁.length

/-- A run with the invariant keeps it with one more `reflush`. -/
theorem reflush_anywhere {as : List (BundlerCall ID_TYPE t member_fun)}
    {st : BundlerRun ID_TYPE t member_fun} (h : run step init as = some st)
    (hall : AllSteps step Clean init as) : ReflushAnywhere as st := by
  rintro as₁ as₂ rfl
  obtain ⟨s, hs, hrest⟩ := run_append_some h
  obtain ⟨hall₁, hall₂⟩ := (allSteps_append hs).mp hall
  have hgood : s.Good :=
    run_invariant_of (fun _ _ _ h hC hstep => h.step hC hstep) init_good hall₁ hs
  have hgood' : (⟨s.pool.reflush, s.log ++ [(.reflush, .none)]⟩ :
      BundlerRun ID_TYPE t member_fun).Good := hgood.step (c := .reflush) trivial rfl
  obtain ⟨u', m, hrun', hu', hm, hm'⟩ := (hgood.flushed _).run hgood hgood' hall₂ hrest
  have hlen := length_log hs
  refine ⟨u', ?_, ⟨hu'.explains.outputs, hu'.exact.toOneNode⟩, ?_⟩
  · rw [run_append, hs]
    exact hrun'
  · rw [hm', hm, ← hlen, List.take_left, List.drop_left, List.append_assoc]
    rfl

/-- When deleting later cannot be told from deleting at once. For any calls one after the other,
all of the following holds just when no call unbinds a handler that is unbound already and
whose entry is still in the list: the values of `bind` and `unbind` and the handlers that each
call runs are those of a pool that deletes at once; a `reflush` anywhere changes none of them;
`m_delete_list` has exactly one node for each marked entry, and no element is erased twice. -/
theorem lazy_deletion_iff {as : List (BundlerCall ID_TYPE t member_fun)}
    {st : BundlerRun ID_TYPE t member_fun} (h : run step init as = some st) :
    st.Unobservable ∧ ReflushAnywhere as st ↔ AllSteps step Clean init as := by
  rcases run_good_or_bad (A := fun _ _ => True) (C := Clean) (G := Good)
    (B := fun st => st.pool.Spoilt) (fun _ _ _ hs _ hC hstep => hs.step hC hstep)
    (fun _ _ _ hs _ hC hstep => hs.step_spoils hC hstep)
    (fun _ _ _ hs _ hstep => spoilt_step hs hstep)
    init_good (allSteps_of_forall (fun _ _ => trivial) _ _) h with ⟨hall, hgood⟩ | ⟨hnot, hbad⟩
  · exact ⟨fun _ => hall, fun _ =>
      ⟨⟨hgood.explains.outputs, hgood.exact.toOneNode⟩, reflush_anywhere h hall⟩⟩
  · exact ⟨fun hobs => absurd hbad hobs.1.2.not_spoilt, fun hall => absurd hall hnot⟩

/-- A handler is unbound, bound again before a `reflush`, and called. -/
theorem lazy_deletion_rebind :
    ∃ st : BundlerRun Nat Nat Nat,
      run step init [.bind 0 (1, 2), .bind 0 (3, 4), .unbind 0 (1, 2), .bind 0 (1, 2), .reflush,
        .call_bundler 0] = some st ∧ st.Unobservable ∧
        (st.log.map Prod.snd)[5]? = some (.handlers [(3, 4), (1, 2)]) := by
  have hrun : run step (init : BundlerRun Nat Nat Nat) [.bind 0 (1, 2), .bind 0 (3, 4),
    .unbind 0 (1, 2), .bind 0 (1, 2), .reflush, .call_bundler 0] = some _ := rfl
  refine ⟨_, hrun, ((lazy_deletion_iff hrun).mpr ?_).1, rfl⟩
  refine ⟨trivial, trivial, ?_, trivial, trivial, trivial, trivial⟩
  rintro ⟨i, b, hmem, -, hdel⟩
  have hentries : (i, b) ∈ [(0, Bundler.mk 1 2 false), (1, Bundler.mk 3 4 false)] := hmem
  simp only [List.mem_cons, Prod.mk.injEq, List.not_mem_nil, or_false] at hentries
  rcases hentries with ⟨-, rfl⟩ | ⟨-, rfl⟩ <;> cases hdel

/-- A handler is unbound twice: `unbind` returns true the second time, and `reflush` erases its
entry twice. -/
theorem unbind_twice :
    ∃ st : BundlerRun Nat Nat Nat,
      run step init [.bind 0 (1, 2), .unbind 0 (1, 2), .unbind 0 (1, 2), .reflush] = some st ∧
        (st.log.map Prod.snd)[2]? = some (.value true) ∧
        (outputs Bound.step (fun _ => []) (st.log.map Prod.fst))[2]? = some (.value false) ∧
        st.pool.erasedTwice = true ∧ ¬ st.Unobservable :=
  ⟨_, rfl, rfl, rfl, rfl, fun hobs => absurd hobs.2.erased (by decide)⟩

end BundlerRun

end Kernel4GameServer
