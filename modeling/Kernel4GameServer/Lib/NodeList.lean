import Mathlib.Data.List.Nodup
import Mathlib.Tactic.Common

/-!
# `Kernel4GameServer.Lib.NodeList`: a linked list whose iterators stay valid

`NodeList α` is a list of nodes with a number each, as a program sees a linked list that it
grows at its end and erases from: an iterator is the number of its node, and stays good until
that node is erased. No number is given out twice, so an iterator of an erased node is none of
a later one.

Numbers grow along the list. That turns the way of an iterator into arithmetic: `next` goes to
the least greater number in the list (`next_some`, `next_none`).
-/

set_option autoImplicit false

namespace Lib

/-- A linked list. `fresh` is the number of the next new node. -/
structure NodeList (α : Type) where
  nodes : List (Nat × α)
  fresh : Nat
  sorted : nodes.Pairwise fun x y => x.1 < y.1
  below : ∀ x ∈ nodes, x.1 < fresh

namespace NodeList

variable {α : Type}

/-- The iterators that can be read. -/
def ids (l : NodeList α) : List Nat := l.nodes.map Prod.fst

/-- The elements in order. -/
def values (l : NodeList α) : List α := l.nodes.map Prod.snd

/-- The list without nodes. -/
def empty : NodeList α := ⟨[], 0, List.Pairwise.nil, nofun⟩

/-- A new node at the end. -/
def push_back (l : NodeList α) (a : α) : NodeList α where
  nodes := l.nodes ++ [(l.fresh, a)]
  fresh := l.fresh + 1
  sorted := List.pairwise_append.mpr ⟨l.sorted, List.pairwise_singleton _ _, fun x hx y hy => by
    rw [List.mem_singleton.mp hy]
    exact l.below x hx⟩
  below x hx := by
    rcases List.mem_append.mp hx with hx | hx
    · exact Nat.lt_succ_of_lt (l.below x hx)
    · rw [List.mem_singleton.mp hx]
      exact Nat.lt_succ_self _

/-- The list without the node `i`. -/
def erase (l : NodeList α) (i : Nat) : NodeList α where
  nodes := l.nodes.filter fun x => x.1 != i
  fresh := l.fresh
  sorted := l.sorted.filter _
  below x hx := l.below x (List.mem_filter.mp hx).1

/-- A write to the element of the node `i`. -/
def modify (l : NodeList α) (i : Nat) (f : α → α) : NodeList α where
  nodes := l.nodes.map fun x => if x.1 = i then (x.1, f x.2) else x
  fresh := l.fresh
  sorted := by
    refine List.pairwise_map.mpr (l.sorted.imp fun {x y} h => ?_)
    split <;> split <;> exact h
  below x hx := by
    obtain ⟨y, hy, rfl⟩ := List.mem_map.mp hx
    split <;> exact l.below y hy

/-- The element of the node `i`; `none` when the node is erased. -/
def get? (l : NodeList α) (i : Nat) : Option α :=
  (l.nodes.find? fun x => x.1 == i).map Prod.snd

/-- The iterator of the first node; `none` is the end. -/
def first (l : NodeList α) : Option Nat := l.nodes.head?.map Prod.fst

/-- The iterator behind the node `i`; `none` is the end. -/
def next (l : NodeList α) (i : Nat) : Option Nat :=
  ((l.nodes.dropWhile fun x => x.1 != i).tail.head?).map Prod.fst

/-- The iterator of the first element with a property; `none` is the end. -/
def find (l : NodeList α) (p : α → Bool) : Option Nat :=
  (l.nodes.find? fun x => p x.2).map Prod.fst

variable {l : NodeList α} {i j : Nat} {a : α}

/-! ### Nodes and their numbers -/

theorem mem_ids : i ∈ l.ids ↔ ∃ a, (i, a) ∈ l.nodes := by
  simp [ids]

theorem mem_ids_of_mem {x : Nat × α} (h : x ∈ l.nodes) : x.1 ∈ l.ids :=
  List.mem_map_of_mem h

theorem lt_fresh (h : i ∈ l.ids) : i < l.fresh := by
  obtain ⟨a, ha⟩ := mem_ids.mp h
  exact l.below _ ha

/-- The numbers grow along the list. -/
theorem ids_sorted (l : NodeList α) : l.ids.Pairwise (· < ·) := List.pairwise_map.mpr l.sorted

/-- No two nodes have one number. -/
theorem ids_nodup (l : NodeList α) : l.ids.Nodup := l.ids_sorted.imp Nat.ne_of_lt

/-- The number of a node determines its element. -/
theorem node_unique {b : α} (h : (i, a) ∈ l.nodes) (h' : (i, b) ∈ l.nodes) : a = b :=
  congrArg Prod.snd (List.inj_on_of_nodup_map l.ids_nodup h h' rfl)

@[simp] theorem ids_empty : (empty : NodeList α).ids = [] := rfl

@[simp] theorem nodes_empty : (empty : NodeList α).nodes = [] := rfl

@[simp] theorem mem_push_back {x : Nat × α} :
    x ∈ (l.push_back a).nodes ↔ x ∈ l.nodes ∨ x = (l.fresh, a) := by
  simp [push_back]

@[simp] theorem mem_ids_push_back : i ∈ (l.push_back a).ids ↔ i ∈ l.ids ∨ i = l.fresh := by
  simp [ids, push_back]

@[simp] theorem mem_erase {x : Nat × α} : x ∈ (l.erase i).nodes ↔ x ∈ l.nodes ∧ x.1 ≠ i := by
  simp [erase]

@[simp] theorem mem_ids_erase : j ∈ (l.erase i).ids ↔ j ∈ l.ids ∧ j ≠ i := by
  simp only [mem_ids, mem_erase]
  exact exists_and_right

@[simp] theorem fresh_push_back (l : NodeList α) (a : α) : (l.push_back a).fresh = l.fresh + 1 :=
  rfl

@[simp] theorem fresh_erase (l : NodeList α) (i : Nat) : (l.erase i).fresh = l.fresh := rfl

@[simp] theorem fresh_modify (l : NodeList α) (i : Nat) (f : α → α) :
    (l.modify i f).fresh = l.fresh := rfl

@[simp] theorem ids_modify (l : NodeList α) (i : Nat) (f : α → α) : (l.modify i f).ids = l.ids := by
  simp only [ids, modify, List.map_map]
  refine List.map_congr_left fun x _ => ?_
  simp only [Function.comp_apply]
  split <;> rfl

/-- The nodes after a write to the element of the node `i`. -/
theorem mem_modify {f : α → α} :
    (j, a) ∈ (l.modify i f).nodes ↔
      if j = i then ∃ b, (j, b) ∈ l.nodes ∧ a = f b else (j, a) ∈ l.nodes := by
  simp only [modify, List.mem_map]
  constructor
  · rintro ⟨⟨k, b⟩, hmem, heq⟩
    split at heq <;> cases heq
    · rename_i hk
      rw [if_pos hk]
      exact ⟨b, hmem, rfl⟩
    · rename_i hk
      rwa [if_neg hk]
  · intro h
    split at h
    · rename_i hj
      obtain ⟨b, hb, rfl⟩ := h
      exact ⟨(j, b), hb, if_pos hj⟩
    · rename_i hj
      exact ⟨(j, a), h, if_neg hj⟩

/-! ### Iterators -/

/-- The element behind an iterator is that of its node. -/
theorem get?_eq_some : l.get? i = some a ↔ (i, a) ∈ l.nodes := by
  unfold get?
  constructor
  · intro h
    obtain ⟨x, hx, rfl⟩ := Option.map_eq_some_iff.mp h
    have hi : x.1 = i := by simpa using List.find?_some hx
    exact hi ▸ List.mem_of_find?_eq_some hx
  · intro h
    cases hfind : l.nodes.find? fun x => x.1 == i with
    | none =>
        rw [List.find?_eq_none] at hfind
        exact absurd (beq_self_eq_true i) (hfind _ h)
    | some x =>
        obtain ⟨k, b⟩ := x
        obtain rfl : k = i := by simpa using List.find?_some hfind
        rw [node_unique (List.mem_of_find?_eq_some hfind) h]
        rfl

/-- An iterator can be read while its node is in the list. -/
theorem get?_isSome : (l.get? i).isSome = true ↔ i ∈ l.ids := by
  rw [Option.isSome_iff_exists, mem_ids]
  exact exists_congr fun a => get?_eq_some

/-- The first node has the least number. -/
theorem first_some (h : l.first = some i) : i ∈ l.ids ∧ ∀ k ∈ l.ids, i ≤ k := by
  obtain ⟨x, hx, rfl⟩ := Option.map_eq_some_iff.mp h
  obtain ⟨rest, hrest⟩ := List.head?_eq_some_iff.mp hx
  have hsorted := l.ids_sorted
  have hids : l.ids = x.1 :: rest.map Prod.fst := by rw [ids, hrest, List.map_cons]
  rw [hids, List.pairwise_cons] at hsorted
  rw [hids]
  refine ⟨List.mem_cons_self, fun k hk => ?_⟩
  rcases List.mem_cons.mp hk with rfl | hk
  · exact Nat.le_refl _
  · exact Nat.le_of_lt (hsorted.1 k hk)

/-- A list without a first node has no nodes. -/
theorem first_none (h : l.first = none) : l.nodes = [] := by
  rwa [first, Option.map_eq_none_iff, List.head?_eq_none_iff] at h

/-- The list splits at a node, with the nodes of smaller numbers in front of it. -/
theorem split (h : i ∈ l.ids) : ∃ pre a post, l.nodes = pre ++ (i, a) :: post ∧
    (∀ x ∈ pre, x.1 < i) ∧ (∀ x ∈ post, i < x.1) ∧
    (l.nodes.dropWhile fun x => x.1 != i) = (i, a) :: post := by
  obtain ⟨a, ha⟩ := mem_ids.mp h
  obtain ⟨pre, post, hsplit⟩ := List.append_of_mem ha
  have hsorted := l.sorted
  rw [hsplit, List.pairwise_append, List.pairwise_cons] at hsorted
  have hpre : ∀ x ∈ pre, x.1 < i := fun x hx => hsorted.2.2 x hx _ List.mem_cons_self
  refine ⟨pre, a, post, hsplit, hpre, fun x hx => hsorted.2.1.1 x hx, ?_⟩
  rw [hsplit, List.dropWhile_append_of_pos fun x hx => by simpa using Nat.ne_of_lt (hpre x hx)]
  simp

/-- `next` goes to the least greater number. -/
theorem next_some (hi : i ∈ l.ids) (h : l.next i = some j) :
    j ∈ l.ids ∧ i < j ∧ ∀ k ∈ l.ids, i < k → j ≤ k := by
  obtain ⟨pre, a, post, hsplit, hpre, hpost, hdrop⟩ := split hi
  rw [next, hdrop, List.tail_cons] at h
  obtain ⟨x, hx, rfl⟩ := Option.map_eq_some_iff.mp h
  obtain ⟨rest, rfl⟩ := List.head?_eq_some_iff.mp hx
  have hsorted := l.sorted
  rw [hsplit, List.pairwise_append, List.pairwise_cons, List.pairwise_cons] at hsorted
  refine ⟨mem_ids_of_mem (by rw [hsplit]; simp), hpost x List.mem_cons_self, fun k hk hik => ?_⟩
  obtain ⟨b, hb⟩ := mem_ids.mp hk
  rw [hsplit, List.mem_append, List.mem_cons, List.mem_cons] at hb
  rcases hb with hb | heq | rfl | hb
  · exact absurd hik (by have := hpre _ hb; simp only at this; omega)
  · cases heq
    omega
  · exact Nat.le_refl _
  · exact Nat.le_of_lt (hsorted.2.1.2.1 _ hb)

/-- At the end there is no greater number. -/
theorem next_none (hi : i ∈ l.ids) (h : l.next i = none) : ∀ k ∈ l.ids, k ≤ i := by
  obtain ⟨pre, a, post, hsplit, hpre, -, hdrop⟩ := split hi
  rw [next, hdrop, List.tail_cons, Option.map_eq_none_iff, List.head?_eq_none_iff] at h
  intro k hk
  obtain ⟨b, hb⟩ := mem_ids.mp hk
  rw [hsplit, h, List.mem_append, List.mem_singleton] at hb
  rcases hb with hb | heq
  · exact Nat.le_of_lt (hpre _ hb)
  · cases heq
    exact Nat.le_refl _

/-- What `find` finds has the property. -/
theorem find_some {p : α → Bool} (h : l.find p = some i) :
    ∃ a, (i, a) ∈ l.nodes ∧ p a = true := by
  obtain ⟨x, hx, rfl⟩ := Option.map_eq_some_iff.mp h
  exact ⟨x.2, List.mem_of_find?_eq_some hx, by simpa using List.find?_some hx⟩

/-- What `find` does not find is not there. -/
theorem find_none {p : α → Bool} (h : l.find p = none) {x : Nat × α} (hx : x ∈ l.nodes) :
    p x.2 = false := by
  rw [find, Option.map_eq_none_iff, List.find?_eq_none] at h
  simpa using h x hx

end NodeList

end Lib
