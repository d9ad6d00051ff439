import Kernel4GameServer.Lib.Chain
import Kernel4GameServer.Proofs.Public.TPool
import Kernel4GameServer.Timermgr.Timermgr
import Mathlib.Logic.Function.Basic
import Mathlib.Tactic.Common

/-!
# `Kernel4GameServer.Proofs.Timermgr.Wheel`: the slots as lists of nodes

`Rep m lists` says that the slot with the number `key` holds the nodes `lists key`, linked in
this order, and that no node is in two slots. Each operation of the timer manager on a slot
is an operation on `lists`: `SlotAdd` puts a node in front, the loop of `TimeSlot::Run`
takes the front off, and writes to nodes in no slot change nothing.
-/

set_option autoImplicit false

namespace Kernel4GameServer.Timermgr

open Lib

/-- The next pointers of the nodes. -/
def next (m : Timermgr) (p : Nat) : Option Nat := (m.node p).m_pNext

/-- The head of a slot. A slot that is not in the map has none. -/
def head (m : Timermgr) (key : Int) : Option Nat := (m.m_oTimeSlotMap key).bind (·.m_pHead)

/-- A node is in some slot. -/
def Linked (lists : Int → List Nat) (p : Nat) : Prop := ∃ key, p ∈ lists key

/-- The slots hold the lists, and no node is in two of them. -/
structure Rep (m : Timermgr) (lists : Int → List Nat) : Prop where
  chain : ∀ key, Chain m.next (m.head key) (lists key)
  apart : ∀ {key key' p}, p ∈ lists key → p ∈ lists key' → key = key'

@[simp] theorem node_setNode_self (m : Timermgr) (p : Nat) (n : TimeNode) :
    (m.setNode p n).node p = n :=
  TPool.set_unit_self _ _ _

@[simp] theorem node_setNode_other (m : Timermgr) {p q : Nat} (n : TimeNode) (h : q ≠ p) :
    (m.setNode p n).node q = m.node q :=
  TPool.set_unit_other _ _ h

@[simp] theorem node_setSlot (m : Timermgr) (key : Int) (slot : Option TimeSlot) (p : Nat) :
    (m.setSlot key slot).node p = m.node p := rfl

/-- The nodes behind `SlotAdd`: the new one points at the old head. -/
theorem node_SlotAdd (m : Timermgr) (key : Int) (p q : Nat) :
    (m.SlotAdd key p).node q
      = if q = p then { m.node p with m_pNext := m.head key } else m.node q := by
  have hhead : ((m.m_oTimeSlotMap key).getD ⟨none, 0⟩).m_pHead = m.head key := by
    unfold head
    cases m.m_oTimeSlotMap key <;> rfl
  simp only [SlotAdd, node_setSlot, hhead]
  by_cases hq : q = p
  · subst hq
    simp
  · simp [hq]

/-- The heads behind `SlotAdd`. -/
theorem head_SlotAdd (m : Timermgr) (key key' : Int) (p : Nat) :
    (m.SlotAdd key p).head key' = if key' = key then some p else m.head key' := by
  simp only [SlotAdd, setSlot, head]
  split <;> rfl

namespace Rep

variable {m m' : Timermgr} {lists : Int → List Nat}

/-- The lists depend on the heads and on the nodes in the slots only. -/
theorem frame (h : Rep m lists) (hhead : ∀ key, m'.head key = m.head key)
    (hnode : ∀ p, Linked lists p → m'.node p = m.node p) : Rep m' lists where
  chain key := by
    rw [hhead]
    refine (h.chain key).frame fun q hq => ?_
    rw [next, next, hnode q ⟨key, hq⟩]
  apart := h.apart

/-- A write to a node in no slot. -/
theorem setNode (h : Rep m lists) {p : Nat} (hp : ¬ Linked lists p) (n : TimeNode) :
    Rep (m.setNode p n) lists :=
  h.frame (fun _ => rfl) fun _ hq => node_setNode_other m n fun hqp => hp (hqp ▸ hq)

/-- `SlotAdd` of a node in no slot puts it in front. -/
theorem SlotAdd (h : Rep m lists) {p : Nat} (hp : ¬ Linked lists p) (key : Int) :
    Rep (m.SlotAdd key p) (Function.update lists key (p :: lists key)) where
  chain key' := by
    have hother : ∀ q, q ≠ p → (m.SlotAdd key p).next q = m.next q := by
      intro q hq
      rw [next, next, node_SlotAdd, if_neg hq]
    rw [head_SlotAdd]
    by_cases hkey : key' = key
    · subst hkey
      rw [if_pos rfl, Function.update_self]
      refine (h.chain key').push (fun hin => hp ⟨key', hin⟩) ?_ hother
      rw [next, node_SlotAdd, if_pos rfl]
    · rw [if_neg hkey, Function.update_of_ne hkey]
      exact (h.chain key').frame fun q hq => hother q fun hqp => hp ⟨key', hqp ▸ hq⟩
  apart := by
    intro k k' q hq hq'
    -- A node that is in two slots is an old one, or the new one in the slot `key` twice.
    have hmem : ∀ {k}, q ∈ Function.update lists key (p :: lists key) k →
        (q = p ∧ k = key) ∨ q ∈ lists k := by
      intro k hk
      by_cases hkk : k = key
      · subst hkk
        rw [Function.update_self] at hk
        rcases List.mem_cons.mp hk with rfl | hk
        · exact .inl ⟨rfl, rfl⟩
        · exact .inr hk
      · rw [Function.update_of_ne hkk] at hk
        exact .inr hk
    rcases hmem hq with ⟨hqp, hk⟩ | hold
    · rcases hmem hq' with ⟨-, hk'⟩ | hold'
      · rw [hk, hk']
      · exact absurd ⟨k', hqp ▸ hold'⟩ hp
    · rcases hmem hq' with ⟨hqp, -⟩ | hold'
      · exact absurd ⟨k, hqp ▸ hold⟩ hp
      · exact h.apart hold hold'

/-- The loop of `TimeSlot::Run` takes the front off a slot. -/
theorem pop (h : Rep m lists) {key : Int} {slot : TimeSlot} {p : Nat}
    (hslot : m.m_oTimeSlotMap key = some slot) (hhead : slot.m_pHead = some p) :
    ∃ l, lists key = p :: l ∧
      Rep (m.setSlot key (some { slot with m_pHead := (m.node p).m_pNext }))
        (Function.update lists key l) := by
  have hchain := h.chain key
  have hkey : m.head key = some p := by
    rw [head, hslot]
    exact hhead
  rw [hkey] at hchain
  obtain ⟨l, hl, hrest⟩ := chain_some.mp hchain
  refine ⟨l, hl, ⟨fun key' => ?_, fun {k k' q} hq hq' => ?_⟩⟩
  · by_cases hk : key' = key
    · subst hk
      rw [Function.update_self]
      have hnew : (m.setSlot key' (some { slot with m_pHead := (m.node p).m_pNext })).head key'
          = m.next p := by
        simp [head, setSlot, next]
      rw [hnew]
      exact hrest
    · rw [Function.update_of_ne hk]
      have hold : (m.setSlot key (some { slot with m_pHead := (m.node p).m_pNext })).head key'
          = m.head key' := by
        simp [head, setSlot, hk]
      rw [hold]
      exact h.chain key'
  · -- Every node of the new lists is in the old ones.
    have hmem : ∀ {k}, q ∈ Function.update lists key l k → q ∈ lists k := by
      intro k hk
      by_cases hkk : k = key
      · subst hkk
        rw [Function.update_self] at hk
        rw [hl]
        exact List.mem_cons_of_mem p hk
      · rwa [Function.update_of_ne hkk] at hk
    exact h.apart (hmem hq) (hmem hq')

/-- `SlotRun` gives an empty slot back. -/
theorem erase (h : Rep m lists) {key : Int} (hkey : m.head key = none) :
    Rep (m.setSlot key none) lists := by
  refine h.frame (fun key' => ?_) fun _ _ => rfl
  by_cases hk : key' = key
  · subst hk
    rw [hkey]
    simp [head, setSlot]
  · simp [head, setSlot, hk]

/-- A slot without a head holds no node. -/
theorem list_eq_nil (h : Rep m lists) {key : Int} (hkey : m.head key = none) :
    lists key = [] := by
  have hchain := h.chain key
  rw [hkey] at hchain
  exact chain_none.mp hchain

/-- No node comes twice in a slot. -/
theorem nodup (h : Rep m lists) (key : Int) : (lists key).Nodup := (h.chain key).nodup

end Rep

end Kernel4GameServer.Timermgr
