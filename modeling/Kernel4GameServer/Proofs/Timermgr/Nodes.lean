import Kernel4GameServer.Proofs.Timermgr.PlanInv
import Kernel4GameServer.Proofs.Timermgr.Wheel

/-!
# `Kernel4GameServer.Proofs.Timermgr.Nodes`: who owns a node

`Holds m lists loose calls phase` ties the memory of the timer manager to the phases of the
calls. A node in use is in exactly one slot or `loose`, which is the node whose callback
runs. The node in a slot is that of a call that waits, and the slot is that of the firing it
waits for. Every call that waits has such a node, and no two nodes are of one call.

Below are the operations: a node is allocated (`Holds.alloc`), linked into a slot
(`Holds.link`), taken off it (`Holds.pop`), written while it is loose (`Holds.setNode`) and
released (`Holds.release`). A node is allocated loose and released loose, so a node that is
given back to the pool is in no slot.
-/

set_option autoImplicit false

namespace Kernel4GameServer

open Lib

/-- The node is that of the call `c` before its firing `h`. -/
structure TimeNode.Is (n : TimeNode) (c : StartCall) (h : Nat) : Prop where
  status : n.m_byStatus = .TIMER_STATUS_RUN
  interval : n.m_nInterval = c.interval
  hitCount : n.m_nHitCount = h
  maxHitCount : n.m_nMaxHitCount = c.loop
  nextRunTick : n.m_lNextRunTick = c.due h

/-- A phase in which the node of a call is in no slot. -/
def Phase.Loose (x : Phase) : Prop := ∀ h, x ≠ .waiting h

namespace Timermgr

/-- The node at `p` is in use. -/
def InUse (m : Timermgr) (p : Nat) : Prop := m.s_oTimeNodePool.inUse p = true

/-- The memory of the timer manager holds the timers of the calls. -/
structure Holds (start : Int) (m : Timermgr) (lists : Int → List Nat) (loose : Nat → Prop)
    (calls : List StartCall) (phase : Nat → Phase) : Prop where
  rep : Rep m lists
  pool : m.s_oTimeNodePool.Inv
  /-- No node is ever entered into the node map. -/
  unregistered : m.s_oTimeNodeMap = []
  started : m.m_lStartRunTick = start
  scale : m.m_nTimeScale = 20
  inUse : ∀ p, m.InUse p ↔ Linked lists p ∨ loose p
  apart : ∀ {p : Nat}, loose p → ¬ Linked lists p
  injective : ∀ {p q : Nat}, m.InUse p → m.InUse q → (m.node p).call = (m.node q).call → p = q
  called : ∀ {p : Nat}, m.InUse p → (m.node p).call < calls.length
  waiting : ∀ {key : Int} {p : Nat}, p ∈ lists key → ∃ c h,
    calls[(m.node p).call]? = some c ∧ phase (m.node p).call = .waiting h ∧
      (m.node p).Is c h ∧ c.slot start h = key
  covered : ∀ {i : Nat} {c : StartCall} {h : Nat}, calls[i]? = some c → phase i = .waiting h →
    ∃ p, p ∈ lists (c.slot start h) ∧ (m.node p).call = i

/-! ### What the operations compute -/

variable {start : Int} {m m' : Timermgr} {lists : Int → List Nat} {loose loose' : Nat → Prop}
  {calls : List StartCall} {phase : Nat → Phase}

/-- Nothing is found in an empty node map. -/
theorem FindNode_eq (h : m.s_oTimeNodeMap = []) (id : Int) (timer : Nat) (remove : Bool) :
    m.FindNode id timer remove = (none, m) := by
  simp only [FindNode, h, List.lookup_nil]

/-- `ResetTimeNode` links the node into the slot of its next tick. -/
theorem ResetTimeNode_eq (hstart : m.m_lStartRunTick = start) (hscale : m.m_nTimeScale = 20)
    {p : Nat} (hle : start ≤ (m.node p).m_lNextRunTick)
    (hlt : (m.node p).m_lNextRunTick - start < 42949672960) :
    m.ResetTimeNode p = m.SlotAdd (((m.node p).m_lNextRunTick - start) / 20) p := by
  have hdiv : ((m.node p).m_lNextRunTick - start).tdiv 20
      = ((m.node p).m_lNextRunTick - start) / 20 :=
    Int.tdiv_eq_ediv_of_nonneg (by omega)
  unfold ResetTimeNode
  rw [hstart, hscale, hdiv, s32_of_range (by omega) (by omega)]

/-- The target of the cursor. -/
theorem target_eq (hstart : m.m_lStartRunTick = start) (hscale : m.m_nTimeScale = 20)
    (lTick : Int) : m.target lTick = reach start lTick := by
  unfold target
  rw [hstart, hscale]
  rfl

/-- A slot that is in the map stays there. -/
theorem slot_SlotAdd (m : Timermgr) (key key' : Int) (p : Nat)
    (h : (m.m_oTimeSlotMap key').isSome) : ((m.SlotAdd key p).m_oTimeSlotMap key').isSome := by
  simp only [SlotAdd, setSlot]
  split
  · rfl
  · exact h

/-- A new node was not in use. -/
theorem not_inUse_Create {p : Nat} {pool : TPool TimeNode} (hinv : m.s_oTimeNodePool.Inv)
    (hcreate : m.s_oTimeNodePool.Create .zero TIMENODE_COUNT = some (p, pool)) :
    ¬ m.InUse p := by
  intro hused
  have hfree := (TPool.Create_spec hinv hcreate).2.1
  exact absurd (hused.symm.trans hfree) (by decide)

/-- The nodes in use are as they were when a new node is written. -/
theorem node_Create {p q : Nat} {pool : TPool TimeNode} (hinv : m.s_oTimeNodePool.Inv)
    (hcreate : m.s_oTimeNodePool.Create .zero TIMENODE_COUNT = some (p, pool)) (n : TimeNode)
    (hq : m.InUse q) :
    ({ m with s_oTimeNodePool := pool }.setNode p n).node q = m.node q := by
  have hqp : q ≠ p := fun heq => not_inUse_Create hinv hcreate (heq ▸ hq)
  rw [node_setNode_other _ _ hqp]
  exact (TPool.Create_spec hinv hcreate).2.2.2 q hq

/-- At the start no node is in use. -/
theorem not_inUse_init (start : Int) (p : Nat) : ¬ (Timermgr.init start).InUse p := by
  show ¬ (if _ then false else false) = true
  rw [ite_self]
  exact Bool.false_ne_true

/-! ### The operations keep the nodes in order -/

namespace Holds

/-- The memory behind `Initialize()`. -/
theorem init (start : Int) (phase : Nat → Phase) :
    Holds start (.init start) (fun _ => []) (fun _ => False) [] phase where
  rep := ⟨fun _ => .nil, fun h => by cases h⟩
  pool := TPool.init_inv _ _
  unregistered := rfl
  started := rfl
  scale := rfl
  inUse p := by
    constructor
    · intro hp
      exact absurd hp (not_inUse_init start p)
    · rintro (⟨_, hp⟩ | hp)
      · cases hp
      · exact hp.elim
  apart h := h.elim
  injective hp := absurd hp (not_inUse_init start _)
  called hp := absurd hp (not_inUse_init start _)
  waiting h := by cases h
  covered h := by cases h

/-- The cursor is no matter. -/
theorem cursor (h : Holds start m lists loose calls phase) (nCursor : Int) :
    Holds start { m with m_nCursor := nCursor } lists loose calls phase :=
  { h with rep := ⟨h.rep.chain, h.rep.apart⟩ }

/-- An empty slot is given back. -/
theorem erase (h : Holds start m lists loose calls phase) {key : Int} (hkey : m.head key = none) :
    Holds start (m.setSlot key none) lists loose calls phase :=
  { h with rep := h.rep.erase hkey }

/-- A loose node is that of no waiting call. -/
theorem call_ne (h : Holds start m lists loose calls phase) {p q : Nat} (hp : loose p)
    (hq : Linked lists q) : (m.node q).call ≠ (m.node p).call := by
  intro heq
  have hqp : q = p := h.injective ((h.inUse q).mpr (.inl hq)) ((h.inUse p).mpr (.inr hp)) heq
  exact h.apart hp (hqp ▸ hq)

/-- The call of a loose node goes to another phase without a slot. -/
theorem setPhase (h : Holds start m lists loose calls phase) {p i : Nat} (hp : loose p)
    (hi : (m.node p).call = i) {x : Phase} (hx : x.Loose) :
    Holds start m lists loose calls (Function.update phase i x) :=
  { h with
    waiting := by
      intro key q hq
      rw [Function.update_of_ne (hi ▸ h.call_ne hp ⟨key, hq⟩)]
      exact h.waiting hq
    covered := by
      intro j c k hc hk
      by_cases hj : j = i
      · rw [hj, Function.update_self] at hk
        exact absurd hk (hx k)
      · rw [Function.update_of_ne hj] at hk
        exact h.covered hc hk }

/-- A write to a loose node that does not change its call. -/
theorem setNode (h : Holds start m lists loose calls phase) {p : Nat} (hp : loose p)
    {n : TimeNode} (hn : n.call = (m.node p).call) :
    Holds start (m.setNode p n) lists loose calls phase := by
  have hcall : ∀ q, ((m.setNode p n).node q).call = (m.node q).call := by
    intro q
    by_cases hq : q = p
    · subst hq
      rw [node_setNode_self, hn]
    · rw [node_setNode_other m n hq]
  have hlinked : ∀ q, Linked lists q → (m.setNode p n).node q = m.node q := by
    intro q hq
    exact node_setNode_other m n fun hqp => h.apart hp (hqp ▸ hq)
  exact
    { h with
      rep := h.rep.setNode (h.apart hp) n
      pool := TPool.set_inv h.pool p n
      injective := by
        intro q r hq hr heq
        rw [hcall, hcall] at heq
        exact h.injective hq hr heq
      called := by
        intro q hq
        rw [hcall]
        exact h.called hq
      waiting := by
        intro key q hq
        rw [hlinked q ⟨key, hq⟩]
        exact h.waiting hq
      covered := by
        intro i c k hc hk
        obtain ⟨q, hq, hi⟩ := h.covered hc hk
        exact ⟨q, hq, (hcall q).trans hi⟩ }

/-- A new node is loose, and of a call that is new. -/
theorem alloc (h : Holds start m lists loose calls phase) {p : Nat} {pool : TPool TimeNode}
    {n : TimeNode} {c : StartCall} {x : Phase} (hx : x.Loose)
    (hcreate : m.s_oTimeNodePool.Create .zero TIMENODE_COUNT = some (p, pool))
    (hn : n.call = calls.length) (hloose : ∀ q, loose' q ↔ q = p ∨ loose q) :
    Holds start ({ m with s_oTimeNodePool := pool }.setNode p n) lists loose' (calls ++ [c])
      (Function.update phase calls.length x) := by
  obtain ⟨hinv, -, hin, -⟩ := TPool.Create_spec h.pool hcreate
  have hp : ¬ m.InUse p := not_inUse_Create h.pool hcreate
  have hnew : ¬ Linked lists p := fun hl => hp ((h.inUse p).mpr (.inl hl))
  have hold := fun q => node_Create h.pool hcreate n (q := q)
  have hlinked : ∀ q, Linked lists q → m.InUse q := fun q hq => (h.inUse q).mpr (.inl hq)
  -- The number of the new call is past those of the nodes in use.
  have hne : ∀ q, m.InUse q → (m.node q).call ≠ calls.length :=
    fun q hq => Nat.ne_of_lt (h.called hq)
  exact
    { rep := h.rep.frame (fun _ => rfl) fun q hq => hold q (hlinked q hq)
      pool := TPool.set_inv hinv p n
      unregistered := h.unregistered
      started := h.started
      scale := h.scale
      inUse := by
        intro q
        have hiff : pool.inUse q = true ↔ q = p ∨ m.InUse q := hin q
        show pool.inUse q = true ↔ _
        rw [hiff, h.inUse, hloose]
        tauto
      apart := by
        intro q hq
        rcases (hloose q).mp hq with rfl | hq
        · exact hnew
        · exact h.apart hq
      injective := by
        intro q r hq hr heq
        rcases (hin q).mp hq with rfl | hq' <;> rcases (hin r).mp hr with rfl | hr'
        · rfl
        · rw [node_setNode_self, hold r hr', hn] at heq
          exact absurd heq.symm (hne r hr')
        · rw [node_setNode_self, hold q hq', hn] at heq
          exact absurd heq (hne q hq')
        · rw [hold q hq', hold r hr'] at heq
          exact h.injective hq' hr' heq
      called := by
        intro q hq
        rw [List.length_append, List.length_singleton]
        rcases (hin q).mp hq with rfl | hq'
        · rw [node_setNode_self, hn]
          exact Nat.lt_succ_self _
        · rw [hold q hq']
          exact Nat.lt_succ_of_lt (h.called hq')
      waiting := by
        intro key q hq
        have hused := hlinked q ⟨key, hq⟩
        obtain ⟨d, k, hd, hk, his, hslot⟩ := h.waiting hq
        rw [hold q hused, Function.update_of_ne (hne q hused)]
        exact ⟨d, k, (List.getElem?_append_left (h.called hused)).trans hd, hk, his, hslot⟩
      covered := by
        intro i d k hd hk
        rcases getElem?_snoc hd with hd | ⟨rfl, rfl⟩
        · have hlt := (List.getElem?_eq_some_iff.mp hd).1
          rw [Function.update_of_ne (Nat.ne_of_lt hlt)] at hk
          obtain ⟨q, hq, hi⟩ := h.covered hd hk
          exact ⟨q, hq, by rw [hold q (hlinked q ⟨_, hq⟩), hi]⟩
        · -- A loose phase waits for nothing, so the new call needs no node in a slot.
          rw [Function.update_self] at hk
          exact absurd hk (hx k) }

/-- A loose node is linked into the slot of the firing that its call then waits for. -/
theorem link (h : Holds start m lists loose calls phase) {p i : Nat} (hp : loose p)
    (hi : (m.node p).call = i) {c : StartCall} {k : Nat} (hc : calls[i]? = some c)
    (his : (m.node p).Is c k)
    (hloose : ∀ q, loose' q ↔ loose q ∧ q ≠ p) :
    Holds start (m.SlotAdd (c.slot start k) p)
      (Function.update lists (c.slot start k) (p :: lists (c.slot start k))) loose' calls
      (Function.update phase i (.waiting k)) := by
  subst hi
  have hcall : ∀ q, ((m.SlotAdd (c.slot start k) p).node q).call = (m.node q).call := by
    intro q
    rw [node_SlotAdd]
    split
    · rename_i hqp
      rw [hqp]
    · rfl
  -- A node in a slot is the new one in its slot, or an old one.
  have hmem : ∀ {key q},
      q ∈ Function.update lists (c.slot start k) (p :: lists (c.slot start k)) key ↔
        (q = p ∧ key = c.slot start k) ∨ q ∈ lists key := by
    intro key q
    by_cases hkey : key = c.slot start k
    · subst hkey
      rw [Function.update_self, List.mem_cons]
      simp
    · rw [Function.update_of_ne hkey]
      simp [hkey]
  have hlinked : ∀ q,
      Linked (Function.update lists (c.slot start k) (p :: lists (c.slot start k))) q ↔
        q = p ∨ Linked lists q := by
    intro q
    unfold Linked
    simp only [hmem, exists_or, exists_and_left, exists_eq, and_true]
  exact
    { rep := h.rep.SlotAdd (h.apart hp) _
      pool := TPool.set_inv h.pool _ _
      unregistered := h.unregistered
      started := h.started
      scale := h.scale
      inUse := by
        intro q
        have hiff : m.InUse q ↔ Linked lists q ∨ loose q := h.inUse q
        show m.InUse q ↔ _
        rw [hiff, hlinked, hloose]
        by_cases hqp : q = p
        · subst hqp
          simp [hp]
        · simp [hqp]
      apart := by
        intro q hq hl
        obtain ⟨hq, hqp⟩ := (hloose q).mp hq
        rcases (hlinked q).mp hl with heq | hl
        · exact hqp heq
        · exact h.apart hq hl
      injective := by
        intro q r hq hr heq
        rw [hcall, hcall] at heq
        exact h.injective hq hr heq
      called := by
        intro q hq
        rw [hcall]
        exact h.called hq
      waiting := by
        intro key q hq
        rw [hcall]
        rcases hmem.mp hq with ⟨rfl, rfl⟩ | hold
        · rw [Function.update_self]
          refine ⟨c, k, hc, rfl, ?_, rfl⟩
          rw [node_SlotAdd, if_pos rfl]
          exact ⟨his.status, his.interval, his.hitCount, his.maxHitCount, his.nextRunTick⟩
        · have hqp : q ≠ p := fun heq => h.apart hp ⟨key, heq ▸ hold⟩
          rw [Function.update_of_ne (h.call_ne hp ⟨key, hold⟩), node_SlotAdd, if_neg hqp]
          exact h.waiting hold
      covered := by
        intro i d j hd hj
        by_cases hi : i = (m.node p).call
        · subst hi
          rw [Function.update_self] at hj
          cases hj
          obtain rfl : c = d := Option.some.inj (hc.symm.trans hd)
          exact ⟨p, hmem.mpr (.inl ⟨rfl, rfl⟩), hcall p⟩
        · rw [Function.update_of_ne hi] at hj
          obtain ⟨q, hq, hqi⟩ := h.covered hd hj
          exact ⟨q, hmem.mpr (.inr hq), (hcall q).trans hqi⟩ }

/-- The front of a slot is taken off it, and its call stops waiting. -/
theorem pop (h : Holds start m lists loose calls phase) {key : Int} {slot : TimeSlot} {p : Nat}
    {x : Phase} (hslot : m.m_oTimeSlotMap key = some slot) (hhead : slot.m_pHead = some p)
    (hx : x.Loose) (hloose : ∀ q, loose' q ↔ q = p ∨ loose q) :
    p ∈ lists key ∧ ∃ lists',
      Holds start (m.setSlot key (some { slot with m_pHead := (m.node p).m_pNext })) lists'
        loose' calls (Function.update phase (m.node p).call x) := by
  obtain ⟨l, hl, hrep⟩ := h.rep.pop hslot hhead
  have hnodup : (p :: l).Nodup := hl ▸ h.rep.nodup key
  have hpl : p ∉ l := (List.nodup_cons.mp hnodup).1
  have hp : p ∈ lists key := hl ▸ List.mem_cons_self
  -- What is left in the slots are the other nodes.
  have hmem : ∀ {key' q}, q ∈ Function.update lists key l key' ↔ q ∈ lists key' ∧ q ≠ p := by
    intro key' q
    by_cases hkey : key' = key
    · subst hkey
      rw [Function.update_self, hl, List.mem_cons]
      constructor
      · intro hq
        exact ⟨.inr hq, fun heq => hpl (heq ▸ hq)⟩
      · rintro ⟨heq | hq, hqp⟩
        · exact absurd heq hqp
        · exact hq
    · rw [Function.update_of_ne hkey, iff_self_and]
      intro hq heq
      exact hkey (h.rep.apart (heq ▸ hq) hp)
  have hlinked : ∀ q, Linked (Function.update lists key l) q ↔ Linked lists q ∧ q ≠ p := by
    intro q
    unfold Linked
    simp only [hmem, exists_and_right]
  have hused : ∀ {q}, Linked lists q → m.InUse q := fun hq => (h.inUse _).mpr (.inl hq)
  have hne : ∀ {q}, Linked lists q → q ≠ p → (m.node q).call ≠ (m.node p).call :=
    fun hq hqp heq => hqp (h.injective (hused hq) (hused ⟨key, hp⟩) heq)
  refine ⟨hp, Function.update lists key l, ?_⟩
  exact
    { rep := hrep
      pool := h.pool
      unregistered := h.unregistered
      started := h.started
      scale := h.scale
      inUse := by
        intro q
        have hiff : m.InUse q ↔ Linked lists q ∨ loose q := h.inUse q
        show m.InUse q ↔ _
        rw [hiff, hlinked, hloose]
        by_cases hqp : q = p
        · subst hqp
          have hlink : Linked lists q := ⟨key, hp⟩
          simp [hlink]
        · simp [hqp]
      apart := by
        intro q hq hl
        obtain ⟨hold, hqp⟩ := (hlinked q).mp hl
        rcases (hloose q).mp hq with heq | hq
        · exact hqp heq
        · exact h.apart hq hold
      injective := h.injective
      called := h.called
      waiting := by
        intro key' q hq
        obtain ⟨hold, hqp⟩ := hmem.mp hq
        rw [node_setSlot, Function.update_of_ne (hne ⟨key', hold⟩ hqp)]
        exact h.waiting hold
      covered := by
        intro i d j hd hj
        by_cases hi : i = (m.node p).call
        · rw [hi, Function.update_self] at hj
          exact absurd hj (hx j)
        · rw [Function.update_of_ne hi] at hj
          obtain ⟨q, hq, hqi⟩ := h.covered hd hj
          have hqp : q ≠ p := fun heq => hi (hqi.symm.trans (heq ▸ rfl))
          exact ⟨q, hmem.mpr ⟨hq, hqp⟩, hqi⟩ }

/-- A loose node is given back to the pool. -/
theorem release (h : Holds start m lists loose calls phase) {p : Nat} (hp : loose p)
    (hloose : ∀ q, loose' q ↔ loose q ∧ q ≠ p) :
    Holds start (m.Release p) lists loose' calls phase := by
  have hused : m.InUse p := (h.inUse p).mpr (.inr hp)
  obtain ⟨hinv, hunit, hin⟩ := TPool.Recover_spec (TPool.set_inv h.pool p .zero) hused
  have hinUse : ∀ q, (m.Release p).InUse q ↔ m.InUse q ∧ q ≠ p := by
    intro q
    show (TPool.Recover (m.s_oTimeNodePool.set p .zero) p).inUse q = true ↔ _
    rw [hin]
    by_cases hqp : q = p
    · simp [hqp]
    · simp [hqp, InUse]
  have hnode : ∀ q, q ≠ p → (m.Release p).node q = m.node q := by
    intro q hqp
    show (TPool.Recover (m.s_oTimeNodePool.set p .zero) p).unit q = _
    rw [hunit]
    exact TPool.set_unit_other _ _ hqp
  -- A loose node is in no slot.
  have hother : ∀ {q}, Linked lists q → q ≠ p := fun hq heq => h.apart hp (heq ▸ hq)
  exact
    { rep := h.rep.frame (fun _ => rfl) fun q hq => hnode q (hother hq)
      pool := hinv
      unregistered := h.unregistered
      started := h.started
      scale := h.scale
      inUse := by
        intro q
        rw [hinUse, h.inUse, hloose]
        constructor
        · rintro ⟨hl | hq, hqp⟩
          · exact .inl hl
          · exact .inr ⟨hq, hqp⟩
        · rintro (hl | ⟨hq, hqp⟩)
          · exact ⟨.inl hl, hother hl⟩
          · exact ⟨.inr hq, hqp⟩
      apart := fun hq => h.apart ((hloose _).mp hq).1
      injective := by
        intro q r hq hr heq
        obtain ⟨hq, hqp⟩ := (hinUse q).mp hq
        obtain ⟨hr, hrp⟩ := (hinUse r).mp hr
        rw [hnode q hqp, hnode r hrp] at heq
        exact h.injective hq hr heq
      called := by
        intro q hq
        obtain ⟨hq, hqp⟩ := (hinUse q).mp hq
        rw [hnode q hqp]
        exact h.called hq
      waiting := by
        intro key q hq
        rw [hnode q (hother ⟨key, hq⟩)]
        exact h.waiting hq
      covered := by
        intro i d j hd hj
        obtain ⟨q, hq, hqi⟩ := h.covered hd hj
        exact ⟨q, hq, by rw [hnode q (hother ⟨_, hq⟩), hqi]⟩ }

/-- What `StartTimer` does: the new call waits for its first firing, and the nodes in use, the
cursor and the slots in the map stay. -/
theorem StartTimer (h : Holds start m lists loose calls phase) {c : StartCall}
    (hc : c.Bounded start) (hle : start ≤ c.t0) {interval delay loop : Int}
    (hi : s32 interval = c.interval) (hd : s32 delay = c.delay) (hl : s32 loop = c.loop)
    (hm' : m.StartTimer calls.length c.t0 c.id c.timer interval delay loop = some m') :
    (∃ lists', Holds start m' lists' loose (calls ++ [c])
      (Function.update phase calls.length (.waiting 0))) ∧
    m'.m_nCursor = m.m_nCursor ∧ (∀ q, m.InUse q → m'.node q = m.node q) ∧
    ∀ key, (m.m_oTimeSlotMap key).isSome = true → (m'.m_oTimeSlotMap key).isSome = true := by
  simp only [Timermgr.StartTimer, SetTimer, FindNode_eq h.unregistered, Option.map_map, hi, hd,
    hl] at hm'
  obtain ⟨⟨p, pool⟩, hcreate, rfl⟩ := Option.map_eq_some_iff.mp hm'
  have hp : ¬ m.InUse p := not_inUse_Create h.pool hcreate
  -- The new node is loose until `ResetTimeNode` links it.
  have hnew : ∀ q, (q = p ∨ loose q) ↔ q = p ∨ loose q := fun _ => Iff.rfl
  have halloc := h.alloc (x := .starting) (c := c)
    (n := .Initialize calls.length c.t0 c.id c.timer c.interval c.loop c.delay)
    (fun _ h => by cases h) hcreate rfl hnew
  have hself := node_setNode_self { m with s_oTimeNodePool := pool } p
    (.Initialize calls.length c.t0 c.id c.timer c.interval c.loop c.delay)
  have his : (TimeNode.Initialize calls.length c.t0 c.id c.timer c.interval c.loop c.delay).Is
      c 0 := ⟨rfl, rfl, rfl, rfl, c.due_zero.symm⟩
  have hnext := his.nextRunTick
  have hdue := c.due_zero
  have hup := hc.due_lt
  have hge := hc.delay_nonneg
  have hreset := ResetTimeNode_eq (p := p) halloc.started halloc.scale
    (by rw [hself, hnext]; omega) (by rw [hself, hnext]; omega)
  rw [hself, hnext] at hreset
  dsimp only [Function.comp]
  rw [hreset]
  refine ⟨⟨Function.update lists (c.slot start 0) (p :: lists (c.slot start 0)), ?_⟩, rfl,
    fun q hq => ?_, fun key hkey => slot_SlotAdd _ _ _ _ hkey⟩
  · have hloose : ∀ q, loose q ↔ (q = p ∨ loose q) ∧ q ≠ p := by
      intro q
      constructor
      · intro hq
        exact ⟨.inr hq, fun heq => hp (heq ▸ (h.inUse q).mpr (.inr hq))⟩
      · rintro ⟨heq | hq, hqp⟩
        · exact absurd heq hqp
        · exact hq
    have hlink := halloc.link (i := calls.length) (.inl rfl) (congrArg _ hself)
      List.getElem?_concat_length (hself.symm ▸ his) hloose
    rwa [Function.update_idem] at hlink
  · have hqp : q ≠ p := fun heq => hp (heq ▸ hq)
    rw [node_SlotAdd, if_neg hqp]
    exact node_Create h.pool hcreate _ hq

end Holds

end Timermgr

end Kernel4GameServer
