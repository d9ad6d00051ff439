import Kernel4GameServer.Timermgr.Registry

/-!
# `Kernel4GameServer.Proofs.Timermgr.Registry`: when the sum of id and pointer is enough

A timer at the address `p` and the id `id` have the key `id + p`. A timer that lies `k` bytes
behind another one, with an id that is smaller by `k`, has the same key. `registry_iff` says that
nothing else goes wrong.

* `FindNode_map`: `FindNode` as an operation of a map.
* `timer_ne`: pairs with one sum have different timers, so the `TASSERT` fails on every entry of
  another pair.
-/

set_option autoImplicit false

namespace Kernel4GameServer

open Lib

/-- The sum is that of `Timermgr`, wrapped. -/
theorem NodeInfo.sizeT_nodeinfo {id : Int} (hid : -2147483648 ≤ id) (hid' : id < 2147483648)
    (timer : Nat) :
    (NodeInfo.mk (BitVec.ofInt 32 id) (BitVec.ofNat 64 timer)).sizeT
      = BitVec.ofInt 64 (nodeinfo id timer) := by
  have hs32 : (BitVec.ofInt 32 id).toInt = id := s32_of_range hid hid'
  rw [NodeInfo.sizeT, BitVec.signExtend, hs32, nodeinfo, BitVec.ofInt_add, BitVec.ofInt_natCast]

/-- Pairs with one timer and one sum are the same. -/
theorem NodeInfo.eq_of_sizeT {a b : NodeInfo} (hp : a.p = b.p) (hsum : a.sizeT = b.sizeT) :
    a = b := by
  have hext : a.id.signExtend 64 = b.id.signExtend 64 := by
    rwa [NodeInfo.sizeT, NodeInfo.sizeT, hp, BitVec.add_left_inj] at hsum
  have hid : a.id = b.id := by
    apply BitVec.eq_of_toInt_eq
    have hint := congrArg BitVec.toInt hext
    rwa [BitVec.toInt_signExtend_of_le (by decide), BitVec.toInt_signExtend_of_le (by decide)]
      at hint
  cases a
  cases b
  rw [NodeInfo.mk.injEq]
  exact ⟨hid, hp⟩

namespace TIMENODE_MAP

variable {map : TIMENODE_MAP}

/-! ### One operation -/

/-- `FindNode` changes the map like the operation that it stands for. -/
theorem step_eq (map : TIMENODE_MAP) (a : Action) :
    step map a = KeyedMap.step NodeInfo.sizeT map a.op := by
  cases a with
  | insert node => rfl
  | assign node => rfl
  | erase id timer => rfl
  | FindNode id timer remove =>
      rw [step, FindNode]
      cases hfind : KeyedMap.find NodeInfo.sizeT map ⟨id, timer⟩ with
      | none =>
          cases remove with
          | true => rw [Action.op, KeyedMap.step, KeyedMap.erase_of_none hfind]
          | false => rw [Action.op, KeyedMap.step, KeyedMap.apply, KeyedMap.modify_of_none hfind]
      | some itor => cases remove <;> rfl

/-- The pair of an operation is its key. -/
@[simp] theorem op_key (a : Action) : a.op.key = a.pair := by
  cases a with
  | FindNode id timer remove => cases remove <;> rfl
  | _ => rfl

/-- Every node is stored under its own id and timer. -/
def Stored (map : TIMENODE_MAP) : Prop := ∀ e ∈ map, e.2.info = e.1

/-- What holds along the sequences that identify their pairs. -/
structure Inv (map : TIMENODE_MAP) : Prop where
  distinct : KeyedMap.Distinct NodeInfo.sizeT map
  stored : map.Stored

/-- An operation on a map of pairs stores a node under its own pair. -/
theorem stored_apply (hs : map.Stored) (a : Action) : Stored (KeyedMap.apply id map a.op) := by
  have hsnoc : ∀ node : RegistryNode, Stored (map ++ [(node.info, node)]) := by
    intro node e he
    rcases List.mem_append.mp he with he | he
    · exact hs e he
    · rw [List.mem_singleton.mp he]
  -- A change keeps the pair of the node, so the key still is its own.
  have hmodify : ∀ {k : NodeInfo} {g : RegistryNode → RegistryNode},
      (∀ node, node.info = k → (g node).info = k) → Stored (KeyedMap.modify id map k g) := by
    intro k g hg e he
    obtain ⟨e', he', rfl⟩ := List.mem_map.mp he
    show (if id e'.1 = id k then (e'.1, g e'.2) else e').2.info
      = (if id e'.1 = id k then (e'.1, g e'.2) else e').1
    split
    · rename_i hk
      have hk : e'.1 = k := hk
      rw [hk]
      exact hg e'.2 ((hs e' he').trans hk)
    · exact hs e' he'
  have herase : ∀ k, Stored (KeyedMap.apply id map (.erase k)) :=
    fun k e he => hs e (List.mem_filter.mp he).1
  cases a with
  | insert node =>
      rw [Action.op, KeyedMap.apply]
      split
      · exact hs
      · exact hsnoc node
  | assign node =>
      rw [Action.op, KeyedMap.apply]
      split
      · exact hmodify fun _ _ => rfl
      · exact hsnoc node
  | FindNode id timer remove =>
      cases remove with
      | true => exact herase _
      | false => exact hmodify fun _ h => h
  | erase id timer => exact herase _

/-- An operation on a pair that is apart keeps the invariant. -/
theorem Inv.step {map' : TIMENODE_MAP} (h : map.Inv) {a : Action}
    (hapart : KeyedMap.Apart NodeInfo.sizeT map a.op.key)
    (hstep : TIMENODE_MAP.step map a = some map') : map'.Inv := by
  rw [step_eq] at hstep
  obtain rfl := Option.some.inj hstep
  refine ⟨KeyedMap.apply_distinct h.distinct a.op, ?_⟩
  rw [KeyedMap.apply_of_apart a.op hapart]
  exact stored_apply h.stored a

/-- An operation that identifies its pair keeps to the entry of its own key. -/
theorem Identifies.own {a : Action} (h : map.Identifies a) :
    KeyedMap.Own NodeInfo.sizeT map a.op where
  finds e he := by
    rw [op_key] at he ⊢
    exact h.finds e he
  keeps e he hne := by
    rw [op_key] at hne
    exact h.keeps e he hne _ (step_eq map a)

/-- An operation that keeps to its own entry identifies its pair: the node it finds has the
timer that was asked for. -/
theorem Inv.identifies (h : map.Inv) {a : Action} (hown : KeyedMap.Own NodeInfo.sizeT map a.op) :
    map.Identifies a where
  finds e he := by
    rw [← op_key] at he ⊢
    exact hown.finds e he
  keeps e he hne map' hstep := by
    rw [step_eq] at hstep
    obtain rfl := Option.some.inj hstep
    rw [← op_key] at hne
    exact hown.keeps e he hne
  asserts := by
    cases a with
    | FindNode id timer remove =>
        show (map.FindNode id timer remove).2.1 = true
        rw [FindNode]
        cases hfind : KeyedMap.find NodeInfo.sizeT map ⟨id, timer⟩ with
        | none => rfl
        | some itor =>
            have hpair : itor.1 = ⟨id, timer⟩ := by
              have hfinds := hown.finds itor
              rw [op_key] at hfinds
              exact hfinds hfind
            have hinfo := h.stored itor (KeyedMap.find_some hfind).1
            rw [hpair] at hinfo
            exact decide_eq_true (congrArg NodeInfo.p hinfo).symm
    | _ => trivial

/-- The `TASSERT` of `FindNode` fails on the node of another pair. -/
theorem assert_fails {id : BitVec 32} {timer : BitVec 64} {itor : NodeInfo × RegistryNode}
    (hs : map.Stored) (hfind : KeyedMap.find NodeInfo.sizeT map ⟨id, timer⟩ = some itor)
    (hne : itor.1 ≠ ⟨id, timer⟩) (remove : Bool) :
    (map.FindNode id timer remove).2.1 = false := by
  obtain ⟨hmem, hsum⟩ := KeyedMap.find_some hfind
  rw [FindNode, hfind]
  refine decide_eq_false fun htimer => hne ?_
  refine NodeInfo.eq_of_sizeT ?_ hsum
  rw [← hs itor hmem]
  exact htimer.symm

/-! ### Sequences of operations -/

/-- The condition in the terms of the library. -/
theorem apart_iff (a : Action) :
    map.Apart a ↔ KeyedMap.Apart NodeInfo.sizeT map a.op.key := by
  rw [op_key]
  refine forall_congr' fun e => forall_congr' fun _ => ?_
  exact not_imp_not

/-- In every sequence of operations from an empty map, each operation finds only the entry of
its own pair, leaves those of all others, and has a `TASSERT` that holds, just where each comes
when no other pair with an entry has the sum of its own. The entries that count are those of a
map with the pairs themselves as keys, and the two maps are equal then. -/
theorem registry_iff (as : List Action) :
    (AllSteps step Identifies [] as ↔ AllSteps pairStep Apart [] as)
    ∧ (AllSteps pairStep Apart [] as → run step [] as = run pairStep [] as) := by
  have hstep : step = fun map (a : Action) => KeyedMap.step NodeInfo.sizeT map a.op :=
    funext fun map => funext fun a => step_eq map a
  have hinit : Inv [] :=
    { distinct := List.nodup_nil
      stored := fun e he => absurd he List.not_mem_nil }
  have hown : AllSteps step (fun map a => KeyedMap.Own NodeInfo.sizeT map a.op) [] as
      ↔ AllSteps pairStep Apart [] as := by
    have hlib := KeyedMap.allSteps_own_iff hinit.distinct (as.map Action.op)
    rw [allSteps_map, allSteps_map] at hlib
    rw [hstep, hlib]
    exact allSteps_congr fun map a => (apart_iff a).symm
  refine ⟨?_, ?_⟩
  · rw [← hown]
    have hkeep : ∀ (map : TIMENODE_MAP) (a : Action) (map' : TIMENODE_MAP), map.Inv →
        KeyedMap.Own NodeInfo.sizeT map a.op → step map a = some map' → map'.Inv :=
      fun map a map' h ho hs => h.step ((KeyedMap.own_iff h.distinct a.op).mp ho) hs
    exact ⟨allSteps_mono fun map a h => Identifies.own h,
      allSteps_of_invariant hkeep (fun map a h ho => Inv.identifies h ho) hinit⟩
  · intro hapart
    have hlib := KeyedMap.run_eq_of_apart (f := NodeInfo.sizeT) (m := []) (as.map Action.op)
    rw [allSteps_map, run_map, run_map] at hlib
    rw [hstep]
    exact hlib ((allSteps_congr fun map a => apart_iff a).mp hapart)

/-- A node of the timer at 4112 with the id 0. -/
def first : RegistryNode := { m_nID := 0, m_pTimer := 4112, m_byStatus := .TIMER_STATUS_RUN }

/-- The timer at 4096, sixteen bytes in front of it, is looked up with the id 16. The node of the
other timer is found and closed, and the `TASSERT` fails. -/
theorem other_found :
    (∃ map, run step [] [.insert first] = some map
      ∧ map.FindNode 16 4096 false = (some first.close, false, [(⟨0, 4112⟩, first.close)]))
    ∧ ¬ AllSteps step Identifies [] [.insert first, .FindNode 16 4096 false] := by
  refine ⟨⟨[(⟨0, 4112⟩, first)], by decide, by decide⟩, ?_⟩
  rintro ⟨-, hfound, -⟩
  exact absurd (hfound.finds (⟨0, 4112⟩, first) (by decide)) (by decide)

end TIMENODE_MAP

end Kernel4GameServer
