import Kernel4GameServer.Lib.History
import Kernel4GameServer.Public.TCallBack

/-!
# `Kernel4GameServer.Proofs.Public.TCallBack`: callbacks that change the list they are called from

`Call` saves the element behind a callback before it calls it. So a callback may unregister
itself, and every other callback but the one behind it: then the saved iterator points to an
erased element, and the loop goes on from there. `call_safe_iff` says that this is the only way
in which a call goes wrong.

`CallRun.Good` is the invariant of the runs in which it does not happen. Its point is `ahead`:
the registrations in front of the saved iterator are those that have been invoked.
-/

set_option autoImplicit false
set_option linter.unusedSectionVars false

namespace Kernel4GameServer

open Lib

variable {ID_TYPE TYPE_CALL : Type} [DecidableEq ID_TYPE] [DecidableEq TYPE_CALL]

namespace TCallBack

/-- The list of an id after one entry is set. -/
theorem pool_set (t : TCallBack ID_TYPE TYPE_CALL) (id id' : ID_TYPE) (p : NodeList TYPE_CALL) :
    (t.set id p).pool id' = if id' = id then p else t.pool id' := by
  simp only [pool, set]
  split <;> rfl

/-- An empty list for an id without one changes no list. -/
@[simp] theorem pool_set_self (t : TCallBack ID_TYPE TYPE_CALL) (id id' : ID_TYPE) :
    (t.set id (t.pool id)).pool id' = t.pool id' := by
  rw [pool_set]
  split
  · rename_i h
    rw [h]
  · rfl

/-- What is found is the callback looked for. -/
theorem mem_of_find {t : TCallBack ID_TYPE TYPE_CALL} {id : ID_TYPE} {pFun : TYPE_CALL} {i : Nat}
    (h : t.find id pFun = some i) : (i, pFun) ∈ (t.pool id).nodes := by
  obtain ⟨value, hmem, heq⟩ := NodeList.find_some h
  rwa [beq_iff_eq.mp heq] at hmem

/-- What is not found is not there. -/
theorem not_mem_of_find {t : TCallBack ID_TYPE TYPE_CALL} {id : ID_TYPE} {pFun : TYPE_CALL}
    (h : t.find id pFun = none) (i : Nat) : (i, pFun) ∉ (t.pool id).nodes := fun hmem => by
  have hne := NodeList.find_none h hmem
  simp at hne

end TCallBack

namespace CallEvent

variable (log : List (CallEvent ID_TYPE TYPE_CALL)) (e : CallEvent ID_TYPE TYPE_CALL)

@[simp] theorem registeredIn_snoc :
    registeredIn (log ++ [e]) = registrations (registeredIn log) e := by
  simp [registeredIn]

@[simp] theorem invokedIn_snoc : invokedIn (log ++ [e]) = invocations (invokedIn log) e := by
  simp [invokedIn]

@[simp] theorem latestIn_snoc : latestIn (log ++ [e]) = latest (latestIn log) e := by
  simp [latestIn]

end CallEvent

namespace CallRun

open CallEvent

/-- What each step does. -/
inductive Does (st : CallRun ID_TYPE TYPE_CALL) :
    CallAction ID_TYPE TYPE_CALL → CallRun ID_TYPE TYPE_CALL → Prop where
  | known (id : ID_TYPE) (pFun : TYPE_CALL) (i : Nat) : st.t.find id pFun = some i →
      Does st (.RegisterCall id pFun) { st with t := st.t.set id (st.t.pool id) }
  | registered (id : ID_TYPE) (pFun : TYPE_CALL) : st.t.find id pFun = none →
      Does st (.RegisterCall id pFun)
        { st with
          t := st.t.set id ((st.t.pool id).push_back pFun)
          log := st.log ++ [.registered id (st.t.pool id).fresh pFun] }
  | unknown (id : ID_TYPE) (pFun : TYPE_CALL) : st.t.find id pFun = none →
      Does st (.UnRgsCall id pFun) { st with t := st.t.set id (st.t.pool id) }
  | unregistered (id : ID_TYPE) (pFun : TYPE_CALL) (i : Nat) : st.t.find id pFun = some i →
      Does st (.UnRgsCall id pFun)
        { st with
          t := st.t.set id ((st.t.pool id).erase i)
          log := st.log ++ [.unregistered id i] }
  | noList (id : ID_TYPE) : st.walk = none → st.t.m_mapContainer id = none →
      Does st (.Call id) { st with log := st.log ++ [.began id] ++ [.ended id] }
  | began (id : ID_TYPE) (pool : NodeList TYPE_CALL) : st.walk = none →
      st.t.m_mapContainer id = some pool →
      Does st (.Call id)
        { st with walk := some ⟨id, pool.first, false⟩, log := st.log ++ [.began id] }
  | ended (w : CallWalk ID_TYPE) : st.walk = some w → w.itor = none →
      Does st .turn { st with walk := none, log := st.log ++ [.ended w.id] }
  | erased (w : CallWalk ID_TYPE) (i : Nat) : st.walk = some w → w.itor = some i →
      i ∉ (st.t.pool w.id).ids →
      Does st .turn { st with walk := none, log := st.log ++ [.readErased w.id i] }
  | invoked (w : CallWalk ID_TYPE) (i : Nat) (value : TYPE_CALL) : st.walk = some w →
      w.itor = some i → (i, value) ∈ (st.t.pool w.id).nodes →
      Does st .turn
        { st with
          walk := some { w with itor := (st.t.pool w.id).next i, inCall := true }
          log := st.log ++ [.invoked w.id i value] }
  | ret (w : CallWalk ID_TYPE) : st.walk = some w →
      Does st .ret { st with walk := some { w with inCall := false } }

/-- A step that is taken is one of the above. -/
theorem step_does {st st' : CallRun ID_TYPE TYPE_CALL} {a : CallAction ID_TYPE TYPE_CALL}
    (hstep : st.step a = some st') : Does st a st' := by
  cases a with
  | RegisterCall id pFun =>
      simp only [step, TCallBack.RegisterCall] at hstep
      split at hstep
      · -- `RegisterCall` inserts nothing when it finds the callback.
        cases hfind : st.t.find id pFun with
        | none =>
            rw [hfind] at hstep
            exact Option.some.inj hstep ▸ .registered id pFun hfind
        | some i =>
            rw [hfind] at hstep
            exact Option.some.inj hstep ▸ .known id pFun i hfind
      · cases hstep
  | UnRgsCall id pFun =>
      simp only [step, TCallBack.UnRgsCall] at hstep
      split at hstep
      · cases hfind : st.t.find id pFun with
        | none =>
            rw [hfind] at hstep
            exact Option.some.inj hstep ▸ .unknown id pFun hfind
        | some i =>
            rw [hfind] at hstep
            exact Option.some.inj hstep ▸ .unregistered id pFun i hfind
      · cases hstep
  | Call id =>
      simp only [step] at hstep
      split at hstep
      · cases hstep
      · rename_i hwalk
        split at hstep
        · rename_i hlist
          have h := Does.noList id hwalk hlist
          rw [List.append_assoc] at h
          exact Option.some.inj hstep ▸ h
        · rename_i pool hlist
          exact Option.some.inj hstep ▸ .began id pool hwalk hlist
  | turn =>
      simp only [step, turn] at hstep
      split at hstep
      · cases hstep
      · rename_i w hwalk
        split at hstep
        · cases hstep
        · split at hstep
          · rename_i hend
            exact Option.some.inj hstep ▸ .ended w hwalk hend
          · rename_i i hitor
            split at hstep
            · rename_i hget
              refine Option.some.inj hstep ▸ .erased w i hwalk hitor ?_
              -- The iterator was saved before a callback ran that erased its element.
              rw [← NodeList.get?_isSome, hget]
              exact Bool.false_ne_true
            · rename_i value hget
              exact Option.some.inj hstep ▸
                .invoked w i value hwalk hitor (NodeList.get?_eq_some.mp hget)
  | ret =>
      simp only [step] at hstep
      split at hstep
      · cases hstep
      · rename_i w hwalk
        split at hstep
        · exact Option.some.inj hstep ▸ .ret w hwalk
        · cases hstep

/-! ### The invariant -/

/-- What a call has kept to so far: every event is as it has to be, and the iterator it has saved
is one of an element that is there. -/
def WalkSafe (st : CallRun ID_TYPE TYPE_CALL) : Prop :=
  Always CallEvent.Ok st.log ∧
    ∀ w i, st.walk = some w → w.itor = some i → i ∈ (st.t.pool w.id).ids

/-- The condition on a step: it does not unregister the callback that comes next. -/
def NextKept (st : CallRun ID_TYPE TYPE_CALL) : CallAction ID_TYPE TYPE_CALL → Prop
  | .UnRgsCall id pFun => ∀ w i, st.walk = some w → w.id = id → w.itor = some i →
      (st.t.pool id).get? i ≠ some pFun
  | _ => True

/-- The lists are the registrations, and a callback is registered once for an id. -/
structure Lists (st : CallRun ID_TYPE TYPE_CALL) : Prop where
  registered : ∀ id i pFun,
    (id, i, pFun) ∈ registeredIn st.log ↔ (i, pFun) ∈ (st.t.pool id).nodes
  unique : ∀ id i j pFun,
    (i, pFun) ∈ (st.t.pool id).nodes → (j, pFun) ∈ (st.t.pool id).nodes → i = j

/-- The invariant of the runs that are safe. -/
structure Good (st : CallRun ID_TYPE TYPE_CALL) : Prop extends Lists st where
  safe : st.WalkSafe
  ahead : ∀ w i, st.walk = some w → w.itor = some i →
    (∀ k ∈ invokedIn st.log, k < i) ∧
      ∀ k ∈ (st.t.pool w.id).ids, k < i → k ∈ invokedIn st.log
  behind : ∀ w, st.walk = some w → w.itor = none →
    ∀ k ∈ (st.t.pool w.id).ids, k ∈ invokedIn st.log ∨ (w.id, k) ∈ latestIn st.log

/-- A call has read an erased element, or has saved its iterator. -/
def Bad (st : CallRun ID_TYPE TYPE_CALL) : Prop :=
  (∃ id i, CallEvent.readErased id i ∈ st.log) ∨
    ∃ w i, st.walk = some w ∧ w.itor = some i ∧ i < (st.t.pool w.id).fresh ∧
      i ∉ (st.t.pool w.id).ids

/-- Nothing registered, nothing called. -/
theorem init_good : (init : CallRun ID_TYPE TYPE_CALL).Good where
  registered id i pFun := by simp [init, registeredIn, TCallBack.pool, TCallBack.init]
  unique id i j pFun h := by simp [init, TCallBack.pool, TCallBack.init] at h
  safe := ⟨always_nil, nofun⟩
  ahead := nofun
  behind := nofun

/-- The lists of a state whose log has one more event without registrations. -/
theorem Lists.log {st : CallRun ID_TYPE TYPE_CALL} (h : st.Lists) (walk : Option (CallWalk ID_TYPE))
    {e : CallEvent ID_TYPE TYPE_CALL} (he : ∀ before, registrations before e = before) :
    (⟨st.t, walk, st.log ++ [e]⟩ : CallRun ID_TYPE TYPE_CALL).Lists where
  registered id i pFun := by
    rw [registeredIn_snoc, he]
    exact h.registered id i pFun
  unique := h.unique

/-- A step that changes no list keeps the invariant. -/
theorem Good.same {st : CallRun ID_TYPE TYPE_CALL} (h : st.Good) (id : ID_TYPE) :
    ({ st with t := st.t.set id (st.t.pool id) } : CallRun ID_TYPE TYPE_CALL).Good := by
  constructor
  · exact ⟨fun id' i pFun => by rw [TCallBack.pool_set_self]; exact h.registered id' i pFun,
      fun id' => by rw [TCallBack.pool_set_self]; exact h.unique id'⟩
  · exact ⟨h.safe.1, fun w => by rw [TCallBack.pool_set_self]; exact h.safe.2 w⟩
  · exact fun w => by rw [TCallBack.pool_set_self]; exact h.ahead w
  · exact fun w => by rw [TCallBack.pool_set_self]; exact h.behind w

/-- A callback that was not registered is. Its element comes behind the saved iterator. -/
theorem Good.register {st : CallRun ID_TYPE TYPE_CALL} (h : st.Good) {id : ID_TYPE}
    {pFun : TYPE_CALL} (hfind : st.t.find id pFun = none) :
    ({ st with
      t := st.t.set id ((st.t.pool id).push_back pFun)
      log := st.log ++ [.registered id (st.t.pool id).fresh pFun] } :
      CallRun ID_TYPE TYPE_CALL).Good := by
  have hnodes : ∀ id' (x : Nat × TYPE_CALL),
      x ∈ ((st.t.set id ((st.t.pool id).push_back pFun)).pool id').nodes ↔
        x ∈ (st.t.pool id').nodes ∨ id' = id ∧ x = ((st.t.pool id).fresh, pFun) := by
    intro id' x
    rw [TCallBack.pool_set]
    by_cases hid : id' = id
    · subst hid
      simp
    · simp [hid]
  have hids : ∀ id' k, k ∈ ((st.t.set id ((st.t.pool id).push_back pFun)).pool id').ids ↔
      k ∈ (st.t.pool id').ids ∨ id' = id ∧ k = (st.t.pool id).fresh := by
    intro id' k
    rw [TCallBack.pool_set]
    by_cases hid : id' = id
    · subst hid
      simp
    · simp [hid]
  refine ⟨⟨fun id' i f => ?_, fun id' i j f hi hj => ?_⟩, ⟨always_snoc.mpr ⟨h.safe.1, trivial⟩,
    fun w i hw hi => (hids _ _).mpr (.inl (h.safe.2 w i hw hi))⟩, fun w i hw hi => ?_,
    fun w hw hi k hk => ?_⟩
  · rw [registeredIn_snoc, registrations, hnodes, List.mem_append, List.mem_singleton,
      h.registered, Prod.mk.injEq]
  · -- The new element is the only one with its callback, which was not found.
    rw [hnodes] at hi hj
    rcases hi with hi | ⟨rfl, hi⟩ <;> rcases hj with hj | ⟨hid, hj⟩
    · exact h.unique id' i j f hi hj
    · cases hj
      exact absurd hi (hid ▸ TCallBack.not_mem_of_find hfind i)
    · cases hi
      exact absurd hj (TCallBack.not_mem_of_find hfind j)
    · cases hi
      cases hj
      rfl
  · simp only [invokedIn_snoc, invocations]
    -- The new element has the largest number, so it is behind the iterator.
    obtain ⟨hlt, hall⟩ := h.ahead w i hw hi
    refine ⟨hlt, fun k hk hki => ?_⟩
    rcases (hids _ _).mp hk with hk | ⟨hid, rfl⟩
    · exact hall k hk hki
    · have := NodeList.lt_fresh (h.safe.2 w i hw hi)
      rw [hid] at this
      omega
  · simp only [invokedIn_snoc, latestIn_snoc, invocations, latest, List.mem_append,
      List.mem_singleton]
    rcases (hids _ _).mp hk with hk | ⟨hid, rfl⟩
    · -- At the end of the list the new element is what was pushed latest.
      exact (h.behind w hw hi k hk).imp_right .inl
    · exact .inr (.inr (by rw [hid]))

/-- A callback other than the next one is unregistered. -/
theorem Good.unregister {st : CallRun ID_TYPE TYPE_CALL} (h : st.Good) {id : ID_TYPE} {i : Nat}
    (hnext : ∀ w, st.walk = some w → w.id = id → w.itor ≠ some i) :
    ({ st with
      t := st.t.set id ((st.t.pool id).erase i)
      log := st.log ++ [.unregistered id i] } : CallRun ID_TYPE TYPE_CALL).Good := by
  have hnodes : ∀ id' (x : Nat × TYPE_CALL),
      x ∈ ((st.t.set id ((st.t.pool id).erase i)).pool id').nodes ↔
        x ∈ (st.t.pool id').nodes ∧ ¬ (id' = id ∧ x.1 = i) := by
    intro id' x
    rw [TCallBack.pool_set]
    by_cases hid : id' = id
    · subst hid
      simp
    · simp [hid]
  have hids : ∀ id' k, k ∈ ((st.t.set id ((st.t.pool id).erase i)).pool id').ids ↔
      k ∈ (st.t.pool id').ids ∧ ¬ (id' = id ∧ k = i) := by
    intro id' k
    rw [TCallBack.pool_set]
    by_cases hid : id' = id
    · subst hid
      simp
    · simp [hid]
  refine ⟨⟨fun id' k f => ?_, fun id' k j f hk hj => ?_⟩, ⟨always_snoc.mpr ⟨h.safe.1, trivial⟩,
    fun w k hw hk => (hids _ _).mpr ⟨h.safe.2 w k hw hk, ?_⟩⟩, fun w k hw hk => ?_,
    fun w hw hk j hj => ?_⟩
  · rw [registeredIn_snoc, registrations, hnodes, List.mem_filter, h.registered, decide_eq_true_eq,
      Ne, Prod.mk.injEq]
  · exact h.unique id' k j f ((hnodes _ _).mp hk).1 ((hnodes _ _).mp hj).1
  · rintro ⟨hid, rfl⟩
    exact hnext w hw hid hk
  · simp only [invokedIn_snoc, invocations]
    obtain ⟨hlt, hall⟩ := h.ahead w k hw hk
    exact ⟨hlt, fun j hj hjk => hall j ((hids _ _).mp hj).1 hjk⟩
  · simp only [invokedIn_snoc, latestIn_snoc, invocations, latest]
    exact h.behind w hw hk j ((hids _ _).mp hj).1

/-- The next callback is invoked, and the iterator behind it saved. -/
theorem Good.invoke {st : CallRun ID_TYPE TYPE_CALL} (h : st.Good) {w : CallWalk ID_TYPE} {i : Nat}
    {value : TYPE_CALL} (hwalk : st.walk = some w) (hitor : w.itor = some i)
    (hmem : (i, value) ∈ (st.t.pool w.id).nodes) :
    ({ st with
      walk := some { w with itor := (st.t.pool w.id).next i, inCall := true }
      log := st.log ++ [.invoked w.id i value] } : CallRun ID_TYPE TYPE_CALL).Good := by
  have hi : i ∈ (st.t.pool w.id).ids := NodeList.mem_ids_of_mem hmem
  obtain ⟨hlt, hall⟩ := h.ahead w i hwalk hitor
  have hnew : i ∉ invokedIn st.log := fun hin => Nat.lt_irrefl i (hlt i hin)
  have hlists := h.toLists.log (some { w with itor := (st.t.pool w.id).next i, inCall := true })
    (e := .invoked w.id i value) fun _ => rfl
  -- The registrations up to `i` are those that have been invoked.
  have hupto : ∀ k ∈ (st.t.pool w.id).ids, k ≤ i → k ∈ invokedIn st.log ++ [i] := by
    intro k hk hle
    rcases Nat.lt_or_eq_of_le hle with hki | rfl
    · exact List.mem_append_left _ (hall k hk hki)
    · exact List.mem_append_right _ (List.mem_singleton_self k)
  refine ⟨hlists, ⟨always_snoc.mpr ⟨h.safe.1, (h.registered _ _ _).mpr hmem, hnew⟩,
    fun w' j hw' hj => ?_⟩, fun w' j hw' hj => ?_, fun w' hw' hj k hk => ?_⟩
  · cases hw'
    exact (NodeList.next_some hi hj).1
  · cases hw'
    obtain ⟨-, hij, hleast⟩ := NodeList.next_some hi hj
    rw [invokedIn_snoc, invocations]
    refine ⟨fun k hk => ?_, fun k hk hkj => hupto k hk ?_⟩
    · rcases List.mem_append.mp hk with hk | hk
      · exact Nat.lt_trans (hlt k hk) hij
      · exact List.mem_singleton.mp hk ▸ hij
    · exact Nat.not_lt.mp fun hik => Nat.not_le.mpr hkj (hleast k hk hik)
  · cases hw'
    rw [invokedIn_snoc, invocations]
    exact .inl (hupto k hk (NodeList.next_none hi hj k hk))

/-- A call begins. -/
theorem Good.begin {st : CallRun ID_TYPE TYPE_CALL} (h : st.Good) {id : ID_TYPE}
    {pool : NodeList TYPE_CALL} (hlist : st.t.m_mapContainer id = some pool) :
    ({ st with walk := some ⟨id, pool.first, false⟩, log := st.log ++ [.began id] } :
      CallRun ID_TYPE TYPE_CALL).Good := by
  have hpool : st.t.pool id = pool := by rw [TCallBack.pool, hlist, Option.getD_some]
  refine ⟨h.toLists.log _ fun _ => rfl, ⟨always_snoc.mpr ⟨h.safe.1, trivial⟩,
    fun w i hw hi => ?_⟩, fun w i hw hi => ?_, fun w hw hi k hk => ?_⟩
  · cases hw
    exact hpool ▸ (NodeList.first_some hi).1
  · cases hw
    rw [invokedIn_snoc, invocations]
    refine ⟨nofun, fun k hk hki => ?_⟩
    exact absurd hki (Nat.not_lt.mpr ((NodeList.first_some hi).2 k (hpool ▸ hk)))
  · cases hw
    have hempty : pool.nodes = [] := NodeList.first_none hi
    rw [show (st.t.pool id).ids = [] by rw [hpool, NodeList.ids, hempty]; rfl] at hk
    cases hk

/-- A step that meets the condition keeps the invariant. -/
theorem Good.step {st st' : CallRun ID_TYPE TYPE_CALL} {a : CallAction ID_TYPE TYPE_CALL}
    (h : st.Good) (hnext : st.NextKept a) (hstep : st.step a = some st') : st'.Good := by
  cases step_does hstep with
  | known id pFun i hfind => exact h.same id
  | registered id pFun hfind => exact h.register hfind
  | unknown id pFun hfind => exact h.same id
  | unregistered id pFun i hfind =>
      refine h.unregister fun w hwalk hid hitor => hnext w i hwalk hid hitor ?_
      exact NodeList.get?_eq_some.mpr (TCallBack.mem_of_find hfind)
  | noList id hwalk hlist =>
      -- No list is there, so nothing is registered and nothing has to be called.
      have hnone : ∀ i pFun, (id, i, pFun) ∉ registeredIn st.log := fun i pFun hin => by
        rw [h.registered, TCallBack.pool, hlist] at hin
        cases hin
      have hbegan := h.toLists.log st.walk (e := .began id) fun _ => rfl
      refine ⟨hbegan.log st.walk fun _ => rfl, ⟨?_, fun w i hw => ?_⟩, fun w i hw => ?_,
        fun w hw => ?_⟩
      · refine always_snoc.mpr ⟨always_snoc.mpr ⟨h.safe.1, trivial⟩, fun i pFun hin => ?_⟩
        rw [registeredIn_snoc] at hin
        exact absurd hin (hnone i pFun)
      · simp [hwalk] at hw
      · simp [hwalk] at hw
      · simp [hwalk] at hw
  | began id pool hwalk hlist => exact h.begin hlist
  | ended w hwalk hend =>
      refine ⟨h.toLists.log _ fun _ => rfl, ⟨always_snoc.mpr ⟨h.safe.1, fun i pFun hin => ?_⟩,
        nofun⟩, nofun, nofun⟩
      -- The loop is at its end, so every element was invoked or came during the call.
      rw [h.registered] at hin
      exact h.behind w hwalk hend i (NodeList.mem_ids_of_mem hin)
  | erased w i hwalk hitor hnot => exact absurd (h.safe.2 w i hwalk hitor) hnot
  | invoked w i value hwalk hitor hmem => exact h.invoke hwalk hitor hmem
  | ret w hwalk =>
      refine ⟨⟨h.registered, h.unique⟩, ⟨h.safe.1, fun w' i hw' hi => ?_⟩, fun w' i hw' hi => ?_,
        fun w' hw' hi => ?_⟩
      · cases hw'
        exact h.safe.2 w i hwalk hi
      · cases hw'
        exact h.ahead w i hwalk hi
      · cases hw'
        exact h.behind w hwalk hi

/-- A step that unregisters the callback that comes next leaves the call with the iterator of
an erased element. -/
theorem Good.step_bad {st st' : CallRun ID_TYPE TYPE_CALL} {a : CallAction ID_TYPE TYPE_CALL}
    (h : st.Good) (hnext : ¬ st.NextKept a) (hstep : st.step a = some st') : st'.Bad := by
  cases step_does hstep with
  | unregistered id pFun i hfind =>
      simp only [NextKept, not_forall, not_not] at hnext
      obtain ⟨w, j, hwalk, rfl, hitor, hget⟩ := hnext
      have hj : (j, pFun) ∈ (st.t.pool w.id).nodes := NodeList.get?_eq_some.mp hget
      -- A callback has one element, so the erased one is the one that comes next.
      obtain rfl : j = i := h.unique w.id j i pFun hj (TCallBack.mem_of_find hfind)
      refine .inr ⟨w, j, hwalk, hitor, ?_⟩
      rw [TCallBack.pool_set, if_pos rfl, NodeList.fresh_erase]
      refine ⟨NodeList.lt_fresh (NodeList.mem_ids_of_mem hj), fun hin => ?_⟩
      exact (NodeList.mem_ids_erase.mp hin).2 rfl
  | unknown id pFun hfind =>
      simp only [NextKept, not_forall, not_not] at hnext
      obtain ⟨w, j, -, rfl, -, hget⟩ := hnext
      -- A callback that is not in the list is not the next one either.
      exact absurd (NodeList.get?_eq_some.mp hget) (TCallBack.not_mem_of_find hfind j)
  | known => exact absurd trivial hnext
  | registered => exact absurd trivial hnext
  | noList => exact absurd trivial hnext
  | began => exact absurd trivial hnext
  | ended => exact absurd trivial hnext
  | erased => exact absurd trivial hnext
  | invoked => exact absurd trivial hnext
  | ret => exact absurd trivial hnext

/-- The iterator of an erased element is never good again, and it is read in the next turn. -/
theorem Bad.step {st st' : CallRun ID_TYPE TYPE_CALL} {a : CallAction ID_TYPE TYPE_CALL}
    (h : st.Bad) (hstep : st.step a = some st') : st'.Bad := by
  rcases h with ⟨id, i, hmem⟩ | ⟨w, i, hwalk, hitor, hlt, hnot⟩
  · refine .inl ⟨id, i, ?_⟩
    -- The event stays in the log.
    cases step_does hstep <;> simp [hmem]
  · cases step_does hstep with
    | known id pFun j hfind => exact .inr ⟨w, i, hwalk, hitor, by simpa using ⟨hlt, hnot⟩⟩
    | unknown id pFun hfind => exact .inr ⟨w, i, hwalk, hitor, by simpa using ⟨hlt, hnot⟩⟩
    | registered id pFun hfind =>
        refine .inr ⟨w, i, hwalk, hitor, ?_⟩
        rw [TCallBack.pool_set]
        split
        · rename_i hid
          rw [← hid, NodeList.fresh_push_back, NodeList.mem_ids_push_back]
          -- An element that is pushed has a number of its own.
          exact ⟨Nat.lt_succ_of_lt hlt, fun hin => hin.elim hnot (Nat.ne_of_lt hlt)⟩
        · exact ⟨hlt, hnot⟩
    | unregistered id pFun j hfind =>
        refine .inr ⟨w, i, hwalk, hitor, ?_⟩
        rw [TCallBack.pool_set]
        split
        · rename_i hid
          rw [← hid, NodeList.fresh_erase, NodeList.mem_ids_erase]
          exact ⟨hlt, fun hin => hnot hin.1⟩
        · exact ⟨hlt, hnot⟩
    | noList id hnone hlist => simp [hnone] at hwalk
    | began id pool hnone hlist => simp [hnone] at hwalk
    | ended w' hwalk' hend =>
        cases hwalk.symm.trans hwalk'
        simp [hitor] at hend
    | erased w' j hwalk' hitor' hnot' => exact .inl ⟨w'.id, j, by simp⟩
    | invoked w' j value hwalk' hitor' hmem =>
        cases hwalk.symm.trans hwalk'
        cases hitor.symm.trans hitor'
        exact absurd (NodeList.mem_ids_of_mem hmem) hnot
    | ret w' hwalk' =>
        cases hwalk.symm.trans hwalk'
        exact .inr ⟨{ w with inCall := false }, i, rfl, hitor, hlt, hnot⟩

/-- When a call is safe under re-entrancy. In a run of any registrations and calls, whatever the
callbacks do, all of the following holds just when no callback unregisters the one that comes
next: no erased element is read and no iterator of one is saved, each callback that is
registered when its turn comes is invoked, once for a registration, and no other is. -/
theorem call_safe_iff {as : List (CallAction ID_TYPE TYPE_CALL)} {st : CallRun ID_TYPE TYPE_CALL}
    (h : run step init as = some st) : st.WalkSafe ↔ AllSteps step NextKept init as := by
  rcases run_good_or_bad (A := fun _ _ => True) (C := NextKept) (G := Good) (B := Bad)
    (fun _ _ _ hs _ hC hstep => hs.step hC hstep) (fun _ _ _ hs _ hC hstep => hs.step_bad hC hstep)
    (fun _ _ _ hs _ hstep => hs.step hstep) init_good
    (allSteps_of_forall (fun _ _ => trivial) _ _) h
    with ⟨hall, hgood⟩ | ⟨hnot, hbad⟩
  · exact ⟨fun _ => hall, fun _ => hgood.safe⟩
  · refine ⟨fun hsafe => ?_, fun hall => absurd hall hnot⟩
    rcases hbad with ⟨id, i, hmem⟩ | ⟨w, i, hwalk, hitor, -, herased⟩
    · obtain ⟨pre, post, hsplit⟩ := List.append_of_mem hmem
      exact (hsafe.1 pre _ post hsplit).elim
    · exact absurd (hsafe.2 w i hwalk hitor) herased

/-- Of three callbacks the first unregisters itself and the second is invoked next. -/
theorem call_safe_itself :
    ∃ st : CallRun Nat Nat,
      run step init [.RegisterCall 0 1, .RegisterCall 0 2, .RegisterCall 0 3, .Call 0, .turn,
        .UnRgsCall 0 1, .ret, .turn] = some st ∧ st.WalkSafe ∧ .invoked 0 1 2 ∈ st.log := by
  have hrun : run step (init : CallRun Nat Nat) [.RegisterCall 0 1, .RegisterCall 0 2,
    .RegisterCall 0 3, .Call 0, .turn, .UnRgsCall 0 1, .ret, .turn] = some _ := rfl
  refine ⟨_, hrun, (call_safe_iff hrun).mpr ?_, by decide⟩
  refine ⟨trivial, trivial, trivial, trivial, trivial, fun w i hw _ hi => ?_, trivial, trivial,
    trivial⟩
  -- The iterator saved before the callback ran is that of the second callback.
  cases hw
  cases hi
  decide

/-- The first of two callbacks unregisters the second, and the loop reads its element. -/
theorem call_reads_erased :
    ∃ st : CallRun Nat Nat,
      run step init [.RegisterCall 0 1, .RegisterCall 0 2, .Call 0, .turn, .UnRgsCall 0 2, .ret,
        .turn] = some st ∧ .readErased 0 1 ∈ st.log ∧ ¬ st.WalkSafe := by
  refine ⟨_, rfl, by decide, fun hsafe => ?_⟩
  exact hsafe.1 [.registered 0 0 1, .registered 0 1 2, .began 0, .invoked 0 0 1,
    .unregistered 0 1] _ [] rfl

end CallRun

end Kernel4GameServer
