import Kernel4GameServer.Logic.SinkGroups
import Kernel4GameServer.Proofs.Public.TPool

/-!
# `Kernel4GameServer.Proofs.Logic.SinkGroups`: who is in which group

The lists of `s_oGroupMap` are right while every sink is in them at most once and only while
it is in use. A `SET_GROUP` puts its sink into a list whether it is in one or not: the
`TASSERT` in front looks at `m_nGroupID`, which the group id `-1` leaves as it was and which
`Create` does not reset.

* `push_back_perm` and `broadCastMap_eq`: what the two functions do to the lists.
* `Links`: the fields that `OnConnected` and `OnDisconnect` keep, in step with the engine.
* `Grouped.step_iff`: a step keeps the lists right exactly when it meets `JoinsOnce`.
* `grouped_iff`: so does a run, and then every `BroadCast` does what it is for.
-/

set_option autoImplicit false

namespace Kernel4GameServer

open Lib

/-! ### The map -/

/-- All sinks in the lists of a map. -/
theorem push_back_perm (groupid : Int) (p : Nat) (m : SINK_LIST_MAP) :
    ((m.push_back groupid p).flatMap Prod.snd).Perm (p :: m.flatMap Prod.snd) := by
  induction m with
  | nil => exact List.Perm.refl _
  | cons e rest ih =>
      obtain ⟨id, sinks⟩ := e
      simp only [SINK_LIST_MAP.push_back]
      split
      · simp only [List.flatMap_cons, List.append_assoc, List.singleton_append]
        exact List.perm_middle
      · split
        · simp only [List.flatMap_cons, List.singleton_append]
          exact List.Perm.refl _
        · simp only [List.flatMap_cons]
          exact (List.Perm.append_left sinks ih).trans List.perm_middle

/-- The inner loop of `BroadCast` sorts the sinks of its list into those that stay and those
that are released. -/
theorem broadCastList_eq (this : Nat) (sinks : List Nat) (b : BroadCasting) :
    broadCastList this sinks b
      = (sinks.filter fun q => (b.pool.unit q).m_bIsConnected,
        { pool := (sinks.filter fun q => !(b.pool.unit q).m_bIsConnected).foldl
            TPool.Recover b.pool
          sent := b.sent ++ sinks.filter fun q => (b.pool.unit q).m_bIsConnected && q != this
          released := b.released ++ sinks.filter fun q => !(b.pool.unit q).m_bIsConnected }) := by
  induction sinks generalizing b with
  | nil => simp [broadCastList]
  | cons q rest ih =>
      rw [broadCastList]
      cases hq : (b.pool.unit q).m_bIsConnected with
      | true =>
          by_cases hthis : q = this
          · subst hthis
            simp [ih, hq]
          · simp [ih, hq, hthis]
      | false => simp [ih, hq, TPool.Recover_unit]

/-- `BroadCast` does the same to all lists. -/
theorem broadCastMap_eq (this : Nat) (m : SINK_LIST_MAP) (b : BroadCasting) :
    broadCastMap this m b
      = (m.map fun e => (e.1, e.2.filter fun q => (b.pool.unit q).m_bIsConnected),
        { pool := ((m.flatMap Prod.snd).filter fun q => !(b.pool.unit q).m_bIsConnected).foldl
            TPool.Recover b.pool
          sent := b.sent ++
            (m.flatMap Prod.snd).filter fun q => (b.pool.unit q).m_bIsConnected && q != this
          released := b.released ++
            (m.flatMap Prod.snd).filter fun q => !(b.pool.unit q).m_bIsConnected }) := by
  induction m generalizing b with
  | nil => simp [broadCastMap]
  | cons e rest ih =>
      obtain ⟨id, sinks⟩ := e
      rw [broadCastMap, broadCastList_eq]
      simp [ih, TPool.foldl_Recover_unit]

namespace SinkGroups

/-- The lists are right: no `TASSERT` failed, and every sink is in them at most once and only
while it is in use. -/
structure Grouped (st : SinkGroups) : Prop where
  asserts : st.assertsOk = true
  once : st.members.Nodup
  used : ∀ q ∈ st.members, st.s_oPoolClient.inUse q = true

/-- What `BroadCast` is for: a copy to every linked sink in a group besides the sender, and
the others in a group back to the pool, each once. -/
structure Delivers (st : SinkGroups) (p : Nat) : Prop where
  once : (st.broadCast p).2.sent.Nodup
  sent : ∀ q, q ∈ (st.broadCast p).2.sent ↔ q ∈ st.members ∧ q ∈ st.linked ∧ q ≠ p
  released_once : (st.broadCast p).2.released.Nodup
  released : ∀ q, q ∈ (st.broadCast p).2.released ↔ q ∈ st.members ∧ q ∉ st.linked
  recovered : (st.broadCast p).2.pool.m_list
    = st.s_oPoolClient.m_list ++ (st.broadCast p).2.released

/-- A `BroadCast` does what it is for. -/
def BroadCastsRight (st : SinkGroups) : SinkAction → Prop
  | .BroadCast p => st.Delivers p
  | _ => True

/-- A `SET_GROUP` comes to a sink that is in no list and has no group. -/
def JoinsOnce (st : SinkGroups) : SinkAction → Prop
  | .OnRecv p context size =>
      ((st.sink p).OnRecv context size).groupSet ≠ none →
        (st.sink p).m_nGroupID = -1 ∧ p ∉ st.members
  | _ => True

/-- The sinks and the count are in step with the engine. -/
structure Links (st : SinkGroups) : Prop where
  pool : st.s_oPoolClient.Inv
  once : st.linked.Nodup
  used : ∀ p ∈ st.linked, st.s_oPoolClient.inUse p = true
  count : st.s_nLinkCount = st.linked.length
  connected : ∀ p, (st.sink p).m_bIsConnected = decide (p ∈ st.linked)

/-- No sink is linked as the program starts. -/
theorem init_links : init.Links where
  pool := TPool.init_inv newSink 64
  once := List.nodup_nil
  used p hp := by cases hp
  count := rfl
  connected p := by
    have hunit : init.sink p = newSink := by
      show ite _ newSink newSink = newSink
      split <;> rfl
    rw [hunit]
    rfl

/-- No sink is in a list as the program starts. -/
theorem init_grouped : init.Grouped where
  asserts := rfl
  once := List.nodup_nil
  used q hq := by cases hq

/-! ### What the calls do -/

/-- `OnRecv` leaves the connection flag. -/
theorem onRecv_connected (sink : ClientConnectSink) (context : Mem UInt8) (size : Int) :
    (sink.OnRecv context size).session.m_bIsConnected = sink.m_bIsConnected := by
  simp only [ClientConnectSink.OnRecv]
  split
  · rfl
  · split
    · split
      · rfl
      · split <;> rfl
    · rfl

/-- Writing a sink with the flag it had keeps the flags. -/
theorem connected_set {st : SinkGroups} {linked : List Nat} (p : Nat) (x : ClientConnectSink)
    (hx : x.m_bIsConnected = decide (p ∈ linked))
    (hold : ∀ q, q ≠ p → (st.sink q).m_bIsConnected = decide (q ∈ linked)) (q : Nat) :
    ((st.s_oPoolClient.set p x).unit q).m_bIsConnected = decide (q ∈ linked) := by
  by_cases hq : q = p
  · subst hq
    rw [TPool.set_unit_self]
    exact hx
  · rw [TPool.set_unit_other _ _ hq]
    exact hold q hq

/-- The sinks that a `BroadCast` finds, by the engine's view. -/
theorem broadCast_eq {st : SinkGroups} (h : st.Links) (p : Nat) :
    st.broadCast p
      = (st.s_oGroupMap.map fun e => (e.1, e.2.filter fun q => decide (q ∈ st.linked)),
        { pool := (st.members.filter fun q => !decide (q ∈ st.linked)).foldl TPool.Recover
            st.s_oPoolClient
          sent := st.members.filter fun q => decide (q ∈ st.linked) && q != p
          released := st.members.filter fun q => !decide (q ∈ st.linked) }) := by
  have hconn : ∀ q, (st.s_oPoolClient.unit q).m_bIsConnected = decide (q ∈ st.linked) := h.connected
  rw [broadCast, broadCastMap_eq]
  simp only [hconn, List.nil_append]
  rfl

/-- The sinks in the lists behind a `BroadCast`. -/
theorem members_broadCast {st : SinkGroups} (h : st.Links) (p : Nat) :
    (st.broadCast p).1.flatMap Prod.snd = st.members.filter fun q => decide (q ∈ st.linked) := by
  rw [broadCast_eq h]
  simp [members, List.flatMap_map, List.filter_flatMap]

/-- With the lists right, a `BroadCast` puts the sinks it finds disconnected back. -/
theorem broadCast_pool {st : SinkGroups} (h : st.Links) (hg : st.Grouped) (p : Nat) :
    (st.broadCast p).2.pool.Inv ∧
    (st.broadCast p).2.pool.m_list = st.s_oPoolClient.m_list ++ (st.broadCast p).2.released ∧
    (∀ q, (st.broadCast p).2.pool.inUse q = true ↔
      st.s_oPoolClient.inUse q = true ∧ ¬ (q ∈ st.members ∧ q ∉ st.linked)) ∧
    (st.broadCast p).2.pool.unit = st.s_oPoolClient.unit := by
  rw [broadCast_eq h]
  have hused : ∀ q ∈ st.members.filter fun q => !decide (q ∈ st.linked),
      st.s_oPoolClient.inUse q = true :=
    fun q hq => hg.used q (List.mem_of_mem_filter hq)
  obtain ⟨hinv, hlist, hin⟩ := TPool.foldl_Recover_spec h.pool (hg.once.filter _) hused
  refine ⟨hinv, hlist, fun q => ?_, TPool.foldl_Recover_unit _ _⟩
  rw [hin q]
  simp

/-- With the lists right, a `BroadCast` does what it is for. -/
theorem delivers {st : SinkGroups} (h : st.Links) (hg : st.Grouped) (p : Nat) :
    st.Delivers p where
  once := by
    rw [broadCast_eq h]
    exact hg.once.filter _
  sent q := by
    rw [broadCast_eq h]
    simp
  released_once := by
    rw [broadCast_eq h]
    exact hg.once.filter _
  released q := by
    rw [broadCast_eq h]
    simp
  recovered := (broadCast_pool h hg p).2.1

/-! ### One step -/

/-- A step keeps the sinks in step with the engine while the lists are right. -/
theorem Links.step {st st' : SinkGroups} {a : SinkAction} (h : st.Links) (hg : st.Grouped)
    (hstep : st.step a = some st') : st'.Links := by
  cases a with
  | Create =>
      obtain ⟨⟨p, pool⟩, hc, rfl⟩ := Option.map_eq_some_iff.mp hstep
      obtain ⟨hinv, -, hin, hunit⟩ := TPool.Create_spec h.pool hc
      refine ⟨hinv, h.once, fun q hq => (hin q).mpr (.inr (h.used q hq)), h.count, fun q => ?_⟩
      show (pool.unit q).m_bIsConnected = _
      by_cases hq : q ∈ st.linked
      · rw [hunit q (h.used q hq)]
        exact h.connected q
      · -- A sink of a new block is not connected, nor is one that is not linked.
        rcases TPool.Create_unit hc q with heq | hnew
        · rw [heq]
          exact h.connected q
        · rw [hnew, decide_eq_false hq]
          rfl
  | OnConnected p =>
      simp only [SinkGroups.step] at hstep
      split at hstep
      · rename_i hp
        cases hstep
        refine ⟨TPool.set_inv h.pool _ _, List.nodup_cons.mpr ⟨hp.2, h.once⟩, ?_, ?_, ?_⟩
        · intro q hq
          rcases List.mem_cons.mp hq with rfl | hq
          · exact hp.1
          · exact h.used q hq
        · rw [List.length_cons, Int.natCast_succ, ← h.count]
        · refine connected_set p _ (by simp) fun q hq => ?_
          rw [h.connected q]
          simp [hq]
      · cases hstep
  | OnRecv p context size =>
      simp only [SinkGroups.step] at hstep
      split at hstep
      · -- `OnRecv` leaves `m_bIsConnected` as it is.
        have hconn := connected_set p ((st.sink p).OnRecv context size).session
          ((onRecv_connected _ _ _).trans (h.connected p)) fun q _ => h.connected q
        split at hstep <;> cases hstep <;>
          exact ⟨TPool.set_inv h.pool _ _, h.once, h.used, h.count, hconn⟩
      · cases hstep
  | OnDisconnect p =>
      simp only [SinkGroups.step] at hstep
      split at hstep
      · rename_i hp
        cases hstep
        refine ⟨TPool.set_inv h.pool _ _, h.once.erase p,
          fun q hq => h.used q (List.mem_of_mem_erase hq), ?_, ?_⟩
        · -- The counter goes down with the one sink that leaves.
          have hlen := List.length_erase_of_mem hp
          have hpos := List.length_pos_of_mem hp
          have hcount := h.count
          dsimp only
          omega
        · refine connected_set p _ (by simp [h.once.not_mem_erase]) fun q hq => ?_
          rw [h.connected q]
          simp [List.mem_erase_of_ne hq]
      · cases hstep
  | BroadCast p =>
      simp only [SinkGroups.step] at hstep
      split at hstep
      · cases hstep
        obtain ⟨hinv, -, hin, hunit⟩ := broadCast_pool h hg p
        refine ⟨hinv, h.once, fun q hq => ?_, h.count, fun q => ?_⟩
        · -- `BroadCast` releases no linked sink.
          exact (hin q).mpr ⟨h.used q hq, fun hgone => hgone.2 hq⟩
        · show ((st.broadCast p).2.pool.unit q).m_bIsConnected = _
          rw [hunit]
          exact h.connected q
      · cases hstep

/-- A step keeps the lists right exactly when it meets `JoinsOnce`. -/
theorem Grouped.step_iff {st st' : SinkGroups} {a : SinkAction} (h : st.Links)
    (hg : st.Grouped) (hstep : st.step a = some st') : st'.Grouped ↔ st.JoinsOnce a := by
  cases a with
  | Create =>
      obtain ⟨⟨p, pool⟩, hc, rfl⟩ := Option.map_eq_some_iff.mp hstep
      obtain ⟨-, -, hin, -⟩ := TPool.Create_spec h.pool hc
      exact iff_of_true
        ⟨hg.asserts, hg.once, fun q hq => (hin q).mpr (.inr (hg.used q hq))⟩ trivial
  | OnConnected p =>
      simp only [SinkGroups.step] at hstep
      split at hstep
      · rename_i hp
        cases hstep
        have hcount := h.count
        -- The two `TASSERT`s hold: the sink is not linked yet, and the counter is positive.
        have hflag : (st.sink p).m_bIsConnected = false := by
          rw [h.connected p]
          exact decide_eq_false hp.2
        refine iff_of_true ⟨?_, hg.once, hg.used⟩ trivial
        have hpos : st.s_nLinkCount + 1 > 0 := by omega
        simp [hg.asserts, hflag, hpos]
      · cases hstep
  | OnRecv p context size =>
      simp only [SinkGroups.step] at hstep
      split at hstep
      · rename_i hp
        simp only [JoinsOnce]
        split at hstep
        · rename_i hnone
          cases hstep
          exact iff_of_true ⟨hg.asserts, hg.once, hg.used⟩ fun hsome => absurd hnone hsome
        · rename_i groupid hsome
          cases hstep
          have hperm := push_back_perm groupid p st.s_oGroupMap
          have hflag : (st.sink p).m_bIsConnected = true := by
            rw [h.connected p]
            exact decide_eq_true hp
          constructor
          · -- The `TASSERT` held, and `p` is in the new lists only once.
            rintro ⟨hassert, honce, -⟩ -
            simp only [hg.asserts, hflag, Bool.and_true, Bool.true_and] at hassert
            have hnodup := hperm.nodup_iff.mp honce
            exact ⟨of_decide_eq_true hassert, (List.nodup_cons.mp hnodup).1⟩
          · -- The condition is what the `TASSERT` and the list need.
            intro hjoin
            obtain ⟨hid, hnew⟩ := hjoin (by rw [hsome]; exact Option.some_ne_none _)
            refine ⟨?_, hperm.nodup_iff.mpr (List.nodup_cons.mpr ⟨hnew, hg.once⟩), ?_⟩
            · simp [hg.asserts, hflag, hid]
            · intro q hq
              rcases List.mem_cons.mp (hperm.mem_iff.mp hq) with rfl | hq
              · exact h.used q hp
              · exact hg.used q hq
      · cases hstep
  | OnDisconnect p =>
      simp only [SinkGroups.step] at hstep
      split at hstep
      · rename_i hp
        cases hstep
        have hpos := List.length_pos_of_mem hp
        have hcount := h.count
        have hflag : (st.sink p).m_bIsConnected = true := by
          rw [h.connected p]
          exact decide_eq_true hp
        refine iff_of_true ⟨?_, hg.once, hg.used⟩ trivial
        -- The sink that leaves is counted, so the counter stays nonnegative.
        have hnonneg : st.s_nLinkCount - 1 ≥ 0 := by omega
        simp only [hg.asserts, hflag, Bool.and_true, Bool.true_and]
        exact decide_eq_true hnonneg
      · cases hstep
  | BroadCast p =>
      simp only [SinkGroups.step] at hstep
      split at hstep
      · cases hstep
        obtain ⟨-, -, hin, -⟩ := broadCast_pool h hg p
        refine iff_of_true ⟨hg.asserts, ?_, fun q hq => ?_⟩ trivial
        · show ((st.broadCast p).1.flatMap Prod.snd).Nodup
          rw [members_broadCast h]
          exact hg.once.filter _
        · -- What is left in the lists was not released.
          have hq' : q ∈ (st.broadCast p).1.flatMap Prod.snd := hq
          rw [members_broadCast h, List.mem_filter, decide_eq_true_eq] at hq'
          exact (hin q).mpr ⟨hg.used q hq'.1, fun hgone => hgone.2 hq'.2⟩
      · cases hstep

/-- The groups. In a run, the lists are right in every state and every `BroadCast` sends one
copy to each linked sink in a group besides the sender and releases the others once, exactly
when every `SET_GROUP` comes to a sink without a group that is in no list. -/
theorem grouped_iff {as : List SinkAction} {st : SinkGroups} (hrun : run step init as = some st) :
    (Throughout step Grouped init as ∧ AllSteps step BroadCastsRight init as)
      ↔ AllSteps step JoinsOnce init as := by
  have hexact : Throughout step Grouped init as ↔ AllSteps step JoinsOnce init as :=
    throughout_iff (I := Links) (fun _ _ _ h hg hs => Grouped.step_iff h hg hs)
      (fun _ _ _ h hg _ hs => h.step hg hs) init_links init_grouped hrun
  constructor
  · rintro ⟨hall, -⟩
    exact hexact.mp hall
  · intro hjoins
    refine ⟨hexact.mpr hjoins, ?_⟩
    -- Where the lists are right, a `BroadCast` finds what it is for.
    refine allSteps_of_invariant (C := JoinsOnce) (I := fun st => st.Links ∧ st.Grouped) ?_ ?_
      ⟨init_links, init_grouped⟩ hjoins
    · rintro s a s' ⟨h, hg⟩ hjoin hs
      exact ⟨h.step hg hs, (Grouped.step_iff h hg hs).mpr hjoin⟩
    · rintro s a ⟨h, hg⟩ -
      cases a with
      | BroadCast p => exact delivers h hg p
      | _ => trivial

instance (st : SinkGroups) : ∀ a, Decidable (st.JoinsOnce a)
  | .OnRecv _ _ _ => inferInstanceAs (Decidable (_ → _))
  | .Create | .OnConnected _ | .OnDisconnect _ | .BroadCast _ => isTrue trivial

/-- The message of `28` bytes that sets the group `groupid`, for a small one. -/
def setGroup (groupid : UInt8) : Mem UInt8 :=
  Mem.ofList [28, 0, 0, 0, 0, 0, 0, 0, 0, 0, 0, 0, 0, 0, 0, 0, 0, 0, 0, 0, 0, 0, 0, 0,
    groupid, 0, 0, 0] 0

/-- Two clients join a group, one disconnects, the other broadcasts. -/
def twoClients : List SinkAction :=
  [.Create, .Create, .OnConnected 0, .OnConnected 1, .OnRecv 0 (setGroup 7) 28,
    .OnRecv 1 (setGroup 7) 28, .OnDisconnect 0, .BroadCast 1]

/-- The lists are right on the way of the two clients. -/
theorem grouped_twoClients :
    ∃ st, run step init twoClients = some st ∧ Throughout step Grouped init twoClients := by
  obtain ⟨st, hst⟩ : ∃ st, run step init twoClients = some st := ⟨_, rfl⟩
  exact ⟨st, hst, ((grouped_iff hst).mpr (by decide)).1⟩

/-- A client sends two `SET_GROUP` messages and disconnects. The `TASSERT` of the second one
fails, the sink is in two lists, and the next `BroadCast` releases it twice. -/
theorem joins_twice :
    ∃ st, run step init [.Create, .OnConnected 0, .OnRecv 0 (setGroup 7) 28,
        .OnRecv 0 (setGroup 8) 28, .OnDisconnect 0] = some st ∧
      st.assertsOk = false ∧ st.members = [0, 0] ∧ (st.broadCast 0).2.released = [0, 0] ∧
      ¬ st.Grouped :=
  ⟨_, rfl, by decide, by decide, by decide, fun h => absurd h.once (by decide)⟩

end SinkGroups

end Kernel4GameServer
