import Kernel4GameServer.Lib.Run
import Kernel4GameServer.Logic.ClientConnectSink
import Kernel4GameServer.Public.TPool

/-!
# `Kernel4GameServer.Logic.SinkGroups`: the sinks of the Gate module and their groups

`logic/Gate/ClientConnectSink.h` with its three statics: the pool `s_oPoolClient`, the count
`s_nLinkCount` and the map `s_oGroupMap` from a group id to the list of its sinks. A client
joins a group with a `SET_GROUP` message. Nothing takes it out but the next `BroadCast`, which
releases the sinks it finds disconnected. `Create` hands a released sink out again with the
fields it had.

`linked` are the sinks whose connection is open, as the engine sees it: it calls `OnConnected`
on a sink that is not linked, and `OnRecv` and `OnDisconnect` on one that is. Without `_DEBUG`
a `TASSERT` is empty, so a failed one goes on; `assertsOk` records it. Each linked sink has a
socket of its own, so `s_nLinkCount` is far from the bounds of `s32`.
-/

set_option autoImplicit false

namespace Kernel4GameServer

open Lib

/-- `std::map<s32, SINK_LIST>`: the lists by group id, in the order of the ids. -/
abbrev SINK_LIST_MAP := List (Int × List Nat)

/-- The list of the group `groupid`, inserted where there is none, gets `p` at its end. -/
def SINK_LIST_MAP.push_back (groupid : Int) (p : Nat) : SINK_LIST_MAP → SINK_LIST_MAP
  | [] => [(groupid, [p])]
  | (id, sinks) :: rest =>
      if groupid = id then (id, sinks ++ [p]) :: rest
      else if groupid < id then (groupid, [p]) :: (id, sinks) :: rest
      else (id, sinks) :: SINK_LIST_MAP.push_back groupid p rest

/-- What a `BroadCast` did so far: the pool, the sinks it sent a copy to and those it
released. -/
structure BroadCasting where
  pool : TPool ClientConnectSink
  sent : List Nat
  released : List Nat

/-- The inner loop of `BroadCast` on one list. The result is the list without the released
sinks. -/
def broadCastList (this : Nat) : List Nat → BroadCasting → List Nat × BroadCasting
  | [], b => ([], b)
  | q :: rest, b =>
      if (b.pool.unit q).m_bIsConnected then
        let r := broadCastList this rest (if q ≠ this then { b with sent := b.sent ++ [q] } else b)
        (q :: r.1, r.2)
      else
        broadCastList this rest
          { b with pool := b.pool.Recover q, released := b.released ++ [q] }

/-- The outer loop of `BroadCast`. -/
def broadCastMap (this : Nat) : SINK_LIST_MAP → BroadCasting → SINK_LIST_MAP × BroadCasting
  | [], b => ([], b)
  | (id, sinks) :: rest, b =>
      let r := broadCastList this sinks b
      let r' := broadCastMap this rest r.2
      ((id, r.1) :: r'.1, r'.2)

/-- The statics of `ClientConnectSink` with its callers. -/
structure SinkGroups where
  s_oPoolClient : TPool ClientConnectSink
  s_nLinkCount : Int
  s_oGroupMap : SINK_LIST_MAP
  linked : List Nat
  assertsOk : Bool

/-- What happens to the sinks: `MallocConnection` of the Gate module, and the calls on a
sink. -/
inductive SinkAction where
  | Create
  | OnConnected (p : Nat)
  | OnRecv (p : Nat) (context : Mem UInt8) (size : Int)
  | OnDisconnect (p : Nat)
  | BroadCast (p : Nat)

/-- The group that a call of `OnRecv` sets. -/
def Received.groupSet {σ : Type} (r : Received σ SinkCall) : Option Int :=
  r.effects.findSome? fun
    | .SetGroupID groupid => some groupid
    | _ => none

namespace SinkGroups

/-- The constructor `ClientConnectSink()`. -/
def newSink : ClientConnectSink where
  m_bIsConnected := false
  m_nGroupID := -1

/-- The statics as the program starts. -/
def init : SinkGroups where
  s_oPoolClient := .init newSink 64
  s_nLinkCount := 0
  s_oGroupMap := []
  linked := []
  assertsOk := true

/-- The sink at `p`. -/
def sink (st : SinkGroups) (p : Nat) : ClientConnectSink := st.s_oPoolClient.unit p

/-- All sinks in the lists, one list behind the other. -/
def members (st : SinkGroups) : List Nat := st.s_oGroupMap.flatMap Prod.snd

/-- `BroadCast(context, len)` of the sink at `p`: the map behind it and what it did. -/
def broadCast (st : SinkGroups) (p : Nat) : SINK_LIST_MAP × BroadCasting :=
  broadCastMap p st.s_oGroupMap ⟨st.s_oPoolClient, [], []⟩

/-- One call. -/
def step (st : SinkGroups) : SinkAction → Option SinkGroups
  | .Create =>
      (st.s_oPoolClient.Create newSink 64).map fun r => { st with s_oPoolClient := r.2 }
  | .OnConnected p =>
      if st.s_oPoolClient.inUse p = true ∧ p ∉ st.linked then
        let count := st.s_nLinkCount + 1
        some { st with
          s_nLinkCount := count
          assertsOk := st.assertsOk && decide (count > 0) && !(st.sink p).m_bIsConnected
          s_oPoolClient := st.s_oPoolClient.set p { st.sink p with m_bIsConnected := true }
          linked := p :: st.linked }
      else none
  | .OnRecv p context size =>
      if p ∈ st.linked then
        let r := (st.sink p).OnRecv context size
        let pool := st.s_oPoolClient.set p r.session
        match r.groupSet with
        | none => some { st with s_oPoolClient := pool }
        -- The `TASSERT` of `OnRecv` comes first. The sink also stays in the list of its old group.
        | some groupid =>
            some { st with
              s_oPoolClient := pool
              assertsOk := st.assertsOk
                && (decide ((st.sink p).m_nGroupID = -1) && (st.sink p).m_bIsConnected)
              s_oGroupMap := st.s_oGroupMap.push_back groupid p }
      else none
  | .OnDisconnect p =>
      if p ∈ st.linked then
        let count := st.s_nLinkCount - 1
        some { st with
          s_nLinkCount := count
          assertsOk := st.assertsOk && decide (count ≥ 0) && (st.sink p).m_bIsConnected
          s_oPoolClient := st.s_oPoolClient.set p { st.sink p with m_bIsConnected := false }
          linked := st.linked.erase p }
      else none
  | .BroadCast p =>
      if st.s_oPoolClient.inUse p = true then
        let r := st.broadCast p
        some { st with s_oGroupMap := r.1, s_oPoolClient := r.2.pool }
      else none

end SinkGroups

end Kernel4GameServer
