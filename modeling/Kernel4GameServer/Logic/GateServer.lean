import Kernel4GameServer.Logic.SinkReads
import Kernel4GameServer.Net.Epoll.Server

/-!
# `Kernel4GameServer.Logic.GateServer`: the Gate module as a server

`ServerPair` with the session of the Gate at its end: `OnRecv` is `ClientConnectSink::OnRecv`, on
the memory behind `buff()` as it is, and a `Send` hands over the bytes at `context`.

`Frame` is a message as a client of the Gate writes it: a `testmsgheader`, whose first field is the
length of the whole, and what belongs to it. A `SET_GROUP` message goes on with the group id.
`Shown` is about the reads of `OnRecv`, which takes the first four bytes for a length as soon as
there is one. `GroupsOk` is about its `TASSERT`, which lets a sink into one group only, and
`Asserted` says that it holds.
-/

set_option autoImplicit false

namespace Kernel4GameServer

open Lib

namespace ClientConnectSink

/-- `OnRecv` with the bytes that its calls hand over. -/
def OnRecvSeen : Kernel4GameServer.OnRecv ClientConnectSink SeenCall := fun sink context size =>
  let r := seenRecv (sink.OnRecv context size)
  ⟨r.nUse, r.session, r.calls⟩

end ClientConnectSink

/-- The bytes of a `Send`. -/
def SeenCall.sent : SeenCall → Option (List UInt8)
  | .Send bytes _ => some bytes
  | _ => none

/-- A message of a client. -/
structure Frame (x : List UInt8) : Prop where
  header : sizeof_testmsgheader ≤ x.length
  max : x.length ≤ 4096
  size : readS32 (Mem.ofList x 0) 0 = x.length
  group : readS32 (Mem.ofList x 0) 4 = TEST_MSG_ID_SET_GROUP →
    sizeof_testmsgheader + 4 ≤ x.length

/-- It sets the group. -/
def isSetGroup (x : List UInt8) : Bool :=
  decide (readS32 (Mem.ofList x 0) 4 = TEST_MSG_ID_SET_GROUP)

/-- It is a broadcast. -/
def isBroadcast (x : List UInt8) : Bool :=
  decide (readS32 (Mem.ofList x 0) 4 = TEST_MSG_ID_BROADCAST)

/-- A sink may take a message: it is connected and in no group, or the message sets none. -/
def ClientConnectSink.MayTake (sink : ClientConnectSink) (x : List UInt8) : Prop :=
  isSetGroup x = true → sink.m_nGroupID = -1 ∧ sink.m_bIsConnected = true

/-- A sink may take the messages one after the other. -/
def ClientConnectSink.GroupsOk (sink : ClientConnectSink) : List (List UInt8) → Prop
  | [] => True
  | x :: rest =>
      sink.MayTake x ∧
        if isSetGroup x then
          GroupsOk { sink with m_nGroupID := readS32 (Mem.ofList x 0) sizeof_testmsgheader } rest
        else GroupsOk sink rest

/-- The `TASSERT` of `OnRecv` holds in the call that a step makes. -/
def ServerPair.Asserted {ε : Type} (s : ServerPair ClientConnectSink ε) : ServerAction → Prop
  | .OnRecv =>
      0 < s.server.conn.pipe.m_oRecvStream.size →
        s.session.OnRecvAssert s.server.conn.pipe.m_oRecvStream.buff
          s.server.conn.pipe.m_oRecvStream.size = true
  | _ => True

/-- `OnRecv` is called with a whole length prefix, or not at all. -/
def ServerPair.Shown {σ ε : Type} (s : ServerPair σ ε) : ServerAction → Prop
  | .OnRecv =>
      s.server.conn.pipe.m_oRecvStream.size = 0 ∨ 4 ≤ s.server.conn.pipe.m_oRecvStream.size
  | _ => True

end Kernel4GameServer
