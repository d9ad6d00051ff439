import Kernel4GameServer.Net.Epoll.CPipe
import Kernel4GameServer.Net.Epoll.Processing

/-!
# `Kernel4GameServer.Logic.ClientConnectSink`: the session of the Gate module

`logic/Gate/ClientConnectSink.h`. `OnRecv` looks at one frame: a `testmsgheader` whose first
field is the length of the frame. Its calls of `Close`, `Send` and `SetGroupID` are the
effects of the session; each branch makes at most one and makes it last.

`GateConn` is a Gate connection on its pipe. Its steps are the bytes the client sends
(`append`), one round of the drain loop with what `OnRecv` calls (`round`), one iteration
of `DoSend` in the worker (`doSend`), and `DoClose` (`doClose`).

The epoll engine is built with `_DEBUG`, where a failed `TASSERT` ends the program. `memcpyOk` and
`OnRecvAssert` say whether one fails. The model goes on behind it, so what the program does is a
run of the model up to there.
-/

set_option autoImplicit false

namespace Kernel4GameServer

open Lib

/-- `sizeof(testmsgheader)`: two `s32`, an `s64` and a pointer, packed. -/
def sizeof_testmsgheader : Int := 4 + 4 + 8 + 8

/-- `TEST_MSG_ID_SET_GROUP`. -/
def TEST_MSG_ID_SET_GROUP : Int := 0

/-- `TEST_MSG_ID_BROADCAST`. -/
def TEST_MSG_ID_BROADCAST : Int := 1

/-- A call that `OnRecv` makes. -/
inductive SinkCall where
  | Close
  | Send (context : Mem UInt8) (size : Int)
  | SetGroupID (groupid : Int)

/-- The length of a `Send`. -/
def SinkCall.sendSize : SinkCall → Option Int
  | .Send _ size => some size
  | _ => none

/-- The fields of a `ClientConnectSink`. -/
structure ClientConnectSink where
  m_bIsConnected : Bool
  m_nGroupID : Int
  deriving DecidableEq, Repr

namespace ClientConnectSink

/-- `OnRecv(pKernel, context, size)`. In `nLen >= sizeof(testmsgheader)` the `s32` is
converted to `size_t`. -/
def OnRecv (sink : ClientConnectSink) (context : Mem UInt8) (size : Int) :
    Received ClientConnectSink SinkCall :=
  let nLen := readS32 context 0
  if nLen > 4096 then ⟨0, sink, [.Close]⟩
  -- A negative length is a large `size_t`.
  else if nLen ≤ size ∧ sizeT nLen ≥ sizeof_testmsgheader then
    let msgid := readS32 context 4
    if msgid = TEST_MSG_ID_SET_GROUP then
      let groupid := readS32 context sizeof_testmsgheader
      ⟨nLen, { sink with m_nGroupID := groupid }, [.SetGroupID groupid]⟩
    else if msgid = TEST_MSG_ID_BROADCAST then ⟨nLen, sink, [.Send context nLen]⟩
    else ⟨nLen, sink, []⟩
  else ⟨0, sink, []⟩

/-- The `TASSERT` of `OnRecv` in front of `SetGroupID` holds, or the call does not come to it. -/
def OnRecvAssert (sink : ClientConnectSink) (context : Mem UInt8) (size : Int) : Bool :=
  let nLen := readS32 context 0
  if nLen > 4096 then true
  else if nLen ≤ size ∧ sizeT nLen ≥ sizeof_testmsgheader then
    if readS32 context 4 = TEST_MSG_ID_SET_GROUP then
      sink.m_nGroupID == -1 && sink.m_bIsConnected
    else true
  else true

end ClientConnectSink

/-- A call of `OnRecv` as it was made: the size it was given, its value, the lengths of its
`Send`s. -/
structure GateCall where
  size : Int
  ret : Int
  sends : List Int
  deriving DecidableEq, Repr

/-- A Gate connection. `log` records the calls of `OnRecv`, `memcpyOk` whether all
`TASSERT`s in `SafeMemcpy` held so far. -/
structure GateConn where
  pipe : CPipe
  sink : ClientConnectSink
  log : List GateCall
  memcpyOk : Bool

/-- The steps of a Gate connection, with the results of the `send` calls they make. -/
inductive GateAction where
  | append (piece : List UInt8)
  | round (results : List SendResult)
  | doSend (result : SendResult)
  | doClose

namespace GateConn

/-- A connected session, nothing received and nothing sent. -/
def init (lSocket : Int) (sink : ClientConnectSink) : GateConn where
  pipe := .established lSocket
  sink := sink
  log := []
  memcpyOk := true

/-- A call of the session on its pipe. -/
def call (st : GateConn) (results : List SendResult) : SinkCall → Option GateConn
  | .Close => some { st with pipe := st.pipe.Close.pipe }
  | .Send context size =>
      (st.pipe.Send context size results).map fun r =>
        { st with
          pipe := r.pipe
          memcpyOk := st.memcpyOk &&
            (st.pipe.m_nStatus ≠ .SS_ESTABLISHED || st.pipe.m_oSendStream.inAssert size) }
  | .SetGroupID _ => some st

/-- The call of `OnRecv` that a round makes. -/
def received (st : GateConn) : Received ClientConnectSink SinkCall :=
  st.sink.OnRecv st.pipe.m_oRecvStream.buff st.pipe.m_oRecvStream.size

/-- The connection with that call in its log, before the session's own calls. -/
def logged (st : GateConn) : GateConn :=
  let r := st.received
  { st with
    sink := r.session
    log := st.log ++
      [⟨st.pipe.m_oRecvStream.size, r.nUse, r.effects.filterMap SinkCall.sendSize⟩] }

/-- One step of a Gate connection. -/
def step (st : GateConn) : GateAction → Option GateConn
  | .append piece =>
      let s := st.pipe.m_oRecvStream
      some { st with
        pipe := { st.pipe with m_oRecvStream := s.inBytes (Mem.ofList piece 0) piece.length }
        memcpyOk := st.memcpyOk && s.inAssert piece.length }
  | .round results =>
      let s := st.pipe.m_oRecvStream
      if s.size > 0 then
        let nUse := st.received.nUse
        (st.received.effects.foldlM (fun (c : GateConn) e => c.call results e) st.logged).map
          fun c =>
            { c with
              pipe := { c.pipe with m_oRecvStream := if nUse > 0 then s.out nUse else s } }
      else none
  | .doSend result =>
      (st.pipe.doSendRound result).map fun r => { st with pipe := r.1.pipe }
  | .doClose => some { st with pipe := st.pipe.DoClose }

end GateConn

end Kernel4GameServer
