import Kernel4GameServer.Logic.ClientConnectSink

/-!
# `Kernel4GameServer.Logic.GateBuffer`: the input of a Gate connection

A Gate connection on its way from the socket to `ClientConnectSink::OnRecv`: the worker runs
`m_oRecvStream.in` and queues events, the main thread runs `epollWorker::Processing`. Two
counts of arrived bytes are kept beside it. `fresh` counts from the last `size()` of the main
thread, `since` from the last `size()` of the last event it is done with.
-/

set_option autoImplicit false

namespace Kernel4GameServer

open Lib

/-- A Gate connection with the counts of arrived bytes. -/
structure GateBuffer where
  recv : RecvState ClientConnectSink SinkCall
  fresh : Nat
  since : Nat

namespace GateBuffer

/-- A connected session, nothing received. -/
def init (sink : ClientConnectSink) : GateBuffer where
  recv := .init sink
  fresh := 0
  since := 0

/-- The number of bytes that arrived on the way to `recv`. -/
def arrived (st : GateBuffer) (recv : RecvState ClientConnectSink SinkCall) : Nat :=
  recv.io.written.length - st.recv.io.written.length

/-- One step of a thread. -/
def step (st : GateBuffer) (a : RecvAction) : Option GateBuffer :=
  (st.recv.step ClientConnectSink.OnRecv a).map fun recv =>
    match a with
    | .append _ =>
        { recv, fresh := st.fresh + st.arrived recv, since := st.since + st.arrived recv }
    | .look => { st with recv, fresh := 0 }
    -- Behind the last `FreeRead` of an event the main thread is outside the loop.
    | .free => { st with recv, since := if recv.main = .idle then st.fresh else st.since }
    | _ => { st with recv }

/-- The session has called `Close`. -/
def Closed (st : GateBuffer) : Prop := .effect .Close ∈ st.recv.trace

/-- The call of `OnRecv` with `v` in view. -/
def called (st : GateBuffer) (v : View) : Received ClientConnectSink SinkCall :=
  recvCall ClientConnectSink.OnRecv st.recv.session st.recv.io.stream v.nLeft

end GateBuffer

end Kernel4GameServer
