/-!
# `Kernel4GameServer.Net.Header`: the names both network engines share

`kernel/net/Header.h`: the status of a socket, the types of queued events, the block size
of a stream.
-/

set_option autoImplicit false

namespace Kernel4GameServer

/-- `eSocketStatus`. -/
inductive SocketStatus where
  | SS_UNINITIALIZE
  | SS_ESTABLISHED
  | SS_WAITCLOSE
  deriving DecidableEq, Repr

/-- `IO_EVENT_TYPE_BREAK` and its siblings. `COUNT` stands for no event. -/
inductive IoEventType where
  | BREAK
  | RECV
  | CONNECTED
  | CONNECTFAILD
  | COUNT
  deriving DecidableEq, Repr

/-- `BUFF_SIZE`. -/
def BUFF_SIZE : Nat := 16 * 1024

theorem BUFF_SIZE_pos : 0 < BUFF_SIZE := by decide

end Kernel4GameServer
