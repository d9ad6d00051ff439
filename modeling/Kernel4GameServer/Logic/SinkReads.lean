import Kernel4GameServer.Lib.Reading
import Kernel4GameServer.Logic.ClientConnectSink

/-!
# `Kernel4GameServer.Logic.SinkReads`: the reads of `OnRecv`

`ClientConnectSink::OnRecv` once more, as a computation that reads the bytes behind `context`
one by one. A `Send(context, nLen)` is handed the first `nLen` bytes, so they count as read.
What the outside sees of a call of `OnRecv` is the value it returns, the session behind it and
the calls it made with the bytes they were given.
-/

set_option autoImplicit false

namespace Kernel4GameServer

open Lib

/-- A call that `OnRecv` makes, with the bytes it hands over. -/
inductive SeenCall where
  | Close
  | Send (bytes : List UInt8) (size : Int)
  | SetGroupID (groupid : Int)
  deriving DecidableEq

/-- What the outside sees of a call of `OnRecv`. -/
structure SeenRecv where
  nUse : Int
  session : ClientConnectSink
  calls : List SeenCall
  deriving DecidableEq

/-- The bytes that a call hands over. -/
def SinkCall.seen : SinkCall → SeenCall
  | .Close => .Close
  | .Send context size => .Send (Mem.slice context 0 size.toNat) size
  | .SetGroupID groupid => .SetGroupID groupid

/-- What the outside sees of the answer of `OnRecv`. -/
def seenRecv (r : Received ClientConnectSink SinkCall) : SeenRecv :=
  ⟨r.nUse, r.session, r.effects.map SinkCall.seen⟩

/-- `*(const s32 *)` at the offset `off`, byte by byte. -/
def s32At (off : Int) : Reading Int UInt8 Int := do
  let b₀ ← Reading.cell off
  let b₁ ← Reading.cell (off + 1)
  let b₂ ← Reading.cell (off + 2)
  let b₃ ← Reading.cell (off + 3)
  pure (s32 (b₀.toNat + 256 * b₁.toNat + 65536 * b₂.toNat + 16777216 * b₃.toNat))

/-- The first `n` bytes. -/
def bytesAt (n : Nat) : Reading Int UInt8 (List UInt8) :=
  Reading.cells ((List.range n).map fun i : Nat => 0 + (i : Int))

namespace ClientConnectSink

/-- `OnRecv(pKernel, context, size)` with its reads. -/
def OnRecvReads (sink : ClientConnectSink) (size : Int) : Reading Int UInt8 SeenRecv := do
  let nLen ← s32At 0
  if nLen > 4096 then pure ⟨0, sink, [.Close]⟩
  else if nLen ≤ size ∧ sizeT nLen ≥ sizeof_testmsgheader then
    let msgid ← s32At 4
    if msgid = TEST_MSG_ID_SET_GROUP then
      let groupid ← s32At sizeof_testmsgheader
      pure ⟨nLen, { sink with m_nGroupID := groupid }, [.SetGroupID groupid]⟩
    else if msgid = TEST_MSG_ID_BROADCAST then
      let bytes ← bytesAt nLen.toNat
      pure ⟨nLen, sink, [.Send bytes nLen]⟩
    else pure ⟨nLen, sink, []⟩
  else pure ⟨0, sink, []⟩

end ClientConnectSink

end Kernel4GameServer
