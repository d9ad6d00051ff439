import Mathlib.Data.Set.Basic
import Kernel4GameServer.Lib.Run
import Kernel4GameServer.Public.TStream

/-!
# `Kernel4GameServer.Public.TStreamCalls`: the calls of one thread on a stream

`Public/TStream.h` with one caller: any sequence of `in` and of `out(k)` with `k` up to
`size()`. In the compaction branch `in` copies the unread bytes to the front of the block they
are in, with `SafeMemcpy(m_pbuff, m_max, &m_pbuff[m_read], cursize)`.
-/

set_option autoImplicit false

namespace Kernel4GameServer

open Lib

/-- A call on a stream. -/
inductive StreamCall where
  | inBytes (src : List UInt8)
  | out (k : Int)

namespace TStream

variable {buff_length : Nat}

/-- One call. The caller takes out what is there. -/
def step (s : TStream buff_length) : StreamCall → Option (TStream buff_length)
  | .inBytes src => some (s.inBytes (Mem.ofList src 0) src.length)
  | .out k => if 0 ≤ k ∧ k ≤ s.size then some (s.out k) else none

/-- The offsets that the copy of a compaction reads. -/
def compactSrc (s : TStream buff_length) : Set Int :=
  {i | s.m_read ≤ i ∧ i < s.m_read + s.size}

/-- The offsets that the copy of a compaction writes. -/
def compactDest (s : TStream buff_length) : Set Int := {i | 0 ≤ i ∧ i < s.size}

end TStream

end Kernel4GameServer
