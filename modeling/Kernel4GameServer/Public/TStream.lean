import Kernel4GameServer.Public.Tools

/-!
# `Kernel4GameServer.Public.TStream`: the byte stream

`Public/TStream.h`. A stream is one heap block of `m_max` bytes with a read and a write
offset. `in` is cut where another thread can come between: the unlocked test `inPlan`, the
relocation under the read lock `relocate`, the unlocked copy `copyIn` and the store
`advance` to `m_write`. `inBytes` is their composition. The locks themselves belong to the
step relations.

`m_read`, `m_write` and `m_max` are `Int` here. `Public.TStreamS32` has `in` and `out` with the
arithmetic of `s32`. They come to the same while the bytes of every `in` fit behind `m_write`, or
these, the pending bytes and `buff_length` are together below `2 ^ 31` (`TStream.HasRoom`).
-/

set_option autoImplicit false

namespace Kernel4GameServer

open Lib

/-- A heap block: which allocation it is, and its bytes. -/
structure Block where
  alloc : Nat
  bytes : Mem UInt8

/-- `TStream<buff_length, b>` without its two locks. -/
structure TStream (buff_length : Nat) where
  m_pbuff : Block
  m_read : Int
  m_write : Int
  m_max : Int

/-- What the unlocked test of `in` decides. -/
inductive InPlan where
  | stay
  | grow (nNewSize : Int)
  | compact
  deriving DecidableEq, Repr

namespace TStream

variable {buff_length : Nat}

/-- The constructor `TStream()`. -/
def init : TStream buff_length where
  m_pbuff := ⟨0, fun _ => 0⟩
  m_read := 0
  m_write := 0
  m_max := buff_length

/-- `clear()`: a grown block is replaced by one of `buff_length` bytes, and the first
`buff_length` bytes are set to zero. -/
def clear (s : TStream buff_length) : TStream buff_length :=
  let block := if s.m_max > buff_length then ⟨s.m_pbuff.alloc + 1, fun _ => 0⟩ else s.m_pbuff
  { m_pbuff := { block with
      bytes := fun i => if 0 ≤ i ∧ i < buff_length then 0 else block.bytes i }
    m_read := 0
    m_write := 0
    m_max := if s.m_max > buff_length then buff_length else s.m_max }

/-- `buff()`: the pointer to the first unread byte. -/
def buff (s : TStream buff_length) : Mem UInt8 := s.m_pbuff.bytes.shift s.m_read

/-- `size()`. -/
def size (s : TStream buff_length) : Int := s.m_write - s.m_read

/-- `out(k)`. -/
def out (s : TStream buff_length) (k : Int) : TStream buff_length :=
  -- The `TASSERT` is followed by an `out` of everything.
  if k > s.m_write - s.m_read then { s with m_read := s.m_write }
  else { s with m_read := s.m_read + k }

/-- `while (nNewSize - cursize <= size) nNewSize += buff_length;`, at most `fuel` rounds. -/
def growLoop (buff_length : Nat) (cursize size : Int) : Nat → Int → Int
  | 0, nNewSize => nNewSize
  | fuel + 1, nNewSize =>
      if nNewSize - cursize ≤ size then
        growLoop buff_length cursize size fuel (nNewSize + buff_length)
      else nNewSize

/-- The first part of `in`, without a lock: stay, grow or compact. A round of the loop adds
at least one, so `cursize + size - nNewSize + 1` rounds are enough. -/
def inPlan (s : TStream buff_length) (size : Int) : InPlan :=
  if size > s.m_max - s.m_write then
    let cursize := s.m_write - s.m_read
    -- Even with the unread bytes in front, the block has no room.
    if s.m_max - cursize ≤ size then
      let nNewSize := s.m_max + buff_length
      .grow (growLoop buff_length cursize size (cursize + size - nNewSize + 1).toNat nNewSize)
    else .compact
  else .stay

/-- `malloc_new_size(newSize)`, under the read lock. -/
def malloc_new_size (s : TStream buff_length) (newSize : Int) : TStream buff_length :=
  let cursize := s.m_write - s.m_read
  { m_max := newSize
    m_pbuff := ⟨s.m_pbuff.alloc + 1,
      tools.SafeMemcpy (fun _ => 0) 0 newSize s.m_pbuff.bytes s.m_read cursize⟩
    m_write := cursize
    m_read := 0 }

/-- The compaction branch of `in`, under the read lock. The copy is a `memmove`. -/
def compact (s : TStream buff_length) : TStream buff_length :=
  let cursize := s.m_write - s.m_read
  { s with
    m_pbuff := { s.m_pbuff with
      bytes := tools.SafeMemcpy s.m_pbuff.bytes 0 s.m_max s.m_pbuff.bytes s.m_read cursize }
    m_write := cursize
    m_read := 0 }

/-- The locked part of `in`. -/
def relocate (s : TStream buff_length) : InPlan → TStream buff_length
  | .stay => s
  | .grow nNewSize => s.malloc_new_size nNewSize
  | .compact => s.compact

/-- The copy of `in` to `m_pbuff[m_write]`, without a lock. -/
def copyIn (s : TStream buff_length) (pbuff : Mem UInt8) (size : Int) : TStream buff_length :=
  { s with
    m_pbuff := { s.m_pbuff with
      bytes := tools.SafeMemcpy s.m_pbuff.bytes s.m_write (s.m_max - s.m_write) pbuff 0 size } }

/-- `m_write += size;`, without a lock. -/
def advance (s : TStream buff_length) (size : Int) : TStream buff_length :=
  { s with m_write := s.m_write + size }

/-- `in(pbuff, size)` with nothing in between. -/
def inBytes (s : TStream buff_length) (pbuff : Mem UInt8) (size : Int) : TStream buff_length :=
  ((s.relocate (s.inPlan size)).copyIn pbuff size).advance size

/-- The `TASSERT`s of the `SafeMemcpy` calls that `in(pbuff, size)` makes all hold. -/
def inAssert (s : TStream buff_length) (size : Int) : Bool :=
  let t := s.relocate (s.inPlan size)
  (match s.inPlan size with
    | .stay => true
    | .grow nNewSize => tools.SafeMemcpyAssert nNewSize (s.m_write - s.m_read)
    | .compact => tools.SafeMemcpyAssert s.m_max (s.m_write - s.m_read))
  && tools.SafeMemcpyAssert (t.m_max - t.m_write) size

/-- The bytes between the read and the write offset. -/
def unread (s : TStream buff_length) : List UInt8 :=
  Mem.slice s.m_pbuff.bytes s.m_read (s.m_write - s.m_read).toNat

end TStream

end Kernel4GameServer
