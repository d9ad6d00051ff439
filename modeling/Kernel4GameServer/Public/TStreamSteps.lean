import Kernel4GameServer.Lib.Run
import Kernel4GameServer.Public.TStreamS32

/-!
# `Kernel4GameServer.Public.TStreamSteps`: one writer and one reader on a stream

The steps of `Public/TStream.h` when one thread calls `in` and another thread runs
sections `LockRead(); size(); buff(); out(k); FreeRead();`. A step is a part of the code
that reads or writes shared fields once. The relocation takes the read lock, so it is a
step only while the reader is outside its section.

`written` and `taken` record the bytes whose `in` has finished and the bytes the reader
has taken with `out`. A `View` records what the reader saw behind `size()` and `buff()`.
-/

set_option autoImplicit false

namespace Kernel4GameServer

open Lib

/-- Where the writer is inside `in(src, src.length)`. -/
inductive StreamWriter where
  | idle
  | planned (plan : InPlan) (src : List UInt8)
  | relocated (src : List UInt8)
  | copied (src : List UInt8)

/-- What `size()` and `buff()` gave the reader: the block, the offset, the length and the
bytes there at that moment. -/
structure View where
  block : Nat
  off : Int
  nLeft : Int
  bytes : List UInt8

/-- Where the reader is inside its section. -/
inductive StreamReader where
  | idle
  | locked
  | looking (view : View)
  | done (view : View)

/-- A stream with its two threads. -/
structure StreamState (buff_length : Nat) where
  stream : TStream buff_length
  writer : StreamWriter
  reader : StreamReader
  written : List UInt8
  taken : List UInt8

/-- The steps of the two threads. -/
inductive StreamAction where
  | write (src : List UInt8)
  | relocate
  | copy
  | advance
  | lock
  | look
  | out (k : Int)
  | free

/-- The bytes of the `in` that is not finished. -/
def StreamWriter.pending : StreamWriter → List UInt8
  | .idle => []
  | .planned _ src => src
  | .relocated src => src
  | .copied src => src

/-- The view of a reader that is inside its section. -/
def StreamReader.view : StreamReader → Option View
  | .idle => none
  | .locked => none
  | .looking v => some v
  | .done v => some v

namespace StreamState

variable {buff_length : Nat}

/-- A new stream, both threads outside. -/
def init : StreamState buff_length where
  stream := .init
  writer := .idle
  reader := .idle
  written := []
  taken := []

/-- One step of a thread. -/
def step (st : StreamState buff_length) : StreamAction → Option (StreamState buff_length)
  | .write src =>
      match st.writer with
      | .idle => some { st with writer := .planned (st.stream.inPlan src.length) src }
      | _ => none
  | .relocate =>
      match st.writer, st.reader with
      | .planned .stay src, _ => some { st with writer := .relocated src }
      | .planned plan src, .idle =>
          some { st with stream := st.stream.relocate plan, writer := .relocated src }
      | _, _ => none
  | .copy =>
      match st.writer with
      | .relocated src =>
          some { st with
            stream := st.stream.copyIn (Mem.ofList src 0) src.length
            writer := .copied src }
      | _ => none
  | .advance =>
      match st.writer with
      | .copied src =>
          some { st with
            stream := st.stream.advance src.length
            writer := .idle
            written := st.written ++ src }
      | _ => none
  | .lock =>
      match st.reader with
      | .idle => some { st with reader := .locked }
      | _ => none
  | .look =>
      match st.reader with
      | .locked =>
          some { st with
            reader := .looking
              { block := st.stream.m_pbuff.alloc
                off := st.stream.m_read
                nLeft := st.stream.size
                bytes := st.stream.unread } }
      | _ => none
  | .out k =>
      match st.reader with
      | .looking v =>
          if 0 ≤ k ∧ k ≤ v.nLeft then
            some { st with
              stream := st.stream.out k
              reader := .done v
              taken := st.taken ++ v.bytes.take k.toNat }
          else none
      | _ => none
  | .free =>
      match st.reader with
      | .idle => none
      | _ => some { st with reader := .idle }

/-- The bytes of all `in` calls that a run begins, in call order. -/
def writes (as : List StreamAction) : List UInt8 :=
  as.flatMap fun
    | .write src => src
    | _ => []

/-- A write that keeps the stream below `2 ^ 31` bytes. -/
def Bounded (st : StreamState buff_length) : StreamAction → Prop
  | .write src => st.stream.size + src.length + buff_length < 2147483648
  | _ => True

/-- A write for which there is room. -/
def Roomy (st : StreamState buff_length) : StreamAction → Prop
  | .write src => st.stream.HasRoom src.length
  | _ => True

instance (st : StreamState buff_length) : ∀ a, Decidable (st.Roomy a)
  | .write src => inferInstanceAs (Decidable (st.stream.HasRoom src.length))
  | .relocate | .copy | .advance | .lock | .look | .out _ | .free => isTrue trivial

/-- Every `s32` expression of the step has a value, and the loop of `in` ends. -/
def InRange (st : StreamState buff_length) : StreamAction → Prop
  | .write src => ∃ n plan, st.stream.plan32 n src.length = some plan
  | .relocate =>
      match st.writer with
      | .planned plan _ => (st.stream.relocate32 plan).isSome
      | _ => True
  | .copy => (inS32 (st.stream.m_max - st.stream.m_write)).isSome
  | .advance =>
      match st.writer with
      | .copied src => (inS32 (st.stream.m_write + src.length)).isSome
      | _ => True
  | .look => (inS32 (st.stream.m_write - st.stream.m_read)).isSome
  | .out k => (st.stream.out32 k).isSome
  | _ => True

end StreamState

end Kernel4GameServer
