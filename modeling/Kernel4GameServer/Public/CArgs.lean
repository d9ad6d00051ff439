import Kernel4GameServer.Lib.LittleEndian
import Kernel4GameServer.Lib.Run
import Kernel4GameServer.Public.CData
import Kernel4GameServer.Public.TStreamS32

/-!
# `Kernel4GameServer.Public.CArgs`: a queue of tagged values

`Public/CArgs.h`. `operator<<` writes the tag of a value and its bytes to the stream,
`operator>>` reads them back, and `m_nDataNum` counts. A `size_t` is eight bytes, least
significant first, and `m_nDataNum` a `UInt64`. A `size_t` that is passed as the `s32` size
of a stream operation is converted.

`step` is one operator call. `given` and `yielded` are ghosts: the arguments of the `<<` and
the results of the `>>`. `shl32` and `shr32` are the operators with the arithmetic of the stream
checked.
-/

set_option autoImplicit false

namespace Kernel4GameServer

open Lib DATA_TYPE

/-- `DEFAULT_BUF_LEN`. -/
abbrev DEFAULT_BUF_LEN : Nat := 1024

/-- `class CArgs`: the stream that it derives from, and its counter. -/
structure CArgs where
  stream : TStream DEFAULT_BUF_LEN
  m_nDataNum : UInt64

namespace CArgs

/-- The constructor `CArgs()`. -/
def init : CArgs where
  stream := TStream.init
  m_nDataNum := 0

/-- The condition under which `operator<<` goes on to write. -/
def accepts (data : CData) : Bool :=
  !(decide (data.type < DATA_TYPE_S8.toS8) || decide (data.type > DATA_TYPE_STRING.toS8))

/-- `operator<<`. -/
def shl (args : CArgs) (data : CData) : CArgs :=
  if accepts data then
    let stream := args.stream.inBytes (fun _ => data.type.toUInt8) 1
    let stream := match ofS8 data.type with
      | some DATA_TYPE_S8 => stream.inBytes data.mem 1
      | some DATA_TYPE_S16 => stream.inBytes data.mem 2
      | some DATA_TYPE_S32 => stream.inBytes data.mem 4
      | some DATA_TYPE_S64 => stream.inBytes data.mem 8
      | some DATA_TYPE_DOUBLE => stream.inBytes data.mem 8
      | some DATA_TYPE_STRING =>
          let nStrLen := data.strValue.length
          let stream := stream.inBytes (Mem.ofList (LittleEndian.split 8 nStrLen) 0) 8
          stream.inBytes (Mem.ofList data.strValue 0) (s32 nStrLen)
      | _ => stream
    { stream, m_nDataNum := args.m_nDataNum + 1 }
  else args

/-- `operator>>`: the values after it, and what is in its argument. -/
def shr (args : CArgs) (data : CData) : CArgs × CData :=
  let type := (tools.SafeMemcpy (fun _ => DATA_TYPE_INVALID.toS8.toUInt8) 0 1
    args.stream.buff 0 1 0).toInt8
  let stream := args.stream.out 1
  let (stream, data) := match ofS8 type with
    | some DATA_TYPE_S8 =>
        (stream.out 1, { data with mem := tools.SafeMemcpy data.mem 0 1 stream.buff 0 1 })
    | some DATA_TYPE_S16 =>
        (stream.out 2, { data with mem := tools.SafeMemcpy data.mem 0 2 stream.buff 0 2 })
    | some DATA_TYPE_S32 =>
        (stream.out 4, { data with mem := tools.SafeMemcpy data.mem 0 4 stream.buff 0 4 })
    | some DATA_TYPE_S64 =>
        (stream.out 8, { data with mem := tools.SafeMemcpy data.mem 0 8 stream.buff 0 8 })
    | some DATA_TYPE_DOUBLE =>
        (stream.out 8, { data with mem := tools.SafeMemcpy data.mem 0 8 stream.buff 0 8 })
    | some DATA_TYPE_STRING =>
        let nStrLen := LittleEndian.combine
          (Mem.slice (tools.SafeMemcpy (fun _ => 0) 0 8 stream.buff 0 8) 0 8)
        let stream := stream.out 8
        -- The length is a `size_t`, and the parameter of `out` an `s32`.
        (stream.out (s32 nStrLen), { data with strValue := Mem.slice stream.buff 0 nStrLen })
    | _ => (stream, data)
  ({ stream, m_nDataNum := args.m_nDataNum - 1 }, { data with type })

/-- `operator<<` in `s32`. -/
def shl32 (n : Nat) (args : CArgs) (data : CData) : Option CArgs :=
  if accepts data then do
    let stream ← args.stream.in32 n (fun _ => data.type.toUInt8) 1
    let stream ← match ofS8 data.type with
      | some DATA_TYPE_S8 => stream.in32 n data.mem 1
      | some DATA_TYPE_S16 => stream.in32 n data.mem 2
      | some DATA_TYPE_S32 => stream.in32 n data.mem 4
      | some DATA_TYPE_S64 => stream.in32 n data.mem 8
      | some DATA_TYPE_DOUBLE => stream.in32 n data.mem 8
      | some DATA_TYPE_STRING => do
          let nStrLen := data.strValue.length
          let stream ← stream.in32 n (Mem.ofList (LittleEndian.split 8 nStrLen) 0) 8
          stream.in32 n (Mem.ofList data.strValue 0) (s32 nStrLen)
      | _ => some stream
    return { stream, m_nDataNum := args.m_nDataNum + 1 }
  else some args

/-- `operator>>` in `s32`. -/
def shr32 (args : CArgs) (data : CData) : Option (CArgs × CData) := do
  let type := (tools.SafeMemcpy (fun _ => DATA_TYPE_INVALID.toS8.toUInt8) 0 1
    args.stream.buff 0 1 0).toInt8
  let stream ← args.stream.out32 1
  -- A member of the union, of `n` bytes.
  let member (n : Nat) : Option (TStream DEFAULT_BUF_LEN × CData) := do
    let rest ← stream.out32 n
    return (rest, { data with mem := tools.SafeMemcpy data.mem 0 n stream.buff 0 n })
  let (stream, data) ← match ofS8 type with
    | some DATA_TYPE_S8 => member 1
    | some DATA_TYPE_S16 => member 2
    | some DATA_TYPE_S32 => member 4
    | some DATA_TYPE_S64 => member 8
    | some DATA_TYPE_DOUBLE => member 8
    | some DATA_TYPE_STRING => do
        let nStrLen := LittleEndian.combine
          (Mem.slice (tools.SafeMemcpy (fun _ => 0) 0 8 stream.buff 0 8) 0 8)
        let stream ← stream.out32 8
        let rest ← stream.out32 (s32 nStrLen)
        pure (rest, { data with strValue := Mem.slice stream.buff 0 nStrLen })
    | _ => some (stream, data)
  return ({ stream, m_nDataNum := args.m_nDataNum - 1 }, { data with type })

/-- `size()`. -/
def size (args : CArgs) : Int := sizeT args.stream.size

/-- `GetDataNum()`. -/
def GetDataNum (args : CArgs) : UInt64 := args.m_nDataNum

end CArgs

/-- One operator call. -/
inductive CArgsAction where
  | shl (data : CData)
  | shr (data : CData)

/-- The values, the arguments of all `<<` and the results of all `>>` so far. -/
structure CArgsState where
  args : CArgs
  given : List CData
  yielded : List CData

namespace CArgsState

/-- Fresh values. -/
def init : CArgsState := ⟨CArgs.init, [], []⟩

/-- One call. A `>>` needs a value to read. -/
def step (st : CArgsState) : CArgsAction → Option CArgsState
  | .shl data => some { st with args := st.args.shl data, given := st.given ++ [data] }
  | .shr data =>
      if st.args.GetDataNum > 0 then
        let (args, data) := st.args.shr data
        some { st with args, yielded := st.yielded ++ [data] }
      else none

/-- The values that the `<<` did not skip. -/
def accepted (st : CArgsState) : List CData := st.given.filter CArgs.accepts

/-- The sizes of the values together. -/
def totalSize : List CData → Nat
  | [] => 0
  | data :: rest => data.GetDataSize + totalSize rest

/-- A call after which fewer than `2 ^ 31` bytes are pending. -/
def Bounded (st : CArgsState) : CArgsAction → Prop
  | .shl data => st.args.size + data.GetDataSize < 2147483648
  | .shr _ => True

/-- A call that has room for the value it writes. -/
def Roomy (st : CArgsState) : CArgsAction → Prop
  | .shl data => CArgs.accepts data = true → st.args.stream.HasRoom data.GetDataSize
  | .shr _ => True

/-- Every `s32` expression of the call has a value, and the values behind it are those of
`step`. -/
def InRange (st : CArgsState) : CArgsAction → Prop
  | .shl data => ∃ n, st.args.shl32 n data = some (st.args.shl data)
  | .shr data => st.args.shr32 data = some (st.args.shr data)

end CArgsState

end Kernel4GameServer
