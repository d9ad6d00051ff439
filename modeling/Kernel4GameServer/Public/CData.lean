import Kernel4GameServer.Public.Tools

/-!
# `Kernel4GameServer.Public.CData`: one tagged value

`Public/CData.h`. A `CData` is a type tag, an `s8`, and a union. `mem` are the bytes of the
union and `strValue` the string that its pointer member refers to. The code reads the one or
the other by the tag, so the address in the union of a string is left out.

`payload` is the value a `CData` holds, as bytes: those of the union member that the tag
selects, or those of the string.
-/

set_option autoImplicit false

namespace Kernel4GameServer

open Lib

/-- `enum DATA_TYPE`. -/
inductive DATA_TYPE where
  | DATA_TYPE_INVALID
  | DATA_TYPE_S8
  | DATA_TYPE_S16
  | DATA_TYPE_S32
  | DATA_TYPE_S64
  | DATA_TYPE_DOUBLE
  | DATA_TYPE_STRING
  | DATA_TYPE_BLOB
  deriving DecidableEq, Repr

namespace DATA_TYPE

/-- The value of an enumerator, as the tag holds it. -/
def toS8 : DATA_TYPE → Int8
  | DATA_TYPE_INVALID => 0
  | DATA_TYPE_S8 => 1
  | DATA_TYPE_S16 => 2
  | DATA_TYPE_S32 => 3
  | DATA_TYPE_S64 => 4
  | DATA_TYPE_DOUBLE => 5
  | DATA_TYPE_STRING => 6
  | DATA_TYPE_BLOB => 7

/-- The label that a `switch` over the tag `type` goes to, when there is one. -/
def ofS8 (type : Int8) : Option DATA_TYPE :=
  [DATA_TYPE_INVALID, DATA_TYPE_S8, DATA_TYPE_S16, DATA_TYPE_S32, DATA_TYPE_S64,
    DATA_TYPE_DOUBLE, DATA_TYPE_STRING, DATA_TYPE_BLOB].find? (·.toS8 = type)

end DATA_TYPE

/-- `class CData`. -/
structure CData where
  mem : Mem UInt8
  strValue : List UInt8
  type : Int8

namespace CData

open DATA_TYPE

/-- `GetDataLength(type)`. -/
def GetDataLength (type : Int8) : Nat :=
  match ofS8 type with
  | some DATA_TYPE_S8 => 1
  | some DATA_TYPE_S16 => 2
  | some DATA_TYPE_S32 => 4
  | some DATA_TYPE_S64 => 8
  | some DATA_TYPE_DOUBLE => 8
  | some DATA_TYPE_STRING => 0
  | _ => 0

/-- `GetDataSize()`. -/
def GetDataSize (data : CData) : Nat :=
  match ofS8 data.type with
  | some DATA_TYPE_S8 | some DATA_TYPE_S16 | some DATA_TYPE_S32 | some DATA_TYPE_S64
  | some DATA_TYPE_DOUBLE => GetDataLength data.type + 1
  | some DATA_TYPE_STRING => 8 + data.strValue.length + 1
  | _ => 0

/-- The bytes of the value. -/
def payload (data : CData) : List UInt8 :=
  match ofS8 data.type with
  | some DATA_TYPE_S8 => Mem.slice data.mem 0 1
  | some DATA_TYPE_S16 => Mem.slice data.mem 0 2
  | some DATA_TYPE_S32 => Mem.slice data.mem 0 4
  | some DATA_TYPE_S64 | some DATA_TYPE_DOUBLE => Mem.slice data.mem 0 8
  | some DATA_TYPE_STRING => data.strValue
  | _ => []

/-- Two values of one type with the same bytes. -/
def Same (data data' : CData) : Prop := data.type = data'.type ∧ data.payload = data'.payload

instance (data data' : CData) : Decidable (data.Same data') :=
  inferInstanceAs (Decidable (_ ∧ _))

end CData

end Kernel4GameServer
