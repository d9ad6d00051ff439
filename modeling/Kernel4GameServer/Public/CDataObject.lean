import Kernel4GameServer.Lib.Run
import Kernel4GameServer.Public.CArgs

/-!
# `Kernel4GameServer.Public.CDataObject`: the union of a `CData` and the strings it owns

`Public/CData.h`. The members of the union share one word, on a target where the low byte
comes first. Storing a member leaves the bits above it. `strings` are the strings on the heap
by their address, and `word` is the pointer where the tag says so. A call that reads through a
pointer that is NULL or dead has no result.

`value` is what the reading functions see of an object. `Public.CData` has these functions.

A `double` is its 64 bits. The argument of `SetValue` is given by what it converts to for each
member. `SetString` is given the address that `NEW` returns, which no live string has.
-/

set_option autoImplicit false

namespace Kernel4GameServer

open Lib DATA_TYPE

/-- The union with a member of `w` bits stored. -/
def putMember {w : Nat} (word : BitVec 64) (v : BitVec w) : BitVec 64 :=
  ((word >>> w) <<< w) ||| v.setWidth 64

/-- The member of `w` bits. -/
def member (w : Nat) (word : BitVec 64) : BitVec w := word.setWidth w

/-- A member that was stored is read back. -/
theorem member_putMember {w : Nat} (hw : w ≤ 64) (word : BitVec 64) (v : BitVec w) :
    member w (putMember word v) = v := by
  ext i hi
  simp [member, putMember, hi, show i < 64 by omega]

/-- Storing a member that is read from the union changes nothing. -/
theorem putMember_member (w : Nat) (word : BitVec 64) :
    putMember word (member w word) = word := by
  ext i hi
  by_cases hlow : i < w
  · simp [member, putMember, hi, hlow]
  · have hsub : w + (i - w) = i := by omega
    simp [member, putMember, hi, hlow, hsub]

/-- `class CData` with its union, and the live strings of the heap. -/
structure CDataObject where
  word : BitVec 64
  type : Int8
  strings : BitVec 64 → Option (List UInt8)

/-- An argument of `SetValue`, converted to each of the members. -/
structure ConvertedValue where
  s8Value : BitVec 8
  s16Value : BitVec 16
  s32Value : BitVec 32
  s64Value : BitVec 64
  dValue : BitVec 64

/-- `SetDataToMem(pMem, nLen)`. -/
def CData.SetDataToMem (data : CData) (pMem : Mem UInt8) (nLen : Nat) : Mem UInt8 :=
  let pMem : Mem UInt8 := fun i => if 0 ≤ i ∧ i < nLen then 0 else pMem i
  match ofS8 data.type with
  | some DATA_TYPE_S8 => tools.SafeMemcpy pMem 0 nLen data.mem 0 1
  | some DATA_TYPE_S16 => tools.SafeMemcpy pMem 0 nLen data.mem 0 2
  | some DATA_TYPE_S32 => tools.SafeMemcpy pMem 0 nLen data.mem 0 4
  | some DATA_TYPE_S64 => tools.SafeMemcpy pMem 0 nLen data.mem 0 8
  | some DATA_TYPE_DOUBLE => tools.SafeMemcpy pMem 0 nLen data.mem 0 8
  | some DATA_TYPE_STRING =>
      tools.SafeMemcpy pMem 0 nLen (Mem.ofList data.strValue 0) 0 data.strValue.length
  | _ => pMem

namespace CDataObject

/-- The constructor `CData()`. It leaves the union as it is. -/
def init (word : BitVec 64) (strings : BitVec 64 → Option (List UInt8)) : CDataObject where
  word := word
  type := DATA_TYPE_INVALID.toS8
  strings := strings

/-- `*strValue`. -/
def strValue (d : CDataObject) : Option (List UInt8) :=
  if d.word = 0 then none else d.strings d.word

/-- `clear_string()`. -/
def clear_string (d : CDataObject) : CDataObject :=
  if d.type = DATA_TYPE_STRING.toS8 ∧ d.word ≠ 0 then
    { d with strings := fun p => if p = d.word then none else d.strings p, word := 0 }
  else d

/-! ### The setters -/

/-- What the setters of the numbers have in common. -/
def setNumber {w : Nat} (d : CDataObject) (type : DATA_TYPE) (value : BitVec w) : CDataObject :=
  let d := d.clear_string
  { d with word := putMember d.word value, type := type.toS8 }

/-- `SetS8`. -/
def SetS8 (d : CDataObject) (s8Value : BitVec 8) : CDataObject :=
  d.setNumber DATA_TYPE_S8 s8Value

/-- `SetS16`. -/
def SetS16 (d : CDataObject) (s16Value : BitVec 16) : CDataObject :=
  d.setNumber DATA_TYPE_S16 s16Value

/-- `SetS32`. -/
def SetS32 (d : CDataObject) (s32Value : BitVec 32) : CDataObject :=
  d.setNumber DATA_TYPE_S32 s32Value

/-- `SetS64`. -/
def SetS64 (d : CDataObject) (s64Value : BitVec 64) : CDataObject :=
  d.setNumber DATA_TYPE_S64 s64Value

/-- `SetDouble`. -/
def SetDouble (d : CDataObject) (dValue : BitVec 64) : CDataObject :=
  d.setNumber DATA_TYPE_DOUBLE dValue

/-- `SetString`. `NEW` returns the address `p`, where no string is. -/
def SetString (d : CDataObject) (szStrValue : List UInt8) (p : BitVec 64) : Option CDataObject :=
  let d := d.clear_string
  if p ≠ 0 ∧ d.strings p = none then
    some
      { word := p
        type := DATA_TYPE_STRING.toS8
        strings := fun q => if q = p then some szStrValue else d.strings q }
  else none

/-- `SetValue`. -/
def SetValue (d : CDataObject) (value : ConvertedValue) : CDataObject :=
  let d := d.clear_string
  -- The tag stays, also that of a string that `clear_string` has freed.
  match ofS8 d.type with
  | some DATA_TYPE_S8 => { d with word := putMember d.word value.s8Value }
  | some DATA_TYPE_S16 => { d with word := putMember d.word value.s16Value }
  | some DATA_TYPE_S32 => { d with word := putMember d.word value.s32Value }
  | some DATA_TYPE_S64 => { d with word := putMember d.word value.s64Value }
  | some DATA_TYPE_DOUBLE => { d with word := putMember d.word value.dValue }
  | _ => d

/-! ### The getters -/

/-- What the getters of the numbers have in common: what is in the argument afterwards. -/
def getNumber {w : Nat} (d : CDataObject) (type : DATA_TYPE) (value : BitVec w) : BitVec w :=
  if d.type = type.toS8 then member w d.word else value

/-- `GetS8`. -/
def GetS8 (d : CDataObject) (s8Value : BitVec 8) : BitVec 8 := d.getNumber DATA_TYPE_S8 s8Value

/-- `GetS16`. -/
def GetS16 (d : CDataObject) (s16Value : BitVec 16) : BitVec 16 :=
  d.getNumber DATA_TYPE_S16 s16Value

/-- `GetS32`: the object and the argument after it. The parameter is called `s16Value`, so
`s32Value = this->s32Value` stores into the union. -/
def GetS32 (d : CDataObject) (s16Value : BitVec 32) : CDataObject × BitVec 32 :=
  let d := if d.type = DATA_TYPE_S32.toS8 then
      { d with word := putMember d.word (member 32 d.word) }
    else d
  (d, s16Value)

/-- `GetS64`. -/
def GetS64 (d : CDataObject) (s64Value : BitVec 64) : BitVec 64 :=
  d.getNumber DATA_TYPE_S64 s64Value

/-- `GetDouble`. -/
def GetDouble (d : CDataObject) (dValue : BitVec 64) : BitVec 64 :=
  d.getNumber DATA_TYPE_DOUBLE dValue

/-- `GetString`. -/
def GetString (d : CDataObject) (strValue : List UInt8) : Option (List UInt8) :=
  if d.type = DATA_TYPE_STRING.toS8 then d.strValue else some strValue

/-! ### The other readers -/

/-- The bytes of the union. -/
def mem (d : CDataObject) : Mem UInt8 :=
  fun i => UInt8.ofBitVec (d.word.extractLsb' (8 * i.toNat) 8)

/-- What the readers see. They read through the pointer where the tag says string. -/
def value (d : CDataObject) : Option CData :=
  if d.type = DATA_TYPE_STRING.toS8 then
    d.strValue.map fun strValue => { mem := d.mem, strValue := strValue, type := d.type }
  else
    some { mem := d.mem, strValue := [], type := d.type }

/-- `GetDataSize()`. -/
def GetDataSize (d : CDataObject) : Option Nat := d.value.map CData.GetDataSize

/-- `SetDataToMem(pMem, nLen)`. -/
def SetDataToMem (d : CDataObject) (pMem : Mem UInt8) (nLen : Nat) : Option (Mem UInt8) :=
  d.value.map fun data => data.SetDataToMem pMem nLen

/-- `CArgs::operator<<`. -/
def shl (args : CArgs) (d : CDataObject) : Option CArgs := d.value.map args.shl

end CDataObject

/-- A call of a setter, or of `SetValue`. -/
inductive CDataAction where
  | SetS8 (s8Value : BitVec 8)
  | SetS16 (s16Value : BitVec 16)
  | SetS32 (s32Value : BitVec 32)
  | SetS64 (s64Value : BitVec 64)
  | SetDouble (dValue : BitVec 64)
  | SetString (szStrValue : List UInt8) (p : BitVec 64)
  | SetValue (value : ConvertedValue)

namespace CDataObject

/-- One call. -/
def step (d : CDataObject) : CDataAction → Option CDataObject
  | .SetS8 s8Value => some (d.SetS8 s8Value)
  | .SetS16 s16Value => some (d.SetS16 s16Value)
  | .SetS32 s32Value => some (d.SetS32 s32Value)
  | .SetS64 s64Value => some (d.SetS64 s64Value)
  | .SetDouble dValue => some (d.SetDouble dValue)
  | .SetString szStrValue p => d.SetString szStrValue p
  | .SetValue value => some (d.SetValue value)

/-- A `CData` of the type string has a live string. -/
def HasString (d : CDataObject) : Prop :=
  d.type = DATA_TYPE_STRING.toS8 → ∃ s, d.strValue = some s

/-- No reader goes through a pointer that is NULL or dead. -/
structure Readable (d : CDataObject) : Prop where
  getString : ∀ strValue, (d.GetString strValue).isSome
  getDataSize : d.GetDataSize.isSome
  setDataToMem : ∀ pMem nLen, (d.SetDataToMem pMem nLen).isSome
  shl : ∀ args, (d.shl args).isSome

/-- The getters of all types but `type` leave their argument. -/
structure LeavesOthers (d : CDataObject) (type : DATA_TYPE) : Prop where
  getS8 : type ≠ DATA_TYPE_S8 → ∀ x, d.GetS8 x = x
  getS16 : type ≠ DATA_TYPE_S16 → ∀ x, d.GetS16 x = x
  getS32 : type ≠ DATA_TYPE_S32 → ∀ x, (d.GetS32 x).2 = x
  getS64 : type ≠ DATA_TYPE_S64 → ∀ x, d.GetS64 x = x
  getDouble : type ≠ DATA_TYPE_DOUBLE → ∀ x, d.GetDouble x = x
  getString : type ≠ DATA_TYPE_STRING → ∀ x, d.GetString x = some x

/-- Behind a typed setter, the getter of its type stores the value that was set, whatever its
argument holds, and the others leave theirs. -/
def ReadsBack (d : CDataObject) : CDataAction → Prop
  | .SetS8 v => (∀ x, d.GetS8 x = v) ∧ d.LeavesOthers DATA_TYPE_S8
  | .SetS16 v => (∀ x, d.GetS16 x = v) ∧ d.LeavesOthers DATA_TYPE_S16
  | .SetS32 v => (∀ x, (d.GetS32 x).2 = v) ∧ d.LeavesOthers DATA_TYPE_S32
  | .SetS64 v => (∀ x, d.GetS64 x = v) ∧ d.LeavesOthers DATA_TYPE_S64
  | .SetDouble v => (∀ x, d.GetDouble x = v) ∧ d.LeavesOthers DATA_TYPE_DOUBLE
  | .SetString s _ => (∀ x, d.GetString x = some s) ∧ d.LeavesOthers DATA_TYPE_STRING
  | .SetValue _ => True

/-- `SetValue` is not called while the object holds a string. -/
def KeepsString (d : CDataObject) : CDataAction → Prop
  | .SetValue _ => d.type ≠ DATA_TYPE_STRING.toS8
  | _ => True

/-- The call is not one of `SetS32`. -/
def NotS32 (_ : CDataObject) : CDataAction → Prop
  | .SetS32 _ => False
  | _ => True

end CDataObject

end Kernel4GameServer
