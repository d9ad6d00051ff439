import Kernel4GameServer.Proofs.Public.TStreamRange
import Kernel4GameServer.Public.CArgs

/-!
# `Kernel4GameServer.Proofs.Public.CArgs`: what goes in comes out

The three switches of the format agree on one description of it. `wire data` are the bytes of
a value: the tag, for a string its length, and the payload.

* `length_wire`: `GetDataSize` is the length of `wire`.
* `shl_chunks`: `operator<<` writes `wire`, in two or three pieces.
* `shr_wire`: `operator>>` takes one `wire` from the front and yields the value again.
* `shr32_eq`, `TStream.inAll32_of_hasRoom`: with room for the value the operators stay in `s32`.

`Holds` says which bytes a stream stands for. It hides how often the stream has compacted or
grown in between. `Inv` then says that the stream holds the `wire`s of the values that no
`>>` has read yet, and `args_round_trip` reads the result off it.
-/

set_option autoImplicit false

namespace Kernel4GameServer

open Lib DATA_TYPE

/-! ### Bytes in a stream -/

namespace TStream

variable {buff_length : Nat} {s : TStream buff_length} {bs rest : List UInt8}

/-- The stream is in order, and its unread bytes are `bs`. -/
structure Holds (s : TStream buff_length) (bs : List UInt8) : Prop where
  wf : s.WellFormed
  unread_eq : s.unread = bs

/-- The number of bytes held is `size()`. -/
theorem Holds.size_eq (h : s.Holds bs) : s.size = bs.length := by
  have hlen := length_unread s
  have hle := h.wf.read_le
  rw [h.unread_eq] at hlen
  simp only [size] at hlen ⊢
  omega

/-- The bytes at the front are those that `buff()` points to. -/
theorem Holds.slice_buff (h : s.Holds (bs ++ rest)) : Mem.slice s.buff 0 bs.length = bs := by
  have hsize := h.size_eq
  rw [List.length_append] at hsize
  rw [TStream.slice_buff s (by omega), h.unread_eq, List.take_left]

/-- `out` takes from the front. -/
theorem Holds.out (h : s.Holds (bs ++ rest)) : (s.out bs.length).Holds rest := by
  refine ⟨out_wf h.wf (Int.natCast_nonneg _), ?_⟩
  rw [out_unread h.wf (Int.natCast_nonneg _), h.unread_eq, Int.toNat_natCast, List.drop_left]

/-- `out` of the first byte. -/
theorem Holds.tail {b : UInt8} (h : s.Holds (b :: rest)) : (s.out 1).Holds rest := by
  have h' : s.Holds ([b] ++ rest) := h
  exact h'.out

/-- `in` adds behind the last byte. -/
theorem Holds.inBytes (hL : 0 < buff_length) (h : s.Holds bs) (pbuff : Mem UInt8) (n : Nat) :
    (s.inBytes pbuff n).Holds (bs ++ Mem.slice pbuff 0 n) := by
  refine ⟨inBytes_wf hL h.wf pbuff (Int.natCast_nonneg n), ?_⟩
  rw [inBytes_unread hL h.wf pbuff (Int.natCast_nonneg n), h.unread_eq, Int.toNat_natCast]

/-- A copy of the bytes at the front. -/
theorem Holds.copy (h : s.Holds (bs ++ rest)) (dest : Mem UInt8) :
    Mem.slice (tools.SafeMemcpy dest 0 bs.length s.buff 0 bs.length) 0 bs.length = bs := by
  have hdest : Mem.slice (tools.SafeMemcpy dest 0 bs.length s.buff 0 bs.length) 0
      (bs.length : Int).toNat = Mem.slice s.buff 0 (bs.length : Int).toNat :=
    tools.SafeMemcpy_dest (Int.natCast_nonneg _) (Int.le_refl _)
  rwa [Int.toNat_natCast, h.slice_buff] at hdest

/-- Several calls of `in`, one for each piece. -/
def inAll (s : TStream buff_length) (chunks : List (Mem UInt8 × Nat)) : TStream buff_length :=
  chunks.foldl (fun s chunk => s.inBytes chunk.1 chunk.2) s

/-- The bytes of the pieces. -/
def chunkBytes (chunks : List (Mem UInt8 × Nat)) : List UInt8 :=
  chunks.flatMap fun chunk => Mem.slice chunk.1 0 chunk.2

/-- All pieces are added, in their order. -/
theorem Holds.inAll (hL : 0 < buff_length) (chunks : List (Mem UInt8 × Nat)) (h : s.Holds bs) :
    (s.inAll chunks).Holds (bs ++ chunkBytes chunks) := by
  induction chunks generalizing s bs with
  | nil => simpa [TStream.inAll, chunkBytes] using h
  | cons chunk chunks ih =>
      have hrest := ih (h.inBytes hL chunk.1 chunk.2)
      rwa [List.append_assoc] at hrest

/-- The calls in `s32`. -/
def inAll32 (n : Nat) (s : TStream buff_length) (chunks : List (Mem UInt8 × Nat)) :
    Option (TStream buff_length) :=
  chunks.foldlM (fun s chunk => s.in32 n chunk.1 chunk.2) s

/-- More rounds change nothing. -/
theorem inAll32_mono {n m : Nat} {chunks : List (Mem UInt8 × Nat)} {t : TStream buff_length}
    (h : inAll32 n s chunks = some t) (hle : n ≤ m) : inAll32 m s chunks = some t := by
  induction chunks generalizing s with
  | nil => exact h
  | cons chunk chunks ih =>
      rw [inAll32, List.foldlM_cons, Option.bind_eq_bind, Option.bind_eq_some_iff] at h ⊢
      obtain ⟨u, hu, hrest⟩ := h
      exact ⟨u, in32_mono hu hle, ih hrest⟩

/-- With room for all pieces together no `in` of them leaves the range of `s32`. -/
theorem inAll32_of_hasRoom (hL : 1 ≤ buff_length) (chunks : List (Mem UInt8 × Nat))
    (hs : s.Sized) (hwf : s.WellFormed) (hmax : s.m_max < 2147483648)
    (hroom : s.HasRoom (chunkBytes chunks).length) :
    (∃ n, inAll32 n s chunks = some (s.inAll chunks)) ∧ (s.inAll chunks).Sized ∧
      (s.inAll chunks).m_max < 2147483648 := by
  induction chunks generalizing s with
  | nil => exact ⟨⟨0, rfl⟩, hs, hmax⟩
  | cons chunk chunks ih =>
      have hnat : (0 : Int) ≤ chunk.2 := Int.natCast_nonneg _
      rw [chunkBytes, List.flatMap_cons, List.length_append, Mem.length_slice] at hroom
      have hfirst : s.HasRoom chunk.2 := by
        rcases hroom with h | h
        · exact .inl (by omega)
        · exact .inr (by omega)
      obtain ⟨n, hn⟩ := in32_of_hasRoom hL hs hmax hnat hfirst chunk.1
      obtain ⟨⟨m, hm⟩, hsized, hmax'⟩ := ih (inBytes_sized hL hs hmax hnat hfirst chunk.1)
        (inBytes_wf hL hwf chunk.1 hnat) (inBytes_max_of_hasRoom hmax hfirst chunk.1)
        (hroom.rest hL hwf chunk.1)
      refine ⟨⟨max n m, ?_⟩, hsized, hmax'⟩
      rw [inAll32, List.foldlM_cons, in32_mono hn (Nat.le_max_left n m)]
      exact inAll32_mono hm (Nat.le_max_right n m)

end TStream

/-! ### The format -/

namespace CData

/-- The bytes of a value on the stream. -/
def wire (data : CData) : List UInt8 :=
  data.type.toUInt8 :: match ofS8 data.type with
    | some DATA_TYPE_STRING => LittleEndian.split 8 data.strValue.length ++ data.payload
    | _ => data.payload

/-- The tag of an accepted value is one of the six that the switches know. -/
theorem type_of_accepts {data : CData} (h : CArgs.accepts data = true) :
    ofS8 data.type = some DATA_TYPE_S8 ∨ ofS8 data.type = some DATA_TYPE_S16 ∨
      ofS8 data.type = some DATA_TYPE_S32 ∨ ofS8 data.type = some DATA_TYPE_S64 ∨
      ofS8 data.type = some DATA_TYPE_DOUBLE ∨ ofS8 data.type = some DATA_TYPE_STRING := by
  simp only [CArgs.accepts, Bool.not_eq_true', Bool.or_eq_false_iff, decide_eq_false_iff_not,
    Int8.not_lt, Int8.le_iff_toInt_le] at h
  obtain ⟨hlow, hhigh⟩ := h
  have hlow' : 1 ≤ data.type.toInt := hlow
  have hhigh' : data.type.toInt ≤ 6 := hhigh
  -- The tag is one of the numbers from 1 to 6.
  have hcases : data.type = 1 ∨ data.type = 2 ∨ data.type = 3 ∨ data.type = 4 ∨
      data.type = 5 ∨ data.type = 6 := by
    simp only [← Int8.toInt_inj]
    simp only [Int8.reduceToInt]
    omega
  rcases hcases with h | h | h | h | h | h <;> rw [h] <;> decide

/-- `GetDataSize` agrees with the encoder. -/
theorem length_wire {data : CData} (h : CArgs.accepts data = true) :
    data.wire.length = data.GetDataSize := by
  rcases type_of_accepts h with hk | hk | hk | hk | hk | hk <;>
    simp only [wire, payload, GetDataSize, GetDataLength, hk, List.length_cons,
      List.length_append, LittleEndian.length_split, Mem.length_slice]

end CData

namespace CArgs

/-- `operator<<` of an accepted value writes `wire`, piece by piece, with or without checks. -/
theorem shl_chunks (args : CArgs) {data : CData} (h : accepts data = true)
    (hsize : data.GetDataSize < 2147483648) :
    ∃ chunks, (args.shl data).stream = args.stream.inAll chunks ∧
      (∀ n, args.shl32 n data = (args.stream.inAll32 n chunks).map fun stream =>
        { stream, m_nDataNum := args.m_nDataNum + 1 }) ∧
      TStream.chunkBytes chunks = data.wire := by
  have htag : ∀ m : Mem UInt8, Mem.slice m 0 1 = [m 0] := fun m => rfl
  -- The six cases differ in the pieces behind the tag.
  rcases CData.type_of_accepts h with hk | hk | hk | hk | hk | hk
  case inr.inr.inr.inr.inr =>
    have hlen : s32 data.strValue.length = data.strValue.length := by
      simp only [CData.GetDataSize, hk] at hsize
      exact s32_of_range (by omega) (by omega)
    have hsplit := Mem.slice_ofList (LittleEndian.split 8 data.strValue.length) 0
    rw [LittleEndian.length_split] at hsplit
    refine ⟨[(fun _ => data.type.toUInt8, 1),
      (Mem.ofList (LittleEndian.split 8 data.strValue.length) 0, 8),
      (Mem.ofList data.strValue 0, data.strValue.length)], ?_, fun n => ?_, ?_⟩
    · simp only [shl, if_pos h, hk, hlen]
      rfl
    · simp only [shl32, if_pos h, hk, hlen, TStream.inAll32, List.foldlM_cons, List.foldlM_nil,
        Option.bind_eq_bind, Option.map_bind, Function.comp_def, Option.pure_def, Option.map_some]
      rfl
    · simp only [TStream.chunkBytes, List.flatMap_cons, List.flatMap_nil, htag, hsplit,
        Mem.slice_ofList, CData.wire, CData.payload, hk, List.append_nil, List.singleton_append]
  all_goals
    refine ⟨[(fun _ => data.type.toUInt8, 1), (data.mem, CData.GetDataLength data.type)], ?_,
      fun n => ?_, ?_⟩
    · simp only [shl, if_pos h, CData.GetDataLength, hk]
      rfl
    · simp only [shl32, if_pos h, CData.GetDataLength, hk, TStream.inAll32, List.foldlM_cons,
        List.foldlM_nil, Option.bind_eq_bind, Option.map_bind, Function.comp_def, Option.pure_def,
        Option.map_some]
      rfl
    · simp only [TStream.chunkBytes, List.flatMap_cons, List.flatMap_nil, htag, CData.wire,
        CData.payload, CData.GetDataLength, hk, List.append_nil, List.singleton_append]

/-- A skipped value leaves everything as it is. -/
theorem shl_skip (args : CArgs) {data : CData} (h : accepts data = false) :
    args.shl data = args := by
  rw [shl, h]
  rfl

/-- `operator<<` of an accepted value counts it. -/
theorem shl_num (args : CArgs) {data : CData} (h : accepts data = true) :
    (args.shl data).m_nDataNum = args.m_nDataNum + 1 := by
  rw [shl, if_pos h]

/-- The `out`s of `operator>>` stay in `s32`. -/
theorem shr32_eq {args : CArgs} (hwf : args.stream.WellFormed)
    (hmax : args.stream.m_max < 2147483648) (data : CData) :
    args.shr32 data = some (args.shr data) := by
  have hwf' : (args.stream.out 1).WellFormed := TStream.out_wf hwf (by decide)
  have hmax' : (args.stream.out 1).m_max < 2147483648 := by rwa [TStream.out_max]
  have htag : args.stream.out32 1 = some (args.stream.out 1) :=
    TStream.out32_eq hwf hmax (by decide)
  have hmember : ∀ n : Nat, (args.stream.out 1).out32 n = some ((args.stream.out 1).out n) :=
    fun n => TStream.out32_eq hwf' hmax' (by omega)
  have hlength : (args.stream.out 1).out32 8 = some ((args.stream.out 1).out 8) :=
    TStream.out32_eq hwf' hmax' (by decide)
  have hstring : ∀ k, ((args.stream.out 1).out 8).out32 (s32 k)
      = some (((args.stream.out 1).out 8).out (s32 k)) := fun k =>
    TStream.out32_eq (TStream.out_wf hwf' (by decide)) (by rwa [TStream.out_max]) (s32_range k).1
  simp only [shr32, shr, htag, hmember, hlength, hstring, Option.bind_eq_bind, Option.bind_some]
  split <;> rfl

/-- `operator>>` leaves the capacity. -/
theorem shr_max (args : CArgs) (data : CData) :
    (args.shr data).1.stream.m_max = args.stream.m_max := by
  simp only [shr]
  split <;> simp only [TStream.out_max]

/-- `operator>>` leaves a stream in use. -/
theorem shr_sized {args : CArgs} (hs : args.stream.Sized) (hwf : args.stream.WellFormed)
    (hmax : args.stream.m_max < 2147483648) (data : CData) :
    (args.shr data).1.stream.Sized := by
  have hwf' : (args.stream.out 1).WellFormed := TStream.out_wf hwf (by decide)
  have hmax' : (args.stream.out 1).m_max < 2147483648 := by rwa [TStream.out_max]
  have htag : (args.stream.out 1).Sized := TStream.out_sized hs hwf hmax (by decide)
  have hmember : ∀ k : Int, 0 ≤ k → ((args.stream.out 1).out k).Sized :=
    fun k hk => TStream.out_sized htag hwf' hmax' (by omega)
  have hstring : ∀ k, (((args.stream.out 1).out 8).out (s32 k)).Sized := fun k =>
    TStream.out_sized (hmember 8 (by decide)) (TStream.out_wf hwf' (by decide))
      (by rwa [TStream.out_max]) (s32_range k).1
  simp only [shr]
  split <;> dsimp only
  · exact hmember 1 (by decide)
  · exact hmember 2 (by decide)
  · exact hmember 4 (by decide)
  · exact hmember 8 (by decide)
  · exact hmember 8 (by decide)
  · exact hstring _
  · exact htag

/-- `operator>>` counts down. -/
theorem shr_num (args : CArgs) (data : CData) :
    (args.shr data).1.m_nDataNum = args.m_nDataNum - 1 := rfl

/-- What `operator>>` reads as the tag is the first byte. -/
theorem shr_type {stream : TStream DEFAULT_BUF_LEN} {b : UInt8} {rest : List UInt8}
    (h : stream.Holds (b :: rest)) (dest : Mem UInt8) :
    tools.SafeMemcpy dest 0 1 stream.buff 0 1 0 = b := by
  have h' : stream.Holds ([b] ++ rest) := h
  exact List.head_eq_of_cons_eq (h'.copy dest)

/-- The bytes of one union member are at the front. They go to the union, and the stream goes
on behind them. -/
theorem shr_member {stream : TStream DEFAULT_BUF_LEN} {mem : Mem UInt8} {n : Nat}
    {rest : List UInt8} (dest : Mem UInt8) (h : stream.Holds (Mem.slice mem 0 n ++ rest)) :
    (stream.out n).Holds rest ∧
      Mem.slice mem 0 n = Mem.slice (tools.SafeMemcpy dest 0 n stream.buff 0 n) 0 n := by
  have hout := h.out
  have hcopy := h.copy dest
  rw [Mem.length_slice] at hout hcopy
  exact ⟨hout, hcopy.symm⟩

/-- `operator>>` takes the `wire` of a value from the front and yields the value. -/
theorem shr_wire {args : CArgs} {data : CData} {rest : List UInt8} (target : CData)
    (ha : accepts data = true) (hsize : data.GetDataSize < 2147483648)
    (h : args.stream.Holds (data.wire ++ rest)) :
    (args.shr target).1.stream.Holds rest ∧ data.Same (args.shr target).2 := by
  have htype : (tools.SafeMemcpy (fun _ => DATA_TYPE_INVALID.toS8.toUInt8) 0 1
      args.stream.buff 0 1 0).toInt8 = data.type := congrArg UInt8.toInt8 (shr_type h _)
  rcases CData.type_of_accepts ha with hk | hk | hk | hk | hk | hk
  case inr.inr.inr.inr.inr =>
    simp only [CData.wire, CData.payload, hk, List.cons_append, List.append_assoc] at h
    have hbody := h.tail
    have hlt : data.strValue.length < 2147483648 := by
      simp only [CData.GetDataSize, hk] at hsize
      omega
    -- The length comes first, then as many bytes.
    have hlen := hbody.copy fun _ => 0
    have hstr := hbody.out
    rw [LittleEndian.length_split] at hlen hstr
    have hcombine : LittleEndian.combine (Mem.slice (tools.SafeMemcpy (fun _ => 0) 0 8
        (args.stream.out 1).buff 0 8) 0 8) = data.strValue.length := by
      refine (congrArg LittleEndian.combine hlen).trans (LittleEndian.combine_split ?_)
      omega
    have hs32 : s32 data.strValue.length = data.strValue.length :=
      s32_of_range (by omega) (by omega)
    simp only [shr, htype, hk, hcombine, hs32]
    refine ⟨hstr.out, rfl, ?_⟩
    simp only [CData.payload, hk]
    exact hstr.slice_buff.symm
  all_goals
    simp only [CData.wire, CData.payload, hk, List.cons_append] at h
    have hbody := h.tail
    obtain ⟨hrest, hcopy⟩ := shr_member target.mem hbody
    simp only [shr, htype, hk]
    refine ⟨hrest, rfl, ?_⟩
    simp only [CData.payload, hk]
    exact hcopy

end CArgs

/-! ### Runs -/

namespace CArgs

/-- The encoder writes as many bytes as the values are large. -/
theorem length_wires {values : List CData} (h : ∀ data ∈ values, CArgs.accepts data = true) :
    (values.flatMap CData.wire).length = CArgsState.totalSize values := by
  induction values with
  | nil => rfl
  | cons data rest ih =>
      rw [List.flatMap_cons, List.length_append, CData.length_wire (h data List.mem_cons_self),
        ih fun d hd => h d (List.mem_cons_of_mem data hd), CArgsState.totalSize]

/-- No value is larger than all of them together. -/
theorem dataSize_le_totalSize {values : List CData} {data : CData} (h : data ∈ values) :
    data.GetDataSize ≤ CArgsState.totalSize values := by
  induction h with
  | head rest => exact Nat.le_add_right _ _
  | tail d _ ih => exact Nat.le_trans ih (Nat.le_add_left _ _)

/-- Each value has a size above zero. -/
theorem length_le_totalSize {values : List CData} (h : ∀ data ∈ values, CArgs.accepts data = true) :
    values.length ≤ CArgsState.totalSize values := by
  induction values with
  | nil => exact Nat.le_refl 0
  | cons data rest ih =>
      have hrest := ih fun d hd => h d (List.mem_cons_of_mem data hd)
      have hwire := CData.length_wire (h data List.mem_cons_self)
      rw [CData.wire, List.length_cons] at hwire
      rw [List.length_cons, CArgsState.totalSize]
      omega

/-- The stream holds the accepted values that were not yielded, the earlier ones were, and the
counter counts. -/
structure Inv (args : CArgs) (accepted yielded : List CData) : Prop where
  accepts : ∀ data ∈ accepted, CArgs.accepts data = true
  holds : args.stream.Holds ((accepted.drop yielded.length).flatMap CData.wire)
  yields : List.Forall₂ CData.Same (accepted.take yielded.length) yielded
  num : args.m_nDataNum.toNat = (accepted.drop yielded.length).length
  size_lt : args.size < 2147483648

variable {args : CArgs} {accepted yielded : List CData}

/-- No more values were yielded than accepted. -/
theorem Inv.yielded_le (h : args.Inv accepted yielded) : yielded.length ≤ accepted.length := by
  have := h.yields.length_eq
  rw [List.length_take] at this
  omega

/-- `size()` is the size of the values that are left. -/
theorem Inv.size_eq (h : args.Inv accepted yielded) :
    args.size = CArgsState.totalSize (accepted.drop yielded.length) := by
  have hsize := h.holds.size_eq
  rw [length_wires fun data hdata => h.accepts data (List.mem_of_mem_drop hdata)] at hsize
  rw [size, sizeT_of_nonneg (by omega), hsize]

/-- No value that is left is larger than all of them. -/
theorem Inv.dataSize_lt (h : args.Inv accepted yielded) {data : CData}
    (hdata : data ∈ accepted.drop yielded.length) : data.GetDataSize < 2147483648 := by
  have hle := dataSize_le_totalSize hdata
  have hsize := h.size_eq
  have hlt := h.size_lt
  omega

/-- Each value has a byte on the stream, so the counter is far from wrapping. -/
theorem Inv.length_lt (h : args.Inv accepted yielded) :
    (accepted.drop yielded.length).length < 2147483648 := by
  have hle : _ ≤ CArgsState.totalSize (accepted.drop yielded.length) :=
    length_le_totalSize fun data hdata => h.accepts data (List.mem_of_mem_drop hdata)
  have hsize := h.size_eq
  have hlt := h.size_lt
  omega

theorem inv_init : init.Inv [] [] where
  accepts := nofun
  holds := ⟨TStream.init_wf, rfl⟩
  yields := .nil
  num := rfl
  size_lt := by decide

/-- The size of an accepted value, when there is room for it, is in the range of `s32`. -/
theorem Inv.dataSize_lt_of_room (h : args.Inv accepted yielded) {data : CData}
    (hroom : args.size + data.GetDataSize < 2147483648) : data.GetDataSize < 2147483648 := by
  have hsize := h.size_eq
  omega

/-- `operator<<` of an accepted value puts it behind the ones that are left. -/
theorem Inv.shl (h : args.Inv accepted yielded) {data : CData} (ha : CArgs.accepts data = true)
    (hroom : args.size + data.GetDataSize < 2147483648) :
    (args.shl data).Inv (accepted ++ [data]) yielded := by
  have hle := h.yielded_le
  obtain ⟨chunks, hstream, -, hchunks⟩ := shl_chunks args ha (h.dataSize_lt_of_room hroom)
  have hholds := h.holds.inAll (by decide) chunks
  rw [← hstream, hchunks] at hholds
  have hnonneg := hholds.size_eq
  have hsize := hholds.size_eq
  rw [List.length_append, CData.length_wire ha, Int.natCast_add, ← h.holds.size_eq] at hsize
  have hnow : args.size = args.stream.size := by
    rw [size, sizeT_of_nonneg (by rw [h.holds.size_eq]; omega)]
  refine ⟨?_, ?_, ?_, ?_, ?_⟩
  · intro d hd
    rcases List.mem_append.mp hd with hd | hd
    · exact h.accepts d hd
    · exact List.mem_singleton.mp hd ▸ ha
  · rw [List.drop_append_of_le_length hle, List.flatMap_append, List.flatMap_singleton]
    exact hholds
  · rw [List.take_append_of_le_length hle]
    exact h.yields
  · have hlt := h.length_lt
    rw [shl_num args ha, List.drop_append_of_le_length hle, List.length_append, UInt64.toNat_add,
      h.num, List.length_singleton, UInt64.toNat_one]
    omega
  · rw [size, sizeT_of_nonneg (by omega)]
    omega

/-- `operator>>` yields the first value that is left. -/
theorem Inv.shr (h : args.Inv accepted yielded) (target : CData) (hnum : args.GetDataNum > 0) :
    (args.shr target).1.Inv accepted (yielded ++ [(args.shr target).2]) := by
  have hpos : 0 < args.m_nDataNum.toNat := hnum
  have hlt : yielded.length < accepted.length := by
    have := h.num
    rw [List.length_drop] at this
    omega
  have hdrop := List.drop_eq_getElem_cons hlt
  have hmem : accepted[yielded.length] ∈ accepted.drop yielded.length := by
    rw [hdrop]
    exact List.mem_cons_self
  have hholds := h.holds
  rw [hdrop, List.flatMap_cons] at hholds
  obtain ⟨hrest, hsame⟩ := shr_wire target (h.accepts _ (List.getElem_mem hlt))
    (h.dataSize_lt hmem) hholds
  have hlen : (yielded ++ [(args.shr target).2]).length = yielded.length + 1 := by simp
  refine ⟨h.accepts, ?_, ?_, ?_, ?_⟩
  · rwa [hlen]
  · rw [hlen, List.take_add_one, List.getElem?_eq_getElem hlt]
    exact List.rel_append h.yields (.cons hsame .nil)
  · have hone : (1 : UInt64) ≤ args.m_nDataNum := hnum
    rw [shr_num, UInt64.toNat_sub_of_le _ _ hone, h.num, hlen, hdrop, List.length_cons]
    rfl
  · have hle := hrest.size_eq
    have hsize := h.holds.size_eq
    have hsizelt := h.size_lt
    rw [hdrop, List.flatMap_cons, List.length_append] at hsize
    rw [size, sizeT_of_nonneg (by omega)] at hsizelt ⊢
    omega

end CArgs

namespace CArgsState

/-- The invariant of a state. The stream is one in use, with a capacity in `s32`. -/
structure Inv (st : CArgsState) : Prop where
  args : st.args.Inv st.accepted st.yielded
  sized : st.args.stream.Sized
  max_lt : st.args.stream.m_max < 2147483648

theorem inv_init : init.Inv where
  args := CArgs.inv_init
  sized := TStream.init_sized
  max_lt := by decide

/-- A `<<` accepts its argument or skips it. -/
theorem accepted_snoc (st : CArgsState) (data : CData) :
    (st.given ++ [data]).filter CArgs.accepts
      = if CArgs.accepts data then st.accepted ++ [data] else st.accepted := by
  cases hacc : CArgs.accepts data <;> simp [accepted, hacc]

/-- With room for a value fewer than `2 ^ 31` bytes are pending behind it. -/
theorem Inv.size_lt_of_hasRoom {st : CArgsState} (h : st.Inv) {n : Nat}
    (hroom : st.args.stream.HasRoom n) : st.args.size + n < 2147483648 := by
  obtain ⟨h0, h1, h2⟩ := h.args.holds.wf
  have hmax := h.max_lt
  have hsize : st.args.size = st.args.stream.size := by
    rw [CArgs.size, sizeT_of_nonneg]
    rw [TStream.size]
    omega
  rw [hsize]
  rcases hroom with hfits | hbound
  · rw [TStream.size]
    omega
  · omega

/-- Each call for which there is room stays in `s32` and keeps the invariant. -/
theorem inv_step {st st' : CArgsState} {act : CArgsAction} (h : st.Inv) (hr : Roomy st act)
    (hstep : step st act = some st') : st'.Inv ∧ InRange st act := by
  cases act with
  | shl data =>
      obtain rfl := Option.some.inj hstep
      cases hacc : CArgs.accepts data with
      | false =>
          have hskip := CArgs.shl_skip st.args hacc
          refine ⟨⟨?_, ?_, ?_⟩, 0, ?_⟩
          · show (st.args.shl data).Inv ((st.given ++ [data]).filter CArgs.accepts) st.yielded
            rw [accepted_snoc, hacc, hskip]
            exact h.args
          · show (st.args.shl data).stream.Sized
            rw [hskip]
            exact h.sized
          · show (st.args.shl data).stream.m_max < 2147483648
            rw [hskip]
            exact h.max_lt
          · rw [hskip, CArgs.shl32, hacc]
            rfl
      | true =>
          have hroom := h.size_lt_of_hasRoom (hr hacc)
          obtain ⟨chunks, hstream, h32, hchunks⟩ :=
            CArgs.shl_chunks st.args hacc (h.args.dataSize_lt_of_room hroom)
          have hall : st.args.stream.HasRoom (TStream.chunkBytes chunks).length := by
            rw [hchunks, CData.length_wire hacc]
            exact hr hacc
          obtain ⟨⟨n, hn⟩, hsized, hmax⟩ := TStream.inAll32_of_hasRoom (by decide) chunks h.sized
            h.args.holds.wf h.max_lt hall
          refine ⟨⟨?_, ?_, ?_⟩, n, ?_⟩
          · show (st.args.shl data).Inv ((st.given ++ [data]).filter CArgs.accepts) st.yielded
            rw [accepted_snoc, hacc]
            exact CArgs.Inv.shl h.args hacc hroom
          · show (st.args.shl data).stream.Sized
            rw [hstream]
            exact hsized
          · show (st.args.shl data).stream.m_max < 2147483648
            rw [hstream]
            exact hmax
          · rw [h32, hn, Option.map_some, ← hstream, ← CArgs.shl_num st.args hacc]
  | shr target =>
      rw [step] at hstep
      split at hstep
      case isTrue hnum =>
        obtain rfl := Option.some.inj hstep
        have h32 := CArgs.shr32_eq h.args.holds.wf h.max_lt target
        refine ⟨⟨CArgs.Inv.shr h.args target hnum, ?_, ?_⟩, h32⟩
        · exact CArgs.shr_sized h.sized h.args.holds.wf h.max_lt target
        · exact (CArgs.shr_max st.args target).symm ▸ h.max_lt
      case isFalse => exact absurd hstep nofun

/-- Encode and decode. In every run with room for each value that is written, no call leaves the
range of `s32`, and each `>>` yields the accepted value whose turn it is, with its type and its
bytes. `GetDataNum()` is the number of accepted values that are left and `size()` the sum of their
sizes. -/
theorem args_round_trip {acts : List CArgsAction} {st : CArgsState}
    (hrun : run step init acts = some st) (hroomy : AllSteps step Roomy init acts) :
    AllSteps step InRange init acts ∧
    st.yielded.length ≤ st.accepted.length ∧
    List.Forall₂ CData.Same (st.accepted.take st.yielded.length) st.yielded ∧
    st.args.GetDataNum.toNat = (st.accepted.drop st.yielded.length).length ∧
    st.args.size = totalSize (st.accepted.drop st.yielded.length) := by
  have hinv : st.args.Inv st.accepted st.yielded :=
    (run_invariant_of (fun _ _ _ h hr hs => (inv_step h hr hs).1) inv_init hroomy hrun).args
  exact ⟨allSteps_of_run (fun _ _ _ h hr hs => inv_step h hr hs) inv_init hroomy hrun,
    hinv.yielded_le, hinv.yields, hinv.num, hinv.size_eq⟩

/-- Two values, of which the first is a string with a `NUL` in it, a `BLOB` that is skipped,
and two reads into used targets. -/
theorem args_round_trip_string :
    ∃ st, run step init [.shl ⟨fun _ => 0, [104, 0, 105], 6⟩, .shl ⟨fun _ => 7, [], 7⟩,
        .shr ⟨fun _ => 9, [1], 1⟩, .shl ⟨fun _ => 255, [], 2⟩, .shr ⟨fun _ => 9, [], 5⟩] = some st ∧
      st.accepted.length = 2 ∧ st.yielded.length = 2 ∧
      List.Forall₂ CData.Same (st.accepted.take st.yielded.length) st.yielded ∧
      (st.yielded.map CData.payload) = [[104, 0, 105], [255, 255]] := by
  have hrun : run step init [.shl ⟨fun _ => 0, [104, 0, 105], 6⟩, .shl ⟨fun _ => 7, [], 7⟩,
      .shr ⟨fun _ => 9, [1], 1⟩, .shl ⟨fun _ => 255, [], 2⟩, .shr ⟨fun _ => 9, [], 5⟩]
      = some _ := rfl
  have hroomy : AllSteps step Roomy init [.shl ⟨fun _ => 0, [104, 0, 105], 6⟩,
      .shl ⟨fun _ => 7, [], 7⟩, .shr ⟨fun _ => 9, [1], 1⟩, .shl ⟨fun _ => 255, [], 2⟩,
      .shr ⟨fun _ => 9, [], 5⟩] := by
    refine ⟨?_, ?_, ?_, ?_, ?_, trivial⟩ <;> simp only [Roomy] <;> decide
  exact ⟨_, hrun, by decide, by decide, (args_round_trip hrun hroomy).2.2.1, by decide⟩

/-- The tag and the length of a string are in the block of a new stream. The string itself has a
value only where there is room behind them. -/
theorem hasRoom_of_shl32 {n : Nat} {str : List UInt8} {args : CArgs}
    (hlen : s32 str.length = str.length)
    (h : CArgs.init.shl32 n ⟨fun _ => 0, str, 6⟩ = some args) :
    (str.length : Int) + 9 + DEFAULT_BUF_LEN < 2147483648 ∨ (str.length : Int) ≤ 1015 := by
  have haccepts : CArgs.accepts ⟨fun _ => 0, str, 6⟩ = true := rfl
  have htype : ofS8 (6 : Int8) = some DATA_TYPE_STRING := rfl
  simp only [CArgs.shl32, haccepts, htype, hlen, if_true, Option.bind_eq_bind,
    Option.bind_eq_some_iff] at h
  obtain ⟨s₁, h₁, s₂, h₂, s₃, h₃, -⟩ := h
  -- No bound on the rounds is needed for the first two.
  have hfirst : CArgs.init.stream.plan32 n 1 = some .stay := rfl
  obtain ⟨plan, hplan, rfl⟩ := TStream.in32_eq h₁
  rw [hfirst, Option.some.injEq] at hplan
  subst hplan
  have hsized₁ := TStream.in32_sized TStream.init_sized (by decide) h₁
  have hsecond : TStream.plan32 n (((CArgs.init.stream.relocate .stay).copyIn
      (fun _ => (6 : Int8).toUInt8) 1).advance 1) 8 = some .stay := rfl
  obtain ⟨plan, hplan, rfl⟩ := TStream.in32_eq h₂
  rw [hsecond, Option.some.injEq] at hplan
  subst hplan
  have hsized₂ := TStream.in32_sized hsized₁ (by decide) h₂
  obtain ⟨plan, hplan, -⟩ := TStream.in32_eq h₃
  have hL : (DEFAULT_BUF_LEN : Int) = 1024 := rfl
  have hroom := TStream.hasRoom_of_plan32 (by decide) hsized₂
    (show (DEFAULT_BUF_LEN : Int) < 2147483648 by decide) hplan
  simp only [TStream.HasRoom, TStream.size, TStream.relocate, TStream.copyIn, TStream.advance,
    CArgs.init, TStream.init] at hroom
  omega

/-- A `<<` of a string so long that no block with a size in `s32` holds it. -/
theorem string_overflow {str : List UInt8} (hlen : str.length = 2147483638) :
    AllSteps step Bounded init [.shl ⟨fun _ => 0, str, 6⟩] ∧
      ¬ AllSteps step InRange init [.shl ⟨fun _ => 0, str, 6⟩] := by
  have hs32 : s32 str.length = str.length := s32_of_range (by omega) (by omega)
  have htype : ofS8 (6 : Int8) = some DATA_TYPE_STRING := rfl
  refine ⟨⟨?_, trivial⟩, ?_⟩
  · have hzero : CArgs.init.size = 0 := by decide
    show CArgs.init.size + ((⟨fun _ => 0, str, 6⟩ : CData).GetDataSize : Nat) < 2147483648
    simp only [hzero, CData.GetDataSize, htype]
    omega
  · rintro ⟨⟨n, hn⟩, -⟩
    have hroom := hasRoom_of_shl32 hs32 hn
    have hL : (DEFAULT_BUF_LEN : Int) = 1024 := rfl
    omega

/-- A `<<` of one string. It leaves fewer than `2 ^ 31` bytes pending, and leaves the range of
`s32`. -/
theorem args_overflow :
    AllSteps step Bounded init [.shl ⟨fun _ => 0, List.replicate 2147483638 0, 6⟩] ∧
      ¬ AllSteps step InRange init [.shl ⟨fun _ => 0, List.replicate 2147483638 0, 6⟩] :=
  string_overflow List.length_replicate

end CArgsState

end Kernel4GameServer
