import Kernel4GameServer.Proofs.Logic.SinkDrain
import Kernel4GameServer.Proofs.Net.CPipe
import Kernel4GameServer.Proofs.Public.TStreamRange

/-!
# `Kernel4GameServer.Proofs.Logic.SinkStreams`: what a client can do to the streams

A Gate connection is `Intact` when every call of `OnRecv` on four bytes or more returned
zero or the length of a whole frame, every `Send` passed that value, no `TASSERT` of a
`SafeMemcpy` failed, and the offsets of both streams are in order.

A negative length prefix breaks it: `OnRecv` returns the prefix, and a `BROADCAST` passes it
to `Send` and `in`. `PrefixOk` is the condition on a step that excludes this.

Bytes that no frame uses pile up, and so do the broadcasts that a client does not read. Nothing
bounds them, and where no block with a size in `s32` holds them, the capacity overflows. `Room`
is the condition that excludes this.

* `received_effects`: the calls `OnRecv` makes, and when it makes a `Send`.
* `round_cases`: what a round of the drain loop does to the connection.
* `Sound.step` and `broken_step`: a step that meets `PrefixOk` keeps the connection intact, a
  step that does not breaks it for good.
* `Sound.inRange` and `Sound.room`: a step stays in `s32` when there is room, and just then.
* `intact_iff`: a run stays in `s32` and ends with an intact connection exactly when all its
  steps meet `PrefixOk` and `Room`.
-/

set_option autoImplicit false

namespace Kernel4GameServer

open Lib

namespace GateConn

/-- Nothing the client sent has done damage. -/
structure Intact (st : GateConn) : Prop where
  calls : ∀ c ∈ st.log, 4 ≤ c.size → c.ret = 0 ∨ 24 ≤ c.ret ∧ c.ret ≤ min c.size 4096
  sends : ∀ c ∈ st.log, ∀ n ∈ c.sends, n = c.ret
  memcpy : st.memcpyOk = true
  recv : st.pipe.m_oRecvStream.WellFormed
  send : st.pipe.m_oSendStream.WellFormed

/-- A step is not a round on a negative length prefix, or on one that `OnRecv` reads from
fewer than four bytes and passes to no `Send`. -/
def PrefixOk (st : GateConn) : GateAction → Prop
  | .round _ =>
      0 ≤ readS32 st.pipe.m_oRecvStream.buff 0 ∨
        st.pipe.m_oRecvStream.size < 4 ∧
          (readS32 st.pipe.m_oRecvStream.buff 4 ≠ TEST_MSG_ID_BROADCAST ∨
            st.pipe.m_nStatus ≠ .SS_ESTABLISHED)
  | _ => True

/-- There is room for what a step puts into a stream: the bytes from the socket, or the
`BROADCAST` at the front that goes back to an established client. -/
def Room (st : GateConn) : GateAction → Prop
  | .append piece => st.pipe.m_oRecvStream.HasRoom piece.length
  | .round _ =>
      let s := st.pipe.m_oRecvStream
      let nLen := readS32 s.buff 0
      sizeof_testmsgheader ≤ nLen ∧ nLen ≤ 4096 ∧ nLen ≤ s.size ∧
          readS32 s.buff 4 = TEST_MSG_ID_BROADCAST ∧ st.pipe.m_nStatus = .SS_ESTABLISHED →
        st.pipe.m_oSendStream.HasRoom nLen
  | _ => True

/-- Every `s32` expression of a step on the streams has a value, and the values behind it are
those of `step`. The bytes that `send` accepts are no more than `size()`, so their `out` is
never a question. -/
def InRange (st : GateConn) : GateAction → Prop
  | .append piece =>
      let s := st.pipe.m_oRecvStream
      ∃ n, s.in32 n (Mem.ofList piece 0) piece.length
        = some (s.inBytes (Mem.ofList piece 0) piece.length)
  | .round _ =>
      let s := st.pipe.m_oRecvStream
      let t := st.pipe.m_oSendStream
      (∀ context nSize, SinkCall.Send context nSize ∈ st.received.effects →
          st.pipe.m_nStatus = .SS_ESTABLISHED →
          ∃ n, t.in32 n context nSize = some (t.inBytes context nSize)) ∧
        (st.received.nUse > 0 → s.out32 st.received.nUse = some (s.out st.received.nUse))
  | _ => True

instance (st : GateConn) : ∀ a, Decidable (st.PrefixOk a)
  | .append _ => isTrue trivial
  | .round _ => inferInstanceAs (Decidable (_ ∨ _))
  | .doSend _ => isTrue trivial
  | .doClose => isTrue trivial

instance (st : GateConn) : ∀ a, Decidable (st.Room a)
  | .append piece => inferInstanceAs (Decidable (st.pipe.m_oRecvStream.HasRoom piece.length))
  | .round _ => inferInstanceAs (Decidable (_ → _))
  | .doSend _ => isTrue trivial
  | .doClose => isTrue trivial

/-- An intact connection whose streams are in use. -/
structure Sound (st : GateConn) : Prop where
  intact : st.Intact
  recv : st.pipe.m_oRecvStream.InUse
  send : st.pipe.m_oSendStream.InUse

/-- The damage is done and stays on record. -/
def Broken (st : GateConn) : Prop :=
  (∃ c ∈ st.log, 4 ≤ c.size ∧ c.ret < 0) ∨ st.memcpyOk = false

/-- A new connection is sound. -/
theorem init_sound (lSocket : Int) (sink : ClientConnectSink) : (init lSocket sink).Sound where
  intact :=
    { calls := fun c hc => absurd hc (by simp [init])
      sends := fun c hc => absurd hc (by simp [init])
      memcpy := rfl
      recv := TStream.init_wf
      send := TStream.init_wf }
  recv := TStream.init_inUse (by decide)
  send := TStream.init_inUse (by decide)

/-- `OnRecv` makes one call at most. A `Send` passes the value that `OnRecv` returns, which
is a length that it took for a whole frame. -/
theorem received_effects (st : GateConn) :
    st.received.effects = [] ∨
    (∃ e, st.received.effects = [e] ∧ e.sendSize = none) ∨
    (st.received.effects = [.Send st.pipe.m_oRecvStream.buff st.received.nUse] ∧
      st.received.nUse = readS32 st.pipe.m_oRecvStream.buff 0 ∧
      readS32 st.pipe.m_oRecvStream.buff 4 = TEST_MSG_ID_BROADCAST ∧
      st.received.nUse ≤ 4096 ∧ st.received.nUse ≤ st.pipe.m_oRecvStream.size ∧
      (st.received.nUse < 0 ∨ sizeof_testmsgheader ≤ st.received.nUse)) := by
  have hsizeT := ClientConnectSink.sizeof_le_sizeT (readS32_range st.pipe.m_oRecvStream.buff 0).1
  simp only [received, ClientConnectSink.OnRecv]
  split
  · exact .inr (.inl ⟨_, rfl, rfl⟩)
  · rename_i hbig
    split
    · rename_i hframe
      split
      · exact .inr (.inl ⟨_, rfl, rfl⟩)
      · split
        · rename_i hid
          exact .inr (.inr ⟨rfl, rfl, hid, Int.not_lt.mp hbig, hframe.1, hsizeT.mp hframe.2⟩)
        · exact .inl rfl
    · exact .inl rfl

/-- A `Send` in a round, and what it passes. -/
theorem received_send {st : GateConn} {context : Mem UInt8} {nSize : Int}
    (h : .Send context nSize ∈ st.received.effects) :
    nSize = readS32 st.pipe.m_oRecvStream.buff 0 ∧
      readS32 st.pipe.m_oRecvStream.buff 4 = TEST_MSG_ID_BROADCAST ∧
      nSize ≤ 4096 ∧ nSize ≤ st.pipe.m_oRecvStream.size ∧
      (nSize < 0 ∨ sizeof_testmsgheader ≤ nSize) := by
  rcases received_effects st with he | ⟨e, he, hnone⟩ | ⟨he, hfirst, hid, hle, hsize, hlow⟩
  · rw [he] at h
    cases h
  · rw [he, List.mem_singleton] at h
    subst h
    cases hnone
  · rw [he, List.mem_singleton] at h
    cases h
    exact ⟨hfirst, hid, hle, hsize, hlow⟩

/-- A whole `BROADCAST` at the front is sent back. -/
theorem received_broadcast {st : GateConn}
    (hlow : sizeof_testmsgheader ≤ readS32 st.pipe.m_oRecvStream.buff 0)
    (hle : readS32 st.pipe.m_oRecvStream.buff 0 ≤ 4096)
    (hsize : readS32 st.pipe.m_oRecvStream.buff 0 ≤ st.pipe.m_oRecvStream.size)
    (hid : readS32 st.pipe.m_oRecvStream.buff 4 = TEST_MSG_ID_BROADCAST) :
    st.received.effects
      = [.Send st.pipe.m_oRecvStream.buff (readS32 st.pipe.m_oRecvStream.buff 0)] := by
  have hfits := (ClientConnectSink.sizeof_le_sizeT
    (readS32_range st.pipe.m_oRecvStream.buff 0).1).mpr (.inr hlow)
  simp only [received, ClientConnectSink.OnRecv]
  rw [if_neg (by omega), if_pos ⟨hsize, hfits⟩, if_neg (by rw [hid]; decide), if_pos hid]

/-- What `OnRecv` returns to a round. -/
theorem received_nUse (st : GateConn) :
    st.received.nUse
      = ClientConnectSink.ret (readS32 st.pipe.m_oRecvStream.buff 0)
          st.pipe.m_oRecvStream.size :=
  ClientConnectSink.OnRecv_ret _ _ _

@[simp] theorem logged_pipe (st : GateConn) : st.logged.pipe = st.pipe := rfl

@[simp] theorem logged_log (st : GateConn) :
    st.logged.log = st.log ++ [⟨st.pipe.m_oRecvStream.size, st.received.nUse,
      st.received.effects.filterMap SinkCall.sendSize⟩] := rfl

/-- The `Send`s on record are those of the call, with the value of the call. -/
theorem received_sends (st : GateConn) :
    ∀ n ∈ st.received.effects.filterMap SinkCall.sendSize, n = st.received.nUse := by
  intro n hn
  rcases received_effects st with he | ⟨e, he, hnone⟩ | ⟨he, -⟩
  · simp [he] at hn
  · simp [he, hnone] at hn
  · simpa [he, SinkCall.sendSize] using hn

/-! ### A round -/

/-- What a round does: it logs the call of `OnRecv`, makes the call that `OnRecv` makes, and
takes the used bytes out. -/
theorem round_cases {st st' : GateConn} {results : List SendResult}
    (h : st.step (.round results) = some st') :
    0 < st.pipe.m_oRecvStream.size ∧
    ∃ c : GateConn,
      (st.received.effects = [] ∧ c = st.logged ∨
        ∃ e, st.received.effects = [e] ∧ st.logged.call results e = some c) ∧
      st' = { c with
        pipe := { c.pipe with
          m_oRecvStream := if st.received.nUse > 0
            then st.pipe.m_oRecvStream.out st.received.nUse else st.pipe.m_oRecvStream } } := by
  simp only [step] at h
  split at h
  · rename_i hsize
    refine ⟨hsize, ?_⟩
    obtain ⟨c, hc, rfl⟩ := Option.map_eq_some_iff.mp h
    refine ⟨c, ?_, rfl⟩
    rcases received_effects st with he | ⟨e, he, -⟩ | ⟨he, -⟩
    · rw [he] at hc
      exact .inl ⟨he, (Option.some.inj hc).symm⟩
    · rw [he, List.foldlM_cons] at hc
      obtain ⟨c', hc', hend⟩ := Option.bind_eq_some_iff.mp hc
      exact .inr ⟨e, he, hc'.trans hend⟩
    · rw [he, List.foldlM_cons] at hc
      obtain ⟨c', hc', hend⟩ := Option.bind_eq_some_iff.mp hc
      exact .inr ⟨_, he, hc'.trans hend⟩
  · cases h

/-- No call of the session touches the log. -/
theorem call_log {c c' : GateConn} {results : List SendResult} {e : SinkCall}
    (h : c.call results e = some c') : c'.log = c.log := by
  cases e with
  | Close =>
      cases h
      rfl
  | Send context size =>
      obtain ⟨r, -, rfl⟩ := Option.map_eq_some_iff.mp h
      rfl
  | SetGroupID groupid =>
      cases h
      rfl

/-- A call of the session keeps a failed `TASSERT` on record. -/
theorem call_memcpy {c c' : GateConn} {results : List SendResult} {e : SinkCall}
    (h : c.call results e = some c') (hc : c.memcpyOk = false) : c'.memcpyOk = false := by
  cases e with
  | Close =>
      cases h
      exact hc
  | Send context size =>
      obtain ⟨r, -, rfl⟩ := Option.map_eq_some_iff.mp h
      simp [hc]
  | SetGroupID groupid =>
      cases h
      exact hc

/-- A call of the session other than a `Send` of a negative length on an established pipe
does no damage, where there is room for what it sends. -/
theorem call_sound {c c' : GateConn} {results : List SendResult} {e : SinkCall}
    (hsend : c.pipe.m_oSendStream.InUse) (h : c.call results e = some c')
    (hsize : ∀ n, e.sendSize = some n →
      (0 ≤ n ∧ c.pipe.m_oSendStream.HasRoom n) ∨ c.pipe.m_nStatus ≠ .SS_ESTABLISHED) :
    c'.memcpyOk = c.memcpyOk ∧ c'.pipe.m_oSendStream.InUse := by
  cases e with
  | Close =>
      cases h
      exact ⟨rfl, hsend⟩
  | SetGroupID groupid =>
      cases h
      exact ⟨rfl, hsend⟩
  | Send context size =>
      obtain ⟨r, hr, rfl⟩ := Option.map_eq_some_iff.mp h
      rcases hsize size rfl with ⟨hnonneg, hroom⟩ | hstatus
      · obtain ⟨-, -, hwf, hmax⟩ := CPipe.Send_frame hsend.wf hnonneg hr
        have hassert := TStream.inAssert_of_wf BUFF_SIZE_pos hsend.wf hnonneg
        refine ⟨by simp [hassert], ?_⟩
        rcases hmax with hmax | hmax
        · exact hsend.of_max hwf hmax
        · exact (hsend.inBytes BUFF_SIZE_pos hnonneg hroom context).of_max hwf hmax
      · -- `Send` returns before it touches the stream.
        rw [CPipe.Send, CPipe.sendIn_refused hstatus] at hr
        cases hr
        exact ⟨by simp [hstatus], hsend⟩

/-- A round on a prefix that is not negative, or that is harmless, keeps the connection
sound, where there is room for what it sends. -/
theorem round_sound {st st' : GateConn} {results : List SendResult} (hs : st.Sound)
    (hp : st.PrefixOk (.round results)) (hroom : st.Room (.round results))
    (h : st.step (.round results) = some st') : st'.Sound := by
  obtain ⟨⟨hcalls, hsends, hmem, -, -⟩, hrecv, hsend⟩ := hs
  obtain ⟨hsize, c, hc, rfl⟩ := round_cases h
  have hret := received_nUse st
  simp only [PrefixOk] at hp
  -- The call of the session, if there is one, does no damage.
  have hcall : c.log = st.logged.log ∧ c.memcpyOk = st.memcpyOk ∧
      c.pipe.m_oSendStream.InUse := by
    rcases hc with ⟨-, rfl⟩ | ⟨e, he, hcall⟩
    · exact ⟨rfl, rfl, hsend⟩
    · refine ⟨call_log hcall, call_sound (c := st.logged) hsend hcall fun n hn => ?_⟩
      cases e with
      | Close => cases hn
      | SetGroupID groupid => cases hn
      | Send context nSize =>
          cases hn
          obtain ⟨rfl, hid, hle, hfits, hlow⟩ :=
            received_send (by rw [he]; exact List.mem_singleton_self _)
          rw [logged_pipe]
          by_cases hstatus : st.pipe.m_nStatus = .SS_ESTABLISHED
          · have hnonneg : 0 ≤ readS32 st.pipe.m_oRecvStream.buff 0 := by
              rcases hp with hnonneg | ⟨-, hid' | hstatus'⟩
              · exact hnonneg
              · exact absurd hid hid'
              · exact absurd hstatus hstatus'
            exact .inl ⟨hnonneg, hroom ⟨by omega, hle, hfits, hid, hstatus⟩⟩
          · exact .inr hstatus
  obtain ⟨hlog, hmem', hsend'⟩ := hcall
  have hlast : ∀ c ∈ st.logged.log, c ∈ st.log ∨
      c = ⟨st.pipe.m_oRecvStream.size, st.received.nUse,
        st.received.effects.filterMap SinkCall.sendSize⟩ := by
    intro c hc
    rw [logged_log] at hc
    rcases List.mem_append.mp hc with hc | hc
    · exact .inl hc
    · exact .inr (List.mem_singleton.mp hc)
  have hrecv' : (if st.received.nUse > 0 then st.pipe.m_oRecvStream.out st.received.nUse
      else st.pipe.m_oRecvStream).InUse := by
    split
    · exact hrecv.out (by omega)
    · exact hrecv
  refine ⟨⟨fun c' hc' hfour => ?_, fun c' hc' => ?_, hmem'.trans hmem, hrecv'.wf, hsend'.wf⟩,
    hrecv', hsend'⟩
  · rcases hlast c' (hlog ▸ hc') with hold | rfl
    · exact hcalls c' hold hfour
    · dsimp only at hfour ⊢
      rw [hret, ClientConnectSink.ret]
      split <;> omega
  · rcases hlast c' (hlog ▸ hc') with hold | rfl
    · exact hsends c' hold
    · exact received_sends st

/-- A step that meets `PrefixOk` and has room keeps the connection sound. -/
theorem Sound.step {st st' : GateConn} {a : GateAction} (hs : st.Sound) (hp : st.PrefixOk a)
    (hroom : st.Room a) (h : st.step a = some st') : st'.Sound := by
  cases a with
  | append piece =>
      obtain ⟨⟨hcalls, hsends, hmem, -, -⟩, hrecv, hsend⟩ := hs
      cases h
      have hnonneg : (0 : Int) ≤ piece.length := Int.natCast_nonneg _
      -- The size that `recv` returned is not negative, so every `TASSERT` of `SafeMemcpy` holds.
      have hassert := TStream.inAssert_of_wf BUFF_SIZE_pos hrecv.wf hnonneg
      have hrecv' := hrecv.inBytes BUFF_SIZE_pos hnonneg hroom (Mem.ofList piece 0)
      exact ⟨⟨hcalls, hsends, by simp [hmem, hassert], hrecv'.wf, hsend.wf⟩, hrecv', hsend⟩
  | round results => exact round_sound hs hp hroom h
  | doSend result =>
      obtain ⟨⟨hcalls, hsends, hmem, -, -⟩, hrecv, hsend⟩ := hs
      obtain ⟨⟨r, e⟩, hr, rfl⟩ := Option.map_eq_some_iff.mp h
      have hby := CPipe.doSendRound_sentBy hr
      have hrecv' : r.pipe.m_oRecvStream.InUse := hby.recv ▸ hrecv
      have hsend' : r.pipe.m_oSendStream.InUse := hsend.of_max (hby.wf hsend.wf) hby.max
      exact ⟨⟨hcalls, hsends, hmem, hrecv'.wf, hsend'.wf⟩, hrecv', hsend'⟩
  | doClose =>
      obtain ⟨⟨hcalls, hsends, hmem, -, -⟩, hrecv, hsend⟩ := hs
      cases h
      -- `DoClose` touches neither of the streams.
      have hrecv' : st.pipe.DoClose.m_oRecvStream = st.pipe.m_oRecvStream := by
        unfold CPipe.DoClose
        split <;> rfl
      have hsend' : st.pipe.DoClose.m_oSendStream = st.pipe.m_oSendStream := by
        unfold CPipe.DoClose
        split <;> rfl
      exact ⟨⟨hcalls, hsends, hmem, hrecv' ▸ hrecv.wf, hsend' ▸ hsend.wf⟩, hrecv' ▸ hrecv,
        hsend' ▸ hsend⟩

/-- A step that meets `PrefixOk` and has room stays in `s32`. -/
theorem Sound.inRange {st : GateConn} {a : GateAction} (hs : st.Sound) (hp : st.PrefixOk a)
    (hroom : st.Room a) : st.InRange a := by
  cases a with
  | append piece =>
      exact TStream.in32_of_hasRoom BUFF_SIZE_pos hs.recv.sized hs.recv.max_lt
        (Int.natCast_nonneg _) hroom _
  | round results =>
      refine ⟨fun context nSize hmem hstatus => ?_, fun hpos => ?_⟩
      · obtain ⟨rfl, hid, hle, hfits, hlow⟩ := received_send hmem
        have hnonneg : 0 ≤ readS32 st.pipe.m_oRecvStream.buff 0 := by
          rcases hp with hnonneg | ⟨-, hid' | hstatus'⟩
          · exact hnonneg
          · exact absurd hid hid'
          · exact absurd hstatus hstatus'
        exact TStream.in32_of_hasRoom BUFF_SIZE_pos hs.send.sized hs.send.max_lt hnonneg
          (hroom ⟨by omega, hle, hfits, hid, hstatus⟩) _
      · exact TStream.out32_eq hs.recv.wf hs.recv.max_lt (by omega)
  | doSend result => trivial
  | doClose => trivial

/-- A step that stays in `s32` has room. -/
theorem Sound.room {st : GateConn} {a : GateAction} (hs : st.Sound) (h : st.InRange a) :
    st.Room a := by
  have hdvd : (BUFF_SIZE : Int) ∣ 2147483648 := ⟨131072, rfl⟩
  have hroom : ∀ {s : TStream BUFF_SIZE} {pbuff : Mem UInt8} {size : Int}, s.InUse →
      (∃ n, s.in32 n pbuff size = some (s.inBytes pbuff size)) → s.HasRoom size := by
    rintro s pbuff size huse ⟨n, hn⟩
    obtain ⟨plan, hplan, -⟩ := TStream.in32_eq hn
    exact TStream.hasRoom_of_plan32 hdvd huse.sized huse.max_lt hplan
  cases a with
  | append piece => exact hroom hs.recv h
  | round results =>
      rintro ⟨hlow, hle, hfits, hid, hstatus⟩
      have he := received_broadcast hlow hle hfits hid
      exact hroom hs.send (h.1 _ _ (by rw [he]; exact List.mem_singleton_self _) hstatus)
  | doSend result => trivial
  | doClose => trivial

/-- A broken connection stays broken. -/
theorem Broken.step {st st' : GateConn} {a : GateAction} (hs : st.Broken)
    (h : st.step a = some st') : st'.Broken := by
  have hkeep : (∀ c ∈ st.log, c ∈ st'.log) ∧ (st.memcpyOk = false → st'.memcpyOk = false) := by
    cases a with
    | append piece =>
        cases h
        exact ⟨fun c hc => hc, fun hm => by simp [hm]⟩
    | round results =>
        obtain ⟨-, c, hc, rfl⟩ := round_cases h
        have hmem : ∀ x ∈ st.log, x ∈ st.logged.log := fun x hx => List.mem_append_left _ hx
        rcases hc with ⟨-, rfl⟩ | ⟨e, -, hcall⟩
        · exact ⟨hmem, fun hm => hm⟩
        · refine ⟨fun x hx => ?_, fun hm => ?_⟩
          · show x ∈ c.log
            rw [call_log hcall]
            exact hmem x hx
          · show c.memcpyOk = false
            exact call_memcpy hcall hm
    | doSend result =>
        obtain ⟨r, -, rfl⟩ := Option.map_eq_some_iff.mp h
        exact ⟨fun c hc => hc, fun hm => hm⟩
    | doClose =>
        cases h
        exact ⟨fun c hc => hc, fun hm => hm⟩
  rcases hs with ⟨c, hc, hcall⟩ | hmem
  · exact .inl ⟨c, hkeep.1 c hc, hcall⟩
  · exact .inr (hkeep.2 hmem)

end GateConn

end Kernel4GameServer
