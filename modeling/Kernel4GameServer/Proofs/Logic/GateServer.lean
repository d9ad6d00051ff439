import Kernel4GameServer.Logic.GateServer
import Kernel4GameServer.Proofs.Logic.SinkDrain
import Kernel4GameServer.Proofs.Net.ServerDelivery

/-!
# `Kernel4GameServer.Proofs.Logic.GateServer`: the Gate sends every broadcast back

On a stream of whole messages `ClientConnectSink::OnRecv` is the session `onFrames`, which looks at
one message and at nothing behind it, and keeps the contract of `OnRecv`. So what holds of every
such session holds of the Gate.

* `OnRecvSeen_frame`: `OnRecv` on a message, whatever stands behind it.
* `onFrames_stable`, `feed_frames`: the session, and what it does with messages in one piece.
* `near_of_cut`: what the session has not used begins with a message.
* `run_frames`: a run of the Gate is a run of the session, and no `TASSERT` of `OnRecv` fails in it.
* `gate_echoes`: the client gets its broadcasts back, all and in their order.
-/

set_option autoImplicit false

namespace Kernel4GameServer

open Lib

/-! ### One message -/

/-- Two memories that agree on four bytes have the same `s32` there. -/
theorem readS32_congr {m m' : Mem UInt8} {off off' : Int}
    (h : ∀ i : Int, 0 ≤ i → i < 4 → m (off + i) = m' (off' + i)) :
    readS32 m off = readS32 m' off' := by
  have h0 := h 0 (by omega) (by omega)
  rw [Int.add_zero, Int.add_zero] at h0
  unfold readS32
  rw [h0, h 1 (by omega) (by omega), h 2 (by omega) (by omega), h 3 (by omega) (by omega)]

/-- An `s32` within the bytes of a list that are at the front of another. -/
theorem readS32_prefix {x w : List UInt8} (h : x <+: w) {off : Int} (hlo : 0 ≤ off)
    (hhi : off + 4 ≤ x.length) : readS32 (Mem.ofList x 0) off = readS32 (Mem.ofList w 0) off := by
  obtain ⟨r, rfl⟩ := h
  refine readS32_congr fun i hi hi' => ?_
  exact (Mem.ofList_append r 0 (by omega) (by omega)).symm

/-- An `s32` within the bytes that a pointer sees. -/
theorem readS32_slice {context : Mem UInt8} {n : Nat} {off : Int} (hlo : 0 ≤ off)
    (hhi : off + 4 ≤ n) :
    readS32 (Mem.ofList (Mem.slice context 0 n) 0) off = readS32 context off := by
  refine readS32_congr fun i hi hi' => ?_
  have hslice : Mem.slice (Mem.ofList (Mem.slice context 0 n) 0) 0 n = Mem.slice context 0 n := by
    have h := Mem.slice_ofList (Mem.slice context 0 n) 0
    rwa [Mem.length_slice] at h
  exact Mem.slice_eq_iff.mp hslice (off + i) (by omega) (by omega)

instance (x : List UInt8) : Decidable (Frame x) :=
  decidable_of_iff (sizeof_testmsgheader ≤ x.length ∧ x.length ≤ 4096 ∧
      readS32 (Mem.ofList x 0) 0 = x.length ∧
      (readS32 (Mem.ofList x 0) 4 = TEST_MSG_ID_SET_GROUP →
        sizeof_testmsgheader + 4 ≤ x.length))
    ⟨fun h => ⟨h.1, h.2.1, h.2.2.1, h.2.2.2⟩, fun h => ⟨h.header, h.max, h.size, h.group⟩⟩

namespace ClientConnectSink

/-- What `OnRecv` does with a message. -/
def onFrame (sink : ClientConnectSink) (x : List UInt8) : Received ClientConnectSink SeenCall :=
  let msgid := readS32 (Mem.ofList x 0) 4
  if msgid = TEST_MSG_ID_SET_GROUP then
    let groupid := readS32 (Mem.ofList x 0) sizeof_testmsgheader
    ⟨x.length, { sink with m_nGroupID := groupid }, [.SetGroupID groupid]⟩
  else if msgid = TEST_MSG_ID_BROADCAST then ⟨x.length, sink, [.Send x x.length]⟩
  else ⟨x.length, sink, []⟩

/-- The length and the id of a message, whatever stands behind it. -/
theorem header_of_slice {context : Mem UInt8} {x : List UInt8} (hx : Frame x)
    (hslice : Mem.slice context 0 x.length = x) :
    readS32 context 0 = x.length ∧ readS32 context 4 = readS32 (Mem.ofList x 0) 4 := by
  have hheader : (24 : Int) ≤ x.length := hx.header
  constructor
  · rw [← hx.size]
    conv_rhs => rw [← hslice]
    exact (readS32_slice (Int.le_refl 0) (by omega)).symm
  · conv_rhs => rw [← hslice]
    exact (readS32_slice (by omega) (by omega)).symm

/-- `OnRecv` on a message, whatever stands behind it. -/
theorem OnRecvSeen_frame {sink : ClientConnectSink} {context : Mem UInt8} {size : Int}
    {x : List UInt8} (hx : Frame x) (hslice : Mem.slice context 0 x.length = x)
    (hsize : x.length ≤ size) : OnRecvSeen sink context size = sink.onFrame x := by
  have hheader : (24 : Int) ≤ x.length := hx.header
  obtain ⟨hlen, hmsgid⟩ := header_of_slice hx hslice
  have hmax := hx.max
  have hfits : (x.length : Int) ≤ size ∧ sizeT x.length ≥ sizeof_testmsgheader :=
    ⟨hsize, (sizeof_le_sizeT (by omega)).mpr (.inr hheader)⟩
  simp only [OnRecvSeen, OnRecv, onFrame, hlen, hmsgid]
  rw [if_neg (by omega), if_pos hfits]
  by_cases hgroup : readS32 (Mem.ofList x 0) 4 = TEST_MSG_ID_SET_GROUP
  · have hroom : (28 : Int) ≤ x.length := hx.group hgroup
    have hid : readS32 context sizeof_testmsgheader
        = readS32 (Mem.ofList x 0) sizeof_testmsgheader := by
      conv_rhs => rw [← hslice]
      exact (readS32_slice (show (0 : Int) ≤ 24 by decide)
        (show (24 : Int) + 4 ≤ x.length by omega)).symm
    rw [if_pos hgroup, if_pos hgroup]
    simp only [seenRecv, SinkCall.seen, List.map_cons, List.map_nil, hid]
  · rw [if_neg hgroup, if_neg hgroup]
    split
    · simp only [seenRecv, SinkCall.seen, List.map_cons, List.map_nil, Int.toNat_natCast, hslice]
    · rfl

/-- It uses the message, and sends a broadcast back. -/
theorem onFrame_spec (sink : ClientConnectSink) (x : List UInt8) :
    (sink.onFrame x).nUse = x.length ∧
      (sink.onFrame x).effects.filterMap SeenCall.sent = if isBroadcast x then [x] else [] := by
  unfold onFrame isBroadcast
  dsimp only
  split
  · rename_i hgroup
    rw [hgroup]
    exact ⟨rfl, rfl⟩
  · split
    · rename_i hcast
      rw [hcast]
      exact ⟨rfl, rfl⟩
    · rename_i hcast
      rw [decide_eq_false hcast]
      exact ⟨rfl, rfl⟩

/-- The message at the front of the buffer, if there is one. -/
def front (b : List UInt8) : List UInt8 := b.take (readS32 (Mem.ofList b 0) 0).toNat

/-- The Gate as a session: it looks at the message at the front of the buffer. -/
def onFrames (sink : ClientConnectSink) (b : List UInt8) : Received ClientConnectSink SeenCall :=
  if Frame (front b) then sink.onFrame (front b) else ⟨0, sink, []⟩

/-- A message at the front is found. -/
theorem front_of_frame {x b : List UInt8} (hx : Frame x) (h : x <+: b) : front b = x := by
  have hheader : (24 : Int) ≤ x.length := hx.header
  unfold front
  rw [← readS32_prefix h (Int.le_refl 0) (by omega), hx.size, Int.toNat_natCast]
  exact List.prefix_iff_eq_take.mp h |>.symm

/-- In a part of a message there is none. -/
theorem not_frame_front {x b : List UInt8} (hx : Frame x) (h : b <+: x) (hne : b ≠ x) :
    ¬ Frame (front b) := by
  intro hfront
  have hpre : front b <+: x := (List.take_prefix _ b).trans h
  have heq : front b = x :=
    (front_of_frame hfront hpre).symm.trans (front_of_frame hx List.prefix_rfl)
  refine hne (h.eq_of_length_le ?_)
  rw [← heq]
  exact (List.take_prefix _ b).length_le

/-- The session keeps the contract of `OnRecv`. -/
theorem onFrames_stable : StableSession onFrames where
  used_nonneg s b := by
    unfold onFrames
    split
    · rw [(onFrame_spec s _).1]
      exact Int.natCast_nonneg _
    · exact Int.le_refl 0
  used_le s b := by
    unfold onFrames
    split
    · rw [(onFrame_spec s _).1]
      exact Int.ofNat_le.mpr (List.take_prefix _ b).length_le
    · exact Int.natCast_nonneg _
  idle s b h := by
    unfold onFrames at h ⊢
    split at h
    · rename_i hx
      rw [(onFrame_spec s _).1] at h
      have hheader : (24 : Int) ≤ (front b).length := hx.header
      omega
    · rename_i hx
      rw [if_neg hx]
      exact ⟨rfl, rfl⟩
  extend s b d h := by
    unfold onFrames at h ⊢
    split at h
    · rename_i hx
      have hpre : front b <+: b ++ d := (List.take_prefix _ b).trans (List.prefix_append b d)
      rw [front_of_frame hx hpre]
    · cases h

/-- The session on a buffer that begins with a message. -/
theorem consumer_frame {sink : ClientConnectSink} {x w : List UInt8} (hx : Frame x) :
    consumer onFrames sink (x ++ w)
      = ⟨x.length, (sink.onFrame x).session, (sink.onFrame x).effects⟩ := by
  have hfront := front_of_frame hx (List.prefix_append x w)
  unfold consumer onFrames
  rw [hfront, if_pos hx, (onFrame_spec sink x).1, Int.toNat_natCast]

/-- What the session does with messages in one piece: one call for each, every broadcast is sent
back, and a part of a message is left. -/
theorem feed_frames {tail : List UInt8} (htail : ¬ Frame (front tail)) :
    ∀ {msgs : List (List UInt8)} (sink : ClientConnectSink), (∀ x ∈ msgs, Frame x) →
      replies onFrames SeenCall.sent sink (msgs.flatten ++ tail) = msgs.filter isBroadcast ∧
      frames (consumer onFrames) sink (msgs.flatten ++ tail) = msgs.length ∧
      (feed (consumer onFrames) sink (msgs.flatten ++ tail)).rest = tail := by
  intro msgs
  induction msgs with
  | nil =>
      intro sink _
      have hidle : (consumer onFrames sink tail).used = 0 := by
        unfold consumer onFrames
        rw [if_neg htail]
        rfl
      unfold replies
      rw [List.flatten_nil, List.nil_append, feed_idle hidle, frames_idle hidle]
      exact ⟨rfl, rfl, rfl⟩
  | cons x msgs ih =>
      intro sink hall
      have hx := hall x List.mem_cons_self
      obtain ⟨hreplies, hframes, hrest⟩ :=
        ih (sink.onFrame x).session fun y hy => hall y (List.mem_cons_of_mem x hy)
      have hconsumer : consumer onFrames sink (x ++ (msgs.flatten ++ tail))
          = ⟨x.length, (sink.onFrame x).session, (sink.onFrame x).effects⟩ := consumer_frame hx
      have hheader : (24 : Int) ≤ x.length := hx.header
      have hused : 0 < (consumer onFrames sink (x ++ (msgs.flatten ++ tail))).used := by
        rw [hconsumer]
        show 0 < x.length
        omega
      unfold replies at hreplies ⊢
      rw [List.flatten_cons, List.append_assoc, feed_consume onFrames_stable.stable hused,
        frames_consume onFrames_stable.stable hused, hconsumer]
      dsimp only
      rw [List.drop_left]
      refine ⟨?_, by rw [hframes, List.length_cons], hrest⟩
      show ((sink.onFrame x).effects ++ (feed (consumer onFrames) (sink.onFrame x).session
        (msgs.flatten ++ tail)).effects).filterMap SeenCall.sent = _
      rw [List.filterMap_append, hreplies, (onFrame_spec sink x).2, List.filter_cons]
      split <;> rfl

/-! ### What is not used yet -/

/-- The sink behind some messages. -/
def afterFrames (sink : ClientConnectSink) (msgs : List (List UInt8)) : ClientConnectSink :=
  msgs.foldl (fun sink x => (sink.onFrame x).session) sink

/-- What a message does to the sink. -/
theorem onFrame_session (sink : ClientConnectSink) (x : List UInt8) :
    (sink.onFrame x).session = if isSetGroup x then
      { sink with m_nGroupID := readS32 (Mem.ofList x 0) sizeof_testmsgheader } else sink := by
  unfold onFrame isSetGroup
  by_cases hgroup : readS32 (Mem.ofList x 0) 4 = TEST_MSG_ID_SET_GROUP
  · rw [if_pos hgroup, if_pos (decide_eq_true hgroup)]
  · have hno : ¬ decide (readS32 (Mem.ofList x 0) 4 = TEST_MSG_ID_SET_GROUP) = true :=
      fun h => hgroup (of_decide_eq_true h)
    rw [if_neg hgroup, if_neg hno]
    split <;> rfl

/-- A sink that may take some messages may take the later ones behind the earlier. -/
theorem GroupsOk.after {done rest : List (List UInt8)} {sink : ClientConnectSink}
    (h : sink.GroupsOk (done ++ rest)) : (sink.afterFrames done).GroupsOk rest := by
  induction done generalizing sink with
  | nil => exact h
  | cons x done ih =>
      obtain ⟨-, hrest⟩ := h
      have hnext : (sink.onFrame x).session.GroupsOk (done ++ rest) := by
        rw [onFrame_session]
        split
        · rename_i hgroup
          rwa [if_pos hgroup] at hrest
        · rename_i hgroup
          rwa [if_neg hgroup] at hrest
      exact ih hnext

/-- What the session has not used begins with a message or is a part of one, as long as the client
sends messages. The sink is the one behind the used messages. Induction on how the state was come
to. -/
theorem boundary_of_cut {msgs : List (List UInt8)} {tail y : List UInt8}
    (hmsgs : ∀ x ∈ msgs, Frame x) (hy : Frame y) (htail : tail <+: y) (hne : tail ≠ y)
    {sink₀ sink : ClientConnectSink} {w b : List UInt8} {es : List SeenCall} {k : Nat}
    (h : Cut (consumer onFrames) sink₀ w es k sink b) (hw : w <+: msgs.flatten ++ tail) :
    ∃ done rest, msgs = done ++ rest ∧ w = done.flatten ++ b ∧ sink = sink₀.afterFrames done := by
  induction h with
  | start => exact ⟨[], msgs, rfl, rfl, rfl⟩
  | append d _ ih =>
      obtain ⟨done, rest, hsplit, heq, hsink⟩ := ih ((List.prefix_append _ d).trans hw)
      exact ⟨done, rest, hsplit, by rw [heq, List.append_assoc], hsink⟩
  | @consume w b es k sink _ hu ih =>
      obtain ⟨done, rest, hsplit, heq, hsink⟩ := ih hw
      have hb : b <+: rest.flatten ++ tail := by
        rw [heq, hsplit, List.flatten_append, List.append_assoc] at hw
        exact (List.prefix_append_right_inj _).mp hw
      -- The session has used the message at the front.
      have hfront : Frame (front b) := by
        by_contra hno
        unfold consumer onFrames at hu
        rw [if_neg hno] at hu
        cases hu
      have hpre : front b <+: b := List.take_prefix _ b
      have hused : (consumer onFrames sink b).used = (front b).length := by
        unfold consumer onFrames
        rw [if_pos hfront, (onFrame_spec sink _).1, Int.toNat_natCast]
      cases rest with
      | nil =>
          refine absurd ?_ (not_frame_front hy htail hne)
          have htail' : b <+: tail := hb
          rw [front_of_frame hfront (hpre.trans htail')]
          exact hfront
      | cons x rest =>
          have hx := hmsgs x (by rw [hsplit]; simp)
          have hxfront : front b = x := by
            have h1 := front_of_frame hfront (hpre.trans hb)
            rw [List.flatten_cons, List.append_assoc] at h1
            rw [← h1]
            exact front_of_frame hx (List.prefix_append _ _)
          have hstate : (consumer onFrames sink b).state = (sink.onFrame x).session := by
            unfold consumer onFrames
            rw [if_pos hfront, hxfront]
          refine ⟨done ++ [x], rest, by rw [hsplit, List.append_assoc]; rfl, ?_, ?_⟩
          · rw [hxfront] at hpre hused
            obtain ⟨r, rfl⟩ := hpre
            rw [hused, List.drop_left, heq, List.flatten_append, List.flatten_singleton,
              List.append_assoc]
          · rw [hstate, hsink, afterFrames, afterFrames, List.foldl_append, List.foldl_cons,
              List.foldl_nil]

/-- So a message that the sink may take is at its front, or it is a part of one. -/
theorem near_of_cut {msgs : List (List UInt8)} {tail y : List UInt8}
    (hmsgs : ∀ x ∈ msgs, Frame x) (hy : Frame y) (htail : tail <+: y) (hne : tail ≠ y)
    {sink₀ sink : ClientConnectSink} {w b : List UInt8} {es : List SeenCall} {k : Nat}
    (h : Cut (consumer onFrames) sink₀ w es k sink b) (hw : w <+: msgs.flatten ++ tail)
    (hgroups : sink₀.GroupsOk msgs) :
    ∃ x, Frame x ∧ (x <+: b ∧ sink.MayTake x ∨ b <+: x ∧ b ≠ x) := by
  obtain ⟨done, rest, hsplit, heq, hsink⟩ := boundary_of_cut hmsgs hy htail hne h hw
  have hb : b <+: rest.flatten ++ tail := by
    rw [heq, hsplit, List.flatten_append, List.append_assoc] at hw
    exact (List.prefix_append_right_inj _).mp hw
  cases rest with
  | nil =>
      have htail' : b <+: tail := hb
      refine ⟨y, hy, .inr ⟨htail'.trans htail, ?_⟩⟩
      rintro rfl
      exact hne (htail.eq_of_length_le htail'.length_le)
  | cons x rest =>
      have hmay : sink.MayTake x := by
        rw [hsplit] at hgroups
        rw [hsink]
        exact hgroups.after.1
      rw [List.flatten_cons, List.append_assoc] at hb
      refine ⟨x, hmsgs x (by rw [hsplit]; simp), ?_⟩
      by_cases hpre : x <+: b
      · exact .inl ⟨hpre, hmay⟩
      · refine .inr ⟨?_, ?_⟩
        · exact (List.prefix_or_prefix_of_prefix (List.prefix_append x _) hb).resolve_left hpre
        · rintro rfl
          exact hpre List.prefix_rfl

/-- The length of a message of which a part is there. -/
theorem header_of_part {context : Mem UInt8} {size : Int} {x : List UInt8} (hx : Frame x)
    (hsize : 4 ≤ size) (hpart : Mem.slice context 0 size.toNat <+: x)
    (hne : Mem.slice context 0 size.toNat ≠ x) :
    readS32 context 0 = x.length ∧ size < x.length := by
  have hlength : (Mem.slice context 0 size.toNat).length = size.toNat := Mem.length_slice _ _ _
  constructor
  · rw [← hx.size, ← readS32_prefix hpart (Int.le_refl 0) (by omega)]
    exact (readS32_slice (Int.le_refl 0) (by omega)).symm
  · have hle := hpart.length_le
    have : (Mem.slice context 0 size.toNat).length ≠ x.length := fun heq =>
      hne (hpart.eq_of_length heq)
    omega

/-- A message at the front of the bytes that a pointer sees. -/
theorem slice_of_prefix {context : Mem UInt8} {size : Int} {x : List UInt8}
    (hpre : x <+: Mem.slice context 0 size.toNat) :
    Mem.slice context 0 x.length = x ∧ x.length ≤ size.toNat := by
  have hle := hpre.length_le
  rw [Mem.length_slice] at hle
  refine ⟨?_, hle⟩
  rw [← Mem.take_slice context 0 hle]
  exact (List.prefix_iff_eq_take.mp hpre).symm

/-- `OnRecv` on such bytes is the session, as soon as the whole length prefix is there, and its
`TASSERT` holds. -/
theorem OnRecvSeen_near {sink : ClientConnectSink} {context : Mem UInt8} {size : Int}
    {x : List UInt8} (hx : Frame x) (hsize : 4 ≤ size)
    (hnear : x <+: Mem.slice context 0 size.toNat ∧ sink.MayTake x ∨
      Mem.slice context 0 size.toNat <+: x ∧ Mem.slice context 0 size.toNat ≠ x) :
    OnRecvSeen sink context size = onFrames sink (Mem.slice context 0 size.toNat) ∧
      sink.OnRecvAssert context size = true := by
  have hmax := hx.max
  rcases hnear with ⟨hpre, hmay⟩ | ⟨hpart, hne⟩
  · obtain ⟨hslice, hle⟩ := slice_of_prefix hpre
    constructor
    · unfold onFrames
      rw [OnRecvSeen_frame hx hslice (by omega), front_of_frame hx hpre, if_pos hx]
    · obtain ⟨hlen, hmsgid⟩ := header_of_slice hx hslice
      simp only [OnRecvAssert, hlen, hmsgid]
      rw [if_neg (by omega)]
      split
      · split
        · rename_i hgroup
          obtain ⟨hid, hconnected⟩ := hmay (decide_eq_true hgroup)
          rw [hid, hconnected]
          rfl
        · rfl
      · rfl
  · -- The message is longer than what is there.
    obtain ⟨hlen, hlong⟩ := header_of_part hx hsize hpart hne
    constructor
    · unfold onFrames
      rw [if_neg (not_frame_front hx hpart hne)]
      simp only [OnRecvSeen, OnRecv, hlen]
      rw [if_neg (by omega), if_neg (by omega)]
      rfl
    · simp only [OnRecvAssert, hlen]
      rw [if_neg (by omega), if_neg (by omega)]

end ClientConnectSink

namespace ServerPair

open ClientConnectSink

/-- A step of the Gate is one of the session, and a `TASSERT` in it holds. -/
theorem step_frames {msgs : List (List UInt8)} {tail y : List UInt8}
    (hmsgs : ∀ x ∈ msgs, Frame x) (hy : Frame y) (htail : tail <+: y) (hne : tail ≠ y)
    {sendCap : Side → Nat} {sink : ClientConnectSink} (hgroups : sink.GroupsOk msgs)
    {s s' : ServerPair ClientConnectSink SeenCall} {a : ServerAction}
    (hi : s.Inv onFrames SeenCall.sent sendCap sink) (hshown : s.Shown a)
    (hposted : s.client.posted <+: msgs.flatten ++ tail)
    (h : s.step OnRecvSeen SeenCall.sent a = some s') :
    s.step (onBuffer onFrames) SeenCall.sent a = some s' ∧ s.Asserted a := by
  cases a with
  | OnRecv =>
      cases hanswer : s.answer with
      | some r =>
          simp only [step, hanswer] at h
          cases h
      | none =>
          have hcall : 0 < s.server.conn.pipe.m_oRecvStream.size →
              OnRecvSeen s.session s.server.conn.pipe.m_oRecvStream.buff
                  s.server.conn.pipe.m_oRecvStream.size
                = onBuffer onFrames s.session s.server.conn.pipe.m_oRecvStream.buff
                    s.server.conn.pipe.m_oRecvStream.size ∧
              s.session.OnRecvAssert s.server.conn.pipe.m_oRecvStream.buff
                s.server.conn.pipe.m_oRecvStream.size = true := by
            intro hsize
            have hcut := hi.served.cut
            rw [(answer_none hanswer).1, List.drop_zero] at hcut
            obtain ⟨x, hx, hnear⟩ := near_of_cut hmsgs hy htail hne hcut
              ((hi.pair.received .left).trans hposted) hgroups
            have hfour : 4 ≤ s.server.conn.pipe.m_oRecvStream.size :=
              hshown.resolve_left (by omega)
            have hslice := TStream.slice_buff_size s.server.conn.pipe.m_oRecvStream
            refine OnRecvSeen_near hx hfour ?_
            rw [hslice]
            exact hnear
          have hreceived : s.received OnRecvSeen = s.received (onBuffer onFrames) := by
            unfold received recvCall
            split
            · rename_i hsize
              exact (hcall hsize).1
            · rfl
          refine ⟨?_, fun hsize => (hcall hsize).2⟩
          simp only [step, hreceived] at h
          simp only [step]
          exact h
  | net a | Send | out =>
      -- These steps do not call `OnRecv`.
      simp only [step] at h ⊢
      exact ⟨h, trivial⟩

/-- What the client has sent is only added to. -/
theorem step_posted {onRecv : OnRecv ClientConnectSink SeenCall} {sendCap : Side → Nat}
    {s s' : ServerPair ClientConnectSink SeenCall} {a : ServerAction}
    (hi : s.pair.Inv sendCap) (h : s.step onRecv SeenCall.sent a = some s') :
    s'.pair.Inv sendCap ∧ s.client.posted <+: s'.client.posted := by
  rcases step_pair h with hsame | ⟨b, hb⟩
  · unfold client
    rw [hsame]
    exact ⟨hi, List.prefix_rfl⟩
  · exact ⟨(hi.step hb).1, EdgePair.posted_prefix hi hb .left⟩

/-- What it has sent in a run. -/
theorem run_posted {onRecv : OnRecv ClientConnectSink SeenCall} {sendCap : Side → Nat}
    {s s' : ServerPair ClientConnectSink SeenCall} {as : List ServerAction}
    (hi : s.pair.Inv sendCap) (h : run (step onRecv SeenCall.sent) s as = some s') :
    s.client.posted <+: s'.client.posted :=
  (run_invariant (I := fun t => t.pair.Inv sendCap ∧ s.client.posted <+: t.client.posted)
    (fun _ _ _ ht hs => ⟨(step_posted ht.1 hs).1, ht.2.trans (step_posted ht.1 hs).2⟩)
    ⟨hi, List.prefix_rfl⟩ h).2

/-- A run of the Gate is one of the session, in which every `TASSERT` of `OnRecv` holds. Induction
on the run, first step first: what the client has sent by then is a part of the messages. -/
theorem run_frames {msgs : List (List UInt8)} {tail y : List UInt8}
    (hmsgs : ∀ x ∈ msgs, Frame x) (hy : Frame y) (htail : tail <+: y) (hne : tail ≠ y)
    {sendCap : Side → Nat} {sink : ClientConnectSink} (hgroups : sink.GroupsOk msgs) :
    ∀ {as : List ServerAction} {s s' : ServerPair ClientConnectSink SeenCall},
      s.Inv onFrames SeenCall.sent sendCap sink →
      run (step OnRecvSeen SeenCall.sent) s as = some s' →
      AllSteps (step OnRecvSeen SeenCall.sent) Shown s as →
      s'.client.posted <+: msgs.flatten ++ tail →
      run (step (onBuffer onFrames) SeenCall.sent) s as = some s' ∧
        AllSteps (step OnRecvSeen SeenCall.sent) Asserted s as := by
  intro as
  induction as with
  | nil =>
      intro s s' _ h _ _
      rw [run_nil] at h ⊢
      exact ⟨h, trivial⟩
  | cons a as ih =>
      intro s s' hi h hshown hposted
      rw [run_cons] at h
      obtain ⟨t, ht, hrest⟩ := Option.bind_eq_some_iff.mp h
      obtain ⟨hfirst, hothers⟩ := (allSteps_cons ht).mp hshown
      obtain ⟨hpair, hgrow⟩ := step_posted hi.pair ht
      have hsofar := (run_posted hpair hrest).trans hposted
      obtain ⟨ht', hassert⟩ :=
        step_frames hmsgs hy htail hne hgroups hi hfirst (hgrow.trans hsofar) ht
      obtain ⟨hrun, hasserts⟩ := ih (hi.step onFrames_stable ht').1 hrest hothers hposted
      rw [run_cons, ht', Option.bind_some]
      exact ⟨hrun, (allSteps_cons ht).mpr ⟨hassert, hasserts⟩⟩

/-- The Gate sends every broadcast back, in every run of the two workers, the two main threads and
the network, to a client that has sent the messages `msgs` and a part of one more, as long as
`OnRecv` is not called with less than a length prefix, and the sink may take the messages.

* No `TASSERT` of `OnRecv` fails.
* What the client has received is at all times a prefix of its broadcasts.
* The steps that bring them on are bounded.
* Where none of them can be taken, the client has got all its broadcasts back, and the part of a
  message is all that is left in `m_oRecvStream`. -/
theorem gate_echoes (lSocket sendCap : Side → Nat) (recvCap : Nat) (hsend : ∀ i, 0 < sendCap i)
    (hrecv : 0 < recvCap) (sink : ClientConnectSink) (as : List ServerAction)
    (s : ServerPair ClientConnectSink SeenCall)
    (h : run (step OnRecvSeen SeenCall.sent) (init lSocket sendCap recvCap sink) as = some s)
    (hshown : AllSteps (step OnRecvSeen SeenCall.sent) Shown (init lSocket sendCap recvCap sink) as)
    (msgs : List (List UInt8)) (tail y : List UInt8) (hmsgs : ∀ x ∈ msgs, Frame x)
    (hy : Frame y) (htail : tail <+: y) (hne : tail ≠ y) (hgroups : sink.GroupsOk msgs)
    (hposted : s.client.posted = msgs.flatten ++ tail) :
    AllSteps (step OnRecvSeen SeenCall.sent) Asserted (init lSocket sendCap recvCap sink) as ∧
    s.client.taken <+: (msgs.filter isBroadcast).flatten ∧
    as.countP (·.serves) ≤ 56 + (as.map (·.cost)).sum + 2 * msgs.length
      + ((msgs.filter isBroadcast).map price).sum ∧
    ((∀ a : ServerAction, a.serves = true → s.step OnRecvSeen SeenCall.sent a = none) →
      s.client.taken = (msgs.filter isBroadcast).flatten ∧
      s.server.conn.pipe.m_oRecvStream.unread = tail) := by
  obtain ⟨hrun, hasserts⟩ := run_frames hmsgs hy htail hne hgroups
    (inv_init onFrames_stable lSocket sendCap recvCap) h hshown (hposted ▸ List.prefix_rfl)
  have hi := run_inv onFrames_stable hrun
  obtain ⟨hreplies, hframes, hrest⟩ := feed_frames (not_frame_front hy htail hne) sink hmsgs
  have hreceived := hi.received onFrames_stable
  have hcount := run_serves_le onFrames_stable hrun
  rw [hposted, hreplies] at hreceived hcount
  rw [hframes] at hcount
  refine ⟨hasserts, hreceived, hcount, fun hstuck => ?_⟩
  have hcap : 0 < s.pair.recvCap := by
    rw [run_recvCap h]
    exact hrecv
  obtain ⟨htaken, hfeed⟩ := hi.stuck onFrames_stable hsend hcap hstuck
  rw [hposted] at htaken hfeed
  rw [hreplies] at htaken
  rw [hfeed] at hrest
  exact ⟨htaken, hrest⟩

/-- A message into group 7, and a broadcast of a bare header. -/
def groupMessage : List UInt8 := [28, 0, 0, 0] ++ List.replicate 20 0 ++ [7, 0, 0, 0]
def bareBroadcast : List UInt8 := [24, 0, 0, 0, 1, 0, 0, 0] ++ List.replicate 16 0

/-- A client sends the two in one piece, and they go through the Gate. -/
def broadcastRun : List ServerAction :=
  workerRound .left { EPOLLOUT := true } [] [.EAGAIN] ++
  workerRound .right { EPOLLOUT := true } [] [.EAGAIN] ++
  [.net (.thread .left (.Send (groupMessage ++ bareBroadcast))),
    .net (.thread .left (.sendLocked [⟨none, .sent 52⟩])), .net (.deliver .left 52 true true)] ++
  workerRound .right { EPOLLIN := true, EPOLLOUT := true }
    [.data (groupMessage ++ bareBroadcast), .EAGAIN] [.EAGAIN] ++
  workerRound .left { EPOLLOUT := true } [] [.EAGAIN] ++
  [.net (.thread .right .read), .OnRecv, .OnRecv, .Send,
    .net (.thread .right (.sendLocked [⟨none, .sent 24⟩])), .out, .OnRecv,
    .net (.thread .right .finish), .net (.deliver .right 24 true true)] ++
  workerRound .left { EPOLLIN := true, EPOLLOUT := true } [.data bareBroadcast, .EAGAIN]
    [.EAGAIN] ++
  workerRound .right { EPOLLOUT := true } [] [.EAGAIN]

instance (s : ServerPair ClientConnectSink SeenCall) : ∀ a, Decidable (s.Shown a)
  | .OnRecv => inferInstanceAs (Decidable (_ ∨ _))
  | .net _ => isTrue trivial
  | .Send => isTrue trivial
  | .out => isTrue trivial

/-- The broadcast comes back. -/
theorem gate_echoes_broadcast : ∃ s,
    run (step OnRecvSeen SeenCall.sent) (init (fun _ => 7) (fun _ => 64) 64 ⟨true, -1⟩) broadcastRun
      = some s ∧ s.client.taken = bareBroadcast ∧ s.session.m_nGroupID = 7 := by
  obtain ⟨s, hs, hend⟩ : ∃ s,
      run (step OnRecvSeen SeenCall.sent) (init (fun _ => 7) (fun _ => 64) 64 ⟨true, -1⟩)
        broadcastRun = some s ∧
      (s.client.posted, s.session.m_nGroupID, s.atRest)
        = (groupMessage ++ bareBroadcast, 7, true) :=
    Option.map_eq_some_iff.mp (by decide +kernel)
  obtain ⟨hposted, hend⟩ := Prod.mk.inj hend
  obtain ⟨hgroup, hrest⟩ := Prod.mk.inj hend
  have hframe : Frame bareBroadcast := by decide
  have hall : ∀ x ∈ [groupMessage, bareBroadcast], Frame x := by decide
  have hgroups : (⟨true, -1⟩ : ClientConnectSink).GroupsOk [groupMessage, bareBroadcast] :=
    ⟨fun _ => ⟨rfl, rfl⟩, nofun, trivial⟩
  have htaken := ((gate_echoes (fun _ => 7) (fun _ => 64) 64 (fun _ => by decide) (by decide)
    ⟨true, -1⟩ broadcastRun s hs (by decide) [groupMessage, bareBroadcast] [] bareBroadcast hall
    hframe (List.nil_prefix) (by decide) hgroups hposted).2.2.2 (stuck_of_atRest hrest)).1
  exact ⟨s, hs, htaken, hgroup⟩

end ServerPair

end Kernel4GameServer
