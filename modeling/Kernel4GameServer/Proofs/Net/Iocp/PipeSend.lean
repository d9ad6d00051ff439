import Kernel4GameServer.Proofs.Net.Iocp.PipeUseSteps

/-!
# `Kernel4GameServer.Proofs.Net.Iocp.PipeSend`: the send side of one use of a pipe

`SendOps` is what the send stream, the flag `m_bNeedPostOPT` and the operations on
`m_pSendEvent` have to do with each other, in every use of a pipe, whatever the last use left
behind. The flag is a token: while it is set no operation is outstanding, and the one that
clears it in `Send` posts the only packet. Since one operation is outstanding at most, the
bytes that a WSASend was given are the first unread ones until its completion is handled
(`ahead`), and `Out` takes a part of them.

`SendOps.step` keeps it over every step of the two threads and of the environment.
-/

set_option autoImplicit false

namespace Kernel4GameServer

open Lib

namespace StreamState

variable {buff_length : Nat} {st st' : StreamState buff_length}

/-- A reader that has seen nothing stands for no promise. -/
theorem Inv.reader (h : st.Inv) {r : StreamReader} (hr : r.view = none) :
    ({ st with reader := r } : StreamState buff_length).Inv :=
  { h with
    view := fun v hv => by
      rw [hr] at hv
      cases hv
    looking := fun v hv => by
      rw [show r = .looking v from hv] at hr
      cases hr }

/-- The reader takes some of the unread bytes in a section of its own. -/
theorem Inv.takeUnread (h : st.Inv) {k : Nat} (hk : k ≤ st.stream.unread.length)
    {r : StreamReader} (hr : r.view = none) :
    ({ st with
        stream := st.stream.out k
        reader := r
        taken := st.taken ++ st.stream.unread.take k } : StreamState buff_length).Inv := by
  rw [TStream.length_unread] at hk
  have hle := h.wf.read_le
  exact (h.look.out rfl (Int.natCast_nonneg k)
    (by simp only [TStream.size] at hk ⊢; omega)).reader hr

/-- The parts of `in` take nothing, and they leave the unread bytes in front. -/
theorem Inv.goesOn (hL : 0 < buff_length) (h : st.Inv) {a : StreamAction}
    (ha : Iocp.goesOn a = true) (hstep : st.step a = some st') :
    st'.taken = st.taken ∧ st'.reader = st.reader ∧
      ∃ later, st'.stream.unread = st.stream.unread ++ later := by
  have hfifo := (h.step hL hstep).fifo
  have hold := h.fifo
  have hcancel : ∀ {later : List UInt8}, st'.taken = st.taken →
      st'.written = st.written ++ later → st'.stream.unread = st.stream.unread ++ later := by
    intro later htaken hwritten
    rw [htaken, hwritten, ← hold, List.append_assoc] at hfifo
    exact List.append_cancel_left hfifo
  cases step_cases hstep with
  | write | lock | look | out | free => cases ha
  | stay | relocate | copy => exact ⟨rfl, rfl, [], hcancel rfl (List.append_nil _).symm⟩
  | advance src => exact ⟨rfl, rfl, src, hcancel rfl rfl⟩

end StreamState

namespace Iocp

/-- The completion that the worker handles in `Out`. -/
def UseWorker.sent : UseWorker → Option Packet
  | .outTake pk => some pk
  | .outTest pk => some pk
  | .outLook pk => some pk
  | .outIssue pk _ => some pk
  | _ => none

/-- The packet whose result the worker still has to use. -/
def UseWorker.packet : UseWorker → List Packet
  | .dispatch pk => [pk]
  | .outTake pk => [pk]
  | _ => []

namespace PipeUse

variable {sNetSendSize : Nat} {st st' : PipeUse}

/-- The packets whose result is still to be used. -/
def packets (st : PipeUse) : List Packet := st.port ++ st.worker.packet

/-- What the send stream, the flag and the operations on `m_pSendEvent` have to do with each
other. -/
structure SendOps (sNetSendSize : Nat) (st : PipeUse) : Prop where
  slots : st.Slots
  io : st.io.Inv
  one : st.outstandingOn .m_pSendEvent ≤ 1
  free : st.pipe.m_bNeedPostOPT = true → st.outstandingOn .m_pSendEvent = 0
  view_slot : ∀ op ∈ st.outstanding, op.view ≠ none → op.slot = .m_pSendEvent
  issued_view : ∀ op ∈ st.issued, op.slot = .m_pSendEvent → op.view ≠ none
  sound : ∀ pk ∈ st.packets, pk.op.slot = .m_pSendEvent →
    pk.result.nIOBytes ≤ (pk.op.view.elim [] View.bytes).length
  sent_slot : ∀ pk, st.worker.sent = some pk → pk.op.slot = .m_pSendEvent
  long : ∀ pk, st.worker = .outIssue pk true →
    (sNetSendSize : Int) ≤ st.pipe.m_oSendStream.size
  ahead : st.worker.locked = false → ∀ op ∈ st.outstanding, ∀ v, op.view = some v →
    v.bytes <+: st.pipe.m_oSendStream.unread

/-- What a step leaves alone that is not about sending. -/
structure SameSend (st st' : PipeUse) : Prop where
  stream : st'.pipe.m_oSendStream = st.pipe.m_oSendStream
  flag : st'.pipe.m_bNeedPostOPT = st.pipe.m_bNeedPostOPT
  writer : st'.writer = st.writer
  sending : st'.sending = st.sending
  sent : st'.sent = st.sent
  written : st'.written = st.written
  completed : st'.completed = st.completed
  beforeClose : st'.beforeClose = st.beforeClose
  sendFailed : st'.sendFailed = st.sendFailed

/-! ### Steps that are not about sending -/

/-- `AddClient` is not about sending. -/
theorem AddClient_sameSend (st : PipeUse) (client : Nat) (result : Connect) :
    SameSend st (st.AddClient client result) := by
  cases result <;> exact ⟨rfl, rfl, rfl, rfl, rfl, rfl, rfl, rfl, rfl⟩

/-- `CompletedAccept` is not about sending. -/
theorem CompletedAccept_sameSend (st : PipeUse) (client : Nat) (result : Accept) :
    SameSend st (st.CompletedAccept client result) := by
  cases result <;> exact ⟨rfl, rfl, rfl, rfl, rfl, rfl, rfl, rfl, rfl⟩

/-- An event is not about sending. -/
theorem processEvent_sameSend (st : PipeUse) (type : IoEventType) (nUse : Int) :
    SameSend st (st.processEvent type nUse) := by
  cases type with
  | RECV =>
      unfold processEvent
      dsimp only
      split <;> exact ⟨rfl, rfl, rfl, rfl, rfl, rfl, rfl, rfl, rfl⟩
  | BREAK | CONNECTED | CONNECTFAILD | COUNT =>
      exact ⟨rfl, rfl, rfl, rfl, rfl, rfl, rfl, rfl, rfl⟩

/-- So the main thread sends nothing in `Processing`. -/
theorem Processing_sameSend (st : PipeUse) (queue : List IoEventType) (type : IoEventType)
    (nUse : Int) : SameSend st ({ st with m_oEventQueue := queue }.processEvent type nUse) := by
  have h := processEvent_sameSend { st with m_oEventQueue := queue } type nUse
  exact ⟨h.stream, h.flag, h.writer, h.sending, h.sent, h.written, h.completed, h.beforeClose,
    h.sendFailed⟩

/-- An event issues nothing. -/
theorem processEvent_issued (st : PipeUse) (type : IoEventType) (nUse : Int) :
    (st.processEvent type nUse).issued = st.issued := by
  cases type with
  | RECV =>
      unfold processEvent
      dsimp only
      split <;> rfl
  | BREAK | CONNECTED | CONNECTFAILD | COUNT => rfl

/-- Behind `DoRecv` no result is to be used. -/
theorem recvDone_packet (st : PipeUse) (pk : Packet) (received res graceful : Bool) :
    (st.recvDone pk received res graceful).worker.packet = [] := by
  cases received <;> cases res <;> rfl

/-- Behind `DoRecv` the worker is not in `Out`. -/
theorem recvDone_sent (st : PipeUse) (pk : Packet) (received res graceful : Bool) :
    (st.recvDone pk received res graceful).worker.sent = none := by
  cases received <;> cases res <;> rfl

/-! ### The stream -/

/-- The reader of the stream is the worker, and it keeps no view. -/
theorem io_reader_view (st : PipeUse) : st.io.reader.view = none := by
  unfold io
  dsimp only
  split <;> rfl

/-- The invariant of the stream does not speak of where the worker is. -/
theorem io_inv (h : st.io.Inv) (hstream : st'.pipe.m_oSendStream = st.pipe.m_oSendStream)
    (hwriter : st'.writer = st.writer) (hwritten : st'.written = st.written)
    (hcompleted : st'.completed = st.completed) : st'.io.Inv := by
  have hio : st'.io = { st.io with reader := st'.io.reader } := by
    simp only [io, hstream, hwriter, hwritten, hcompleted]
  rw [hio]
  exact h.reader (io_reader_view st')

/-- Steps that are not about sending keep the invariant of the stream. -/
theorem SameSend.io (hsame : SameSend st st') (h : st.io.Inv) : st'.io.Inv :=
  io_inv h hsame.stream hsame.writer hsame.written hsame.completed

/-- The parts of `in` are the steps of the stream. -/
theorem goOn_io (h : st.io.Inv) {a : StreamAction} {io : StreamState BUFF_SIZE}
    (ha : goesOn a = true) (hio : st.io.step a = some io) : (st.goOn io).io = io := by
  obtain ⟨htaken, hreader, -⟩ := h.goesOn BUFF_SIZE_pos ha hio
  obtain ⟨stream, writer, reader, written, taken⟩ := io
  simp only [goOn, setIo, PipeUse.io] at htaken hreader ⊢
  rw [htaken, hreader]
  rfl

/-- What the completion of a send has brought is a part of the unread bytes. -/
theorem SendOps.taken (h : SendOps sNetSendSize st) {pk : Packet}
    (hw : st.worker = .outTake pk) :
    pk.result.nIOBytes ≤ st.pipe.m_oSendStream.unread.length ∧
      (pk.op.view.elim [] fun v => v.bytes.take pk.result.nIOBytes)
        = st.pipe.m_oSendStream.unread.take pk.result.nIOBytes := by
  have hslot : pk.op.slot = .m_pSendEvent := h.sent_slot pk (by rw [hw]; rfl)
  have hsound := h.sound pk (by rw [packets, hw]; exact List.mem_append_right _ (.head _)) hslot
  cases hview : pk.op.view with
  | none =>
      -- A posted packet has brought nothing.
      rw [hview] at hsound
      rw [Nat.le_zero.mp hsound]
      exact ⟨Nat.zero_le _, rfl⟩
  | some v =>
      rw [hview] at hsound
      have hop : pk.op ∈ st.outstanding := by
        refine mem_outstanding.mpr (.inr (.inr ?_))
        rw [hw]
        exact .head _
      obtain ⟨later, hlater⟩ := h.ahead (by rw [hw]; rfl) pk.op hop v hview
      rw [← hlater]
      refine ⟨?_, ?_⟩
      · rw [List.length_append]
        exact Nat.le_trans hsound (Nat.le_add_right _ _)
      · exact (List.take_append_of_le_length hsound).symm

/-- Every step keeps the invariant of the stream. -/
theorem SendOps.io_step {a : UseAction} (h : SendOps sNetSendSize st)
    (hd : Does sNetSendSize st a st') : st'.io.Inv := by
  cases hd with
  | AddClient client result => exact (AddClient_sameSend st client result).io h.io
  | CompletedAccept client result => exact (CompletedAccept_sameSend st client result).io h.io
  | Processing type queue nUse =>
      exact (Processing_sameSend st queue type nUse).io h.io
  | Send src => exact h.io.write BUFF_SIZE_pos src
  | append a io ha hio =>
      rw [goOn_io h.io ha hio]
      exact h.io.step BUFF_SIZE_pos hio
  | outTake ok pk hw =>
      obtain ⟨hle, htake⟩ := h.taken hw
      rw [htake]
      exact h.io.takeUnread hle (r := .locked) rfl
  | _ => exact io_inv h.io rfl rfl rfl rfl

/-! ### The operations on `m_pSendEvent` -/

/-- Only `Out` sets the flag, on an empty stream. -/
theorem Does.flag_set {a : UseAction} (hd : Does sNetSendSize st a st')
    (hflag : st'.pipe.m_bNeedPostOPT = true) :
    st.pipe.m_bNeedPostOPT = true ∨
      ∃ pk, st.worker = .outTest pk ∧ st'.issued = st.issued ∧ st'.port = st.port ∧
        st'.worker = .outStatus pk ∧ 0 = st.pipe.m_oSendStream.size := by
  cases hd with
  | AddClient client result =>
      exact .inl ((AddClient_sameSend st client result).flag.symm.trans hflag)
  | CompletedAccept client result =>
      exact .inl ((CompletedAccept_sameSend st client result).flag.symm.trans hflag)
  | Processing type queue nUse =>
      exact .inl ((Processing_sameSend st queue type nUse).flag.symm.trans hflag)
  | postSend => cases hflag
  | outEmpty ok pk hw hsize => exact .inr ⟨pk, hw, rfl, rfl, rfl, hsize⟩
  | _ => exact .inl hflag

/-- At most one operation is outstanding, and none while the flag is set. -/
theorem SendOps.count_step {a : UseAction} (h : SendOps sNetSendSize st)
    (hd : Does sNetSendSize st a st') :
    st'.outstandingOn .m_pSendEvent ≤ 1 ∧
      (st'.pipe.m_bNeedPostOPT = true → st'.outstandingOn .m_pSendEvent = 0) := by
  -- Where no send is started, only the end of a send can set the flag.
  have hless : st'.outstandingOn .m_pSendEvent ≤ st.outstandingOn .m_pSendEvent →
      st'.outstandingOn .m_pSendEvent ≤ 1 ∧
        (st'.pipe.m_bNeedPostOPT = true → st'.outstandingOn .m_pSendEvent = 0) := by
    intro hle
    refine ⟨Nat.le_trans hle h.one, fun hflag => ?_⟩
    rcases hd.flag_set hflag with hset | ⟨pk, hw, hissued, hport, hw', -⟩
    · exact Nat.le_zero.mp (h.free hset ▸ hle)
    · have hslot : pk.op.slot = .m_pSendEvent := h.sent_slot pk (by rw [hw]; rfl)
      have hone := h.one
      rw [outstandingOn_handling (by rw [hw]; rfl) hslot] at hone
      rw [outstandingOn, PipeUse.outstanding, hissued, hport, hw']
      simp only [UseWorker.handling, List.append_nil]
      omega
  rcases hd.outstanding with hsub | ⟨op, hstarts, hsub⟩
  · exact hless (hsub.countP_le _)
  · have hle := hsub.countP_le fun op => decide (op.slot = .m_pSendEvent)
    cases hstarts with
    | recv hslot =>
        rw [List.countP_cons_of_neg (by simp [hslot])] at hle
        exact hless hle
    | post _ hslot _ _ _ hset hclear =>
        rw [List.countP_cons_of_pos (by simp [hslot]), show List.countP _ _ = 0 from h.free hset]
          at hle
        refine ⟨hle, fun hflag => ?_⟩
        rw [hclear] at hflag
        cases hflag
    | WSASend pk long hw hslot _ _ hinstead =>
        obtain ⟨rest, hnew, hold⟩ := hinstead
        have hsent : pk.op.slot = .m_pSendEvent := h.sent_slot pk (by rw [hw]; rfl)
        refine hless (Nat.le_of_eq ?_)
        rw [outstandingOn, outstandingOn, hnew.countP_eq, hold.countP_eq,
          List.countP_cons_of_pos (by simp [hslot]), List.countP_cons_of_pos (by simp [hsent])]

/-- Only WSASend has a view. -/
theorem SendOps.view_slot_step {a : UseAction} (h : SendOps sNetSendSize st)
    (hd : Does sNetSendSize st a st') :
    ∀ op ∈ st'.outstanding, op.view ≠ none → op.slot = .m_pSendEvent := by
  intro op hop hview
  rcases hd.mem_outstanding hop with hold | hnew
  · exact h.view_slot op hold hview
  · cases hnew with
    | recv _ hnone => exact absurd hnone hview
    | post _ hslot => exact hslot
    | WSASend _ _ _ hslot => exact hslot

/-- What a step issues. -/
theorem Does.issued {a : UseAction} (hd : Does sNetSendSize st a st') {op : Overlapped}
    (hop : op ∈ st'.issued) : op ∈ st.issued ∨ op.slot = .m_pRecvEvent ∨ op.view ≠ none := by
  cases hd with
  | AddClient client result =>
      cases result with
      | noSocket | noPort | noConnect => exact .inl hop
      | pending socket =>
          rcases List.mem_append.mp hop with hold | hnew
          · exact .inl hold
          · rw [List.mem_singleton.mp hnew]
            exact .inr (.inl rfl)
  | CompletedAccept client result =>
      cases result <;> exact .inl hop
  | Processing type queue nUse =>
      rw [processEvent_issued] at hop
      exact .inl hop
  | complete i result op' hop' => exact .inl (List.mem_of_mem_eraseIdx hop)
  | recvIssue pk received hw =>
      rcases List.mem_append.mp hop with hold | hnew
      · exact .inl hold
      · rw [List.mem_singleton.mp hnew]
        exact .inr (.inl rfl)
  | outIssue pk long hw =>
      rcases List.mem_append.mp hop with hold | hnew
      · exact .inl hold
      · rw [List.mem_singleton.mp hnew]
        exact .inr (.inr nofun)
  | _ => exact .inl hop

/-- The packets stay in the port while the worker uses no result. -/
theorem mem_packets (st : PipeUse) {st' : PipeUse} {pk : Packet} (hpk : pk ∈ st'.packets)
    (hport : st'.port = st.port) (hworker : st'.worker.packet = []) : pk ∈ st.packets := by
  rw [packets, hport, hworker, List.append_nil] at hpk
  exact List.mem_append_left _ hpk

/-- Where a packet comes from: it is posted, or an operation completes. -/
theorem Does.packets {a : UseAction} (hd : Does sNetSendSize st a st') {pk : Packet}
    (hpk : pk ∈ st'.packets) :
    pk ∈ st.packets ∨ pk.result = .ofPacket ∨
      (pk.op ∈ st.issued ∧ ∀ v ∈ pk.op.view, pk.result.nIOBytes ≤ v.bytes.length) := by
  -- The packets of the next state are the old ones and perhaps a posted one.
  have hposted : ∀ {here : Prop} [Decidable here] {op : Overlapped},
      pk ∈ (st.port ++ if here then [({ op, result := .ofPacket } : Packet)] else []) ++
        st.worker.packet → pk ∈ st.packets ∨ pk.result = .ofPacket := by
    intro here _ op hpk
    rcases List.mem_append.mp hpk with hpk | hpk
    · rcases List.mem_append.mp hpk with hpk | hpk
      · exact .inl (List.mem_append_left _ hpk)
      · split at hpk
        · rw [List.mem_singleton.mp hpk]
          exact .inr rfl
        · cases hpk
    · exact .inl (List.mem_append_right _ hpk)
  cases hd with
  | AddClient client result =>
      cases result <;> exact .inl hpk
  | CompletedAccept client result =>
      cases result with
      | refused | noPort => exact .inl hpk
      | connected socket => exact (hposted hpk).imp_right .inl
  | postSend => exact (hposted hpk).imp_right .inl
  | Processing type queue nUse =>
      cases type with
      | RECV =>
          unfold processEvent at hpk
          dsimp only at hpk
          split at hpk <;> exact .inl hpk
      | BREAK | CONNECTFAILD | COUNT => exact .inl hpk
      | CONNECTED => exact (hposted hpk).imp_right .inl
  | complete i result op hop hle =>
      rcases List.mem_append.mp hpk with hpk | hpk
      · rcases List.mem_append.mp hpk with hpk | hpk
        · exact .inl (List.mem_append_left _ hpk)
        · -- The completed operation was issued, and it moved no more than it was given.
          rw [List.mem_singleton.mp hpk]
          exact .inr (.inr ⟨List.mem_of_getElem? hop, hle⟩)
      · exact .inl (List.mem_append_right _ hpk)
  | timeout pk' port hw hport =>
      -- A packet that the worker takes was in the port.
      refine .inl ?_
      rw [PipeUse.packets, hport]
      exact List.mem_cons_of_mem _ hpk
  | dequeue pk' port hw hport =>
      refine .inl ?_
      rw [PipeUse.packets, hport, hw]
      rcases List.mem_append.mp hpk with hpk | hpk
      · exact List.mem_cons_of_mem _ (List.mem_append_left _ hpk)
      · rw [List.mem_singleton.mp hpk]
        exact .head _
  | sendDone ok pk' hw =>
      refine .inl ?_
      rw [PipeUse.packets, hw]
      exact hpk
  | recvFlag ok pk' received | recvFail pk' received | recvIssue pk' received =>
      exact .inl (mem_packets st hpk rfl (recvDone_packet ..))
  | Send | append | leaveSend | Close | Recover => exact .inl hpk
  | _ => exact .inl (mem_packets st hpk rfl rfl)

/-- No completion of a send has brought more than the send was given, and a posted packet has
brought nothing. -/
theorem SendOps.sound_step {a : UseAction} (h : SendOps sNetSendSize st)
    (hd : Does sNetSendSize st a st') :
    ∀ pk ∈ st'.packets, pk.op.slot = .m_pSendEvent →
      pk.result.nIOBytes ≤ (pk.op.view.elim [] View.bytes).length := by
  intro pk hpk hslot
  rcases hd.packets hpk with hold | hposted | ⟨hissued, hle⟩
  · exact h.sound pk hold hslot
  · rw [hposted]
    exact Nat.zero_le _
  · cases hview : pk.op.view with
    | none => exact absurd hview (h.issued_view pk.op hissued hslot)
    | some v => exact hle v hview

/-- The worker handles a completion in `Out` when it was in `Out` with it before, or when it
takes it for a send. -/
theorem Does.sent {a : UseAction} (hd : Does sNetSendSize st a st') {pk : Packet}
    (hpk : st'.worker.sent = some pk) :
    st.worker.sent = some pk ∨
      (pk.op ∈ st.outstanding ∧ (st.event pk.op.slot).opt = .SO_TCPSEND) := by
  cases hd with
  | AddClient client result =>
      cases result <;> exact .inl hpk
  | CompletedAccept client result =>
      cases result <;> exact .inl hpk
  | Processing type queue nUse =>
      rw [processEvent_worker] at hpk
      exact .inl hpk
  | Send | append | postSend | leaveSend | Close | Recover | complete | timeout => exact .inl hpk
  | sendDone ok pk' hw hopt =>
      cases hpk
      refine .inr ⟨PipeUse.mem_outstanding.mpr (.inr (.inr ?_)), hopt⟩
      rw [hw]
      exact .head _
  | recvFlag ok pk' received | recvFail pk' received | recvIssue pk' received =>
      rw [recvDone_sent] at hpk
      cases hpk
  | outTake ok pk' hw | outRest ok pk' hw | outLook ok pk' hw =>
      rw [hw]
      exact .inl hpk
  | _ => cases hpk

/-- In `Out` the worker handles a send. -/
theorem SendOps.sent_slot_step {a : UseAction} (h : SendOps sNetSendSize st)
    (hd : Does sNetSendSize st a st') :
    ∀ pk, st'.worker.sent = some pk → pk.op.slot = .m_pSendEvent := by
  intro pk hpk
  rcases hd.sent hpk with hold | ⟨hop, hopt⟩
  · exact h.sent_slot pk hold
  · cases hslot : pk.op.slot with
    | m_pSendEvent => rfl
    | m_pRecvEvent =>
        rw [hslot] at hopt
        exact absurd hopt (h.slots.recv pk.op hop hslot)

/-! ### The bytes of a pending send -/

/-- Apart from `out`, a step leaves the unread bytes in front. -/
theorem SendOps.unread_step {a : UseAction} (h : SendOps sNetSendSize st)
    (hd : Does sNetSendSize st a st') :
    (∃ later, st'.pipe.m_oSendStream.unread = st.pipe.m_oSendStream.unread ++ later) ∨
      ∃ pk, st.worker = .outTake pk ∧ st'.worker = .outTest pk := by
  have hsame : st'.pipe.m_oSendStream = st.pipe.m_oSendStream →
      ∃ later, st'.pipe.m_oSendStream.unread = st.pipe.m_oSendStream.unread ++ later := by
    intro heq
    rw [heq]
    exact ⟨[], (List.append_nil _).symm⟩
  cases hd with
  | AddClient client result => exact .inl (hsame (AddClient_sameSend st client result).stream)
  | CompletedAccept client result =>
      exact .inl (hsame (CompletedAccept_sameSend st client result).stream)
  | Processing type queue nUse =>
      exact .inl (hsame (Processing_sameSend st queue type nUse).stream)
  | append a io ha hio => exact .inl (h.io.goesOn BUFF_SIZE_pos ha hio).2.2
  | outTake ok pk hw => exact .inr ⟨pk, hw, rfl⟩
  | _ => exact .inl (hsame rfl)

/-- The length that `Out` has compared `sLen` with does not become smaller. -/
theorem SendOps.long_step {a : UseAction} (h : SendOps sNetSendSize st)
    (hd : Does sNetSendSize st a st') :
    ∀ pk, st'.worker = .outIssue pk true →
      (sNetSendSize : Int) ≤ st'.pipe.m_oSendStream.size := by
  intro pk hw'
  rcases hd.at_outIssue hw' with hw | ⟨hpipe, hlong⟩
  · rcases h.unread_step hd with ⟨later, hunread⟩ | ⟨_, hother, -⟩
    · have hlen := congrArg List.length hunread
      rw [List.length_append, TStream.length_unread, TStream.length_unread] at hlen
      have hold := h.long pk hw
      have hle : st'.pipe.m_oSendStream.m_read ≤ st'.pipe.m_oSendStream.m_write :=
        (h.io_step hd).wf.read_le
      simp only [TStream.size] at hlen hold ⊢
      omega
    · rw [hw] at hother
      cases hother
  · rw [hpipe]
    exact of_decide_eq_true hlong.symm

/-- What WSASend is given are the first unread bytes. -/
theorem outView_bytes {p : CPipe} {long : Bool}
    (hlong : long = true → (sNetSendSize : Int) ≤ p.m_oSendStream.size) :
    (p.outView sNetSendSize long).bytes <+: p.m_oSendStream.unread := by
  have hle : (if long = true then (sNetSendSize : Int) else p.m_oSendStream.size).toNat
      ≤ p.m_oSendStream.size.toNat := by
    cases long with
    | true =>
        have := hlong rfl
        simp only [if_true]
        omega
    | false => exact Nat.le_refl _
  simp only [CPipe.outView]
  rw [TStream.slice_buff _ hle]
  exact List.take_prefix _ _

/-- Behind the locked section of `Out` the send that it handled is over, and the next one may
be on its way. -/
theorem Does.unlock {a : UseAction} (hd : Does sNetSendSize st a st')
    (hlocked : st.worker.locked = true) (hfree : st'.worker.locked = false) {op : Overlapped}
    (hop : op ∈ st'.outstanding) :
    op ∈ st.issued ++ st.port.map Packet.op ∨
      ∃ pk long, st.worker = .outIssue pk long ∧ st'.pipe = st.pipe ∧
        op.view = some (st.pipe.outView sNetSendSize long) := by
  have hkeep : st'.worker = st.worker → op ∈ st.issued ++ st.port.map Packet.op ∨
      ∃ pk long, st.worker = .outIssue pk long ∧ st'.pipe = st.pipe ∧
        op.view = some (st.pipe.outView sNetSendSize long) := by
    intro hsame
    rw [hsame, hlocked] at hfree
    cases hfree
  cases hd with
  | AddClient client result => cases result <;> exact hkeep rfl
  | CompletedAccept client result => cases result <;> exact hkeep rfl
  | Processing type queue nUse => exact hkeep (processEvent_worker ..)
  | Send | append | postSend | leaveSend | Close | Recover | complete | timeout => exact hkeep rfl
  -- These stay in the locked section.
  | outRest | outLook | outTake => cases hfree
  | outEmpty | outFail =>
      exact .inl
        (by simpa only [PipeUse.outstanding, UseWorker.handling, List.append_nil] using hop)
  | outIssue pk long hw =>
      rcases PipeUse.mem_outstanding.mp hop with hissued | hport | hnil
      · rcases List.mem_append.mp hissued with hold | hnew
        · exact .inl (List.mem_append_left _ hold)
        · rw [List.mem_singleton.mp hnew]
          exact .inr ⟨pk, long, hw, rfl, rfl⟩
      · exact .inl (List.mem_append_right _ (List.mem_map.mpr hport))
      · cases hnil
  | dequeue pk port hw =>
      rw [hw] at hlocked
      cases hlocked
  | connect ok pk hw | accept ok pk hw | ignore ok pk hw | received ok pk hw | recvEnd ok pk hw
  | sendDone ok pk hw | sendError ok pk hw | acceptStatus ok pk hw | acceptClosed ok pk hw
  | acceptEnd ok pk hw | acceptSilent ok pk hw | recvIssue pk received hw
  | recvFail pk received hw | recvClosed ok pk received hw | recvFlag ok pk received hw
  | addRecv ok hw | outOpen ok pk hw | outClose ok pk hw | disconnect ok graceful socket hw
  | disconnected ok graceful socket hw =>
      -- The worker is not in the locked section at any of the other steps.
      rw [hw] at hlocked
      cases hlocked

/-- In the locked section of `Out` the worker handles a send. -/
theorem locked_sent (hlocked : st.worker.locked = true) :
    ∃ pk, st.worker.sent = some pk ∧ st.worker.handling = [pk.op] := by
  cases hw : st.worker with
  | outTest pk | outLook pk | outIssue pk long => exact ⟨pk, rfl, rfl⟩
  | _ =>
      rw [hw] at hlocked
      cases hlocked

/-- While the worker handles a send, no other operation has a view. -/
theorem SendOps.no_other_view (h : SendOps sNetSendSize st) {pk : Packet}
    (hsent : st.worker.sent = some pk) (hw : st.worker.handling = [pk.op]) {op : Overlapped}
    (hop : op ∈ st.issued ++ st.port.map Packet.op) : op.view = none := by
  by_contra hview
  have hslot : op.slot = .m_pSendEvent := by
    refine h.view_slot op ?_ hview
    rw [PipeUse.outstanding]
    exact List.mem_append_left _ hop
  have hone := h.one
  rw [outstandingOn_handling hw (h.sent_slot pk hsent)] at hone
  have hpos : 0 < (st.issued ++ st.port.map Packet.op).countP
      (fun op => decide (op.slot = .m_pSendEvent)) :=
    List.countP_pos_iff.mpr ⟨op, hop, decide_eq_true hslot⟩
  omega

/-- The bytes of a pending send are the first unread ones. -/
theorem SendOps.ahead_step {a : UseAction} (h : SendOps sNetSendSize st)
    (hd : Does sNetSendSize st a st') (hfree : st'.worker.locked = false) :
    ∀ op ∈ st'.outstanding, ∀ v, op.view = some v →
      v.bytes <+: st'.pipe.m_oSendStream.unread := by
  intro op hop v hview
  cases hlocked : st.worker.locked with
  | true =>
      obtain ⟨pk, hsent, hw⟩ := locked_sent hlocked
      rcases hd.unlock hlocked hfree hop with hother | ⟨pk', long, hissue, hpipe, hnew⟩
      · -- Only the handled send had a view.
        rw [h.no_other_view hsent hw hother] at hview
        cases hview
      · -- The next send is given bytes of the stream as it is.
        rw [hnew, Option.some.injEq] at hview
        rw [← hview, hpipe]
        exact outView_bytes fun hlong => h.long pk' (hlong ▸ hissue)
  | false =>
      rcases h.unread_step hd with ⟨later, hunread⟩ | ⟨pk, -, hw'⟩
      · rcases hd.mem_outstanding hop with hold | hnew
        · rw [hunread]
          -- The stream only grew behind the bytes of the send.
          exact (h.ahead hlocked op hold v hview).trans (List.prefix_append _ _)
        · cases hnew with
          | recv _ hnone | post _ _ hnone =>
              rw [hnone] at hview
              cases hview
          | WSASend pk long hw =>
              rw [hw] at hlocked
              cases hlocked
      · rw [hw'] at hfree
        cases hfree

/-- A pipe that leaves the pool with its offsets in order satisfies the invariant. -/
theorem sendOps_init {p : CPipe} (hp : p.m_oSendStream.WellFormed) (w : Nat) :
    SendOps sNetSendSize (init p w) where
  slots := slots_init p w
  io :=
    { wf := hp
      fits := trivial
      fifo := rfl
      view := fun v hv => by cases hv
      looking := fun v hv => by cases hv }
  one := Nat.zero_le 1
  free _ := rfl
  view_slot _ hop := by cases hop
  issued_view _ hop := by cases hop
  sound _ hpk := by cases hpk
  sent_slot _ hpk := by cases hpk
  long _ hw := by cases hw
  ahead _ _ hop := by cases hop

/-- Every step keeps the invariant. -/
theorem SendOps.step {a : UseAction} (h : SendOps sNetSendSize st)
    (hd : Does sNetSendSize st a st') : SendOps sNetSendSize st' where
  slots := h.slots.step hd
  io := h.io_step hd
  one := (h.count_step hd).1
  free := (h.count_step hd).2
  view_slot := h.view_slot_step hd
  issued_view op hop hslot := by
    rcases hd.issued hop with hold | hrecv | hview
    · exact h.issued_view op hold hslot
    · rw [hrecv] at hslot
      cases hslot
    · exact hview
  sound := h.sound_step hd
  sent_slot := h.sent_slot_step hd
  long := h.long_step hd
  ahead := h.ahead_step hd

end PipeUse

end Iocp

end Kernel4GameServer
