import Kernel4GameServer.Proofs.Net.Iocp.Callbacks
import Kernel4GameServer.Proofs.Net.Iocp.PipeSend

/-!
# `Kernel4GameServer.Proofs.Net.Iocp.SendLife`: `Send` hands its bytes to `Out`

A fresh pipe, whose session sends only behind `OnConnected`. The main thread clears
`m_bNeedPostOPT` and posts a packet, the worker sets the flag when it has sent everything. So
while the connection is there and no send fails, a pipe with bytes to send has an operation on
`m_pSendEvent` outstanding.

* `linked` is the time from `OnConnected` to the disconnect, `registered` the part of it in
  which the pipe is in the map of its worker.
* `AcceptFirst`: before that, the packet for SO_ACCEPT is in front of every other one.
* `Does.sends_kept`: which steps end an operation on `m_pSendEvent`.
* `SendLife.step`: every step keeps the hand-off.
-/

set_option autoImplicit false

namespace Kernel4GameServer.Iocp

open Lib

/-- The worker has found the pipe in its map, and has not taken it out again. -/
def UseWorker.inside : UseWorker → Bool
  | .wait => false
  | .dispatch _ => false
  | .disconnect graceful _ => graceful
  | _ => true

namespace PipeUse

variable {sNetSendSize : Nat} {st st' : PipeUse}

/-- From `OnConnected` until a disconnect is queued. -/
def linked (st : PipeUse) : Prop := .OnConnected ∈ st.callbacks ∧ .BREAK ∉ st.queued

/-- The pipe is in the map of its worker. -/
def registered (st : PipeUse) : Prop := ∃ socket, st.m_mapSocketClient socket = true

/-! ### Callbacks and events -/

/-- An event of the main thread calls the session once, or not at all. -/
theorem processEvent_callbacks (st : PipeUse) (type : IoEventType) (nUse : Int) :
    st.callbacks <+: (st.processEvent type nUse).callbacks := by
  cases type with
  | RECV =>
      unfold processEvent
      dsimp only
      split
      · exact List.prefix_append _ _
      · exact List.prefix_rfl
  | BREAK | CONNECTED | CONNECTFAILD => exact List.prefix_append _ _
  | COUNT => exact List.prefix_rfl

/-- An event of the main thread queues nothing. -/
theorem processEvent_queued (st : PipeUse) (type : IoEventType) (nUse : Int) :
    (st.processEvent type nUse).queued = st.queued := by
  cases type with
  | RECV =>
      unfold processEvent
      dsimp only
      split <;> rfl
  | BREAK | CONNECTED | CONNECTFAILD | COUNT => rfl

/-- The callbacks and the queued events only get more. -/
theorem Does.grows {a : UseAction} (hd : Does sNetSendSize st a st') :
    st.callbacks <+: st'.callbacks ∧ st.queued <+: st'.queued := by
  cases hd with
  | AddClient client result =>
      cases result with
      | noSocket | noPort | noConnect => exact ⟨List.prefix_append _ _, List.prefix_rfl⟩
      | pending => exact ⟨List.prefix_rfl, List.prefix_rfl⟩
  | CompletedAccept client result =>
      cases result with
      | refused => exact ⟨List.prefix_rfl, List.prefix_rfl⟩
      | noPort | connected => exact ⟨List.prefix_append _ _, List.prefix_rfl⟩
  | Processing type queue nUse =>
      refine ⟨processEvent_callbacks { st with m_oEventQueue := queue } type nUse, ?_⟩
      simp only [processEvent_queued, List.prefix_rfl]
  | connect | addRecv | disconnect => exact ⟨List.prefix_rfl, List.prefix_append _ _⟩
  | _ => exact ⟨List.prefix_rfl, List.prefix_rfl⟩

/-- A pipe in the map belongs to a connection. -/
theorem Life.linked_of_registered {g : Stage} (h : Life st g) (hreg : st.registered) :
    st.linked := by
  obtain ⟨socket, hmap⟩ := hreg
  have hg := h.opened_of_map hmap
  subst hg
  obtain ⟨n, hn⟩ := h.callbacks
  exact ⟨by rw [hn]; exact .head _, h.unbroken (by simp) (by simp)⟩

/-- Before its use begins a session gets no callback. -/
theorem Life.callbacks_of_created {g : Stage} (h : Life st g) (hphase : st.phase = .created) :
    st.callbacks = [] := by
  have hg := h.started.mp hphase
  subst hg
  exact h.callbacks

/-- CONNECTED is queued when the connect is decided. -/
theorem Life.decided_of_connected {g : Stage} (h : Life st g) {queue : List IoEventType}
    (hqueue : st.m_oEventQueue = .CONNECTED :: queue) : g = .decided := by
  have hq := h.queue
  rw [hqueue] at hq
  cases g with
  | decided => rfl
  | created | connecting | accepting | ended => cases hq
  | opened | broken =>
      obtain ⟨n, hn⟩ := hq
      cases n <;> cases hn

/-- So far the session got no callback. -/
theorem Life.callbacks_of_connected {g : Stage} (h : Life st g) {queue : List IoEventType}
    (hqueue : st.m_oEventQueue = .CONNECTED :: queue) : st.callbacks = [] := by
  have hg := h.decided_of_connected hqueue
  subst hg
  exact h.callbacks

/-- The packet for SO_ACCEPT is in front of every other one, or the worker has just got it. -/
def AcceptFirst (st : PipeUse) : Prop :=
  st.pipe.m_pRecvEvent.opt = .SO_ACCEPT ∧
    ((st.worker.handling = [] ∧
        ∃ op rest, st.port = { op, result := .ofPacket } :: rest ∧ op.slot = .m_pRecvEvent) ∨
      ∃ pk, st.worker = .dispatch pk ∧ pk.op.slot = .m_pRecvEvent)

/-- Nothing has been sent. -/
structure Unsent (st : PipeUse) : Prop where
  sent : st.sent = []
  written : st.written = []
  writer : st.writer = .idle
  sending : st.sending = false
  flag : st.pipe.m_bNeedPostOPT = true
  beforeClose : st.beforeClose = []

/-- What the hand-off between `Send` and `Out` rests on. -/
structure SendLife (st : PipeUse) : Prop where
  early : .OnConnected ∉ st.callbacks → st.Unsent
  bytes : st.written ++ st.writer.pending = st.sent
  writing : st.writer ≠ .idle → st.sending = false
  emptied : st.pipe.m_bNeedPostOPT = true → st.sending = false → st.completed = st.written
  own : .OnConnected ∈ st.callbacks ∨ (st.phase = .live ∧ st.callbacks = []) →
    st.pipe.m_hCompletionPort = some st.w
  key : st.linked → ∀ op ∈ st.outstanding, op.slot = .m_pSendEvent →
    op.socket_handler = st.pipe.m_lSocketHandler
  map : ∀ s, st.m_mapSocketClient s = true → s = st.pipe.m_lSocketHandler
  inside : st.worker.inside = true → st.registered
  first : st.linked → ¬ st.registered → st.AcceptFirst
  alive : st.linked → st.sendFailed = false → st.pipe.m_bNeedPostOPT = false →
    0 < st.outstandingOn .m_pSendEvent

/-! ### The end of an operation on `m_pSendEvent` -/

/-- Where nothing is taken away, no operation ends. -/
theorem outstandingOn_mono {slot : EventSlot} (hissued : st.issued.Sublist st'.issued)
    (hport : st.port.Sublist st'.port)
    (hworker : st.worker.handling.Sublist st'.worker.handling) :
    st.outstandingOn slot ≤ st'.outstandingOn slot :=
  ((hissued.append (hport.map _)).append hworker).countP_le

/-- A worker that is done with an operation of `m_pRecvEvent` ends no send. -/
theorem sends_kept_of_recv {op : Overlapped} (hw : st.worker.handling = [op])
    (hslot : op.slot = .m_pRecvEvent) (hissued : st'.issued = st.issued)
    (hport : st'.port = st.port) :
    st.outstandingOn .m_pSendEvent ≤ st'.outstandingOn .m_pSendEvent := by
  rw [outstandingOn, (handling_perm hw).countP_eq,
    List.countP_cons_of_neg (by rw [hslot]; decide), ← hissued, ← hport]
  exact (List.sublist_append_left _ _).countP_le

/-- A step that ends an operation on `m_pSendEvent` is a failure, the end of all sends, or one
that does not find the socket in the map. -/
theorem Does.sends_kept {a : UseAction} (hs : st.Slots) (hd : Does sNetSendSize st a st') :
    st.outstandingOn .m_pSendEvent ≤ st'.outstandingOn .m_pSendEvent ∨
      st'.sendFailed = true ∨ st'.pipe.m_bNeedPostOPT = true ∨
      ∃ pk, st.worker = .dispatch pk ∧ pk.op.slot = .m_pSendEvent ∧
        st.m_mapSocketClient pk.op.socket_handler = false := by
  have hsame : st'.issued = st.issued → st'.port = st.port →
      st'.worker.handling = st.worker.handling →
      st.outstandingOn .m_pSendEvent ≤ st'.outstandingOn .m_pSendEvent := by
    intro hissued hport hworker
    rw [outstandingOn, outstandingOn, PipeUse.outstanding, PipeUse.outstanding, hissued, hport,
      hworker]
  cases hd with
  | AddClient client result =>
      cases result with
      | noSocket | noPort | noConnect => exact .inl (hsame rfl rfl rfl)
      | pending =>
          exact .inl (outstandingOn_mono (List.sublist_append_left _ _) (List.Sublist.refl _)
            (List.Sublist.refl _))
  | CompletedAccept client result =>
      cases result with
      | refused | noPort => exact .inl (hsame rfl rfl rfl)
      | connected =>
          exact .inl (outstandingOn_mono (List.Sublist.refl _) (List.sublist_append_left _ _)
            (List.Sublist.refl _))
  | Processing type queue nUse =>
      cases type with
      | RECV =>
          refine .inl ?_
          unfold processEvent
          dsimp only
          split <;> exact Nat.le_refl _
      | BREAK | CONNECTFAILD | COUNT => exact .inl (hsame rfl rfl rfl)
      | CONNECTED =>
          exact .inl (outstandingOn_mono (List.Sublist.refl _) (List.sublist_append_left _ _)
            (List.Sublist.refl _))
  | Send | append | leaveSend | Close | Recover => exact .inl (hsame rfl rfl rfl)
  | postSend =>
      exact .inl (outstandingOn_mono (List.Sublist.refl _) (List.sublist_append_left _ _)
        (List.Sublist.refl _))
  | complete i result op hop =>
      exact .inl (Nat.le_of_eq ((complete_perm hop result).countP_eq _).symm)
  | timeout pk port hw hport =>
      cases hslot : pk.op.slot with
      | m_pSendEvent => exact .inr (.inl (by simp))
      | m_pRecvEvent =>
          -- The packet that is dropped is not of a send.
          refine .inl ?_
          simp only [outstandingOn, PipeUse.outstanding, hport, List.map_cons, List.countP_append]
          rw [List.countP_cons_of_neg (by rw [hslot]; decide)]
  | dequeue pk port hw hport =>
      exact .inl (Nat.le_of_eq ((dequeue_perm hw hport).countP_eq _).symm)
  | connect ok pk hw hopt | accept ok pk hw hopt | received ok pk hw hopt
  | recvEnd ok pk hw hopt =>
      exact .inl (sends_kept_of_recv (by rw [hw]; rfl)
        (hs.recv_of_opt hw (by rw [hopt]; decide)) rfl rfl)
  | ignore ok pk hw hopt hmap =>
      cases hslot : pk.op.slot with
      | m_pRecvEvent => exact .inl (sends_kept_of_recv (by rw [hw]; rfl) hslot rfl rfl)
      | m_pSendEvent => exact .inr (.inr (.inr ⟨pk, hw, hslot, hmap⟩))
  | sendError | outFail => exact .inr (.inl rfl)
  | outEmpty => exact .inr (.inr (.inl rfl))
  | sendDone ok pk hw | outTake ok pk hw | outRest ok pk hw | outLook ok pk hw
  | acceptStatus ok pk hw | acceptClosed ok pk hw | acceptEnd ok pk hw | acceptSilent ok pk hw
  | recvClosed ok pk received hw | addRecv ok hw | outOpen ok pk hw | outClose ok pk hw
  | disconnect ok graceful socket hw | disconnected ok graceful socket hw =>
      exact .inl (hsame rfl rfl (by rw [hw]; rfl))
  | recvIssue pk received hw =>
      refine .inl (outstandingOn_mono (List.sublist_append_left _ _) (List.Sublist.refl _) ?_)
      rw [hw]
      exact List.nil_sublist _
  | recvFail pk received hw | recvFlag ok pk received hw =>
      exact .inl (hsame rfl rfl (by rw [recvDone_handling, hw]; rfl))
  | outIssue pk long hw =>
      -- The new send takes the place of the one that was handled.
      refine .inl ?_
      rw [outstandingOn, (handling_perm (by rw [hw]; rfl)).countP_eq]
      simp only [outstandingOn, PipeUse.outstanding, issue, UseWorker.handling, List.append_nil,
        List.countP_append, List.countP_cons, List.countP_nil, decide_true, if_true]
      split <;> omega

/-! ### The begin of a connection -/

/-- `OnConnected` is called, and the packet for SO_ACCEPT is posted. -/
structure Links (st st' : PipeUse) : Prop where
  calls : st.callbacks = []
  idle : st.outstandingOn .m_pRecvEvent = 0
  worker : st'.worker = st.worker
  issued : st'.issued = st.issued
  port : ∃ op, st'.port = st.port ++ [{ op, result := .ofPacket }] ∧ op.slot = .m_pRecvEvent
  own : st'.pipe.m_hCompletionPort = some st'.w
  opt : st'.pipe.m_pRecvEvent.opt = .SO_ACCEPT

/-- A pipe behind `establish` and `OnConnected`. What is outstanding at `now` is what was so in
front of the step. -/
theorem links_of_establish {now : PipeUse} (hcalls : st.callbacks = [])
    (hidle : st.outstandingOn .m_pRecvEvent = 0) (hworker : now.worker = st.worker)
    (hissued : now.issued = st.issued) (hport : now.port = st.port)
    (hown : now.pipe.m_hCompletionPort = some now.w) :
    Links st (now.establish.call .OnConnected) where
  calls := hcalls
  idle := hidle
  worker := hworker
  issued := hissued
  port := ⟨⟨.m_pRecvEvent, now.pipe.m_lSocketHandler, none⟩, by
    show now.port ++ (if now.pipe.m_hCompletionPort = some now.w then _ else []) = _
    rw [if_pos hown, hport]
    rfl, rfl⟩
  own := hown
  opt := rfl

/-- A session that is connected behind a step was so before, or the step connects it. -/
theorem SendLife.connected_step {g : Stage} {a : UseAction} (h : SendLife st) (hlife : Life st g)
    (hd : Does sNetSendSize st a st') (hcalled : .OnConnected ∈ st'.callbacks) :
    .OnConnected ∈ st.callbacks ∨ Links st st' := by
  have hother : ∀ {c : SessionCallback}, c ≠ .OnConnected →
      .OnConnected ∈ st.callbacks ++ [c] → .OnConnected ∈ st.callbacks := by
    intro c hc hin
    rcases List.mem_append.mp hin with hin | hin
    · exact hin
    · exact absurd (List.mem_singleton.mp hin).symm hc
  cases hd with
  | AddClient client result =>
      cases result with
      | noSocket | noPort | noConnect => exact .inl (hother (by simp) hcalled)
      | pending => exact .inl hcalled
  | CompletedAccept client result hphase =>
      cases result with
      | refused => exact .inl hcalled
      | noPort => exact .inl (hother (by simp) hcalled)
      | connected socket =>
          have hg := hlife.started.mp hphase
          subst hg
          exact .inr (links_of_establish hlife.callbacks (hlife.fresh _) rfl rfl rfl rfl)
  | Processing type queue nUse _ _ hphase hqueue =>
      cases type with
      | RECV =>
          unfold processEvent at hcalled
          dsimp only at hcalled
          split at hcalled
          · exact .inl (hother (by simp) hcalled)
          · exact .inl hcalled
      | BREAK | CONNECTFAILD => exact .inl (hother (by simp) hcalled)
      | COUNT => exact .inl hcalled
      | CONNECTED =>
          have hg := hlife.decided_of_connected hqueue
          have hcalls := hlife.callbacks_of_connected hqueue
          exact .inr (links_of_establish hcalls (hlife.decided hg) rfl rfl rfl
            (h.own (.inr ⟨hphase, hcalls⟩)))
  | _ => exact .inl hcalled

/-- A connection that is there behind a step was there before, or the step begins it. -/
theorem SendLife.linked_step {g : Stage} {a : UseAction} (h : SendLife st) (hlife : Life st g)
    (hd : Does sNetSendSize st a st') (hlinked : st'.linked) : st.linked ∨ Links st st' :=
  (h.connected_step hlife hd hlinked.1).imp_left fun hcalled =>
    ⟨hcalled, fun hbreak => hlinked.2 (hd.grows.2.subset hbreak)⟩

/-- Where nothing is outstanding, nothing is posted or handled. -/
theorem port_of_no_operation (hrecv : st.outstandingOn .m_pRecvEvent = 0)
    (hsend : st.outstandingOn .m_pSendEvent = 0) :
    st.port = [] ∧ st.worker.handling = [] := by
  have hnil : st.outstanding = [] := by
    refine List.eq_nil_iff_forall_not_mem.mpr fun op hop => ?_
    cases hslot : op.slot with
    | m_pRecvEvent => exact List.countP_eq_zero.mp hrecv op hop (by simp [hslot])
    | m_pSendEvent => exact List.countP_eq_zero.mp hsend op hop (by simp [hslot])
  rw [outstanding, List.append_eq_nil_iff, List.append_eq_nil_iff] at hnil
  exact ⟨List.map_eq_nil_iff.mp hnil.1.2, hnil.2⟩

/-! ### What a step keeps -/

/-- The session sends behind `OnConnected` only. -/
def sendsLate (st : PipeUse) : UseAction → Bool
  | .Send _ => decide (.OnConnected ∈ st.callbacks)
  | _ => true

/-- Steps that are not about sending send nothing. -/
theorem SameSend.unsent (hsame : SameSend st st') (h : st.Unsent) : st'.Unsent where
  sent := hsame.sent.trans h.sent
  written := hsame.written.trans h.written
  writer := hsame.writer.trans h.writer
  sending := hsame.sending.trans h.sending
  flag := hsame.flag.trans h.flag
  beforeClose := hsame.beforeClose.trans h.beforeClose

/-- A session that is not connected has not sent anything. -/
theorem SendLife.early_step {a : UseAction} (h : SendLife st)
    (hlate : st.sendsLate a = true) (hd : Does sNetSendSize st a st')
    (hfresh : .OnConnected ∉ st'.callbacks) : st'.Unsent := by
  have hold := h.early fun hmem => hfresh (hd.grows.1.subset hmem)
  cases hd with
  | AddClient client result => exact (AddClient_sameSend st client result).unsent hold
  | CompletedAccept client result => exact (CompletedAccept_sameSend st client result).unsent hold
  | Processing type queue nUse =>
      exact (Processing_sameSend st queue type nUse).unsent hold
  | Send src => exact absurd (of_decide_eq_true hlate) hfresh
  | append a io ha hio =>
      -- A writer outside has no part of `in` to run.
      have hwriter : st.io.writer = .idle := hold.writer
      cases StreamState.step_cases hio with
      | write | lock | look | out | free => cases ha
      | stay _ hw | relocate _ _ hw | copy _ hw | advance _ hw =>
          rw [hwriter] at hw
          cases hw
  | postSend hsending | leaveSend hsending =>
      rw [hold.sending] at hsending
      cases hsending
  | Close =>
      have hbefore : st.Close.beforeClose = [] := by
        unfold Close
        dsimp only
        split
        · exact hold.written
        · exact hold.beforeClose
      exact ⟨hold.sent, hold.written, hold.writer, hold.sending, hold.flag, hbefore⟩
  | outEmpty => exact ⟨hold.sent, hold.written, hold.writer, hold.sending, rfl, hold.beforeClose⟩
  | _ =>
      exact ⟨hold.sent, hold.written, hold.writer, hold.sending, hold.flag, hold.beforeClose⟩

/-- What is written and what the running `in` still has are the arguments of all `Send`
calls. -/
theorem SendLife.bytes_step {a : UseAction} (h : SendLife st)
    (hd : Does sNetSendSize st a st') : st'.written ++ st'.writer.pending = st'.sent := by
  have hsame : SameSend st st' → st'.written ++ st'.writer.pending = st'.sent := by
    intro hs
    rw [hs.sent, hs.written, hs.writer]
    exact h.bytes
  cases hd with
  | AddClient client result => exact hsame (AddClient_sameSend st client result)
  | CompletedAccept client result => exact hsame (CompletedAccept_sameSend st client result)
  | Processing type queue nUse => exact hsame (Processing_sameSend st queue type nUse)
  | Send src _ _ hidle =>
      have hold := h.bytes
      rw [hidle, StreamWriter.pending, List.append_nil] at hold
      show st.written ++ src = st.sent ++ src
      rw [hold]
  | append a io ha hio =>
      have hold := h.bytes
      cases StreamState.step_cases hio with
      | write | lock | look | out | free => cases ha
      | stay src hw | relocate plan src hw | copy src hw =>
          have hw' : st.writer = _ := hw
          rw [hw'] at hold
          exact hold
      | advance src hw =>
          have hw' : st.writer = _ := hw
          rw [hw'] at hold
          show (st.written ++ src) ++ [] = st.sent
          rw [List.append_nil]
          exact hold
  | _ => exact h.bytes

/-- The main thread is not in front of the locked section while `in` runs. -/
theorem SendLife.writing_step {a : UseAction} (h : SendLife st) (hd : Does sNetSendSize st a st')
    (hwriter : st'.writer ≠ .idle) : st'.sending = false := by
  have hsame : SameSend st st' → st'.sending = false := by
    intro hs
    rw [hs.writer] at hwriter
    rw [hs.sending]
    exact h.writing hwriter
  cases hd with
  | AddClient client result => exact hsame (AddClient_sameSend st client result)
  | CompletedAccept client result => exact hsame (CompletedAccept_sameSend st client result)
  | Processing type queue nUse => exact hsame (Processing_sameSend st queue type nUse)
  | Send src _ hsending => exact hsending
  | append a io ha hio =>
      have hwriter : io.writer ≠ .idle := hwriter
      unfold goOn
      dsimp only
      split
      · rename_i hidle
        exact absurd hidle hwriter
      · rfl
  | postSend | leaveSend => rfl
  | _ => exact h.writing hwriter

/-- When `Out` finds the stream empty, everything that was written has completed. -/
theorem SendOps.completed_of_empty (h : SendOps sNetSendSize st)
    (hsize : 0 = st.pipe.m_oSendStream.size) : st.completed = st.written := by
  have hlen := TStream.length_unread st.pipe.m_oSendStream
  have hempty : st.pipe.m_oSendStream.unread = [] := by
    refine List.length_eq_zero_iff.mp (hlen.trans ?_)
    rw [← hsize]
    rfl
  have hfifo : st.completed ++ st.pipe.m_oSendStream.unread = st.written := h.io.fifo
  rw [hempty, List.append_nil] at hfifo
  exact hfifo

/-- While the flag is set the worker handles no send. -/
theorem SendOps.not_sending (h : SendOps sNetSendSize st) (hflag : st.pipe.m_bNeedPostOPT = true)
    {op : Overlapped} (hop : op ∈ st.outstanding) : op.slot ≠ .m_pSendEvent := by
  intro hslot
  have hzero := List.countP_eq_zero.mp (h.free hflag) op hop
  exact hzero (decide_eq_true hslot)

/-- While the flag is set and no `Send` is on its way, everything has completed. -/
theorem SendLife.emptied_step {a : UseAction} (h : SendLife st) (hops : SendOps sNetSendSize st)
    (hd : Does sNetSendSize st a st') (hflag : st'.pipe.m_bNeedPostOPT = true)
    (hsending : st'.sending = false) : st'.completed = st'.written := by
  have hsame : SameSend st st' → st'.completed = st'.written := by
    intro hs
    rw [hs.flag] at hflag
    rw [hs.sending] at hsending
    rw [hs.completed, hs.written]
    exact h.emptied hflag hsending
  cases hd with
  | AddClient client result => exact hsame (AddClient_sameSend st client result)
  | CompletedAccept client result => exact hsame (CompletedAccept_sameSend st client result)
  | Processing type queue nUse => exact hsame (Processing_sameSend st queue type nUse)
  | append a io ha hio =>
      have hold : st.writer ≠ .idle → st.completed = st.written :=
        fun hwriter => h.emptied hflag (h.writing hwriter)
      cases StreamState.step_cases hio with
      | write | lock | look | out | free => cases ha
      | stay src hw | copy src hw | relocate plan src hw =>
          exact hold fun hidle => by
            have hw : st.writer = _ := hw
            rw [hidle] at hw
            cases hw
      -- Behind the last part of `in` the `Send` is in front of its locked section.
      | advance src hw => cases hsending
  | postSend => cases hflag
  | leaveSend _ _ hclear =>
      have hflag : st.pipe.m_bNeedPostOPT = true := hflag
      rw [hclear] at hflag
      cases hflag
  | outTake ok pk hw =>
      refine absurd (hops.sent_slot pk (by rw [hw]; rfl)) (hops.not_sending hflag ?_)
      rw [mem_outstanding, hw]
      exact .inr (.inr (.head _))
  | outEmpty ok pk hw hsize => exact hops.completed_of_empty hsize
  | _ => exact h.emptied hflag hsending

/-- The port of a pipe is set when its use begins. -/
theorem Does.port_kept {a : UseAction} (hd : Does sNetSendSize st a st') :
    (st'.pipe.m_hCompletionPort = st.pipe.m_hCompletionPort ∧ st'.w = st.w ∧
        (st'.phase = .live → st.phase = .live)) ∨
      st.phase = .created := by
  cases hd with
  | AddClient client result hphase => exact .inr hphase
  | CompletedAccept client result hphase => exact .inr hphase
  | Processing type queue nUse _ _ hphase =>
      cases type with
      | RECV =>
          unfold processEvent
          dsimp only
          split <;> exact .inl ⟨rfl, rfl, fun _ => hphase⟩
      | BREAK | CONNECTED | CONNECTFAILD | COUNT => exact .inl ⟨rfl, rfl, fun _ => hphase⟩
  | Recover => exact .inl ⟨rfl, rfl, fun hlive => by cases hlive⟩
  | _ => exact .inl ⟨rfl, rfl, id⟩

/-- The pipe of a connection belongs to the port of the worker. -/
theorem SendLife.own_step {g : Stage} {a : UseAction} (h : SendLife st) (hlife : Life st g)
    (hd : Does sNetSendSize st a st')
    (hlive : .OnConnected ∈ st'.callbacks ∨ (st'.phase = .live ∧ st'.callbacks = [])) :
    st'.pipe.m_hCompletionPort = some st'.w := by
  rcases hd.port_kept with ⟨hport, hw, hphase⟩ | hcreated
  · rw [hport, hw]
    rcases hlive with hcalled | ⟨hlive, hcalls⟩
    · rcases h.connected_step hlife hd hcalled with hcalled | hlinks
      · exact h.own (.inl hcalled)
      · rw [← hport, ← hw]
        exact hlinks.own
    · exact h.own (.inr ⟨hphase hlive, List.prefix_nil.mp (hcalls ▸ hd.grows.1)⟩)
  · rcases hlive with hcalled | ⟨hlive, hcalls⟩
    · rcases h.connected_step hlife hd hcalled with hcalled | hlinks
      · rw [hlife.callbacks_of_created hcreated] at hcalled
        cases hcalled
      · exact hlinks.own
    · cases hd with
      | AddClient client result =>
          cases result with
          | noSocket | noPort | noConnect => cases hlive
          | pending socket => rfl
      | CompletedAccept client result =>
          cases result with
          | refused => cases hlive
          | noPort socket => simp [CompletedAccept, call] at hcalls
          | connected socket => rfl
      | Send _ hphase | Close _ hphase =>
          rw [hcreated] at hphase
          rcases hphase with hphase | hphase <;> cases hphase
      | Recover => cases hlive
      | Processing _ _ _ _ _ hphase =>
          rw [hcreated] at hphase
          cases hphase
      | _ =>
          have hlive : st.phase = .live := hlive
          rw [hcreated] at hlive
          cases hlive

/-- Only SO_ACCEPT puts the pipe into the map, and only the one that queues BREAK takes it out
and forgets the socket. -/
theorem Does.map_kept {a : UseAction} (hd : Does sNetSendSize st a st') :
    (st'.m_mapSocketClient = st.m_mapSocketClient ∧
        (st'.pipe.m_lSocketHandler = st.pipe.m_lSocketHandler ∨ st.phase = .created)) ∨
      (st'.pipe = st.pipe ∧ (∃ pk, st.worker = .dispatch pk ∧
          (st.event pk.op.slot).opt = .SO_ACCEPT) ∧
        ∀ s, st'.m_mapSocketClient s =
          if s = st.pipe.m_lSocketHandler then true else st.m_mapSocketClient s) ∨
      (.BREAK ∈ st'.queued ∧ ∃ socket, st.m_mapSocketClient socket = true ∧
        ∀ s, st'.m_mapSocketClient s = if s = socket then false else st.m_mapSocketClient s) := by
  cases hd with
  | AddClient client result hphase =>
      cases result <;> exact .inl ⟨rfl, .inr hphase⟩
  | CompletedAccept client result hphase =>
      cases result <;> exact .inl ⟨rfl, .inr hphase⟩
  | Processing type queue nUse =>
      cases type with
      | RECV =>
          unfold processEvent
          dsimp only
          split <;> exact .inl ⟨rfl, .inl rfl⟩
      | BREAK | CONNECTED | CONNECTFAILD | COUNT => exact .inl ⟨rfl, .inl rfl⟩
  | accept ok pk hw hopt => exact .inr (.inl ⟨rfl, ⟨pk, hw, hopt⟩, fun _ => rfl⟩)
  | disconnect ok graceful socket hw hmap =>
      refine .inr (.inr ⟨?_, socket, hmap, fun _ => rfl⟩)
      exact List.mem_append_right _ (.head _)
  | _ => exact .inl ⟨rfl, .inl rfl⟩

/-- A connection has begun. -/
theorem Life.begun_of_linked {g : Stage} (h : Life st g) (hlinked : st.linked) :
    st.phase ≠ .created := by
  intro hphase
  have hcalled := hlinked.1
  rw [h.callbacks_of_created hphase] at hcalled
  cases hcalled

/-- What is outstanding behind `OnConnected` is the packet for SO_ACCEPT, and what was
outstanding before. -/
theorem Links.mem_outstanding (h : Links st st') {op : Overlapped} (hop : op ∈ st'.outstanding) :
    op ∈ st.outstanding ∨ op.slot = .m_pRecvEvent := by
  obtain ⟨new, hport, hslot⟩ := h.port
  rcases PipeUse.mem_outstanding.mp hop with hissued | ⟨pk, hpk, rfl⟩ | hhandling
  · exact .inl (PipeUse.mem_outstanding.mpr (.inl (h.issued ▸ hissued)))
  · rw [hport] at hpk
    rcases List.mem_append.mp hpk with hold | hnew
    · exact .inl (PipeUse.mem_outstanding.mpr (.inr (.inl ⟨pk, hold, rfl⟩)))
    · rw [List.mem_singleton.mp hnew]
      exact .inr hslot
  · exact .inl (PipeUse.mem_outstanding.mpr (.inr (.inr (h.worker ▸ hhandling))))

/-- A session that got no callback has sent nothing. -/
theorem SendLife.unsent (h : SendLife st) (hcalls : st.callbacks = []) : st.Unsent :=
  h.early (by rw [hcalls]; rintro ⟨⟩)

/-- The operations on `m_pSendEvent` are for the socket of the connection. -/
theorem SendLife.key_step {g : Stage} {a : UseAction} (h : SendLife st)
    (hops : SendOps sNetSendSize st) (hlife : Life st g) (hd : Does sNetSendSize st a st')
    (hlinked : st'.linked) :
    ∀ op ∈ st'.outstanding, op.slot = .m_pSendEvent →
      op.socket_handler = st'.pipe.m_lSocketHandler := by
  intro op hop hslot
  rcases h.linked_step hlife hd hlinked with hold | hlinks
  · have hsocket : st'.pipe.m_lSocketHandler = st.pipe.m_lSocketHandler := by
      rcases hd.map_kept with ⟨-, hsame | hphase⟩ | ⟨hpipe, -⟩ | ⟨hbreak, -⟩
      · exact hsame
      · exact absurd hphase (hlife.begun_of_linked hold)
      · rw [hpipe]
      · exact absurd hbreak hlinked.2
    rw [hsocket]
    rcases hd.mem_outstanding hop with hin | hnew
    · exact h.key hold op hin hslot
    · cases hnew with
      | recv hslot' =>
          rw [hslot'] at hslot
          cases hslot
      | post _ _ _ hkey => exact hkey
      | WSASend _ _ _ _ _ hkey => exact hkey
  · rcases hlinks.mem_outstanding hop with hin | hslot'
    · exact absurd hslot (hops.not_sending (h.unsent hlinks.calls).flag hin)
    · rw [hslot'] at hslot
      cases hslot

/-- The map leads to the pipe by its socket only. -/
theorem SendLife.map_step {g : Stage} {a : UseAction} (h : SendLife st) (hlife : Life st g)
    (hd : Does sNetSendSize st a st') :
    ∀ s, st'.m_mapSocketClient s = true → s = st'.pipe.m_lSocketHandler := by
  intro s hs
  rcases hd.map_kept with ⟨hmap, hsocket | hphase⟩ | ⟨hpipe, -, hmap⟩ | ⟨-, socket, hin, hmap⟩
  · rw [hmap] at hs
    rw [hsocket]
    exact h.map s hs
  · rw [hmap, hlife.closed (by rw [hlife.started.mp hphase]; decide) s] at hs
    cases hs
  · rw [hmap] at hs
    rw [hpipe]
    split at hs
    · assumption
    · exact h.map s hs
  · rw [hmap] at hs
    split at hs
    · cases hs
    · rename_i hne
      exact absurd ((h.map s hs).trans (h.map socket hin).symm) hne

/-- The worker comes behind the test of the map with a pipe in the map, or it was there
before. -/
theorem Does.inside {a : UseAction} (hd : Does sNetSendSize st a st')
    (hinside : st'.worker.inside = true) :
    st.worker.inside = true ∧ st'.m_mapSocketClient = st.m_mapSocketClient ∨ st'.registered := by
  cases hd with
  | AddClient client result => cases result <;> exact .inl ⟨hinside, rfl⟩
  | CompletedAccept client result => cases result <;> exact .inl ⟨hinside, rfl⟩
  | Processing type queue nUse =>
      rw [processEvent_worker] at hinside
      refine .inl ⟨hinside, ?_⟩
      cases type with
      | RECV =>
          unfold processEvent
          dsimp only
          split <;> rfl
      | BREAK | CONNECTED | CONNECTFAILD | COUNT => rfl
  | Send | append | postSend | leaveSend | Close | Recover | complete | timeout =>
      exact .inl ⟨hinside, rfl⟩
  | accept ok pk hw hopt => exact .inr ⟨st.pipe.m_lSocketHandler, if_pos rfl⟩
  | received ok pk hw hopt hmap | sendDone ok pk hw hopt hmap =>
      exact .inr ⟨pk.op.socket_handler, hmap⟩
  | acceptStatus ok pk hw | acceptClosed ok pk hw | acceptEnd ok pk hw
  | recvClosed ok pk received hw | outTake ok pk hw | outEmpty ok pk hw | outRest ok pk hw
  | outLook ok pk hw | outClose ok pk hw =>
      exact .inl ⟨by rw [hw]; rfl, rfl⟩
  | recvIssue pk received hw | recvFail pk received hw | recvFlag ok pk received hw =>
      exact .inl ⟨by rw [hw]; rfl, rfl⟩
  | _ => cases hinside

/-- Where the worker relies on the map, the pipe is in it. -/
theorem SendLife.inside_step {a : UseAction} (h : SendLife st) (hd : Does sNetSendSize st a st')
    (hinside : st'.worker.inside = true) : st'.registered := by
  rcases hd.inside hinside with ⟨hold, hmap⟩ | hreg
  · obtain ⟨socket, hin⟩ := h.inside hold
    exact ⟨socket, hmap ▸ hin⟩
  · exact hreg

/-- What comes into the port comes behind the packet for SO_ACCEPT. -/
theorem AcceptFirst.later (h : st.AcceptFirst)
    (hopt : st'.pipe.m_pRecvEvent.opt = .SO_ACCEPT) (hworker : st'.worker = st.worker)
    (hport : st.port <+: st'.port) : st'.AcceptFirst := by
  refine ⟨hopt, ?_⟩
  rw [hworker]
  rcases h.2 with ⟨hidle, op, rest, hfront, hslot⟩ | hgot
  · obtain ⟨later, hlater⟩ := hport
    rw [hfront] at hlater
    exact .inl ⟨hidle, op, rest ++ later, hlater.symm, hslot⟩
  · exact .inr hgot

/-- A worker that has got the packet for SO_ACCEPT takes it for that. -/
theorem AcceptFirst.dispatch (h : st.AcceptFirst) {pk : Packet} (hw : st.worker = .dispatch pk) :
    (st.event pk.op.slot).opt = .SO_ACCEPT := by
  rcases h.2 with ⟨hidle, -⟩ | ⟨got, hgot, hslot⟩
  · rw [hw] at hidle
    cases hidle
  · rw [hw] at hgot
    cases hgot
    rw [hslot]
    exact h.1

/-- The packet for SO_ACCEPT stays in front until the worker has got it, and then the pipe comes
into the map. -/
theorem AcceptFirst.step {a : UseAction} (h : st.AcceptFirst) (hbegun : st.phase ≠ .created)
    (hout : st.worker.inside = false) (hd : Does sNetSendSize st a st') :
    st'.AcceptFirst ∨ st'.registered := by
  have hinside : ∀ {w : UseWorker}, st.worker = w → w.inside = true →
      st'.AcceptFirst ∨ st'.registered := by
    intro w hw hin
    rw [hw, hin] at hout
    cases hout
  have htaken : ∀ {pk : Packet}, st.worker = .dispatch pk →
      (st.event pk.op.slot).opt ≠ .SO_ACCEPT → st'.AcceptFirst ∨ st'.registered :=
    fun hw hne => absurd (h.dispatch hw) hne
  cases hd with
  | AddClient _ _ hphase | CompletedAccept _ _ hphase => exact absurd hphase hbegun
  | Processing type queue nUse =>
      cases type with
      | RECV =>
          left
          unfold processEvent
          dsimp only
          split <;> exact h.later h.1 rfl List.prefix_rfl
      | BREAK | CONNECTFAILD | COUNT => exact .inl (h.later h.1 rfl List.prefix_rfl)
      | CONNECTED => exact .inl (h.later rfl rfl (List.prefix_append _ _))
  | Send | append | leaveSend | Close | Recover => exact .inl (h.later h.1 rfl List.prefix_rfl)
  | postSend | complete => exact .inl (h.later h.1 rfl (List.prefix_append _ _))
  | timeout pk port hw hport hcode =>
      -- The packet for SO_ACCEPT was posted, so it is not the one that is dropped.
      rcases h.2 with ⟨-, op, rest, hfront, -⟩ | ⟨got, hgot, -⟩
      · rw [hport] at hfront
        cases hfront
        cases hcode
      · rw [hw] at hgot
        cases hgot
  | dequeue pk port hw hport =>
      rcases h.2 with ⟨-, op, rest, hfront, hslot⟩ | ⟨got, hgot, -⟩
      · rw [hport] at hfront
        cases hfront
        exact .inl ⟨h.1, .inr ⟨_, rfl, hslot⟩⟩
      · rw [hw] at hgot
        cases hgot
  | accept ok pk hw hopt => exact .inr ⟨st.pipe.m_lSocketHandler, if_pos rfl⟩
  | connect ok pk hw hopt | received ok pk hw hopt | recvEnd ok pk hw hopt
  | sendDone ok pk hw hopt | sendError ok pk hw hopt =>
      exact htaken hw (by rw [hopt]; decide)
  | ignore ok pk hw hopt =>
      refine htaken hw ?_
      rcases hopt with hopt | hopt <;> rw [hopt] <;> decide
  | acceptStatus ok pk hw | acceptClosed ok pk hw | acceptEnd ok pk hw | acceptSilent ok pk hw
  | recvIssue pk received hw | recvFail pk received hw | recvClosed ok pk received hw
  | recvFlag ok pk received hw | addRecv ok hw | outTake ok pk hw | outEmpty ok pk hw
  | outRest ok pk hw | outLook ok pk hw | outIssue pk long hw | outFail pk long hw
  | outOpen ok pk hw | outClose ok pk hw =>
      exact hinside hw rfl
  | disconnect ok graceful socket hw | disconnected ok graceful socket hw =>
      rcases h.2 with ⟨-, hfront⟩ | ⟨got, hgot, -⟩
      · exact .inl ⟨h.1, .inl ⟨rfl, hfront⟩⟩
      · rw [hw] at hgot
        cases hgot

/-- The packet for SO_ACCEPT is the first one of a connection. -/
theorem AcceptFirst.of_links (h : Links st st') (hsend : st.outstandingOn .m_pSendEvent = 0) :
    st'.AcceptFirst := by
  obtain ⟨hport, hhandling⟩ := port_of_no_operation h.idle hsend
  obtain ⟨op, hposted, hslot⟩ := h.port
  rw [hport] at hposted
  exact ⟨h.opt, .inl ⟨h.worker ▸ hhandling, op, [], hposted, hslot⟩⟩

/-- A pipe leaves the map with a disconnect only. -/
theorem Does.registered_kept {a : UseAction} (hd : Does sNetSendSize st a st')
    (hreg : st.registered) (hbreak : .BREAK ∉ st'.queued) : st'.registered := by
  obtain ⟨socket, hin⟩ := hreg
  rcases hd.map_kept with ⟨hmap, -⟩ | ⟨-, -, hmap⟩ | ⟨hmem, -⟩
  · exact ⟨socket, hmap ▸ hin⟩
  · exact ⟨st.pipe.m_lSocketHandler, (hmap _).trans (if_pos rfl)⟩
  · exact absurd hmem hbreak

/-- Before a connected pipe is in the map, the packet for SO_ACCEPT is in front. -/
theorem SendLife.first_step {g : Stage} {a : UseAction} (h : SendLife st)
    (hops : SendOps sNetSendSize st) (hlife : Life st g) (hd : Does sNetSendSize st a st')
    (hlinked : st'.linked) (hnot : ¬ st'.registered) : st'.AcceptFirst := by
  rcases h.linked_step hlife hd hlinked with hold | hlinks
  · have hout : ¬ st.registered := fun hreg => hnot (hd.registered_kept hreg hlinked.2)
    have hworker : st.worker.inside = false :=
      Bool.eq_false_iff.mpr fun hinside => hout (h.inside hinside)
    rcases (h.first hold hout).step (hlife.begun_of_linked hold) hworker hd with hfirst | hreg
    · exact hfirst
    · exact absurd hreg hnot
  · exact .of_links hlinks (hops.free (h.unsent hlinks.calls).flag)

/-- `Send` clears the flag, and nothing else does. -/
theorem Does.flag_clear {a : UseAction} (hd : Does sNetSendSize st a st')
    (hclear : st'.pipe.m_bNeedPostOPT = false) :
    st.pipe.m_bNeedPostOPT = false ∨ st' = st.postSend := by
  cases hd with
  | AddClient client result =>
      exact .inl ((AddClient_sameSend st client result).flag.symm.trans hclear)
  | CompletedAccept client result =>
      exact .inl ((CompletedAccept_sameSend st client result).flag.symm.trans hclear)
  | Processing type queue nUse =>
      exact .inl ((Processing_sameSend st queue type nUse).flag.symm.trans hclear)
  | postSend => exact .inr rfl
  | outEmpty => cases hclear
  | _ => exact .inl hclear

/-- A failure of a send is remembered. -/
theorem Does.sendFailed_kept {a : UseAction} (hd : Does sNetSendSize st a st')
    (hfailed : st'.sendFailed = false) : st.sendFailed = false := by
  cases hd with
  | AddClient client result =>
      exact (AddClient_sameSend st client result).sendFailed.symm.trans hfailed
  | CompletedAccept client result =>
      exact (CompletedAccept_sameSend st client result).sendFailed.symm.trans hfailed
  | Processing type queue nUse =>
      exact (Processing_sameSend st queue type nUse).sendFailed.symm.trans hfailed
  | timeout => exact (Bool.or_eq_false_iff.mp hfailed).1
  | sendError | outFail => cases hfailed
  | _ => exact hfailed

/-- A connection whose flag is clear has an operation on `m_pSendEvent`, unless one failed. -/
theorem SendLife.alive_step {g : Stage} {a : UseAction} (h : SendLife st)
    (hops : SendOps sNetSendSize st) (hlife : Life st g) (hd : Does sNetSendSize st a st')
    (hlinked : st'.linked) (hfailed : st'.sendFailed = false)
    (hclear : st'.pipe.m_bNeedPostOPT = false) : 0 < st'.outstandingOn .m_pSendEvent := by
  rcases hd.flag_clear hclear with hold | rfl
  · rcases h.linked_step hlife hd hlinked with hlinked' | hlinks
    · have hbefore := h.alive hlinked' (hd.sendFailed_kept hfailed) hold
      rcases hd.sends_kept hops.slots with hkept | hfails | hset | ⟨pk, hw, hslot, hmap⟩
      · -- The send that was outstanding still is.
        exact Nat.lt_of_lt_of_le hbefore hkept
      · rw [hfailed] at hfails
        cases hfails
      · rw [hclear] at hset
        cases hset
      · -- The packet of a send finds the pipe in the map, since the one for SO_ACCEPT was first.
        have hkey : pk.op.socket_handler = st.pipe.m_lSocketHandler := by
          refine h.key hlinked' pk.op (mem_outstanding.mpr (.inr (.inr ?_))) hslot
          rw [hw]
          exact .head _
        by_cases hreg : st.registered
        · obtain ⟨socket, hin⟩ := hreg
          rw [h.map socket hin, ← hkey, hmap] at hin
          cases hin
        · have haccept := (h.first hlinked' hreg).dispatch hw
          rw [hslot] at haccept
          have hopt := hops.slots.send pk.op (by
            rw [mem_outstanding, hw]
            exact .inr (.inr (.head _))) hslot
          exact absurd (hopt.symm.trans haccept) (by decide)
    · -- A connection that begins has its flag set.
      have hset := (h.unsent hlinks.calls).flag
      rw [hold] at hset
      cases hset
  · -- The packet is posted to the port of the worker.
    have hown : st.pipe.m_hCompletionPort = some st.w := by
      rcases h.linked_step hlife hd hlinked with hlinked' | hlinks
      · exact h.own (.inl hlinked'.1)
      · exact hlinks.own
    refine List.countP_pos_iff.mpr ⟨⟨.m_pSendEvent, st.pipe.m_lSocketHandler, none⟩, ?_, rfl⟩
    refine mem_outstanding.mpr (.inr (.inl ⟨⟨_, .ofPacket⟩, ?_, rfl⟩))
    show _ ∈ st.port ++ if st.pipe.m_hCompletionPort = some st.w then _ else []
    rw [if_pos hown]
    exact List.mem_append_right _ (.head _)

/-- A fresh pipe. -/
theorem sendLife_init {p : CPipe} (hempty : p.m_oSendStream.unread = [])
    (hflag : p.m_bNeedPostOPT = true) (w : Nat) : SendLife (init p w) where
  early _ := ⟨rfl, hempty, rfl, rfl, hflag, rfl⟩
  bytes := (List.append_nil _).trans hempty
  writing _ := rfl
  emptied _ _ := hempty.symm
  own h := by
    rcases h with h | ⟨h, -⟩
    · cases h
    · cases h
  key h := by cases h.1
  map _ h := by cases h
  inside h := by cases h
  first h := by cases h.1
  alive h := by cases h.1

/-- Every step keeps the hand-off. -/
theorem SendLife.step {g : Stage} {a : UseAction} (h : SendLife st)
    (hops : SendOps sNetSendSize st) (hlife : Life st g) (hlate : st.sendsLate a = true)
    (hd : Does sNetSendSize st a st') : SendLife st' where
  early := h.early_step hlate hd
  bytes := h.bytes_step hd
  writing := h.writing_step hd
  emptied := h.emptied_step hops hd
  own := h.own_step hlife hd
  key := h.key_step hops hlife hd
  map := h.map_step hlife hd
  inside := h.inside_step hd
  first := h.first_step hops hlife hd
  alive := h.alive_step hops hlife hd

end PipeUse

end Kernel4GameServer.Iocp
