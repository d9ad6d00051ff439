import Kernel4GameServer.Net.Iocp.PipeUse
import Kernel4GameServer.Proofs.Public.TStreamFifo
import Mathlib.Data.List.Perm.Basic

/-!
# `Kernel4GameServer.Proofs.Net.Iocp.PipeUseSteps`: what a step of one use of a pipe does

`Does` lists what a step can do, one case for each branch of the source, and `step_does` says
that there is nothing else. `outSection_eq` puts the parts of the locked section of `Out`
together.

* `Does.outstanding`: a step leaves no more operations outstanding than there were, or it
  starts one, and `Starts` says which.
* `Slots.step`: a packet of `m_pSendEvent` is taken for a send, and one of `m_pRecvEvent` is
  not. The worker looks at what the event says when it gets the packet.
-/

set_option autoImplicit false

namespace Kernel4GameServer.Iocp

open Lib

/-- The locked section of `Out` is its parts, one behind the other. -/
theorem CPipe.outSection_eq (p : CPipe) (sNetSendSize : Nat) (nSize : Int) (ok : Bool) :
    p.outSection sNetSendSize nSize ok =
      if (p.outTake nSize).outTest.2 then ((p.outTake nSize).outTest.1, .emptied)
      else ((p.outTake nSize).formatSend,
        if ok then
          .issued ((p.outTake nSize).outView sNetSendSize ((p.outTake nSize).outLong sNetSendSize))
        else .failed) := by
  unfold outSection outTest
  by_cases hsize : 0 = (p.m_oSendStream.out nSize).size
  · rw [if_pos hsize, if_pos (show 0 = (p.outTake nSize).m_oSendStream.size from hsize)]
    rfl
  · rw [if_neg hsize, if_neg (show ¬ 0 = (p.outTake nSize).m_oSendStream.size from hsize)]
    by_cases hlong : (p.m_oSendStream.out nSize).size ≥ sNetSendSize
    · simp only [outLong, outView, outTake, hlong, decide_true, Bool.false_eq_true, if_true,
        if_false]
    · simp only [outLong, outView, outTake, hlong, decide_false, Bool.false_eq_true, if_false]

namespace PipeUse

/-- Behind the first part of a `Send`. -/
def beginSend (st : PipeUse) (src : List UInt8) : PipeUse :=
  { st with
    writer := .planned (st.pipe.m_oSendStream.inPlan src.length) src
    sent := st.sent ++ src }

/-- Behind another part of the `in` of a `Send`. -/
def goOn (st : PipeUse) (io : StreamState BUFF_SIZE) : PipeUse :=
  { st.setIo io with sending := match io.writer with | .idle => true | _ => false }

/-- Behind `m_bNeedPostOPT = false`. -/
def postSend (st : PipeUse) : PipeUse :=
  { st with
    pipe := { st.pipe.formatSend with m_bNeedPostOPT := false }
    sending := false }.post .m_pSendEvent

/-- What a step can do. -/
inductive Does (sNetSendSize : Nat) (st : PipeUse) : UseAction → PipeUse → Prop where
  | AddClient (client : Nat) (result : Connect) : st.phase = .created →
      Does sNetSendSize st (.AddClient client result) (st.AddClient client result)
  | CompletedAccept (client : Nat) (result : Accept) : st.phase = .created →
      Does sNetSendSize st (.CompletedAccept client result) (st.CompletedAccept client result)
  | Send (src : List UInt8) : st.phase = .live ∨ st.phase = .ending → st.sending = false →
      st.writer = .idle → Does sNetSendSize st (.Send src) (st.beginSend src)
  | append (a : StreamAction) (io : StreamState BUFF_SIZE) : goesOn a = true →
      st.io.step a = some io → Does sNetSendSize st (.append a) (st.goOn io)
  | postSend : st.sending = true → st.worker.locked = false → st.pipe.m_bNeedPostOPT = true →
      Does sNetSendSize st .sendLocked st.postSend
  | leaveSend : st.sending = true → st.worker.locked = false →
      st.pipe.m_bNeedPostOPT = false →
      Does sNetSendSize st .sendLocked { st with sending := false }
  | Close : st.writer = .idle → st.phase = .live ∨ st.phase = .ending → st.sending = false →
      Does sNetSendSize st .Close st.Close
  | Processing (type : IoEventType) (queue : List IoEventType) (nUse : Int) :
      st.writer = .idle → st.sending = false → st.phase = .live →
      st.m_oEventQueue = type :: queue →
      Does sNetSendSize st (.Processing nUse)
        ({ st with m_oEventQueue := queue }.processEvent type nUse)
  | Recover : st.writer = .idle → st.phase = .ending → st.sending = false →
      Does sNetSendSize st .Recover { st with phase := .recovered }
  | complete (i : Nat) (result : Completion) (op : Overlapped) : st.issued[i]? = some op →
      (∀ v ∈ op.view, result.nIOBytes ≤ v.bytes.length) →
      Does sNetSendSize st (.complete i result)
        { st with issued := st.issued.eraseIdx i, port := st.port ++ [{ op, result }] }
  | timeout (pk : Packet) (port : List Packet) : st.worker = .wait → st.port = pk :: port →
      pk.result.code = WAIT_TIMEOUT →
      Does sNetSendSize st .dequeue
        { st with port, sendFailed := st.sendFailed || decide (pk.op.slot = .m_pSendEvent) }
  | dequeue (pk : Packet) (port : List Packet) : st.worker = .wait → st.port = pk :: port →
      pk.result.code ≠ WAIT_TIMEOUT →
      Does sNetSendSize st .dequeue { st with port, worker := .dispatch pk }
  | connect (ok : Bool) (pk : Packet) : st.worker = .dispatch pk →
      (st.event pk.op.slot).opt = .SO_CONNECT →
      Does sNetSendSize st (.Run ok) ({ st with worker := .wait }.Add
        (if pk.result.code = ERROR_SUCCESS then .CONNECTED else .CONNECTFAILD))
  | accept (ok : Bool) (pk : Packet) : st.worker = .dispatch pk →
      (st.event pk.op.slot).opt = .SO_ACCEPT →
      Does sNetSendSize st (.Run ok)
        { st with
          m_mapSocketClient := fun s =>
            if s = st.pipe.m_lSocketHandler then true else st.m_mapSocketClient s
          worker := .acceptStatus pk }
  | ignore (ok : Bool) (pk : Packet) : st.worker = .dispatch pk →
      (st.event pk.op.slot).opt = .SO_TCPRECV ∨ (st.event pk.op.slot).opt = .SO_TCPSEND →
      st.m_mapSocketClient pk.op.socket_handler = false →
      Does sNetSendSize st (.Run ok) { st with worker := .wait }
  | received (ok : Bool) (pk : Packet) : st.worker = .dispatch pk →
      (st.event pk.op.slot).opt = .SO_TCPRECV →
      st.m_mapSocketClient pk.op.socket_handler = true →
      Does sNetSendSize st (.Run ok)
        { st with
          pipe := st.pipe.In (Mem.ofList pk.result.bytes 0) pk.result.nIOBytes
          worker := .doRecv pk true }
  | recvEnd (ok : Bool) (pk : Packet) : st.worker = .dispatch pk →
      (st.event pk.op.slot).opt = .SO_TCPRECV →
      Does sNetSendSize st (.Run ok)
        { st with worker := .disconnect false pk.op.socket_handler }
  | sendDone (ok : Bool) (pk : Packet) : st.worker = .dispatch pk →
      (st.event pk.op.slot).opt = .SO_TCPSEND →
      st.m_mapSocketClient pk.op.socket_handler = true →
      Does sNetSendSize st (.Run ok) { st with worker := .outTake pk }
  | sendError (ok : Bool) (pk : Packet) : st.worker = .dispatch pk →
      (st.event pk.op.slot).opt = .SO_TCPSEND →
      Does sNetSendSize st (.Run ok) { st with worker := .wait, sendFailed := true }
  | acceptStatus (ok : Bool) (pk : Packet) : st.worker = .acceptStatus pk →
      st.pipe.m_nStatus = .SS_ESTABLISHED →
      Does sNetSendSize st (.Run ok) { st with worker := .doRecv pk false }
  | acceptClosed (ok : Bool) (pk : Packet) : st.worker = .acceptStatus pk →
      st.pipe.m_nStatus ≠ .SS_ESTABLISHED →
      Does sNetSendSize st (.Run ok) { st with worker := .acceptFlag pk }
  | acceptEnd (ok : Bool) (pk : Packet) : st.worker = .acceptFlag pk →
      st.pipe.m_bNeedPostOPT = true →
      Does sNetSendSize st (.Run ok)
        { st with worker := .disconnect true pk.op.socket_handler }
  | acceptSilent (ok : Bool) (pk : Packet) : st.worker = .acceptFlag pk →
      st.pipe.m_bNeedPostOPT = false →
      Does sNetSendSize st (.Run ok) { st with worker := .wait }
  | recvIssue (pk : Packet) (received : Bool) : st.worker = .doRecv pk received →
      st.pipe.m_nStatus = .SS_ESTABLISHED →
      Does sNetSendSize st (.Run true)
        (({ st with pipe := st.pipe.formatRecv .SO_TCPRECV }.issue .m_pRecvEvent none).recvDone
          pk received true false)
  | recvFail (pk : Packet) (received : Bool) : st.worker = .doRecv pk received →
      st.pipe.m_nStatus = .SS_ESTABLISHED →
      Does sNetSendSize st (.Run false)
        ({ st with pipe := st.pipe.formatRecv .SO_TCPRECV }.recvDone pk received false false)
  | recvClosed (ok : Bool) (pk : Packet) (received : Bool) : st.worker = .doRecv pk received →
      st.pipe.m_nStatus ≠ .SS_ESTABLISHED →
      Does sNetSendSize st (.Run ok)
        { st with
          pipe := st.pipe.formatRecv .SO_TCPRECV
          worker := .doRecvFlag pk received }
  | recvFlag (ok : Bool) (pk : Packet) (received : Bool) : st.worker = .doRecvFlag pk received →
      Does sNetSendSize st (.Run ok) (st.recvDone pk received (!st.pipe.m_bNeedPostOPT) true)
  | addRecv (ok : Bool) : st.worker = .addRecv →
      Does sNetSendSize st (.Run ok) { st.Add .RECV with worker := .wait }
  | outTake (ok : Bool) (pk : Packet) : st.worker = .outTake pk →
      Does sNetSendSize st (.Run ok)
        { st with
          pipe := st.pipe.outTake pk.result.nIOBytes
          completed :=
            st.completed ++ (pk.op.view.elim [] fun v => v.bytes.take pk.result.nIOBytes)
          worker := .outTest pk }
  | outEmpty (ok : Bool) (pk : Packet) : st.worker = .outTest pk →
      0 = st.pipe.m_oSendStream.size →
      Does sNetSendSize st (.Run ok)
        { st with pipe := { st.pipe with m_bNeedPostOPT := true }, worker := .outStatus pk }
  | outRest (ok : Bool) (pk : Packet) : st.worker = .outTest pk →
      0 ≠ st.pipe.m_oSendStream.size →
      Does sNetSendSize st (.Run ok) { st with worker := .outLook pk }
  | outLook (ok : Bool) (pk : Packet) : st.worker = .outLook pk →
      Does sNetSendSize st (.Run ok)
        { st with
          pipe := st.pipe.formatSend
          worker := .outIssue pk (st.pipe.outLong sNetSendSize) }
  | outIssue (pk : Packet) (long : Bool) : st.worker = .outIssue pk long →
      Does sNetSendSize st (.Run true)
        { st.issue .m_pSendEvent (some (st.pipe.outView sNetSendSize long)) with
          worker := .wait }
  | outFail (pk : Packet) (long : Bool) : st.worker = .outIssue pk long →
      Does sNetSendSize st (.Run false)
        { st with
          sendFailed := true
          worker := .disconnect false pk.op.socket_handler }
  | outOpen (ok : Bool) (pk : Packet) : st.worker = .outStatus pk →
      st.pipe.m_nStatus ≠ .SS_WAITCLOSE →
      Does sNetSendSize st (.Run ok) { st with worker := .wait }
  | outClose (ok : Bool) (pk : Packet) : st.worker = .outStatus pk →
      st.pipe.m_nStatus = .SS_WAITCLOSE →
      Does sNetSendSize st (.Run ok)
        { st with worker := .disconnect true pk.op.socket_handler }
  | disconnect (ok graceful : Bool) (socket : Int) : st.worker = .disconnect graceful socket →
      st.m_mapSocketClient socket = true →
      Does sNetSendSize st (.Run ok)
        { st.Add .BREAK with
          pipe := { st.pipe with m_lSocketHandler := INVALID_SOCKET }
          m_mapSocketClient := fun s => if s = socket then false else st.m_mapSocketClient s
          worker := .wait }
  | disconnected (ok graceful : Bool) (socket : Int) : st.worker = .disconnect graceful socket →
      st.m_mapSocketClient socket = false →
      Does sNetSendSize st (.Run ok) { st with worker := .wait }

variable {sNetSendSize : Nat} {st st' : PipeUse}

/-- The case distinction of `dispatch`. -/
theorem dispatch_does (ok : Bool) {pk : Packet} (hw : st.worker = .dispatch pk) :
    Does sNetSendSize st (.Run ok) (st.dispatch pk) := by
  have hevent : ({ st with worker := .wait } : PipeUse).event pk.op.slot = st.event pk.op.slot := by
    cases pk.op.slot <;> rfl
  simp only [dispatch, hevent]
  split
  · rename_i hopt
    exact .connect ok pk hw hopt
  · rename_i hopt
    exact .accept ok pk hw hopt
  · rename_i hopt
    split
    · rename_i hmap
      split
      · exact .received ok pk hw hopt hmap
      · exact .recvEnd ok pk hw hopt
    · rename_i hmap
      exact .ignore ok pk hw (.inl hopt) (Bool.eq_false_iff.mpr hmap)
  · rename_i hopt
    split
    · rename_i hmap
      split
      · exact .sendDone ok pk hw hopt hmap
      · exact .sendError ok pk hw hopt
    · rename_i hmap
      exact .ignore ok pk hw (.inr hopt) (Bool.eq_false_iff.mpr hmap)

/-- The case distinction of `runWorker`. -/
theorem runWorker_does {ok : Bool} (h : st.runWorker sNetSendSize ok = some st') :
    Does sNetSendSize st (.Run ok) st' := by
  unfold runWorker at h
  split at h
  · cases h
  · rename_i pk hw
    cases h
    exact dispatch_does ok hw
  · rename_i pk hw
    cases h
    split
    · rename_i hstatus
      exact .acceptStatus ok pk hw hstatus
    · rename_i hstatus
      exact .acceptClosed ok pk hw hstatus
  · rename_i pk hw
    cases h
    split
    · rename_i hflag
      exact .acceptEnd ok pk hw hflag
    · rename_i hflag
      exact .acceptSilent ok pk hw (Bool.eq_false_iff.mpr hflag)
  · rename_i pk received hw
    cases h
    -- `DoRecv` looks at the status first.
    by_cases hstatus : st.pipe.m_nStatus = .SS_ESTABLISHED
    · have hok : (st.pipe.doRecvStatus ok).2 = some ok := if_pos hstatus
      simp only [doRecv, hok]
      cases ok with
      | true => exact .recvIssue pk received hw hstatus
      | false => exact .recvFail pk received hw hstatus
    · have hnone : (st.pipe.doRecvStatus ok).2 = none := if_neg hstatus
      simp only [doRecv, hnone]
      exact .recvClosed ok pk received hw hstatus
  · rename_i pk received hw
    cases h
    exact .recvFlag ok pk received hw
  · rename_i hw
    cases h
    exact .addRecv ok hw
  · rename_i pk hw
    cases h
    exact .outTake ok pk hw
  · rename_i pk hw
    cases h
    -- `Out` returns where the buffer is empty.
    by_cases hsize : 0 = st.pipe.m_oSendStream.size
    · simp only [CPipe.outTest, if_pos hsize, if_true]
      exact .outEmpty ok pk hw hsize
    · simp only [CPipe.outTest, if_neg hsize, Bool.false_eq_true, if_false]
      exact .outRest ok pk hw hsize
  · rename_i pk hw
    cases h
    exact .outLook ok pk hw
  · rename_i pk long hw
    split at h
    · rename_i hok
      cases h
      rw [hok]
      exact .outIssue pk long hw
    · rename_i hok
      cases h
      rw [Bool.eq_false_iff.mpr hok]
      exact .outFail pk long hw
  · rename_i pk hw
    cases h
    split
    · rename_i hstatus
      exact .outClose ok pk hw hstatus
    · rename_i hstatus
      exact .outOpen ok pk hw hstatus
  · rename_i graceful socket hw
    cases h
    unfold SendDisconnectEvent
    split
    · rename_i hmap
      exact .disconnect ok graceful socket hw hmap
    · rename_i hmap
      exact .disconnected ok graceful socket hw (Bool.eq_false_iff.mpr hmap)

/-- A step does one of these. -/
theorem step_does {a : UseAction} (h : step sNetSendSize st a = some st') :
    Does sNetSendSize st a st' := by
  cases a with
  | AddClient client result =>
      simp only [step] at h
      split at h
      · rename_i hphase
        cases h
        exact .AddClient client result hphase
      · cases h
  | CompletedAccept client result =>
      simp only [step] at h
      split at h
      · rename_i hphase
        cases h
        exact .CompletedAccept client result hphase
      · cases h
  | Send src =>
      simp only [step] at h
      split at h
      · rename_i hguard
        obtain ⟨io, hio, rfl⟩ := Option.map_eq_some_iff.mp h
        cases StreamState.step_cases hio with
        | write _ hw => exact .Send src hguard.1 hguard.2 hw
      · cases h
  | append a =>
      simp only [step] at h
      split at h
      · rename_i hgo
        obtain ⟨io, hio, rfl⟩ := Option.map_eq_some_iff.mp h
        exact .append a io hgo hio
      · cases h
  | sendLocked =>
      simp only [step] at h
      split at h
      · rename_i hguard
        cases h
        unfold sendLocked CPipe.sendSection
        -- The flag decides who posts the event for the send buffer.
        by_cases hflag : st.pipe.m_bNeedPostOPT = true
        · simp only [if_pos hflag, if_true]
          exact .postSend hguard.1 hguard.2 hflag
        · simp only [if_neg hflag, Bool.false_eq_true, if_false]
          exact .leaveSend hguard.1 hguard.2 (Bool.eq_false_iff.mpr hflag)
      · cases h
  | Close =>
      simp only [step] at h
      split at h
      · rename_i hw
        split at h
        · rename_i hguard
          cases h
          exact .Close hw hguard.1 hguard.2
        · cases h
      · cases h
  | Processing nUse =>
      simp only [step] at h
      split at h
      · rename_i type queue hw hqueue
        split at h
        · rename_i hguard
          cases h
          exact .Processing type queue nUse hw hguard.2 hguard.1 hqueue
        · cases h
      · cases h
  | Recover =>
      simp only [step] at h
      split at h
      · rename_i hw
        split at h
        · rename_i hguard
          cases h
          exact .Recover hw hguard.1 hguard.2
        · cases h
      · cases h
  | complete i result =>
      simp only [step] at h
      split at h
      · cases h
      · rename_i op hop
        split at h
        · rename_i hle
          cases h
          exact .complete i result op hop hle
        · cases h
  | dequeue =>
      simp only [step] at h
      split at h
      · rename_i pk port hw hport
        cases h
        -- A timeout is dropped, and any other result goes to the worker.
        unfold take
        split
        · rename_i hcode
          exact .timeout pk port hw hport hcode
        · rename_i hcode
          exact .dequeue pk port hw hport hcode
      · cases h
  | Run ok => exact runWorker_does h

/-! ### Outstanding operations -/

/-- How many operations with an event of the pipe are outstanding. -/
def outstandingOn (st : PipeUse) (slot : EventSlot) : Nat :=
  st.outstanding.countP fun op => decide (op.slot = slot)

/-- What is outstanding is issued, in the port, or handled. -/
theorem mem_outstanding {op : Overlapped} :
    op ∈ st.outstanding ↔
      op ∈ st.issued ∨ (∃ pk ∈ st.port, pk.op = op) ∨ op ∈ st.worker.handling := by
  simp only [outstanding, List.mem_append, List.mem_map, or_assoc]

/-- A completion moves an operation to the port. -/
theorem complete_perm {i : Nat} {op : Overlapped} (hop : st.issued[i]? = some op)
    (result : Completion) :
    ({ st with issued := st.issued.eraseIdx i, port := st.port ++ [{ op, result }] } :
      PipeUse).outstanding.Perm st.outstanding := by
  obtain ⟨hi, rfl⟩ := List.getElem?_eq_some_iff.mp hop
  simp only [outstanding, List.map_append, List.map_cons, List.map_nil]
  refine List.Perm.append_right _ ?_
  rw [← List.append_assoc]
  refine List.perm_append_comm.trans ?_
  exact (List.getElem_cons_eraseIdx_perm hi).append_right _

/-- A packet that the worker takes is still outstanding. -/
theorem dequeue_perm {pk : Packet} {port : List Packet} (hw : st.worker = .wait)
    (hport : st.port = pk :: port) :
    ({ st with port, worker := .dispatch pk } : PipeUse).outstanding.Perm st.outstanding := by
  simp only [outstanding, hw, hport, UseWorker.handling, List.map_cons, List.append_nil,
    List.append_assoc]
  exact List.Perm.append_left _ (List.perm_append_comm)

/-- The operation that the worker handles, and the others. -/
theorem handling_perm {op : Overlapped} (hworker : st.worker.handling = [op]) :
    st.outstanding.Perm (op :: (st.issued ++ st.port.map Packet.op)) := by
  rw [PipeUse.outstanding, hworker]
  exact List.perm_append_singleton _ _

/-- The operation that the worker handles, and the others with the same event. -/
theorem outstandingOn_handling {op : Overlapped} {slot : EventSlot}
    (hw : st.worker.handling = [op]) (hslot : op.slot = slot) :
    st.outstandingOn slot =
      (st.issued ++ st.port.map Packet.op).countP (fun op => decide (op.slot = slot)) + 1 := by
  rw [outstandingOn, (handling_perm hw).countP_eq, List.countP_cons_of_pos (by simp [hslot])]

/-- Where nothing is issued or posted, no more operations are outstanding. -/
theorem subperm_of_handling (hissued : st'.issued = st.issued) (hport : st'.port = st.port)
    (hworker : st'.worker.handling.Sublist st.worker.handling) :
    st'.outstanding.Subperm st.outstanding := by
  rw [PipeUse.outstanding, hissued, hport]
  exact (List.Sublist.append_left hworker _).subperm

/-- The worker is done with an operation, or it had none. -/
theorem subperm_of_handled (hissued : st'.issued = st.issued) (hport : st'.port = st.port)
    (hworker : st'.worker.handling = []) : st'.outstanding.Subperm st.outstanding := by
  refine subperm_of_handling hissued hport ?_
  rw [hworker]
  exact List.nil_sublist _

/-- A packet is posted, or it goes nowhere. -/
theorem subperm_of_posted {op : Overlapped} {result : Completion} {here : Prop} [Decidable here]
    (hissued : st'.issued = st.issued)
    (hport : st'.port = st.port ++ if here then [({ op, result } : Packet)] else [])
    (hworker : st'.worker = st.worker) : st'.outstanding.Subperm (op :: st.outstanding) := by
  rw [PipeUse.outstanding, hissued, hport, hworker]
  by_cases hhere : here
  · rw [if_pos hhere, List.map_append, ← List.append_assoc, List.append_assoc]
    exact List.perm_middle.subperm
  · rw [if_neg hhere, List.append_nil]
    exact List.Subperm.cons_self

/-- An operation is issued. -/
theorem subperm_of_issued {op : Overlapped} (hissued : st'.issued = st.issued ++ [op])
    (hport : st'.port = st.port)
    (hworker : st'.worker.handling.Sublist st.worker.handling) :
    st'.outstanding.Subperm (op :: st.outstanding) := by
  rw [PipeUse.outstanding, hissued, hport, List.append_assoc, List.append_assoc]
  refine List.perm_middle.subperm.trans ((List.subperm_cons op).mpr ?_)
  show (st.issued ++ (st.port.map Packet.op ++ st'.worker.handling)).Subperm _
  rw [← List.append_assoc]
  exact (List.Sublist.append_left hworker _).subperm

/-- The worker does not handle a completion behind `DoRecv`. -/
theorem recvDone_handling (st : PipeUse) (pk : Packet) (received res graceful : Bool) :
    (st.recvDone pk received res graceful).worker.handling = [] := by
  cases received <;> cases res <;> rfl

/-- The `switch` of `Processing` is not about the worker. -/
theorem processEvent_worker (st : PipeUse) (type : IoEventType) (nUse : Int) :
    (st.processEvent type nUse).worker = st.worker := by
  cases type with
  | RECV =>
      unfold processEvent
      dsimp only
      split <;> rfl
  | BREAK | CONNECTED | CONNECTFAILD | COUNT => rfl

/-- An operation that a step starts: a packet is posted for SO_ACCEPT or by `Send`, or ConnectEx,
WSARecv or WSASend is called. -/
inductive Starts (sNetSendSize : Nat) (st : PipeUse) (a : UseAction) (st' : PipeUse)
    (op : Overlapped) : Prop where
  | recv (hslot : op.slot = .m_pRecvEvent) (hview : op.view = none)
      (hopt : st'.pipe.m_pRecvEvent.opt ≠ .SO_TCPSEND)
  | post (ha : a = .sendLocked) (hslot : op.slot = .m_pSendEvent) (hview : op.view = none)
      (hsocket : op.socket_handler = st.pipe.m_lSocketHandler)
      (hopt : st'.pipe.m_pSendEvent.opt = .SO_TCPSEND)
      (hset : st.pipe.m_bNeedPostOPT = true) (hclear : st'.pipe.m_bNeedPostOPT = false)
  | WSASend (pk : Packet) (long : Bool) (hw : st.worker = .outIssue pk long)
      (hslot : op.slot = .m_pSendEvent)
      (hview : op.view = some (st.pipe.outView sNetSendSize long))
      (hsocket : op.socket_handler = st.pipe.m_lSocketHandler)
      (hinstead : ∃ rest, st'.outstanding.Perm (op :: rest) ∧ st.outstanding.Perm (pk.op :: rest))

/-- A step leaves no more operations outstanding, or one more that it starts. -/
theorem Does.outstanding {a : UseAction} (h : Does sNetSendSize st a st') :
    st'.outstanding.Subperm st.outstanding ∨
      ∃ op, Starts sNetSendSize st a st' op ∧
        st'.outstanding.Subperm (op :: st.outstanding) := by
  cases h with
  | AddClient client result hphase =>
      cases result with
      | noSocket | noPort socket | noConnect socket => exact .inl (List.Subperm.refl _)
      | pending socket =>
          exact .inr ⟨_, .recv rfl rfl (by rintro ⟨⟩),
            subperm_of_issued rfl rfl (List.Sublist.refl _)⟩
  | CompletedAccept client result hphase =>
      cases result with
      | refused | noPort socket => exact .inl (List.Subperm.refl _)
      | connected socket =>
          exact .inr ⟨⟨.m_pRecvEvent, socket, none⟩, .recv rfl rfl (by rintro ⟨⟩),
            subperm_of_posted rfl rfl rfl⟩
  | Send | append | leaveSend | Close | Recover => exact .inl (List.Subperm.refl _)
  | postSend _ _ hflag =>
      exact .inr ⟨⟨.m_pSendEvent, st.pipe.m_lSocketHandler, none⟩,
        .post rfl rfl rfl rfl rfl hflag rfl, subperm_of_posted rfl rfl rfl⟩
  | Processing type queue nUse =>
      cases type with
      | RECV =>
          unfold processEvent
          dsimp only
          split <;> exact .inl (List.Subperm.refl _)
      | BREAK | CONNECTFAILD | COUNT => exact .inl (List.Subperm.refl _)
      | CONNECTED =>
          exact .inr ⟨⟨.m_pRecvEvent, st.pipe.m_lSocketHandler, none⟩, .recv rfl rfl (by rintro ⟨⟩),
            subperm_of_posted rfl rfl rfl⟩
  | complete i result op hop => exact .inl (complete_perm hop result).subperm
  | timeout pk port hw hport =>
      refine .inl ?_
      simp only [PipeUse.outstanding, hport, List.map_cons]
      exact ((List.sublist_cons_self _ _).append_left _ |>.append_right _).subperm
  | dequeue pk port hw hport => exact .inl (dequeue_perm hw hport).subperm
  | connect ok pk hw | accept ok pk hw | ignore ok pk hw | received ok pk hw | recvEnd ok pk hw
  | sendError ok pk hw | acceptStatus ok pk hw | acceptClosed ok pk hw | acceptEnd ok pk hw
  | acceptSilent ok pk hw | recvClosed ok pk received hw | addRecv ok hw | outEmpty ok pk hw
  | outFail pk long hw | outOpen ok pk hw | outClose ok pk hw | disconnect ok graceful socket hw
  | disconnected ok graceful socket hw =>
      exact .inl (subperm_of_handled rfl rfl rfl)
  | sendDone ok pk hw | outTake ok pk hw | outRest ok pk hw | outLook ok pk hw =>
      exact .inl (subperm_of_handling rfl rfl (by rw [hw]; exact List.Sublist.refl _))
  | recvFlag ok pk received hw | recvFail pk received hw =>
      exact .inl (subperm_of_handled rfl rfl (recvDone_handling ..))
  | recvIssue pk received hw =>
      refine .inr ⟨⟨.m_pRecvEvent, st.pipe.m_lSocketHandler, none⟩, .recv rfl rfl (by rintro ⟨⟩),
        subperm_of_issued rfl rfl ?_⟩
      rw [recvDone_handling]
      exact List.nil_sublist _
  | outIssue pk long hw =>
      refine .inr ⟨_, .WSASend pk long hw rfl rfl rfl
        ⟨st.issued ++ st.port.map Packet.op, ?_, handling_perm (by rw [hw]; rfl)⟩,
        subperm_of_issued rfl rfl (List.nil_sublist _)⟩
      -- The new operation takes the place of the one that was handled.
      simp only [PipeUse.outstanding, UseWorker.handling, PipeUse.issue, List.append_nil,
        List.append_assoc, List.singleton_append]
      exact List.perm_middle

/-! ### Two facts about every use -/

/-- Which operation a packet is taken for. -/
structure Slots (st : PipeUse) : Prop where
  send : ∀ op ∈ st.outstanding, op.slot = .m_pSendEvent →
    st.pipe.m_pSendEvent.opt = .SO_TCPSEND
  recv : ∀ op ∈ st.outstanding, op.slot = .m_pRecvEvent →
    st.pipe.m_pRecvEvent.opt ≠ .SO_TCPSEND
  issue : ∀ pk long, st.worker = .outIssue pk long → st.pipe.m_pSendEvent.opt = .SO_TCPSEND

/-- The event of a packet that is not taken for a send is `m_pRecvEvent`. -/
theorem Slots.recv_of_opt (hs : st.Slots) {pk : Packet} (hw : st.worker = .dispatch pk)
    (hopt : (st.event pk.op.slot).opt ≠ .SO_TCPSEND) : pk.op.slot = .m_pRecvEvent := by
  cases hslot : pk.op.slot with
  | m_pRecvEvent => rfl
  | m_pSendEvent =>
      rw [hslot] at hopt
      refine absurd (hs.send pk.op (mem_outstanding.mpr (.inr (.inr ?_))) hslot) hopt
      rw [hw]
      exact .head _

/-- The two events are formatted for what they are used for. -/
theorem Does.events {a : UseAction} (h : Does sNetSendSize st a st') :
    (st'.pipe.m_pSendEvent = st.pipe.m_pSendEvent ∨ st'.pipe.m_pSendEvent.opt = .SO_TCPSEND) ∧
    (st'.pipe.m_pRecvEvent = st.pipe.m_pRecvEvent ∨ st'.pipe.m_pRecvEvent.opt ≠ .SO_TCPSEND) := by
  cases h with
  | AddClient client result hphase =>
      cases result with
      | noSocket | noPort socket => exact ⟨.inl rfl, .inl rfl⟩
      | noConnect socket | pending socket => exact ⟨.inl rfl, .inr (by rintro ⟨⟩)⟩
  | CompletedAccept client result hphase =>
      cases result with
      | refused | noPort socket => exact ⟨.inl rfl, .inl rfl⟩
      | connected socket => exact ⟨.inl rfl, .inr (by rintro ⟨⟩)⟩
  | Processing type queue nUse =>
      cases type with
      | RECV =>
          unfold processEvent
          dsimp only
          split <;> exact ⟨.inl rfl, .inl rfl⟩
      | BREAK | CONNECTFAILD | COUNT => exact ⟨.inl rfl, .inl rfl⟩
      | CONNECTED => exact ⟨.inl rfl, .inr (by rintro ⟨⟩)⟩
  | postSend | outLook => exact ⟨.inr rfl, .inl rfl⟩
  | recvIssue | recvFail | recvClosed => exact ⟨.inl rfl, .inr (by rintro ⟨⟩)⟩
  | _ => exact ⟨.inl rfl, .inl rfl⟩

/-- Before the first step nothing is outstanding. -/
theorem slots_init (p : CPipe) (w : Nat) : (init p w).Slots where
  send _ hop := by cases hop
  recv _ hop := by cases hop
  issue _ _ h := by cases h

/-- An operation that is outstanding behind a step was so before, or the step starts it. -/
theorem Does.mem_outstanding {a : UseAction} (h : Does sNetSendSize st a st') {op : Overlapped}
    (hop : op ∈ st'.outstanding) : op ∈ st.outstanding ∨ Starts sNetSendSize st a st' op := by
  rcases h.outstanding with hsub | ⟨new, hnew, hsub⟩
  · exact .inl (hsub.subset hop)
  · rcases List.mem_cons.mp (hsub.subset hop) with rfl | hop
    · exact .inr hnew
    · exact .inl hop

/-- Only `Out` leads the worker in front of WSASend, and the event is formatted then. -/
theorem Does.at_outIssue {a : UseAction} (h : Does sNetSendSize st a st') {pk : Packet}
    {long : Bool} (hw : st'.worker = .outIssue pk long) :
    st.worker = .outIssue pk long ∨
      (st'.pipe = st.pipe.formatSend ∧ long = st.pipe.outLong sNetSendSize) := by
  cases h with
  | AddClient client result =>
      cases result <;> exact .inl hw
  | CompletedAccept client result =>
      cases result <;> exact .inl hw
  | Processing type queue nUse =>
      rw [processEvent_worker] at hw
      exact .inl hw
  | Send | append | postSend | leaveSend | Close | Recover | complete | timeout => exact .inl hw
  | outLook =>
      cases hw
      exact .inr ⟨rfl, rfl⟩
  | recvFlag ok pk' received | recvFail pk' received | recvIssue pk' received =>
      have hnil := congrArg UseWorker.handling hw
      rw [recvDone_handling] at hnil
      cases hnil
  | _ => cases hw

/-- Every step keeps what the packets are taken for. -/
theorem Slots.step {a : UseAction} (hs : st.Slots) (h : Does sNetSendSize st a st') :
    st'.Slots := by
  obtain ⟨hsend, hrecv⟩ := h.events
  have hkeep : st.pipe.m_pSendEvent.opt = .SO_TCPSEND → st'.pipe.m_pSendEvent.opt = .SO_TCPSEND :=
    fun hopt => hsend.elim (fun hsame => hsame ▸ hopt) id
  refine ⟨fun op hop hslot => ?_, fun op hop hslot => ?_, fun pk long hw => ?_⟩
  · rcases h.mem_outstanding hop with hold | hnew
    · exact hkeep (hs.send op hold hslot)
    · cases hnew with
      | recv hslot' => rw [hslot'] at hslot; cases hslot
      | post _ _ _ _ hopt => exact hopt
      | WSASend pk long hw => exact hkeep (hs.issue pk long hw)
  · rcases hrecv with hsame | hopt
    · rcases h.mem_outstanding hop with hold | hnew
      · exact hsame ▸ hs.recv op hold hslot
      · cases hnew with
        | recv _ _ hopt => exact hopt
        | post _ hslot' => rw [hslot'] at hslot; cases hslot
        | WSASend _ _ _ hslot' => rw [hslot'] at hslot; cases hslot
    · exact hopt
  · rcases h.at_outIssue hw with hold | ⟨hpipe, -⟩
    · exact hkeep (hs.issue pk long hold)
    · rw [hpipe]
      rfl

end PipeUse

end Kernel4GameServer.Iocp
