import Kernel4GameServer.Proofs.Net.Iocp.PendingSend
import Kernel4GameServer.Proofs.Net.Iocp.SendLife

/-!
# `Kernel4GameServer.Proofs.Net.Iocp.GracefulClose`: what has completed when a pipe is closed

`Close` only stores WAITCLOSE. The disconnect is raised by the worker, in `DoRecv` or in the case
SO_ACCEPT when it finds `m_bNeedPostOPT` set, and in `Out` when it has sent everything. `Out` frees
the lock before it reads the status, so a `Send` and a `Close` may come in between.

* `CloseLife`: what holds of the bytes that were written in front of `Close`. `CloseLife.step`
  keeps it as long as no `Close` comes in that place.
* `send_hand_off` puts the send path together, and `stranded_and_overtaken` shows where it ends.
-/

set_option autoImplicit false

namespace Kernel4GameServer.Iocp

open Lib

/-- The worker has seen that the pipe is not established any more. -/
def UseWorker.closing : UseWorker → Bool
  | .acceptFlag _ => true
  | .doRecvFlag _ _ => true
  | .disconnect graceful _ => graceful
  | _ => false

/-- The worker has found the pipe in the map then. -/
theorem UseWorker.inside_of_closing {w : UseWorker} (h : w.closing = true) : w.inside = true := by
  cases w with
  | acceptFlag | doRecvFlag => rfl
  | disconnect graceful socket => exact h
  | _ => cases h

namespace PipeUse

variable {sNetSendSize : Nat} {st st' : PipeUse}

/-- `Close` does not come between the locked section of `Out` and its test of the status while
there is something to send again. -/
def closesLate (st : PipeUse) : UseAction → Bool
  | .Close =>
      match st.worker with
      | .outStatus _ =>
          !decide (st.pipe.m_nStatus = .SS_ESTABLISHED) || st.pipe.m_oSendStream.unread.isEmpty
      | _ => true
  | _ => true

/-- What was written in front of `Close`, and where the worker relies on it. -/
structure CloseLife (st : PipeUse) : Prop where
  before : st.beforeClose <+: st.written
  unclosed : st.pipe.m_nStatus = .SS_ESTABLISHED → st.beforeClose = []
  closing : st.worker.closing = true → st.pipe.m_nStatus ≠ .SS_ESTABLISHED
  idle : st.pipe.m_nStatus ≠ .SS_ESTABLISHED → st.pipe.m_bNeedPostOPT = true →
    st.beforeClose <+: st.completed
  emptied : ∀ pk, st.worker = .outStatus pk → st.pipe.m_nStatus ≠ .SS_ESTABLISHED →
    st.beforeClose <+: st.completed
  graceful : ∀ socket, st.worker = .disconnect true socket → st.beforeClose <+: st.completed

/-! ### What a step does -/

/-- What is written and what has completed only get more. -/
theorem Does.sends_grow {a : UseAction} (hd : Does sNetSendSize st a st') :
    st.written <+: st'.written ∧ st.completed <+: st'.completed := by
  have hsame : SameSend st st' → st.written <+: st'.written ∧ st.completed <+: st'.completed := by
    intro hs
    rw [hs.written, hs.completed]
    exact ⟨List.prefix_rfl, List.prefix_rfl⟩
  cases hd with
  | AddClient client result => exact hsame (AddClient_sameSend st client result)
  | CompletedAccept client result => exact hsame (CompletedAccept_sameSend st client result)
  | Processing type queue nUse =>
      exact hsame (Processing_sameSend st queue type nUse)
  | append a io ha hio =>
      cases StreamState.step_cases hio with
      | write | lock | look | out | free => cases ha
      | stay | relocate | copy => exact ⟨List.prefix_rfl, List.prefix_rfl⟩
      | advance => exact ⟨List.prefix_append _ _, List.prefix_rfl⟩
  | outTake => exact ⟨List.prefix_rfl, List.prefix_append _ _⟩
  | _ => exact ⟨List.prefix_rfl, List.prefix_rfl⟩

/-- The status changes in `Close`, with BREAK or CONNECTFAILD, and when the connection begins. -/
theorem Does.status_kept {g : Stage} {a : UseAction} (hlife : Life st g)
    (hd : Does sNetSendSize st a st') :
    (st'.pipe.m_nStatus = st.pipe.m_nStatus ∧ st'.beforeClose = st.beforeClose) ∨
      (a = .Close ∧ st' = st.Close ∧ st.writer = .idle ∧ st.sending = false) ∨
      (SameSend st st' ∧ st'.worker = st.worker ∧
        (st'.pipe.m_nStatus = .SS_UNINITIALIZE ∨ st.callbacks = [])) := by
  cases hd with
  | AddClient client result hphase =>
      refine .inr (.inr ⟨AddClient_sameSend st client result, ?_,
        .inr (hlife.callbacks_of_created hphase)⟩)
      cases result <;> rfl
  | CompletedAccept client result hphase =>
      refine .inr (.inr ⟨CompletedAccept_sameSend st client result, ?_,
        .inr (hlife.callbacks_of_created hphase)⟩)
      cases result <;> rfl
  | Close hidle _ hsending => exact .inr (.inl ⟨rfl, rfl, hidle, hsending⟩)
  | Processing type queue nUse _ _ _ hqueue =>
      cases type with
      | RECV =>
          left
          unfold processEvent
          dsimp only
          split <;> exact ⟨rfl, rfl⟩
      | COUNT => exact .inl ⟨rfl, rfl⟩
      | BREAK | CONNECTFAILD =>
          exact .inr (.inr ⟨⟨rfl, rfl, rfl, rfl, rfl, rfl, rfl, rfl, rfl⟩, rfl, .inl rfl⟩)
      | CONNECTED =>
          exact .inr (.inr ⟨⟨rfl, rfl, rfl, rfl, rfl, rfl, rfl, rfl, rfl⟩, rfl,
            .inr (hlife.callbacks_of_connected hqueue)⟩)
  | _ => exact .inl ⟨rfl, rfl⟩

/-- The worker begins to close a pipe that is not established. -/
theorem Does.closing {a : UseAction} (hd : Does sNetSendSize st a st')
    (hclosing : st'.worker.closing = true) :
    st.worker.closing = true ∨ st.pipe.m_nStatus ≠ .SS_ESTABLISHED := by
  cases hd with
  | AddClient client result => cases result <;> exact .inl hclosing
  | CompletedAccept client result => cases result <;> exact .inl hclosing
  | Processing type queue nUse =>
      rw [processEvent_worker] at hclosing
      exact .inl hclosing
  | Send | append | postSend | leaveSend | Close | Recover | complete | timeout =>
      exact .inl hclosing
  | acceptClosed ok pk hw hstatus | recvClosed ok pk received hw hstatus => exact .inr hstatus
  | acceptEnd ok pk hw | recvFlag ok pk received hw => exact .inl (by rw [hw]; rfl)
  | outClose ok pk hw hstatus => exact .inr (by rw [hstatus]; decide)
  | recvIssue pk received hw | recvFail pk received hw =>
      cases received <;> cases hclosing
  | _ => cases hclosing

/-- The worker comes to the test of the status in `Out` when it has found the stream empty. -/
theorem Does.at_outStatus {a : UseAction} (hd : Does sNetSendSize st a st') {pk : Packet}
    (hw : st'.worker = .outStatus pk) :
    st.worker = .outStatus pk ∨
      (0 = st.pipe.m_oSendStream.size ∧ st'.completed = st.completed) := by
  cases hd with
  | AddClient client result => cases result <;> exact .inl hw
  | CompletedAccept client result => cases result <;> exact .inl hw
  | Processing type queue nUse =>
      rw [processEvent_worker] at hw
      exact .inl hw
  | Send | append | postSend | leaveSend | Close | Recover | complete | timeout => exact .inl hw
  | outEmpty ok pk' hw' hsize => exact .inr ⟨hsize, rfl⟩
  | recvIssue pk' received | recvFail pk' received => cases received <;> cases hw
  | recvFlag ok pk' received =>
      have hnone : UseWorker.outStatus pk = .wait ∨ UseWorker.outStatus pk = .addRecv ∨
          ∃ graceful socket, UseWorker.outStatus pk = .disconnect graceful socket := by
        rw [← hw]
        unfold recvDone
        dsimp only
        split
        · split
          · exact .inr (.inl rfl)
          · exact .inr (.inr ⟨_, _, rfl⟩)
        · exact .inl rfl
      rcases hnone with hnone | hnone | ⟨_, _, hnone⟩ <;> cases hnone
  | _ => cases hw

/-- The worker raises a graceful disconnect when the flag is set, or behind `Out`. -/
theorem Does.at_graceful {a : UseAction} (hd : Does sNetSendSize st a st') {socket : Int}
    (hw : st'.worker = .disconnect true socket) :
    st.worker = .disconnect true socket ∨
      (st.worker.closing = true ∧ st.pipe.m_bNeedPostOPT = true ∧
        st'.completed = st.completed) ∨
      ∃ pk, st.worker = .outStatus pk ∧ st.pipe.m_nStatus = .SS_WAITCLOSE ∧
        st'.completed = st.completed := by
  cases hd with
  | AddClient client result => cases result <;> exact .inl hw
  | CompletedAccept client result => cases result <;> exact .inl hw
  | Processing type queue nUse =>
      rw [processEvent_worker] at hw
      exact .inl hw
  | Send | append | postSend | leaveSend | Close | Recover | complete | timeout => exact .inl hw
  | acceptEnd ok pk hw' hflag => exact .inr (.inl ⟨by rw [hw']; rfl, hflag, rfl⟩)
  | outClose ok pk hw' hstatus => exact .inr (.inr ⟨pk, hw', hstatus, rfl⟩)
  | recvIssue pk received | recvFail pk received => cases received <;> cases hw
  | recvFlag ok pk received hw' =>
      refine .inr (.inl ⟨by rw [hw']; rfl, ?_, rfl⟩)
      by_contra hclear
      rw [Bool.not_eq_true] at hclear
      rw [hclear] at hw
      cases received <;> cases hw
  | _ => cases hw

/-! ### The step lemma -/

/-- Where everything that was written has completed, so has what was written before `Close`. -/
theorem CloseLife.of_completed (h : CloseLife st) (hdone : st.completed = st.written) :
    st.beforeClose <+: st.completed := by
  rw [hdone]
  exact h.before

/-- A step that does nothing to the status and to what was written before `Close`. -/
theorem CloseLife.keep {a : UseAction} (h : CloseLife st) (hops : SendOps sNetSendSize st)
    (hd : Does sNetSendSize st a st') (hstatus : st'.pipe.m_nStatus = st.pipe.m_nStatus)
    (hbefore : st'.beforeClose = st.beforeClose) : CloseLife st' := by
  obtain ⟨hwritten, hcompleted⟩ := hd.sends_grow
  refine ⟨?_, ?_, ?_, ?_, ?_, ?_⟩
  · rw [hbefore]
    exact h.before.trans hwritten
  · rw [hstatus, hbefore]
    exact h.unclosed
  · intro hclosing
    rw [hstatus]
    exact (hd.closing hclosing).elim h.closing id
  · intro hne hflag
    rw [hstatus] at hne
    rw [hbefore]
    rcases hd.flag_set hflag with hold | ⟨pk, -, -, -, -, hsize⟩
    · exact (h.idle hne hold).trans hcompleted
    · exact (h.of_completed (hops.completed_of_empty hsize)).trans hcompleted
  · intro pk hw hne
    rw [hstatus] at hne
    rw [hbefore]
    rcases hd.at_outStatus hw with hold | ⟨hsize, -⟩
    · exact (h.emptied pk hold hne).trans hcompleted
    · exact (h.of_completed (hops.completed_of_empty hsize)).trans hcompleted
  · intro socket hw
    rw [hbefore]
    rcases hd.at_graceful hw with hold | ⟨hclosing, hflag, -⟩ | ⟨pk, hold, hwaits, -⟩
    · exact (h.graceful socket hold).trans hcompleted
    · exact (h.idle (h.closing hclosing) hflag).trans hcompleted
    · exact (h.emptied pk hold (by rw [hwaits]; decide)).trans hcompleted

/-- `Close` comes when everything has completed, or the worker still has a send to handle. -/
theorem CloseLife.close (h : CloseLife st) (hsend : SendLife st) (hops : SendOps sNetSendSize st)
    (hlate : st.closesLate .Close = true) (hsending : st.sending = false) :
    CloseLife st.Close := by
  by_cases hopen : st.pipe.m_nStatus = .SS_ESTABLISHED
  · have hbefore : st.Close.beforeClose = st.written := if_pos hopen
    refine ⟨?_, ?_, ?_, ?_, ?_, ?_⟩
    · rw [hbefore]
      exact List.prefix_rfl
    · rintro ⟨⟩
    · intro hclosing
      exact absurd hopen (h.closing hclosing)
    · intro _ hflag
      show st.Close.beforeClose <+: st.completed
      simp only [hbefore, hsend.emptied hflag hsending, List.prefix_rfl]
    · intro pk hw _
      have hw : st.worker = .outStatus pk := hw
      -- The worker is between the two parts of `Out`, so the condition asks for an empty stream.
      unfold closesLate at hlate
      rw [hw] at hlate
      simp only [hopen, decide_true, Bool.not_true, Bool.false_or, List.isEmpty_iff] at hlate
      have hfifo : st.completed ++ st.pipe.m_oSendStream.unread = st.written := hops.io.fifo
      rw [hlate, List.append_nil] at hfifo
      show st.Close.beforeClose <+: st.completed
      simp only [hbefore, hfifo, List.prefix_rfl]
    · intro socket hw
      have hw : st.worker = .disconnect true socket := hw
      exact absurd hopen (h.closing (by rw [hw]; rfl))
  · have hbefore : st.Close.beforeClose = st.beforeClose := if_neg hopen
    refine ⟨?_, ?_, ?_, ?_, ?_, ?_⟩
    · -- A second `Close` records nothing new.
      rw [hbefore]
      exact h.before
    · rintro ⟨⟩
    · rintro - ⟨⟩
    · intro _ hflag
      rw [hbefore]
      exact h.idle hopen hflag
    · intro pk hw _
      rw [hbefore]
      exact h.emptied pk hw hopen
    · intro socket hw
      rw [hbefore]
      exact h.graceful socket hw

/-- The connection begins, or its last event is processed. -/
theorem CloseLife.turn {g : Stage} (h : CloseLife st) (hsend : SendLife st) (hlife : Life st g)
    (hsame : SameSend st st') (hworker : st'.worker = st.worker)
    (hstatus : st'.pipe.m_nStatus = .SS_UNINITIALIZE ∨ st.callbacks = []) : CloseLife st' := by
  rcases hstatus with hstatus | hcalls
  · -- A pipe that was established was not closed.
    have hnil : st.pipe.m_nStatus = .SS_ESTABLISHED → st.beforeClose <+: st.completed := by
      intro hopen
      rw [h.unclosed hopen]
      exact List.nil_prefix
    refine ⟨?_, ?_, ?_, ?_, ?_, ?_⟩
    · rw [hsame.beforeClose, hsame.written]
      exact h.before
    · rw [hstatus]
      rintro ⟨⟩
    · rw [hstatus]
      rintro - ⟨⟩
    · intro _ hflag
      rw [hsame.flag] at hflag
      rw [hsame.beforeClose, hsame.completed]
      exact (Classical.em _).elim hnil fun hne => h.idle hne hflag
    · intro pk hw _
      rw [hworker] at hw
      rw [hsame.beforeClose, hsame.completed]
      exact (Classical.em _).elim hnil (h.emptied pk hw)
    · intro socket hw
      rw [hworker] at hw
      rw [hsame.beforeClose, hsame.completed]
      exact h.graceful socket hw
  · -- No callback came yet, so nothing was sent before a close.
    have hnil : st'.beforeClose = [] := hsame.beforeClose.trans (hsend.unsent hcalls).beforeClose
    refine ⟨?_, fun _ => hnil, ?_, ?_, ?_, ?_⟩
    · rw [hnil]
      exact List.nil_prefix
    · intro hclosing
      rw [hworker] at hclosing
      -- A worker inside `Out` handles a pipe whose session has had a callback.
      have hreg := hsend.inside (UseWorker.inside_of_closing hclosing)
      have hcalled := (hlife.linked_of_registered hreg).1
      rw [hcalls] at hcalled
      cases hcalled
    · rw [hnil]
      exact fun _ _ => List.nil_prefix
    · rw [hnil]
      exact fun _ _ _ => List.nil_prefix
    · rw [hnil]
      exact fun _ _ => List.nil_prefix

/-- Every step keeps it, as long as no `Close` comes between the two parts of `Out`. -/
theorem CloseLife.step {g : Stage} {a : UseAction} (h : CloseLife st) (hsend : SendLife st)
    (hops : SendOps sNetSendSize st) (hlife : Life st g) (hlate : st.closesLate a = true)
    (hd : Does sNetSendSize st a st') : CloseLife st' := by
  rcases hd.status_kept hlife with ⟨hstatus, hbefore⟩ | ⟨rfl, rfl, -, hsending⟩ |
    ⟨hsame, hworker, hstatus⟩
  · exact h.keep hops hd hstatus hbefore
  · exact h.close hsend hops hlate hsending
  · exact h.turn hsend hlife hsame hworker hstatus

/-- A pipe that leaves the pool was not closed in this use. -/
theorem closeLife_init (p : CPipe) (w : Nat) : CloseLife (init p w) where
  before := List.nil_prefix
  unclosed _ := rfl
  closing := by rintro ⟨⟩
  idle _ _ := List.nil_prefix
  emptied _ _ _ := List.nil_prefix
  graceful _ _ := List.nil_prefix

/-! ### Runs -/

/-- What holds in every state of a use of a fresh pipe. -/
structure Use (sNetSendSize : Nat) (st : PipeUse) : Prop where
  ops : SendOps sNetSendSize st
  life : ∃ g, Life st g
  send : SendLife st

/-- Every step keeps it. -/
theorem Use.step {a : UseAction} (h : Use sNetSendSize st) (hlate : st.sendsLate a = true)
    (hd : Does sNetSendSize st a st') : Use sNetSendSize st' := by
  obtain ⟨g, hlife⟩ := h.life
  exact ⟨h.ops.step hd, hlife.step h.ops.slots hd, h.send.step h.ops hlife hlate hd⟩

/-- A fresh pipe. -/
theorem use_init {p : CPipe} (hp : p.m_oSendStream.WellFormed)
    (hempty : p.m_oSendStream.unread = []) (hflag : p.m_bNeedPostOPT = true) (w : Nat) :
    Use sNetSendSize (init p w) :=
  ⟨sendOps_init hp w, ⟨.created, life_init p w⟩, sendLife_init hempty hflag w⟩

/-- The graceful disconnects of a run in which no `Close` comes between the two parts of
`Out`. -/
theorem run_closeLife {p : CPipe} (hp : p.m_oSendStream.WellFormed)
    (hempty : p.m_oSendStream.unread = []) (hflag : p.m_bNeedPostOPT = true) {w : Nat}
    {as : List UseAction} (hrun : run (step sNetSendSize) (init p w) as = some st)
    (hsends : AllSteps (step sNetSendSize) (fun st a => st.sendsLate a = true) (init p w) as)
    (hcloses : AllSteps (step sNetSendSize) (fun st a => st.closesLate a = true) (init p w) as) :
    CloseLife st := by
  have hboth := allSteps_and.mpr ⟨hsends, hcloses⟩
  have hend := run_invariant_of (I := fun st => Use sNetSendSize st ∧ CloseLife st)
    (fun _ _ _ ⟨huse, hclose⟩ ⟨hs, hc⟩ hstep => by
      obtain ⟨g, hlife⟩ := huse.life
      have hd := step_does hstep
      exact ⟨huse.step hs hd, hclose.step huse.send huse.ops hlife hc hd⟩)
    ⟨use_init hp hempty hflag w, closeLife_init p w⟩ hboth hrun
  exact hend.2

/-- The send path of one use of a fresh pipe, whose session sends behind `OnConnected`.

* At most one operation on `m_pSendEvent` is outstanding.
* While the pipe is registered and no send has failed, the flag is clear exactly when there is
  one.
* Until BREAK is queued, and while no send has failed, a pipe with bytes to send has one, unless
  a `Send` is in front of its locked section.
* What has completed, what is still in the stream and what a running `in` has to write are the
  arguments of all `Send` calls.
* Where `Close` never comes between the locked section of `Out` and its test of the status with
  bytes to send, a graceful disconnect is raised when everything that was written in front of
  `Close` has completed.

The offsets of `m_oSendStream` are those of `s32` while there is room for the bytes of every `Send`
(`TStream.HasRoom`). -/
theorem send_hand_off {p : CPipe} (hp : p.m_oSendStream.WellFormed)
    (hempty : p.m_oSendStream.unread = []) (hflag : p.m_bNeedPostOPT = true) {w : Nat}
    {as : List UseAction} (hrun : run (step sNetSendSize) (init p w) as = some st)
    (hsends : AllSteps (step sNetSendSize) (fun st a => st.sendsLate a = true) (init p w) as) :
    st.outstandingOn .m_pSendEvent ≤ 1 ∧
    (st.registered → st.sendFailed = false →
      (st.pipe.m_bNeedPostOPT = false ↔ st.outstandingOn .m_pSendEvent = 1)) ∧
    (st.pipe.m_oSendStream.unread ≠ [] → st.sending = false → st.sendFailed = false →
      .BREAK ∉ st.queued → st.outstandingOn .m_pSendEvent = 1) ∧
    st.completed ++ st.pipe.m_oSendStream.unread ++ st.writer.pending = st.sent ∧
    (AllSteps (step sNetSendSize) (fun st a => st.closesLate a = true) (init p w) as →
      ∀ socket, st.worker = .disconnect true socket → st.beforeClose <+: st.completed) := by
  obtain ⟨hops, ⟨g, hlife⟩, hsend⟩ : Use sNetSendSize st :=
    run_invariant_of (fun _ _ _ huse hs hstep => huse.step hs (step_does hstep))
      (use_init hp hempty hflag w) hsends hrun
  have hfifo : st.completed ++ st.pipe.m_oSendStream.unread = st.written := hops.io.fifo
  have hone := hops.one
  refine ⟨hone, fun hreg hfailed => ⟨fun hclear => ?_, fun hcount => ?_⟩, ?_, ?_, ?_⟩
  · have halive := hsend.alive (hlife.linked_of_registered hreg) hfailed hclear
    omega
  · by_contra hset
    have hzero := hops.free (Bool.not_eq_false _ ▸ hset)
    omega
  · intro hunread hsending hfailed hbreak
    -- Before `OnConnected` nothing was sent, and the stream is not empty.
    have hcalled : .OnConnected ∈ st.callbacks := by
      by_contra hnot
      have hnil := (hsend.early hnot).written
      rw [← hfifo] at hnil
      exact hunread (List.append_eq_nil_iff.mp hnil).2
    -- A set flag means that everything has completed.
    have hclear : st.pipe.m_bNeedPostOPT = false := by
      by_contra hset
      have hdone := hsend.emptied (Bool.not_eq_false _ ▸ hset) hsending
      rw [← hfifo] at hdone
      exact hunread (List.self_eq_append_right.mp hdone)
    have halive := hsend.alive ⟨hcalled, hbreak⟩ hfailed hclear
    omega
  · rw [hfifo]
    exact hsend.bytes
  · exact fun hcloses => (run_closeLife hp hempty hflag hrun hsends hcloses).graceful

/-- A connection sends a byte, and the worker is between the two parts of `Out`. Then it sends
another one. -/
def sendAgainRun : List UseAction :=
  pendingRun ++
    [.complete 1 ⟨[0], 0⟩, .dequeue, .Run true, .Run true, .Run true, .Send [2],
      .append .relocate, .append .copy, .append .advance, .sendLocked]

/-- When `Out` has seen that the pipe is open it sends the second byte too, and the disconnect
that follows `Close` finds both completed. -/
def sendThenCloseRun : List UseAction :=
  sendAgainRun ++
    [.Run true, .Close, .dequeue, .Run true, .Run true, .Run true, .Run true, .Run true,
      .complete 1 ⟨[0], 0⟩, .dequeue, .Run true, .Run true, .Run true, .Run true]

/-- That run. -/
theorem send_hand_off_graceful :
    ∃ st, run (step 1024) (init .new 0) sendThenCloseRun = some st ∧
      st.worker = .disconnect true 5 ∧ st.beforeClose = [1, 2] ∧ [1, 2] <+: st.completed ∧
      st.completed ++ st.pipe.m_oSendStream.unread ++ st.writer.pending = [1, 2] := by
  obtain ⟨st, hst, hworker, hbefore, hsent⟩ :
      ∃ st, run (step 1024) (init .new 0) sendThenCloseRun = some st ∧
        st.worker = .disconnect true 5 ∧ st.beforeClose = [1, 2] ∧ st.sent = [1, 2] :=
    ⟨_, rfl, rfl, rfl, rfl⟩
  obtain ⟨-, -, -, hbytes, hgraceful⟩ := send_hand_off new_wf rfl rfl hst (by decide)
  rw [hsent] at hbytes
  have hcloses := hgraceful (by decide) 5 hworker
  rw [hbefore] at hcloses
  exact ⟨st, hst, hworker, hbefore, hcloses, hbytes⟩

/-- The peer closes, and the session sends behind the disconnect. -/
def strandedRun : List UseAction :=
  [.CompletedAccept 7 (.connected 5), .dequeue, .Run true, .Run true, .Run true,
    .complete 0 ⟨[], 0⟩, .dequeue, .Run true, .Run true, .Send [1], .append .relocate,
    .append .copy, .append .advance, .sendLocked, .dequeue, .Run true]

/-- `Close` comes when `Out` has freed the lock, behind a `Send`. -/
def overtakenRun : List UseAction := sendAgainRun ++ [.Close, .Run true]

/-- Behind a disconnect a byte stays in the stream with nothing outstanding. And the worker
raises a graceful disconnect with a byte that was sent before `Close` and has not completed. -/
theorem stranded_and_overtaken :
    (∃ st, run (step 1024) (init .new 0) strandedRun = some st ∧
      AllSteps (step 1024) (fun st a => st.sendsLate a = true) (init .new 0) strandedRun ∧
      st.pipe.m_oSendStream.unread = [1] ∧ st.sending = false ∧ st.writer.pending = [] ∧
      st.sendFailed = false ∧ st.outstandingOn .m_pSendEvent = 0) ∧
    (∃ st, run (step 1024) (init .new 0) overtakenRun = some st ∧
      AllSteps (step 1024) (fun st a => st.sendsLate a = true) (init .new 0) overtakenRun ∧
      st.worker = .disconnect true 5 ∧ st.beforeClose = [1, 2] ∧ st.completed = [1]) :=
  ⟨⟨_, rfl, by decide, rfl, rfl, rfl, rfl, rfl⟩, ⟨_, rfl, by decide, rfl, rfl, rfl⟩⟩

end PipeUse

end Kernel4GameServer.Iocp
