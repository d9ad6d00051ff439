import Kernel4GameServer.Lib.Run
import Kernel4GameServer.Proofs.Net.EdgeWaits

/-!
# `Kernel4GameServer.Proofs.Net.NoLostWakeup`: nothing waits where no report will come

A connection on an edge-triggered socket, in every run. `Inv` adds to `EdgeView.Waits` where the
bytes are: those that came are in `m_oRecvStream` or in the socket, those that `Send` accepted
are on the wire or pending, and bytes that `OnRecv` has not seen have an event on its way.

* `no_lost_wakeup`: when the worker waits, no report is due and the main thread is outside `Send`
  and `Close`, everything that came is in `m_oRecvStream`, and what is pending waits for room that
  will be reported. Behind `Close` everything is sent and BREAK has been added, or the same holds.
-/

set_option autoImplicit false

namespace Kernel4GameServer

open Lib

/-- The event that the worker will add. -/
def WorkerPc.carries : WorkerPc → Bool
  | .inRecv _ n => decide (0 < n)
  | .testSend _ t => decide (t ≠ .COUNT)
  | .inSend _ t => decide (t ≠ .COUNT)
  | .testClose _ t => decide (t ≠ .COUNT)
  | .add t => decide (t ≠ .COUNT)
  | _ => false

/-- The main thread will run the drain loop, or is in it. -/
def Connection.owed (conn : Connection) : Prop :=
  conn.worker.carries = true ∨ conn.queue ≠ [] ∨ ∃ t, conn.main = .draining t

namespace EdgeState

/-- The invariant. -/
structure Inv (st : EdgeState) : Prop where
  wf : st.conn.pipe.m_oSendStream.WellFormed
  waits : st.view.Waits
  received : st.arrived = st.taken ++ st.sock.recvBuf
  sent : st.posted = st.wire ++ st.conn.pipe.m_oSendStream.unread
  seen : st.unseen = true → st.conn.owed

/-- A new connection satisfies the invariant. -/
theorem inv_init (lSocket room : Nat) : (init lSocket room).Inv where
  wf := TStream.init_wf
  waits :=
    { opened := fun _ h => by cases h
      sending := fun _ h => by cases h
      closing := fun _ h => by cases h
      types := fun _ => rfl
      broken := fun h => by cases h
      recvEdge := fun h => by cases h
      edge := fun _ => .inl rfl
      recvs := fun _ _ => .inl rfl
      awaited := fun _ _ h => by
        have hne : (TStream.init : TStream BUFF_SIZE).unread ≠ [] := of_decide_eq_true h
        exact absurd TStream.init_unread hne
      wakes := fun _ h => by cases h
      closes := fun _ h => by cases h
      flushed := fun _ h => by cases h }
  received := rfl
  sent := by
    show [] = [] ++ (TStream.init : TStream BUFF_SIZE).unread
    rw [TStream.init_unread]
    rfl
  seen h := by cases h

/-- A step of the connection that touches neither `m_oSendStream` nor what the main thread owes. -/
theorem Inv.frame {st st' : EdgeState} (hi : st.Inv) (hwaits : st'.view.Waits)
    (hstream : st'.conn.pipe.m_oSendStream = st.conn.pipe.m_oSendStream)
    (hreceived : st'.arrived = st'.taken ++ st'.sock.recvBuf)
    (hposted : st'.posted = st.posted) (hwire : st'.wire = st.wire)
    (hseen : st'.unseen = true → st'.conn.owed) : st'.Inv where
  wf := hstream ▸ hi.wf
  waits := hwaits
  received := hreceived
  sent := by rw [hposted, hwire, hstream, hi.sent]
  seen := hseen

/-- The view keeps its invariant. -/
theorem Inv.waits_step {st st' : EdgeState} {a : EdgeAction} (hi : st.Inv)
    (h : st.step a = some st') : st'.view.Waits := by
  refine hi.waits.turn (step_turn hi.wf (fun hc hreg => ?_) h)
  rw [show st.conn.pipe.m_nStatus = .SS_ESTABLISHED from hi.waits.sending hreg hc]
  decide

/-- `DoClose` leaves the queue, the main thread and what is sent. -/
theorem DoClose_keeps (conn : Connection) :
    conn.DoClose.queue = conn.queue ∧ conn.DoClose.main = conn.main ∧
      conn.DoClose.pipe.m_oSendStream = conn.pipe.m_oSendStream := by
  unfold Connection.DoClose CPipe.DoClose
  split <;> exact ⟨rfl, rfl, rfl⟩

/-- A `recv` of the worker. -/
theorem Inv.recv {st st' : EdgeState} {result : RecvResult} (hi : st.Inv)
    (h : st.step (.recv result) = some st') : st'.Inv := by
  have hwaits := hi.waits_step h
  simp only [EdgeState.step] at h
  obtain ⟨sock, hsock, h⟩ := Option.bind_eq_some_iff.mp h
  obtain ⟨conn, hconn, rfl⟩ := Option.map_eq_some_iff.mp h
  simp only [Connection.step, Connection.workerStep] at hconn
  split at hconn
  · rename_i mask n hw
    cases result with
    | data piece =>
        dsimp only at hconn
        split at hconn
        · rename_i hlen
          cases hconn
          refine hi.frame hwaits rfl ?_ rfl rfl fun _ => .inl ?_
          · -- The piece goes from the socket into the stream.
            show st.arrived = (st.taken ++ piece) ++ sock.recvBuf
            simp only [Socket.recv] at hsock
            split at hsock
            · rename_i hpre
              cases hsock
              obtain ⟨rest, hrest⟩ := hpre.2
              rw [hi.received, List.append_assoc, ← hrest, List.drop_left]
            · cases hsock
          · show decide (0 < n + piece.length) = true
            exact decide_eq_true (by omega)
        · cases hconn
    | EAGAIN =>
        cases hconn
        refine hi.frame hwaits rfl ?_ rfl rfl fun hun => ?_
        · show st.arrived = st.taken ++ sock.recvBuf
          simp only [Socket.recv] at hsock
          split at hsock
          · cases hsock
            exact hi.received
          · cases hsock
        · rcases hi.seen hun with hcarry | hqueue | hmain
          · rw [hw] at hcarry
            have hpos : 0 < n := of_decide_eq_true hcarry
            refine .inl ?_
            show decide ((if n > 0 then IoEventType.RECV else .COUNT) ≠ .COUNT) = true
            rw [if_pos hpos]
            rfl
          · exact .inr (.inl hqueue)
          · exact .inr (.inr hmain)
    | ended =>
        cases hconn
        obtain ⟨rfl, -⟩ := Socket.recv_ended hsock
        exact hi.frame hwaits (DoClose_keeps st.conn).2.2 hi.received rfl rfl
          fun _ => .inl rfl
  · cases hconn

/-- An iteration of `DoSend`. -/
theorem Inv.send {st st' : EdgeState} {result : SendResult} (hi : st.Inv)
    (h : st.step (.send result) = some st') : st'.Inv := by
  have hwaits := hi.waits_step h
  simp only [EdgeState.step] at h
  obtain ⟨sock, hsock, h⟩ := Option.bind_eq_some_iff.mp h
  obtain ⟨conn, hconn, h⟩ := Option.bind_eq_some_iff.mp h
  obtain ⟨⟨r, e⟩, hr, rfl⟩ := Option.map_eq_some_iff.mp h
  simp only [Connection.step, Connection.workerStep] at hconn
  split at hconn
  · rename_i mask t hw
    rw [hr, Option.map_some, Option.some.injEq] at hconn
    have hby := CPipe.doSendRound_sentBy hr
    have hpipe : conn.pipe = r.pipe ∧ conn.queue = st.conn.queue ∧ conn.main = st.conn.main ∧
        (t ≠ .COUNT → conn.worker.carries = true) := by
      subst hconn
      cases e with
      | again =>
          refine ⟨rfl, rfl, rfl, fun ht => ?_⟩
          show st.conn.worker.carries = true
          rw [hw]
          exact decide_eq_true ht
      | returned type =>
          refine ⟨rfl, rfl, rfl, fun ht => ?_⟩
          show decide ((if t ≠ .BREAK ∧ type ≠ .COUNT then type else t) ≠ .COUNT) = true
          refine decide_eq_true ?_
          split
          · rename_i htype
            exact htype.2
          · exact ht
    obtain ⟨hpipe, hqueue, hmain, hcarry⟩ := hpipe
    have hbuf : sock.recvBuf = st.sock.recvBuf := by
      split at hsock
      · exact (Socket.send_frame hsock).1.recvBuf
      · cases hsock
        rfl
    exact
      { wf := by
          show conn.pipe.m_oSendStream.WellFormed
          rw [hpipe]
          exact hby.wf hi.wf
        waits := hwaits
        received := by
          show st.arrived = st.taken ++ sock.recvBuf
          rw [hbuf]
          exact hi.received
        sent := by
          show st.posted = (st.wire ++ r.wire) ++ conn.pipe.m_oSendStream.unread
          rw [hpipe, List.append_assoc, hby.bytes hi.wf]
          exact hi.sent
        seen := fun hun => by
          rcases hi.seen hun with hc | hq | hm
          · rw [hw] at hc
            exact .inl (hcarry (of_decide_eq_true hc))
          · exact .inr (.inl (hqueue ▸ hq))
          · exact .inr (.inr (hmain ▸ hm)) }
  · cases hconn

/-- The socket after the locked section of `Send`: nothing that was received changes. -/
theorem sendSectionOn_recvBuf {p : CPipe} {s s' : Socket} {calls : List SendCall}
    (h : p.sendSectionOn s calls = some s') : s'.recvBuf = s.recvBuf := by
  have hloop : ∀ {calls : List SendCall} {p : CPipe} {s s' : Socket},
      p.sendLoopOn s calls = some s' → s'.recvBuf = s.recvBuf := by
    intro calls
    induction calls with
    | nil =>
        intro p s s' h
        cases h
        rfl
    | cons c calls ih =>
        intro p s s' h
        simp only [CPipe.sendLoopOn] at h
        split at h
        · obtain ⟨u, hu, h⟩ := Option.bind_eq_some_iff.mp h
          obtain ⟨w, hw, -, hsend⟩ := SendCall.on_send hu
          have hu' : u.recvBuf = s.recvBuf :=
            (Socket.send_frame hsend).1.recvBuf.trans hw.recvBuf
          split at h
          · exact (ih h).trans hu'
          · cases h
            exact hu'
        · cases h
          rfl
  unfold CPipe.sendSectionOn at h
  split at h
  · exact hloop h
  · cases h
    rfl

/-- `epoll_ctl` changes no bytes, and nothing of the connection. -/
theorem modify_keeps (st : EdgeState) (opts : List EpollFlags) :
    (st.modify opts).conn = st.conn ∧ (st.modify opts).sock.recvBuf = st.sock.recvBuf ∧
      (st.modify opts).arrived = st.arrived ∧ (st.modify opts).taken = st.taken ∧
      (st.modify opts).posted = st.posted ∧ (st.modify opts).wire = st.wire ∧
      (st.modify opts).unseen = st.unseen := by
  have hfold : ∀ (opts : List EpollFlags) (s : Socket),
      (opts.foldl Socket.modify s).recvBuf = s.recvBuf := by
    intro opts
    induction opts with
    | nil => exact fun _ => rfl
    | cons opt opts ih => exact fun s => ih (s.modify opt)
  unfold modify
  split
  · exact ⟨rfl, hfold opts st.sock, rfl, rfl, rfl, rfl, rfl⟩
  · exact ⟨rfl, rfl, rfl, rfl, rfl, rfl, rfl⟩

/-- The locked section of `Send`. -/
theorem Inv.sendLocked {st st' : EdgeState} {calls : List SendCall} (hi : st.Inv)
    (h : st.step (.sendLocked calls) = some st') : st'.Inv := by
  have hwaits := hi.waits_step h
  simp only [EdgeState.step] at h
  obtain ⟨sock, hsock, h⟩ := Option.bind_eq_some_iff.mp h
  obtain ⟨conn, hconn, h⟩ := Option.bind_eq_some_iff.mp h
  obtain ⟨r, hr, rfl⟩ := Option.map_eq_some_iff.mp h
  simp only [Connection.step, Connection.callStep] at hconn
  split at hconn
  · rw [hr, Option.map_some, Option.some.injEq] at hconn
    subst hconn
    have hby := CPipe.sendSection_sentBy hr
    obtain ⟨hc, hb, ha, ht, hp, hwire, hun⟩ := modify_keeps
      { st with
        conn := { st.conn with pipe := r.pipe, call := .idle }
        sock
        wire := st.wire ++ r.wire } r.posted
    exact
      { wf := hc ▸ hby.wf hi.wf
        waits := hwaits
        received := by
          rw [ha, ht, hb]
          show st.arrived = st.taken ++ sock.recvBuf
          rw [sendSectionOn_recvBuf hsock]
          exact hi.received
        sent := by
          rw [hp, hwire, hc]
          show st.posted = (st.wire ++ r.wire) ++ r.pipe.m_oSendStream.unread
          rw [List.append_assoc, hby.bytes hi.wf]
          exact hi.sent
        seen := fun hseen => hc ▸ hi.seen (hun ▸ hseen) }
  · cases hconn

/-- The unlocked part of `Send`. -/
theorem Inv.Send {st st' : EdgeState} {src : List UInt8} (hi : st.Inv)
    (h : st.step (.Send src) = some st') : st'.Inv := by
  have hwaits := hi.waits_step h
  simp only [EdgeState.step, plain, Option.map_map] at h
  obtain ⟨conn, hconn, rfl⟩ := Option.map_eq_some_iff.mp h
  simp only [Connection.step, Connection.callStep] at hconn
  split at hconn
  · cases hconn
    dsimp only [Function.comp] at hwaits ⊢
    by_cases hstatus : st.conn.pipe.m_nStatus = .SS_ESTABLISHED
    · rw [CPipe.sendIn_accepted hstatus, if_pos hstatus] at hwaits ⊢
      have hnonneg : (0 : Int) ≤ src.length := Int.natCast_nonneg _
      have hunread := TStream.inBytes_unread BUFF_SIZE_pos hi.wf (Mem.ofList src 0) hnonneg
      rw [Int.toNat_natCast, Mem.slice_ofList] at hunread
      exact
        { wf := TStream.inBytes_wf BUFF_SIZE_pos hi.wf _ hnonneg
          waits := hwaits
          received := hi.received
          sent := by
            show st.posted ++ src
              = st.wire ++ (st.conn.pipe.m_oSendStream.inBytes (Mem.ofList src 0) src.length).unread
            rw [hunread, ← List.append_assoc, ← hi.sent]
          seen := hi.seen }
    · rw [CPipe.sendIn_refused hstatus, if_neg hstatus] at hwaits ⊢
      exact hi.frame hwaits rfl hi.received rfl rfl hi.seen
  · cases hconn

/-- A test of the worker, or an event that it adds. -/
theorem Inv.worker {st st' : EdgeState} {a : ConnAction}
    (ha : a = .testRecv ∨ a = .testSend ∨ a = .testClose ∨ a = .add) (hi : st.Inv)
    (hwaits : st'.view.Waits) (h : st.plain a = some st') : st'.Inv := by
  obtain ⟨conn, hconn, rfl⟩ := Option.map_eq_some_iff.mp h
  have howed : conn.pipe.m_oSendStream = st.conn.pipe.m_oSendStream ∧
      (st.conn.owed → conn.owed) := by
    rcases ha with rfl | rfl | rfl | rfl <;>
      simp only [Connection.step, Connection.workerStep] at hconn <;> split at hconn
    · rename_i mask hw
      -- Nothing is carried before `DoRecv` has run.
      have hno : st.conn.worker.carries = false := by rw [hw]; rfl
      split at hconn <;> cases hconn <;>
        exact ⟨rfl, fun ho => ho.elim (fun hc => by rw [hno] at hc; cases hc) .inr⟩
    · cases hconn
    · rename_i mask t hw
      split at hconn <;> cases hconn <;>
        exact ⟨rfl, fun ho => ho.imp_left fun hc => by rw [hw] at hc; exact hc⟩
    · cases hconn
    · rename_i mask t hw
      split at hconn <;> cases hconn
      · obtain ⟨hqueue, hmain, hstream⟩ := DoClose_keeps st.conn
        refine ⟨hstream, fun ho => ?_⟩
        rcases ho with hc | hq | hm
        · rw [hw] at hc
          exact .inl hc
        · exact .inr (.inl (hqueue ▸ hq))
        · exact .inr (.inr (hmain ▸ hm))
      · exact ⟨rfl, fun ho => ho.imp_left fun hc => by rw [hw] at hc; exact hc⟩
    · cases hconn
    · rename_i t hw
      split at hconn
      · cases hconn
        refine ⟨rfl, fun _ => .inr (.inl ?_)⟩
        exact List.append_ne_nil_of_right_ne_nil _ (List.cons_ne_nil _ _)
      · rename_i hcount
        cases hconn
        -- COUNT stands for no event.
        have hno : st.conn.worker.carries = false := by
          rw [hw]
          exact decide_eq_false hcount
        exact ⟨rfl, fun ho => ho.elim (fun hc => by rw [hno] at hc; cases hc) .inr⟩
    · cases hconn
  exact hi.frame hwaits howed.1 hi.received rfl rfl fun hun => howed.2 (hi.seen hun)

/-- `Processing` takes an event, and goes on to the drain loop. -/
theorem Inv.read {st st' : EdgeState} (hi : st.Inv) (h : st.step .read = some st') : st'.Inv := by
  have hwaits := hi.waits_step h
  obtain ⟨conn, hconn, rfl⟩ := Option.map_eq_some_iff.mp h
  simp only [Connection.step, Connection.mainStep] at hconn
  split at hconn
  · cases hconn
    exact hi.frame hwaits rfl hi.received rfl rfl fun _ => .inr (.inr ⟨_, rfl⟩)
  · cases hconn

/-- A round of the drain loop. It ends with a call of `OnRecv` that used nothing. -/
theorem Inv.round {st st' : EdgeState} {nUse : Int} (hi : st.Inv)
    (h : st.step (.round nUse) = some st') : st'.Inv := by
  have hwaits := hi.waits_step h
  simp only [EdgeState.step, plain, Option.map_map] at h
  obtain ⟨conn, hconn, rfl⟩ := Option.map_eq_some_iff.mp h
  simp only [Connection.step, Connection.mainStep] at hconn
  split at hconn
  · rename_i t hcall hmain
    dsimp only [Function.comp] at hwaits ⊢
    by_cases hsize : st.conn.pipe.m_oRecvStream.size > 0
    · rw [if_pos hsize] at hconn
      cases hconn
      by_cases huse : nUse = 0
      · rw [if_neg fun hand => hand.2 huse] at hwaits ⊢
        exact hi.frame hwaits rfl hi.received rfl rfl fun hun => by cases hun
      · rw [if_pos ⟨hsize, huse⟩] at hwaits ⊢
        refine hi.frame hwaits rfl hi.received rfl rfl fun _ => .inr (.inr ⟨t, ?_⟩)
        exact if_pos fun h0 => huse h0.symm
    · rw [if_neg hsize] at hconn
      cases hconn
      rw [if_neg fun hand => hsize hand.1] at hwaits ⊢
      exact hi.frame hwaits rfl hi.received rfl rfl fun hun => by cases hun
  · cases hconn

/-- The end of an event. Bytes that came behind the last round have an event of their own. -/
theorem Inv.finish {st st' : EdgeState} (hi : st.Inv) (h : st.step .finish = some st') :
    st'.Inv := by
  have hwaits := hi.waits_step h
  obtain ⟨conn, hconn, rfl⟩ := Option.map_eq_some_iff.mp h
  simp only [Connection.step, Connection.mainStep] at hconn
  split at hconn
  · rename_i t hcall hmain
    cases hconn
    refine hi.frame hwaits rfl hi.received rfl rfl fun hun => ?_
    rcases hi.seen hun with hc | hq | ⟨t', hm⟩
    · exact .inl hc
    · exact .inr (.inl hq)
    · rw [hmain] at hm
      cases hm
  · cases hconn

/-- Every step keeps the invariant. -/
theorem Inv.step {st st' : EdgeState} {a : EdgeAction} (hi : st.Inv)
    (h : st.step a = some st') : st'.Inv := by
  have hwaits := hi.waits_step h
  cases a with
  | arrive bs edge =>
      obtain ⟨sock, hsock, rfl⟩ := Option.map_eq_some_iff.mp h
      refine hi.frame hwaits rfl ?_ rfl rfl hi.seen
      unfold Socket.arrive at hsock
      split at hsock
      · cases hsock
        show st.arrived ++ bs = st.taken ++ (st.sock.recvBuf ++ bs)
        rw [hi.received, List.append_assoc]
      · cases hsock
  | free k edge =>
      obtain ⟨sock, hsock, rfl⟩ := Option.map_eq_some_iff.mp h
      refine hi.frame hwaits rfl ?_ rfl rfl hi.seen
      show st.arrived = st.taken ++ sock.recvBuf
      rw [(Socket.free_frame hsock).1.recvBuf]
      exact hi.received
  | hangup rst =>
      cases h
      exact hi.frame hwaits rfl hi.received rfl rfl hi.seen
  | event mask =>
      simp only [EdgeState.step] at h
      split at h
      · obtain ⟨conn, hconn, rfl⟩ := Option.map_eq_some_iff.mp h
        simp only [Connection.step, Connection.workerStep] at hconn
        split at hconn
        · rename_i hw
          split at hconn
          · cases hconn
            have hbuf : st.sock.reported.recvBuf = st.sock.recvBuf := by
              unfold Socket.reported
              split <;> rfl
            have hno : st.conn.worker.carries = false := by rw [hw]; rfl
            refine hi.frame hwaits rfl ?_ rfl rfl fun hun => ?_
            · show st.arrived = st.taken ++ st.sock.reported.recvBuf
              rw [hbuf]
              exact hi.received
            · exact (hi.seen hun).elim (fun hc => by rw [hno] at hc; cases hc) .inr
          · cases hconn
        · cases hconn
      · cases h
  | skip =>
      simp only [EdgeState.step] at h
      split at h
      · cases h
        exact hi.frame hwaits rfl hi.received rfl rfl hi.seen
      · cases h
  | recv result => exact hi.recv h
  | send result => exact hi.send h
  | sendLocked calls => exact hi.sendLocked h
  | closeLocked =>
      simp only [EdgeState.step] at h
      obtain ⟨conn, hconn, rfl⟩ := Option.map_eq_some_iff.mp h
      simp only [Connection.step, Connection.callStep] at hconn
      split at hconn
      · cases hconn
        obtain ⟨hc, hb, ha, ht, hp, hwire, hun⟩ := modify_keeps
          { st with conn := { st.conn with pipe := st.conn.pipe.closeSection.pipe, call := .idle } }
          st.conn.pipe.closeSection.posted
        refine hi.frame hwaits (by rw [hc]; rfl) ?_ hp hwire fun hseen => ?_
        · rw [ha, ht, hb]
          exact hi.received
        · rw [hc]
          exact hi.seen (hun ▸ hseen)
      · cases hconn
  | testRecv => exact hi.worker (.inl rfl) hwaits h
  | testSend => exact hi.worker (.inr (.inl rfl)) hwaits h
  | testClose => exact hi.worker (.inr (.inr (.inl rfl))) hwaits h
  | add => exact hi.worker (.inr (.inr (.inr rfl))) hwaits h
  | Send src => exact hi.Send h
  | Close =>
      obtain ⟨conn, hconn, rfl⟩ := Option.map_eq_some_iff.mp h
      simp only [Connection.step, Connection.callStep] at hconn
      split at hconn
      · cases hconn
        exact hi.frame hwaits rfl hi.received rfl rfl hi.seen
      · cases hconn
  | read => exact hi.read h
  | round nUse => exact hi.round h
  | finish => exact hi.finish h

/-- Every reachable state satisfies the invariant. -/
theorem run_inv {lSocket room : Nat} {as : List EdgeAction} {st : EdgeState}
    (h : run EdgeState.step (init lSocket room) as = some st) : st.Inv :=
  run_invariant (fun _ _ _ hi hs => hi.step hs) (inv_init lSocket room) h

/-- The worker is in `epoll_wait` and no report is due, and the main thread is outside `Send`
and `Close`. -/
structure Quiet (st : EdgeState) : Prop where
  wait : st.conn.worker = .wait
  ready : st.sock.ready = false
  idle : st.conn.call = .idle

/-- What is true of a quiet state with the invariant. -/
theorem Inv.quiet {st : EdgeState} (hi : st.Inv) (hquiet : st.Quiet)
    (hreg : st.conn.registered = true) (hbroken : st.sock.broken = false) :
    (st.conn.pipe.m_nStatus = .SS_ESTABLISHED →
      st.taken = st.arrived ∧ st.sock.ended = false ∧ st.sock.recvEdge = true ∧
      (st.conn.pipe.m_oSendStream.unread ≠ [] → st.sock.room = 0 ∧ st.sock.sendEdge = true)) ∧
    (st.conn.pipe.m_nStatus = .SS_WAITCLOSE →
      (st.wire = st.posted ∧ st.conn.hasBroken = true) ∨
      (st.sock.room = 0 ∧ st.sock.sendEdge = true)) ∧
    (st.unseen = true → st.conn.queue ≠ [] ∨ ∃ t, st.conn.main = .draining t) := by
  obtain ⟨hwait, hready, hidle⟩ := hquiet
  have hlive : st.view.live := ⟨hreg, hbroken⟩
  have hcall : st.view.call = .idle := hidle
  -- The worker is in no call, so whatever is due is due to be reported.
  have hnosend : st.view.worker.willSend = false := by
    show st.conn.worker.willSend = false
    rw [hwait]
    rfl
  have hnorecv : st.view.worker.willRecv = false := by
    show st.conn.worker.willRecv = false
    rw [hwait]
    rfl
  have hbreaks : st.view.breaks = st.conn.hasBroken := by
    show (st.conn.hasBroken || st.conn.worker.willBreak) = st.conn.hasBroken
    rw [hwait]
    exact Bool.or_false _
  have hroom : EdgeView.roomDue st.sock → st.sock.room = 0 ∧ st.sock.sendEdge = true :=
    fun hdue => hdue.resolve_right fun hand => by
      rw [hready] at hand
      cases hand.2
  refine ⟨fun hs => ?_, fun hs => ?_, fun hun => ?_⟩
  · obtain ⟨hnil, hend, hedge⟩ : st.sock.recvBuf = [] ∧ st.sock.ended = false ∧
        st.sock.recvEdge = true := by
      rcases hi.waits.recvs hlive hs with hr | hr | hr
      · rw [show st.view.sock.ready = false from hready] at hr
        cases hr
      · rw [hnorecv] at hr
        cases hr
      · exact hr
    refine ⟨?_, hend, hedge, fun hne => ?_⟩
    · rw [hi.received, hnil, List.append_nil]
    · -- Pending bytes wait with the flag cleared.
      have hneed := hi.waits.awaited hlive (by rw [hcall]; decide) (decide_eq_true hne)
      rcases hi.waits.wakes hlive hneed with hw | hw | hw
      · rw [hnosend] at hw
        cases hw
      · have hclose := (hi.waits.flushed hlive hw).1
        rw [show st.view.status = .SS_ESTABLISHED from hs] at hclose
        cases hclose
      · exact hroom hw
  · have hdone : st.view.breaks = true → st.wire = st.posted ∧ st.conn.hasBroken = true := by
      intro hb
      have hnil : st.conn.pipe.m_oSendStream.unread = [] :=
        Decidable.not_not.mp (of_decide_eq_false (hi.waits.flushed hlive hb).2)
      refine ⟨?_, hbreaks.symm.trans hb⟩
      rw [hi.sent, hnil, List.append_nil]
    cases hneed : st.view.needSend with
    | true =>
        rcases hi.waits.closes hlive hs (by rw [hcall]; decide) hneed with hw | hw | hw
        · rw [hnosend] at hw
          cases hw
        · exact .inl (hdone hw)
        · exact .inr (hroom hw.2)
    | false =>
        rcases hi.waits.wakes hlive hneed with hw | hw | hw
        · rw [hnosend] at hw
          cases hw
        · exact .inl (hdone hw)
        · exact .inr (hroom hw)
  · rcases hi.seen hun with hc | hq
    · rw [hwait] at hc
      cases hc
    · exact hq

/-- No wakeup is lost. Whenever a connection is quiet, on a socket that is in the epoll set and
not broken:

* What came to an established pipe is all in `m_oRecvStream`, the end of the stream has not come,
  and the next arrival will be reported.
* Bytes that are pending on an established pipe wait for room, which will be reported.
* Behind a `Close` everything that `Send` accepted is on the wire and BREAK has been added, or
  the room that is missing will be reported.
* Bytes that `OnRecv` has not seen have an event in the queue, or the main thread is in the drain
  loop. -/
theorem no_lost_wakeup (lSocket room : Nat) (as : List EdgeAction) (st : EdgeState)
    (h : run EdgeState.step (init lSocket room) as = some st) (hquiet : st.Quiet)
    (hreg : st.conn.registered = true) (hbroken : st.sock.broken = false) :
    (st.conn.pipe.m_nStatus = .SS_ESTABLISHED →
      st.taken = st.arrived ∧ st.sock.ended = false ∧ st.sock.recvEdge = true ∧
      (st.conn.pipe.m_oSendStream.unread ≠ [] → st.sock.room = 0 ∧ st.sock.sendEdge = true)) ∧
    (st.conn.pipe.m_nStatus = .SS_WAITCLOSE →
      (st.wire = st.posted ∧ st.conn.hasBroken = true) ∨
      (st.sock.room = 0 ∧ st.sock.sendEdge = true)) ∧
    (st.unseen = true → st.conn.queue ≠ [] ∨ ∃ t, st.conn.main = .draining t) :=
  (run_inv h).quiet hquiet hreg hbroken

/-- The report behind the connection, a `Send` of which the socket takes two bytes, and a byte
that comes and is read. -/
def waitingRun : List EdgeAction :=
  [.event { EPOLLOUT := true }, .testRecv, .testSend, .send .EAGAIN, .testClose, .add,
    .Send [1, 2, 3], .sendLocked [⟨none, .sent 2⟩, ⟨none, .EAGAIN⟩],
    .arrive [9] true, .event { EPOLLIN := true }, .testRecv, .recv (.data [9]), .recv .EAGAIN,
    .testSend, .testClose, .add, .read, .round 0, .finish]

/-- Behind that run the byte is in `m_oRecvStream`, and the third byte waits for room. -/
theorem no_lost_wakeup_waiting :
    ∃ st, run EdgeState.step (init 7 2) waitingRun = some st ∧ st.taken = st.arrived ∧
      st.sock.room = 0 ∧ st.sock.sendEdge = true := by
  obtain ⟨st, hst, hwait, hready, hidle, hreg, hbroken, hstatus, hsize⟩ :
      ∃ st, run EdgeState.step (init 7 2) waitingRun = some st ∧ st.conn.worker = .wait ∧
        st.sock.ready = false ∧ st.conn.call = .idle ∧ st.conn.registered = true ∧
        st.sock.broken = false ∧ st.conn.pipe.m_nStatus = .SS_ESTABLISHED ∧
        st.conn.pipe.m_oSendStream.size = 1 :=
    ⟨_, rfl, rfl, rfl, rfl, rfl, rfl, rfl, rfl⟩
  obtain ⟨htaken, -, -, hroom⟩ :=
    (no_lost_wakeup 7 2 waitingRun st hst ⟨hwait, hready, hidle⟩ hreg hbroken).1 hstatus
  refine ⟨st, hst, htaken, hroom fun hnil => ?_⟩
  have hnone := CPipe.unread_eq_nil.mp hnil
  rw [hsize] at hnone
  exact hnone (by decide)

end EdgeState

end Kernel4GameServer
