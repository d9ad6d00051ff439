import Kernel4GameServer.Net.Epoll.Edge
import Kernel4GameServer.Proofs.Net.CPipe

/-!
# `Kernel4GameServer.Proofs.Net.EdgeTurns`: what a step does to what waits

Whether something waits for a report depends on little: where the worker is and whether the main
thread is inside a call, the status and `m_bNeedSend`, whether bytes are pending, the socket, and
whether BREAK has been added. `EdgeView` is that much of an `EdgeState`, and `Turn` the moves on
it. `step_turn` says that every step is one of these moves, so the invariants of the wakeups
speak of `Turn` only.

`LockedSend` is the locked section of `Send` on the view, which is the one step that makes many
calls: it ends with nothing pending, with a socket that has no room, or with a broken one.
-/

set_option autoImplicit false

namespace Kernel4GameServer

open Lib

/-- What waiting depends on. -/
structure EdgeView where
  registered : Bool
  status : SocketStatus
  needSend : Bool
  pending : Bool
  call : SendMain
  worker : WorkerPc
  sock : Socket
  broke : Bool

/-- BREAK has been added. -/
def Connection.hasBroken (conn : Connection) : Bool :=
  conn.log.any fun
    | .Add .BREAK _ => true
    | _ => false

/-- The view of a state. -/
def EdgeState.view (st : EdgeState) : EdgeView where
  registered := st.conn.registered
  status := st.conn.pipe.m_nStatus
  needSend := st.conn.pipe.m_bNeedSend
  pending := decide (st.conn.pipe.m_oSendStream.unread ≠ [])
  call := st.conn.call
  worker := st.conn.worker
  sock := st.sock
  broke := st.conn.hasBroken

namespace EdgeView

/-- `DoClose()`. -/
def DoClose (v : EdgeView) : EdgeView :=
  if v.status ≠ .SS_UNINITIALIZE then { v with status := .SS_UNINITIALIZE, registered := false }
  else v

/-- A socket on which calls of `send` were made. -/
structure SendFrame (s s' : Socket) : Prop where
  recvBuf : s'.recvBuf = s.recvBuf
  ended : s'.ended = s.ended
  broken : s'.broken = s.broken
  recvEdge : s'.recvEdge = s.recvEdge
  ready : s.ready = true → s'.ready = true

/-- The locked section of `Send`, from the flag and the pending bytes before it to those
behind it. -/
inductive LockedSend (needSend pending : Bool) (s : Socket) : Bool → Bool → Socket → Prop where
  | skips : needSend = false → LockedSend needSend pending s needSend pending s
  | done (s' : Socket) : needSend = true → SendFrame s s' → s'.interest = s.interest →
      LockedSend needSend pending s true false s'
  | full (s' : Socket) : needSend = true → SendFrame s s' → s'.interest = s.interest →
      s'.room = 0 → s'.sendEdge = true → LockedSend needSend pending s false true s'
  | broke (needSend' pending' : Bool) (s' : Socket) : SendFrame s s' → s'.broken = true →
      LockedSend needSend pending s needSend' pending' s'

/-- The moves. -/
inductive Turn (v : EdgeView) : EdgeView → Prop where
  -- The socket.
  | arrive (bs : List UInt8) (edge : Bool) (s : Socket) : v.sock.arrive bs edge = some s →
      Turn v { v with sock := s }
  | free (k : Nat) (edge : Bool) (s : Socket) : v.sock.free k edge = some s →
      Turn v { v with sock := s }
  | hangup (rst : Bool) : Turn v { v with sock := v.sock.hangup rst }
  -- `epoll_wait`.
  | event (mask : EpollFlags) : v.worker = .wait → v.registered = true → v.sock.ready = true →
      v.sock.reports mask = true →
      Turn v { v with worker := .testRecv mask, sock := v.sock.reported }
  | skip : v.worker = .wait → v.sock.quiet = true →
      Turn v { v with sock := { v.sock with ready := false } }
  -- `DoRecv`.
  | doRecv (mask : EpollFlags) : v.worker = .testRecv mask → mask.EPOLLIN = true →
      v.status = .SS_ESTABLISHED → Turn v { v with worker := .inRecv mask 0 }
  | noRecv (mask : EpollFlags) : v.worker = .testRecv mask →
      ¬ (mask.EPOLLIN = true ∧ v.status = .SS_ESTABLISHED) →
      Turn v { v with worker := .testSend mask .COUNT }
  | piece (mask : EpollFlags) (n n' : Nat) (piece : List UInt8) (s : Socket) :
      v.worker = .inRecv mask n → v.sock.recv (.data piece) = some s →
      Turn v { v with worker := .inRecv mask n', sock := s }
  | drained (mask : EpollFlags) (n : Nat) (t : IoEventType) (s : Socket) :
      v.worker = .inRecv mask n → v.sock.recv .EAGAIN = some s → t ≠ .BREAK →
      Turn v { v with worker := .testSend mask t, sock := s }
  | ended (mask : EpollFlags) (n : Nat) : v.worker = .inRecv mask n →
      v.sock.ended = true ∨ v.sock.broken = true →
      Turn v { v.DoClose with worker := .testSend mask .BREAK }
  -- `DoSend`.
  | doSend (mask : EpollFlags) (t : IoEventType) : v.worker = .testSend mask t →
      Turn v { v with worker := .inSend mask t }
  | noSend (mask : EpollFlags) (t : IoEventType) : v.worker = .testSend mask t →
      ¬ (mask.EPOLLOUT = true ∧ v.status ≠ .SS_UNINITIALIZE) →
      Turn v { v with worker := .testClose mask t }
  | sent (mask : EpollFlags) (t : IoEventType) (k : Nat) (pending : Bool) (s : Socket) :
      v.worker = .inSend mask t → v.pending = true → v.sock.send (.sent k) = some s →
      Turn v { v with pending, sock := s }
  | full (mask : EpollFlags) (t : IoEventType) (s : Socket) :
      v.worker = .inSend mask t → v.pending = true → v.sock.send .EAGAIN = some s →
      Turn v { v with worker := .testClose mask t, sock := s }
  | failed (mask : EpollFlags) (t : IoEventType) : v.worker = .inSend mask t →
      v.sock.broken = true → Turn v { v with worker := .testClose mask .BREAK }
  | flushed (mask : EpollFlags) (t : IoEventType) : v.worker = .inSend mask t →
      v.pending = false → v.status = .SS_WAITCLOSE →
      Turn v { v with worker := .testClose mask .BREAK }
  | needs (mask : EpollFlags) (t : IoEventType) : v.worker = .inSend mask t →
      v.pending = false → v.status ≠ .SS_WAITCLOSE →
      Turn v { v with worker := .testClose mask t, needSend := true }
  -- The end of a round of `Run`.
  | error (mask : EpollFlags) (t : IoEventType) : v.worker = .testClose mask t →
      mask.hasError = true → Turn v { v.DoClose with worker := .add t }
  | noError (mask : EpollFlags) (t : IoEventType) : v.worker = .testClose mask t →
      Turn v { v with worker := .add t }
  | add (t : IoEventType) : v.worker = .add t →
      Turn v { v with worker := .wait, broke := v.broke || decide (t = .BREAK) }
  -- The main thread.
  | Send (pending : Bool) : v.call = .idle → v.status = .SS_ESTABLISHED →
      (v.pending = true → pending = true) →
      Turn v { v with pending, call := .sending }
  | sendLocked (needSend pending : Bool) (s : Socket) : v.call = .sending →
      LockedSend v.needSend v.pending v.sock needSend pending s →
      Turn v { v with needSend, pending, sock := s, call := .idle }
  | Close : v.call = .idle → Turn v { v with status := .SS_WAITCLOSE, call := .closing }
  | closeLocked : v.call = .closing →
      Turn v { v with
        call := .idle
        sock := if v.registered && v.needSend then v.sock.modify .outOnce else v.sock }
  | stay : Turn v v

namespace SendFrame

theorem refl (s : Socket) : SendFrame s s := ⟨rfl, rfl, rfl, rfl, id⟩

theorem trans {s t u : Socket} (h : SendFrame s t) (h' : SendFrame t u) : SendFrame s u where
  recvBuf := h'.recvBuf.trans h.recvBuf
  ended := h'.ended.trans h.ended
  broken := h'.broken.trans h.broken
  recvEdge := h'.recvEdge.trans h.recvEdge
  ready hready := h'.ready (h.ready hready)

end SendFrame

end EdgeView

/-! ### The locked section of `Send` on a socket -/

namespace Socket

open EdgeView (SendFrame)

/-- Room that comes leaves everything else as it was. -/
theorem free_frame {s t : Socket} {k : Nat} {edge : Bool} (h : s.free k edge = some t) :
    SendFrame s t ∧ t.interest = s.interest := by
  unfold free at h
  split at h
  · cases h
    refine ⟨⟨rfl, rfl, rfl, rfl, fun hready => ?_⟩, rfl⟩
    show (s.ready || edge) = true
    rw [hready, Bool.true_or]
  · cases h

/-- A `send` leaves everything but the room as it was. -/
theorem send_frame {s t : Socket} {result : SendResult} (h : s.send result = some t) :
    SendFrame s t ∧ t.interest = s.interest := by
  unfold send at h
  cases result <;> dsimp only at h <;> split at h <;> cases h <;>
    exact ⟨⟨rfl, rfl, rfl, rfl, id⟩, rfl⟩

/-- A `send` that says EAGAIN leaves no room, and the next room is to be reported. -/
theorem send_EAGAIN {s t : Socket} (h : s.send .EAGAIN = some t) :
    t.room = 0 ∧ t.sendEdge = true := by
  simp only [send, writable, Bool.or_eq_false_iff, decide_eq_false_iff_not] at h
  split at h
  · rename_i hfull
    cases h
    exact ⟨by show s.room = 0; omega, rfl⟩
  · cases h

/-- A `send` that fails does so on a broken socket. -/
theorem send_failed {s t : Socket} (h : s.send .failed = some t) :
    t = s ∧ s.broken = true := by
  unfold send at h
  dsimp only at h
  split at h
  · rename_i hbroken
    cases h
    exact ⟨rfl, hbroken⟩
  · cases h

/-- A `recv` that neither reads nor says EAGAIN finds the end of the stream or a broken
socket. -/
theorem recv_ended {s t : Socket} (h : s.recv .ended = some t) :
    t = s ∧ (s.ended = true ∨ s.broken = true) := by
  unfold recv at h
  dsimp only at h
  split at h
  · rename_i hor
    cases h
    exact ⟨rfl, hor.elim .inr fun hand => .inl hand.2⟩
  · cases h

end Socket

/-- A call in the loop of `Send` is a `send` on a socket that may have got room before. -/
theorem SendCall.on_send {c : SendCall} {s t : Socket} (h : c.on s = some t) :
    ∃ u, EdgeView.SendFrame s u ∧ u.interest = s.interest ∧ u.send c.result = some t := by
  obtain ⟨u, hu, ht⟩ := Option.bind_eq_some_iff.mp h
  cases hfreed : c.freed with
  | none =>
      rw [hfreed] at hu
      cases hu
      exact ⟨s, .refl s, rfl, ht⟩
  | some kedge =>
      rw [hfreed] at hu
      obtain ⟨hframe, hint⟩ := Socket.free_frame hu
      exact ⟨u, hframe, hint, ht⟩

namespace CPipe

open EdgeView (SendFrame LockedSend)

/-- Bytes are pending. -/
def pending (p : CPipe) : Bool := decide (p.m_oSendStream.unread ≠ [])

theorem pending_eq_true {p : CPipe} (h : p.m_oSendStream.size > 0) : p.pending = true :=
  decide_eq_true fun hnil => unread_eq_nil.mp hnil h

theorem pending_eq_false {p : CPipe} (h : ¬ p.m_oSendStream.size > 0) : p.pending = false :=
  decide_eq_false fun hne => hne (unread_eq_nil.mpr h)

/-- The socket behind a section: the options that it posted are asked for while the socket is
in the epoll set. -/
def posts (registered : Bool) (opts : List EpollFlags) (s : Socket) : Socket :=
  if registered then opts.foldl .modify s else s

/-- A section that posted nothing leaves the socket as it is. -/
theorem posts_nil (registered : Bool) (s : Socket) : posts registered [] s = s := by
  unfold posts
  split <;> rfl

/-- A section that ends on a broken socket, whatever it posted. -/
theorem lockedSend_broke {needSend pending needSend' pending' registered : Bool}
    {opts : List EpollFlags} {s t : Socket} (hframe : SendFrame s t) (hbroken : t.broken = true) :
    LockedSend needSend pending s needSend' pending' (posts registered opts t) := by
  have hposts : SendFrame t (posts registered opts t) := by
    unfold posts
    split
    · clear hframe hbroken
      induction opts generalizing t with
      | nil => exact .refl t
      | cons opt opts ih =>
          have hmodify : SendFrame t (t.modify opt) := by
            refine ⟨rfl, rfl, rfl, rfl, fun hready => ?_⟩
            show (t.ready || _) = true
            rw [hready, Bool.true_or]
          exact hmodify.trans ih
    · exact .refl t
  exact .broke _ _ _ (hframe.trans hposts) (hposts.broken.trans hbroken)

/-- `Send` with nothing left to send. On a pipe that waits to be closed it posts the error
flags, which is why the status is asked for. -/
theorem sendDone_locked {p : CPipe} {registered : Bool} {s t : Socket}
    (hneed : p.m_bNeedSend = true) (hsize : ¬ p.m_oSendStream.size > 0)
    (hstatus : registered = true → p.m_nStatus ≠ .SS_WAITCLOSE) (hframe : SendFrame s t)
    (hint : t.interest = s.interest) (pending : Bool) :
    LockedSend true pending s p.sendDone.pipe.m_bNeedSend p.sendDone.pipe.pending
      (posts registered p.sendDone.posted t) := by
  have hnone : p.pending = false := pending_eq_false hsize
  by_cases hwait : p.m_nStatus = .SS_WAITCLOSE
  · have hout : registered = false := Bool.eq_false_iff.mpr fun hreg => hstatus hreg hwait
    have hdone : p.sendDone = { pipe := p, posted := [.errors] } := if_pos hwait
    rw [hdone, hout]
    show LockedSend true pending s p.m_bNeedSend p.pending t
    rw [hneed, hnone]
    exact .done t rfl hframe hint
  · have hdone : p.sendDone = { pipe := { p with m_bNeedSend := true } } := if_neg hwait
    rw [hdone]
    show LockedSend true pending s true p.pending (posts registered [] t)
    rw [hnone, posts_nil]
    exact .done t rfl hframe hint

/-- The loop of `Send` and its socket, from a socket that the calls before have left. Induction
on the calls. -/
theorem sendLoop_locked {registered : Bool} {s : Socket} {pending : Bool}
    {calls : List SendCall} : ∀ {p : CPipe} {t t' : Socket} {r : Sent},
    p.m_bNeedSend = true → (registered = true → p.m_nStatus ≠ .SS_WAITCLOSE) →
    SendFrame s t → t.interest = s.interest → p.sendLoopOn t calls = some t' →
    p.sendLoop (calls.map (·.result)) = some r →
    LockedSend true pending s r.pipe.m_bNeedSend r.pipe.pending
      (posts registered r.posted t') := by
  induction calls with
  | nil =>
      intro p t t' r hneed hstatus hframe hint ht hr
      simp only [List.map_nil, sendLoop] at hr
      simp only [sendLoopOn] at ht
      split at hr
      · cases hr
      · rename_i hsize
        cases hr
        cases ht
        exact sendDone_locked hneed hsize hstatus hframe hint pending
  | cons c calls ih =>
      intro p t t' r hneed hstatus hframe hint ht hr
      simp only [List.map_cons, sendLoop] at hr
      simp only [sendLoopOn] at ht
      split at hr
      · rename_i hsize
        rw [if_pos hsize] at ht
        obtain ⟨u, hu, ht⟩ := Option.bind_eq_some_iff.mp ht
        obtain ⟨w, hw, hwint, hsend⟩ := SendCall.on_send hu
        obtain ⟨hwu, huint⟩ := Socket.send_frame hsend
        have hframe' : SendFrame s u := hframe.trans (hw.trans hwu)
        have hint' : u.interest = s.interest := huint.trans (hwint.trans hint)
        cases hresult : c.result with
        | sent k =>
            rw [hresult] at ht hr
            dsimp only at ht hr
            split at hr
            · obtain ⟨r', hr', rfl⟩ := Option.map_eq_some_iff.mp hr
              exact ih (p := p.sendOut k) (r := r') hneed hstatus hframe' hint' ht hr'
            · cases hr
        | EAGAIN =>
            rw [hresult] at ht hr hsend
            cases hr
            cases ht
            -- EAGAIN clears the flag, and the socket has no room.
            obtain ⟨hroom, hedge⟩ := Socket.send_EAGAIN hsend
            show LockedSend true pending s false p.pending (posts registered [] t')
            rw [posts_nil, pending_eq_true hsize]
            exact .full t' rfl hframe' hint' hroom hedge
        | failed =>
            rw [hresult] at ht hr hsend
            cases hr
            cases ht
            obtain ⟨rfl, hbroken⟩ := Socket.send_failed hsend
            exact lockedSend_broke hframe' hbroken
      · rename_i hsize
        rw [if_neg hsize] at ht
        cases hr
        cases ht
        exact sendDone_locked hneed hsize hstatus hframe hint pending

/-- The locked section of `Send` and its socket. -/
theorem sendSection_locked (registered : Bool) {p : CPipe} {s s' : Socket}
    {calls : List SendCall} {r : Sent}
    (hstatus : registered = true → p.m_nStatus ≠ .SS_WAITCLOSE)
    (hs : p.sendSectionOn s calls = some s')
    (hr : p.sendSection (calls.map (·.result)) = some r) :
    LockedSend p.m_bNeedSend p.pending s r.pipe.m_bNeedSend r.pipe.pending
      (posts registered r.posted s') := by
  unfold sendSectionOn at hs
  unfold sendSection at hr
  split at hr
  · rename_i hneed
    rw [if_pos hneed] at hs
    rw [hneed]
    exact sendLoop_locked hneed hstatus (.refl s) rfl hs hr
  · rename_i hneed
    rw [if_neg hneed] at hs
    cases hr
    cases hs
    show LockedSend p.m_bNeedSend p.pending s p.m_bNeedSend p.pending (posts registered [] s)
    rw [posts_nil]
    exact .skips (Bool.eq_false_iff.mpr hneed)

end CPipe

/-! ### The steps -/

namespace EdgeState

open EdgeView (Turn)

/-- One more entry in the log. -/
theorem hasBroken_snoc (conn : Connection) (l : Logged) :
    { conn with log := conn.log ++ [l] }.hasBroken
      = (conn.hasBroken || match l with
        | .Add .BREAK _ => true
        | _ => false) := by
  unfold Connection.hasBroken
  rw [List.any_append, List.any_cons, List.any_nil, Bool.or_false]

/-- The view behind `DoClose`. -/
theorem view_DoClose (st : EdgeState) (worker : WorkerPc) :
    ({ st with conn := { st.conn.DoClose with worker } } : EdgeState).view
      = { st.view.DoClose with worker } := by
  by_cases hstatus : st.conn.pipe.m_nStatus = .SS_UNINITIALIZE
  · have hconn : st.conn.DoClose = st.conn := if_neg fun hne => hne hstatus
    have hview : st.view.DoClose = st.view := if_neg fun hne => hne hstatus
    rw [hconn, hview]
    rfl
  · have hconn : st.conn.DoClose = { st.conn with
        pipe := { st.conn.pipe with m_nStatus := .SS_UNINITIALIZE, m_lSocketHandler := -1 }
        registered := false } := by
      unfold Connection.DoClose CPipe.DoClose
      rw [if_pos hstatus, if_pos hstatus]
    have hview : st.view.DoClose
        = { st.view with status := .SS_UNINITIALIZE, registered := false } := if_pos hstatus
    rw [hconn, hview]
    rfl

/-- A step of the worker that is not a system call. -/
theorem plain_worker_turn {st st' : EdgeState} {a : ConnAction}
    (ha : a = .testRecv ∨ a = .testSend ∨ a = .testClose ∨ a = .add)
    (h : st.plain a = some st') : Turn st.view st'.view := by
  obtain ⟨conn, hconn, rfl⟩ := Option.map_eq_some_iff.mp h
  rcases ha with rfl | rfl | rfl | rfl <;>
    simp only [Connection.step, Connection.workerStep] at hconn <;> split at hconn
  · rename_i mask hw
    split at hconn <;> cases hconn
    · rename_i hin
      exact .doRecv mask hw hin.1 hin.2
    · rename_i hin
      exact .noRecv mask hw hin
  · cases hconn
  · rename_i mask t hw
    split at hconn <;> cases hconn
    · exact .doSend mask t hw
    · rename_i hout
      exact .noSend mask t hw hout
  · cases hconn
  · rename_i mask t hw
    split at hconn <;> cases hconn
    · rename_i herr
      rw [view_DoClose]
      exact .error mask t hw herr.1
    · exact .noError mask t hw
  · cases hconn
  · rename_i t hw
    split at hconn <;> cases hconn
    · have hbroke := hasBroken_snoc st.conn (.Add t st.conn.isClosed)
      have hadd : (match (.Add t st.conn.isClosed : Logged) with
          | .Add .BREAK _ => true
          | _ => false) = decide (t = .BREAK) := by cases t <;> rfl
      rw [hadd] at hbroke
      have hturn := Turn.add (v := st.view) t hw
      show Turn st.view { st.view with worker := .wait, broke := _ }
      exact hbroke ▸ hturn
    · rename_i hcount
      have hturn := Turn.add (v := st.view) t hw
      have hno : t ≠ .BREAK := fun hb => hcount (by rw [hb]; decide)
      rw [decide_eq_false hno, Bool.or_false] at hturn
      exact hturn
  · cases hconn

/-- A step of the main thread in `Processing` changes nothing that waiting depends on. -/
theorem plain_main_turn {st st' : EdgeState} {a : ConnAction}
    (ha : a = .read ∨ (∃ nUse, a = .round nUse) ∨ a = .finish) (h : st.plain a = some st') :
    st'.view = st.view := by
  obtain ⟨conn, hconn, rfl⟩ := Option.map_eq_some_iff.mp h
  rcases ha with rfl | ⟨nUse, rfl⟩ | rfl <;>
    simp only [Connection.step, Connection.mainStep] at hconn <;> split at hconn
  · cases hconn
    rfl
  · cases hconn
  · split at hconn <;> cases hconn
    · have hbroke := hasBroken_snoc st.conn .OnRecv
      rw [Bool.or_false] at hbroke
      exact congrArg (fun b => ({ st.view with broke := b } : EdgeView)) hbroke
    · rfl
  · cases hconn
  · rename_i t _ _
    cases hconn
    by_cases ht : IoEventType.BREAK = t
    · have hbroke := hasBroken_snoc st.conn .OnDisconnect
      rw [Bool.or_false] at hbroke
      rw [if_pos ht]
      exact congrArg (fun b => ({ st.view with broke := b } : EdgeView)) hbroke
    · rw [if_neg ht]
      rfl
  · cases hconn

/-- A `recv` of the worker. -/
theorem recv_turn {st st' : EdgeState} {result : RecvResult}
    (h : st.step (.recv result) = some st') : Turn st.view st'.view := by
  simp only [step] at h
  obtain ⟨sock, hsock, h⟩ := Option.bind_eq_some_iff.mp h
  obtain ⟨conn, hconn, rfl⟩ := Option.map_eq_some_iff.mp h
  simp only [Connection.step, Connection.workerStep] at hconn
  split at hconn
  · rename_i mask n hw
    cases result with
    | data piece =>
        dsimp only at hconn
        split at hconn <;> cases hconn
        exact .piece mask n _ piece sock hw hsock
    | EAGAIN =>
        cases hconn
        exact .drained mask n _ sock hw hsock (by split <;> decide)
    | ended =>
        cases hconn
        obtain ⟨rfl, hend⟩ := Socket.recv_ended hsock
        have hview := view_DoClose st (.testSend mask .BREAK)
        exact hview ▸ .ended mask n hw hend
  · cases hconn

/-- The type that `Run` goes on with when `DoSend` returns BREAK, whatever it was before. -/
theorem type_BREAK (t : IoEventType) :
    (if t ≠ .BREAK ∧ IoEventType.BREAK ≠ .COUNT then IoEventType.BREAK else t) = .BREAK := by
  cases t <;> rfl

/-- COUNT leaves the type that `DoRecv` returned. -/
theorem type_COUNT (t : IoEventType) :
    (if t ≠ .BREAK ∧ IoEventType.COUNT ≠ .COUNT then IoEventType.COUNT else t) = t :=
  if_neg fun hand => hand.2 rfl

/-- An iteration of `DoSend`. -/
theorem send_turn {st st' : EdgeState} {result : SendResult}
    (h : st.step (.send result) = some st') : Turn st.view st'.view := by
  simp only [step] at h
  obtain ⟨sock, hsock, h⟩ := Option.bind_eq_some_iff.mp h
  obtain ⟨conn, hconn, h⟩ := Option.bind_eq_some_iff.mp h
  obtain ⟨⟨r, e⟩, hr, rfl⟩ := Option.map_eq_some_iff.mp h
  simp only [Connection.step, Connection.workerStep] at hconn
  split at hconn
  · rename_i mask t hw
    rw [hr, Option.map_some, Option.some.injEq] at hconn
    subst hconn
    unfold CPipe.doSendRound at hr
    dsimp only at hr
    split at hr
    · rename_i hsize
      have hpend : st.view.pending = true := CPipe.pending_eq_true hsize
      rw [if_pos hsize] at hsock
      cases result with
      | sent k =>
          dsimp only at hr
          split at hr <;> cases hr
          exact .sent mask t k _ sock hw hpend hsock
      | EAGAIN =>
          cases hr
          have hturn := Turn.full (v := st.view) mask t sock hw hpend hsock
          rw [← type_COUNT t] at hturn
          exact hturn
      | failed =>
          cases hr
          obtain ⟨rfl, hbroken⟩ := Socket.send_failed hsock
          have hturn := Turn.failed (v := st.view) mask t hw hbroken
          rw [← type_BREAK t] at hturn
          exact hturn
    · rename_i hsize
      have hnone : st.view.pending = false := CPipe.pending_eq_false hsize
      rw [if_neg hsize, Option.some.injEq] at hsock
      subst hsock
      split at hr
      · rename_i hwait
        cases hr
        have hturn := Turn.flushed (v := st.view) mask t hw hnone hwait
        rw [← type_BREAK t] at hturn
        exact hturn
      · rename_i hwait
        cases hr
        have hturn := Turn.needs (v := st.view) mask t hw hnone hwait
        rw [← type_COUNT t] at hturn
        exact hturn
  · cases hconn

/-- The view behind `epoll_ctl`. -/
theorem modify_view (st : EdgeState) (opts : List EpollFlags) :
    (st.modify opts).view
      = { st.view with sock := CPipe.posts st.conn.registered opts st.sock } := by
  unfold modify CPipe.posts
  split <;> rfl

/-- The locked section of `Send`. -/
theorem sendLocked_turn {st st' : EdgeState} {calls : List SendCall}
    (hopen : st.conn.call = .sending → st.conn.registered = true →
      st.conn.pipe.m_nStatus ≠ .SS_WAITCLOSE)
    (h : st.step (.sendLocked calls) = some st') : Turn st.view st'.view := by
  simp only [step] at h
  obtain ⟨sock, hsock, h⟩ := Option.bind_eq_some_iff.mp h
  obtain ⟨conn, hconn, h⟩ := Option.bind_eq_some_iff.mp h
  obtain ⟨r, hr, rfl⟩ := Option.map_eq_some_iff.mp h
  simp only [Connection.step, Connection.callStep] at hconn
  split at hconn
  · rename_i hcall
    rw [hr, Option.map_some, Option.some.injEq] at hconn
    subst hconn
    have hlocked := CPipe.sendSection_locked st.conn.registered (hopen hcall) hsock hr
    have hstatus := (CPipe.sendSection_sentBy hr).status
    have hturn := Turn.sendLocked (v := st.view) _ _ _ hcall hlocked
    rw [modify_view]
    show Turn st.view { st.view with
      status := r.pipe.m_nStatus
      needSend := r.pipe.m_bNeedSend
      pending := r.pipe.pending
      sock := CPipe.posts st.conn.registered r.posted sock
      call := .idle }
    rw [hstatus]
    exact hturn
  · cases hconn

/-- The locked section of `Close`. -/
theorem closeLocked_turn {st st' : EdgeState} (h : st.step .closeLocked = some st') :
    Turn st.view st'.view := by
  simp only [step] at h
  obtain ⟨conn, hconn, rfl⟩ := Option.map_eq_some_iff.mp h
  simp only [Connection.step, Connection.callStep] at hconn
  split at hconn
  · rename_i hcall
    cases hconn
    have hturn := Turn.closeLocked (v := st.view) hcall
    have hsock : CPipe.posts st.conn.registered st.conn.pipe.closeSection.posted st.sock
        = if st.view.registered && st.view.needSend then st.sock.modify .outOnce
          else st.sock := by
      show CPipe.posts st.conn.registered st.conn.pipe.closeSection.posted st.sock
        = if st.conn.registered && st.conn.pipe.m_bNeedSend then st.sock.modify .outOnce
          else st.sock
      unfold CPipe.closeSection CPipe.posts
      -- The one-shot is asked for when `m_bNeedSend` is set.
      cases st.conn.registered <;> cases st.conn.pipe.m_bNeedSend <;> rfl
    rw [modify_view]
    show Turn st.view { st.view with
      call := .idle
      sock := CPipe.posts st.conn.registered st.conn.pipe.closeSection.posted st.sock }
    rw [hsock]
    exact hturn
  · cases hconn

/-- The unlocked part of `Send`. -/
theorem Send_turn {st st' : EdgeState} {src : List UInt8}
    (hwf : st.conn.pipe.m_oSendStream.WellFormed) (h : st.step (.Send src) = some st') :
    Turn st.view st'.view := by
  simp only [step, plain, Option.map_map] at h
  obtain ⟨conn, hconn, rfl⟩ := Option.map_eq_some_iff.mp h
  simp only [Connection.step, Connection.callStep] at hconn
  split at hconn
  · rename_i hcall
    cases hconn
    dsimp only [Function.comp]
    by_cases hstatus : st.conn.pipe.m_nStatus = .SS_ESTABLISHED
    · rw [CPipe.sendIn_accepted hstatus, if_pos hstatus]
      refine .Send _ hcall hstatus fun hpend => ?_
      have hunread := TStream.inBytes_unread BUFF_SIZE_pos hwf (Mem.ofList src 0)
        (Int.natCast_nonneg src.length)
      have hne : st.conn.pipe.m_oSendStream.unread ≠ [] := of_decide_eq_true hpend
      exact decide_eq_true fun hnil =>
        hne (List.append_eq_nil_iff.mp (hunread.symm.trans hnil)).1
    · rw [CPipe.sendIn_refused hstatus, if_neg hstatus]
      show Turn st.view { st.view with call := .idle }
      rw [← hcall]
      exact .stay
  · cases hconn

/-- Every step is a move on the view. -/
theorem step_turn {st st' : EdgeState} {a : EdgeAction}
    (hwf : st.conn.pipe.m_oSendStream.WellFormed)
    (hopen : st.conn.call = .sending → st.conn.registered = true →
      st.conn.pipe.m_nStatus ≠ .SS_WAITCLOSE)
    (h : st.step a = some st') : Turn st.view st'.view := by
  cases a with
  | arrive bs edge =>
      obtain ⟨sock, hsock, rfl⟩ := Option.map_eq_some_iff.mp h
      exact .arrive bs edge sock hsock
  | free k edge =>
      obtain ⟨sock, hsock, rfl⟩ := Option.map_eq_some_iff.mp h
      exact .free k edge sock hsock
  | hangup rst =>
      cases h
      exact .hangup rst
  | event mask =>
      simp only [step] at h
      split at h
      · rename_i hready
        obtain ⟨conn, hconn, rfl⟩ := Option.map_eq_some_iff.mp h
        simp only [Connection.step, Connection.workerStep] at hconn
        split at hconn
        · rename_i hw
          split at hconn
          · rename_i hreg
            cases hconn
            exact .event mask hw hreg hready.1 hready.2
          · cases hconn
        · cases hconn
      · cases h
  | skip =>
      simp only [step] at h
      split at h
      · rename_i hquiet
        cases h
        exact .skip hquiet.1 hquiet.2.2
      · cases h
  | recv result => exact recv_turn h
  | send result => exact send_turn h
  | sendLocked calls => exact sendLocked_turn hopen h
  | closeLocked => exact closeLocked_turn h
  | testRecv => exact plain_worker_turn (.inl rfl) h
  | testSend => exact plain_worker_turn (.inr (.inl rfl)) h
  | testClose => exact plain_worker_turn (.inr (.inr (.inl rfl))) h
  | add => exact plain_worker_turn (.inr (.inr (.inr rfl))) h
  | Send src => exact Send_turn hwf h
  | Close =>
      obtain ⟨conn, hconn, rfl⟩ := Option.map_eq_some_iff.mp h
      simp only [Connection.step, Connection.callStep] at hconn
      split at hconn
      · rename_i hcall
        cases hconn
        exact .Close hcall
      · cases hconn
  | read => exact plain_main_turn (.inl rfl) h ▸ .stay
  | round nUse =>
      obtain ⟨t, ht, rfl⟩ := Option.map_eq_some_iff.mp h
      have hview := plain_main_turn (.inr (.inl ⟨nUse, rfl⟩)) ht
      split
      · exact hview ▸ .stay
      · show Turn st.view t.view
        exact hview ▸ .stay
  | finish => exact plain_main_turn (.inr (.inr rfl)) h ▸ .stay

end EdgeState

end Kernel4GameServer
