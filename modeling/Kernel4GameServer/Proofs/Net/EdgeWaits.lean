import Kernel4GameServer.Lib.Run
import Kernel4GameServer.Proofs.Net.EdgeTurns

/-!
# `Kernel4GameServer.Proofs.Net.EdgeWaits`: what every move keeps of the reports to come

`EPOLLIN | EPOLLOUT | EPOLLET` reports a change once. What keeps the connection going is that
`DoRecv` reads until EAGAIN, that `DoSend` sends until EAGAIN or until nothing is pending, and
that `m_bNeedSend` is cleared only by a `send` of the main thread that said EAGAIN. `Waits` is the
invariant on the view: what can be read is being read or will be reported (`recvs`), with the
flag cleared the worker is sending or will be told of room (`wakes`), and behind a `Close` the
one-shot EPOLLOUT does the same (`closes`). `Waits.turn` is that every move keeps it.
-/

set_option autoImplicit false

namespace Kernel4GameServer

open Lib

namespace WorkerPc

/-- The worker is on its way to `DoRecv`, or in it. -/
def willRecv : WorkerPc → Bool
  | .testRecv mask => mask.EPOLLIN
  | .inRecv _ _ => true
  | _ => false

/-- The worker is on its way to `DoSend`, or in it. -/
def willSend : WorkerPc → Bool
  | .testRecv mask => mask.EPOLLOUT
  | .inRecv mask _ => mask.EPOLLOUT
  | .testSend mask _ => mask.EPOLLOUT
  | .inSend _ _ => true
  | _ => false

/-- The worker is in `DoRecv`. -/
def inDoRecv : WorkerPc → Bool
  | .inRecv _ _ => true
  | _ => false

/-- The worker is about to add BREAK. -/
def willBreak : WorkerPc → Bool
  | .testClose _ t => decide (t = .BREAK)
  | .add t => decide (t = .BREAK)
  | _ => false

/-- The worker goes through `DoSend` with the BREAK of `DoRecv`. -/
def holdsBreak : WorkerPc → Bool
  | .testSend _ t => decide (t = .BREAK)
  | .inSend _ t => decide (t = .BREAK)
  | _ => false

end WorkerPc

namespace EdgeView

/-- BREAK has been added, or will be. -/
def breaks (v : EdgeView) : Bool := v.broke || v.worker.willBreak

/-- The socket is in the epoll set and not broken. -/
def live (v : EdgeView) : Prop := v.registered = true ∧ v.sock.broken = false

/-- Room will be reported, or there is room and that is due to be reported. -/
def roomDue (s : Socket) : Prop :=
  s.room = 0 ∧ s.sendEdge = true ∨ 0 < s.room ∧ s.ready = true

/-- The invariant. -/
structure Waits (v : EdgeView) : Prop where
  opened : v.registered = true → v.status ≠ .SS_UNINITIALIZE
  sending : v.registered = true → v.call = .sending → v.status = .SS_ESTABLISHED
  closing : v.registered = true → v.call = .closing → v.status = .SS_WAITCLOSE
  types : v.registered = true → v.worker.holdsBreak = false
  broken : v.sock.broken = true → v.sock.ended = true
  recvEdge : v.sock.recvEdge = false → v.sock.recvBuf ≠ [] ∨ v.sock.ended = true ∨
    v.worker.inDoRecv = true
  edge : v.live → v.sock.interest = .edge ∨ v.status = .SS_WAITCLOSE ∧ v.needSend = true ∧
    (v.sock.interest = .outOnce ∨ v.sock.interest = .disabled)
  recvs : v.live → v.status = .SS_ESTABLISHED → v.sock.ready = true ∨
    v.worker.willRecv = true ∨
    v.sock.recvBuf = [] ∧ v.sock.ended = false ∧ v.sock.recvEdge = true
  awaited : v.live → v.call ≠ .sending → v.pending = true → v.needSend = false
  wakes : v.live → v.needSend = false → v.worker.willSend = true ∨ v.breaks = true ∨
    roomDue v.sock
  closes : v.live → v.status = .SS_WAITCLOSE → v.call ≠ .closing → v.needSend = true →
    v.worker.willSend = true ∨ v.breaks = true ∨
    v.sock.interest = .outOnce ∧ roomDue v.sock
  flushed : v.live → v.breaks = true → v.status = .SS_WAITCLOSE ∧ v.pending = false

namespace Waits

/-- On a socket that is closed or broken nothing is promised of reports. -/
theorem of_dead {v : EdgeView} (hdead : ¬ v.live)
    (opened : v.registered = true → v.status ≠ .SS_UNINITIALIZE)
    (sending : v.registered = true → v.call = .sending → v.status = .SS_ESTABLISHED)
    (closing : v.registered = true → v.call = .closing → v.status = .SS_WAITCLOSE)
    (types : v.registered = true → v.worker.holdsBreak = false)
    (broken : v.sock.broken = true → v.sock.ended = true)
    (recvEdge : v.sock.recvEdge = false → v.sock.recvBuf ≠ [] ∨ v.sock.ended = true ∨
      v.worker.inDoRecv = true) : v.Waits where
  opened := opened
  sending := sending
  closing := closing
  types := types
  broken := broken
  recvEdge := recvEdge
  edge hl := absurd hl hdead
  recvs hl := absurd hl hdead
  awaited hl := absurd hl hdead
  wakes hl := absurd hl hdead
  closes hl := absurd hl hdead
  flushed hl := absurd hl hdead

/-- An established pipe in the set has the options it was added with. -/
theorem edge_of_established {v : EdgeView} (hi : v.Waits) (hl : v.live)
    (hs : v.status = .SS_ESTABLISHED) : v.sock.interest = .edge := by
  rcases hi.edge hl with he | ⟨hw, -⟩
  · exact he
  · rw [hs] at hw
    cases hw

/-- So has one with `m_bNeedSend` cleared. -/
theorem edge_of_needSend {v : EdgeView} (hi : v.Waits) (hl : v.live)
    (hn : v.needSend = false) : v.sock.interest = .edge := by
  rcases hi.edge hl with he | ⟨-, hneed, -⟩
  · exact he
  · rw [hn] at hneed
    cases hneed

end Waits

/-! ### The moves of the socket -/

/-- Nothing but the room and the reports of it matters to `roomDue`. -/
theorem roomDue_congr {s t : Socket} (hroom : t.room = s.room) (hedge : t.sendEdge = s.sendEdge)
    (hready : s.ready = true → t.ready = true) (h : roomDue s) : roomDue t := by
  unfold roomDue
  rw [hroom, hedge]
  exact h.imp_right fun hand => ⟨hand.1, hready hand.2⟩

/-- Room that comes to a socket that asked for it will be reported. -/
theorem roomDue_free {s t : Socket} {k : Nat} {edge : Bool} (h : s.free k edge = some t)
    (hint : s.interest = .edge ∨ s.interest = .outOnce) (hdue : roomDue s) : roomDue t := by
  unfold Socket.free at h
  split at h
  · rename_i hfree
    cases h
    rcases hdue with ⟨hroom, hsend⟩ | ⟨hroom, hready⟩
    · -- The next room had to be reported, so this one is.
      have hnow : edge = true := by
        rcases hfree.2 with he | he | he | he
        · exact he
        · rw [hsend] at he
          cases he
        · rw [he] at hint
          rcases hint with hint | hint <;> cases hint
        · rw [he] at hint
          rcases hint with hint | hint <;> cases hint
      refine .inr ⟨by show 0 < s.room + k; omega, ?_⟩
      show (s.ready || edge) = true
      rw [hnow, Bool.or_true]
    · refine .inr ⟨by show 0 < s.room + k; omega, ?_⟩
      show (s.ready || edge) = true
      rw [hready, Bool.true_or]
  · cases h

/-- A socket that was given the one-shot reports its room. -/
theorem roomDue_modify (s : Socket) : roomDue (s.modify .outOnce) := by
  by_cases hroom : s.room = 0
  · refine .inl ⟨hroom, ?_⟩
    show (s.sendEdge || decide (s.room = 0)) = true
    rw [decide_eq_true hroom, Bool.or_true]
  · refine .inr ⟨Nat.pos_of_ne_zero hroom, ?_⟩
    show (s.ready || s.writable) = true
    have hwritable : s.writable = true := by
      show (decide (0 < s.room) || s.broken) = true
      rw [decide_eq_true (Nat.pos_of_ne_zero hroom), Bool.true_or]
    rw [hwritable, Bool.or_true]

/-- Data comes. -/
theorem Waits.arrive {v : EdgeView} {s : Socket} {bs : List UInt8} {edge : Bool} (hi : v.Waits)
    (h : v.sock.arrive bs edge = some s) : ({ v with sock := s } : EdgeView).Waits := by
  unfold Socket.arrive at h
  split at h
  · rename_i hcome
    cases h
    have hready : v.sock.ready = true → (v.sock.ready || edge) = true := fun hr => by
      rw [hr, Bool.true_or]
    exact
      { hi with
        recvEdge := fun _ => .inl fun hnil => hcome.1 (List.append_eq_nil_iff.mp hnil).2
        recvs := fun hl hs => by
          rcases hi.recvs hl hs with hr | hw | ⟨-, -, hedge⟩
          · exact .inl (hready hr)
          · exact .inr (.inl hw)
          · -- The worker has seen EAGAIN, so this arrival is reported.
            have hnow : edge = true := by
              rcases hcome.2.2.2 with he | he | he
              · exact he
              · rw [hedge] at he
                cases he
              · exact absurd (hi.edge_of_established hl hs) he
            refine .inl ?_
            show (v.sock.ready || edge) = true
            rw [hnow, Bool.or_true]
        wakes := fun hl hn => (hi.wakes hl hn).imp_right fun hor =>
          hor.imp_right (roomDue_congr (s := v.sock) rfl rfl hready)
        closes := fun hl hs hc hn => (hi.closes hl hs hc hn).imp_right fun hor =>
          hor.imp_right fun hand => ⟨hand.1, roomDue_congr (s := v.sock) rfl rfl hready hand.2⟩ }
  · cases h

/-- Room comes. -/
theorem Waits.free {v : EdgeView} {s : Socket} {k : Nat} {edge : Bool} (hi : v.Waits)
    (h : v.sock.free k edge = some s) : ({ v with sock := s } : EdgeView).Waits := by
  obtain ⟨hframe, hint⟩ := Socket.free_frame h
  have hlive : ({ v with sock := s } : EdgeView).live → v.live := fun hl =>
    ⟨hl.1, hframe.broken.symm.trans hl.2⟩
  exact
    { hi with
      broken := fun hb => hframe.ended.trans (hi.broken (hframe.broken.symm.trans hb))
      recvEdge := fun he => by
        show s.recvBuf ≠ [] ∨ s.ended = true ∨ v.worker.inDoRecv = true
        rw [hframe.recvBuf, hframe.ended]
        exact hi.recvEdge (hframe.recvEdge.symm.trans he)
      edge := fun hl => by
        show s.interest = .edge ∨ _
        rw [hint]
        exact hi.edge (hlive hl)
      recvs := fun hl hs => by
        show s.ready = true ∨ v.worker.willRecv = true ∨
          s.recvBuf = [] ∧ s.ended = false ∧ s.recvEdge = true
        rw [hframe.recvBuf, hframe.ended, hframe.recvEdge]
        exact (hi.recvs (hlive hl) hs).imp_left hframe.ready
      awaited := fun hl => hi.awaited (hlive hl)
      wakes := fun hl hn => (hi.wakes (hlive hl) hn).imp_right fun hor =>
        hor.imp_right (roomDue_free h (.inl (hi.edge_of_needSend (hlive hl) hn)))
      closes := fun hl hs hc hn => (hi.closes (hlive hl) hs hc hn).imp_right fun hor =>
        hor.imp_right fun hand => ⟨hint.trans hand.1, roomDue_free h (.inr hand.1) hand.2⟩
      flushed := fun hl => hi.flushed (hlive hl) }

/-- The other side ends the stream, or the connection breaks. -/
theorem Waits.hangup {v : EdgeView} (hi : v.Waits) (rst : Bool) :
    ({ v with sock := v.sock.hangup rst } : EdgeView).Waits := by
  have hlive : ({ v with sock := v.sock.hangup rst } : EdgeView).live → v.live := fun hl =>
    ⟨hl.1, (Bool.or_eq_false_iff.mp hl.2).1⟩
  exact
    { hi with
      broken := fun _ => rfl
      recvEdge := fun _ => .inr (.inl rfl)
      edge := fun hl => hi.edge (hlive hl)
      recvs := fun _ _ => .inl rfl
      awaited := fun hl => hi.awaited (hlive hl)
      wakes := fun hl hn => (hi.wakes (hlive hl) hn).imp_right fun hor =>
        hor.imp_right (roomDue_congr (s := v.sock) rfl rfl fun _ => rfl)
      closes := fun hl hs hc hn => (hi.closes (hlive hl) hs hc hn).imp_right fun hor =>
        hor.imp_right fun hand =>
          ⟨hand.1, roomDue_congr (s := v.sock) rfl rfl (fun _ => rfl) hand.2⟩
      flushed := fun hl => hi.flushed (hlive hl) }

/-! ### The moves of the worker -/

/-- BREAK is in the log or about to be, and the worker goes on without one of its own. -/
theorem breaks_congr {v : EdgeView} {worker : WorkerPc}
    (h : worker.willBreak = v.worker.willBreak) :
    ({ v with worker } : EdgeView).breaks = v.breaks := by
  show (v.broke || worker.willBreak) = (v.broke || v.worker.willBreak)
  rw [h]

/-- The worker moves on, and stays on its way to `DoRecv` and `DoSend` where it was. -/
theorem Waits.pass {v : EdgeView} {w : WorkerPc} (hi : v.Waits)
    (htypes : v.registered = true → w.holdsBreak = false)
    (hbreak : v.registered = true → w.willBreak = v.worker.willBreak)
    (hrecv : v.registered = true → v.status = .SS_ESTABLISHED → v.worker.willRecv = true →
      w.willRecv = true)
    (hin : v.worker.inDoRecv = true → w.inDoRecv = true)
    (hsend : v.registered = true → v.worker.willSend = true → w.willSend = true) :
    ({ v with worker := w } : EdgeView).Waits where
  opened := hi.opened
  sending := hi.sending
  closing := hi.closing
  types := htypes
  broken := hi.broken
  recvEdge he := (hi.recvEdge he).imp_right fun hor => hor.imp_right hin
  edge := hi.edge
  recvs hl hs := (hi.recvs hl hs).imp_right fun hor => hor.imp_left (hrecv hl.1 hs)
  awaited := hi.awaited
  wakes hl hn := by
    rw [breaks_congr (hbreak hl.1)]
    exact (hi.wakes hl hn).imp_left (hsend hl.1)
  closes hl hs hc hn := by
    rw [breaks_congr (hbreak hl.1)]
    exact (hi.closes hl hs hc hn).imp_left (hsend hl.1)
  flushed hl hb := by
    rw [breaks_congr (hbreak hl.1)] at hb
    exact hi.flushed hl hb

/-- What `epoll_wait` reports of an unbroken socket with the options it was added with. -/
theorem reports_edge {s : Socket} {mask : EpollFlags} (h : s.reports mask = true)
    (hint : s.interest = .edge) :
    (s.readable = true → mask.EPOLLIN = true) ∧ (s.writable = true → mask.EPOLLOUT = true) := by
  unfold Socket.reports at h
  rw [hint] at h
  simp only [Bool.and_eq_true, Bool.or_eq_true, Bool.not_eq_true'] at h
  exact ⟨fun hr => h.2.1.resolve_left (by rw [hr]; decide),
    fun hw => h.2.2.resolve_left (by rw [hw]; decide)⟩

/-- The one-shot reports room on an unbroken socket. -/
theorem reports_outOnce {s : Socket} {mask : EpollFlags} (h : s.reports mask = true)
    (hint : s.interest = .outOnce) (hb : s.broken = false) : mask.EPOLLOUT = true := by
  unfold Socket.reports at h
  rw [hint, hb] at h
  simp only [Bool.and_eq_true, Bool.or_eq_true, Bool.not_eq_true', decide_eq_true_eq] at h
  obtain ⟨⟨herr, hany⟩, hin, -⟩ := h
  rw [hin, herr] at hany
  rcases hany with (hany | hany) | hany
  · cases hany
  · exact hany
  · cases hany

/-- There is nothing to read. -/
theorem not_readable {s : Socket} (h : s.readable = false) :
    s.recvBuf = [] ∧ s.ended = false ∧ s.broken = false := by
  unfold Socket.readable at h
  simp only [Bool.or_eq_false_iff, decide_eq_false_iff_not, not_not] at h
  exact ⟨h.1.1, h.1.2, h.2⟩

/-- There is room. -/
theorem writable_of {s : Socket} (h : 0 < s.room) : s.writable = true := by
  unfold Socket.writable
  rw [decide_eq_true h, Bool.true_or]

/-- Where a report was due and nothing can be read, the worker has seen EAGAIN. -/
theorem Waits.seen {v : EdgeView} (hi : v.Waits) (hw : v.worker.inDoRecv = false)
    (hno : v.sock.readable = false) :
    v.sock.recvBuf = [] ∧ v.sock.ended = false ∧ v.sock.recvEdge = true := by
  obtain ⟨hnil, hend, -⟩ := not_readable hno
  refine ⟨hnil, hend, ?_⟩
  by_contra hedge
  rcases hi.recvEdge (Bool.eq_false_iff.mpr hedge) with h | h | h
  · exact h hnil
  · rw [hend] at h
    cases h
  · rw [hw] at h
    cases h

/-- A report leaves the options of an edge-triggered socket. -/
theorem reported_edge {s : Socket} (h : s.interest = .edge) : s.reported.interest = .edge := by
  simp only [Socket.reported, h]

/-- A one-shot fires once. -/
theorem reported_disabled {s : Socket} (h : s.interest = .outOnce ∨ s.interest = .disabled) :
    s.reported.interest = .disabled := by
  rcases h with h | h
  · simp only [Socket.reported, h]
  · simp only [Socket.reported, h]

/-- `epoll_wait` reports the socket. -/
theorem Waits.event {v : EdgeView} {mask : EpollFlags} (hi : v.Waits) (hw : v.worker = .wait)
    (h : v.sock.reports mask = true) :
    ({ v with worker := .testRecv mask, sock := v.sock.reported } : EdgeView).Waits := by
  have hsame : v.sock.reported.recvBuf = v.sock.recvBuf ∧ v.sock.reported.ended = v.sock.ended ∧
      v.sock.reported.broken = v.sock.broken ∧ v.sock.reported.recvEdge = v.sock.recvEdge ∧
      v.sock.reported.room = v.sock.room ∧ v.sock.reported.sendEdge = v.sock.sendEdge := by
    unfold Socket.reported
    split <;> exact ⟨rfl, rfl, rfl, rfl, rfl, rfl⟩
  obtain ⟨hbuf, hend, hbrk, hedge, hroom, hsend⟩ := hsame
  have hlive : ({ v with worker := .testRecv mask, sock := v.sock.reported } : EdgeView).live →
      v.live := fun hl => ⟨hl.1, hbrk.symm.trans hl.2⟩
  have hdo : v.worker.inDoRecv = false := by rw [hw]; rfl
  have hbreaks : ({ v with worker := .testRecv mask, sock := v.sock.reported } : EdgeView).breaks
      = v.breaks := by
    show (v.broke || false) = (v.broke || v.worker.willBreak)
    rw [hw]
    rfl
  exact
    { opened := hi.opened
      sending := hi.sending
      closing := hi.closing
      types := fun _ => rfl
      broken := fun hb => hend.trans (hi.broken (hbrk.symm.trans hb))
      recvEdge := fun he => by
        show v.sock.reported.recvBuf ≠ [] ∨ v.sock.reported.ended = true ∨ _
        rw [hbuf, hend]
        rcases hi.recvEdge (hedge.symm.trans he) with hr | hr | hr
        · exact .inl hr
        · exact .inr (.inl hr)
        · rw [hdo] at hr
          cases hr
      edge := fun hl => by
        rcases hi.edge (hlive hl) with he | ⟨hs, hn, he⟩
        · exact .inl (reported_edge he)
        · exact .inr ⟨hs, hn, .inr (reported_disabled he)⟩
      recvs := fun hl hs => by
        have hint := hi.edge_of_established (hlive hl) hs
        refine .inr ?_
        show mask.EPOLLIN = true ∨ v.sock.reported.recvBuf = [] ∧ v.sock.reported.ended = false ∧
          v.sock.reported.recvEdge = true
        rw [hbuf, hend, hedge]
        by_cases hr : v.sock.readable = true
        · exact .inl ((reports_edge h hint).1 hr)
        · exact .inr (hi.seen hdo (Bool.eq_false_iff.mpr hr))
      awaited := fun hl => hi.awaited (hlive hl)
      wakes := fun hl hn => by
        have hint := hi.edge_of_needSend (hlive hl) hn
        rw [hbreaks]
        rcases hi.wakes (hlive hl) hn with hs | hb | ⟨hr, hs⟩ | ⟨hr, -⟩
        · rw [hw] at hs
          cases hs
        · exact .inr (.inl hb)
        · exact .inr (.inr (.inl ⟨hroom.trans hr, hsend.trans hs⟩))
        · exact .inl ((reports_edge h hint).2 (writable_of hr))
      closes := fun hl hs hc hn => by
        rw [hbreaks]
        rcases hi.closes (hlive hl) hs hc hn with hs | hb | ⟨hint, -⟩
        · rw [hw] at hs
          cases hs
        · exact .inr (.inl hb)
        · exact .inl (reports_outOnce h hint (hlive hl).2)
      flushed := fun hl hb => by
        rw [hbreaks] at hb
        exact hi.flushed (hlive hl) hb }

/-- `epoll_wait` finds nothing to report. -/
theorem Waits.skip {v : EdgeView} (hi : v.Waits) (hw : v.worker = .wait)
    (h : v.sock.quiet = true) :
    ({ v with sock := { v.sock with ready := false } } : EdgeView).Waits := by
  have hdo : v.worker.inDoRecv = false := by rw [hw]; rfl
  -- A quiet socket has no room, whichever options ask for it.
  have hroom : v.sock.interest = .edge ∨ v.sock.interest = .outOnce → ¬ 0 < v.sock.room := by
    intro hint hpos
    unfold Socket.quiet at h
    rcases hint with hint | hint
    · rw [hint] at h
      simp only [Bool.and_eq_true, Bool.not_eq_true'] at h
      rw [writable_of hpos] at h
      cases h.2
    · rw [hint] at h
      simp only [Bool.not_eq_true'] at h
      rw [writable_of hpos] at h
      cases h
  exact
    { hi with
      recvs := fun hl hs => by
        have hint := hi.edge_of_established hl hs
        unfold Socket.quiet at h
        rw [hint] at h
        simp only [Bool.and_eq_true, Bool.not_eq_true'] at h
        exact .inr (.inr (hi.seen hdo h.1))
      wakes := fun hl hn => (hi.wakes hl hn).imp_right fun hor => hor.imp_right fun hdue =>
        .inl (hdue.resolve_right fun hand =>
          hroom (.inl (hi.edge_of_needSend hl hn)) hand.1)
      closes := fun hl hs hc hn => (hi.closes hl hs hc hn).imp_right fun hor =>
        hor.imp_right fun hand => ⟨hand.1, .inl (hand.2.resolve_right fun hpos =>
          hroom (.inr hand.1) hpos.1)⟩ }

/-- The worker reads a piece. -/
theorem Waits.piece {v : EdgeView} {mask : EpollFlags} {n n' : Nat} {piece : List UInt8}
    {s : Socket} (hi : v.Waits) (hw : v.worker = .inRecv mask n)
    (h : v.sock.recv (.data piece) = some s) :
    ({ v with worker := .inRecv mask n', sock := s } : EdgeView).Waits := by
  have hp := hi.pass (w := .inRecv mask n') (fun _ => rfl) (fun _ => by rw [hw]; rfl)
    (fun _ _ _ => rfl) (fun _ => rfl) (fun _ hs => by rw [hw] at hs; exact hs)
  unfold Socket.recv at h
  dsimp only at h
  split at h
  · cases h
    exact
      { hp with
        recvEdge := fun _ => .inr (.inr rfl)
        recvs := fun _ _ => .inr (.inl rfl)
        wakes := fun hl hn => (hp.wakes hl hn).imp_right fun hor =>
          hor.imp_right (roomDue_congr (s := v.sock) rfl rfl id)
        closes := fun hl hs hc hn => (hp.closes hl hs hc hn).imp_right fun hor =>
          hor.imp_right fun hand => ⟨hand.1, roomDue_congr (s := v.sock) rfl rfl id hand.2⟩ }
  · cases h

/-- `DoRecv` has read everything. -/
theorem Waits.drained {v : EdgeView} {mask : EpollFlags} {n : Nat} {t : IoEventType}
    {s : Socket} (hi : v.Waits) (hw : v.worker = .inRecv mask n)
    (h : v.sock.recv .EAGAIN = some s) (ht : t ≠ .BREAK) :
    ({ v with worker := .testSend mask t, sock := s } : EdgeView).Waits := by
  unfold Socket.recv at h
  dsimp only at h
  split at h
  · rename_i hno
    cases h
    obtain ⟨hnil, hend, -⟩ := not_readable hno
    have hbreaks : ({ v with worker := .testSend mask t } : EdgeView).breaks = v.breaks :=
      breaks_congr (by rw [hw]; rfl)
    exact
      { hi with
        types := fun _ => decide_eq_false ht
        recvEdge := fun he => by cases he
        recvs := fun _ _ => .inr (.inr ⟨hnil, hend, rfl⟩)
        wakes := fun hl hn => by
          rcases hi.wakes hl hn with hs | hb | hdue
          · rw [hw] at hs
            exact .inl hs
          · exact .inr (.inl (hbreaks.trans hb))
          · exact .inr (.inr (roomDue_congr (s := v.sock) rfl rfl id hdue))
        closes := fun hl hs hc hn => by
          rcases hi.closes hl hs hc hn with hs | hb | ⟨hint, hdue⟩
          · rw [hw] at hs
            exact .inl hs
          · exact .inr (.inl (hbreaks.trans hb))
          · exact .inr (.inr ⟨hint, roomDue_congr (s := v.sock) rfl rfl id hdue⟩)
        flushed := fun hl hb => hi.flushed hl (hbreaks.symm.trans hb) }
  · cases h

/-- The worker closes the pipe: nothing is promised of reports any more. -/
theorem Waits.closed {v : EdgeView} {w : WorkerPc} (hi : v.Waits)
    (hin : v.worker.inDoRecv = true → v.sock.ended = true) :
    ({ v.DoClose with worker := w } : EdgeView).Waits := by
  have hout : v.DoClose.registered = false ∧ v.DoClose.sock = v.sock := by
    unfold DoClose
    split
    · exact ⟨rfl, rfl⟩
    · rename_i hstatus
      refine ⟨Bool.eq_false_iff.mpr fun hreg => hi.opened hreg ?_, rfl⟩
      exact Decidable.not_not.mp hstatus
  have hno : ∀ {P : Prop}, v.DoClose.registered = true → P := fun hreg => by
    rw [hout.1] at hreg
    cases hreg
  refine .of_dead (fun hl => hno hl.1) hno hno hno hno ?_ ?_
  · show v.DoClose.sock.broken = true → v.DoClose.sock.ended = true
    rw [hout.2]
    exact hi.broken
  · show v.DoClose.sock.recvEdge = false → v.DoClose.sock.recvBuf ≠ [] ∨
      v.DoClose.sock.ended = true ∨ _
    rw [hout.2]
    intro he
    rcases hi.recvEdge he with hr | hr | hr
    · exact .inl hr
    · exact .inr (.inl hr)
    · exact .inr (.inl (hin hr))

/-- A `send` of the worker that accepted some bytes. -/
theorem Waits.sent {v : EdgeView} {mask : EpollFlags} {t : IoEventType} {k : Nat}
    {pending : Bool} {s : Socket} (hi : v.Waits) (hw : v.worker = .inSend mask t)
    (hp : v.pending = true) (h : v.sock.send (.sent k) = some s) :
    ({ v with pending, sock := s } : EdgeView).Waits := by
  obtain ⟨hframe, hint⟩ := Socket.send_frame h
  have hlive : ({ v with pending, sock := s } : EdgeView).live → v.live := fun hl =>
    ⟨hl.1, hframe.broken.symm.trans hl.2⟩
  have hsend : v.worker.willSend = true := by rw [hw]; rfl
  exact
    { hi with
      broken := fun hb => hframe.ended.trans (hi.broken (hframe.broken.symm.trans hb))
      recvEdge := fun he => by
        show s.recvBuf ≠ [] ∨ s.ended = true ∨ v.worker.inDoRecv = true
        rw [hframe.recvBuf, hframe.ended]
        exact hi.recvEdge (hframe.recvEdge.symm.trans he)
      edge := fun hl => by
        show s.interest = .edge ∨ _
        rw [hint]
        exact hi.edge (hlive hl)
      recvs := fun hl hs => by
        show s.ready = true ∨ v.worker.willRecv = true ∨
          s.recvBuf = [] ∧ s.ended = false ∧ s.recvEdge = true
        rw [hframe.recvBuf, hframe.ended, hframe.recvEdge]
        exact (hi.recvs (hlive hl) hs).imp_left hframe.ready
      awaited := fun hl hc _ => hi.awaited (hlive hl) hc hp
      wakes := fun _ _ => .inl hsend
      closes := fun _ _ _ _ => .inl hsend
      flushed := fun hl hb => by
        -- BREAK would mean that nothing was pending.
        have hno := (hi.flushed (hlive hl) hb).2
        rw [hp] at hno
        cases hno }

/-- A `send` of the worker that said EAGAIN. -/
theorem Waits.full {v : EdgeView} {mask : EpollFlags} {t : IoEventType} {s : Socket}
    (hi : v.Waits) (hw : v.worker = .inSend mask t) (hp : v.pending = true)
    (h : v.sock.send .EAGAIN = some s) :
    ({ v with worker := .testClose mask t, sock := s } : EdgeView).Waits := by
  obtain ⟨hframe, hint⟩ := Socket.send_frame h
  have hlive : ({ v with worker := .testClose mask t, sock := s } : EdgeView).live → v.live :=
    fun hl => ⟨hl.1, hframe.broken.symm.trans hl.2⟩
  have hdue : roomDue s := .inl (Socket.send_EAGAIN h)
  have htype : v.registered = true → t ≠ .BREAK := fun hreg => by
    have := hi.types hreg
    rw [hw] at this
    exact of_decide_eq_false this
  exact
    { hi with
      types := fun _ => rfl
      broken := fun hb => hframe.ended.trans (hi.broken (hframe.broken.symm.trans hb))
      recvEdge := fun he => by
        show s.recvBuf ≠ [] ∨ s.ended = true ∨ _
        rw [hframe.recvBuf, hframe.ended]
        rcases hi.recvEdge (hframe.recvEdge.symm.trans he) with hr | hr | hr
        · exact .inl hr
        · exact .inr (.inl hr)
        · rw [hw] at hr
          cases hr
      edge := fun hl => by
        show s.interest = .edge ∨ _
        rw [hint]
        exact hi.edge (hlive hl)
      recvs := fun hl hs => by
        show s.ready = true ∨ _ ∨ s.recvBuf = [] ∧ s.ended = false ∧ s.recvEdge = true
        rw [hframe.recvBuf, hframe.ended, hframe.recvEdge]
        rcases hi.recvs (hlive hl) hs with hr | hr | hr
        · exact .inl (hframe.ready hr)
        · rw [hw] at hr
          cases hr
        · exact .inr (.inr hr)
      awaited := fun hl hc _ => hi.awaited (hlive hl) hc hp
      wakes := fun _ _ => .inr (.inr hdue)
      closes := fun hl hs hc hn => by
        -- Bytes that are pending behind a `Close` wait with the flag cleared.
        have hsending : v.call ≠ .sending := fun hcall => by
          have := hi.sending hl.1 hcall
          rw [show v.status = .SS_WAITCLOSE from hs] at this
          cases this
        have hno := hi.awaited (hlive hl) hsending hp
        rw [show v.needSend = true from hn] at hno
        cases hno
      flushed := fun hl hb => by
        have hbreaks : v.breaks = true := by
          show (v.broke || v.worker.willBreak) = true
          have hb' : (v.broke || decide (t = .BREAK)) = true := hb
          rw [decide_eq_false (htype hl.1), Bool.or_false] at hb'
          rw [hb', Bool.true_or]
        have hno := (hi.flushed (hlive hl) hbreaks).2
        rw [hp] at hno
        cases hno }

/-- A move of the worker in `DoSend`, from `DoSend` to the last test. -/
theorem Waits.leave {v : EdgeView} {mask : EpollFlags} {t t' : IoEventType} (hi : v.Waits)
    (hw : v.worker = .inSend mask t)
    (hflushed : v.live → (v.broke || decide (t' = .BREAK)) = true →
      v.status = .SS_WAITCLOSE ∧ v.pending = false)
    (hwakes : v.live → v.needSend = false → t' = .BREAK)
    (hcloses : v.live → v.status = .SS_WAITCLOSE → t' = .BREAK) :
    ({ v with worker := .testClose mask t' } : EdgeView).Waits := by
  have hbreaks : t' = .BREAK →
      ({ v with worker := .testClose mask t' } : EdgeView).breaks = true := fun ht => by
    show (v.broke || decide (t' = .BREAK)) = true
    rw [decide_eq_true ht, Bool.or_true]
  exact
    { hi with
      types := fun _ => rfl
      recvEdge := fun he => by
        rcases hi.recvEdge he with hr | hr | hr
        · exact .inl hr
        · exact .inr (.inl hr)
        · rw [hw] at hr
          cases hr
      recvs := fun hl hs => by
        rcases hi.recvs hl hs with hr | hr | hr
        · exact .inl hr
        · rw [hw] at hr
          cases hr
        · exact .inr (.inr hr)
      wakes := fun hl hn => .inr (.inl (hbreaks (hwakes hl hn)))
      closes := fun hl hs _ _ => .inr (.inl (hbreaks (hcloses hl hs)))
      flushed := hflushed }

/-- BREAK that is in the log already stays there while the worker is in `DoSend`. -/
theorem Waits.flushed_of_broke {v : EdgeView} (hi : v.Waits) (hl : v.live)
    (hb : v.broke = true) : v.status = .SS_WAITCLOSE ∧ v.pending = false := by
  refine hi.flushed hl ?_
  show (v.broke || v.worker.willBreak) = true
  rw [hb, Bool.true_or]

/-- `DoSend` finds nothing pending on an established pipe, and the main thread sends again. -/
theorem Waits.needs {v : EdgeView} {mask : EpollFlags} {t : IoEventType} (hi : v.Waits)
    (hw : v.worker = .inSend mask t) (hp : v.pending = false) (hs : v.status ≠ .SS_WAITCLOSE) :
    ({ v with worker := .testClose mask t, needSend := true } : EdgeView).Waits := by
  have htype : v.registered = true → t ≠ .BREAK := fun hreg => by
    have := hi.types hreg
    rw [hw] at this
    exact of_decide_eq_false this
  exact
    { hi with
      types := fun _ => rfl
      recvEdge := fun he => by
        rcases hi.recvEdge he with hr | hr | hr
        · exact .inl hr
        · exact .inr (.inl hr)
        · rw [hw] at hr
          cases hr
      edge := fun hl => by
        rcases hi.edge hl with he | ⟨hwait, -⟩
        · exact .inl he
        · exact absurd hwait hs
      recvs := fun hl hs => by
        rcases hi.recvs hl hs with hr | hr | hr
        · exact .inl hr
        · rw [hw] at hr
          cases hr
        · exact .inr (.inr hr)
      awaited := fun _ _ hpend => by
        rw [show v.pending = true from hpend] at hp
        cases hp
      wakes := fun _ hn => by cases hn
      closes := fun _ hwait => absurd hwait hs
      flushed := fun hl hb => by
        have hb' : (v.broke || decide (t = .BREAK)) = true := hb
        rw [decide_eq_false (htype hl.1), Bool.or_false] at hb'
        exact hi.flushed_of_broke hl hb' }

/-- The worker adds an event. -/
theorem Waits.add {v : EdgeView} {t : IoEventType} (hi : v.Waits) (hw : v.worker = .add t) :
    ({ v with worker := .wait, broke := v.broke || decide (t = .BREAK) } : EdgeView).Waits := by
  have hbreaks : ({ v with worker := .wait, broke := v.broke || decide (t = .BREAK) } :
      EdgeView).breaks = v.breaks := by
    show (v.broke || decide (t = .BREAK) || false) = (v.broke || v.worker.willBreak)
    rw [hw, Bool.or_false]
    rfl
  exact
    { hi with
      types := fun _ => rfl
      recvEdge := fun he => by
        rcases hi.recvEdge he with hr | hr | hr
        · exact .inl hr
        · exact .inr (.inl hr)
        · rw [hw] at hr
          cases hr
      recvs := fun hl hs => by
        rcases hi.recvs hl hs with hr | hr | hr
        · exact .inl hr
        · rw [hw] at hr
          cases hr
        · exact .inr (.inr hr)
      wakes := fun hl hn => by
        rw [hbreaks]
        rcases hi.wakes hl hn with hr | hr | hr
        · rw [hw] at hr
          cases hr
        · exact .inr (.inl hr)
        · exact .inr (.inr hr)
      closes := fun hl hs hc hn => by
        rw [hbreaks]
        rcases hi.closes hl hs hc hn with hr | hr | hr
        · rw [hw] at hr
          cases hr
        · exact .inr (.inl hr)
        · exact .inr (.inr hr)
      flushed := fun hl hb => hi.flushed hl (hbreaks.symm.trans hb) }

/-! ### The moves of the main thread -/

/-- The unlocked part of `Send`. -/
theorem Waits.Send {v : EdgeView} {pending : Bool} (hi : v.Waits)
    (hs : v.status = .SS_ESTABLISHED) :
    ({ v with pending, call := .sending } : EdgeView).Waits :=
  { hi with
    sending := fun _ _ => hs
    closing := fun _ hc => by cases hc
    awaited := fun _ hne => absurd rfl hne
    closes := fun _ hwait => by
      rw [show v.status = .SS_WAITCLOSE from hwait] at hs
      cases hs
    flushed := fun hl hb => by
      have hwait := (hi.flushed hl hb).1
      rw [hs] at hwait
      cases hwait }

/-- The locked section of `Send`. -/
theorem Waits.sendLocked {v : EdgeView} {needSend pending : Bool} {s : Socket} (hi : v.Waits)
    (hc : v.call = .sending) (h : LockedSend v.needSend v.pending v.sock needSend pending s) :
    ({ v with needSend, pending, sock := s, call := .idle } : EdgeView).Waits := by
  have hopen : v.registered = true → v.status = .SS_ESTABLISHED := fun hreg =>
    hi.sending hreg hc
  -- While the pipe is established there is no BREAK and no `Close`.
  have hwait : ∀ {P : Prop}, v.registered = true → v.status = .SS_WAITCLOSE → P :=
    fun hreg hs => by
      rw [hopen hreg] at hs
      cases hs
  have hkeep : ∀ {s' : Socket}, SendFrame v.sock s' →
      (s'.broken = true → s'.ended = true) ∧
      (s'.recvEdge = false → s'.recvBuf ≠ [] ∨ s'.ended = true ∨ v.worker.inDoRecv = true) := by
    intro s' hframe
    rw [hframe.recvBuf, hframe.ended, hframe.recvEdge, hframe.broken]
    exact ⟨hi.broken, hi.recvEdge⟩
  have hrecvs : ∀ {s' : Socket}, SendFrame v.sock s' → v.live → v.status = .SS_ESTABLISHED →
      s'.ready = true ∨ v.worker.willRecv = true ∨
        s'.recvBuf = [] ∧ s'.ended = false ∧ s'.recvEdge = true := by
    intro s' hframe hl hs
    rw [hframe.recvBuf, hframe.ended, hframe.recvEdge]
    exact (hi.recvs hl hs).imp_left hframe.ready
  cases h with
  | skips hn =>
      exact
        { hi with
          sending := fun _ hcall => by cases hcall
          closing := fun _ hcall => by cases hcall
          awaited := fun _ _ _ => hn
          closes := fun hl hs => hwait hl.1 hs }
  | done _ hn hframe hint =>
      have hlive : ∀ hl : v.registered = true ∧ s.broken = false, v.live := fun hl =>
        ⟨hl.1, hframe.broken.symm.trans hl.2⟩
      exact
        { hi with
          sending := fun _ hcall => by cases hcall
          closing := fun _ hcall => by cases hcall
          broken := (hkeep hframe).1
          recvEdge := (hkeep hframe).2
          edge := fun hl => .inl (hint.trans (hi.edge_of_established (hlive hl) (hopen hl.1)))
          recvs := fun hl hs => hrecvs hframe (hlive hl) hs
          awaited := fun _ _ hp => by cases hp
          wakes := fun _ hneed => by cases hneed
          closes := fun hl hs => hwait hl.1 hs
          flushed := fun hl hb => hwait hl.1 (hi.flushed (hlive hl) hb).1 }
  | full _ hn hframe hint hroom hedge =>
      have hlive : ∀ hl : v.registered = true ∧ s.broken = false, v.live := fun hl =>
        ⟨hl.1, hframe.broken.symm.trans hl.2⟩
      exact
        { hi with
          sending := fun _ hcall => by cases hcall
          closing := fun _ hcall => by cases hcall
          broken := (hkeep hframe).1
          recvEdge := (hkeep hframe).2
          edge := fun hl => .inl (hint.trans (hi.edge_of_established (hlive hl) (hopen hl.1)))
          recvs := fun hl hs => hrecvs hframe (hlive hl) hs
          awaited := fun _ _ _ => rfl
          -- The socket has said EAGAIN, so its next room is reported.
          wakes := fun _ _ => .inr (.inr (.inl ⟨hroom, hedge⟩))
          closes := fun hl hs => hwait hl.1 hs
          flushed := fun hl hb => hwait hl.1 (hi.flushed (hlive hl) hb).1 }
  | broke _ _ _ hframe hbroken =>
      refine .of_dead (fun hl => ?_) hi.opened (fun _ hcall => by cases hcall)
        (fun _ hcall => by cases hcall) hi.types (hkeep hframe).1 (hkeep hframe).2
      have hno : s.broken = false := hl.2
      rw [hbroken] at hno
      cases hno

/-- The unlocked part of `Close`. -/
theorem Waits.Close {v : EdgeView} (hi : v.Waits) (hc : v.call = .idle) :
    ({ v with status := .SS_WAITCLOSE, call := .closing } : EdgeView).Waits :=
  { hi with
    opened := fun _ hs => by cases hs
    sending := fun _ hcall => by cases hcall
    closing := fun _ _ => rfl
    edge := fun hl => (hi.edge hl).imp_right fun hand => ⟨rfl, hand.2⟩
    recvs := fun _ hs => by cases hs
    awaited := fun hl _ hp => hi.awaited hl (by rw [hc]; decide) hp
    closes := fun _ _ hne => absurd rfl hne
    flushed := fun hl hb => ⟨rfl, (hi.flushed hl hb).2⟩ }

/-- The locked section of `Close`. -/
theorem Waits.closeLocked {v : EdgeView} (hi : v.Waits) (hc : v.call = .closing) :
    ({ v with
      call := .idle
      sock := if v.registered && v.needSend then v.sock.modify .outOnce else v.sock } :
        EdgeView).Waits := by
  by_cases hpost : v.registered = true ∧ v.needSend = true
  · -- The one-shot EPOLLOUT is asked for, and reports its room.
    obtain ⟨hreg, hneed⟩ := hpost
    have hyes : (v.registered && v.needSend) = true := by
      rw [hreg, hneed]
      rfl
    rw [if_pos hyes]
    have hstatus := hi.closing hreg hc
    exact
      { opened := hi.opened
        sending := fun _ hcall => by cases hcall
        closing := fun _ hcall => by cases hcall
        types := hi.types
        broken := hi.broken
        recvEdge := hi.recvEdge
        edge := fun _ => .inr ⟨hstatus, hneed, .inl rfl⟩
        recvs := fun _ hs => by
          rw [show v.status = .SS_ESTABLISHED from hs] at hstatus
          cases hstatus
        awaited := fun hl _ hp => hi.awaited ⟨hreg, hl.2⟩ (by rw [hc]; decide) hp
        wakes := fun _ hn => by
          rw [show v.needSend = false from hn] at hneed
          cases hneed
        closes := fun _ _ _ _ => .inr (.inr ⟨rfl, roomDue_modify v.sock⟩)
        flushed := fun hl hb => hi.flushed ⟨hreg, hl.2⟩ hb }
  · rw [if_neg fun h => hpost (Bool.and_eq_true_iff.mp h)]
    exact
      { hi with
        sending := fun _ hcall => by cases hcall
        closing := fun _ hcall => by cases hcall
        awaited := fun hl _ hp => hi.awaited hl (by rw [hc]; decide) hp
        closes := fun hl _ _ hn => absurd ⟨hl.1, hn⟩ hpost }

/-- Every move keeps the invariant. -/
theorem Waits.turn {v v' : EdgeView} (hi : v.Waits) (h : Turn v v') : v'.Waits := by
  cases h with
  | arrive bs edge s hs => exact hi.arrive hs
  | free k edge s hs => exact hi.free hs
  | hangup rst => exact hi.hangup rst
  | event mask hw hreg hready hreports => exact hi.event hw hreports
  | skip hw hquiet => exact hi.skip hw hquiet
  | doRecv mask hw hin hs =>
      exact hi.pass (fun _ => rfl) (fun _ => by rw [hw]; rfl) (fun _ _ _ => rfl)
        (fun h => by rw [hw] at h; cases h) (fun _ h => by rw [hw] at h; exact h)
  | noRecv mask hw hno =>
      refine hi.pass (fun _ => rfl) (fun _ => by rw [hw]; rfl) (fun _ hs hr => ?_)
        (fun h => by rw [hw] at h; cases h) (fun _ h => by rw [hw] at h; exact h)
      -- On an established pipe an EPOLLIN leads to `DoRecv`.
      rw [hw] at hr
      exact absurd ⟨hr, hs⟩ hno
  | piece mask n n' piece s hw hs => exact hi.piece hw hs
  | drained mask n t s hw hs ht => exact hi.drained hw hs ht
  | ended mask n hw hend => exact hi.closed fun _ => hend.elim id hi.broken
  | doSend mask t hw =>
      refine hi.pass (fun hreg => ?_) (fun _ => by rw [hw]; rfl)
        (fun _ _ hr => by rw [hw] at hr; cases hr) (fun h => by rw [hw] at h; cases h)
        (fun _ _ => rfl)
      have := hi.types hreg
      rw [hw] at this
      exact this
  | noSend mask t hw hno =>
      refine hi.pass (fun _ => rfl) (fun hreg => ?_)
        (fun _ _ hr => by rw [hw] at hr; cases hr) (fun h => by rw [hw] at h; cases h)
        (fun hreg hs => ?_)
      · have htype := hi.types hreg
        rw [hw] at htype
        rw [hw]
        exact htype
      · rw [hw] at hs
        exact absurd ⟨hs, hi.opened hreg⟩ hno
  | sent mask t k pending s hw hp hs => exact hi.sent hw hp hs
  | full mask t s hw hp hs => exact hi.full hw hp hs
  | failed mask t hw hbroken =>
      have hdead : ¬ v.live := fun hl => by
        rw [hl.2] at hbroken
        cases hbroken
      exact hi.leave hw (fun hl => absurd hl hdead) (fun hl => absurd hl hdead)
        (fun hl => absurd hl hdead)
  | flushed mask t hw hp hs =>
      exact hi.leave hw (fun _ _ => ⟨hs, hp⟩) (fun _ _ => rfl) (fun _ _ => rfl)
  | needs mask t hw hp hs => exact hi.needs hw hp hs
  | error mask t hw herr => exact hi.closed fun h => by rw [hw] at h; cases h
  | noError mask t hw =>
      exact hi.pass (fun _ => rfl) (fun _ => by rw [hw]; rfl)
        (fun _ _ hr => by rw [hw] at hr; cases hr) (fun h => by rw [hw] at h; cases h)
        (fun _ hs => by rw [hw] at hs; cases hs)
  | add t hw => exact hi.add hw
  | Send pending hc hs hmono => exact hi.Send hs
  | sendLocked needSend pending s hc hlocked => exact hi.sendLocked hc hlocked
  | Close hc => exact hi.Close hc
  | closeLocked hc => exact hi.closeLocked hc
  | stay => exact hi

end EdgeView

end Kernel4GameServer
