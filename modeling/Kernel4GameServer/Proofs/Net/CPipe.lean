import Kernel4GameServer.Net.Epoll.CPipe
import Kernel4GameServer.Proofs.Public.TStream

/-!
# `Kernel4GameServer.Proofs.Net.CPipe`: what the locked sections of a pipe do

`SentBy p r` is what every locked section of the send path does to its pipe: the bytes that
`send` accepted come off the front of `m_oSendStream`, and nothing else about the pipe
changes but `m_bNeedSend`. The flag has a theorem of its own for each section.

* `sendLoop_sentBy`, `sendSection_sentBy`, `doSendRound_sentBy`: the sections are `SentBy`.
* `sendLoop_flag`: the loop of `Send` ends with a failure, with nothing left and the flag
  set, or with bytes left and the flag cleared.
* `doSendRound_end`: how an iteration of `DoSend` ends.
* `sendIn_spec`: the unlocked part of `Send` appends its bytes.
-/

set_option autoImplicit false

namespace Kernel4GameServer.CPipe

open Lib

/-- What a locked section of the send path does to its pipe. -/
structure SentBy (p : CPipe) (r : Sent) : Prop where
  status : r.pipe.m_nStatus = p.m_nStatus
  socket : r.pipe.m_lSocketHandler = p.m_lSocketHandler
  recv : r.pipe.m_oRecvStream = p.m_oRecvStream
  wf : p.m_oSendStream.WellFormed → r.pipe.m_oSendStream.WellFormed
  max : r.pipe.m_oSendStream.m_max = p.m_oSendStream.m_max
  bytes : p.m_oSendStream.WellFormed →
    r.wire ++ r.pipe.m_oSendStream.unread = p.m_oSendStream.unread

/-- The pending bytes are none exactly when `size()` is not above zero. -/
theorem unread_eq_nil {buff_length : Nat} {s : TStream buff_length} :
    s.unread = [] ↔ ¬ s.size > 0 := by
  rw [← List.length_eq_zero_iff, TStream.length_unread]
  omega

/-- A section that changes no more than the flag. -/
theorem sentBy_self (p : CPipe) (needSend : Bool) (posted : List EpollFlags) (failed : Bool) :
    SentBy p { pipe := { p with m_bNeedSend := needSend }, posted, failed } :=
  ⟨rfl, rfl, rfl, id, rfl, fun _ => rfl⟩

/-- What `send` accepts comes off the front of the stream. -/
theorem sendOut_unread {p : CPipe} (h : p.m_oSendStream.WellFormed) {k : Nat}
    (hk : (k : Int) ≤ p.m_oSendStream.size) :
    Mem.slice p.m_oSendStream.buff 0 k ++ (p.sendOut k).m_oSendStream.unread
      = p.m_oSendStream.unread := by
  have hslice := TStream.slice_buff p.m_oSendStream (n := k) (by omega)
  have hrest : (p.sendOut k).m_oSendStream.unread = p.m_oSendStream.unread.drop k :=
    TStream.out_unread h (Int.natCast_nonneg k)
  rw [hslice, hrest, List.take_append_drop]

/-- `out` of what `send` accepted keeps the offsets in order. -/
theorem sendOut_wf {p : CPipe} (h : p.m_oSendStream.WellFormed) (k : Nat) :
    (p.sendOut k).m_oSendStream.WellFormed :=
  TStream.out_wf h (Int.natCast_nonneg k)

/-- A section that sends `k` bytes and goes on with another section. -/
theorem sentBy_sendOut {p : CPipe} {k : Nat} (hk : (k : Int) ≤ p.m_oSendStream.size) {r : Sent}
    (hr : SentBy (p.sendOut k) r) :
    SentBy p { r with wire := Mem.slice p.m_oSendStream.buff 0 k ++ r.wire } where
  status := hr.status
  socket := hr.socket
  recv := hr.recv
  wf h := hr.wf (sendOut_wf h k)
  max := hr.max.trans (TStream.out_max _ _)
  bytes h := by
    show (Mem.slice p.m_oSendStream.buff 0 k ++ r.wire) ++ r.pipe.m_oSendStream.unread = _
    rw [List.append_assoc, hr.bytes (sendOut_wf h k), sendOut_unread h hk]

/-! ### `Send` -/

/-- `Send` with nothing left to send changes no more than the flag. -/
theorem sendDone_sentBy (p : CPipe) : SentBy p p.sendDone := by
  unfold sendDone
  split
  · exact sentBy_self p p.m_bNeedSend _ _
  · exact sentBy_self p true _ _

/-- The loop of `Send` sends from the front of the stream. Induction on the results. -/
theorem sendLoop_sentBy {results : List SendResult} : ∀ {p : CPipe} {r : Sent},
    p.sendLoop results = some r → SentBy p r := by
  induction results with
  | nil =>
      intro p r hr
      rw [sendLoop] at hr
      split at hr
      · cases hr
      · cases hr
        exact sendDone_sentBy p
  | cons result rest ih =>
      intro p r hr
      simp only [sendLoop] at hr
      split at hr
      · cases result with
        | sent k =>
            dsimp only at hr
            split at hr
            · obtain ⟨r', hr', rfl⟩ := Option.map_eq_some_iff.mp hr
              rename_i hk
              exact sentBy_sendOut hk.2 (ih hr')
            · cases hr
        | EAGAIN =>
            cases hr
            exact sentBy_self p false _ _
        | failed =>
            cases hr
            exact sentBy_self p p.m_bNeedSend _ _
      · cases hr
        exact sendDone_sentBy p

/-- How the loop of `Send` leaves the flag. -/
theorem sendLoop_flag {results : List SendResult} : ∀ {p : CPipe} {r : Sent},
    p.m_bNeedSend = true → p.sendLoop results = some r →
      r.failed = true ∨
      (r.failed = false ∧ r.pipe.m_oSendStream.unread = [] ∧ r.pipe.m_bNeedSend = true) ∨
      (r.failed = false ∧ r.pipe.m_oSendStream.unread ≠ [] ∧ r.pipe.m_bNeedSend = false) := by
  have hdone : ∀ {p : CPipe}, p.m_bNeedSend = true → ¬ p.m_oSendStream.size > 0 →
      p.sendDone.failed = false ∧ p.sendDone.pipe.m_oSendStream.unread = [] ∧
        p.sendDone.pipe.m_bNeedSend = true := by
    intro p hflag hsize
    have hnil := unread_eq_nil.mpr hsize
    unfold sendDone
    split
    · exact ⟨rfl, hnil, hflag⟩
    · exact ⟨rfl, hnil, rfl⟩
  induction results with
  | nil =>
      intro p r hflag hr
      rw [sendLoop] at hr
      split at hr
      · cases hr
      · rename_i hsize
        cases hr
        exact .inr (.inl (hdone hflag hsize))
  | cons result rest ih =>
      intro p r hflag hr
      simp only [sendLoop] at hr
      split at hr
      · rename_i hsize
        cases result with
        | sent k =>
            dsimp only at hr
            split at hr
            · obtain ⟨r', hr', rfl⟩ := Option.map_eq_some_iff.mp hr
              exact ih (p := p.sendOut k) (r := r') hflag hr'
            · cases hr
        | EAGAIN =>
            cases hr
            -- EAGAIN leaves bytes and clears the flag.
            exact .inr (.inr ⟨rfl, fun hnil => unread_eq_nil.mp hnil hsize, rfl⟩)
        | failed =>
            cases hr
            exact .inl rfl
      · rename_i hsize
        cases hr
        exact .inr (.inl (hdone hflag hsize))

/-- The locked section of `Send` sends from the front of the stream. -/
theorem sendSection_sentBy {p : CPipe} {results : List SendResult} {r : Sent}
    (hr : p.sendSection results = some r) : SentBy p r := by
  unfold sendSection at hr
  split at hr
  · exact sendLoop_sentBy hr
  · cases hr
    exact sentBy_self p p.m_bNeedSend _ _

/-- How the locked section of `Send` leaves the flag. -/
theorem sendSection_flag {p : CPipe} {results : List SendResult} {r : Sent}
    (hr : p.sendSection results = some r) :
    r.failed = true ∨
      (r.pipe.m_oSendStream.unread = [] ∧ r.pipe.m_bNeedSend = true) ∨
      (r.pipe.m_oSendStream.unread ≠ [] ∧ r.pipe.m_bNeedSend = false) ∨
      (r.pipe = p ∧ p.m_bNeedSend = false) := by
  unfold sendSection at hr
  split at hr
  · rename_i hflag
    rcases sendLoop_flag hflag hr with hfailed | ⟨-, hdone⟩ | ⟨-, hleft⟩
    · exact .inl hfailed
    · exact .inr (.inl hdone)
    · exact .inr (.inr (.inl hleft))
  · rename_i hflag
    cases hr
    exact .inr (.inr (.inr ⟨rfl, Bool.eq_false_iff.mpr hflag⟩))

/-- The unlocked part of `Send` on a pipe that is not established changes nothing. -/
theorem sendIn_refused {p : CPipe} (h : p.m_nStatus ≠ .SS_ESTABLISHED) (context : Mem UInt8)
    (nSize : Int) : p.sendIn context nSize = (p, false) :=
  if_pos h

/-- The unlocked part of `Send` on an established pipe appends to the stream. -/
theorem sendIn_accepted {p : CPipe} (h : p.m_nStatus = .SS_ESTABLISHED) (context : Mem UInt8)
    (nSize : Int) :
    p.sendIn context nSize
      = ({ p with m_oSendStream := p.m_oSendStream.inBytes context nSize }, true) :=
  if_neg (fun hne => hne h)

/-- `Send` as a whole keeps the status and what is received, and its stream in order. -/
theorem Send_frame {p : CPipe} {context : Mem UInt8} {nSize : Int} {results : List SendResult}
    {r : Sent} (h : p.m_oSendStream.WellFormed) (hsize : 0 ≤ nSize)
    (hr : p.Send context nSize results = some r) :
    r.pipe.m_nStatus = p.m_nStatus ∧ r.pipe.m_oRecvStream = p.m_oRecvStream ∧
      r.pipe.m_oSendStream.WellFormed ∧
      (r.pipe.m_oSendStream.m_max = p.m_oSendStream.m_max ∨
        r.pipe.m_oSendStream.m_max = (p.m_oSendStream.inBytes context nSize).m_max) := by
  unfold Send at hr
  by_cases hstatus : p.m_nStatus = .SS_ESTABLISHED
  · rw [sendIn_accepted hstatus] at hr
    have hwf := TStream.inBytes_wf BUFF_SIZE_pos h context hsize
    have hby := sendSection_sentBy (p := { p with
      m_oSendStream := p.m_oSendStream.inBytes context nSize }) hr
    exact ⟨hby.status, hby.recv, hby.wf hwf, .inr hby.max⟩
  · rw [sendIn_refused hstatus] at hr
    cases hr
    exact ⟨rfl, rfl, h, .inl rfl⟩

/-! ### `DoSend` -/

/-- An iteration of `DoSend` sends from the front of the stream. -/
theorem doSendRound_sentBy {p : CPipe} {result : SendResult} {r : Sent} {e : DoSendEnd}
    (hr : p.doSendRound result = some (r, e)) : SentBy p r := by
  unfold doSendRound at hr
  dsimp only at hr
  split at hr
  · cases result with
    | sent k =>
        dsimp only at hr
        split at hr
        · rename_i hk
          cases hr
          have hby := sentBy_sendOut hk.2
            (r := { pipe := p.sendOut k }) ⟨rfl, rfl, rfl, id, rfl, fun _ => rfl⟩
          rw [List.append_nil] at hby
          exact hby
        · cases hr
    | EAGAIN =>
        cases hr
        exact sentBy_self p p.m_bNeedSend _ _
    | failed =>
        cases hr
        exact sentBy_self p p.m_bNeedSend _ _
  · split at hr
    · cases hr
      exact sentBy_self p p.m_bNeedSend _ _
    · cases hr
      exact sentBy_self p true _ _

/-- How an iteration of `DoSend` ends, and what it posts: nothing. -/
theorem doSendRound_end {p : CPipe} {result : SendResult} {r : Sent} {e : DoSendEnd}
    (hr : p.doSendRound result = some (r, e)) :
    (e = .again ∧ r.failed = false ∧ r.pipe.m_bNeedSend = p.m_bNeedSend) ∨
    (e = .returned .COUNT ∧ r.failed = false ∧ p.m_oSendStream.unread ≠ [] ∧ r.pipe = p) ∨
    (e = .returned .BREAK ∧ r.failed = true ∧ r.pipe = p) ∨
    (e = .returned .BREAK ∧ r.failed = false ∧ p.m_nStatus = .SS_WAITCLOSE ∧
      p.m_oSendStream.unread = [] ∧ r.pipe = p) ∨
    (e = .returned .COUNT ∧ r.failed = false ∧ p.m_nStatus ≠ .SS_WAITCLOSE ∧
      p.m_oSendStream.unread = [] ∧ r.pipe = { p with m_bNeedSend := true }) := by
  unfold doSendRound at hr
  dsimp only at hr
  split at hr
  · rename_i hsize
    cases result with
    | sent k =>
        dsimp only at hr
        split at hr
        · cases hr
          exact .inl ⟨rfl, rfl, rfl⟩
        · cases hr
    | EAGAIN =>
        cases hr
        exact .inr (.inl ⟨rfl, rfl, fun hnil => unread_eq_nil.mp hnil hsize, rfl⟩)
    | failed =>
        cases hr
        exact .inr (.inr (.inl ⟨rfl, rfl, rfl⟩))
  · rename_i hsize
    have hnil := unread_eq_nil.mpr hsize
    split at hr
    · rename_i hstatus
      cases hr
      exact .inr (.inr (.inr (.inl ⟨rfl, rfl, hstatus, hnil, rfl⟩)))
    · rename_i hstatus
      cases hr
      exact .inr (.inr (.inr (.inr ⟨rfl, rfl, hstatus, hnil, rfl⟩)))

end Kernel4GameServer.CPipe
