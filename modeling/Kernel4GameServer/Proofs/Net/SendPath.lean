import Kernel4GameServer.Net.Epoll.SendPath
import Kernel4GameServer.Proofs.Net.CPipe

/-!
# `Kernel4GameServer.Proofs.Net.SendPath`: nothing is lost between `Send`, `Close` and `DoSend`

`m_bNeedSend` says who sends. While it is set the main thread sends under the lock of
`Send`. `EAGAIN` clears it, and from then on `DoSend` sends, which sets it again when the
stream is empty. The invariant `Inv` says that no bytes wait with the flag set (`awaited`),
and that where it is cleared something is left to do for an EPOLLOUT, is being done, or has
been done by the `DoSend` that returned BREAK (`wake`).

* `Inv.send`, `Inv.sendLocked`, `Inv.close`, `Inv.closeLocked`, `Inv.doSend`,
  `Inv.iterate`: every step keeps the invariant.
* `run_arguments`: the bytes accepted by `Send` are those of the calls in front of the
  first `Close`.
* `send_path`: the four statements about every run.
-/

set_option autoImplicit false

namespace Kernel4GameServer

open Lib

namespace SendState

/-- The bytes that `Send` has accepted: those on the wire and those still pending. -/
def accepted (st : SendState) : List UInt8 := st.wire ++ st.pipe.m_oSendStream.unread

/-- The invariant of the send path. -/
structure Inv (st : SendState) : Prop where
  wf : st.pipe.m_oSendStream.WellFormed
  sending : st.main = .sending → st.pipe.m_nStatus = .SS_ESTABLISHED
  closing : st.main = .closing → st.pipe.m_nStatus = .SS_WAITCLOSE
  closed : st.closed = true → st.pipe.m_nStatus = .SS_WAITCLOSE
  flushed : st.flushed = true → st.pipe.m_nStatus = .SS_WAITCLOSE ∧
    st.pipe.m_oSendStream.unread = []
  awaited : st.failed = false → st.main ≠ .sending → st.pipe.m_oSendStream.unread ≠ [] →
    st.pipe.m_bNeedSend = false
  wake : st.failed = false → st.pipe.m_bNeedSend = false →
    st.pipe.m_oSendStream.unread ≠ [] ∨ st.worker = .inDoSend ∨ st.flushed = true
  posted : st.failed = false → st.closed = true → st.pipe.m_bNeedSend = true →
    .outOnce ∈ st.posted

/-- A new pipe satisfies the invariant. -/
theorem inv_init (lSocket : Int) : (init lSocket).Inv where
  wf := TStream.init_wf
  sending h := by cases h
  closing h := by cases h
  closed h := by cases h
  flushed h := by cases h
  awaited _ _ h := absurd TStream.init_unread h
  wake _ h := by cases h
  posted _ h := by cases h

/-! ### The steps of the main thread -/

/-- The unlocked part of `Send` keeps the invariant. On an established pipe it puts the
main thread in front of the locked section, where pending bytes may wait with the flag
set. -/
theorem Inv.send {st st' : SendState} {src : List UInt8} (hi : st.Inv)
    (h : st.step (.send src) = some st') : st'.Inv := by
  simp only [step] at h
  split at h
  · rename_i hmain
    cases h
    by_cases hstatus : st.pipe.m_nStatus = .SS_ESTABLISHED
    · rw [CPipe.sendIn_accepted hstatus]
      have hnonneg : (0 : Int) ≤ src.length := Int.natCast_nonneg _
      have hunread := TStream.inBytes_unread BUFF_SIZE_pos hi.wf (Mem.ofList src 0) hnonneg
      exact
        { wf := TStream.inBytes_wf BUFF_SIZE_pos hi.wf _ hnonneg
          sending := fun _ => hstatus
          closing := fun hc => by cases hc
          closed := hi.closed
          flushed := fun hf => by
            have := (hi.flushed hf).1
            rw [hstatus] at this
            cases this
          awaited := fun _ hne => absurd rfl hne
          wake := fun hfail hneed => by
            -- With the flag cleared someone already waits to send, and more bytes do not change
            -- that.
            rcases hi.wake hfail hneed with hne | hw | hf
            · refine .inl ?_
              show (st.pipe.m_oSendStream.inBytes _ _).unread ≠ []
              rw [hunread]
              exact fun hnil => hne (List.append_eq_nil_iff.mp hnil).1
            · exact .inr (.inl hw)
            · exact .inr (.inr hf)
          posted := hi.posted }
    · -- `Send` is refused, and nothing changes.
      rw [CPipe.sendIn_refused hstatus]
      exact
        { hi with
          sending := fun hs => by cases hs
          closing := fun hc => by cases hc
          awaited := fun hfail _ => hi.awaited hfail (by rw [hmain]; decide) }
  · cases h

/-- The locked section of `Send` keeps the invariant: it ends with the stream empty or the
flag cleared. -/
theorem Inv.sendLocked {st st' : SendState} {results : List SendResult} (hi : st.Inv)
    (h : st.step (.sendLocked results) = some st') : st'.Inv := by
  simp only [step] at h
  split at h
  · rename_i hmain
    obtain ⟨r, hr, rfl⟩ := Option.map_eq_some_iff.mp h
    have hstatus := hi.sending hmain
    have hby := CPipe.sendSection_sentBy hr
    -- A pipe in `Send` is established: it is neither closed nor flushed.
    have hopen : r.pipe.m_nStatus = .SS_ESTABLISHED := hby.status.trans hstatus
    have hnotclosed : st.closed ≠ true := fun hc => by
      rw [hi.closed hc] at hstatus
      cases hstatus
    have hnotflushed : st.flushed ≠ true := fun hf => by
      rw [(hi.flushed hf).1] at hstatus
      cases hstatus
    have hflag := CPipe.sendSection_flag hr
    exact
      { wf := hby.wf hi.wf
        sending := fun hs => by cases hs
        closing := fun hc => by cases hc
        closed := fun hc => absurd hc hnotclosed
        flushed := fun hf => absurd hf hnotflushed
        awaited := fun hfail _ hne => by
          rcases hflag with hfailed | ⟨hnil, -⟩ | ⟨-, hneed⟩ | ⟨hsame, hneed⟩
          · exact absurd (Bool.or_eq_false_iff.mp hfail).2 (by rw [hfailed]; decide)
          · exact absurd hnil hne
          · exact hneed
          · show r.pipe.m_bNeedSend = false
            rw [hsame]
            exact hneed
        wake := fun hfail hneed => by
          rcases hflag with hfailed | ⟨-, hset⟩ | ⟨hne, -⟩ | ⟨hsame, hneed'⟩
          · exact absurd (Bool.or_eq_false_iff.mp hfail).2 (by rw [hfailed]; decide)
          · exact absurd (hset.symm.trans hneed) (by decide)
          · exact .inl hne
          · show r.pipe.m_oSendStream.unread ≠ [] ∨ _
            rw [hsame]
            exact hi.wake (Bool.or_eq_false_iff.mp hfail).1 hneed'
        posted := fun _ hc => absurd hc hnotclosed }
  · cases h

/-- `Close` sets the status. -/
theorem Inv.close {st st' : SendState} (hi : st.Inv) (h : st.step .close = some st') :
    st'.Inv := by
  simp only [step] at h
  split at h
  · rename_i hmain
    cases h
    exact
      { wf := hi.wf
        sending := fun hs => by cases hs
        closing := fun _ => rfl
        closed := fun _ => rfl
        flushed := fun hf => ⟨rfl, (hi.flushed hf).2⟩
        awaited := fun hfail _ => hi.awaited hfail (by rw [hmain]; decide)
        wake := hi.wake
        posted := hi.posted }
  · cases h

/-- The locked section of `Close` posts the one-shot EPOLLOUT where the flag is set. -/
theorem Inv.closeLocked {st st' : SendState} (hi : st.Inv)
    (h : st.step .closeLocked = some st') : st'.Inv := by
  simp only [step] at h
  split at h
  · rename_i hmain
    cases h
    have hstatus := hi.closing hmain
    have hfailed : ∀ {b : Bool}, (b || false) = false → b = false := by
      intro b hb
      exact (Bool.or_eq_false_iff.mp hb).1
    exact
      { wf := hi.wf
        sending := fun hs => by cases hs
        closing := fun hc => by cases hc
        closed := fun _ => hstatus
        flushed := hi.flushed
        awaited := fun hfail _ => hi.awaited (hfailed hfail) (by rw [hmain]; decide)
        wake := fun hfail => hi.wake (hfailed hfail)
        posted := fun _ _ hneed => by
          show EpollFlags.outOnce ∈ st.posted ++ st.pipe.closeSection.posted
          have hset : st.pipe.m_bNeedSend = true := hneed
          rw [CPipe.closeSection, if_pos hset]
          exact List.mem_append_right _ List.mem_cons_self }
  · cases h

/-! ### The steps of the worker -/

/-- The worker enters `DoSend`. -/
theorem Inv.doSend {st st' : SendState} (hi : st.Inv) (h : st.step .doSend = some st') :
    st'.Inv := by
  simp only [step] at h
  split at h
  · cases h
    exact { hi with wake := fun _ _ => .inr (.inl rfl) }
  · cases h

/-- An iteration of `DoSend` keeps the invariant. It sets the flag only on an empty stream
of a pipe that is not waiting to be closed. -/
theorem Inv.iterate {st st' : SendState} {result : SendResult} (hi : st.Inv)
    (h : st.step (.iterate result) = some st') : st'.Inv := by
  simp only [step] at h
  split at h
  · cases h
  · rename_i hworker
    obtain ⟨⟨r, e⟩, hr, rfl⟩ := Option.map_eq_some_iff.mp h
    have hby := CPipe.doSendRound_sentBy hr
    have hnil : st.pipe.m_oSendStream.unread = [] → r.pipe.m_oSendStream.unread = [] := by
      intro hnil
      have hbytes := hby.bytes hi.wf
      rw [hnil] at hbytes
      exact (List.append_eq_nil_iff.mp hbytes).2
    -- What holds however the iteration ends.
    have hstatus : ∀ {s : SocketStatus}, st.pipe.m_nStatus = s → r.pipe.m_nStatus = s := by
      intro s hs
      exact hby.status.trans hs
    have hopen : st.flushed = true →
        r.pipe.m_nStatus = .SS_WAITCLOSE ∧ r.pipe.m_oSendStream.unread = [] := fun hf =>
      ⟨hstatus (hi.flushed hf).1, hnil (hi.flushed hf).2⟩
    have hfailed : (st.failed || r.failed) = false → st.failed = false := fun hfail =>
      (Bool.or_eq_false_iff.mp hfail).1
    rcases CPipe.doSendRound_end hr with ⟨rfl, -, hneed⟩ | ⟨rfl, -, hne, hsame⟩ |
      ⟨rfl, hfail, -⟩ | ⟨rfl, hok, hwait, hempty, hsame⟩ | ⟨rfl, -, hwait, hempty, hsame⟩
    · -- Some bytes went out, and the worker stays in the loop.
      exact
        { wf := hby.wf hi.wf
          sending := fun hs => hstatus (hi.sending hs)
          closing := fun hc => hstatus (hi.closing hc)
          closed := fun hc => hstatus (hi.closed hc)
          flushed := hopen
          awaited := fun hfail hmain hne => hneed.trans
            (hi.awaited (hfailed hfail) hmain fun hn => hne (hnil hn))
          wake := fun _ _ => .inr (.inl hworker)
          posted := fun hfail hc hset => List.mem_append_left _
            (hi.posted (hfailed hfail) hc (hneed.symm.trans hset)) }
    · -- EAGAIN: bytes are left, and the pipe is as it was.
      obtain ⟨pipe, wire, posted, failed⟩ := r
      cases (show pipe = st.pipe from hsame)
      exact
        { wf := hby.wf hi.wf
          sending := hi.sending
          closing := hi.closing
          closed := hi.closed
          flushed := fun hf => by
            rcases Bool.or_eq_true_iff.mp hf with hf | hf
            · exact hi.flushed hf
            · cases hf
          awaited := fun hfail => hi.awaited (hfailed hfail)
          wake := fun _ _ => .inl hne
          posted := fun hfail hc hset =>
            List.mem_append_left _ (hi.posted (hfailed hfail) hc hset) }
    · -- A failure takes all promises back but the offsets and the status.
      have hnot : (st.failed || r.failed) ≠ false := by
        rw [hfail, Bool.or_true]
        decide
      exact
        { wf := hby.wf hi.wf
          sending := fun hs => hstatus (hi.sending hs)
          closing := fun hc => hstatus (hi.closing hc)
          closed := fun hc => hstatus (hi.closed hc)
          flushed := fun hf => by
            rcases Bool.or_eq_true_iff.mp hf with hf | hf
            · exact hopen hf
            · rw [hfail] at hf
              cases hf
          awaited := fun hf => absurd hf hnot
          wake := fun hf => absurd hf hnot
          posted := fun hf => absurd hf hnot }
    · -- The stream of a pipe that waits to be closed is flushed.
      obtain ⟨pipe, wire, posted, failed⟩ := r
      cases (show pipe = st.pipe from hsame)
      exact
        { wf := hby.wf hi.wf
          sending := hi.sending
          closing := hi.closing
          closed := hi.closed
          flushed := fun _ => ⟨hwait, hempty⟩
          awaited := fun hfail => hi.awaited (hfailed hfail)
          wake := fun _ _ => by
            cases (show failed = false from hok)
            exact .inr (.inr (Bool.or_true _))
          posted := fun hfail hc hset =>
            List.mem_append_left _ (hi.posted (hfailed hfail) hc hset) }
    · -- Nothing is left, and the main thread is the one that sends again.
      exact
        { wf := hby.wf hi.wf
          sending := fun hs => hstatus (hi.sending hs)
          closing := fun hc => hstatus (hi.closing hc)
          closed := fun hc => hstatus (hi.closed hc)
          flushed := fun hf => by
            rcases Bool.or_eq_true_iff.mp hf with hf | hf
            · exact hopen hf
            · cases hf
          awaited := fun _ _ hne => absurd (hnil hempty) hne
          wake := fun _ hneed => by
            have hset : r.pipe.m_bNeedSend = true := by rw [hsame]
            exact absurd (hset.symm.trans hneed) (by decide)
          posted := fun _ hc => absurd (hi.closed hc) hwait }

/-! ### Runs -/

/-- Every step keeps the invariant. -/
theorem Inv.step {st st' : SendState} {a : SendAction} (hi : st.Inv)
    (h : st.step a = some st') : st'.Inv := by
  cases a with
  | send src => exact hi.send h
  | sendLocked results => exact hi.sendLocked h
  | close => exact hi.close h
  | closeLocked => exact hi.closeLocked h
  | doSend => exact hi.doSend h
  | iterate result => exact hi.iterate h

/-- What a step adds to the accepted bytes: the argument of a `Send` on an established
pipe. -/
theorem step_accepted {st st' : SendState} {a : SendAction} (hi : st.Inv)
    (h : st.step a = some st') :
    st'.accepted = st.accepted ++ (match a with
      | .send src => if st.pipe.m_nStatus = .SS_ESTABLISHED then src else []
      | _ => []) := by
  -- A locked section moves bytes from the stream to the wire.
  have hmove : ∀ {r : Sent}, st.pipe.SentBy r →
      (st.wire ++ r.wire) ++ r.pipe.m_oSendStream.unread = st.accepted ++ [] := by
    intro r hby
    rw [List.append_assoc, hby.bytes hi.wf, List.append_nil]
    rfl
  cases a with
  | send src =>
      simp only [step] at h
      split at h
      · cases h
        by_cases hstatus : st.pipe.m_nStatus = .SS_ESTABLISHED
        · have hunread := TStream.inBytes_unread BUFF_SIZE_pos hi.wf (Mem.ofList src 0)
            (Int.natCast_nonneg src.length)
          rw [Int.toNat_natCast, Mem.slice_ofList] at hunread
          simp only [accepted, CPipe.sendIn_accepted hstatus, if_pos hstatus]
          rw [hunread, List.append_assoc]
        · simp only [accepted, CPipe.sendIn_refused hstatus, if_neg hstatus, List.append_nil]
      · cases h
  | sendLocked results =>
      simp only [step] at h
      split at h
      · obtain ⟨r, hr, rfl⟩ := Option.map_eq_some_iff.mp h
        exact hmove (CPipe.sendSection_sentBy hr)
      · cases h
  | close =>
      simp only [step] at h
      split at h
      · cases h
        exact (List.append_nil _).symm
      · cases h
  | closeLocked =>
      simp only [step] at h
      split at h
      · cases h
        exact hmove (CPipe.sentBy_self st.pipe st.pipe.m_bNeedSend _ false)
      · cases h
  | doSend =>
      simp only [step] at h
      split at h
      · cases h
        exact (List.append_nil _).symm
      · cases h
  | iterate result =>
      simp only [step] at h
      split at h
      · cases h
      · obtain ⟨⟨r, e⟩, hr, rfl⟩ := Option.map_eq_some_iff.mp h
        have hby := CPipe.doSendRound_sentBy hr
        cases e with
        | again => exact hmove hby
        | returned type => exact hmove hby

/-- What a step does to the status: only `Close` changes it. -/
theorem step_status {st st' : SendState} {a : SendAction} (h : st.step a = some st') :
    st'.pipe.m_nStatus = if a = .close then .SS_WAITCLOSE else st.pipe.m_nStatus := by
  cases a with
  | send src =>
      simp only [step] at h
      split at h
      · cases h
        by_cases hstatus : st.pipe.m_nStatus = .SS_ESTABLISHED
        · rw [CPipe.sendIn_accepted hstatus]
          rfl
        · rw [CPipe.sendIn_refused hstatus]
          rfl
      · cases h
  | sendLocked results =>
      simp only [step] at h
      split at h
      · obtain ⟨r, hr, rfl⟩ := Option.map_eq_some_iff.mp h
        exact (CPipe.sendSection_sentBy hr).status
      · cases h
  | close =>
      simp only [step] at h
      split at h
      · cases h
        rfl
      · cases h
  | closeLocked =>
      simp only [step] at h
      split at h
      · cases h
        rfl
      · cases h
  | doSend =>
      simp only [step] at h
      split at h
      · cases h
        rfl
      · cases h
  | iterate result =>
      simp only [step] at h
      split at h
      · cases h
      · obtain ⟨⟨r, e⟩, hr, rfl⟩ := Option.map_eq_some_iff.mp h
        have hby := CPipe.doSendRound_sentBy hr
        cases e with
        | again => exact hby.status
        | returned type => exact hby.status

/-- An action behind a run adds to the arguments when it is a `Send` and no `Close` is in
front of it. -/
theorem arguments_snoc (as : List SendAction) (a : SendAction) :
    arguments (as ++ [a]) = arguments as ++ (match a with
      | .send src => if .close ∈ as then [] else src
      | _ => []) := by
  induction as with
  | nil => cases a <;> simp [arguments]
  | cons b as ih =>
      cases b with
      | send src =>
          simp only [List.cons_append, arguments, ih, List.append_assoc, List.mem_cons,
            reduceCtorEq, false_or]
      | close =>
          simp only [List.cons_append, arguments, List.mem_cons, true_or, if_true]
          cases a <;> rfl
      | sendLocked results => simpa [arguments] using ih
      | closeLocked => simpa [arguments] using ih
      | doSend => simpa [arguments] using ih
      | iterate result => simpa [arguments] using ih

/-- Every reachable state satisfies the invariant. The bytes that `Send` has accepted are
the arguments of the calls in front of the first `Close`. -/
theorem run_inv {lSocket : Int} {as : List SendAction} {st : SendState}
    (h : run step (init lSocket) as = some st) :
    st.Inv ∧ st.accepted = arguments as ∧
      (st.pipe.m_nStatus = .SS_ESTABLISHED ↔ .close ∉ as) := by
  refine run_induction (fun as st => st.Inv ∧ st.accepted = arguments as ∧
    (st.pipe.m_nStatus = .SS_ESTABLISHED ↔ .close ∉ as))
    ⟨inv_init lSocket, rfl, by simp [init, CPipe.established]⟩ ?_ h
  intro as s a s' _ ⟨hi, hacc, hstatus⟩ hs
  refine ⟨hi.step hs, ?_, ?_⟩
  · rw [step_accepted hi hs, arguments_snoc, hacc]
    congr 1
    cases a with
    | send src =>
        by_cases hopen : s.pipe.m_nStatus = .SS_ESTABLISHED
        · simp only [if_pos hopen, if_neg (hstatus.mp hopen)]
        · have hclose : SendAction.close ∈ as := Decidable.not_not.mp fun hno =>
            hopen (hstatus.mpr hno)
          simp only [if_neg hopen, if_pos hclose]
    | sendLocked results => rfl
    | close => rfl
    | closeLocked => rfl
    | doSend => rfl
    | iterate result => rfl
  · rw [step_status hs, List.mem_append, List.mem_singleton]
    by_cases hclose : a = .close
    · simp [hclose]
    · rw [if_neg hclose, hstatus]
      constructor
      · intro hno hor
        rcases hor with hmem | heq
        · exact hno hmem
        · exact hclose heq.symm
      · intro hno hmem
        exact hno (.inl hmem)

/-- The send path of a pipe, for every interleaving of `Send` and `Close` with `DoSend`.

* The bytes that `send` accepted and those still pending are the arguments of the `Send`
  calls in front of the first `Close`, in call order.
* Without a failed `send`, pending bytes wait with the flag cleared, unless a `Send` is in
  front of its locked section.
* Where `DoSend` returns BREAK on a pipe in `SS_WAITCLOSE` without a failure, all these
  bytes are on the wire.
* Without a failed `send`, a `Close` that has finished has posted the one-shot EPOLLOUT, or
  the flag is cleared and bytes are left for an EPOLLOUT, or `DoSend` is running, or it has
  returned that BREAK.

The offsets of `m_oSendStream` are those of `s32` while there is room for the bytes of every `Send`
(`TStream.HasRoom`). -/
theorem send_path (lSocket : Int) (as : List SendAction) (st : SendState)
    (h : run step (init lSocket) as = some st) :
    st.wire ++ st.pipe.m_oSendStream.unread = arguments as ∧
    (st.failed = false → st.main ≠ .sending → st.pipe.m_oSendStream.unread ≠ [] →
      st.pipe.m_bNeedSend = false) ∧
    ((∀ result r, st.worker = .inDoSend →
        st.pipe.doSendRound result = some (r, .returned .BREAK) →
        st.pipe.m_nStatus = .SS_WAITCLOSE → r.failed = false →
        st.wire ++ r.wire = arguments as) ∧
      (st.flushed = true → st.wire = arguments as)) ∧
    (st.closed = true → st.failed = false →
      .outOnce ∈ st.posted ∨
      (st.pipe.m_oSendStream.unread ≠ [] ∧ st.pipe.m_bNeedSend = false) ∨
      (st.worker = .inDoSend ∧ st.pipe.m_bNeedSend = false) ∨
      st.flushed = true) := by
  obtain ⟨hi, hacc, -⟩ := run_inv h
  -- An empty stream means that all the bytes went out.
  have hwire : st.pipe.m_oSendStream.unread = [] → st.wire = arguments as := by
    intro hnil
    rw [← hacc, accepted, hnil, List.append_nil]
  refine ⟨hacc, hi.awaited, ⟨fun result r _ hr _ hok => ?_, fun hf => hwire (hi.flushed hf).2⟩,
    fun hclosed hfail => ?_⟩
  · -- A BREAK without a failure finds the stream empty and sends nothing.
    have hby := CPipe.doSendRound_sentBy hr
    rcases CPipe.doSendRound_end hr with ⟨he, -⟩ | ⟨he, -⟩ | ⟨-, hfail, -⟩ |
      ⟨-, -, -, hempty, -⟩ | ⟨he, -⟩
    · cases he
    · cases he
    · rw [hok] at hfail
      cases hfail
    · have hbytes := hby.bytes hi.wf
      rw [hempty] at hbytes
      rw [(List.append_eq_nil_iff.mp hbytes).1, List.append_nil]
      exact hwire hempty
    · cases he
  · -- Closed and no failure: with the flag set the one-shot EPOLLOUT was posted.
    by_cases hneed : st.pipe.m_bNeedSend = true
    · exact .inl (hi.posted hfail hclosed hneed)
    · rw [Bool.not_eq_true] at hneed
      rcases hi.wake hfail hneed with hne | hw | hf
      · exact .inr (.inl ⟨hne, hneed⟩)
      · exact .inr (.inr (.inl ⟨hw, hneed⟩))
      · exact .inr (.inr (.inr hf))

/-- Two `Send`s, the first cut off by EAGAIN, a `Close` while `DoSend` is between two
iterations, and the BREAK. -/
def flushRun : List SendAction :=
  [.send [1, 2, 3], .sendLocked [.sent 1, .EAGAIN], .send [4], .sendLocked [], .doSend,
    .iterate (.sent 3), .close, .closeLocked, .iterate .EAGAIN]

/-- All four bytes are on the wire behind that run. -/
theorem send_path_flush :
    ∃ st, run step (init 7) flushRun = some st ∧ st.flushed = true ∧ st.closed = true ∧
      st.posted = [] ∧ st.wire = [1, 2, 3, 4] := by
  obtain ⟨st, hst, hflushed, hclosed, hposted⟩ : ∃ st, run step (init 7) flushRun = some st ∧
      st.flushed = true ∧ st.closed = true ∧ st.posted = [] := ⟨_, rfl, rfl, rfl, rfl⟩
  exact ⟨st, hst, hflushed, hclosed, hposted, (send_path 7 flushRun st hst).2.2.1.2 hflushed⟩

end SendState

end Kernel4GameServer
