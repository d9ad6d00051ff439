import Kernel4GameServer.Lib.Measure
import Kernel4GameServer.Proofs.Net.PairEnds

/-!
# `Kernel4GameServer.Proofs.Net.PairDelivery`: what is sent at one end is received at the other

Two ends that only talk, and the network between them. `Inv` says that what came to an end was
sent at the other, and that the room of a socket and what is on its way are its capacity. `work`
adds to what is left to do at the ends the bytes between them.

* `Inv.thread`, `Inv.deliver`: every step keeps the invariant, and one that brings bytes on leaves
  less to do.
* `Inv.received`, `Inv.delivered`: what the invariant says of a state, and of one in which no step
  brings bytes on.
* `pair_delivers`: what is received is at all times a prefix of what was sent, the steps that
  bring bytes on are bounded by the bytes, and where there is none left everything has come.
-/

set_option autoImplicit false

namespace Kernel4GameServer

open Lib

/-- What an action puts in. -/
def PairAction.cost : PairAction → Nat
  | .thread _ a => a.cost
  | .deliver _ _ _ _ => 0

namespace EdgePair

/-- The invariant of the pair. `sent` says that what came to an end was sent at the other, `room`
that the room of a socket and what is on its way are its capacity. -/
structure Inv (sendCap : Side → Nat) (s : EdgePair) : Prop where
  ends : ∀ i, (s.ends i).Inv
  opened : ∀ i, (s.ends i).Open
  sent : ∀ i, (s.ends i.other).arrived <+: (s.ends i).wire
  room : ∀ i, (s.ends i).sock.room + (s.ends i).wire.length
    = sendCap i + (s.ends i.other).arrived.length

/-- What is left to do for the bytes that go out at `i`, and at that end. -/
def load (s : EdgePair) (i : Side) : Nat := (s.ends i).work + 16 * (s.inFlight i).length

/-- What is left to do. -/
def work (s : EdgePair) : Nat := s.load .left + s.load .right

/-- The two ends, from the side of either. -/
theorem work_eq (s : EdgePair) (i : Side) : s.work = s.load i + s.load i.other := by
  cases i with
  | left => rfl
  | right => exact Nat.add_comm _ _

/-- A property of both ends, from the side of either. -/
theorem forall_side {P : Side → Prop} (i : Side) (h : P i) (h' : P i.other) : ∀ j, P j := by
  intro j
  cases i <;> cases j <;> assumption

/-- Two new ends. -/
theorem inv_init (lSocket sendCap : Side → Nat) (recvCap : Nat) :
    (init lSocket sendCap recvCap).Inv sendCap where
  ends i := EdgeState.inv_init _ _
  opened i := ⟨rfl, rfl, rfl, rfl, (fun h => by cases h), rfl⟩
  sent i := List.prefix_rfl
  room i := rfl

/-- Two new ends have a report each to go through. -/
theorem work_init (lSocket sendCap : Side → Nat) (recvCap : Nat) :
    (init lSocket sendCap recvCap).work = 14 := by
  have hload : ∀ i, (init lSocket sendCap recvCap).load i = 7 := by
    intro i
    show 17 * (TStream.init : TStream BUFF_SIZE).unread.length + 0 + 7 * 1 + 0 + 0 + 16 * 0 = 7
    rw [TStream.init_unread]
    rfl
  rw [work, hload, hload]

/-- What is left to do for the bytes that go out at `i`, by the lengths of what was sent and what
came. -/
theorem load_eq (s : EdgePair) (i : Side) :
    s.load i = (s.ends i).work
      + 16 * ((s.ends i).wire.length - (s.ends i.other).arrived.length) := by
  unfold load inFlight
  rw [List.length_drop]

/-- The invariant, from the side of either end. -/
theorem inv_of_sides {sendCap : Side → Nat} {s : EdgePair} (i : Side)
    (hends : (s.ends i).Inv ∧ (s.ends i.other).Inv)
    (hopen : (s.ends i).Open ∧ (s.ends i.other).Open)
    (hsent : (s.ends i.other).arrived <+: (s.ends i).wire ∧
      (s.ends i).arrived <+: (s.ends i.other).wire)
    (hroom : (s.ends i).sock.room + (s.ends i).wire.length
        = sendCap i + (s.ends i.other).arrived.length ∧
      (s.ends i.other).sock.room + (s.ends i.other).wire.length
        = sendCap i.other + (s.ends i).arrived.length) : s.Inv sendCap where
  ends := forall_side i hends.1 hends.2
  opened := forall_side i hopen.1 hopen.2
  sent := forall_side i hsent.1 (by rw [Side.other_other]; exact hsent.2)
  room := forall_side i hroom.1 (by rw [Side.other_other]; exact hroom.2)

/-- A step of a thread at one end. -/
theorem Inv.thread {sendCap : Side → Nat} {s s' : EdgePair} {i : Side} {a : EdgeAction}
    (hi : s.Inv sendCap) (h : s.step (.thread i a) = some s') :
    s'.Inv sendCap ∧ a.moves.toNat + s'.work ≤ s.work + a.cost := by
  simp only [step] at h
  split at h
  · rename_i htalks
    obtain ⟨e, he, hs'⟩ := Option.map_eq_some_iff.mp h
    obtain ⟨w, htalk⟩ := EdgeState.talk_step (hi.ends i) (hi.opened i) htalks he
    have hself : s'.ends i = e := by
      rw [← hs']
      exact Function.update_self _ _ _
    have hother : s'.ends i.other = s.ends i.other := by
      rw [← hs']
      exact Function.update_of_ne (Side.other_ne i) _ _
    have hroom := hi.room i
    have hback := hi.sent i.other
    have hroomBack := hi.room i.other
    rw [Side.other_other] at hback hroomBack
    have hwire : e.wire.length = (s.ends i).wire.length + w.length := by
      rw [htalk.wire, List.length_append]
    have hroom' := htalk.room
    constructor
    · refine inv_of_sides i ⟨?_, ?_⟩ ⟨?_, ?_⟩ ⟨?_, ?_⟩ ⟨?_, ?_⟩ <;>
        simp only [hself, hother, htalk.arrived]
      · exact (hi.ends i).step he
      · exact hi.ends i.other
      · exact htalk.still
      · exact hi.opened i.other
      · rw [htalk.wire]
        exact (hi.sent i).trans (List.prefix_append _ _)
      · exact hback
      · omega
      · exact hroomBack
    · -- The bytes of `w` are on their way now.
      have hwork := htalk.work
      have hle := (hi.sent i).length_le
      rw [work_eq _ i, work_eq s i, load_eq s' i, load_eq s' i.other, load_eq s i,
        load_eq s i.other, Side.other_other, hself, hother, htalk.arrived]
      omega
  · cases h

/-- Room that comes back to a sender. -/
theorem open_free {st e : EdgeState} {k : Nat} {edge : Bool} (ho : st.Open)
    (h : st.step (.free k edge) = some e) :
    e.Open ∧ e.wire = st.wire ∧ e.arrived = st.arrived ∧ e.sock.room = st.sock.room + k ∧
      0 < k ∧ e.work ≤ st.work + 7 := by
  obtain ⟨sock, hsock, rfl⟩ := Option.map_eq_some_iff.mp h
  unfold Socket.free at hsock
  split at hsock
  · rename_i hk
    cases hsock
    refine ⟨⟨ho.registered, ho.status, ho.ended, ho.broken, ho.call, ho.sawError⟩, rfl, rfl, rfl,
      hk.1, ?_⟩
    have hready := Bool.toNat_le (st.sock.ready || edge)
    unfold EdgeState.work
    dsimp only
    omega
  · cases hsock

/-- Bytes that come to the other end. -/
theorem open_arrive {st e : EdgeState} {bs : List UInt8} {edge : Bool} (ho : st.Open)
    (h : st.step (.arrive bs edge) = some e) :
    e.Open ∧ e.wire = st.wire ∧ e.arrived = st.arrived ++ bs ∧ e.sock.room = st.sock.room ∧
      e.work ≤ st.work + bs.length + 7 := by
  obtain ⟨sock, hsock, rfl⟩ := Option.map_eq_some_iff.mp h
  unfold Socket.arrive at hsock
  split at hsock
  · cases hsock
    refine ⟨⟨ho.registered, ho.status, ho.ended, ho.broken, ho.call, ho.sawError⟩, rfl, rfl, rfl,
      ?_⟩
    have hready := Bool.toNat_le (st.sock.ready || edge)
    unfold EdgeState.work
    dsimp only
    rw [List.length_append]
    omega
  · cases hsock

/-- Bytes come to the other end, and may be reported at both. -/
theorem Inv.deliver {sendCap : Side → Nat} {s s' : EdgePair} {i : Side} {k : Nat}
    {freeEdge arriveEdge : Bool} (hi : s.Inv sendCap)
    (h : s.step (.deliver i k freeEdge arriveEdge) = some s') :
    s'.Inv sendCap ∧ 1 + s'.work ≤ s.work := by
  simp only [step] at h
  split at h
  · rename_i hk
    obtain ⟨e, he, h⟩ := Option.bind_eq_some_iff.mp h
    obtain ⟨e', he', hs'⟩ := Option.map_eq_some_iff.mp h
    obtain ⟨ho, hwire, harrived, hroom, hpos, hwork⟩ := open_free (hi.opened i) he
    obtain ⟨ho', hwire', harrived', hroom', hwork'⟩ := open_arrive (hi.opened i.other) he'
    have hself : s'.ends i = e := by
      rw [← hs']
      show Function.update (Function.update s.ends i e) i.other e' i = e
      rw [Function.update_of_ne (Side.other_ne i).symm, Function.update_self]
    have hother : s'.ends i.other = e' := by
      rw [← hs']
      exact Function.update_self _ _ _
    -- What was on its way is what was sent behind what has come.
    obtain ⟨rest, hrest⟩ := hi.sent i
    have hflight : s.inFlight i = rest := by
      unfold inFlight
      rw [← hrest, List.drop_left]
    have hlength : (s.ends i).wire.length = (s.ends i.other).arrived.length + rest.length := by
      rw [← hrest, List.length_append]
    rw [hflight] at hk harrived' hwork'
    have hlen : (rest.take k).length = k := by
      rw [List.length_take, Nat.min_eq_left hk.1]
    have hcame : e'.arrived.length = (s.ends i.other).arrived.length + k := by
      rw [harrived', List.length_append, hlen]
    have hback := hi.sent i.other
    have hroomBack := hi.room i.other
    have hroomHere := hi.room i
    rw [Side.other_other] at hback hroomBack
    constructor
    · refine inv_of_sides i ⟨?_, ?_⟩ ⟨?_, ?_⟩ ⟨?_, ?_⟩ ⟨?_, ?_⟩ <;>
        simp only [hself, hother, hwire, hwire', harrived]
      · exact (hi.ends i).step he
      · exact (hi.ends i.other).step he'
      · exact ho
      · exact ho'
      · rw [harrived', ← hrest]
        exact (List.prefix_append_right_inj _).mpr (List.take_prefix k rest)
      · exact hback
      · omega
      · omega
    · rw [work_eq _ i, work_eq s i, load_eq s' i, load_eq s' i.other, load_eq s i,
        load_eq s i.other, Side.other_other, hself, hother, hwire, hwire', harrived]
      -- A byte on its way pays for a report at each end.
      omega
  · cases h

/-- What a step does to the invariant and to what is left to do. -/
theorem Inv.step {sendCap : Side → Nat} {s s' : EdgePair} {a : PairAction}
    (hi : s.Inv sendCap) (h : s.step a = some s') :
    s'.Inv sendCap ∧ a.moves.toNat + s'.work ≤ s.work + a.cost := by
  cases a with
  | thread i a => exact hi.thread h
  | deliver i k freeEdge arriveEdge =>
      obtain ⟨hi', hwork⟩ := hi.deliver h
      exact ⟨hi', hwork⟩

/-- No step changes how much the sockets hold. -/
theorem step_recvCap {s s' : EdgePair} {a : PairAction} (h : s.step a = some s') :
    s'.recvCap = s.recvCap := by
  cases a with
  | thread j a =>
      simp only [EdgePair.step] at h
      split at h
      · obtain ⟨e, -, rfl⟩ := Option.map_eq_some_iff.mp h
        rfl
      · cases h
  | deliver j k fe ae =>
      simp only [EdgePair.step] at h
      split at h
      · obtain ⟨e, -, h⟩ := Option.bind_eq_some_iff.mp h
        obtain ⟨e', -, rfl⟩ := Option.map_eq_some_iff.mp h
        rfl
      · cases h

/-- What has been received at an end was sent at the other. -/
theorem Inv.received {sendCap : Side → Nat} {s : EdgePair} (hi : s.Inv sendCap) (i : Side) :
    (s.ends i.other).taken <+: (s.ends i).posted := by
  have htaken : (s.ends i.other).taken <+: (s.ends i.other).arrived := by
    rw [(hi.ends i.other).received]
    exact List.prefix_append _ _
  have hposted : (s.ends i).wire <+: (s.ends i).posted := by
    rw [(hi.ends i).sent]
    exact List.prefix_append _ _
  exact htaken.trans ((hi.sent i).trans hposted)

/-- Where no step of the pair brings bytes on, none at an end does. -/
theorem stuck_end {s : EdgePair} (hstuck : ∀ a : PairAction, a.moves = true → s.step a = none)
    (j : Side) {a : EdgeAction} (ha : a.moves = true) : (s.ends j).step a = none := by
  have hno := hstuck (.thread j a) ha
  simp only [EdgePair.step, if_pos (EdgeState.talks_of_moves ha)] at hno
  cases he : (s.ends j).step a with
  | none => rfl
  | some e =>
      rw [he] at hno
      cases hno

/-- Where neither end can do anything, and neither can the network, everything has come. -/
theorem Inv.delivered {sendCap : Side → Nat} {s : EdgePair} (hi : s.Inv sendCap)
    (hsend : ∀ i, 0 < sendCap i) (hrecv : 0 < s.recvCap)
    (hstuck : ∀ a : PairAction, a.moves = true → s.step a = none) (i : Side) :
    (s.ends i.other).taken = (s.ends i).posted := by
  have hend : ∀ j, (s.ends j).taken = (s.ends j).arrived ∧ (s.ends j).sock.recvBuf = [] ∧
      ((s.ends j).sock.room ≠ 0 → (s.ends j).wire = (s.ends j).posted) := fun j =>
    EdgeState.stuck_end (hi.ends j) (hi.opened j) fun a ha => stuck_end hstuck j ha
  have hflight : s.inFlight i = [] := by
    by_contra hne
    have hpos := List.length_pos_of_ne_nil hne
    have hno := hstuck (.deliver i 1 true true) rfl
    have hbuf := (hend i.other).2.1
    have htake : (s.inFlight i).take 1 ≠ [] := fun hnil => by
      have := congrArg List.length hnil
      rw [List.length_take, List.length_nil] at this
      omega
    have hone : 1 ≤ (s.inFlight i).length := hpos
    have hcap : (0 : Nat) + 1 ≤ s.recvCap := hrecv
    simp [EdgePair.step, hone, hbuf, hcap, EdgeState.step, Socket.free, Socket.arrive, htake,
      (hi.opened i.other).ended, (hi.opened i.other).broken] at hno
  have hwire : (s.ends i).wire = (s.ends i.other).arrived := by
    obtain ⟨rest, hrest⟩ := hi.sent i
    have hnil : rest = [] := by
      unfold inFlight at hflight
      rwa [← hrest, List.drop_left] at hflight
    rw [← hrest, hnil, List.append_nil]
  have hroom : (s.ends i).sock.room ≠ 0 := by
    have := hi.room i
    rw [hwire] at this
    have := hsend i
    omega
  rw [(hend i.other).1, ← hwire, (hend i).2.2 hroom]

/-- Two ends that only talk, in every run of the two workers, the two main threads and the
network, with sockets of any capacities.

* What `m_oRecvStream` has got at one end is at all times a prefix of what `Send` has accepted at
  the other.
* The steps on the way of bytes are at most 14, and 17 for each byte and one for each call of
  `Send`: without a new `Send` they come to an end.
* Where none of them can be taken, everything has been received at both ends. -/
theorem pair_delivers (lSocket sendCap : Side → Nat) (recvCap : Nat)
    (hsend : ∀ i, 0 < sendCap i) (hrecv : 0 < recvCap) (as : List PairAction) (s : EdgePair)
    (h : run EdgePair.step (init lSocket sendCap recvCap) as = some s) :
    (∀ i, (s.ends i.other).taken <+: (s.ends i).posted) ∧
    as.countP (·.moves) ≤ 14 + (as.map (·.cost)).sum ∧
    ((∀ a : PairAction, a.moves = true → s.step a = none) →
      ∀ i, (s.ends i.other).taken = (s.ends i).posted) := by
  have hcount := run_count_le (I := Inv sendCap) (·.moves) EdgePair.work (·.cost)
    (fun _ _ _ hi hs => (hi.step hs).1) (fun _ _ _ hi hs => (hi.step hs).2)
    (inv_init lSocket sendCap recvCap) h
  have hi : s.Inv sendCap := run_invariant (fun _ _ _ hi hs => (hi.step hs).1)
    (inv_init lSocket sendCap recvCap) h
  have hsame : s.recvCap = recvCap :=
    run_invariant (I := fun t => t.recvCap = recvCap)
      (fun _ _ _ ht hs => (step_recvCap hs).trans ht) rfl h
  rw [work_init] at hcount
  refine ⟨hi.received, by omega, fun hstuck i => ?_⟩
  exact hi.delivered hsend (hsame ▸ hrecv) hstuck i

/-- Where both ends are quiet and nothing is on its way, nothing can be done. -/
theorem stuck_of_quiet {s : EdgePair} (hquiet : ∀ i, (s.ends i).Quiet)
    (hnone : ∀ i, s.inFlight i = []) {a : PairAction} (ha : a.moves = true) : s.step a = none := by
  cases a with
  | thread i a => simp [step, EdgeState.stuck_of_quiet (hquiet i) ha]
  | deliver i k freeEdge arriveEdge =>
      simp only [step]
      split
      · rename_i hle
        have hk : k = 0 := by
          have := hle.1
          rw [hnone i] at this
          exact Nat.le_zero.mp this
        rw [hk]
        rfl
      · rfl

/-- A round of `Run` at an end: a report, and what `recv` and `send` answer. -/
def workerRound (i : Side) (mask : EpollFlags) (recvs : List RecvResult)
    (sends : List SendResult) : List PairAction :=
  let round : List EdgeAction := [.event mask, .testRecv] ++ recvs.map EdgeAction.recv ++
    [.testSend] ++ sends.map EdgeAction.send ++ [.testClose, .add]
  round.map (.thread i)

/-- Three bytes through a socket that takes two. -/
def threeBytes : List PairAction :=
  workerRound .left { EPOLLOUT := true } [] [.EAGAIN] ++
  workerRound .right { EPOLLOUT := true } [] [.EAGAIN] ++
  [.thread .left (.Send [1, 2, 3]),
    .thread .left (.sendLocked [⟨none, .sent 2⟩, ⟨none, .EAGAIN⟩]), .deliver .left 2 true true] ++
  workerRound .right { EPOLLIN := true, EPOLLOUT := true } [.data [1, 2], .EAGAIN] [.EAGAIN] ++
  workerRound .left { EPOLLOUT := true } [] [.sent 1, .EAGAIN] ++
  [.deliver .left 1 false true] ++
  workerRound .right { EPOLLIN := true, EPOLLOUT := true } [.data [3], .EAGAIN] [.EAGAIN]

/-- Behind that run both ends are quiet and nothing is on its way. -/
theorem threeBytes_stuck : ∃ s, run EdgePair.step (init (fun _ => 7) (fun _ => 2) 4) threeBytes
    = some s ∧ (s.ends .left).posted = [1, 2, 3] ∧
      ∀ a : PairAction, a.moves = true → s.step a = none := by
  obtain ⟨s, hs, hposted, hw, hr, hc, hw', hr', hc', hl, hl'⟩ :
      ∃ s, run EdgePair.step (init (fun _ => 7) (fun _ => 2) 4) threeBytes = some s ∧
        (s.ends .left).posted = [1, 2, 3] ∧
        (s.ends .left).conn.worker = .wait ∧ (s.ends .left).sock.ready = false ∧
        (s.ends .left).conn.call = .idle ∧
        (s.ends .right).conn.worker = .wait ∧ (s.ends .right).sock.ready = false ∧
        (s.ends .right).conn.call = .idle ∧
        s.inFlight .left = [] ∧ s.inFlight .right = [] :=
    ⟨_, rfl, rfl, rfl, rfl, rfl, rfl, rfl, rfl, rfl, rfl⟩
  refine ⟨s, hs, hposted, fun a ha => stuck_of_quiet (fun i => ?_) (fun i => ?_) ha⟩
  · cases i with
    | left => exact ⟨hw, hr, hc⟩
    | right => exact ⟨hw', hr', hc'⟩
  · cases i with
    | left => exact hl
    | right => exact hl'

/-- They have come. -/
theorem pair_delivers_three :
    ∃ s, run EdgePair.step (init (fun _ => 7) (fun _ => 2) 4) threeBytes = some s ∧
      (s.ends .right).taken = [1, 2, 3] := by
  obtain ⟨s, hs, hposted, hstuck⟩ := threeBytes_stuck
  refine ⟨s, hs, ?_⟩
  rw [← hposted]
  exact (pair_delivers (fun _ => 7) (fun _ => 2) 4 (fun _ => by decide) (by decide) threeBytes s
    hs).2.2 hstuck .left

end EdgePair

end Kernel4GameServer
