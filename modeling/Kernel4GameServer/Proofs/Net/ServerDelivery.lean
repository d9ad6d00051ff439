import Kernel4GameServer.Lib.Measure
import Kernel4GameServer.Proofs.Net.ServerReplies

/-!
# `Kernel4GameServer.Proofs.Net.ServerDelivery`: a client gets all the answers of the session

What the invariant of a served connection says of the client.

* `Inv.stuck`: where no step can be taken that brings an answer on, the session has seen all that
  the client has sent, and the client has received all answers.
* `server_replies`: what the client has received is at all times a prefix of the answers to what it
  has sent, the steps that bring answers on are bounded, and where there is none left the client
  has received them all.
-/

set_option autoImplicit false

namespace Kernel4GameServer

open Lib

variable {σ ε : Type} {f : σ → List UInt8 → Received σ ε} {send : ε → Option (List UInt8)}
  {s₀ : σ}

namespace ServerPair

/-- The effects so far are the first of those of all that the client has sent. -/
theorem Inv.effects_prefix (hf : StableSession f) {sendCap : Side → Nat} {s : ServerPair σ ε}
    (hi : s.Inv f send sendCap s₀) :
    s.effects.filterMap send <+: replies f send s₀ s.client.posted := by
  have hsofar : s.effects <+: (feed (consumer f) s₀ s.server.taken).effects := by
    rw [show feed (consumer f) s₀ s.server.taken = _ from (hi.served.cut.progress hf.stable).1]
    exact List.prefix_append _ _
  exact (hsofar.trans (feed_effects_mono hf.stable s₀ (hi.pair.received .left))).filterMap send

/-- What the client has received are answers to what it has sent, in their order. -/
theorem Inv.received (hf : StableSession f) {sendCap : Side → Nat} {s : ServerPair σ ε}
    (hi : s.Inv f send sendCap s₀) :
    s.client.taken <+: (replies f send s₀ s.client.posted).flatten := by
  have hposted : s.server.posted <+: (s.effects.filterMap send).flatten := by
    rw [hi.served.posted]
    exact List.prefix_append _ _
  obtain ⟨more, hmore⟩ := hi.effects_prefix hf
  rw [← hmore, List.flatten_append]
  exact (hi.pair.received .right).trans (hposted.trans (List.prefix_append _ _))

/-- What the answers so far have cost is bounded by what the client has sent. -/
theorem Inv.gain_le (hf : StableSession f) {sendCap : Side → Nat} {s : ServerPair σ ε}
    (hi : s.Inv f send sendCap s₀) :
    s.gain send ≤ 2 * frames (consumer f) s₀ s.client.posted
      + ((replies f send s₀ s.client.posted).map price).sum := by
  have hserved : frames (consumer f) s₀ s.server.taken = s.served + _ :=
    (hi.served.cut.progress hf.stable).2
  have hframes := frames_le_of_prefix hf.stable s₀ (hi.pair.received .left)
  replace hframes : frames (consumer f) s₀ s.server.taken
    ≤ frames (consumer f) s₀ s.client.posted := hframes
  obtain ⟨more, hmore⟩ := hi.effects_prefix hf
  unfold gain
  rw [← hmore, List.map_append, List.sum_append]
  omega

/-! ### What can be done -/

/-- In the drain loop a round can be made. -/
theorem round_possible {s : ServerPair σ ε} {t : IoEventType} (hcall : s.server.conn.call = .idle)
    (hmain : s.server.conn.main = .draining t) (nUse : Int) :
    (s.main (.round nUse)).isSome = true := by
  have hcall' : (s.pair.ends .right).conn.call = .idle := hcall
  have hmain' : (s.pair.ends .right).conn.main = .draining t := hmain
  simp only [main, EdgePair.step, EdgeAction.talks, if_true, EdgeState.step, EdgeState.plain,
    Connection.step, Connection.mainStep, hcall', hmain', Option.isSome_map]
  split <;> rfl

/-- Where no step brings an answer on, the pair is stuck as well. -/
theorem pair_stuck {onRecv : OnRecv σ ε} {s : ServerPair σ ε}
    (hstuck : ∀ a : ServerAction, a.serves = true → s.step onRecv send a = none)
    {a : PairAction} (hserves : (ServerAction.net a).serves = true) (hown : a.ofSession = false) :
    s.pair.step a = none := by
  have hno := hstuck (.net a) hserves
  simp only [step, hown, Bool.false_eq_true, if_false, Option.map_eq_none_iff] at hno
  exact hno

/-- A step on the way of bytes is none of the session. -/
theorem serves_of_moves {a : PairAction} (h : a.moves = true) :
    (ServerAction.net a).serves = true ∧ a.ofSession = false := by
  cases a with
  | deliver i k freeEdge arriveEdge => exact ⟨rfl, rfl⟩
  | thread i b =>
      cases i with
      | left => exact ⟨h, rfl⟩
      | right => cases b <;> first | exact ⟨h, rfl⟩ | cases h

/-- Then the main thread of the server is outside of `Processing`, and there is no event. -/
theorem main_idle {onRecv : OnRecv σ ε} {s : ServerPair σ ε}
    (hstuck : ∀ a : ServerAction, a.serves = true → s.step onRecv send a = none)
    (hcall : s.server.conn.call = .idle) :
    s.server.conn.main = .idle ∧ s.server.conn.queue = [] := by
  have hcall' : (s.pair.ends .right).conn.call = .idle := hcall
  cases hmain : s.server.conn.main with
  | idle =>
      refine ⟨rfl, ?_⟩
      have hmain' : (s.pair.ends .right).conn.main = .idle := hmain
      cases hqueue : s.server.conn.queue with
      | nil => rfl
      | cons t queue =>
          have hqueue' : (s.pair.ends .right).conn.queue = t :: queue := hqueue
          have hno := pair_stuck (a := .thread .right .read) hstuck rfl rfl
          simp [EdgePair.step, EdgeAction.talks, EdgeState.step, EdgeState.plain,
            Connection.step, Connection.mainStep, hcall', hmain', hqueue'] at hno
  | drained t =>
      have hmain' : (s.pair.ends .right).conn.main = .drained t := hmain
      have hno := pair_stuck (a := .thread .right .finish) hstuck rfl rfl
      simp [EdgePair.step, EdgeAction.talks, EdgeState.step, EdgeState.plain, Connection.step,
        Connection.mainStep, hcall', hmain'] at hno
  | draining t =>
      have hround : ∀ {u : ServerPair σ ε} {nUse : Int}, u.pair = s.pair →
          u.main (.round nUse) ≠ none := by
        intro u nUse hpair hno
        have hsome := round_possible (s := u) (t := t)
          (show (u.pair.ends .right).conn.call = .idle by rw [hpair]; exact hcall')
          (show (u.pair.ends .right).conn.main = .draining t by rw [hpair]; exact hmain) nUse
        rw [hno] at hsome
        cases hsome
      cases hanswer : s.answer with
      | none =>
          have hno := hstuck .OnRecv rfl
          simp only [step, hanswer, hcall, hmain] at hno
          split at hno
          · exact absurd hno (hround rfl)
          · cases hno
      | some r =>
          obtain ⟨nUse, sends⟩ := r
          cases sends with
          | nil =>
              have hno := hstuck .out rfl
              simp only [step, hanswer] at hno
              exact absurd hno (hround rfl)
          | cons src rest =>
              have hno := hstuck .Send rfl
              simp [step, hanswer, main, EdgePair.step, EdgeAction.talks, EdgeState.step,
                EdgeState.plain, Connection.step, Connection.callStep, hcall'] at hno

/-- Where no step brings an answer on, the client has received all answers, and the session has
done with the bytes of the client what it does with them in one piece. -/
theorem Inv.stuck (hf : StableSession f) {onRecv : OnRecv σ ε} {sendCap : Side → Nat}
    {s : ServerPair σ ε} (hi : s.Inv f send sendCap s₀) (hsend : ∀ i, 0 < sendCap i)
    (hrecv : 0 < s.pair.recvCap)
    (hstuck : ∀ a : ServerAction, a.serves = true → s.step onRecv send a = none) :
    s.client.taken = (replies f send s₀ s.client.posted).flatten ∧
    feed (consumer f) s₀ s.client.posted
      = ⟨s.effects, s.session, s.server.conn.pipe.m_oRecvStream.unread⟩ := by
  have hpair : ∀ a : PairAction, a.moves = true → s.pair.step a = none := fun a ha =>
    pair_stuck hstuck (serves_of_moves ha).1 (serves_of_moves ha).2
  have hquiet : s.server.Quiet :=
    EdgeState.quiet_of_stuck (hi.pair.ends .right) (hi.pair.opened .right) fun a ha =>
      EdgePair.stuck_end hpair .right ha
  obtain ⟨hmain, hqueue⟩ := main_idle hstuck hquiet.idle
  have hanswer : s.answer = none := by
    cases hans : s.answer with
    | none => rfl
    | some r =>
        obtain ⟨-, -, t, ht⟩ := hi.answering r hans
        rw [hmain] at ht
        cases ht
  -- Bytes that were not shown would have an event.
  have hseen : s.server.unseen = false := by
    refine Bool.eq_false_iff.mpr fun hun => ?_
    rcases (hi.pair.ends .right).seen hun with hcarry | hne | ⟨t, ht⟩
    · rw [show (s.pair.ends .right).conn.worker = .wait from hquiet.wait] at hcarry
      cases hcarry
    · exact hne hqueue
    · rw [show (s.pair.ends .right).conn.main = .idle from hmain] at ht
      cases ht
  obtain ⟨hprogress, -⟩ := hi.served.cut.progress hf.stable
  obtain ⟨hused, hsends, -⟩ := answer_none hanswer
  rw [hused, List.drop_zero] at hprogress
  have htaken : s.server.inbox.taken = s.client.posted := hi.pair.delivered hsend hrecv hpair .left
  have hfeed := hprogress.done (hi.seen hanswer hseen)
  rw [htaken] at hfeed
  refine ⟨?_, hfeed⟩
  have hposted := hi.served.posted
  rw [hsends, List.flatten_nil, List.append_nil] at hposted
  have hback : s.client.taken = s.server.inbox.posted :=
    hi.pair.delivered hsend hrecv hpair .right
  unfold replies
  rw [hfeed, hback, ← hposted]

/-- A step is one of the pair, or leaves it as it is. -/
theorem step_pair {onRecv : OnRecv σ ε} {s s' : ServerPair σ ε} {a : ServerAction}
    (h : s.step onRecv send a = some s') :
    s'.pair = s.pair ∨ ∃ b, s.pair.step b = some s'.pair := by
  cases a with
  | net a =>
      simp only [step] at h
      split at h
      · cases h
      · obtain ⟨pair, hpair, rfl⟩ := Option.map_eq_some_iff.mp h
        exact .inr ⟨a, hpair⟩
  | OnRecv =>
      simp only [step] at h
      split at h
      · split at h
        · exact .inr ⟨_, (main_cases h).1⟩
        · cases h
          exact .inl rfl
      · cases h
  | Send =>
      simp only [step] at h
      split at h
      · exact .inr ⟨_, (main_cases h).1⟩
      · cases h
  | out =>
      simp only [step] at h
      split at h
      · exact .inr ⟨_, (main_cases h).1⟩
      · cases h

/-- How much the sockets hold stays as it is. -/
theorem run_recvCap {onRecv : OnRecv σ ε} {as : List ServerAction} {s s' : ServerPair σ ε}
    (h : run (step onRecv send) s as = some s') : s'.pair.recvCap = s.pair.recvCap := by
  refine run_invariant (I := fun t => t.pair.recvCap = s.pair.recvCap) (fun t a t' ht hs => ?_)
    rfl h
  rcases step_pair hs with hsame | ⟨b, hb⟩
  · rw [hsame]
    exact ht
  · exact (EdgePair.step_recvCap hb).trans ht

/-- Every reachable state satisfies the invariant. -/
theorem run_inv (hf : StableSession f) {lSocket sendCap : Side → Nat} {recvCap : Nat}
    {as : List ServerAction} {s : ServerPair σ ε}
    (h : run (step (onBuffer f) send) (init lSocket sendCap recvCap s₀) as = some s) :
    s.Inv f send sendCap s₀ :=
  run_invariant (fun _ _ _ hi hs => (hi.step hf hs).1) (inv_init hf lSocket sendCap recvCap) h

/-- The number of steps of a run that bring answers on. -/
theorem run_serves_le (hf : StableSession f) {lSocket sendCap : Side → Nat} {recvCap : Nat}
    {as : List ServerAction} {s : ServerPair σ ε}
    (h : run (step (onBuffer f) send) (init lSocket sendCap recvCap s₀) as = some s) :
    as.countP (·.serves) ≤ 56 + (as.map (·.cost)).sum + 2 * frames (consumer f) s₀ s.client.posted
      + ((replies f send s₀ s.client.posted).map price).sum := by
  have hcount := run_gain_le (I := Inv f send sendCap s₀) (·.serves) work (gain send) (·.cost)
    (fun _ _ _ hi hs => (hi.step hf hs).1) (fun _ _ _ hi hs => (hi.step hf hs).2)
    (inv_init hf lSocket sendCap recvCap) h
  have hstart : (init lSocket sendCap recvCap s₀ : ServerPair σ ε).work = 56 := by
    show 4 * (EdgePair.init lSocket sendCap recvCap).work + 3 * 0 + 0 + 0 = 56
    rw [EdgePair.work_init]
  have hgain := (run_inv hf h).gain_le hf
  rw [hstart] at hcount
  omega

/-- A session that keeps the contract of `OnRecv`, at the end of a connection to any client, in
every run of the two workers, the two main threads and the network.

* What the client has received is at all times a prefix of the answers of the session to what the
  client has sent, taken in one piece.
* The steps that bring answers on are at most 56, with 68 for each byte of the client and 4 for each
  of its calls of `Send`, 2 for each frame, and 68 for each byte of an answer and 5 for each answer.
* Where none of them can be taken, the client has received all answers, and the session is where
  the bytes in one piece would have led it. -/
theorem server_replies (hf : StableSession f) (send : ε → Option (List UInt8)) (s₀ : σ)
    (lSocket sendCap : Side → Nat) (recvCap : Nat) (hsend : ∀ i, 0 < sendCap i)
    (hrecv : 0 < recvCap) (as : List ServerAction) (s : ServerPair σ ε)
    (h : run (step (onBuffer f) send) (init lSocket sendCap recvCap s₀) as = some s) :
    s.client.taken <+: (replies f send s₀ s.client.posted).flatten ∧
    as.countP (·.serves) ≤ 56 + (as.map (·.cost)).sum + 2 * frames (consumer f) s₀ s.client.posted
      + ((replies f send s₀ s.client.posted).map price).sum ∧
    ((∀ a : ServerAction, a.serves = true → s.step (onBuffer f) send a = none) →
      s.client.taken = (replies f send s₀ s.client.posted).flatten ∧
      feed (consumer f) s₀ s.client.posted
        = ⟨s.effects, s.session, s.server.conn.pipe.m_oRecvStream.unread⟩) := by
  have hi := run_inv hf h
  refine ⟨hi.received hf, run_serves_le hf h, hi.stuck hf hsend ?_⟩
  rw [run_recvCap h]
  exact hrecv

/-- A session that sends every two bytes back, and counts them. -/
def pairsBack (count : Nat) (b : List UInt8) : Received Nat (List UInt8) :=
  match b with
  | x :: y :: _ => ⟨2, count + 1, [[x, y]]⟩
  | _ => ⟨0, count, []⟩

/-- It keeps the contract. -/
theorem pairsBack_stable : StableSession pairsBack where
  used_nonneg s b := by
    unfold pairsBack
    split
    · exact Int.natCast_nonneg 2
    · exact Int.le_refl 0
  used_le s b := by
    unfold pairsBack
    split
    · rw [List.length_cons, List.length_cons]
      dsimp only
      omega
    · exact Int.natCast_nonneg _
  idle s b h := by
    unfold pairsBack at h ⊢
    split at h
    · cases h
    · exact ⟨rfl, rfl⟩
  extend s b d h := by
    match b, h with
    | x :: y :: b, _ => rfl

/-- A round of `Run` at an end of a served connection. -/
def workerRound (i : Side) (mask : EpollFlags) (recvs : List RecvResult)
    (sends : List SendResult) : List ServerAction :=
  (EdgePair.workerRound i mask recvs sends).map .net

/-- The client sends three bytes, of which two are sent back. -/
def threeSent : List ServerAction :=
  workerRound .left { EPOLLOUT := true } [] [.EAGAIN] ++
  workerRound .right { EPOLLOUT := true } [] [.EAGAIN] ++
  [.net (.thread .left (.Send [1, 2, 3])), .net (.thread .left (.sendLocked [⟨none, .sent 3⟩])),
    .net (.deliver .left 3 true true)] ++
  workerRound .right { EPOLLIN := true, EPOLLOUT := true } [.data [1, 2, 3], .EAGAIN] [.EAGAIN] ++
  workerRound .left { EPOLLOUT := true } [] [.EAGAIN] ++
  [.net (.thread .right .read), .OnRecv, .Send,
    .net (.thread .right (.sendLocked [⟨none, .sent 2⟩])), .out, .OnRecv,
    .net (.thread .right .finish), .net (.deliver .right 2 true true)] ++
  workerRound .left { EPOLLIN := true, EPOLLOUT := true } [.data [1, 2], .EAGAIN] [.EAGAIN] ++
  workerRound .right { EPOLLOUT := true } [] [.EAGAIN]

/-- Where both ends are quiet, nothing is on its way, and the main thread of the server has nothing
to handle, nothing brings an answer on. -/
theorem stuck_of_quiet {onRecv : OnRecv σ ε} {s : ServerPair σ ε}
    (hquiet : ∀ i, (s.pair.ends i).Quiet) (hnone : ∀ i, s.pair.inFlight i = [])
    (hanswer : s.answer = none) (hmain : s.server.conn.main = .idle)
    (hqueue : s.server.conn.queue = []) {a : ServerAction} (ha : a.serves = true) :
    s.step onRecv send a = none := by
  have hmain' : (s.pair.ends .right).conn.main = .idle := hmain
  have hqueue' : (s.pair.ends .right).conn.queue = [] := hqueue
  have hnet : ∀ {a : PairAction}, s.pair.step a = none → s.step onRecv send (.net a) = none :=
    fun hno => by simp only [step, hno, Option.map_none, ite_self]
  have hmoves : ∀ {a : PairAction}, a.moves = true → s.step onRecv send (.net a) = none :=
    fun ha => hnet (EdgePair.stuck_of_quiet hquiet hnone ha)
  cases a with
  | net a =>
      cases a with
      | deliver i k freeEdge arriveEdge => exact hmoves rfl
      | thread i b =>
          cases i with
          | left => exact hmoves ha
          | right =>
              cases b with
              | read =>
                  refine hnet ?_
                  simp [EdgePair.step, EdgeState.step, EdgeState.plain, Connection.step,
                    Connection.mainStep, hmain', hqueue']
              | finish =>
                  refine hnet ?_
                  simp [EdgePair.step, EdgeState.step, EdgeState.plain, Connection.step,
                    Connection.mainStep, hmain']
              | _ => exact hmoves ha
  | OnRecv => simp [step, hanswer, hmain]
  | Send => simp [step, hanswer]
  | out => simp [step, hanswer]

/-- A served connection on which nothing happens, as it can be computed. -/
def atRest (s : ServerPair σ ε) : Bool :=
  let quiet (st : EdgeState) : Bool :=
    decide (st.conn.worker = .wait) && !st.sock.ready && decide (st.conn.call = .idle)
  quiet s.client && quiet s.server && (s.pair.inFlight .left).isEmpty &&
    (s.pair.inFlight .right).isEmpty && s.answer.isNone && decide (s.server.conn.main = .idle) &&
    s.server.conn.queue.isEmpty

/-- On it nothing brings an answer on. -/
theorem stuck_of_atRest {onRecv : OnRecv σ ε} {s : ServerPair σ ε} (h : s.atRest = true)
    (a : ServerAction) (ha : a.serves = true) : s.step onRecv send a = none := by
  simp only [atRest, Bool.and_eq_true, decide_eq_true_eq, List.isEmpty_iff,
    Option.isNone_iff_eq_none, Bool.not_eq_true'] at h
  obtain ⟨⟨⟨⟨⟨⟨hl, hr⟩, hto⟩, hback⟩, hanswer⟩, hmain⟩, hqueue⟩ := h
  refine stuck_of_quiet (fun i => ?_) (fun i => ?_) hanswer hmain hqueue ha
  · cases i with
    | left => exact ⟨hl.1.1, hl.1.2, hl.2⟩
    | right => exact ⟨hr.1.1, hr.1.2, hr.2⟩
  · cases i with
    | left => exact hto
    | right => exact hback

/-- They have come back, and the third byte waits for a fourth. -/
theorem server_replies_pair : ∃ s,
    run (step (onBuffer pairsBack) some) (init (fun _ => 7) (fun _ => 8) 8 0) threeSent = some s ∧
      s.client.taken = [1, 2] ∧ s.session = 1 ∧
      s.server.conn.pipe.m_oRecvStream.unread = [3] := by
  obtain ⟨s, hs, hposted, hrest⟩ : ∃ s,
      run (step (onBuffer pairsBack) some) (init (fun _ => 7) (fun _ => 8) 8 0) threeSent = some s ∧
        s.client.posted = [1, 2, 3] ∧ s.atRest = true := ⟨_, rfl, rfl, rfl⟩
  obtain ⟨htaken, hfeed⟩ := (server_replies pairsBack_stable some 0 (fun _ => 7) (fun _ => 8) 8
    (fun _ => by decide) (by decide) threeSent s hs).2.2 (stuck_of_atRest hrest)
  have hpieces : feed (consumer pairsBack) 0 [1, 2, 3] = ⟨[[1, 2]], 1, [3]⟩ := by
    rw [feed_consume pairsBack_stable.stable (by decide)]
    show (feed (consumer pairsBack) 1 [3]).after [[1, 2]] = _
    rw [feed_idle (by decide)]
    rfl
  unfold replies at htaken
  rw [hposted, hpieces] at htaken hfeed
  have hsession : 1 = s.session := congrArg Fed.state hfeed
  have hrest : [3] = s.server.conn.pipe.m_oRecvStream.unread := congrArg Fed.rest hfeed
  exact ⟨s, hs, htaken, hsession.symm, hrest.symm⟩

end ServerPair

end Kernel4GameServer
