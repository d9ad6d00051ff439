import Kernel4GameServer.Proofs.Net.RecvChunking
import Kernel4GameServer.Proofs.Net.ServerSteps

/-!
# `Kernel4GameServer.Proofs.Net.ServerReplies`: a client gets the answers of the session

A session that keeps the contract of `OnRecv`, at the end of a connection to any client. `Served`
relates what the session has done to what came by `Lib.Cut`, `Inv` adds the invariant of the
pair. `work` counts what is left to do, with a price for each answer that has been decided on, and
`gain` the prices of the answers so far.

* `Served.call`, `Served.out`, `Served.turn`: what a call of `OnRecv`, the `out` behind it and the
  other steps do to `Served`.
* `Inv.step`: every step keeps the invariant, and one that brings an answer on leaves less to do.
-/

set_option autoImplicit false

namespace Kernel4GameServer

open Lib

variable {σ ε : Type}

/-- The answers to the bytes `w`, for a session in the state `s`. -/
def replies (f : σ → List UInt8 → Received σ ε) (send : ε → Option (List UInt8)) (s : σ)
    (w : List UInt8) : List (List UInt8) :=
  (feed (consumer f) s w).effects.filterMap send

/-- What the session has done with what came, by the inbox of its end. `pending` is what is not
used: while `OnRecv` answers, what it is about to use is still in the stream. -/
structure Served (f : σ → List UInt8 → Received σ ε) (send : ε → Option (List UInt8)) (s₀ : σ)
    (v : Inbox) (session : σ) (effects : List ε) (served : Nat) (used : Nat)
    (sends : List (List UInt8)) : Prop where
  wf : v.stream.WellFormed
  room : used ≤ v.stream.unread.length
  cut : Cut (consumer f) s₀ v.taken effects served session (v.stream.unread.drop used)
  posted : (effects.filterMap send).flatten = v.posted ++ sends.flatten

variable {f : σ → List UInt8 → Received σ ε} {send : ε → Option (List UInt8)} {s₀ : σ}

/-- A move that the session does not make itself. -/
theorem Served.turn {v v' : Inbox} {a : EdgeAction} {session : σ}
    {effects : List ε} {served used : Nat} {sends : List (List UInt8)}
    (hs : Served f send s₀ v session effects served used sends)
    (ha : (PairAction.thread .right a).ofSession = false) (h : v.Turn a v') :
    Served f send s₀ v' session effects served used sends := by
  cases h with
  | stay _ _ => exact hs
  | piece piece =>
      have hunread := TStream.inBytes_unread BUFF_SIZE_pos hs.wf (Mem.ofList piece 0)
        (Int.natCast_nonneg piece.length)
      rw [Int.toNat_natCast, Mem.slice_ofList] at hunread
      have hdrop : (v.stream.unread ++ piece).drop used = v.stream.unread.drop used ++ piece :=
        List.drop_append_of_le_length hs.room
      refine ⟨TStream.inBytes_wf BUFF_SIZE_pos hs.wf _ (Int.natCast_nonneg _), ?_, ?_,
        hs.posted⟩
      · dsimp only
        rw [hunread, List.length_append]
        exact Nat.le_add_right_of_le hs.room
      · dsimp only
        rw [hunread, hdrop]
        exact hs.cut.append piece
  | add t => exact ⟨hs.wf, hs.room, hs.cut, hs.posted⟩
  | Send src => cases ha
  | read t queue _ _ => exact ⟨hs.wf, hs.room, hs.cut, hs.posted⟩
  | round t nUse _ => cases ha
  | finish t _ => exact ⟨hs.wf, hs.room, hs.cut, hs.posted⟩

/-- A call of `OnRecv`, before the `out` behind it. -/
theorem Served.call (hf : StableSession f) {v : Inbox} {session : σ} {effects : List ε}
    {served : Nat} {r : Received σ ε} (hr : f session v.stream.unread = r)
    (hs : Served f send s₀ v session effects served 0 []) :
    Served f send s₀ v r.session (effects ++ r.effects) (served + (decide (0 < r.nUse)).toNat)
      r.nUse.toNat (r.effects.filterMap send) := by
  have hnonneg := hf.used_nonneg session v.stream.unread
  have hle := hf.used_le session v.stream.unread
  rw [hr] at hnonneg hle
  have hposted : ((effects ++ r.effects).filterMap send).flatten
      = v.posted ++ (r.effects.filterMap send).flatten := by
    have h := hs.posted
    rw [List.flatten_nil, List.append_nil] at h
    rw [List.filterMap_append, List.flatten_append, h]
  have hconsumer : consumer f session v.stream.unread = ⟨r.nUse.toNat, r.session, r.effects⟩ := by
    unfold consumer
    rw [hr]
  by_cases hpos : 0 < r.nUse
  · have hused : 0 < (consumer f session v.stream.unread).used := by
      rw [hconsumer]
      show 0 < r.nUse.toNat
      omega
    have hcut := hs.cut
    rw [List.drop_zero] at hcut
    replace hcut := hcut.consume hused
    rw [hconsumer] at hcut
    refine ⟨hs.wf, by omega, ?_, hposted⟩
    rw [decide_eq_true hpos]
    exact hcut
  · have hzero : r.nUse = 0 := by omega
    obtain ⟨hsession, heffects⟩ := hf.idle session v.stream.unread (hr ▸ hzero)
    rw [hr] at hsession heffects
    rw [hzero, hsession, heffects, List.append_nil]
    exact hs

/-- The `out` behind it. -/
theorem Served.out {v : Inbox} {session : σ} {effects : List ε} {served : Nat} {nUse : Int}
    {t : IoEventType} (hn : 0 ≤ nUse)
    (hs : Served f send s₀ v session effects served nUse.toNat []) :
    Served f send s₀ (v.round t nUse) session effects served 0 [] := by
  have hroom := hs.room
  unfold Inbox.round
  split
  · split
    · rename_i hpos
      have hunread := TStream.out_unread hs.wf hn
      refine ⟨TStream.out_wf hs.wf hn, Nat.zero_le _, ?_, hs.posted⟩
      dsimp only
      rw [hunread, List.drop_zero]
      exact hs.cut
    · have hzero : nUse.toNat = 0 := by omega
      rw [hzero] at hs
      exact ⟨hs.wf, Nat.zero_le _, hs.cut, hs.posted⟩
  · rename_i hsize
    rw [TStream.length_unread] at hroom
    have hzero : nUse.toNat = 0 := by omega
    rw [hzero] at hs
    exact ⟨hs.wf, Nat.zero_le _, hs.cut, hs.posted⟩

/-- How far the main thread is from being outside of `Processing`. -/
def MainPc.rank : MainPc → Nat
  | .idle => 0
  | .draining _ => 2
  | .drained _ => 1

/-- What a step puts in. -/
def ServerAction.cost : ServerAction → Nat
  | .net a => 4 * a.cost
  | _ => 0

/-- A move that the session does not make itself: the main thread stays in a drain loop, bytes that
come are unseen, and a step on the way of bytes pays for the event it may add. -/
theorem Inbox.Turn.net {v v' : Inbox} {a : EdgeAction} (h : v.Turn a v')
    (ha : (PairAction.thread .right a).ofSession = false) :
    (∀ t, v.main = .draining t → v'.main = .draining t) ∧
    (v'.unseen = false → v.unseen = false ∧ v'.stream = v.stream) ∧
    (ServerAction.net (.thread .right a)).serves.toNat + 3 * v'.queue.length + v'.main.rank
      ≤ 3 * v.queue.length + v.main.rank + 4 * a.moves.toNat := by
  cases h with
  | stay _ hmain =>
      refine ⟨fun _ => id, fun hun => ⟨hun, rfl⟩, ?_⟩
      have hserves : (ServerAction.net (.thread .right a)).serves = a.moves := by
        cases a <;> first | rfl | cases hmain
      rw [hserves]
      omega
  | piece piece =>
      refine ⟨fun _ => id, (fun hun => by cases hun), ?_⟩
      show 1 + 3 * v.queue.length + v.main.rank ≤ 3 * v.queue.length + v.main.rank + 4 * 1
      omega
  | add t =>
      refine ⟨fun _ => id, fun hun => ⟨hun, rfl⟩, ?_⟩
      show 1 + 3 * (v.queue ++ [t]).length + v.main.rank
        ≤ 3 * v.queue.length + v.main.rank + 4 * 1
      rw [List.length_append, List.length_singleton]
      omega
  | Send src => cases ha
  | read t queue hmain hqueue =>
      refine ⟨fun t' hdrain => ?_, fun hun => ⟨hun, rfl⟩, ?_⟩
      · rw [hmain] at hdrain
        cases hdrain
      · show 1 + 3 * queue.length + 2 ≤ 3 * v.queue.length + v.main.rank + 4 * 0
        rw [hqueue, List.length_cons]
        omega
  | round t nUse _ => cases ha
  | finish t hmain =>
      refine ⟨fun t' hdrain => ?_, fun hun => ⟨hun, rfl⟩, ?_⟩
      · rw [hmain] at hdrain
        cases hdrain
      · show 1 + 3 * v.queue.length + 0 ≤ 3 * v.queue.length + v.main.rank + 4 * 0
        rw [hmain]
        show 1 + 3 * v.queue.length + 0 ≤ 3 * v.queue.length + 1 + 4 * 0
        omega

namespace ServerPair

/-- The calls of `Send` that `OnRecv` is still to make. -/
def sends (s : ServerPair σ ε) : List (List UInt8) :=
  match s.answer with
  | none => []
  | some r => r.sends

/-- What `OnRecv` has used and `out` has not taken out. -/
def used (s : ServerPair σ ε) : Nat :=
  match s.answer with
  | none => 0
  | some r => r.nUse.toNat

/-- What is left to pay for an answer that has been decided on: its `Send`, and the way of its
bytes. -/
def price (src : List UInt8) : Nat := 68 * src.length + 5

/-- What is left to do for the call of `OnRecv` that is under way. -/
def due (s : ServerPair σ ε) : Nat :=
  match s.answer with
  | none => 0
  | some r => 1 + (r.sends.map price).sum

/-- The invariant. `seen` says that the session has been shown all that is in the stream, unless
the main thread still has to look. -/
structure Inv (f : σ → List UInt8 → Received σ ε) (send : ε → Option (List UInt8))
    (sendCap : Side → Nat) (s₀ : σ) (s : ServerPair σ ε) : Prop where
  pair : s.pair.Inv sendCap
  served : Served f send s₀ s.server.inbox s.session s.effects s.served s.used s.sends
  answering : ∀ r, s.answer = some r →
    0 < r.nUse ∧ s.server.unseen = true ∧ ∃ t, s.server.conn.main = .draining t
  seen : s.answer = none → s.server.unseen = false →
    (consumer f s.session s.server.inbox.stream.unread).used = 0

/-- A new pair satisfies the invariant. -/
theorem inv_init (hf : StableSession f) (lSocket sendCap : Side → Nat) (recvCap : Nat) :
    (init lSocket sendCap recvCap s₀ : ServerPair σ ε).Inv f send sendCap s₀ where
  pair := EdgePair.inv_init lSocket sendCap recvCap
  served := ⟨TStream.init_wf, Nat.zero_le _, .start, rfl⟩
  answering r h := by cases h
  seen _ _ := hf.stable.used_nil s₀

/-- Outside of a call of `OnRecv` nothing is due. -/
theorem answer_none {s : ServerPair σ ε} (h : s.answer = none) :
    s.used = 0 ∧ s.sends = [] ∧ s.due = 0 := by
  unfold used sends due
  rw [h]
  exact ⟨rfl, rfl, rfl⟩

/-- Inside one the calls it still has to make are, and the `out`. -/
theorem answer_some {s : ServerPair σ ε} {r : Answering} (h : s.answer = some r) :
    s.used = r.nUse.toNat ∧ s.sends = r.sends ∧ s.due = 1 + (r.sends.map price).sum := by
  unfold used sends due
  rw [h]
  exact ⟨rfl, rfl, rfl⟩

/-- A step of the main thread of the server at its end. -/
theorem main_cases {s s' : ServerPair σ ε} {a : EdgeAction} (h : s.main a = some s') :
    s.pair.step (.thread .right a) = some s'.pair ∧ s'.session = s.session ∧
      s'.answer = s.answer ∧ s'.effects = s.effects ∧ s'.served = s.served := by
  obtain ⟨pair, hpair, rfl⟩ := Option.map_eq_some_iff.mp h
  exact ⟨hpair, rfl, rfl, rfl, rfl⟩

/-- The move of the inbox in such a step. -/
theorem main_inbox {sendCap : Side → Nat} {s s' : ServerPair σ ε} {a : EdgeAction}
    (hi : s.pair.Inv sendCap) (h : s.main a = some s') :
    s.server.inbox.Turn a s'.server.inbox := by
  rcases EdgePair.inbox_step hi (main_cases h).1 .right with ⟨b, hb, hturn⟩ | ⟨hno, -⟩
  · cases hb
    exact hturn
  · exact absurd rfl (hno a)

/-- A `Send` of the session. -/
theorem main_Send {sendCap : Side → Nat} {s s' : ServerPair σ ε} {src : List UInt8}
    (hi : s.pair.Inv sendCap) (h : s.main (.Send src) = some s') :
    s'.server.inbox = { s.server.inbox with posted := s.server.inbox.posted ++ src } := by
  have hturn := main_inbox hi h
  generalize s'.server.inbox = v' at hturn
  cases hturn with
  | stay _ hmain => cases hmain
  | Send _ => rfl

/-- A round of the drain loop. -/
theorem main_round {sendCap : Side → Nat} {s s' : ServerPair σ ε} {nUse : Int}
    (hi : s.pair.Inv sendCap) (h : s.main (.round nUse) = some s') :
    ∃ t, s.server.inbox.main = .draining t ∧ s'.server.inbox = s.server.inbox.round t nUse := by
  have hturn := main_inbox hi h
  generalize s'.server.inbox = v' at hturn
  cases hturn with
  | stay _ hmain => cases hmain
  | round t _ hmain => exact ⟨t, hmain, rfl⟩

/-- The session is called with the bytes that are in the stream. -/
theorem received_eq (hf : StableSession f) (s : ServerPair σ ε) :
    s.received (onBuffer f) = f s.session s.server.inbox.stream.unread := by
  show recvCall (onBuffer f) s.session s.server.inbox.stream s.server.inbox.stream.size = _
  rw [hf.recvCall_eq s.session (Int.le_refl _), ← TStream.length_unread, List.take_length]

/-- What is left to do. A step on the way of bytes pays for the event it may add. -/
def work (s : ServerPair σ ε) : Nat :=
  4 * s.pair.work + 3 * s.server.conn.queue.length + s.server.conn.main.rank + s.due

/-- What the answers so far have cost. -/
def gain (send : ε → Option (List UInt8)) (s : ServerPair σ ε) : Nat :=
  2 * s.served + ((s.effects.filterMap send).map price).sum

/-- What a step does to the invariant and to what is left to do. -/
def Keeps (f : σ → List UInt8 → Received σ ε) (send : ε → Option (List UInt8))
    (sendCap : Side → Nat) (s₀ : σ) (s : ServerPair σ ε) (a : ServerAction)
    (s' : ServerPair σ ε) : Prop :=
  s'.Inv f send sendCap s₀ ∧
    a.serves.toNat + s'.work + s.gain send ≤ s.work + s'.gain send + a.cost

/-- A step of the two ends and the network that is not the session's own. -/
theorem Inv.net {sendCap : Side → Nat} {s s' : ServerPair σ ε}
    {a : PairAction} (hi : s.Inv f send sendCap s₀)
    (h : s.step (onBuffer f) send (.net a) = some s') : Keeps f send sendCap s₀ s (.net a) s' := by
  simp only [step] at h
  split at h
  · cases h
  · rename_i hown
    rw [Bool.not_eq_true] at hown
    obtain ⟨pair, hpair, rfl⟩ := Option.map_eq_some_iff.mp h
    obtain ⟨hpairInv, hwork⟩ := hi.pair.step hpair
    rcases EdgePair.inbox_step hi.pair hpair .right with ⟨b, rfl, hturn⟩ | ⟨hno, hsame⟩
    · obtain ⟨hdrain, hseen, hturnWork⟩ := hturn.net hown
      refine ⟨⟨hpairInv, hi.served.turn hown hturn, fun r hr => ?_, fun hnone hun => ?_⟩, ?_⟩
      · obtain ⟨hpos, hun, t, ht⟩ := hi.answering r hr
        refine ⟨hpos, Bool.of_not_eq_false fun hno => ?_, t, hdrain t ht⟩
        rw [show s.server.unseen = false from (hseen hno).1] at hun
        cases hun
      · obtain ⟨hun', hstream⟩ := hseen hun
        show (consumer f s.session (pair.ends .right).inbox.stream.unread).used = 0
        rw [hstream]
        exact hi.seen hnone hun'
      · have hmoves : (PairAction.thread .right b).moves = b.moves := rfl
        have hcost : (PairAction.thread .right b).cost = b.cost := rfl
        rw [hmoves, hcost] at hwork
        unfold work
        show _ + (4 * pair.work + 3 * (pair.ends .right).inbox.queue.length
            + (pair.ends .right).inbox.main.rank + s.due) + s.gain send
          ≤ 4 * s.pair.work + 3 * s.server.inbox.queue.length + s.server.inbox.main.rank + s.due
            + s.gain send + 4 * b.cost
        have hturnWork' : _ ≤ 3 * s.server.inbox.queue.length + s.server.inbox.main.rank
          + 4 * b.moves.toNat := hturnWork
        omega
    · refine ⟨⟨hpairInv, ?_, fun r hr => ?_, fun hnone hun => ?_⟩, ?_⟩
      · show Served f send s₀ (pair.ends .right).inbox s.session s.effects s.served s.used s.sends
        rw [hsame]
        exact hi.served
      · obtain ⟨hpos, hun, t, ht⟩ := hi.answering r hr
        exact ⟨hpos, (congrArg Inbox.unseen hsame).trans hun, t,
          (congrArg Inbox.main hsame).trans ht⟩
      · show (consumer f s.session (pair.ends .right).inbox.stream.unread).used = 0
        rw [hsame]
        exact hi.seen hnone ((congrArg Inbox.unseen hsame).symm.trans hun)
      · have hserves : (ServerAction.net a).serves = a.moves := by
          cases a with
          | deliver i k fe ae => rfl
          | thread i b =>
              cases i with
              | left => rfl
              | right => exact absurd rfl (hno b)
        unfold work
        show _ + (4 * pair.work + 3 * (pair.ends .right).inbox.queue.length
            + (pair.ends .right).inbox.main.rank + s.due) + s.gain send
          ≤ 4 * s.pair.work + 3 * s.server.inbox.queue.length + s.server.inbox.main.rank + s.due
            + s.gain send + 4 * a.cost
        rw [hserves, hsame]
        show _ + (4 * pair.work + 3 * s.server.inbox.queue.length
            + s.server.inbox.main.rank + s.due) + s.gain send ≤ _
        omega

/-- A round in which `OnRecv` has used something stays in the loop, with what it has not seen. -/
theorem round_used {v : Inbox} {t : IoEventType} {nUse : Int} (hn : 0 < nUse)
    (hle : nUse ≤ v.stream.unread.length) :
    (v.round t nUse).main = .draining t ∧ (v.round t nUse).unseen = v.unseen ∧
      (v.round t nUse).queue = v.queue := by
  rw [TStream.length_unread] at hle
  have hne : nUse ≠ 0 := by omega
  unfold Inbox.round
  rw [if_pos (by omega), if_pos hne.symm, if_pos hne]
  exact ⟨rfl, rfl, rfl⟩

/-- A round in which it has used nothing is the last. -/
theorem round_idle (v : Inbox) (t : IoEventType) :
    (v.round t 0).main = .drained t ∧ (v.round t 0).stream = v.stream ∧
      (v.round t 0).queue = v.queue := by
  unfold Inbox.round
  split <;> exact ⟨rfl, rfl, rfl⟩

/-- What is left to do, by the inbox. -/
theorem work_eq (s : ServerPair σ ε) :
    s.work = 4 * s.pair.work + 3 * s.server.inbox.queue.length + s.server.inbox.main.rank
      + s.due := rfl

/-- A call of `OnRecv` that sends nothing, with the `out` behind it. -/
theorem Inv.call_out (hf : StableSession f) {sendCap : Side → Nat} {s s' : ServerPair σ ε}
    {r : Received σ ε} (hr : f s.session s.server.inbox.stream.unread = r)
    (hi : s.Inv f send sendCap s₀) (hnone : s.answer = none)
    (hsends : r.effects.filterMap send = [])
    (h : (s.called r).main (.round r.nUse) = some s') :
    Keeps f send sendCap s₀ s .OnRecv s' := by
  have hcalled : (s.called r).pair.Inv sendCap := hi.pair
  obtain ⟨hpair, hsession, hanswer, heffects, hserved⟩ := main_cases h
  obtain ⟨t, hmain, hinbox⟩ := main_round hcalled h
  replace hmain : s.server.inbox.main = .draining t := hmain
  replace hinbox : s'.server.inbox = s.server.inbox.round t r.nUse := hinbox
  obtain ⟨hpairInv, hwork⟩ := hcalled.step hpair
  obtain ⟨hused, hsend, hdue⟩ := answer_none hnone
  obtain ⟨hused', hsend', hdue'⟩ := answer_none (hanswer.trans hnone)
  have hn := hf.used_nonneg s.session s.server.inbox.stream.unread
  have hle := hf.used_le s.session s.server.inbox.stream.unread
  rw [hr] at hn hle
  have hs := hi.served
  rw [hused, hsend] at hs
  have hcall := hs.call hf hr
  rw [hsends] at hcall
  have hround := hcall.out (t := t) hn
  refine ⟨⟨hpairInv, ?_, fun r' hr' => ?_, fun _ hun => ?_⟩, ?_⟩
  · rw [hinbox, hsession, heffects, hserved, hused', hsend']
    exact hround
  · rw [hanswer.trans hnone] at hr'
    cases hr'
  · rw [hsession, hinbox]
    rcases Int.lt_or_eq_of_le hn with hpos | hzero
    · -- Something was used, so the session had not seen everything.
      have hunseen : s.server.unseen = false := by
        obtain ⟨-, hkeep, -⟩ := round_used (t := t) hpos hle
        rw [← hinbox] at hkeep
        exact hkeep.symm.trans hun
      have hidle : (f s.session s.server.inbox.stream.unread).nUse.toNat = 0 :=
        hi.seen hnone hunseen
      rw [hr] at hidle
      omega
    · obtain ⟨hkeep, -⟩ := hf.idle s.session s.server.inbox.stream.unread (hr ▸ hzero.symm)
      rw [hr] at hkeep
      rw [← hzero, (round_idle _ t).2.1]
      show (f r.session s.server.inbox.stream.unread).nUse.toNat = 0
      rw [hkeep, hr, ← hzero]
      rfl
  · have hgain : s'.gain send = 2 * (s.served + (decide (0 < r.nUse)).toNat)
        + ((s.effects.filterMap send).map price).sum := by
      unfold gain
      rw [hserved, heffects]
      show 2 * _ + (((s.effects ++ r.effects).filterMap send).map price).sum = _
      rw [List.filterMap_append, hsends, List.append_nil]
      rfl
    have hpairWork : 0 + s'.pair.work ≤ s.pair.work + 0 := hwork
    rw [hgain, work_eq, work_eq, hinbox, hdue, hdue', hmain]
    show 1 + (4 * s'.pair.work + 3 * (s.server.inbox.round t _).queue.length
      + (s.server.inbox.round t _).main.rank + 0) + s.gain send ≤ _
    unfold gain
    rcases Int.lt_or_eq_of_le hn with hpos | hzero
    · obtain ⟨hm, -, hq⟩ := round_used (t := t) hpos hle
      rw [hm, hq, decide_eq_true hpos]
      show _ + (_ + _ + 2 + 0) + _ ≤ _ + _ + 2 + 0 + (2 * (s.served + 1) + _) + 0
      omega
    · obtain ⟨hm, -, hq⟩ := round_idle s.server.inbox t
      rw [← hzero, hm, hq]
      show _ + (_ + _ + 1 + 0) + _ ≤ _ + _ + 2 + 0 + (2 * (s.served + 0) + _) + 0
      omega

/-- A call of `OnRecv` that decides on something to send. -/
theorem Inv.call (hf : StableSession f) {sendCap : Side → Nat} {s : ServerPair σ ε}
    {r : Received σ ε} (hr : f s.session s.server.inbox.stream.unread = r)
    (hi : s.Inv f send sendCap s₀) (hnone : s.answer = none) {t : IoEventType}
    (hmain : s.server.conn.main = .draining t) {src : List UInt8} {rest : List (List UInt8)}
    (hsends : r.effects.filterMap send = src :: rest) :
    Keeps f send sendCap s₀ s .OnRecv
      { s.called r with answer := some ⟨r.nUse, src :: rest⟩ } := by
  obtain ⟨hused, hsend, hdue⟩ := answer_none hnone
  have hs := hi.served
  rw [hused, hsend] at hs
  have hcall := hs.call hf hr
  rw [hsends] at hcall
  -- A call that uses nothing has no effects.
  have hpos : 0 < r.nUse := by
    have hn := hf.used_nonneg s.session s.server.inbox.stream.unread
    rw [hr] at hn
    rcases Int.lt_or_eq_of_le hn with hpos | hzero
    · exact hpos
    · obtain ⟨-, hnil⟩ := hf.idle s.session s.server.inbox.stream.unread (hr ▸ hzero.symm)
      rw [hr] at hnil
      rw [hnil] at hsends
      cases hsends
  refine ⟨⟨hi.pair, hcall, fun r' hr' => ?_, fun hno => by cases hno⟩, ?_⟩
  · cases hr'
    refine ⟨hpos, Bool.of_not_eq_false fun hun => ?_, t, hmain⟩
    have hidle : (f s.session s.server.inbox.stream.unread).nUse.toNat = 0 := hi.seen hnone hun
    rw [hr] at hidle
    omega
  · rw [work_eq s, hdue]
    show 1 + (4 * s.pair.work + 3 * s.server.inbox.queue.length + s.server.inbox.main.rank
        + (1 + ((src :: rest).map price).sum))
        + (2 * s.served + ((s.effects.filterMap send).map price).sum)
      ≤ _ + (2 * (s.served + (decide (0 < r.nUse)).toNat)
        + (((s.effects ++ r.effects).filterMap send).map price).sum) + 0
    rw [decide_eq_true hpos, List.filterMap_append, hsends, List.map_append, List.sum_append,
      Bool.toNat_true]
    omega

/-- A `Send` that `OnRecv` makes. -/
theorem Inv.sent {sendCap : Side → Nat} {s s' : ServerPair σ ε}
    (hi : s.Inv f send sendCap s₀) {nUse : Int} {src : List UInt8} {rest : List (List UInt8)}
    (hanswer : s.answer = some ⟨nUse, src :: rest⟩)
    (h : ({ s with answer := some ⟨nUse, rest⟩ } : ServerPair σ ε).main (.Send src) = some s') :
    Keeps f send sendCap s₀ s .Send s' := by
  obtain ⟨hpair, hsession, hanswer', heffects, hserved⟩ := main_cases h
  have hpairInv : ({ s with answer := some ⟨nUse, rest⟩ } : ServerPair σ ε).pair.Inv sendCap :=
    hi.pair
  have hinbox := main_Send hpairInv h
  replace hinbox : s'.server.inbox
    = { s.server.inbox with posted := s.server.inbox.posted ++ src } := hinbox
  obtain ⟨hpairInv', hwork⟩ := hpairInv.step hpair
  obtain ⟨hused, hsend, hdue⟩ := answer_some hanswer
  obtain ⟨hused', hsend', hdue'⟩ := answer_some hanswer'
  have hs := hi.served
  rw [hused, hsend] at hs
  refine ⟨⟨hpairInv', ?_, fun r hr => ?_, fun hno => ?_⟩, ?_⟩
  · rw [hinbox, hsession, heffects, hserved, hused', hsend']
    refine ⟨hs.wf, hs.room, hs.cut, ?_⟩
    show (s.effects.filterMap send).flatten = (s.server.inbox.posted ++ src) ++ rest.flatten
    rw [hs.posted, List.flatten_cons, List.append_assoc]
  · rw [hanswer'] at hr
    cases hr
    obtain ⟨hpos, hun, t, ht⟩ := hi.answering _ hanswer
    exact ⟨hpos, (congrArg Inbox.unseen hinbox).trans hun, t,
      (congrArg Inbox.main hinbox).trans ht⟩
  · rw [hanswer'] at hno
    cases hno
  · have hgain : s'.gain send = s.gain send := by
      unfold gain
      rw [hserved, heffects]
    have hpairWork : 0 + s'.pair.work ≤ s.pair.work + (17 * src.length + 1) := hwork
    rw [hgain, work_eq, work_eq, hinbox, hdue, hdue']
    show 1 + (4 * s'.pair.work + 3 * s.server.inbox.queue.length + s.server.inbox.main.rank
        + (1 + (rest.map price).sum)) + s.gain send
      ≤ _ + (1 + ((src :: rest).map price).sum) + s.gain send + 0
    rw [List.map_cons, List.sum_cons, price]
    omega

/-- The `out` behind the last `Send`. -/
theorem Inv.out {sendCap : Side → Nat} {s s' : ServerPair σ ε}
    (hi : s.Inv f send sendCap s₀) {nUse : Int} (hanswer : s.answer = some ⟨nUse, []⟩)
    (h : ({ s with answer := none } : ServerPair σ ε).main (.round nUse) = some s') :
    Keeps f send sendCap s₀ s .out s' := by
  have hnow : ({ s with answer := none } : ServerPair σ ε).pair.Inv sendCap := hi.pair
  obtain ⟨hpair, hsession, hanswer', heffects, hserved⟩ := main_cases h
  obtain ⟨t, hmain, hinbox⟩ := main_round hnow h
  replace hmain : s.server.inbox.main = .draining t := hmain
  replace hinbox : s'.server.inbox = s.server.inbox.round t nUse := hinbox
  obtain ⟨hpairInv, hwork⟩ := hnow.step hpair
  obtain ⟨hused, hsend, hdue⟩ := answer_some hanswer
  obtain ⟨hused', hsend', hdue'⟩ := answer_none hanswer'
  obtain ⟨hpos, hshown, -⟩ := hi.answering _ hanswer
  replace hpos : 0 < nUse := hpos
  have hs := hi.served
  rw [hused, hsend] at hs
  have hle : nUse ≤ s.server.inbox.stream.unread.length := by
    have hroom : nUse.toNat ≤ s.server.inbox.stream.unread.length := hs.room
    omega
  obtain ⟨hm, hun, hq⟩ := round_used (t := t) hpos hle
  refine ⟨⟨hpairInv, ?_, fun r hr => ?_, fun _ hseen => ?_⟩, ?_⟩
  · rw [hinbox, hsession, heffects, hserved, hused', hsend']
    exact hs.out (by omega)
  · rw [hanswer'] at hr
    cases hr
  · -- What has come since has not been shown.
    have hunseen : s'.server.unseen = true := by
      show s'.server.inbox.unseen = true
      rw [hinbox, hun]
      exact hshown
    rw [hunseen] at hseen
    cases hseen
  · have hgain : s'.gain send = s.gain send := by
      unfold gain
      rw [hserved, heffects]
    have hpairWork : 0 + s'.pair.work ≤ s.pair.work + 0 := hwork
    rw [hgain, work_eq, work_eq, hinbox, hm, hq, hdue, hdue', hmain]
    show 1 + _ + _ ≤ _ + _ + 0
    omega

/-- Every step. -/
theorem Inv.step (hf : StableSession f) {sendCap : Side → Nat} {s s' : ServerPair σ ε}
    {a : ServerAction} (hi : s.Inv f send sendCap s₀)
    (h : s.step (onBuffer f) send a = some s') : Keeps f send sendCap s₀ s a s' := by
  cases a with
  | net a => exact hi.net h
  | OnRecv =>
      simp only [ServerPair.step] at h
      split at h
      · rename_i t hnone hcall hmain
        split at h
        · rename_i hsends
          rw [received_eq hf] at hsends h
          exact hi.call_out hf rfl hnone hsends h
        · rename_i src rest hsends
          cases h
          rw [received_eq hf] at hsends ⊢
          exact hi.call hf rfl hnone hmain hsends
      · cases h
  | Send =>
      simp only [ServerPair.step] at h
      split at h
      · rename_i nUse src rest hanswer
        exact hi.sent hanswer h
      · cases h
  | out =>
      simp only [ServerPair.step] at h
      split at h
      · rename_i nUse hanswer
        exact hi.out hanswer h
      · cases h

end ServerPair

end Kernel4GameServer
