import Kernel4GameServer.Net.Epoll.Server
import Kernel4GameServer.Proofs.Net.PairDelivery

/-!
# `Kernel4GameServer.Proofs.Net.ServerSteps`: what the session sees of its end

A session sees of its connection what is in `m_oRecvStream`, what it has sent, and the events of
the queue. `Inbox` is that much of an `EdgeState`, and `Inbox.Turn` the moves on it. `inbox_step`
says that every step at an end is one of these moves, of an end alone and of one of a pair.
-/

set_option autoImplicit false

namespace Kernel4GameServer

open Lib

/-- What the session sees of its end. -/
structure Inbox where
  stream : TStream BUFF_SIZE
  taken : List UInt8
  posted : List UInt8
  unseen : Bool
  main : MainPc
  queue : List IoEventType

/-- The inbox of an end. -/
def EdgeState.inbox (st : EdgeState) : Inbox where
  stream := st.conn.pipe.m_oRecvStream
  taken := st.taken
  posted := st.posted
  unseen := st.unseen
  main := st.conn.main
  queue := st.conn.queue

/-- A step of the main thread that the session sees. -/
def EdgeAction.ofMain : EdgeAction → Bool
  | .Send _ | .read | .round _ | .finish => true
  | _ => false

namespace Inbox

/-- A round of the drain loop in which `OnRecv` has returned `nUse`. -/
def round (v : Inbox) (t : IoEventType) (nUse : Int) : Inbox :=
  if v.stream.size > 0 then
    { v with
      stream := if nUse > 0 then v.stream.out nUse else v.stream
      main := if 0 ≠ nUse then .draining t else .drained t
      unseen := if nUse ≠ 0 then v.unseen else false }
  else { v with main := .drained t, unseen := false }

/-- The moves. -/
inductive Turn (v : Inbox) : EdgeAction → Inbox → Prop where
  | stay (a : EdgeAction) : a.ofMain = false → Turn v a v
  | piece (piece : List UInt8) :
      Turn v (.recv (.data piece)) { v with
        stream := v.stream.inBytes (Mem.ofList piece 0) piece.length
        taken := v.taken ++ piece
        unseen := true }
  | add (t : IoEventType) : Turn v .add { v with queue := v.queue ++ [t] }
  | Send (src : List UInt8) : Turn v (.Send src) { v with posted := v.posted ++ src }
  | read (t : IoEventType) (queue : List IoEventType) : v.main = .idle → v.queue = t :: queue →
      Turn v .read { v with main := .draining t, queue }
  | round (t : IoEventType) (nUse : Int) : v.main = .draining t →
      Turn v (.round nUse) (v.round t nUse)
  | finish (t : IoEventType) : v.main = .drained t → Turn v .finish { v with main := .idle }

/-- What has been sent is only added to. -/
theorem Turn.posted {v v' : Inbox} {a : EdgeAction} (h : v.Turn a v') :
    ∃ src, v'.posted = v.posted ++ src := by
  cases h with
  | Send src => exact ⟨src, rfl⟩
  | round t nUse hmain =>
      refine ⟨[], ?_⟩
      unfold Inbox.round
      split <;> exact (List.append_nil _).symm
  | _ => exact ⟨[], (List.append_nil _).symm⟩

end Inbox

namespace EdgeState

/-- A step of the worker that makes no call shows at most as an event. -/
theorem inbox_plain {st st' : EdgeState} {c : ConnAction} {a : EdgeAction}
    (ha : a = .testRecv ∧ c = .testRecv ∨ a = .testSend ∧ c = .testSend ∨
      a = .testClose ∧ c = .testClose ∨ a = .add ∧ c = .add)
    (h : st.plain c = some st') : st.inbox.Turn a st'.inbox := by
  obtain ⟨conn, hconn, rfl⟩ := Option.map_eq_some_iff.mp h
  rcases ha with ⟨rfl, rfl⟩ | ⟨rfl, rfl⟩ | ⟨rfl, rfl⟩ | ⟨rfl, rfl⟩ <;>
    simp only [Connection.step, Connection.workerStep] at hconn <;> split at hconn
  · split at hconn <;> cases hconn <;> exact .stay _ rfl
  · cases hconn
  · split at hconn <;> cases hconn <;> exact .stay _ rfl
  · cases hconn
  · split at hconn
    · cases hconn
      obtain ⟨hqueue, hmain, -⟩ := DoClose_keeps st.conn
      have hstream : st.conn.DoClose.pipe.m_oRecvStream = st.conn.pipe.m_oRecvStream := by
        unfold Connection.DoClose CPipe.DoClose
        split <;> rfl
      simp only [inbox, hqueue, hmain, hstream]
      exact .stay _ rfl
    · cases hconn
      exact .stay _ rfl
  · cases hconn
  · split at hconn <;> cases hconn
    · exact .add _
    · exact .stay _ rfl
  · cases hconn

/-- A `recv` of the worker shows when it brings bytes. -/
theorem inbox_recv {st st' : EdgeState} {result : RecvResult}
    (h : st.step (.recv result) = some st') : st.inbox.Turn (.recv result) st'.inbox := by
  simp only [step] at h
  obtain ⟨sock, hsock, h⟩ := Option.bind_eq_some_iff.mp h
  obtain ⟨conn, hconn, rfl⟩ := Option.map_eq_some_iff.mp h
  simp only [Connection.step, Connection.workerStep] at hconn
  split at hconn
  · cases result with
    | data piece =>
        dsimp only at hconn
        split at hconn
        · cases hconn
          exact .piece piece
        · cases hconn
    | EAGAIN =>
        cases hconn
        exact .stay _ rfl
    | ended =>
        cases hconn
        obtain ⟨hqueue, hmain, -⟩ := DoClose_keeps st.conn
        have hstream : st.conn.DoClose.pipe.m_oRecvStream = st.conn.pipe.m_oRecvStream := by
          unfold Connection.DoClose CPipe.DoClose
          split <;> rfl
        simp only [inbox, hqueue, hmain, hstream]
        exact .stay _ rfl
  · cases hconn

/-- What goes out does not show. -/
theorem inbox_send {st st' : EdgeState} {a : EdgeAction}
    (ha : (∃ result, a = .send result) ∨ ∃ calls, a = .sendLocked calls)
    (h : st.step a = some st') : st.inbox.Turn a st'.inbox := by
  have hsame : st'.inbox = st.inbox := by
    rcases ha with ⟨result, rfl⟩ | ⟨calls, rfl⟩
    · simp only [step] at h
      obtain ⟨sock, hsock, h⟩ := Option.bind_eq_some_iff.mp h
      obtain ⟨conn, hconn, h⟩ := Option.bind_eq_some_iff.mp h
      obtain ⟨⟨r, e⟩, hr, rfl⟩ := Option.map_eq_some_iff.mp h
      simp only [Connection.step, Connection.workerStep] at hconn
      split at hconn
      · rw [hr, Option.map_some, Option.some.injEq] at hconn
        subst hconn
        have hby := CPipe.doSendRound_sentBy hr
        cases e <;> simp only [inbox, hby.recv]
      · cases hconn
    · simp only [step] at h
      obtain ⟨sock, hsock, h⟩ := Option.bind_eq_some_iff.mp h
      obtain ⟨conn, hconn, h⟩ := Option.bind_eq_some_iff.mp h
      obtain ⟨r, hr, rfl⟩ := Option.map_eq_some_iff.mp h
      simp only [Connection.step, Connection.callStep] at hconn
      split at hconn
      · rw [hr, Option.map_some, Option.some.injEq] at hconn
        subst hconn
        have hby := CPipe.sendSection_sentBy hr
        obtain ⟨hc, -, -, ht, hp, -, hun⟩ := modify_keeps
          { st with
            conn := { st.conn with pipe := r.pipe, call := .idle }
            sock
            wire := st.wire ++ r.wire } r.posted
        simp only [inbox, hc, ht, hp, hun, hby.recv]
      · cases hconn
  rw [hsame]
  rcases ha with ⟨result, rfl⟩ | ⟨calls, rfl⟩ <;> exact .stay _ rfl

/-- The unlocked part of `Send` on an established pipe. -/
theorem inbox_Send {st st' : EdgeState} {src : List UInt8}
    (hstatus : st.conn.pipe.m_nStatus = .SS_ESTABLISHED) (h : st.step (.Send src) = some st') :
    st'.inbox = { st.inbox with posted := st.posted ++ src } := by
  simp only [step, plain, Option.map_map] at h
  obtain ⟨conn, hconn, rfl⟩ := Option.map_eq_some_iff.mp h
  simp only [Connection.step, Connection.callStep] at hconn
  split at hconn
  · cases hconn
    dsimp only [Function.comp]
    rw [CPipe.sendIn_accepted hstatus, if_pos hstatus]
    rfl
  · cases hconn

/-- A round of the drain loop. -/
theorem inbox_round {st st' : EdgeState} {nUse : Int} (h : st.step (.round nUse) = some st') :
    ∃ t, st.conn.main = .draining t ∧ st'.inbox = st.inbox.round t nUse := by
  simp only [step, plain, Option.map_map] at h
  obtain ⟨conn, hconn, rfl⟩ := Option.map_eq_some_iff.mp h
  simp only [Connection.step, Connection.mainStep] at hconn
  split at hconn
  · rename_i t hcall hmain
    refine ⟨t, hmain, ?_⟩
    dsimp only [Function.comp]
    split at hconn
    · rename_i hsize
      cases hconn
      unfold Inbox.round
      rw [if_pos (show st.inbox.stream.size > 0 from hsize)]
      by_cases hn : nUse = 0
      · simp [inbox, hn]
      · simp [inbox, hn, hsize]
    · rename_i hsize
      cases hconn
      unfold Inbox.round
      rw [if_neg (show ¬ st.inbox.stream.size > 0 from hsize),
        if_neg (show ¬ (st.conn.pipe.m_oRecvStream.size > 0 ∧ nUse ≠ 0) from fun h => hsize h.1)]
      rfl
  · cases hconn

/-- Every step at an end that nobody closes is a move of the inbox. -/
theorem inbox_step {st st' : EdgeState} {a : EdgeAction} (ho : st.Open) (ha : a.talks = true)
    (h : st.step a = some st') : st.inbox.Turn a st'.inbox := by
  cases a with
  | arrive bs edge => cases ha
  | free k edge => cases ha
  | hangup rst => cases ha
  | event mask =>
      simp only [step] at h
      split at h
      · obtain ⟨conn, hconn, rfl⟩ := Option.map_eq_some_iff.mp h
        simp only [Connection.step, Connection.workerStep] at hconn
        split at hconn
        · split at hconn
          · cases hconn
            exact .stay _ rfl
          · cases hconn
        · cases hconn
      · cases h
  | skip =>
      simp only [step] at h
      split at h
      · cases h
        exact .stay _ rfl
      · cases h
  | recv result => exact inbox_recv h
  | send result => exact inbox_send (.inl ⟨result, rfl⟩) h
  | sendLocked calls => exact inbox_send (.inr ⟨calls, rfl⟩) h
  | closeLocked => cases ha
  | testRecv => exact inbox_plain (.inl ⟨rfl, rfl⟩) h
  | testSend => exact inbox_plain (.inr (.inl ⟨rfl, rfl⟩)) h
  | testClose => exact inbox_plain (.inr (.inr (.inl ⟨rfl, rfl⟩))) h
  | add => exact inbox_plain (.inr (.inr (.inr ⟨rfl, rfl⟩))) h
  | Send src =>
      rw [inbox_Send ho.status h]
      exact .Send src
  | Close => cases ha
  | read =>
      obtain ⟨conn, hconn, rfl⟩ := Option.map_eq_some_iff.mp h
      simp only [Connection.step, Connection.mainStep] at hconn
      split at hconn
      · rename_i t queue hcall hmain hqueue
        cases hconn
        exact .read t queue hmain hqueue
      · cases hconn
  | round nUse =>
      obtain ⟨t, hmain, hround⟩ := inbox_round h
      rw [hround]
      exact .round t nUse hmain
  | finish =>
      obtain ⟨conn, hconn, rfl⟩ := Option.map_eq_some_iff.mp h
      simp only [Connection.step, Connection.mainStep] at hconn
      split at hconn
      · rename_i t hcall hmain
        cases hconn
        exact .finish t hmain
      · cases hconn

end EdgeState

namespace EdgePair

/-- What a step of the pair does to the inbox of an end: a move where it is a step of that end, and
nothing otherwise. -/
theorem inbox_step {sendCap : Side → Nat} {s s' : EdgePair} {a : PairAction}
    (hi : s.Inv sendCap) (h : s.step a = some s') (j : Side) :
    (∃ b, a = .thread j b ∧ (s.ends j).inbox.Turn b (s'.ends j).inbox) ∨
    ((∀ b, a ≠ .thread j b) ∧ (s'.ends j).inbox = (s.ends j).inbox) := by
  cases a with
  | thread i b =>
      simp only [step] at h
      split at h
      · rename_i htalks
        obtain ⟨e, he, rfl⟩ := Option.map_eq_some_iff.mp h
        by_cases hj : j = i
        · subst hj
          refine .inl ⟨b, rfl, ?_⟩
          show (s.ends j).inbox.Turn b (Function.update s.ends j e j).inbox
          rw [Function.update_self]
          exact EdgeState.inbox_step (hi.opened j) htalks he
        · refine .inr ⟨fun b' hb => ?_, ?_⟩
          · cases hb
            exact hj rfl
          · show (Function.update s.ends i e j).inbox = _
            rw [Function.update_of_ne hj]
      · cases h
  | deliver i k freeEdge arriveEdge =>
      refine .inr ⟨(fun b hb => by cases hb), ?_⟩
      simp only [step] at h
      split at h
      · obtain ⟨e, he, h⟩ := Option.bind_eq_some_iff.mp h
        obtain ⟨e', he', rfl⟩ := Option.map_eq_some_iff.mp h
        obtain ⟨sock, -, rfl⟩ := Option.map_eq_some_iff.mp he
        obtain ⟨sock', -, rfl⟩ := Option.map_eq_some_iff.mp he'
        cases i <;> cases j <;> rfl
      · cases h

/-- What an end has sent is only added to. -/
theorem posted_prefix {sendCap : Side → Nat} {s s' : EdgePair} {a : PairAction}
    (hi : s.Inv sendCap) (h : s.step a = some s') (j : Side) :
    (s.ends j).posted <+: (s'.ends j).posted := by
  rcases inbox_step hi h j with ⟨b, -, hturn⟩ | ⟨-, hsame⟩
  · obtain ⟨src, hsrc⟩ := hturn.posted
    exact ⟨src, hsrc.symm⟩
  · have hposted : (s'.ends j).posted = (s.ends j).posted := congrArg Inbox.posted hsame
    exact hposted ▸ List.prefix_rfl

end EdgePair

end Kernel4GameServer
