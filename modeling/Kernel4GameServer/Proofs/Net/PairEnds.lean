import Kernel4GameServer.Net.Epoll.Pair
import Kernel4GameServer.Proofs.Net.NoLostWakeup

/-!
# `Kernel4GameServer.Proofs.Net.PairEnds`: an end of a connection that nobody closes

`EdgeState.Open` is what stays true of an end while nobody closes. `EdgeState.work` counts what is
left to do at it: a byte is worth more the further it is from the `m_oRecvStream` of the other
side, and a report that is due pays for one round of `Run`. `Talk` is what a step of a thread
does to all of this, and `talk_step` that every step does it.

`stuck_end` is the other direction: an end at which no step can be taken that brings bytes on has
received what came, and has sent what there is room for.
-/

set_option autoImplicit false

namespace Kernel4GameServer

open Lib

/-- How far the worker is from `epoll_wait`. -/
def WorkerPc.rank : WorkerPc → Nat
  | .wait => 0
  | .add _ => 1
  | .testClose _ _ => 2
  | .inSend _ _ => 3
  | .testSend _ _ => 4
  | .inRecv _ _ => 5
  | .testRecv _ => 6

/-- The report that the worker goes through says that the connection is broken. -/
def WorkerPc.sawError : WorkerPc → Bool
  | .testRecv mask => mask.hasError
  | .inRecv mask _ => mask.hasError
  | .testSend mask _ => mask.hasError
  | .inSend mask _ => mask.hasError
  | .testClose mask _ => mask.hasError
  | _ => false

/-- What a step puts in. -/
def EdgeAction.cost : EdgeAction → Nat
  | .Send src => 17 * src.length + 1
  | _ => 0

/-- What a socket that is not broken and not freed of anything keeps in a section that sends. -/
structure Socket.Sends (s s' : Socket) (w : List UInt8) : Prop where
  room : s'.room + w.length = s.room
  recvBuf : s'.recvBuf = s.recvBuf
  ended : s'.ended = s.ended
  broken : s'.broken = s.broken
  ready : s'.ready = s.ready

/-- A report takes no more from an edge-triggered socket than that it is due. -/
theorem Socket.reported_of_edge {s : Socket} (h : s.interest = .edge) :
    s.reported = { s with ready := false } := by
  cases s
  cases h
  rfl

/-- A `send` that accepts `k` bytes or says EAGAIN. -/
theorem Socket.sends_send {s s' : Socket} {result : SendResult} (hb : s.broken = false)
    (h : s.send result = some s') :
    (∃ k, result = .sent k ∧ ∀ w : List UInt8, w.length = k → s.Sends s' w) ∨
      result = .EAGAIN ∧ s.Sends s' [] := by
  unfold Socket.send at h
  cases result with
  | sent k =>
      dsimp only at h
      split at h
      · rename_i hroom
        cases h
        refine .inl ⟨k, rfl, fun w hw => ⟨?_, rfl, rfl, rfl, rfl⟩⟩
        show s.room - k + w.length = s.room
        omega
      · cases h
  | EAGAIN =>
      dsimp only at h
      split at h
      · cases h
        exact .inr ⟨rfl, rfl, rfl, rfl, rfl, rfl⟩
      · cases h
  | failed =>
      dsimp only at h
      rw [hb] at h
      cases h

/-- The loop of `Send` on an established pipe, on a socket that stays as it is between the
calls. -/
theorem CPipe.sendLoop_sends {calls : List SendCall} :
    ∀ {p : CPipe} {s s' : Socket} {r : Sent}, calls.all (·.freed.isNone) = true →
      s.broken = false → p.m_nStatus = .SS_ESTABLISHED → p.sendLoopOn s calls = some s' →
      p.sendLoop (calls.map (·.result)) = some r → s.Sends s' r.wire ∧ r.posted = [] := by
  have hdone : ∀ {p : CPipe} {s : Socket}, p.m_nStatus = .SS_ESTABLISHED →
      s.Sends s p.sendDone.wire ∧ p.sendDone.posted = [] := by
    intro p s hstatus
    have hno : p.m_nStatus ≠ .SS_WAITCLOSE := by rw [hstatus]; decide
    unfold sendDone
    rw [if_neg hno]
    exact ⟨⟨rfl, rfl, rfl, rfl, rfl⟩, rfl⟩
  induction calls with
  | nil =>
      intro p s s' r _ _ hstatus hs hr
      simp only [List.map_nil, sendLoop] at hr
      split at hr
      · cases hr
      · cases hr
        cases hs
        exact hdone hstatus
  | cons c calls ih =>
      intro p s s' r hall hb hstatus hs hr
      simp only [List.map_cons, sendLoop] at hr
      simp only [sendLoopOn] at hs
      rw [List.all_cons, Bool.and_eq_true, Option.isNone_iff_eq_none] at hall
      split at hr
      · rename_i hsize
        rw [if_pos hsize] at hs
        obtain ⟨u, hu, hs⟩ := Option.bind_eq_some_iff.mp hs
        have hsend : s.send c.result = some u := by
          unfold SendCall.on at hu
          rw [hall.1] at hu
          exact hu
        rcases Socket.sends_send hb hsend with ⟨k, hk, hsends⟩ | ⟨he, hsends⟩
        · rw [hk] at hs hr
          dsimp only at hs hr
          split at hr
          · obtain ⟨r', hr', rfl⟩ := Option.map_eq_some_iff.mp hr
            have hslice : (Mem.slice p.m_oSendStream.buff 0 k).length = k := Mem.length_slice _ _ _
            have hfirst := hsends _ hslice
            obtain ⟨hrest, hposted⟩ := ih (p := p.sendOut k) (r := r') hall.2
              (hfirst.broken.trans hb) hstatus hs hr'
            refine ⟨⟨?_, hrest.recvBuf.trans hfirst.recvBuf, hrest.ended.trans hfirst.ended,
              hrest.broken.trans hfirst.broken, hrest.ready.trans hfirst.ready⟩, hposted⟩
            have h1 := hfirst.room
            have h2 := hrest.room
            rw [hslice] at h1
            show s'.room + (Mem.slice p.m_oSendStream.buff 0 k ++ r'.wire).length = s.room
            rw [List.length_append, hslice]
            omega
          · cases hr
        · rw [he] at hs hr
          cases hr
          cases hs
          exact ⟨hsends, rfl⟩
      · rename_i hsize
        rw [if_neg hsize] at hs
        cases hr
        cases hs
        exact hdone hstatus

namespace EdgeState

/-- An end of a connection that nobody closes. -/
structure Open (st : EdgeState) : Prop where
  registered : st.conn.registered = true
  status : st.conn.pipe.m_nStatus = .SS_ESTABLISHED
  ended : st.sock.ended = false
  broken : st.sock.broken = false
  call : st.conn.call ≠ .closing
  sawError : st.conn.worker.sawError = false

/-- What is left to do at an end. -/
def work (st : EdgeState) : Nat :=
  17 * st.conn.pipe.m_oSendStream.unread.length + st.sock.recvBuf.length +
    7 * st.sock.ready.toNat + st.conn.worker.rank + (decide (st.conn.call = .sending)).toNat

/-- What a step of a thread does at its end: the bytes `w` go out. -/
structure Talk (st st' : EdgeState) (a : EdgeAction) (w : List UInt8) : Prop where
  still : st'.Open
  arrived : st'.arrived = st.arrived
  wire : st'.wire = st.wire ++ w
  room : st'.sock.room + w.length = st.sock.room
  work : a.moves.toNat + st'.work + 16 * w.length ≤ st.work + a.cost

/-- A step of the worker that makes no call brings it nearer to `epoll_wait`. -/
theorem talk_tests {st st' : EdgeState} {a : EdgeAction} {c : ConnAction}
    (ha : a = .testRecv ∧ c = .testRecv ∨ a = .testSend ∧ c = .testSend ∨
      a = .testClose ∧ c = .testClose ∨ a = .add ∧ c = .add) (ho : st.Open)
    (h : st.plain c = some st') : st.Talk st' a [] := by
  obtain ⟨conn, hconn, rfl⟩ := Option.map_eq_some_iff.mp h
  have hsaw := ho.sawError
  have hmove : conn.pipe = st.conn.pipe ∧ conn.registered = st.conn.registered ∧
      conn.call = st.conn.call ∧ conn.worker.rank + 1 ≤ st.conn.worker.rank ∧
      conn.worker.sawError = false := by
    rcases ha with ⟨-, rfl⟩ | ⟨-, rfl⟩ | ⟨-, rfl⟩ | ⟨-, rfl⟩ <;>
      simp only [Connection.step, Connection.workerStep] at hconn <;> split at hconn
    · rename_i mask hw
      rw [hw] at hsaw ⊢
      split at hconn <;> cases hconn <;>
        exact ⟨rfl, rfl, rfl, by simp only [WorkerPc.rank]; omega, hsaw⟩
    · cases hconn
    · rename_i mask t hw
      rw [hw] at hsaw ⊢
      split at hconn <;> cases hconn <;>
        exact ⟨rfl, rfl, rfl, by simp only [WorkerPc.rank]; omega, hsaw⟩
    · cases hconn
    · rename_i mask t hw
      rw [hw] at hsaw ⊢
      -- No report was of an error, so the pipe is not closed here.
      rw [if_neg fun hand => by rw [show mask.hasError = false from hsaw] at hand; cases hand.1]
        at hconn
      cases hconn
      exact ⟨rfl, rfl, rfl, by simp only [WorkerPc.rank]; omega, rfl⟩
    · cases hconn
    · rename_i t hw
      rw [hw]
      split at hconn <;> cases hconn <;>
        exact ⟨rfl, rfl, rfl, by simp only [WorkerPc.rank]; omega, rfl⟩
    · cases hconn
  obtain ⟨hpipe, hreg, hcall, hrank, hsaw'⟩ := hmove
  refine ⟨⟨hreg.trans ho.registered, by rw [hpipe]; exact ho.status, ho.ended, ho.broken,
    by rw [hcall]; exact ho.call, hsaw'⟩, rfl, (List.append_nil _).symm, rfl, ?_⟩
  have hmoves : a.moves = true ∧ a.cost = 0 := by
    rcases ha with ⟨rfl, -⟩ | ⟨rfl, -⟩ | ⟨rfl, -⟩ | ⟨rfl, -⟩ <;> exact ⟨rfl, rfl⟩
  rw [hmoves.1, hmoves.2]
  unfold EdgeState.work
  simp only [hpipe, hcall, Bool.toNat_true, List.length_nil]
  omega

/-- `epoll_wait` reports the socket. The report pays for the round of `Run` that it begins. -/
theorem talk_event {st st' : EdgeState} {mask : EpollFlags} (ho : st.Open)
    (hint : st.sock.interest = .edge) (h : st.step (.event mask) = some st') :
    st.Talk st' (.event mask) [] := by
  simp only [step] at h
  split at h
  · rename_i hready
    obtain ⟨conn, hconn, rfl⟩ := Option.map_eq_some_iff.mp h
    simp only [Connection.step, Connection.workerStep] at hconn
    split at hconn
    · rename_i hw
      split at hconn
      · cases hconn
        have hsock := Socket.reported_of_edge hint
        have herr : mask.hasError = false := by
          have hrep := hready.2
          simp only [Socket.reports, Bool.and_eq_true, decide_eq_true_eq] at hrep
          exact hrep.1.1.trans ho.broken
        refine ⟨⟨ho.registered, ho.status, ?_, ?_, ho.call, herr⟩, rfl,
          (List.append_nil _).symm, ?_, ?_⟩
        · show st.sock.reported.ended = false
          rw [hsock]
          exact ho.ended
        · show st.sock.reported.broken = false
          rw [hsock]
          exact ho.broken
        · show st.sock.reported.room + 0 = st.sock.room
          rw [hsock]
          rfl
        · unfold EdgeState.work
          simp only [hsock, hw, hready.1, WorkerPc.rank, EdgeAction.moves, EdgeAction.talks,
            EdgeAction.cost, Bool.toNat_true, Bool.toNat_false, List.length_nil]
          omega
      · cases hconn
    · cases hconn
  · cases h

/-- `epoll_wait` finds nothing to report. -/
theorem talk_skip {st st' : EdgeState} (ho : st.Open) (h : st.step .skip = some st') :
    st.Talk st' .skip [] := by
  simp only [step] at h
  split at h
  · rename_i hready
    cases h
    refine ⟨⟨ho.registered, ho.status, ho.ended, ho.broken, ho.call, ho.sawError⟩, rfl,
      (List.append_nil _).symm, rfl, ?_⟩
    unfold EdgeState.work
    simp only [hready.2.1, EdgeAction.moves, EdgeAction.talks, EdgeAction.cost, Bool.toNat_true,
      Bool.toNat_false, List.length_nil]
    omega
  · cases h

/-- A `recv` of the worker. -/
theorem talk_recv {st st' : EdgeState} {result : RecvResult} (ho : st.Open)
    (h : st.step (.recv result) = some st') : st.Talk st' (.recv result) [] := by
  simp only [step] at h
  obtain ⟨sock, hsock, h⟩ := Option.bind_eq_some_iff.mp h
  obtain ⟨conn, hconn, rfl⟩ := Option.map_eq_some_iff.mp h
  simp only [Connection.step, Connection.workerStep] at hconn
  split at hconn
  · rename_i mask n hw
    have hsaw := ho.sawError
    rw [hw] at hsaw
    cases result with
    | data piece =>
        dsimp only at hconn
        split at hconn
        · rename_i hlen
          cases hconn
          simp only [Socket.recv] at hsock
          split at hsock
          · rename_i hpre
            cases hsock
            refine ⟨⟨ho.registered, ho.status, ho.ended, ho.broken, ho.call, hsaw⟩, rfl,
              (List.append_nil _).symm, rfl, ?_⟩
            have hle := hpre.2.length_le
            unfold EdgeState.work
            simp only [hw, WorkerPc.rank, EdgeAction.moves, EdgeAction.talks, EdgeAction.cost,
              Bool.toNat_true, List.length_drop, List.length_nil]
            omega
          · cases hsock
        · cases hconn
    | EAGAIN =>
        cases hconn
        simp only [Socket.recv] at hsock
        split at hsock
        · cases hsock
          refine ⟨⟨ho.registered, ho.status, ho.ended, ho.broken, ho.call, hsaw⟩, rfl,
            (List.append_nil _).symm, rfl, ?_⟩
          unfold EdgeState.work
          simp only [hw, WorkerPc.rank, EdgeAction.moves, EdgeAction.talks, EdgeAction.cost,
            Bool.toNat_true, List.length_nil]
          omega
        · cases hsock
    | ended =>
        -- The stream has no end yet.
        obtain ⟨-, hend⟩ := Socket.recv_ended hsock
        rw [ho.ended, ho.broken] at hend
        rcases hend with hend | hend <;> cases hend
  · cases hconn

/-- An iteration of `DoSend`. -/
theorem talk_send {st st' : EdgeState} {result : SendResult} (hi : st.Inv) (ho : st.Open)
    (h : st.step (.send result) = some st') : ∃ w, st.Talk st' (.send result) w := by
  simp only [step] at h
  obtain ⟨sock, hsock, h⟩ := Option.bind_eq_some_iff.mp h
  obtain ⟨conn, hconn, h⟩ := Option.bind_eq_some_iff.mp h
  obtain ⟨⟨r, e⟩, hr, rfl⟩ := Option.map_eq_some_iff.mp h
  simp only [Connection.step, Connection.workerStep] at hconn
  split at hconn
  · rename_i mask t hw
    rw [hr, Option.map_some, Option.some.injEq] at hconn
    have hsaw := ho.sawError
    rw [hw] at hsaw
    have hby := CPipe.doSendRound_sentBy hr
    have hlength : r.wire.length + r.pipe.m_oSendStream.unread.length
        = st.conn.pipe.m_oSendStream.unread.length := by
      rw [← List.length_append, hby.bytes hi.wf]
    -- The socket, and whether the worker is done: it stays only when something went out.
    have hsends : st.sock.Sends sock r.wire ∧ (e = .again → 0 < r.wire.length) := by
      unfold CPipe.doSendRound at hr
      dsimp only at hr
      split at hr
      · rename_i hsize
        rw [if_pos hsize] at hsock
        rcases Socket.sends_send ho.broken hsock with ⟨k, rfl, hk⟩ | ⟨rfl, hnone⟩
        · dsimp only at hr
          split at hr
          · rename_i hpos
            cases hr
            have hslice : (Mem.slice st.conn.pipe.m_oSendStream.buff 0 k).length = k :=
              Mem.length_slice _ _ _
            exact ⟨hk _ hslice, fun _ => by rw [hslice]; exact hpos.1⟩
          · cases hr
        · cases hr
          exact ⟨hnone, fun he => by cases he⟩
      · rename_i hsize
        rw [if_neg hsize, Option.some.injEq] at hsock
        subst hsock
        split at hr <;> cases hr <;>
          exact ⟨⟨rfl, rfl, rfl, rfl, rfl⟩, fun he => by cases he⟩
    have hworker : conn.pipe = r.pipe ∧ conn.registered = st.conn.registered ∧
        conn.call = st.conn.call ∧ conn.worker.sawError = false ∧
        1 + conn.worker.rank ≤ st.conn.worker.rank + r.wire.length := by
      rw [hw]
      subst hconn
      cases e with
      | again =>
          refine ⟨rfl, rfl, rfl, ho.sawError, ?_⟩
          show 1 + st.conn.worker.rank ≤ _
          have := hsends.2 rfl
          rw [hw]
          omega
      | returned type =>
          refine ⟨rfl, rfl, rfl, hsaw, ?_⟩
          show 1 + 2 ≤ 3 + r.wire.length
          omega
    obtain ⟨hpipe, hreg, hcall, hsaw', hrank⟩ := hworker
    obtain ⟨hsock', -⟩ := hsends
    refine ⟨r.wire, ⟨hreg.trans ho.registered, ?_, hsock'.ended.trans ho.ended,
      hsock'.broken.trans ho.broken, by rw [hcall]; exact ho.call, hsaw'⟩, rfl, rfl,
      hsock'.room, ?_⟩
    · show conn.pipe.m_nStatus = .SS_ESTABLISHED
      rw [hpipe, hby.status]
      exact ho.status
    · unfold EdgeState.work
      simp only [hpipe, hcall, hsock'.recvBuf, hsock'.ready, EdgeAction.moves, EdgeAction.talks,
        EdgeAction.cost, Bool.toNat_true]
      omega
  · cases hconn

/-- The locked section of `Send`. -/
theorem talk_sendLocked {st st' : EdgeState} {calls : List SendCall} (hi : st.Inv)
    (ho : st.Open) (hall : calls.all (·.freed.isNone) = true)
    (h : st.step (.sendLocked calls) = some st') : ∃ w, st.Talk st' (.sendLocked calls) w := by
  simp only [step] at h
  obtain ⟨sock, hsock, h⟩ := Option.bind_eq_some_iff.mp h
  obtain ⟨conn, hconn, h⟩ := Option.bind_eq_some_iff.mp h
  obtain ⟨r, hr, rfl⟩ := Option.map_eq_some_iff.mp h
  simp only [Connection.step, Connection.callStep] at hconn
  split at hconn
  · rename_i hcall
    rw [hr, Option.map_some, Option.some.injEq] at hconn
    subst hconn
    have hby := CPipe.sendSection_sentBy hr
    have hlength : r.wire.length + r.pipe.m_oSendStream.unread.length
        = st.conn.pipe.m_oSendStream.unread.length := by
      rw [← List.length_append, hby.bytes hi.wf]
    have hsends : st.sock.Sends sock r.wire ∧ r.posted = [] := by
      unfold CPipe.sendSectionOn at hsock
      unfold CPipe.sendSection at hr
      split at hr
      · rename_i hneed
        rw [if_pos hneed] at hsock
        exact CPipe.sendLoop_sends hall ho.broken ho.status hsock hr
      · rename_i hneed
        rw [if_neg hneed] at hsock
        cases hr
        cases hsock
        exact ⟨⟨rfl, rfl, rfl, rfl, rfl⟩, rfl⟩
    obtain ⟨hsock', hposted⟩ := hsends
    have hmodify : ∀ s : EdgeState, s.modify r.posted = s := fun s => by
      rw [hposted]
      unfold modify
      split <;> rfl
    rw [hmodify]
    refine ⟨r.wire, ⟨ho.registered, hby.status.trans ho.status, hsock'.ended.trans ho.ended,
      hsock'.broken.trans ho.broken, (fun hc => by cases hc), ho.sawError⟩, rfl, rfl,
      hsock'.room, ?_⟩
    have hmoves : (EdgeAction.sendLocked calls).moves.toNat ≤ 1 := Bool.toNat_le _
    unfold EdgeState.work
    simp only [hcall, hsock'.recvBuf, hsock'.ready, EdgeAction.cost, decide_true, Bool.toNat_true,
      show decide (SendMain.idle = SendMain.sending) = false from rfl, Bool.toNat_false]
    omega
  · cases hconn

/-- The unlocked part of `Send` puts its bytes in. -/
theorem talk_Send {st st' : EdgeState} {src : List UInt8} (hi : st.Inv) (ho : st.Open)
    (h : st.step (.Send src) = some st') : st.Talk st' (.Send src) [] := by
  simp only [step, plain, Option.map_map] at h
  obtain ⟨conn, hconn, rfl⟩ := Option.map_eq_some_iff.mp h
  simp only [Connection.step, Connection.callStep] at hconn
  split at hconn
  · rename_i hcall
    cases hconn
    dsimp only [Function.comp]
    rw [CPipe.sendIn_accepted ho.status, if_pos ho.status]
    refine ⟨⟨ho.registered, ho.status, ho.ended, ho.broken, (fun hc => by cases hc),
      ho.sawError⟩, rfl, (List.append_nil _).symm, rfl, ?_⟩
    have hunread := TStream.inBytes_unread BUFF_SIZE_pos hi.wf (Mem.ofList src 0)
      (Int.natCast_nonneg src.length)
    rw [Int.toNat_natCast, Mem.slice_ofList] at hunread
    unfold EdgeState.work
    simp only [hunread, hcall, EdgeAction.moves, EdgeAction.cost, Bool.toNat_false,
      List.length_append, List.length_nil, if_true, decide_true, Bool.toNat_true,
      show decide (SendMain.idle = SendMain.sending) = false from rfl]
    omega
  · cases hconn

/-- A step of the main thread in `Processing`. -/
theorem talk_main {st st' : EdgeState} {a : EdgeAction} (ho : st.Open)
    (ha : a = .read ∨ (∃ nUse, a = .round nUse) ∨ a = .finish) (h : st.step a = some st') :
    st.Talk st' a [] := by
  have hsame : st'.sock = st.sock ∧ st'.arrived = st.arrived ∧ st'.wire = st.wire ∧
      st'.conn.pipe.m_oSendStream = st.conn.pipe.m_oSendStream ∧
      st'.conn.pipe.m_nStatus = st.conn.pipe.m_nStatus ∧
      st'.conn.registered = st.conn.registered ∧ st'.conn.call = st.conn.call ∧
      st'.conn.worker = st.conn.worker := by
    rcases ha with rfl | ⟨nUse, rfl⟩ | rfl
    · obtain ⟨conn, hconn, rfl⟩ := Option.map_eq_some_iff.mp h
      simp only [Connection.step, Connection.mainStep] at hconn
      split at hconn <;> cases hconn
      exact ⟨rfl, rfl, rfl, rfl, rfl, rfl, rfl, rfl⟩
    · simp only [step, plain, Option.map_map] at h
      obtain ⟨conn, hconn, rfl⟩ := Option.map_eq_some_iff.mp h
      dsimp only [Function.comp]
      simp only [Connection.step, Connection.mainStep] at hconn
      split at hconn
      · split at hconn <;> cases hconn <;> split <;>
          exact ⟨rfl, rfl, rfl, rfl, rfl, rfl, rfl, rfl⟩
      · cases hconn
    · obtain ⟨conn, hconn, rfl⟩ := Option.map_eq_some_iff.mp h
      simp only [Connection.step, Connection.mainStep] at hconn
      split at hconn <;> cases hconn
      exact ⟨rfl, rfl, rfl, rfl, rfl, rfl, rfl, rfl⟩
  obtain ⟨hsock, harrived, hwire, hstream, hstatus, hreg, hcall, hworker⟩ := hsame
  have hfree : a.moves = false := by
    rcases ha with rfl | ⟨nUse, rfl⟩ | rfl <;> rfl
  refine ⟨⟨hreg.trans ho.registered, hstatus.trans ho.status, by rw [hsock]; exact ho.ended,
    by rw [hsock]; exact ho.broken, by rw [hcall]; exact ho.call,
    by rw [hworker]; exact ho.sawError⟩, harrived, by rw [hwire, List.append_nil],
    by rw [hsock]; rfl, ?_⟩
  unfold EdgeState.work
  rw [hfree, hstream, hsock, hworker, hcall]
  simp only [Bool.toNat_false, List.length_nil]
  omega

/-- Every step of a thread at an end that only talks. -/
theorem talk_step {st st' : EdgeState} {a : EdgeAction} (hi : st.Inv) (ho : st.Open)
    (ha : a.talks = true) (h : st.step a = some st') : ∃ w, st.Talk st' a w := by
  have hint : st.sock.interest = .edge :=
    hi.waits.edge_of_established ⟨ho.registered, ho.broken⟩ ho.status
  cases a with
  | arrive bs edge => cases ha
  | free k edge => cases ha
  | hangup rst => cases ha
  | event mask => exact ⟨[], talk_event ho hint h⟩
  | skip => exact ⟨[], talk_skip ho h⟩
  | recv result => exact ⟨[], talk_recv ho h⟩
  | send result => exact talk_send hi ho h
  | sendLocked calls => exact talk_sendLocked hi ho ha h
  | closeLocked => cases ha
  | testRecv => exact ⟨[], talk_tests (.inl ⟨rfl, rfl⟩) ho h⟩
  | testSend => exact ⟨[], talk_tests (.inr (.inl ⟨rfl, rfl⟩)) ho h⟩
  | testClose => exact ⟨[], talk_tests (.inr (.inr (.inl ⟨rfl, rfl⟩))) ho h⟩
  | add => exact ⟨[], talk_tests (.inr (.inr (.inr ⟨rfl, rfl⟩))) ho h⟩
  | Send src => exact ⟨[], talk_Send hi ho h⟩
  | Close => cases ha
  | read => exact ⟨[], talk_main ho (.inl rfl) h⟩
  | round nUse => exact ⟨[], talk_main ho (.inr (.inl ⟨nUse, rfl⟩)) h⟩
  | finish => exact ⟨[], talk_main ho (.inr (.inr rfl)) h⟩

/-! ### What can be done -/

/-- `out` of what `send` accepted. -/
theorem sendOut_size {p : CPipe} {k : Nat} (h : (k : Int) ≤ p.m_oSendStream.size) :
    (p.sendOut k).m_oSendStream.size = p.m_oSendStream.size - k := by
  unfold TStream.size at h ⊢
  show (p.m_oSendStream.out k).m_write - (p.m_oSendStream.out k).m_read = _
  unfold TStream.out
  rw [if_neg (by omega)]
  dsimp only
  omega

/-- The locked section of `Send` can always be gone through. -/
theorem sendSection_possible (p : CPipe) {s : Socket} (hb : s.broken = false) :
    ∃ calls : List SendCall, calls.all (·.freed.isNone) = true ∧
      (p.sendSectionOn s calls).isSome = true ∧
      (p.sendSection (calls.map (·.result))).isSome = true := by
  by_cases hneed : p.m_bNeedSend = true
  · by_cases hsize : p.m_oSendStream.size > 0
    · by_cases hroom : s.room = 0
      · -- EAGAIN at once.
        refine ⟨[⟨none, .EAGAIN⟩], rfl, ?_, ?_⟩
        · simp [CPipe.sendSectionOn, hneed, CPipe.sendLoopOn, hsize, SendCall.on, Socket.send,
            Socket.writable, hroom, hb]
        · simp [CPipe.sendSection, hneed, CPipe.sendLoop, hsize]
      · by_cases hfits : p.m_oSendStream.size ≤ s.room
        · -- Everything goes out in one call.
          have hk : ((p.m_oSendStream.size.toNat : Nat) : Int) = p.m_oSendStream.size := by omega
          have hnone : ¬ (p.sendOut p.m_oSendStream.size.toNat).m_oSendStream.size > 0 := by
            rw [sendOut_size (by omega)]
            omega
          refine ⟨[⟨none, .sent p.m_oSendStream.size.toNat⟩], rfl, ?_, ?_⟩
          · simp [CPipe.sendSectionOn, hneed, CPipe.sendLoopOn, hsize, SendCall.on, Socket.send,
              hb, hfits]
          · have hpos : 0 < p.m_oSendStream.size.toNat ∧
                ((p.m_oSendStream.size.toNat : Nat) : Int) ≤ p.m_oSendStream.size := by omega
            simp only [List.map_cons, List.map_nil, CPipe.sendSection, hneed, if_true,
              CPipe.sendLoop, hsize, if_pos hpos, if_neg hnone]
            rfl
        · -- As much as there is room for, and EAGAIN.
          have hk : ((s.room : Nat) : Int) ≤ p.m_oSendStream.size := by omega
          have hsome : (p.sendOut s.room).m_oSendStream.size > 0 := by
            rw [sendOut_size hk]
            omega
          refine ⟨[⟨none, .sent s.room⟩, ⟨none, .EAGAIN⟩], rfl, ?_, ?_⟩
          · simp [CPipe.sendSectionOn, hneed, CPipe.sendLoopOn, hsize, hsome, SendCall.on,
              Socket.send, Socket.writable, hb]
          · have hpos : 0 < s.room ∧ ((s.room : Nat) : Int) ≤ p.m_oSendStream.size := by omega
            simp only [List.map_cons, List.map_nil, CPipe.sendSection, hneed, if_true,
              CPipe.sendLoop, hsize, hsome, if_pos hpos]
            rfl
    · refine ⟨[], rfl, ?_, ?_⟩
      · simp [CPipe.sendSectionOn, CPipe.sendLoopOn]
      · simp [CPipe.sendSection, hneed, CPipe.sendLoop, hsize]
  · refine ⟨[], rfl, ?_, ?_⟩
    · simp [CPipe.sendSectionOn, CPipe.sendLoopOn]
    · simp [CPipe.sendSection, hneed]

/-- Away from `epoll_wait` the worker can go on. -/
theorem worker_possible {st : EdgeState} (ho : st.Open) (hw : st.conn.worker ≠ .wait) :
    ∃ a : EdgeAction, a.moves = true ∧ (st.step a).isSome = true := by
  cases hworker : st.conn.worker with
  | wait => exact absurd hworker hw
  | testRecv mask =>
      refine ⟨.testRecv, rfl, ?_⟩
      simp only [step, plain, Connection.step, Connection.workerStep, hworker]
      split <;> rfl
  | inRecv mask n =>
      by_cases hbuf : st.sock.recvBuf = []
      · refine ⟨.recv .EAGAIN, rfl, ?_⟩
        simp [step, Socket.recv, Socket.readable, hbuf, ho.ended, ho.broken, Connection.step,
          Connection.workerStep, hworker]
      · refine ⟨.recv (.data st.sock.recvBuf), rfl, ?_⟩
        simp [step, Socket.recv, ho.broken, Connection.step, Connection.workerStep, hworker,
          List.length_pos_of_ne_nil hbuf]
  | testSend mask t =>
      refine ⟨.testSend, rfl, ?_⟩
      simp only [step, plain, Connection.step, Connection.workerStep, hworker]
      split <;> rfl
  | inSend mask t =>
      by_cases hsize : st.conn.pipe.m_oSendStream.size > 0
      · by_cases hroom : st.sock.room = 0
        · refine ⟨.send .EAGAIN, rfl, ?_⟩
          simp [step, hsize, Socket.send, Socket.writable, hroom, ho.broken, Connection.step,
            Connection.workerStep, hworker, CPipe.doSendRound]
        · have hone : 1 ≤ st.sock.room := by omega
          have hsize' : (1 : Int) ≤ st.conn.pipe.m_oSendStream.size := by omega
          refine ⟨.send (.sent 1), rfl, ?_⟩
          simp [step, hsize, Socket.send, hone, ho.broken, Connection.step,
            Connection.workerStep, hworker, CPipe.doSendRound, hsize']
      · refine ⟨.send .EAGAIN, rfl, ?_⟩
        have hround : ∃ r, st.conn.pipe.doSendRound .EAGAIN = some r := by
          unfold CPipe.doSendRound
          rw [if_neg hsize]
          split <;> exact ⟨_, rfl⟩
        obtain ⟨r, hr⟩ := hround
        simp [step, hsize, Connection.step, Connection.workerStep, hworker, hr]
  | testClose mask t =>
      refine ⟨.testClose, rfl, ?_⟩
      simp only [step, plain, Connection.step, Connection.workerStep, hworker]
      split <;> rfl
  | add t =>
      refine ⟨.add, rfl, ?_⟩
      simp only [step, plain, Connection.step, Connection.workerStep, hworker]
      split <;> rfl

/-- In `epoll_wait`, a report that is due is given, or is found to be of nothing. -/
theorem report_possible {st : EdgeState} (hi : st.Inv) (ho : st.Open)
    (hw : st.conn.worker = .wait) (hready : st.sock.ready = true) :
    ∃ a : EdgeAction, a.moves = true ∧ (st.step a).isSome = true := by
  have hint : st.sock.interest = .edge :=
    hi.waits.edge_of_established ⟨ho.registered, ho.broken⟩ ho.status
  by_cases hquiet : st.sock.quiet = true
  · exact ⟨.skip, rfl, by simp [step, hw, hready, hquiet]⟩
  · refine ⟨.event { EPOLLIN := st.sock.readable, EPOLLOUT := st.sock.writable }, rfl, ?_⟩
    have hsome : st.sock.readable = true ∨ st.sock.writable = true := by
      unfold Socket.quiet at hquiet
      rw [hint] at hquiet
      cases hr : st.sock.readable <;> cases hwr : st.sock.writable <;> simp_all
    have hreports : st.sock.reports
        { EPOLLIN := st.sock.readable, EPOLLOUT := st.sock.writable } = true := by
      unfold Socket.reports
      rw [hint]
      simp [EpollFlags.hasError, ho.broken, hsome]
    simp [step, hready, hreports, Connection.step, Connection.workerStep, hw, ho.registered]

/-- Inside `Send` the main thread can go on. -/
theorem sendLocked_possible {st : EdgeState} (ho : st.Open) (hc : st.conn.call = .sending) :
    ∃ a : EdgeAction, a.moves = true ∧ (st.step a).isSome = true := by
  obtain ⟨calls, hall, hon, hsection⟩ := sendSection_possible st.conn.pipe ho.broken
  refine ⟨.sendLocked calls, hall, ?_⟩
  obtain ⟨s, hs⟩ := Option.isSome_iff_exists.mp hon
  obtain ⟨r, hr⟩ := Option.isSome_iff_exists.mp hsection
  simp [step, hs, Connection.step, Connection.callStep, hc, hr]

/-- A step on the way of bytes is one of a thread that talks. -/
theorem talks_of_moves {a : EdgeAction} (h : a.moves = true) : a.talks = true := by
  cases a <;> first | exact h | cases h

/-- An end at which nothing can be done is quiet. -/
theorem quiet_of_stuck {st : EdgeState} (hi : st.Inv) (ho : st.Open)
    (hstuck : ∀ a : EdgeAction, a.moves = true → st.step a = none) : st.Quiet := by
  have hno : ∀ {P : Prop}, (∃ a : EdgeAction, a.moves = true ∧ (st.step a).isSome = true) → P :=
    fun ⟨a, ha, hsome⟩ => by
      rw [hstuck a ha] at hsome
      cases hsome
  have hwait : st.conn.worker = .wait := by
    by_contra hw
    exact hno (worker_possible ho hw)
  have hready : st.sock.ready = false :=
    Bool.eq_false_iff.mpr fun hr => hno (report_possible hi ho hwait hr)
  have hidle : st.conn.call = .idle := by
    cases hc : st.conn.call with
    | idle => rfl
    | sending => exact hno (sendLocked_possible ho hc)
    | closing => exact absurd hc ho.call
  exact ⟨hwait, hready, hidle⟩

/-- It has received what came, and has sent what there is room for. -/
theorem stuck_end {st : EdgeState} (hi : st.Inv) (ho : st.Open)
    (hstuck : ∀ a : EdgeAction, a.moves = true → st.step a = none) :
    st.taken = st.arrived ∧ st.sock.recvBuf = [] ∧
      (st.sock.room ≠ 0 → st.wire = st.posted) := by
  obtain ⟨htaken, -, -, hroom⟩ :=
    (hi.quiet (quiet_of_stuck hi ho hstuck) ho.registered ho.broken).1 ho.status
  have hbuf : st.sock.recvBuf = [] := by
    have hall := hi.received
    rw [htaken] at hall
    exact List.self_eq_append_right.mp hall
  refine ⟨htaken, hbuf, fun hne => ?_⟩
  have hnil : st.conn.pipe.m_oSendStream.unread = [] := by
    by_contra hpend
    exact hne (hroom hpend).1
  rw [hi.sent, hnil, List.append_nil]

/-- A quiet end has nothing to do. -/
theorem stuck_of_quiet {st : EdgeState} (hq : st.Quiet) {a : EdgeAction} (ha : a.moves = true) :
    st.step a = none := by
  obtain ⟨hwait, hready, hidle⟩ := hq
  cases a with
  | event mask => simp [step, hready]
  | skip => simp [step, hready]
  | recv result => simp [step, Connection.step, Connection.workerStep, hwait]
  | send result => simp [step, Connection.step, Connection.workerStep, hwait]
  | sendLocked calls => simp [step, Connection.step, Connection.callStep, hidle]
  | testRecv => simp [step, plain, Connection.step, Connection.workerStep, hwait]
  | testSend => simp [step, plain, Connection.step, Connection.workerStep, hwait]
  | testClose => simp [step, plain, Connection.step, Connection.workerStep, hwait]
  | add => simp [step, plain, Connection.step, Connection.workerStep, hwait]
  | _ => cases ha

end EdgeState

end Kernel4GameServer
