import Kernel4GameServer.Proofs.Net.Iocp.PipeUseSteps

/-!
# `Kernel4GameServer.Proofs.Net.Iocp.Callbacks`: the callbacks of one use of a pipe

A use of a pipe goes through stages: the connect is pending, its result is queued, the packet
for SO_ACCEPT is on its way, the pipe is in the map, BREAK is queued, and the end. `Life` says
what holds at each of them. One operation with `m_pRecvEvent` is outstanding at most, and the
stage determines what its packet is taken for. The map is the guard of the last part:
`SendDisconnectEvent` takes the pipe out of it, and nothing puts it back.

Most steps leave all of this alone (`SameRecv`). `Life.step` goes through the others, and
`callback_grammar` reads the order of the callbacks off the stages.
-/

set_option autoImplicit false

namespace Kernel4GameServer.Iocp

open Lib

/-- The worker is between a packet and what it does about a WSARecv. -/
def UseWorker.receives : UseWorker → Bool
  | .acceptStatus _ => true
  | .acceptFlag _ => true
  | .doRecv _ _ => true
  | .doRecvFlag _ _ => true
  | .addRecv => true
  | _ => false

/-- The worker may start a WSARecv. -/
def UseWorker.arms : UseWorker → Nat
  | .acceptStatus _ => 1
  | .acceptFlag _ => 1
  | .doRecv _ _ => 1
  | .doRecvFlag _ _ => 1
  | _ => 0

/-- The stages of a use. -/
inductive Stage where
  | created
  | connecting
  | decided
  | accepting
  | opened
  | broken
  | ended
  deriving DecidableEq, Repr

namespace Stage

/-- What a packet of `m_pRecvEvent` is taken for. -/
def opt : Stage → SocketOpt
  | .connecting => .SO_CONNECT
  | .accepting => .SO_ACCEPT
  | _ => .SO_TCPRECV

/-- The events that are queued. -/
def Queue : Stage → List IoEventType → Prop
  | .decided, queue => queue = [.CONNECTED] ∨ queue = [.CONNECTFAILD]
  | .opened, queue => ∃ n, queue = List.replicate n .RECV
  | .broken, queue => ∃ n, queue = List.replicate n .RECV ++ [.BREAK]
  | _, queue => queue = []

/-- The callbacks so far. -/
def Callbacks : Stage → List SessionCallback → Prop
  | .accepting, calls => calls = [.OnConnected]
  | .opened, calls => ∃ n, calls = .OnConnected :: List.replicate n .OnRecv
  | .broken, calls => ∃ n, calls = .OnConnected :: List.replicate n .OnRecv
  | .ended, calls => calls = [] ∨ calls = [.OnConnectFailed] ∨
      ∃ n, calls = .OnConnected :: List.replicate n .OnRecv ++ [.OnDisconnect]
  | _, calls => calls = []

end Stage

/-- No BREAK, or one at the end. -/
def BreakLast (queued : List IoEventType) : Prop :=
  ∃ pre, .BREAK ∉ pre ∧ (queued = pre ∨ queued = pre ++ [.BREAK])

namespace PipeUse

variable {sNetSendSize : Nat} {st st' : PipeUse}

/-- What holds at a stage of a use. -/
structure Life (st : PipeUse) (g : Stage) : Prop where
  started : st.phase = .created ↔ g = .created
  blank : g = .created → st.sending = false ∧ st.writer = .idle ∧ st.worker = .wait ∧
    st.issued = [] ∧ st.port = []
  closed : g ≠ .opened → ∀ s, st.m_mapSocketClient s = false
  opened : g = .opened → ∃ socket, ∀ s, st.m_mapSocketClient s = decide (s = socket)
  receives : st.worker.receives = true → g = .opened
  load : st.outstandingOn .m_pRecvEvent + st.worker.arms ≤ 1
  decided : g = .decided → st.outstandingOn .m_pRecvEvent = 0
  opt : st.outstandingOn .m_pRecvEvent ≠ 0 → st.pipe.m_pRecvEvent.opt = g.opt
  status : g = .accepting ∨ g = .opened ∨ g = .broken →
    st.pipe.m_nStatus ≠ .SS_UNINITIALIZE
  queue : g.Queue st.m_oEventQueue
  unbroken : g ≠ .broken → g ≠ .ended → .BREAK ∉ st.queued
  queued : BreakLast st.queued
  callbacks : g.Callbacks st.callbacks

/-- What most steps leave alone. The operations of `m_pRecvEvent` may become fewer, and
`DoRecv` formats the event for a WSARecv. -/
structure SameRecv (st st' : PipeUse) : Prop where
  started : st.phase ≠ .created ∧ st'.phase ≠ .created
  map : st'.m_mapSocketClient = st.m_mapSocketClient
  receives : st'.worker.receives = true → st.worker.receives = true
  recv : st'.outstandingOn .m_pRecvEvent ≤ st.outstandingOn .m_pRecvEvent
  arms : st'.worker.arms ≤ st.worker.arms
  event : st'.pipe.m_pRecvEvent = st.pipe.m_pRecvEvent ∨
    (st.worker.receives = true ∧ st'.pipe.m_pRecvEvent.opt = .SO_TCPRECV)
  status : st.pipe.m_nStatus ≠ .SS_UNINITIALIZE → st'.pipe.m_nStatus ≠ .SS_UNINITIALIZE
  queue : st'.m_oEventQueue = st.m_oEventQueue
  queued : st'.queued = st.queued
  callbacks : st'.callbacks = st.callbacks

/-- A step that leaves the receive side alone keeps the stage. -/
theorem SameRecv.life {g : Stage} (hsame : SameRecv st st') (h : Life st g) : Life st' g where
  started := iff_of_false hsame.started.2 fun hg => hsame.started.1 (h.started.mpr hg)
  blank hg := absurd (h.started.mpr hg) hsame.started.1
  closed hg s := hsame.map ▸ h.closed hg s
  opened hg := hsame.map ▸ h.opened hg
  receives hr := h.receives (hsame.receives hr)
  load := Nat.le_trans (Nat.add_le_add hsame.recv hsame.arms) h.load
  decided hg := Nat.le_zero.mp (h.decided hg ▸ hsame.recv)
  opt hne := by
    have hold : st.outstandingOn .m_pRecvEvent ≠ 0 := fun h0 =>
      hne (Nat.le_zero.mp (h0 ▸ hsame.recv))
    rcases hsame.event with heq | ⟨hr, hopt⟩
    · rw [heq]
      exact h.opt hold
    · rw [hopt, h.receives hr]
      rfl
  status hg := hsame.status (h.status hg)
  queue := hsame.queue ▸ h.queue
  unbroken hb ho := hsame.queued ▸ h.unbroken hb ho
  queued := hsame.queued ▸ h.queued
  callbacks := hsame.callbacks ▸ h.callbacks

/-! ### Steps that leave the receive side alone -/

/-- The worker goes on with the packet it has, or it is done with it. -/
theorem sameRecv_of_worker (hstarted : st.phase ≠ .created ∧ st'.phase ≠ .created)
    (hreceives : st'.worker.receives = true → st.worker.receives = true)
    (harms : st'.worker.arms ≤ st.worker.arms)
    (hhandling : st'.worker.handling.Sublist st.worker.handling)
    (hevent : st'.pipe.m_pRecvEvent = st.pipe.m_pRecvEvent ∨
      (st.worker.receives = true ∧ st'.pipe.m_pRecvEvent.opt = .SO_TCPRECV))
    (hstatus : st'.pipe.m_nStatus = st.pipe.m_nStatus) (hissued : st'.issued = st.issued)
    (hport : st'.port = st.port) (hmap : st'.m_mapSocketClient = st.m_mapSocketClient)
    (hqueue : st'.m_oEventQueue = st.m_oEventQueue) (hqueued : st'.queued = st.queued)
    (hcallbacks : st'.callbacks = st.callbacks) : SameRecv st st' where
  started := hstarted
  map := hmap
  receives := hreceives
  recv := (subperm_of_handling hissued hport hhandling).countP_le _
  arms := harms
  event := hevent
  status hne := hstatus ▸ hne
  queue := hqueue
  queued := hqueued
  callbacks := hcallbacks

/-- A worker that is at work belongs to a use that has begun. -/
theorem Life.of_worker {g : Stage} (h : Life st g) (hw : st.worker ≠ .wait) :
    st.phase ≠ .created :=
  fun hphase => hw (h.blank (h.started.mp hphase)).2.2.1

/-- A use that is live or ends has begun. -/
theorem started_of_phase (hphase : st.phase = .live ∨ st.phase = .ending) :
    st.phase ≠ .created := by
  rcases hphase with hphase | hphase <;> rw [hphase] <;> decide

/-- Behind `DoRecv` the worker starts no other WSARecv. -/
theorem recvDone_arms (st : PipeUse) (pk : Packet) (received res graceful : Bool) :
    (st.recvDone pk received res graceful).worker.arms = 0 := by
  cases received <;> cases res <;> rfl

/-! ### The begin of a use -/

/-- Before a use begins nothing is outstanding. -/
theorem Life.fresh (h : Life st .created) (slot : EventSlot) : st.outstandingOn slot = 0 := by
  obtain ⟨-, -, hworker, hissued, hport⟩ := h.blank rfl
  rw [outstandingOn, outstanding, hissued, hport, hworker]
  rfl

/-- A use whose begin fails is over at once. -/
theorem Life.giveUp (h : Life st .created) (hphase : st'.phase ≠ .created)
    (hmap : st'.m_mapSocketClient = st.m_mapSocketClient)
    (hissued : st'.issued = st.issued) (hport : st'.port = st.port)
    (hworker : st'.worker = st.worker) (hqueue : st'.m_oEventQueue = st.m_oEventQueue)
    (hqueued : st'.queued = st.queued)
    (hcallbacks : st'.callbacks = st.callbacks ∨
      st'.callbacks = st.callbacks ++ [.OnConnectFailed]) : Life st' .ended := by
  have hzero : st'.outstandingOn .m_pRecvEvent = 0 := by
    rw [outstandingOn, outstanding, hissued, hport, hworker]
    exact h.fresh _
  have hwait : st'.worker = .wait := hworker.trans (h.blank rfl).2.2.1
  have hcalls : st.callbacks = [] := h.callbacks
  exact
    { started := iff_of_false hphase (by simp)
      blank := by simp
      closed := fun _ s => hmap ▸ h.closed (by simp) s
      opened := by simp
      receives := fun hr => by
        rw [hwait] at hr
        cases hr
      load := by
        rw [hzero, hwait]
        exact Nat.zero_le 1
      decided := by simp
      opt := fun hne => absurd hzero hne
      status := fun hg => by
        rcases hg with hg | hg | hg <;> cases hg
      queue := hqueue.trans h.queue
      unbroken := fun _ ho => absurd rfl ho
      queued := hqueued ▸ h.queued
      callbacks := by
        rw [hcalls] at hcallbacks
        exact hcallbacks.imp_right .inl }

/-- `AddClient` gives up, or the connect is pending. -/
theorem Life.AddClient (h : Life st .created) (client : Nat) (result : Connect) :
    ∃ g, Life (st.AddClient client result) g := by
  cases result with
  | noSocket | noPort socket | noConnect socket =>
      exact ⟨.ended, h.giveUp (by rintro ⟨⟩) rfl rfl rfl rfl rfl rfl (.inr rfl)⟩
  | pending socket =>
      obtain ⟨-, -, hworker, hissued, hport⟩ := h.blank rfl
      have hwait : (st.AddClient client (.pending socket)).worker = .wait := hworker
      have hone : (st.AddClient client (.pending socket)).outstandingOn .m_pRecvEvent ≤ 1 := by
        simp only [outstandingOn, outstanding, PipeUse.AddClient, issue, hissued, hport, hworker]
        exact Nat.le_refl 1
      exact ⟨.connecting,
        { started := iff_of_false (by rintro ⟨⟩) (by rintro ⟨⟩)
          blank := by simp
          closed := fun _ s => h.closed (by simp) s
          opened := by simp
          receives := fun hr => by
            rw [hwait] at hr
            cases hr
          load := by
            rw [hwait]
            exact hone
          decided := by simp
          opt := fun _ => rfl
          status := fun hg => by
            rcases hg with hg | hg | hg <;> cases hg
          queue := h.queue
          unbroken := fun _ _ => h.unbroken (by simp) (by simp)
          queued := h.queued
          callbacks := h.callbacks }⟩

/-- The packet for SO_ACCEPT is on its way, and the session has got `OnConnected`. -/
theorem accepting_of_establish (hstarted : st.phase ≠ .created)
    (hzero : st.outstandingOn .m_pRecvEvent = 0) (hreceives : st.worker.receives = false)
    (harms : st.worker.arms = 0) (hclosed : ∀ s, st.m_mapSocketClient s = false)
    (hqueue : st.m_oEventQueue = []) (hqueued : .BREAK ∉ st.queued)
    (hcalls : st.callbacks = []) : Life (st.establish.call .OnConnected) .accepting where
  started := iff_of_false hstarted (by simp)
  blank := by simp
  closed _ := hclosed
  opened := by simp
  receives hr := by
    rw [show st.worker.receives = true from hr] at hreceives
    cases hreceives
  load := by
    have hsub : (st.establish.call .OnConnected).outstanding.Subperm
        (⟨.m_pRecvEvent, st.pipe.m_lSocketHandler, none⟩ :: st.outstanding) :=
      subperm_of_posted rfl rfl rfl
    have hle := hsub.countP_le fun op => decide (op.slot = .m_pRecvEvent)
    rw [List.countP_cons_of_pos (by rfl), show List.countP _ st.outstanding = 0 from hzero] at hle
    rw [show (st.establish.call .OnConnected).worker.arms = 0 from harms]
    exact hle
  decided := by simp
  opt _ := rfl
  status _ := by rintro ⟨⟩
  queue := hqueue
  unbroken _ _ := hqueued
  queued := ⟨st.queued, hqueued, .inl rfl⟩
  callbacks := by
    show st.callbacks ++ [.OnConnected] = [.OnConnected]
    rw [hcalls]
    rfl

/-- `CompletedAccept` gives up, or the pipe is established. -/
theorem Life.CompletedAccept (h : Life st .created) (client : Nat) (result : Accept) :
    ∃ g, Life (st.CompletedAccept client result) g := by
  cases result with
  | refused => exact ⟨.ended, h.giveUp (by rintro ⟨⟩) rfl rfl rfl rfl rfl rfl (.inl rfl)⟩
  | noPort socket => exact ⟨.ended, h.giveUp (by rintro ⟨⟩) rfl rfl rfl rfl rfl rfl (.inr rfl)⟩
  | connected socket =>
      have hwait := (h.blank rfl).2.2.1
      exact ⟨.accepting, accepting_of_establish (by simp) (h.fresh _)
        (by rw [show _ = st.worker from rfl, hwait]; rfl)
        (by rw [show _ = st.worker from rfl, hwait]; rfl) (h.closed (by simp)) h.queue
        (h.unbroken (by simp) (by simp)) h.callbacks⟩

/-! ### The events of the main thread -/

/-- A worker that is not in the receive path starts no WSARecv. -/
theorem arms_of_not_receives {w : UseWorker} (h : w.receives = false) : w.arms = 0 := by
  cases w <;> first | rfl | cases h

/-- Apart from the stage in which the pipe is in the map the worker is not in the receive
path. -/
theorem Life.not_receives {g : Stage} (h : Life st g) (hg : g ≠ .opened) :
    st.worker.receives = false :=
  Bool.eq_false_iff.mpr fun hr => hg (h.receives hr)

/-- The stage stays while the queue, the callbacks and the receive stream change within it. -/
theorem Life.take {g : Stage} (h : Life st g) {queue : List IoEventType}
    {calls : List SessionCallback} {stream : TStream BUFF_SIZE} (hqueue : g.Queue queue)
    (hcalls : g.Callbacks calls) :
    Life { st with
      m_oEventQueue := queue
      callbacks := calls
      pipe := { st.pipe with m_oRecvStream := stream } } g where
  started := h.started
  blank := h.blank
  closed := h.closed
  opened := h.opened
  receives := h.receives
  load := h.load
  decided := h.decided
  opt := h.opt
  status := h.status
  queue := hqueue
  unbroken := h.unbroken
  queued := h.queued
  callbacks := hcalls

/-- A RECV event is taken, and `OnRecv` is called or not. -/
theorem Life.recv {g : Stage} (h : Life st g) {queue : List IoEventType} (nUse : Int)
    (hqueue : g.Queue queue) (hcalls : g.Callbacks (st.callbacks ++ [.OnRecv])) :
    Life ({ st with m_oEventQueue := queue }.processEvent .RECV nUse) g := by
  unfold PipeUse.processEvent
  dsimp only
  split
  · exact h.take hqueue hcalls
  · exact h.take hqueue h.callbacks

/-- The last event of a use is taken. -/
theorem Life.finish {g : Stage} (h : Life st g) (hopen : g ≠ .opened) (hphase : st'.phase = .ending)
    (hmap : st'.m_mapSocketClient = st.m_mapSocketClient) (hworker : st'.worker = st.worker)
    (hrecv : st'.outstandingOn .m_pRecvEvent = st.outstandingOn .m_pRecvEvent)
    (hopt : st.outstandingOn .m_pRecvEvent ≠ 0 → st'.pipe.m_pRecvEvent.opt = .SO_TCPRECV)
    (hqueue : st'.m_oEventQueue = []) (hqueued : st'.queued = st.queued)
    (hcalls : Stage.ended.Callbacks st'.callbacks) : Life st' .ended where
  started := iff_of_false (by rw [hphase]; decide) (by simp)
  blank := by simp
  closed _ s := hmap ▸ h.closed hopen s
  opened := by simp
  receives hr := by
    rw [hworker, h.not_receives hopen] at hr
    cases hr
  load := by
    rw [hrecv, hworker]
    exact h.load
  decided := by simp
  opt hne := hopt (hrecv ▸ hne)
  status hg := by
    rcases hg with hg | hg | hg <;> cases hg
  queue := hqueue
  unbroken _ ho := absurd rfl ho
  queued := hqueued ▸ h.queued
  callbacks := hcalls

/-- Every event leads to a stage. -/
theorem Life.processEvent {g : Stage} (h : Life st g) {type : IoEventType}
    {queue : List IoEventType} (hqueue : st.m_oEventQueue = type :: queue) (nUse : Int) :
    ∃ g', Life ({ st with m_oEventQueue := queue }.processEvent type nUse) g' := by
  have hold := h.queue
  rw [hqueue] at hold
  have hstarted : g ≠ .created → st.phase ≠ .created := fun hg hphase => hg (h.started.mp hphase)
  cases g with
  | created | connecting | accepting | ended => cases hold
  | decided =>
      -- CONNECTED opens the receive path, and CONNECTFAILD ends the use.
      have hcalls : st.callbacks = [] := h.callbacks
      rcases hold with hold | hold
      · obtain ⟨rfl, rfl⟩ := List.cons_eq_cons.mp hold
        have hreceives := h.not_receives (by simp)
        exact ⟨.accepting, accepting_of_establish (hstarted (by simp)) (h.decided rfl) hreceives
          (arms_of_not_receives hreceives) (h.closed (by simp)) rfl
          (h.unbroken (by simp) (by simp)) hcalls⟩
      · obtain ⟨rfl, rfl⟩ := List.cons_eq_cons.mp hold
        refine ⟨.ended, h.finish (by simp) rfl rfl rfl rfl
          (fun hne => absurd (h.decided rfl) hne) rfl rfl (.inr (.inl ?_))⟩
        show st.callbacks ++ [.OnConnectFailed] = [.OnConnectFailed]
        rw [hcalls]
        rfl
  | opened =>
      obtain ⟨n, hn⟩ := hold
      obtain ⟨m, hm⟩ := h.callbacks
      cases n with
      -- An open pipe has only RECV events in the queue.
      | zero => cases hn
      | succ n =>
          obtain ⟨rfl, rfl⟩ := List.cons_eq_cons.mp hn
          refine ⟨.opened, h.recv nUse ⟨n, rfl⟩ ⟨m + 1, ?_⟩⟩
          rw [hm, List.replicate_succ', List.cons_append]
  | broken =>
      obtain ⟨n, hn⟩ := hold
      obtain ⟨m, hm⟩ := h.callbacks
      cases n with
      | zero =>
          -- The BREAK event is the last one.
          obtain ⟨rfl, rfl⟩ := List.cons_eq_cons.mp hn
          refine ⟨.ended, h.finish (by simp) rfl rfl rfl rfl h.opt rfl rfl (.inr (.inr ⟨m, ?_⟩))⟩
          show st.callbacks ++ [.OnDisconnect] = _
          rw [hm]
      | succ n =>
          obtain ⟨rfl, rfl⟩ := List.cons_eq_cons.mp hn
          refine ⟨.broken, h.recv nUse ⟨n, rfl⟩ ⟨m + 1, ?_⟩⟩
          rw [hm, List.replicate_succ', List.cons_append]

/-! ### The packets of `m_pRecvEvent` -/

/-- Only the pipe of a stage that is open is in the map. -/
theorem Life.opened_of_map {g : Stage} (h : Life st g) {socket : Int}
    (hmap : st.m_mapSocketClient socket = true) : g = .opened := by
  by_contra hg
  rw [h.closed hg socket] at hmap
  cases hmap

/-- A packet that is not taken for a send belongs to `m_pRecvEvent`, and the stage says what it
is taken for. No other operation with the event is outstanding. -/
theorem Life.dispatch {g : Stage} (hs : st.Slots) (h : Life st g) {pk : Packet}
    (hw : st.worker = .dispatch pk) (hopt : (st.event pk.op.slot).opt ≠ .SO_TCPSEND) :
    (st.event pk.op.slot).opt = g.opt ∧
      (st.issued ++ st.port.map Packet.op).countP
        (fun op => decide (op.slot = .m_pRecvEvent)) = 0 := by
  have hhandling : st.worker.handling = [pk.op] := by rw [hw]; rfl
  have hslot : pk.op.slot = .m_pRecvEvent := hs.recv_of_opt hw hopt
  have hcount := outstandingOn_handling hhandling hslot
  have hload := h.load
  refine ⟨?_, by omega⟩
  rw [hslot]
  exact h.opt (by omega)

/-- A worker that handles no completion leaves the operations that are issued or posted. -/
theorem outstandingOn_idle {slot : EventSlot} {n : Nat}
    (hrest : (st.issued ++ st.port.map Packet.op).countP
      (fun op => decide (op.slot = slot)) = n)
    (hissued : st'.issued = st.issued) (hport : st'.port = st.port)
    (hworker : st'.worker.handling = []) : st'.outstandingOn slot = n := by
  rw [outstandingOn, outstanding, hissued, hport, hworker, List.append_nil]
  exact hrest

/-- The result of the connect is queued. -/
theorem Life.connect {g : Stage} (hs : st.Slots) (h : Life st g) {pk : Packet}
    (hw : st.worker = .dispatch pk) (hopt : (st.event pk.op.slot).opt = .SO_CONNECT)
    {type : IoEventType} (htype : type = .CONNECTED ∨ type = .CONNECTFAILD) :
    Life ({ st with worker := .wait }.Add type) .decided := by
  obtain ⟨hstage, hrest⟩ := h.dispatch hs hw (by rw [hopt]; decide)
  rw [hopt] at hstage
  cases g with
  | connecting =>
      have hzero : ({ st with worker := .wait }.Add type).outstandingOn .m_pRecvEvent = 0 :=
        outstandingOn_idle hrest (by rfl) (by rfl) (by rfl)
      have hqueue : st.m_oEventQueue = [] := h.queue
      have hbreak : IoEventType.BREAK ∉ st.queued ++ [type] := by
        rw [List.mem_append, List.mem_singleton]
        rintro (hold | hnew)
        · exact h.unbroken (by simp) (by simp) hold
        · rw [← hnew] at htype
          rcases htype with htype | htype <;> cases htype
      exact
        { started := iff_of_false (h.of_worker (by simp [hw])) (by simp)
          blank := by simp
          closed := fun _ s => h.closed (by simp) s
          opened := by simp
          receives := by rintro ⟨⟩
          load := by
            rw [hzero]
            exact Nat.zero_le 1
          decided := fun _ => hzero
          opt := fun hne => absurd hzero hne
          status := fun hg => by
            rcases hg with hg | hg | hg <;> cases hg
          queue := by
            show st.m_oEventQueue ++ [type] = _ ∨ st.m_oEventQueue ++ [type] = _
            rw [hqueue]
            exact htype.imp (fun heq => by rw [heq]; rfl) fun heq => by rw [heq]; rfl
          unbroken := fun _ _ => hbreak
          queued := ⟨_, hbreak, .inl rfl⟩
          callbacks := h.callbacks }
  | _ => cases hstage

/-- The pipe is put into the map. -/
theorem Life.accept {g : Stage} (hs : st.Slots) (h : Life st g) {pk : Packet}
    (hw : st.worker = .dispatch pk) (hopt : (st.event pk.op.slot).opt = .SO_ACCEPT) :
    Life
      { st with
        m_mapSocketClient := fun s =>
          if s = st.pipe.m_lSocketHandler then true else st.m_mapSocketClient s
        worker := .acceptStatus pk } .opened := by
  obtain ⟨hstage, hrest⟩ := h.dispatch hs hw (by rw [hopt]; decide)
  rw [hopt] at hstage
  cases g with
  | accepting =>
      have hzero : ({ st with
          m_mapSocketClient := fun s =>
            if s = st.pipe.m_lSocketHandler then true else st.m_mapSocketClient s
          worker := .acceptStatus pk } : PipeUse).outstandingOn .m_pRecvEvent = 0 :=
        outstandingOn_idle hrest (by rfl) (by rfl) (by rfl)
      exact
        { started := iff_of_false (h.of_worker (by simp [hw])) (by simp)
          blank := by simp
          closed := fun hg => absurd rfl hg
          opened := fun _ => ⟨st.pipe.m_lSocketHandler, fun s => by
            dsimp only
            rw [h.closed (by simp) s]
            split <;> simp [*]⟩
          receives := fun _ => rfl
          load := by
            rw [hzero]
            exact Nat.le_refl 1
          decided := by simp
          opt := fun hne => absurd hzero hne
          status := fun _ => h.status (.inl rfl)
          queue := ⟨0, h.queue⟩
          unbroken := fun _ _ => h.unbroken (by simp) (by simp)
          queued := h.queued
          callbacks := ⟨0, h.callbacks⟩ }
  | _ => cases hstage

/-- Received bytes are in the stream, and the next WSARecv may follow. -/
theorem Life.received {g : Stage} (hs : st.Slots) (h : Life st g) {pk : Packet}
    (hw : st.worker = .dispatch pk) (hopt : (st.event pk.op.slot).opt = .SO_TCPRECV)
    (hmap : st.m_mapSocketClient pk.op.socket_handler = true) :
    Life
      { st with
        pipe := st.pipe.In (Mem.ofList pk.result.bytes 0) pk.result.nIOBytes
        worker := .doRecv pk true } g := by
  obtain ⟨-, hrest⟩ := h.dispatch hs hw (by rw [hopt]; decide)
  have hopened := h.opened_of_map hmap
  have hzero : ({ st with
      pipe := st.pipe.In (Mem.ofList pk.result.bytes 0) pk.result.nIOBytes
      worker := .doRecv pk true } : PipeUse).outstandingOn .m_pRecvEvent = 0 :=
    outstandingOn_idle hrest (by rfl) (by rfl) (by rfl)
  exact
    { started := h.started
      blank := fun hg => by
        rw [hopened] at hg
        cases hg
      closed := h.closed
      opened := h.opened
      receives := fun _ => hopened
      load := by
        rw [hzero]
        exact Nat.le_refl 1
      decided := fun _ => hzero
      opt := fun hne => absurd hzero hne
      status := h.status
      queue := h.queue
      unbroken := h.unbroken
      queued := h.queued
      callbacks := h.callbacks }

/-- The next WSARecv is on its way. -/
theorem Life.recvIssue {g : Stage} (h : Life st g) {pk : Packet} {received : Bool}
    (hw : st.worker = .doRecv pk received) :
    Life (({ st with pipe := st.pipe.formatRecv .SO_TCPRECV }.issue .m_pRecvEvent none).recvDone
      pk received true false) g := by
  have hopened : g = .opened := h.receives (by rw [hw]; rfl)
  have hload := h.load
  rw [hw] at hload
  have hle : (({ st with pipe := st.pipe.formatRecv .SO_TCPRECV }.issue .m_pRecvEvent
      none).recvDone pk received true false).outstandingOn .m_pRecvEvent ≤ 1 := by
    have hsub : (({ st with pipe := st.pipe.formatRecv .SO_TCPRECV }.issue .m_pRecvEvent
        none).recvDone pk received true false).outstanding.Subperm
          (⟨.m_pRecvEvent, st.pipe.m_lSocketHandler, none⟩ :: st.outstanding) := by
      refine subperm_of_issued rfl rfl ?_
      rw [recvDone_handling]
      exact List.nil_sublist _
    have hcount := hsub.countP_le fun op => decide (op.slot = .m_pRecvEvent)
    rw [List.countP_cons_of_pos (by rfl)] at hcount
    exact Nat.le_trans hcount hload
  subst hopened
  exact
    { started := h.started
      blank := by simp
      closed := fun hg => absurd rfl hg
      opened := h.opened
      receives := fun _ => rfl
      load := by
        rw [recvDone_arms]
        exact hle
      decided := by simp
      opt := fun _ => rfl
      status := h.status
      queue := h.queue
      unbroken := h.unbroken
      queued := h.queued
      callbacks := h.callbacks }

/-- The received bytes are announced. -/
theorem Life.addRecv {g : Stage} (h : Life st g) (hw : st.worker = .addRecv) :
    Life { st.Add .RECV with worker := .wait } g := by
  have hopened : g = .opened := h.receives (by rw [hw]; rfl)
  subst hopened
  have hrecv : ({ st.Add .RECV with worker := .wait } : PipeUse).outstandingOn .m_pRecvEvent
      = st.outstandingOn .m_pRecvEvent := by
    rw [outstandingOn, outstandingOn, outstanding, outstanding, hw]
    rfl
  obtain ⟨n, hn⟩ := h.queue
  have hbreak : IoEventType.BREAK ∉ st.queued ++ [.RECV] := by
    rw [List.mem_append, List.mem_singleton]
    rintro (hold | hnew)
    · exact h.unbroken (by simp) (by simp) hold
    · cases hnew
  exact
    { started := h.started
      blank := by simp
      closed := fun hg => absurd rfl hg
      opened := h.opened
      receives := by simp
      load := by
        rw [hrecv]
        exact Nat.le_trans (Nat.le_add_right _ _) h.load
      decided := by simp
      opt := fun hne => h.opt (hrecv ▸ hne)
      status := h.status
      queue := ⟨n + 1, by
        show st.m_oEventQueue ++ [.RECV] = _
        rw [hn, List.replicate_succ']⟩
      unbroken := fun _ _ => hbreak
      queued := ⟨_, hbreak, .inl rfl⟩
      callbacks := h.callbacks }

/-- The pipe is taken out of the map, and BREAK is queued. -/
theorem Life.disconnect {g : Stage} (h : Life st g) {graceful : Bool} {socket : Int}
    (hw : st.worker = .disconnect graceful socket) (hmap : st.m_mapSocketClient socket = true) :
    Life
      { st.Add .BREAK with
        pipe := { st.pipe with m_lSocketHandler := INVALID_SOCKET }
        m_mapSocketClient := fun s => if s = socket then false else st.m_mapSocketClient s
        worker := .wait } .broken := by
  have hopened := h.opened_of_map hmap
  subst hopened
  have hrecv : ({ st.Add .BREAK with
      pipe := { st.pipe with m_lSocketHandler := INVALID_SOCKET }
      m_mapSocketClient := fun s => if s = socket then false else st.m_mapSocketClient s
      worker := .wait } : PipeUse).outstandingOn .m_pRecvEvent
        = st.outstandingOn .m_pRecvEvent := by
    rw [outstandingOn, outstandingOn, outstanding, outstanding, hw]
    rfl
  obtain ⟨own, hown⟩ := h.opened rfl
  obtain ⟨n, hn⟩ := h.queue
  have hbreak := h.unbroken (by simp) (by simp)
  exact
    { started := iff_of_false (h.of_worker (by simp [hw])) (by simp)
      blank := by simp
      closed := fun _ s => by
        -- The socket in the map is the one that is taken out.
        rw [hown socket, decide_eq_true_eq] at hmap
        dsimp only
        rw [hown s, hmap]
        split <;> simp [*]
      opened := by simp
      receives := by rintro ⟨⟩
      load := by
        rw [hrecv]
        exact Nat.le_trans (Nat.le_add_right _ _) h.load
      decided := by simp
      opt := fun hne => h.opt (hrecv ▸ hne)
      status := fun _ => h.status (.inr (.inl rfl))
      queue := ⟨n, by
        show st.m_oEventQueue ++ [.BREAK] = _
        rw [hn]⟩
      unbroken := fun hb => absurd rfl hb
      queued := ⟨st.queued, hbreak, .inr rfl⟩
      callbacks := h.callbacks }

/-! ### All steps -/

/-- A step of the main thread or of the environment that posts nothing for the receive side. -/
theorem sameRecv_of_main (hstarted : st.phase ≠ .created ∧ st'.phase ≠ .created)
    (hworker : st'.worker = st.worker)
    (hrecv : st'.outstandingOn .m_pRecvEvent ≤ st.outstandingOn .m_pRecvEvent)
    (hevent : st'.pipe.m_pRecvEvent = st.pipe.m_pRecvEvent)
    (hstatus : st.pipe.m_nStatus ≠ .SS_UNINITIALIZE → st'.pipe.m_nStatus ≠ .SS_UNINITIALIZE)
    (hmap : st'.m_mapSocketClient = st.m_mapSocketClient)
    (hqueue : st'.m_oEventQueue = st.m_oEventQueue) (hqueued : st'.queued = st.queued)
    (hcallbacks : st'.callbacks = st.callbacks) : SameRecv st st' where
  started := hstarted
  map := hmap
  receives hr := hworker ▸ hr
  recv := hrecv
  arms := by rw [hworker]
  event := .inl hevent
  status := hstatus
  queue := hqueue
  queued := hqueued
  callbacks := hcallbacks

/-- A main thread that is in `Send` belongs to a use that has begun. -/
theorem Life.of_sending {g : Stage} (h : Life st g) (hsending : st.sending = true) :
    st.phase ≠ .created := fun hphase => by
  rw [(h.blank (h.started.mp hphase)).1] at hsending
  cases hsending

/-- A main thread that is in `in` belongs to a use that has begun. -/
theorem Life.of_append {g : Stage} (h : Life st g) {a : StreamAction}
    {io : StreamState BUFF_SIZE} (ha : goesOn a = true) (hio : st.io.step a = some io) :
    st.phase ≠ .created := fun hphase => by
  have hwriter : st.io.writer = .idle := (h.blank (h.started.mp hphase)).2.1
  cases StreamState.step_cases hio with
  | write | lock | look | out | free => cases ha
  | stay _ hw | relocate _ _ hw | copy _ hw | advance _ hw =>
      rw [hwriter] at hw
      cases hw

/-- One more send is no operation of `m_pRecvEvent`. -/
theorem recv_le_of_send {op : Overlapped} (hslot : op.slot = .m_pSendEvent)
    (hsub : st'.outstanding.Subperm (op :: st.outstanding)) :
    st'.outstandingOn .m_pRecvEvent ≤ st.outstandingOn .m_pRecvEvent := by
  have hle := hsub.countP_le fun op => decide (op.slot = .m_pRecvEvent)
  rw [List.countP_cons_of_neg (by rw [hslot]; decide)] at hle
  exact hle

/-- Every step leads from a stage to a stage. -/
theorem Life.step {g : Stage} {a : UseAction} (hs : st.Slots) (h : Life st g)
    (hd : Does sNetSendSize st a st') : ∃ g', Life st' g' := by
  have keep : SameRecv st st' → ∃ g', Life st' g' := fun hsame => ⟨g, hsame.life h⟩
  have hwork : ∀ {w : UseWorker}, st.worker = w → w ≠ .wait →
      st.phase ≠ .created ∧ st.phase ≠ .created := fun hw hne =>
    ⟨h.of_worker (hw ▸ hne), h.of_worker (hw ▸ hne)⟩
  -- The steps that touch the receive side have their own lemmas, and the others keep the stage.
  cases hd with
  | AddClient client result hphase =>
      have hg := h.started.mp hphase
      subst hg
      exact h.AddClient client result
  | CompletedAccept client result hphase =>
      have hg := h.started.mp hphase
      subst hg
      exact h.CompletedAccept client result
  | Processing type queue nUse _ _ _ hqueue => exact h.processEvent hqueue nUse
  | Send src hphase =>
      have hstarted := started_of_phase hphase
      exact keep (sameRecv_of_main ⟨hstarted, hstarted⟩ rfl (Nat.le_refl _) rfl id rfl rfl rfl rfl)
  | Close _ hphase =>
      have hstarted := started_of_phase hphase
      exact keep (sameRecv_of_main ⟨hstarted, hstarted⟩ rfl (Nat.le_refl _) rfl
        (fun _ => by rintro ⟨⟩) rfl rfl rfl rfl)
  | Recover _ hphase =>
      exact keep (sameRecv_of_main ⟨started_of_phase (.inr hphase), (by simp)⟩ rfl
        (Nat.le_refl _) rfl id rfl rfl rfl rfl)
  | append a io ha hio =>
      have hstarted := h.of_append ha hio
      exact keep (sameRecv_of_main ⟨hstarted, hstarted⟩ rfl (Nat.le_refl _) rfl id rfl rfl rfl rfl)
  | leaveSend hsending =>
      have hstarted := h.of_sending hsending
      exact keep (sameRecv_of_main ⟨hstarted, hstarted⟩ rfl (Nat.le_refl _) rfl id rfl rfl rfl rfl)
  | postSend hsending =>
      have hstarted := h.of_sending hsending
      have hsub : st.postSend.outstanding.Subperm
          (⟨.m_pSendEvent, st.pipe.m_lSocketHandler, none⟩ :: st.outstanding) :=
        subperm_of_posted rfl rfl rfl
      exact keep (sameRecv_of_main ⟨hstarted, hstarted⟩ rfl (recv_le_of_send rfl hsub) rfl id rfl
        rfl rfl rfl)
  | complete i result op hop =>
      -- Nothing is outstanding in a pipe that was not given out yet.
      have hstarted : st.phase ≠ .created := fun hphase => by
        rw [(h.blank (h.started.mp hphase)).2.2.2.1] at hop
        cases hop
      exact keep (sameRecv_of_main ⟨hstarted, hstarted⟩ rfl
        ((complete_perm hop result).subperm.countP_le _) rfl id rfl rfl rfl rfl)
  | timeout pk port hw hport =>
      have hstarted : st.phase ≠ .created := fun hphase => by
        rw [(h.blank (h.started.mp hphase)).2.2.2.2] at hport
        cases hport
      refine keep (sameRecv_of_main ⟨hstarted, hstarted⟩ rfl ?_ rfl id rfl rfl rfl rfl)
      have hsub := (List.sublist_cons_self pk.op (port.map Packet.op)).append_left st.issued
      rw [outstandingOn, outstandingOn, outstanding, outstanding, hport]
      exact (hsub.append_right st.worker.handling).countP_le
  | dequeue pk port hw hport =>
      have hstarted : st.phase ≠ .created := fun hphase => by
        rw [(h.blank (h.started.mp hphase)).2.2.2.2] at hport
        cases hport
      exact keep
        { started := ⟨hstarted, hstarted⟩
          map := rfl
          receives := by rintro ⟨⟩
          recv := (dequeue_perm hw hport).subperm.countP_le _
          arms := Nat.zero_le _
          event := .inl rfl
          status := id
          queue := rfl
          queued := rfl
          callbacks := rfl }
  | connect ok pk hw hopt =>
      -- The event says how the connect came out.
      refine ⟨.decided, h.connect hs hw hopt ?_⟩
      split
      · exact .inl rfl
      · exact .inr rfl
  | accept ok pk hw hopt => exact ⟨.opened, h.accept hs hw hopt⟩
  | received ok pk hw hopt hmap => exact ⟨g, h.received hs hw hopt hmap⟩
  | recvIssue pk received hw => exact ⟨g, h.recvIssue hw⟩
  | addRecv ok hw => exact ⟨g, h.addRecv hw⟩
  | disconnect ok graceful socket hw hmap => exact ⟨.broken, h.disconnect hw hmap⟩
  | ignore ok pk hw | recvEnd ok pk hw | sendError ok pk hw | acceptEnd ok pk hw
  | acceptSilent ok pk hw | outEmpty ok pk hw | outFail pk long hw | outOpen ok pk hw
  | outClose ok pk hw | disconnected ok graceful socket hw =>
      exact keep (sameRecv_of_worker (hwork hw (by rintro ⟨⟩)) (by rintro ⟨⟩) (Nat.zero_le _)
        (List.nil_sublist _) (.inl rfl) rfl rfl rfl rfl rfl rfl rfl)
  | outIssue pk long hw =>
      exact keep
        { started := hwork hw (by simp)
          map := rfl
          receives := by rintro ⟨⟩
          recv := recv_le_of_send (by rfl) (subperm_of_issued rfl rfl (List.nil_sublist _))
          arms := Nat.zero_le _
          event := .inl rfl
          status := id
          queue := rfl
          queued := rfl
          callbacks := rfl }
  | sendDone ok pk hw | outTake ok pk hw | outRest ok pk hw | outLook ok pk hw =>
      exact keep (sameRecv_of_worker (hwork hw (by rintro ⟨⟩)) (by rintro ⟨⟩) (Nat.zero_le _)
        (by rw [hw]; exact List.Sublist.refl _) (.inl rfl) rfl rfl rfl rfl rfl rfl rfl)
  | acceptStatus ok pk hw | acceptClosed ok pk hw =>
      exact keep (sameRecv_of_worker (hwork hw (by simp)) (fun _ => by rw [hw]; rfl)
        (by rw [hw]; exact Nat.le_refl 1) (List.nil_sublist _) (.inl rfl) rfl rfl rfl rfl rfl rfl
        rfl)
  | recvClosed ok pk received hw =>
      exact keep (sameRecv_of_worker (hwork hw (by simp)) (fun _ => by rw [hw]; rfl)
        (by rw [hw]; exact Nat.le_refl 1) (List.nil_sublist _) (.inr ⟨by rw [hw]; rfl, rfl⟩) rfl
        rfl rfl rfl rfl rfl rfl)
  | recvFail pk received hw =>
      -- The receive path ends without a WSARecv.
      refine keep (sameRecv_of_worker (hwork hw (by simp)) (fun _ => by rw [hw]; rfl) ?_ ?_
        (.inr ⟨by rw [hw]; rfl, rfl⟩) rfl rfl rfl rfl rfl rfl rfl)
      · rw [recvDone_arms]
        exact Nat.zero_le _
      · rw [recvDone_handling]
        exact List.nil_sublist _
  | recvFlag ok pk received hw =>
      refine keep (sameRecv_of_worker (hwork hw (by simp)) (fun _ => by rw [hw]; rfl) ?_ ?_
        (.inl rfl) rfl rfl rfl rfl rfl rfl rfl)
      · rw [recvDone_arms]
        exact Nat.zero_le _
      · rw [recvDone_handling]
        exact List.nil_sublist _

/-- A pipe that leaves the pool is in the first stage. -/
theorem life_init (p : CPipe) (w : Nat) : Life (init p w) .created where
  started := iff_of_true rfl rfl
  blank _ := ⟨rfl, rfl, rfl, rfl, rfl⟩
  closed _ _ := rfl
  opened := by simp
  receives := by rintro ⟨⟩
  load := Nat.zero_le 1
  decided := by simp
  opt hne := absurd rfl hne
  status hg := by
    rcases hg with hg | hg | hg <;> cases hg
  queue := rfl
  unbroken _ _ := by rintro ⟨⟩
  queued := ⟨[], (by simp), .inl rfl⟩
  callbacks := rfl

/-- Every state of a run is in some stage. -/
theorem run_life {w : Nat} {p : CPipe} {as : List UseAction}
    (h : run (step sNetSendSize) (init p w) as = some st) : st.Slots ∧ ∃ g, Life st g :=
  run_invariant (I := fun st => st.Slots ∧ ∃ g, Life st g)
    (fun _ _ _ ⟨hs, _, hg⟩ hstep => ⟨hs.step (step_does hstep), hg.step hs (step_does hstep)⟩)
    ⟨slots_init p w, .created, life_init p w⟩ h

/-- The callbacks of a stage are in order. -/
theorem Stage.callbacks_grammar {g : Stage} {calls : List SessionCallback}
    (h : g.Callbacks calls) : calls = [.OnConnectFailed] ∨
      ∃ n, calls <+: .OnConnected :: List.replicate n .OnRecv ++ [.OnDisconnect] := by
  cases g with
  | created | connecting | decided =>
      rw [show calls = [] from h]
      exact .inr ⟨0, List.nil_prefix⟩
  | accepting =>
      rw [show calls = [.OnConnected] from h]
      exact .inr ⟨0, [.OnDisconnect], rfl⟩
  | opened | broken =>
      obtain ⟨n, hn⟩ := h
      exact .inr ⟨n, [.OnDisconnect], by rw [hn]⟩
  | ended =>
      rcases h with h | h | ⟨n, hn⟩
      · rw [h]
        exact .inr ⟨0, List.nil_prefix⟩
      · exact .inl h
      · exact .inr ⟨n, [], by rw [hn, List.append_nil]⟩

/-- In every use of a pipe, whatever its last use has left behind, the session gets
`OnConnectFailed` alone, or a prefix of `OnConnected`, some `OnRecv` and one `OnDisconnect`.
BREAK is queued at most once and nothing is queued behind it. The `TASSERT` on the status holds
when BREAK is processed. -/
theorem callback_grammar (sNetSendSize w : Nat) (p : CPipe) (as : List UseAction) (st : PipeUse)
    (h : run (step sNetSendSize) (init p w) as = some st) :
    (st.callbacks = [.OnConnectFailed] ∨
      ∃ n, st.callbacks <+: .OnConnected :: List.replicate n .OnRecv ++ [.OnDisconnect]) ∧
    (∃ pre, .BREAK ∉ pre ∧ (st.queued = pre ∨ st.queued = pre ++ [.BREAK])) ∧
    (∀ queue, st.m_oEventQueue = .BREAK :: queue → st.pipe.m_nStatus ≠ .SS_UNINITIALIZE) := by
  obtain ⟨-, g, hg⟩ := run_life h
  refine ⟨Stage.callbacks_grammar hg.callbacks, hg.queued, fun queue hqueue => ?_⟩
  have hq := hg.queue
  rw [hqueue] at hq
  cases g with
  | created | connecting | accepting | ended => cases hq
  | decided => rcases hq with hq | hq <;> cases hq
  | opened => exact hg.status (.inr (.inl rfl))
  | broken => exact hg.status (.inr (.inr rfl))

/-- A session connects, receives, and the peer closes. The send that is still pending completes
when the socket is closed. -/
def grammarRun : List UseAction :=
  [.AddClient 7 (.pending 5), .complete 0 ⟨[], 0⟩, .dequeue, .Run true, .Processing 0,
    .dequeue, .Run true, .Run true, .Run true, .Send [1], .append .relocate, .append .copy,
    .append .advance, .sendLocked, .dequeue, .Run true, .Run true, .Run true, .Run true, .Run true,
    .complete 0 ⟨[9], 0⟩, .dequeue, .Run true, .Run true, .Run true, .Processing 1,
    .complete 1 ⟨[], 64⟩, .dequeue, .Run true, .Run true, .complete 0 ⟨[], 995⟩, .dequeue,
    .Run true, .Processing 0, .Recover]

/-- The callbacks of that run. -/
theorem callback_grammar_peer_closes :
    ∃ st, run (step 1024) (init .new 0) grammarRun = some st ∧
      st.callbacks = [.OnConnected, .OnRecv, .OnDisconnect] ∧
      ∃ pre, .BREAK ∉ pre ∧ (st.queued = pre ∨ st.queued = pre ++ [.BREAK]) := by
  obtain ⟨st, hst, hcalls⟩ : ∃ st, run (step 1024) (init .new 0) grammarRun = some st ∧
      st.callbacks = [.OnConnected, .OnRecv, .OnDisconnect] := ⟨_, rfl, rfl⟩
  exact ⟨st, hst, hcalls, (callback_grammar 1024 0 .new grammarRun st hst).2.1⟩

end PipeUse

end Kernel4GameServer.Iocp
