import Kernel4GameServer.Net.Epoll.PipeLife
import Kernel4GameServer.Proofs.Net.CPipe

/-!
# `Kernel4GameServer.Proofs.Net.PipeLifeSteps`: what a step on a pipe can do

`LifeMoves st a st'` is everything a step can do to what the invariants of a pipe speak of:
its status and socket, which workers are in `DoClose`, its use, and the callbacks. Most steps
are `quiet`: they change streams and places only. The others are the calls of the session, the
three steps of `DoClose`, and the ways into and out of a use.

`step_moves` takes the step function apart once. It is assembled from `work_moves`,
`goOn_moves` and `deal_moves`, and the invariants use `LifeMoves` only. `UseInv` is the one
that they all start from.
-/

set_option autoImplicit false

namespace Kernel4GameServer

open Lib

/-- The worker is in `DoClose`, behind the store to `m_nStatus`. -/
def LifePc.closing : LifePc → Bool
  | .run _ => false
  | .del _ | .shut _ => true

/-- The main thread is not in a callback of the pipe, and does not owe it one. -/
def LifeMain.isFree : LifeMain → Bool
  | .idle | .draining _ | .drained _ => true
  | _ => false

/-- An iteration of the loop of `Send` keeps the status and the socket. -/
theorem CPipe.sendRound_frame {p p' : CPipe} {result : SendResult} {call : LifeCall}
    (h : p.sendRound result = some (p', call)) :
    p'.m_nStatus = p.m_nStatus ∧ p'.m_lSocketHandler = p.m_lSocketHandler := by
  unfold sendRound at h
  dsimp only at h
  split at h
  · cases result with
    | sent k =>
        dsimp only at h
        split at h
        · cases h
          exact ⟨rfl, rfl⟩
        · cases h
    | EAGAIN =>
        cases h
        exact ⟨rfl, rfl⟩
    | failed =>
        cases h
        exact ⟨rfl, rfl⟩
  · split at h
    · cases h
      exact ⟨rfl, rfl⟩
    · cases h
      exact ⟨rfl, rfl⟩

namespace PipeLife

/-- What a quiet step may do to the place of the main thread. -/
def MainMoves (st : PipeLife) (main : LifeMain) : Prop :=
  main = st.main ∨ main.isFree = true ∨ st.inUse = true ∧ ∃ t, main = .inRecv t

/-- What a quiet step may tell the session. -/
def Tells (st : PipeLife) (a : LifeAction) (callbacks : List PipeCallback) : Prop :=
  callbacks = st.callbacks ∨
    (st.inUse = true ∧ callbacks = st.callbacks ++ [.OnRecv]) ∨
    (a = .finish ∧ st.main = .drained .BREAK ∧ callbacks = st.callbacks ++ [.OnDisconnect])

/-- The step is one of a worker into `DoClose` of a pipe that is not closed: `recv` ends, or
the event has an error flag. -/
def closes (st : PipeLife) : LifeAction → Bool
  | .work w received _ =>
      decide (st.pipe.m_nStatus ≠ .SS_UNINITIALIZE) &&
        match (st.worker w).pc with
        | .run (.inRecv _ _) => decide (received = .ended)
        | .run (.testClose mask _) => mask.hasError
        | _ => false
  | _ => false

/-- What a step can do. -/
inductive LifeMoves (st : PipeLife) (a : LifeAction) (st' : PipeLife) : Prop where
  | quiet (pipe : CPipe) (worker : Nat → LifeWorker) (dealing : List EpollFlags)
      (main : LifeMain) (call : LifeCall) (callbacks : List PipeCallback) :
      pipe.m_nStatus = st.pipe.m_nStatus →
      pipe.m_lSocketHandler = st.pipe.m_lSocketHandler →
      (∀ u, (worker u).pc.closing = (st.worker u).pc.closing) →
      MainMoves st main → Tells st a callbacks →
      st' = { st with pipe, worker, dealing, main, call, callbacks } → LifeMoves st a st'
  | again : a = .ret → st.main = .connected true →
      st' = { st with main := .connected false, callbacks := st.callbacks ++ [.OnConnected] } →
      LifeMoves st a st'
  | Send (src : List UInt8) : a = .Send src → st.main.inCallback = true →
      st' = { st with
        call := .sendTest src
        failed := st.failed || decide (st.pipe.m_nStatus ≠ .SS_ESTABLISHED) } →
      LifeMoves st a st'
  | Close : a = .Close → st.main.inCallback = true →
      st' = { st with
        pipe := st.pipe.closeMark
        call := .closeLock
        closeCalled := true
        revived := st.revived || st.doClosed } → LifeMoves st a st'
  | post (opt : EpollFlags) (result : SendResult) : a = .goOn result → st.call = .post opt →
      st' = { st with call := .idle, failed := st.failed || !st.workerSet } →
      LifeMoves st a st'
  | doClose (w : Nat) (next : WorkerPc) : st.pipe.m_nStatus ≠ .SS_UNINITIALIZE →
      st.closes a = true →
      st' = { st with
        pipe := { st.pipe with m_nStatus := .SS_UNINITIALIZE }
        doClosed := true }.goTo w (.del next) → LifeMoves st a st'
  | del (w : Nat) (next : WorkerPc) : (st.worker w).pc = .del next →
      st' = { st with workerSet := false }.goTo w (.shut next) → LifeMoves st a st'
  | shut (w : Nat) (next : WorkerPc) : (st.worker w).pc = .shut next →
      st' = { st with
        pipe := { st.pipe with m_lSocketHandler := -1 }
        mainSet := false
        workerSet := false }.goTo w (.run next) → LifeMoves st a st'
  | connected (lSocket lEpollFD : Nat) (ok : Bool) :
      a = .AddClient lSocket lEpollFD .connected ok → st.inUse = false → st.main = .idle →
      st' = (if ok then (st.start lSocket lEpollFD true).DoConnect ok true else
        { (st.start lSocket lEpollFD true).DoConnect ok true with
          callbacks := ((st.start lSocket lEpollFD true).DoConnect ok true).callbacks
            ++ [.OnConnected] }) → LifeMoves st a st'
  | inProgress (lSocket lEpollFD : Nat) (ok : Bool) :
      a = .AddClient lSocket lEpollFD .EINPROGRESS ok → st.inUse = false → st.main = .idle →
      st' = { st.start lSocket lEpollFD true with mainSet := ok, connecting := true } →
      LifeMoves st a st'
  | accepted (lSocket lEpollFD : Nat) (ok : Bool) :
      a = .DoAccept lSocket lEpollFD ok → st.inUse = false → st.main = .idle →
      st' = (if ok then
        { (st.start lSocket lEpollFD false).establish with workerSet := true, main := .accepted }
        else (st.start lSocket lEpollFD false).establish.Release) → LifeMoves st a st'
  | SetStatus : a = .SetStatus → st.main = .accepted →
      st' = { st.establish with
        main := .connected false
        callbacks := st.callbacks ++ [.OnConnected] } → LifeMoves st a st'
  | connectFailed (mask : EpollFlags) (dealing : List EpollFlags) (ok : Bool) :
      a = .DealEvent ok → st.main = .idle → st.dealing = mask :: dealing →
      st.inUse = true → mask.hasError = true → st' = { st with dealing }.connectFailed →
      LifeMoves st a st'
  | DoConnect (mask : EpollFlags) (dealing : List EpollFlags) (ok : Bool) :
      a = .DealEvent ok → st.main = .idle → st.dealing = mask :: dealing →
      st.inUse = true → mask.hasError = false → mask.EPOLLOUT = true → st.canAdd ok = true →
      st' = { st with dealing }.DoConnect ok false → LifeMoves st a st'

/-- A step that changes streams and the places of the workers only. -/
theorem LifeMoves.of_worker {st st' : PipeLife} {a : LifeAction} (pipe : CPipe)
    (worker : Nat → LifeWorker) (hstatus : pipe.m_nStatus = st.pipe.m_nStatus)
    (hsocket : pipe.m_lSocketHandler = st.pipe.m_lSocketHandler)
    (hclosing : ∀ u, (worker u).pc.closing = (st.worker u).pc.closing)
    (h : st' = { st with pipe, worker }) : LifeMoves st a st' :=
  .quiet pipe worker st.dealing st.main st.call st.callbacks hstatus hsocket hclosing
    (.inl rfl) (.inl rfl) h

/-- A step of the main thread that changes places and callbacks only. -/
theorem LifeMoves.of_main {st st' : PipeLife} {a : LifeAction} (main : LifeMain)
    (callbacks : List PipeCallback) (hmain : MainMoves st main) (htells : Tells st a callbacks)
    (h : st' = { st with main, callbacks }) : LifeMoves st a st' :=
  .quiet st.pipe st.worker st.dealing main st.call callbacks rfl rfl (fun _ => rfl) hmain
    htells h

/-! ### The workers -/

/-- A worker that goes from one place of `Run` to another is not in `DoClose`. -/
theorem closing_goTo {st : PipeLife} {w : Nat} {pc pc' : WorkerPc}
    (h : (st.worker w).pc = .run pc) (u : Nat) :
    ((st.goTo w (.run pc')).worker u).pc.closing = (st.worker u).pc.closing := by
  simp only [goTo]
  split
  · rename_i hu
    rw [hu, h]
    rfl
  · rfl

/-- `DoClose` is called from `Run`. -/
theorem DoClose_moves {st st' : PipeLife} {w : Nat} {pc next : WorkerPc} {a : LifeAction}
    (hpc : (st.worker w).pc = .run pc)
    (ha : st.pipe.m_nStatus ≠ .SS_UNINITIALIZE → st.closes a = true)
    (h : st' = st.DoClose w next) : LifeMoves st a st' := by
  unfold DoClose at h
  split at h
  · rename_i hstatus
    exact .doClose w next hstatus (ha hstatus) h
  · exact .of_worker st.pipe _ rfl rfl (closing_goTo hpc) h

/-- A step of a worker. -/
theorem work_moves {st st' : PipeLife} {w : Nat} {received : RecvResult} {sent : SendResult}
    (h : st.work w received sent = some st') : LifeMoves st (.work w received sent) st' := by
  unfold work at h
  cases hpc : (st.worker w).pc with
  | del next =>
      rw [hpc] at h
      cases h
      exact .del w next hpc rfl
  | shut next =>
      rw [hpc] at h
      cases h
      exact .shut w next hpc rfl
  | run pc =>
      rw [hpc] at h
      cases pc with
      | wait =>
          dsimp only [take] at h
          split at h
          · cases h
          · cases h
            -- The other workers stay, and this one is in front of no `close` either way.
            refine .of_worker st.pipe _ rfl rfl (fun u => ?_) rfl
            split
            · rename_i hu
              rw [hu, hpc]
              rfl
            · rfl
      | testRecv mask =>
          dsimp only at h
          split at h
          · cases h
            exact .of_worker st.pipe _ rfl rfl (closing_goTo hpc) rfl
          · cases h
            exact .of_worker st.pipe _ rfl rfl (closing_goTo hpc) rfl
      | inRecv mask n =>
          cases received with
          | data piece =>
              dsimp only at h
              split at h
              · cases h
                let s := st.pipe.m_oRecvStream.inBytes (Mem.ofList piece 0) piece.length
                exact .of_worker { st.pipe with m_oRecvStream := s } _ rfl rfl
                  (closing_goTo hpc) rfl
              · cases h
          | EAGAIN =>
              dsimp only at h
              split at h
              · cases h
                exact .of_worker st.pipe _ rfl rfl (closing_goTo hpc) rfl
              · cases h
          | ended =>
              -- `recv` has met the end of the stream or an error.
              cases h
              exact DoClose_moves hpc (fun hstatus => by simp [closes, hpc, hstatus]) rfl
      | testSend mask t =>
          dsimp only at h
          split at h
          · cases h
            exact .of_worker st.pipe _ rfl rfl (closing_goTo hpc) rfl
          · cases h
            exact .of_worker st.pipe _ rfl rfl (closing_goTo hpc) rfl
      | inSend mask t =>
          dsimp only at h
          split at h
          · obtain ⟨⟨r, e⟩, hr, rfl⟩ := Option.map_eq_some_iff.mp h
            -- One round of the loop of `DoSend` keeps the status and the socket.
            have hby := CPipe.doSendRound_sentBy hr
            cases e with
            | again => exact .of_worker r.pipe st.worker hby.status hby.socket (fun _ => rfl) rfl
            | returned type =>
                exact .of_worker r.pipe _ hby.status hby.socket (closing_goTo hpc) rfl
          · cases h
      | testClose mask t =>
          dsimp only at h
          split at h
          · -- The event says that the connection is broken.
            rename_i herr
            cases h
            exact DoClose_moves hpc (fun hstatus => by simp [closes, hpc, hstatus, herr.1]) rfl
          · cases h
            exact .of_worker st.pipe _ rfl rfl (closing_goTo hpc) rfl
      | add t =>
          cases h
          refine .of_worker st.pipe _ rfl rfl (fun u => ?_) rfl
          split
          · rename_i hu
            rw [hu, hpc]
            rfl
          · rfl

/-! ### The main thread -/

/-- A step inside `Send` or `Close`. -/
theorem goOn_moves {st st' : PipeLife} {result : SendResult} (h : st.goOn result = some st') :
    LifeMoves st (.goOn result) st' := by
  -- All steps but the `epoll_ctl` change the streams and the place in the call only.
  have hquiet : ∀ (p : CPipe) (call : LifeCall), p.m_nStatus = st.pipe.m_nStatus →
      p.m_lSocketHandler = st.pipe.m_lSocketHandler →
      LifeMoves st (.goOn result) { st with pipe := p, call } := by
    intro p call hstatus hsocket
    exact .quiet p st.worker st.dealing st.main call st.callbacks hstatus hsocket
      (fun _ => rfl) (.inl rfl) (.inl rfl) rfl
  unfold goOn at h
  cases hcall : st.call with
  | idle =>
      rw [hcall] at h
      cases h
  | sendTest src =>
      rw [hcall] at h
      cases h
      by_cases hstatus : st.pipe.m_nStatus = .SS_ESTABLISHED
      · rw [CPipe.sendIn_accepted hstatus]
        exact hquiet _ _ rfl rfl
      · rw [CPipe.sendIn_refused hstatus]
        exact hquiet _ _ rfl rfl
  | sendLock =>
      rw [hcall] at h
      cases h
      exact hquiet st.pipe _ rfl rfl
  | sendLoop =>
      rw [hcall] at h
      dsimp only at h
      split at h
      · obtain ⟨⟨p, call⟩, hr, rfl⟩ := Option.map_eq_some_iff.mp h
        have hframe := CPipe.sendRound_frame hr
        exact hquiet p call hframe.1 hframe.2
      · cases h
  | closeLock =>
      rw [hcall] at h
      cases h
      exact hquiet st.pipe _ rfl rfl
  | post opt =>
      rw [hcall] at h
      cases h
      exact .post opt result rfl hcall rfl

/-- `case SO_CONNECT` of `DealEvent`. -/
theorem deal_moves {st st' : PipeLife} {mask : EpollFlags} {dealing : List EpollFlags}
    {ok : Bool} (hmain : st.main = .idle) (hdealing : st.dealing = mask :: dealing)
    (h : { st with dealing }.deal mask ok = some st') : LifeMoves st (.DealEvent ok) st' := by
  unfold deal at h
  split at h
  · rename_i huse
    split at h
    · rename_i herr
      cases h
      exact .connectFailed mask dealing ok rfl hmain hdealing huse herr rfl
    · rename_i herr
      split at h
      · rename_i hout
        split at h
        · rename_i hadd
          cases h
          exact .DoConnect mask dealing ok rfl hmain hdealing huse
            (Bool.not_eq_true _ ▸ herr) hout hadd rfl
        · cases h
      · cases h
        exact .quiet st.pipe st.worker dealing st.main st.call st.callbacks rfl rfl
          (fun _ => rfl) (.inl rfl) (.inl rfl) rfl
  · cases h

/-- A step. -/
theorem step_moves {st st' : PipeLife} {a : LifeAction} (h : st.step a = some st') :
    LifeMoves st a st' := by
  cases a with
  | AddClient lSocket lEpollFD ret ok =>
      simp only [step] at h
      split at h
      · rename_i hfree
        cases ret with
        | connected =>
            cases h
            exact .connected lSocket lEpollFD ok rfl hfree.1 hfree.2 rfl
        | EINPROGRESS =>
            -- The connection is made later, by `DealEvent`.
            cases h
            exact .inProgress lSocket lEpollFD ok rfl hfree.1 hfree.2 rfl
      · cases h
  | DoAccept lSocket lEpollFD ok =>
      simp only [step] at h
      split at h
      · rename_i hfree
        cases h
        exact .accepted lSocket lEpollFD ok rfl hfree.1 hfree.2 rfl
      · cases h
  | SetStatus =>
      simp only [step] at h
      split at h
      · rename_i hmain
        cases h
        exact .SetStatus rfl hmain rfl
      · cases h
  | ret =>
      simp only [step] at h
      split at h
      · rename_i again hmain _
        cases h
        cases again with
        -- `AddClient` calls `OnConnected` once more.
        | true => exact .again rfl hmain rfl
        | false => exact .of_main .idle st.callbacks (.inr (.inl rfl)) (.inl rfl) rfl
      · cases h
  | wait mask =>
      simp only [step] at h
      split at h
      · cases h
        exact .quiet st.pipe st.worker _ st.main st.call st.callbacks rfl rfl (fun _ => rfl)
          (.inl rfl) (.inl rfl) rfl
      · cases h
  | DealEvent ok =>
      simp only [step] at h
      split at h
      · rename_i mask dealing hmain hdealing
        exact deal_moves hmain hdealing h
      · cases h
  | Send src =>
      simp only [step] at h
      split at h
      · rename_i hcall
        cases h
        exact .Send src rfl hcall.1 rfl
      · cases h
  | Close =>
      simp only [step] at h
      split at h
      · rename_i hcall
        cases h
        exact .Close rfl hcall.1 rfl
      · cases h
  | goOn result => exact goOn_moves h
  | read w =>
      simp only [step] at h
      split at h
      · cases h
        refine .quiet st.pipe _ st.dealing _ st.call st.callbacks rfl rfl (fun u => ?_)
          (.inr (.inl rfl)) (.inl rfl) rfl
        split
        · rename_i hu
          rw [hu]
        · rfl
      · cases h
  | look =>
      simp only [step] at h
      split at h
      · split at h
        · split at h
          · -- `OnRecv` is called only where there is something to read.
            rename_i huse
            cases h
            exact .of_main _ _ (.inr (.inr ⟨huse, _, rfl⟩)) (.inr (.inl ⟨huse, rfl⟩)) rfl
          · cases h
        · cases h
          exact .of_main _ st.callbacks (.inr (.inl rfl)) (.inl rfl) rfl
      · cases h
  | used nUse =>
      simp only [step] at h
      split at h
      · cases h
        refine .quiet _ st.worker st.dealing _ st.call st.callbacks ?_ ?_ (fun _ => rfl)
          (.inr (.inl ?_)) (.inl rfl) rfl
        · rfl
        · rfl
        · split <;> rfl
      · cases h
  | finish =>
      simp only [step] at h
      split at h
      · rename_i t hmain
        split at h
        · rename_i ht
          -- A BREAK event ends with `OnDisconnect`.
          subst ht
          split at h
          · cases h
            exact .of_main .idle _ (.inr (.inl rfl)) (.inr (.inr ⟨rfl, hmain, rfl⟩)) rfl
          · cases h
        · cases h
          exact .of_main .idle st.callbacks (.inr (.inl rfl)) (.inl rfl) rfl
      · cases h
  | event w mask =>
      simp only [step] at h
      split at h
      · cases h
        refine .of_worker st.pipe _ rfl rfl (fun u => ?_) rfl
        split
        · rename_i hu
          rw [hu]
        · rfl
      · cases h
  | work w received sent => exact work_moves h

/-! ### Use -/

/-- A unit that is not in use has no status and is not connecting, and the main thread is in
callbacks of units in use only. -/
structure UseInv (st : PipeLife) : Prop where
  unused : st.inUse = false → st.pipe.m_nStatus = .SS_UNINITIALIZE ∧ st.connecting = false
  busy : st.main.isFree = false → st.inUse = true

/-- A main thread in a callback is not free. -/
theorem isFree_of_inCallback {main : LifeMain} (h : main.inCallback = true) :
    main.isFree = false := by
  cases main with
  | connected again => rfl
  | inRecv t => rfl
  | idle => cases h
  | accepted => cases h
  | draining t => cases h
  | drained t => cases h

/-- A unit that was never in use. -/
theorem useInv_init : UseInv init where
  unused _ := ⟨rfl, rfl⟩
  busy h := by cases h

/-- A unit in use. -/
theorem UseInv.of_inUse {st : PipeLife} (huse : st.inUse = true) : UseInv st where
  unused h := by
    rw [huse] at h
    cases h
  busy _ := huse

/-- A unit that has been released by a main thread outside. -/
theorem UseInv.of_Release {st : PipeLife} (hmain : st.main = .idle) : UseInv st.Release where
  unused _ := ⟨rfl, rfl⟩
  busy h := by
    have hfree : st.main.isFree = false := h
    rw [hmain] at hfree
    cases hfree

/-- `DoConnect` leaves the unit in use or releases it. -/
theorem UseInv.of_DoConnect {st : PipeLife} (huse : st.inUse = true) (hmain : st.main = .idle)
    (ok again : Bool) : UseInv (st.DoConnect ok again) := by
  cases ok with
  | true => exact .of_inUse huse
  | false => exact .of_Release hmain

/-- Every step keeps the invariant. -/
theorem UseInv.step {st st' : PipeLife} {a : LifeAction} (h : UseInv st)
    (hs : st.step a = some st') : UseInv st' := by
  cases step_moves hs with
  | quiet pipe worker dealing main call callbacks hstatus hsocket hclosing hmain htells hst =>
      subst hst
      refine ⟨fun hu => ⟨hstatus.trans (h.unused hu).1, (h.unused hu).2⟩, fun hb => ?_⟩
      show st.inUse = true
      -- The main thread stays, becomes free, or enters a callback of a unit in use.
      rcases hmain with rfl | hfree | ⟨huse, _⟩
      · exact h.busy hb
      · have hnot : main.isFree = false := hb
        rw [hfree] at hnot
        cases hnot
      · exact huse
  | again ha hmain hst =>
      subst hst
      exact .of_inUse (h.busy (by rw [hmain]; rfl))
  | Send src ha hmain hst =>
      subst hst
      exact ⟨h.unused, h.busy⟩
  | Close ha hmain hst =>
      subst hst
      exact .of_inUse (h.busy (isFree_of_inCallback hmain))
  | post opt result ha hcall hst =>
      subst hst
      exact ⟨h.unused, h.busy⟩
  | doClose w next hstatus ha hst =>
      subst hst
      exact ⟨fun hu => ⟨rfl, (h.unused hu).2⟩, h.busy⟩
  | del w next hpc hst =>
      subst hst
      exact ⟨h.unused, h.busy⟩
  | shut w next hpc hst =>
      subst hst
      exact ⟨h.unused, h.busy⟩
  | connected lSocket lEpollFD ok ha huse hmain hst =>
      -- The unit is in use when `DoConnect` begins.
      have hstart : (st.start lSocket lEpollFD true).inUse = true := rfl
      have hconnect := UseInv.of_DoConnect hstart hmain ok true
      cases ok with
      | true =>
          subst hst
          exact hconnect
      | false =>
          subst hst
          exact ⟨hconnect.unused, hconnect.busy⟩
  | inProgress lSocket lEpollFD ok ha huse hmain hst =>
      subst hst
      exact .of_inUse rfl
  | accepted lSocket lEpollFD ok ha huse hmain hst =>
      cases ok with
      | true =>
          subst hst
          exact .of_inUse rfl
      | false =>
          subst hst
          exact .of_Release hmain
  | SetStatus ha hmain hst =>
      subst hst
      exact .of_inUse (h.busy (by rw [hmain]; rfl))
  | connectFailed mask dealing ok ha hmain hdealing huse herr hst =>
      subst hst
      exact .of_Release hmain
  | DoConnect mask dealing ok ha hmain hdealing huse herr hout hadd hst =>
      subst hst
      have hnext : { st with dealing }.inUse = true := huse
      exact .of_DoConnect hnext hmain ok false

end PipeLife

end Kernel4GameServer
