import Kernel4GameServer.Net.Iocp.Threads
import Kernel4GameServer.Proofs.Net.Iocp.EngineSteps

/-!
# `Kernel4GameServer.Proofs.Net.Iocp.Attended`: what keeps a connection going

A registered pipe is ended by `SendDisconnectEvent`, which only a completion of one of its
operations leads to. `Attended` says that each registered pipe has an outstanding operation,
unless a worker is in an iteration about it. `EndsSilently` lists the steps that end an
iteration of `Run`, start no operation of its pipe and leave it registered, and `ends_silently`
proves the list complete. `attended_iff` is the statement over whole runs of all threads: where
a step of the list is taken, another operation of the pipe has to be outstanding, or another
worker has to be in an iteration about it. `failed_recv` is a run where neither is so, and in
`closedBetween` it is a `Close` between two reads of `m_nStatus` that leads to such a state.
-/

set_option autoImplicit false

namespace Kernel4GameServer.Iocp

open Lib

namespace Engine

variable {st st' : Engine}

/-- The pipe is in the map of a worker. -/
def Registered (st : Engine) (p : Nat) : Prop :=
  ∃ w socket, (st.workers w).m_mapSocketClient socket = some p

/-- The pipe is in a map, apart from the entry of the worker `w` for `socket`. -/
def RegisteredElse (st : Engine) (w : Nat) (socket : Int) (p : Nat) : Prop :=
  ∃ v s, ¬ (v = w ∧ s = socket) ∧ (st.workers v).m_mapSocketClient s = some p

/-- Nothing was started, and the pipe is registered. -/
def Unattended (st st' : Engine) (p : Nat) : Prop :=
  st'.outstanding = st.outstanding ∧ st'.Registered p

/-- A read event changes no map. -/
theorem readEvent_map (st : Engine) (w : Nat) (queue : List IoEvent) (v : Nat) :
    ((st.readEvent w queue).workers v).m_mapSocketClient = (st.workers v).m_mapSocketClient := by
  simp only [readEvent, setWorker]
  split
  · rename_i hv
    rw [hv]
  · rfl

/-- `Registered` is about the maps alone. -/
theorem registered_congr {p : Nat}
    (h : ∀ w, (st'.workers w).m_mapSocketClient = (st.workers w).m_mapSocketClient) :
    st'.Registered p ↔ st.Registered p := by
  simp only [Registered, h]

/-- `SendDisconnectEvent` erases the entry it finds. -/
theorem SendDisconnectEvent_map (st : Engine) (w v : Nat) (socket s : Int) (p : Nat) :
    ((st.SendDisconnectEvent w socket p).workers v).m_mapSocketClient s =
      if (v = w ∧ s = socket) ∧ (st.workers w).m_mapSocketClient socket = some p then none
      else (st.workers v).m_mapSocketClient s := by
  unfold SendDisconnectEvent CheckSocketClient
  by_cases hcheck : (st.workers w).m_mapSocketClient socket = some p
  · simp only [hcheck, decide_true, if_true, and_true, setWorker, Add, Engine.set]
    by_cases hv : v = w
    · subst hv
      simp
    · simp [hv]
  · simp [hcheck]

/-- What `SendDisconnectEvent` leaves in the maps. -/
theorem SendDisconnectEvent_registered (st : Engine) (w : Nat) (socket : Int) (p : Nat) :
    (st.SendDisconnectEvent w socket p).Registered p ↔ st.RegisteredElse w socket p := by
  simp only [Registered, RegisteredElse, SendDisconnectEvent_map]
  refine exists_congr fun v => exists_congr fun s => ?_
  split
  · rename_i hand
    simp [hand.1]
  · rename_i hnot
    constructor
    · intro h
      refine ⟨?_, h⟩
      rintro ⟨rfl, rfl⟩
      exact hnot ⟨⟨rfl, rfl⟩, h⟩
    · exact fun h => h.2

theorem SendDisconnectEvent_outstanding (st : Engine) (w : Nat) (socket : Int) (p : Nat) :
    (st.SendDisconnectEvent w socket p).outstanding = st.outstanding := by
  unfold SendDisconnectEvent
  split <;> rfl

/-- The end of a connection starts nothing. -/
theorem SendDisconnectEvent_unattended {st₁ : Engine} (hops : st₁.outstanding = st.outstanding)
    (hworkers : st₁.workers = st.workers) (w : Nat) (socket : Int) (p : Nat) :
    Unattended st (st₁.SendDisconnectEvent w socket p) p ↔ st.RegisteredElse w socket p := by
  rw [Unattended, SendDisconnectEvent_registered, SendDisconnectEvent_outstanding,
    and_iff_right hops, RegisteredElse, hworkers]
  exact Iff.rfl

/-- An event starts nothing either. -/
theorem Add_unattended {st₁ : Engine} (hops : st₁.outstanding = st.outstanding)
    (hworkers : st₁.workers = st.workers) (w : Nat) (type : IoEventType) (p q : Nat) :
    Unattended st (st₁.Add w type p) q ↔ st.Registered q := by
  refine (and_iff_right hops).trans (registered_congr fun v => ?_)
  simp only [Add, setWorker, hworkers]
  split
  · rename_i hv
    rw [hv]
  · rfl

/-- A new operation attends its pipe. -/
theorem not_unattended {op : Operation} (h : st'.outstanding = st.outstanding ++ [op]) (p : Nat) :
    ¬ Unattended st st' p := by
  intro hun
  have hlen := congrArg List.length (h.symm.trans hun.1)
  simp at hlen

/-- Nothing that is outstanding gets lost in what is done about a pipe. -/
theorem Touches.mem_outstanding {p : Nat} (h : Touches p st st') :
    ∀ op ∈ st.outstanding, op ∈ st'.outstanding := by
  intro op hop
  obtain ⟨ops, hops, -⟩ := h.outstanding
  rw [hops]
  exact List.mem_append_left _ hop

/-- The other pipes are registered as before. -/
theorem Touches.registered {p q : Nat} (h : Touches p st st') (hq : q ≠ p) :
    st'.Registered q ↔ st.Registered q :=
  exists_congr fun w => exists_congr fun socket => h.map w socket q hq

end Engine

namespace Threads

variable {st st' : Threads} {sNetSendSize : Nat}

/-- A worker is in an iteration about the pipe. -/
def Busy (st : Threads) (p : Nat) : Prop := ∃ w, (st.worker w).pCPipe = some p

/-- Each registered pipe has an outstanding operation, between the iterations about it. -/
def Attended (st : Threads) : Prop :=
  ∀ p, st.engine.Registered p → ¬ st.Busy p → ∃ op ∈ st.engine.outstanding, op.pCPipe = p

/-- The next step of the worker `w` ends its iteration, starts no operation of the pipe and
leaves it registered. -/
def EndsSilently (st : Threads) (w : Nat) (ok : Bool) : Prop :=
  match st.worker w with
  | .wait => False
  | .dispatch op result =>
      let p := op.pCPipe
      match (st.engine.event p op.slot).opt with
      | .SO_CONNECT => st.engine.Registered p
      | .SO_ACCEPT => False
      | .SO_TCPRECV =>
          st.engine.CheckSocketClient w op.socket_handler p = false ∧ st.engine.Registered p
      | .SO_TCPSEND =>
          (st.engine.CheckSocketClient w op.socket_handler p = true →
            result.code ≠ ERROR_SUCCESS) ∧ st.engine.Registered p
  | .relate _ => False
  | .acceptStatus _ => False
  | .acceptFlag op =>
      (st.engine.pipe op.pCPipe).m_bNeedPostOPT = false ∧ st.engine.Registered op.pCPipe
  -- The case SO_ACCEPT does not look at what `DoRecv` returns.
  | .doRecv op received =>
      (st.engine.pipe op.pCPipe).m_nStatus = .SS_ESTABLISHED ∧ ok = false ∧ received = false ∧
        st.engine.Registered op.pCPipe
  | .doRecvFlag op received =>
      (received = true → (st.engine.pipe op.pCPipe).m_bNeedPostOPT = false) ∧
        st.engine.Registered op.pCPipe
  | .outTake _ _ => False
  | .outTest _ _ => False
  | .outLook _ _ => False
  | .outIssue _ _ _ => False
  | .outStatus op =>
      (st.engine.pipe op.pCPipe).m_nStatus ≠ .SS_WAITCLOSE ∧ st.engine.Registered op.pCPipe
  | .disconnect op => st.engine.RegisteredElse w op.socket_handler op.pCPipe

/-- Something else than the worker `w` attends to the pipe: an outstanding operation, or
another worker that is in an iteration about it. -/
def AttendedElse (st : Threads) (w p : Nat) : Prop :=
  (∃ op ∈ st.engine.outstanding, op.pCPipe = p) ∨ ∃ v, v ≠ w ∧ (st.worker v).pCPipe = some p

/-- Where a step ends an iteration silently, something else attends to the pipe. A completion
with the code `WAIT_TIMEOUT` is dropped at once. -/
def Backed (st : Threads) : ThreadAction → Prop
  | .GetQueuedCompletionStatus w i result =>
      ∀ op ∈ st.engine.outstanding[i]?, result.code = WAIT_TIMEOUT →
        st.engine.Registered op.pCPipe →
        (∃ op' ∈ st.engine.outstanding.eraseIdx i, op'.pCPipe = op.pCPipe) ∨
          ∃ v, v ≠ w ∧ (st.worker v).pCPipe = some op.pCPipe
  | .Run w ok =>
      ∀ p, (st.worker w).pCPipe = some p → st.EndsSilently w ok → st.AttendedElse w p
  | _ => True

/-- What a step of the worker `w` about the pipe `p` changes, and how it ends: `w` stays in its
iteration, or leaves it, silently where `silent` holds. -/
structure Works (w p : Nat) (silent : Prop) (st st' : Threads) : Prop where
  touches : Engine.Touches p st.engine st'.engine
  run : ∀ v, v ≠ w → st'.worker v = st.worker v
  ends : ((st'.worker w).pCPipe = some p ∧ ¬ silent) ∨
    (st'.worker w = .wait ∧ (Engine.Unattended st.engine st'.engine p ↔ silent))

/-- The worker stays in its iteration. -/
theorem Works.on {w p : Nat} {silent : Prop} {x : RunWorker}
    (htouch : Engine.Touches p st.engine st'.engine) (hrun : st'.worker = (st.go w x).worker)
    (hx : x.pCPipe = some p) (hsilent : ¬ silent) : Works w p silent st st' where
  touches := htouch
  run v hv := by rw [hrun]; exact if_neg hv
  ends := .inl ⟨by rw [hrun]; exact (congrArg _ (if_pos rfl)).trans hx, hsilent⟩

/-- The worker leaves its iteration. -/
theorem Works.off {w p : Nat} {silent : Prop} (htouch : Engine.Touches p st.engine st'.engine)
    (hrun : st'.worker = (st.go w .wait).worker)
    (hends : Engine.Unattended st.engine st'.engine p ↔ silent) : Works w p silent st st' where
  touches := htouch
  run v hv := by rw [hrun]; exact if_neg hv
  ends := .inr ⟨by rw [hrun]; exact if_pos rfl, hends⟩

/-- The worker leaves its iteration, with nothing done about the pipe. -/
theorem Works.leave {w p : Nat} {silent : Prop} (hends : st.engine.Registered p ↔ silent) :
    Works w p silent st (st.go w .wait) :=
  .off (.refl p st.engine) rfl ((and_iff_right rfl).trans hends)

/-- The first step behind `GetQueuedCompletionStatus`. -/
theorem dispatch_works {w : Nat} {op : Operation} {result : Completion} (ok : Bool)
    (hw : st.worker w = .dispatch op result) :
    Works w op.pCPipe (st.EndsSilently w ok) st (st.dispatch w op result) := by
  unfold EndsSilently
  rw [hw]
  unfold dispatch
  dsimp only
  cases hopt : (st.engine.event op.pCPipe op.slot).opt with
  | SO_CONNECT =>
      exact .off (Engine.Add_touches _ w _ _) rfl (Engine.Add_unattended rfl rfl w _ _ _)
  | SO_ACCEPT => exact .on (.refl _ _) rfl rfl id
  | SO_TCPRECV =>
      dsimp only
      cases hcheck : st.engine.CheckSocketClient w op.socket_handler op.pCPipe with
      | false => exact .leave (and_iff_right rfl).symm
      | true =>
          rw [if_pos rfl]
          split
          · exact .on (Engine.In_touches _ _ _ _) rfl rfl (by simp)
          · exact .on (.refl _ _) rfl rfl (by simp)
  | SO_TCPSEND =>
      dsimp only
      cases hcheck : st.engine.CheckSocketClient w op.socket_handler op.pCPipe with
      | false => exact .leave (by simp)
      | true =>
          rw [if_pos rfl]
          split
          · rename_i hcode
            exact .on (.refl _ _) rfl rfl (by simp [hcode])
          · rename_i hcode
            exact .leave (by simp [hcode])

/-- What follows `DoRecv`, where it has started nothing. -/
theorem recvDone_works {w : Nat} {op : Operation} (received res : Bool) {silent : Prop}
    (hsilent : silent ↔ (received = true → res = true) ∧ st.engine.Registered op.pCPipe) :
    Works w op.pCPipe silent st (st.recvDone w op received res) := by
  unfold recvDone
  cases received with
  | false => exact .leave (by simp [hsilent])
  | true =>
      cases res with
      | false => exact .on (.refl _ _) rfl rfl (by simp [hsilent])
      | true =>
          refine .off (Engine.Add_touches _ w _ _) rfl ?_
          exact (Engine.Add_unattended rfl rfl w _ _ _).trans (by simp [hsilent])

/-- `DoRecv`, up to the result of WSARecv. -/
theorem doRecv_works {w : Nat} {op : Operation} {received : Bool} (ok : Bool)
    (hw : st.worker w = .doRecv op received) :
    Works w op.pCPipe (st.EndsSilently w ok) st (st.doRecv w op received ok) := by
  have hset : Engine.Touches op.pCPipe st.engine (st.engine.set op.pCPipe
      ((st.engine.pipe op.pCPipe).formatRecv .SO_TCPRECV)) := Engine.set_touches _ rfl
  unfold EndsSilently
  rw [hw]
  unfold doRecv CPipe.doRecvStatus
  dsimp only
  by_cases hstatus : (st.engine.pipe op.pCPipe).m_nStatus = .SS_ESTABLISHED
  · rw [if_pos (show ((st.engine.pipe op.pCPipe).formatRecv .SO_TCPRECV).m_nStatus
      = .SS_ESTABLISHED from hstatus)]
    cases ok with
    | true =>
        -- The WSARecv attends to the pipe.
        have hstart := hset.trans (Engine.start_touches _ op.pCPipe .m_pRecvEvent false)
        have hsilent : ¬ ((st.engine.pipe op.pCPipe).m_nStatus = .SS_ESTABLISHED ∧ true = false ∧
            received = false ∧ st.engine.Registered op.pCPipe) := fun h => by cases h.2.1
        dsimp only
        unfold recvDone
        cases received with
        | false => exact .off hstart rfl (iff_of_false (Engine.not_unattended rfl _) hsilent)
        | true =>
            exact .off (hstart.trans (Engine.Add_touches _ w _ _)) rfl
              (iff_of_false (Engine.not_unattended rfl _) hsilent)
    | false =>
        dsimp only
        unfold recvDone
        cases received with
        | false =>
            exact .off hset rfl ⟨fun h => ⟨hstatus, rfl, rfl, h.2⟩, fun h => ⟨rfl, h.2.2.2⟩⟩
        | true => exact .on hset rfl rfl (by simp)
  · rw [if_neg (show ((st.engine.pipe op.pCPipe).formatRecv .SO_TCPRECV).m_nStatus
      ≠ .SS_ESTABLISHED from hstatus)]
    exact .on hset rfl rfl fun h => hstatus h.1

/-- The list is complete: a step of a worker is about the pipe of its operation, and leaves it
unattended in exactly these cases. -/
theorem runWorker_works {w p : Nat} {ok : Bool} (h : st.runWorker sNetSendSize w ok = some st')
    (hp : (st.worker w).pCPipe = some p) : Works w p (st.EndsSilently w ok) st st' := by
  unfold runWorker at h
  cases hw : st.worker w <;> rw [hw] at h hp <;> dsimp only at h <;> cases hp
  case dispatch op result =>
    cases h
    exact dispatch_works ok hw
  case relate op =>
    cases h
    refine .on (Engine.RelateSocketClient_touches _ w _ _) rfl rfl ?_
    rw [EndsSilently, hw]
    exact id
  case acceptStatus op =>
    cases h
    refine .on (.refl _ _) rfl ?_ ?_
    · split <;> rfl
    · rw [EndsSilently, hw]
      exact id
  case acceptFlag op =>
    cases h
    rw [EndsSilently, hw]
    cases hflag : (st.engine.pipe op.pCPipe).m_bNeedPostOPT with
    | true => exact .on (.refl _ _) rfl rfl (by simp [hflag])
    | false => exact .leave (by simp [hflag])
  case doRecv op received =>
    cases h
    exact doRecv_works ok hw
  case doRecvFlag op received =>
    cases h
    refine recvDone_works received _ ?_
    rw [EndsSilently, hw]
    simp
  case outTake op nIOBytes =>
    split at h
    · cases h
    · cases h
      refine .on (Engine.set_touches _ rfl) rfl rfl ?_
      rw [EndsSilently, hw]
      exact id
  case outTest op nIOBytes =>
    have hsilent : ¬ st.EndsSilently w ok := by
      rw [EndsSilently, hw]
      exact id
    cases h
    split
    · have hset : Engine.Touches op.pCPipe st.engine (st.engine.set op.pCPipe
          (st.engine.pipe op.pCPipe).outTest.1) := by
        refine Engine.set_touches _ ?_
        unfold CPipe.outTest
        split <;> rfl
      exact .on (hset.trans (Engine.record_touches _ _ _ _ _)) rfl rfl hsilent
    · exact .on (.refl _ _) rfl rfl hsilent
  case outLook op nIOBytes =>
    cases h
    refine .on (Engine.set_touches _ rfl) rfl rfl ?_
    rw [EndsSilently, hw]
    exact id
  case outIssue op nIOBytes long =>
    have hsilent : ¬ st.EndsSilently w ok := by
      rw [EndsSilently, hw]
      exact id
    cases h
    cases ok with
    | true =>
        refine .off ((Engine.record_touches _ _ _ _ _).trans (Engine.start_touches _ _ _ _)) rfl ?_
        exact iff_of_false (Engine.not_unattended rfl _) hsilent
    | false => exact .on (Engine.record_touches _ _ _ _ _) rfl rfl hsilent
  case outStatus op =>
    cases h
    rw [EndsSilently, hw]
    by_cases hwait : (st.engine.pipe op.pCPipe).m_nStatus = .SS_WAITCLOSE
    · rw [if_pos hwait]
      exact .on (.refl _ _) rfl rfl fun h => h.1 hwait
    · rw [if_neg hwait]
      exact .leave (and_iff_right hwait).symm
  case disconnect op =>
    cases h
    refine .off (Engine.SendDisconnectEvent_touches _ w _ _) rfl ?_
    rw [EndsSilently, hw]
    exact Engine.SendDisconnectEvent_unattended rfl rfl w _ _

/-- What an attended engine needs of its pipes, where the workers are as before. -/
theorem Attended.mono (hP : st.Attended)
    (hmap : ∀ w, (st'.engine.workers w).m_mapSocketClient
      = (st.engine.workers w).m_mapSocketClient)
    (hops : ∀ op ∈ st.engine.outstanding, op ∈ st'.engine.outstanding)
    (hrun : st'.worker = st.worker) : st'.Attended := by
  intro p hreg hbusy
  obtain ⟨op, hop, hp⟩ := hP p ((Engine.registered_congr hmap).mp hreg) fun hbusy' => by
    obtain ⟨w, hw⟩ := hbusy'
    exact hbusy ⟨w, by rw [hrun]; exact hw⟩
  exact ⟨op, hops op hop, hp⟩

/-- A step that is about the pipe `p` leaves the others attended. -/
theorem Attended.others {w p q : Nat} (hP : st.Attended) (hq : q ≠ p)
    (htouch : Engine.Touches p st.engine st'.engine)
    (hrun : ∀ v, v ≠ w → st'.worker v = st.worker v)
    (hp : (st.worker w).pCPipe = some p ∨ (st.worker w).pCPipe = none)
    (hreg : st'.engine.Registered q) (hbusy : ¬ st'.Busy q) :
    ∃ op ∈ st'.engine.outstanding, op.pCPipe = q := by
  obtain ⟨op, hop, hpipe⟩ := hP q ((htouch.registered hq).mp hreg) fun hbusy' => by
    obtain ⟨v, hv⟩ := hbusy'
    refine hbusy ⟨v, ?_⟩
    rw [hrun v]
    · exact hv
    · rintro rfl
      rcases hp with hp | hp <;> rw [hp] at hv <;> cases hv
      exact hq rfl
  exact ⟨op, htouch.mem_outstanding op hop, hpipe⟩

/-- A step of a worker leads to an attended engine just when it does not end its iteration
silently or something else attends to the pipe. -/
theorem Works.attended {w p : Nat} {silent : Prop} (h : Works w p silent st st')
    (hP : st.Attended) (hp : (st.worker w).pCPipe = some p) :
    st'.Attended ↔ (silent → st.AttendedElse w p) := by
  have hothers : ∀ q, q ≠ p → st'.engine.Registered q → ¬ st'.Busy q →
      ∃ op ∈ st'.engine.outstanding, op.pCPipe = q :=
    fun q hq hreg hbusy => hP.others hq h.touches h.run (.inl hp) hreg hbusy
  rcases h.ends with ⟨hpc, hsilent⟩ | ⟨hwait, hends⟩
  · -- The worker is still in its iteration about `p`.
    refine iff_of_true (fun q hreg hbusy => ?_) fun hs => absurd hs hsilent
    by_cases hq : q = p
    · subst hq
      exact absurd ⟨w, hpc⟩ hbusy
    · exact hothers q hq hreg hbusy
  · have helse : ∀ q v, (st'.worker v).pCPipe = some q → v ≠ w ∧ (st.worker v).pCPipe = some q := by
      intro q v hv
      have hne : v ≠ w := by
        rintro rfl
        rw [hwait] at hv
        cases hv
      exact ⟨hne, by rw [← h.run v hne]; exact hv⟩
    rw [← hends]
    constructor
    · rintro hatt ⟨hops, hreg⟩
      by_cases hbusy : st'.Busy p
      · obtain ⟨v, hv⟩ := hbusy
        exact .inr ⟨v, helse p v hv⟩
      · obtain ⟨op, hop, hpipe⟩ := hatt p hreg hbusy
        rw [hops] at hop
        exact .inl ⟨op, hop, hpipe⟩
    · intro hback q hreg hbusy
      by_cases hq : q = p
      · subst hq
        obtain ⟨ops, hops, hops'⟩ := h.touches.outstanding
        cases ops with
        | cons op ops =>
            -- The step has started an operation.
            refine ⟨op, ?_, (hops' op (.head _)).1⟩
            rw [hops]
            exact List.mem_append_right _ (.head _)
        | nil =>
            rw [List.append_nil] at hops
            rcases hback ⟨hops, hreg⟩ with ⟨op, hop, hpipe⟩ | ⟨v, hne, hv⟩
            · exact ⟨op, h.touches.mem_outstanding op hop, hpipe⟩
            · exact absurd ⟨v, by rw [h.run v hne]; exact hv⟩ hbusy
      · exact hothers q hq hreg hbusy

/-- The same for the next completion of a worker. -/
theorem take_attended {w i : Nat} {op : Operation} {result : Completion} (hP : st.Attended)
    (hw : st.worker w = .wait) (hop : st.engine.outstanding[i]? = some op) :
    (st.take w i op result).Attended ↔
      st.Backed (.GetQueuedCompletionStatus w i result) := by
  have hrun : ∀ v, v ≠ w → (st.take w i op result).worker v = st.worker v := fun v hv => if_neg hv
  have hself : (st.take w i op result).worker w
      = if result.code = WAIT_TIMEOUT then .wait else .dispatch op result := if_pos rfl
  have hothers : ∀ q, q ≠ op.pCPipe → (st.take w i op result).engine.Registered q →
      ¬ (st.take w i op result).Busy q →
      ∃ op' ∈ st.engine.outstanding.eraseIdx i, op'.pCPipe = q := by
    intro q hq hreg hbusy
    obtain ⟨op', hop', hpipe⟩ := hP q hreg fun hbusy' => by
      obtain ⟨v, hv⟩ := hbusy'
      refine hbusy ⟨v, ?_⟩
      rw [hrun v]
      · exact hv
      · rintro rfl
        rw [hw] at hv
        cases hv
    -- The operation that ended was not one of `q`.
    refine ⟨op', ?_, hpipe⟩
    obtain ⟨j, hj⟩ := List.mem_iff_getElem?.mp hop'
    refine List.mem_eraseIdx_iff_getElem?.mpr ⟨j, ?_, hj⟩
    rintro rfl
    rw [hop] at hj
    cases hj
    exact hq hpipe.symm
  have hback : st.Backed (.GetQueuedCompletionStatus w i result) ↔
      (result.code = WAIT_TIMEOUT → st.engine.Registered op.pCPipe →
        (∃ op' ∈ st.engine.outstanding.eraseIdx i, op'.pCPipe = op.pCPipe) ∨
          ∃ v, v ≠ w ∧ (st.worker v).pCPipe = some op.pCPipe) := by
    simp only [Backed, hop, Option.mem_def, Option.some.injEq, forall_eq']
  rw [hback]
  constructor
  · intro hatt hcode hreg
    rw [if_pos hcode] at hself
    by_cases hbusy : (st.take w i op result).Busy op.pCPipe
    · obtain ⟨v, hv⟩ := hbusy
      have hne : v ≠ w := by
        rintro rfl
        rw [hself] at hv
        cases hv
      exact .inr ⟨v, hne, by rw [← hrun v hne]; exact hv⟩
    · exact .inl (hatt op.pCPipe hreg hbusy)
  · intro hback q hreg hbusy
    by_cases hq : q = op.pCPipe
    · subst hq
      by_cases hcode : result.code = WAIT_TIMEOUT
      · rcases hback hcode hreg with hop' | ⟨v, hne, hv⟩
        · exact hop'
        · exact absurd ⟨v, by rw [hrun v hne]; exact hv⟩ hbusy
      · rw [if_neg hcode] at hself
        exact absurd ⟨w, by rw [hself]; rfl⟩ hbusy
    · exact hothers q hq hreg hbusy

/-- A pipe is taken from the pool. -/
theorem Attended.create {p : Nat} {engine : Engine} (hP : st.Attended)
    (h : st.engine.Create = some (p, engine)) : Attended { st with engine := engine } := by
  refine hP.mono (fun w => ?_) (fun op hop => ?_) rfl
  · show (engine.workers w).m_mapSocketClient = _
    rw [Engine.Create_eq h]
  · show op ∈ engine.outstanding
    rw [Engine.Create_eq h]
    exact hop

/-- A step of the main thread leaves an attended engine attended: it writes to no map and ends no
operation. -/
theorem Attended.main {a : EngineAction} {engine : Engine} (hP : st.Attended)
    (ha : a.whole = true) (h : Engine.step sNetSendSize st.engine a = some engine) :
    Attended { st with engine := engine } := by
  cases Engine.step_happens h with
  | @connect client w result p st₁ x hc _ _ =>
      have hP₁ := hP.create hc
      exact hP₁.mono (fun _ => rfl)
        (Engine.start_touches (st₁.set p x) p .m_pRecvEvent false).mem_outstanding rfl
  | noConnect hc _ =>
      have hP₁ := hP.create hc
      exact hP₁
  | accept _ hc =>
      have hP₁ := hP.create hc
      exact hP₁
  | noAccept _ hc =>
      have hP₁ := hP.create hc
      exact hP₁
  | client _ _ _ heq hcases htouch =>
      subst heq
      refine hP.mono (fun v => ?_) htouch.mem_outstanding rfl
      rcases hcases with hcase | hcase
      · rw [hcase]
        rfl
      · rw [hcase, Engine.post_workers]
        rfl
  | noClient _ => exact hP
  | recover _ => exact hP
  | @event w nUse e queue _ _ _ _ _ _ htouch hworkers =>
      refine hP.mono (fun v => ?_) htouch.mem_outstanding rfl
      rw [hworkers]
      exact Engine.readEvent_map st.engine w queue v
  | @finish w nUse e queue host st₁ _ _ _ _ heq htouch =>
      refine hP.mono (fun v => ?_) htouch.mem_outstanding rfl
      subst heq
      exact Engine.readEvent_map st.engine w queue v
  | Send => cases ha
  | Close _ htouch => exact hP.mono (fun _ => rfl) htouch.mem_outstanding rfl
  | Run => cases ha

/-- So does the locked section of `Send`. -/
theorem Attended.sendLocked {s : Sending} (hP : st.Attended) : (st.sendLocked s).Attended := by
  unfold Threads.sendLocked
  dsimp only
  split
  · refine hP.mono (fun v => ?_) (fun op hop => ?_) rfl
    · rw [Engine.post_workers]
      rfl
    · exact (Engine.post_touches _ s.pCPipe .m_pSendEvent).mem_outstanding op hop
  · exact hP

/-- A step leads to an attended engine just when it is backed. -/
theorem step_backed {a : ThreadAction} (hP : st.Attended)
    (h : step sNetSendSize st a = some st') : st'.Attended ↔ st.Backed a := by
  cases a with
  | main a =>
      simp only [step] at h
      split at h
      · split at h
        · rename_i ha
          obtain ⟨engine, hengine, rfl⟩ := Option.map_eq_some_iff.mp h
          exact iff_of_true (hP.main ha hengine) trivial
        · cases h
      · cases h
  | Send client src =>
      simp only [step] at h
      split at h
      · cases h
        exact iff_of_true hP trivial
      · cases h
  | append a =>
      simp only [step] at h
      split at h
      · split at h
        · obtain ⟨io, -, rfl⟩ := Option.map_eq_some_iff.mp h
          exact iff_of_true hP trivial
        · cases h
      · cases h
  | sendLocked =>
      simp only [step] at h
      split at h
      · split at h
        · split at h
          · cases h
          · cases h
            exact iff_of_true hP.sendLocked trivial
        · cases h
      · cases h
  | GetQueuedCompletionStatus w i result =>
      simp only [step] at h
      split at h
      · rename_i op hw hop
        split at h
        · cases h
          exact take_attended hP hw hop
        · cases h
      · cases h
  | Run w ok =>
      obtain ⟨p, hp⟩ : ∃ p, (st.worker w).pCPipe = some p := by
        cases hw : st.worker w with
        | wait =>
            simp only [step, runWorker, hw] at h
            cases h
        | _ => exact ⟨_, rfl⟩
      rw [(runWorker_works h hp).attended hP hp]
      simp only [Backed, hp, Option.some.injEq, forall_eq']

theorem attended_init : init.Attended := by
  rintro p ⟨w, socket, h⟩
  cases h

/-- A registered pipe is not attended where nothing is outstanding and no worker is on its way. -/
theorem not_attended {p : Nat} (hreg : st.engine.Registered p) (hfirst : st.worker 0 = .wait)
    (hothers : ∀ w, st.worker (w + 1) = .wait) (hops : st.engine.outstanding = []) :
    ¬ st.Attended := by
  intro hatt
  have hbusy : ¬ st.Busy p := by
    rintro ⟨w, hw⟩
    cases w with
    | zero =>
        rw [hfirst] at hw
        cases hw
    | succ w =>
        rw [hothers] at hw
        cases hw
  obtain ⟨op, hop, -⟩ := hatt p hreg hbusy
  rw [hops] at hop
  cases hop

/-- A client is accepted, and the first WSARecv fails. `Run` ignores what `DoRecv` returns
there. -/
def failedRecv : List ThreadAction :=
  [.main (.CompletedAccept 5 true), .main (.MallocConnection (some 0) 0 true),
    .GetQueuedCompletionStatus 0 0 .ofPacket, .Run 0 true, .Run 0 true, .Run 0 true, .Run 0 false]

/-- In every state of a run each registered pipe has an outstanding operation between the
iterations about it, just when every step that ends one silently leaves something else that
attends to the pipe. -/
theorem attended_iff {sNetSendSize : Nat} {as : List ThreadAction} {st : Threads}
    (h : run (step sNetSendSize) init as = some st) :
    Throughout (step sNetSendSize) Attended init as ↔
      AllSteps (step sNetSendSize) Backed init as :=
  throughout_iff (C := Backed) (I := fun _ => True) (P := Attended)
    (fun _ _ _ _ hP hs => step_backed hP hs) (fun _ _ _ _ _ _ _ => trivial) trivial attended_init h

/-- The run breaks the property: the pipe is registered, nothing is outstanding, no worker is
in an iteration, and no event is queued. -/
theorem failed_recv : ¬ Throughout (step 4096) Attended init failedRecv := by
  intro hall
  have hatt := hall failedRecv List.prefix_rfl _ rfl
  exact not_attended (p := 0) ⟨0, 5, by decide⟩ rfl (fun _ => rfl) rfl hatt

/-- A client is accepted, and its session calls `Close` between the test of the case SO_ACCEPT and
the one of `DoRecv`. -/
def closedBetween : List ThreadAction :=
  [.main (.CompletedAccept 5 true), .main (.MallocConnection (some 0) 0 true),
    .GetQueuedCompletionStatus 0 0 .ofPacket, .Run 0 true, .Run 0 true, .Run 0 true,
    .main (.Close 0), .Run 0 true, .Run 0 true]

/-- Neither of the two sees an established pipe to receive from, and the result of `DoRecv` is
not looked at. -/
example : ¬ Throughout (step 4096) Attended init closedBetween := by
  intro hall
  have hatt := hall closedBetween List.prefix_rfl _ rfl
  exact not_attended (p := 0) ⟨0, 5, by decide⟩ rfl (fun _ => rfl) rfl hatt

/-- The first WSARecv does not fail, and the session sends a byte. -/
def firstRecv : List ThreadAction :=
  [.main (.CompletedAccept 5 true), .main (.MallocConnection (some 0) 0 true),
    .GetQueuedCompletionStatus 0 0 .ofPacket, .Run 0 true, .Run 0 true, .Run 0 true, .Run 0 true,
    .Send 0 [7], .append .relocate, .append .copy, .append .advance, .sendLocked,
    .GetQueuedCompletionStatus 0 1 .ofPacket, .Run 0 true, .Run 0 true, .Run 0 true, .Run 0 true,
    .Run 0 true, .GetQueuedCompletionStatus 0 1 { bytes := [7], code := ERROR_SUCCESS },
    .Run 0 true, .Run 0 true, .Run 0 true, .Run 0 true]

/-- Behind its last step the send side has nothing to do, and the WSARecv attends to the pipe. -/
theorem attended_first : Throughout (step 4096) Attended init firstRecv := by
  have hrun : (run (step 4096) init firstRecv).isSome = true := by decide
  obtain ⟨st, hst⟩ := Option.isSome_iff_exists.mp hrun
  have hsilent : ∀ {st : Threads} {w : Nat}, st.EndsSilently w true = False →
      st.Backed (.Run w true) := fun h _ _ hends => absurd hends (h ▸ id)
  have hcode : ∀ {st : Threads} {w i : Nat} {result : Completion}, result.code ≠ WAIT_TIMEOUT →
      st.Backed (.GetQueuedCompletionStatus w i result) := fun h _ _ hcode => absurd hcode h
  refine (attended_iff hst).mpr
    ⟨trivial, trivial, hcode (by decide), hsilent rfl, hsilent rfl, hsilent rfl, ?_,
      trivial, trivial, trivial, trivial, trivial,
      hcode (by decide), ?_, hsilent rfl, hsilent rfl, hsilent rfl, hsilent rfl,
      hcode (by decide), ?_, hsilent rfl, hsilent rfl, ?_, trivial⟩
  · rintro p - ⟨-, hok, -⟩
    cases hok
  · rintro p - ⟨hsuccess, -⟩
    exact absurd rfl (hsuccess (by decide))
  · rintro p - ⟨hsuccess, -⟩
    exact absurd rfl (hsuccess (by decide))
  · rintro p hp -
    cases hp
    exact .inl ⟨_, .head _, rfl⟩

end Threads

end Kernel4GameServer.Iocp
