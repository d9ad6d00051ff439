import Kernel4GameServer.Lib.Measure
import Kernel4GameServer.Net.Epoll.Listener

/-!
# `Kernel4GameServer.Proofs.Net.Listener`: no connection waits for a report that will not come

`Inv` follows a listener: connections leave the backlog in the order they came, and those with a
session are among them. Where the main thread is not in `DoAccept` and no report is due, the backlog
is empty and the next connection will be reported, or the last report was answered `early`.
`Inv.smooth` is what holds besides where nothing fails.

`listener_accepts` draws the conclusions over whole runs.
-/

set_option autoImplicit false

namespace Kernel4GameServer

open Lib

namespace Listener

variable {st st' : Listener}

/-- The order of the connections, and where a report will come from. -/
structure Inv (st : Listener) : Prop where
  fifo : st.taken ++ st.sock.backlog = st.arrived
  connected : st.connected.Sublist st.taken
  waits : st.accepting = false → st.early = false →
    st.sock.ready = true ∨ st.sock.backlog = []
  edge : st.accepting = false → st.early = false → st.sock.backlog = [] →
    st.sock.acceptEdge = true

theorem inv_init (backlog : List Nat) : (init backlog).Inv where
  fifo := rfl
  connected := List.Sublist.refl []
  waits _ _ := by
    cases backlog with
    | nil => exact .inr rfl
    | cons c backlog => exact .inl rfl
  edge _ _ hempty := by
    replace hempty : backlog = [] := hempty
    rw [hempty]
    rfl

/-- A connection comes. -/
theorem Inv.arrive (h : st.Inv) {c : Nat} {edge : Bool} (hs : st.step (.arrive c edge) = some st') :
    st'.Inv := by
  simp only [step] at hs
  split at hs
  · rename_i hedge
    obtain rfl := Option.some.inj hs
    refine ⟨?_, h.connected, fun hacc hearly => .inl ?_, fun _ _ hempty => ?_⟩
    · show st.taken ++ (st.sock.backlog ++ [c]) = st.arrived ++ [c]
      rw [← List.append_assoc, h.fifo]
    · show (st.sock.ready || edge) = true
      rcases h.waits hacc hearly with hready | hempty
      · rw [hready, Bool.true_or]
      · -- Behind an `accept` that said EAGAIN the connection is reported.
        rcases hedge with hedge | hno
        · rw [hedge, Bool.or_true]
        · rw [h.edge hacc hearly hempty] at hno
          cases hno
    · exact absurd hempty (List.append_ne_nil_of_right_ne_nil _ (List.cons_ne_nil c []))
  · cases hs

/-- `DealEvent` answers a report. -/
theorem Inv.event (h : st.Inv) {mask : EpollFlags} (hs : st.step (.event mask) = some st') :
    st'.Inv := by
  simp only [step] at hs
  split at hs
  · rename_i hcond
    obtain ⟨-, hreports⟩ := hcond
    obtain rfl := Option.some.inj hs
    unfold DealEvent
    split
    · exact ⟨h.fifo, h.connected, by simp, by simp⟩
    · rename_i herror
      split
      · exact ⟨h.fifo, h.connected, by simp, by simp⟩
      · rename_i hin
        -- A report names one of the two.
        simp [ListenSocket.reports, herror, hin] at hreports
  · cases hs

/-- One iteration of `DoAccept`. -/
theorem Inv.accept (h : st.Inv) {result : AcceptResult} (hacc : st.accepting = true)
    (hs : st.DoAccept result = some st') : st'.Inv := by
  have hfifo := h.fifo
  have hmore : ∀ c, st.connected.Sublist (st.taken ++ [c]) :=
    fun c => h.connected.trans (List.sublist_append_left _ _)
  unfold DoAccept at hs
  split at hs
  · rename_i nonblocking added c backlog hbacklog
    rw [hbacklog, List.append_cons] at hfifo
    split at hs
    · split at hs
      · obtain rfl := Option.some.inj hs
        exact ⟨hfifo, h.connected.append_right [c], by simp [hacc], by simp [hacc]⟩
      · obtain rfl := Option.some.inj hs
        exact ⟨hfifo, hmore c, by simp [hacc], by simp [hacc]⟩
    · obtain rfl := Option.some.inj hs
      exact ⟨hfifo, hmore c, by simp, by simp⟩
  · rename_i c backlog hbacklog
    obtain rfl := Option.some.inj hs
    rw [hbacklog, List.append_cons] at hfifo
    exact ⟨hfifo, hmore c, by simp, by simp⟩
  · rename_i hbacklog
    obtain rfl := Option.some.inj hs
    exact ⟨h.fifo, h.connected, fun _ _ => .inr hbacklog, fun _ _ _ => rfl⟩
  · obtain rfl := Option.some.inj hs
    exact ⟨h.fifo, h.connected, by simp, by simp⟩
  · cases hs

/-- Every step keeps the invariant. -/
theorem Inv.step (h : st.Inv) {a : ListenAction} (hs : st.step a = some st') : st'.Inv := by
  cases a with
  | arrive c edge => exact h.arrive hs
  | fail =>
      obtain rfl := Option.some.inj hs
      exact ⟨h.fifo, h.connected, fun _ _ => .inl rfl, h.edge⟩
  | skip =>
      simp only [Listener.step] at hs
      split at hs
      · rename_i hcond
        obtain rfl := Option.some.inj hs
        exact ⟨h.fifo, h.connected, fun _ _ => .inr hcond.2.1, h.edge⟩
      · cases hs
  | event mask => exact h.event hs
  | accept result =>
      simp only [Listener.step] at hs
      split at hs
      · rename_i hacc
        exact h.accept hacc hs
      · cases hs

/-! ### The iterations -/

/-- The iterations that can be made without a new connection or report. -/
def iterations (st : Listener) : Nat := st.sock.backlog.length + st.accepting.toNat

/-- An iteration takes a connection out of the backlog or ends the loop. -/
theorem DoAccept_iterations {result : AcceptResult} (hacc : st.accepting = true)
    (hs : st.DoAccept result = some st') : iterations st' + 1 ≤ iterations st := by
  unfold DoAccept at hs
  unfold iterations
  split at hs
  · rename_i nonblocking added c backlog hbacklog
    rw [hbacklog, hacc, List.length_cons]
    split at hs
    · split at hs
      all_goals
        obtain rfl := Option.some.inj hs
        simp [hacc]
    · obtain rfl := Option.some.inj hs
      exact Nat.le_succ _
  · rename_i c backlog hbacklog
    obtain rfl := Option.some.inj hs
    rw [hbacklog, hacc]
    exact Nat.le_succ _
  · obtain rfl := Option.some.inj hs
    rw [hacc]
    exact Nat.le_refl _
  · obtain rfl := Option.some.inj hs
    rw [hacc]
    exact Nat.le_refl _
  · cases hs

/-- What a step does to the iterations. -/
theorem step_iterations {a : ListenAction} (hs : st.step a = some st') :
    a.accepts.toNat + iterations st' ≤ iterations st + a.cost := by
  cases a with
  | arrive c edge =>
      simp only [step] at hs
      split at hs
      · obtain rfl := Option.some.inj hs
        simp [iterations, ListenAction.accepts, ListenAction.cost]
        omega
      · cases hs
  | fail =>
      obtain rfl := Option.some.inj hs
      simp [iterations, ListenAction.accepts, ListenAction.cost]
  | skip =>
      simp only [step] at hs
      split at hs
      · obtain rfl := Option.some.inj hs
        simp [iterations, ListenAction.accepts, ListenAction.cost]
      · cases hs
  | event mask =>
      simp only [step] at hs
      split at hs
      · rename_i hcond
        obtain rfl := Option.some.inj hs
        unfold DealEvent
        simp only [iterations, ListenAction.accepts, ListenAction.cost, hcond.1]
        split
        · simp
        · split <;> simp
      · cases hs
  | accept result =>
      simp only [step] at hs
      split at hs
      · rename_i hacc
        have hone := DoAccept_iterations hacc hs
        simp only [ListenAction.accepts, ListenAction.cost, Bool.toNat_true]
        omega
      · cases hs

/-! ### Where nothing fails -/

/-- Every connection taken has a session, and every report is answered to the end. -/
structure Served (st : Listener) : Prop where
  healthy : st.sock.failed = false
  all : st.connected = st.taken
  full : st.early = false

/-- A smooth step keeps that. -/
theorem Served.step (h : st.Served) {a : ListenAction} (hsmooth : st.Smooth a)
    (hs : st.step a = some st') : st'.Served := by
  cases a with
  | arrive c edge =>
      simp only [Listener.step] at hs
      split at hs
      · obtain rfl := Option.some.inj hs
        exact ⟨h.healthy, h.all, h.full⟩
      · cases hs
  | fail => exact absurd hsmooth id
  | skip =>
      simp only [Listener.step] at hs
      split at hs
      · obtain rfl := Option.some.inj hs
        exact ⟨h.healthy, h.all, h.full⟩
      · cases hs
  | event mask =>
      simp only [Listener.step] at hs
      split at hs
      · rename_i hcond
        obtain ⟨-, hreports⟩ := hcond
        obtain rfl := Option.some.inj hs
        have herror : mask.hasError = false := by
          by_contra hyes
          simp [ListenSocket.reports, h.healthy, hyes] at hreports
        unfold DealEvent
        rw [herror]
        split
        · contradiction
        · split
          · exact ⟨h.healthy, h.all, rfl⟩
          · exact ⟨h.healthy, h.all, h.full⟩
      · cases hs
  | accept result =>
      simp only [Listener.step] at hs
      split at hs
      · unfold DoAccept at hs
        cases hbacklog : st.sock.backlog with
        | nil =>
            rcases hsmooth with rfl | rfl
            · simp only [hbacklog] at hs
              cases hs
            · simp only [hbacklog] at hs
              obtain rfl := Option.some.inj hs
              exact ⟨h.healthy, h.all, h.full⟩
        | cons c backlog =>
            rcases hsmooth with rfl | rfl
            · simp only [hbacklog] at hs
              obtain rfl := Option.some.inj hs
              refine ⟨h.healthy, ?_, h.full⟩
              show st.connected ++ [c] = st.taken ++ [c]
              rw [h.all]
            · simp only [hbacklog] at hs
              cases hs
      · cases hs

/-! ### Whole runs -/

/-- No connection waits for a report that will not come. In every run connections leave the backlog
in the order they came, and those with a session are among them in this order. Where the main thread
is not in `DoAccept` and no report is due, the backlog is empty and the next connection will be
reported, or the last report was answered early. `DoAccept` makes no more iterations than there are
connections and reports. Where nothing fails, each connection that left the backlog has a session,
and no report is answered early. -/
theorem listener_accepts {backlog : List Nat} {as : List ListenAction} {st : Listener}
    (h : run step (init backlog) as = some st) :
    st.taken ++ st.sock.backlog = st.arrived ∧
    st.connected.Sublist st.taken ∧
    (st.accepting = false → st.sock.ready = false →
      (st.sock.backlog = [] ∧ st.sock.acceptEdge = true) ∨ st.early = true) ∧
    as.countP (·.accepts) ≤ backlog.length + (as.map (·.cost)).sum ∧
    (AllSteps step Smooth (init backlog) as → st.connected = st.taken ∧ st.early = false) := by
  have hi : st.Inv := run_invariant (fun _ _ _ hi hs => hi.step hs) (inv_init backlog) h
  refine ⟨hi.fifo, hi.connected, fun hacc hready => ?_, ?_, fun hsmooth => ?_⟩
  · cases hearly : st.early with
    | true => exact .inr rfl
    | false =>
        rcases hi.waits hacc hearly with hyes | hempty
        · rw [hready] at hyes
          cases hyes
        · exact .inl ⟨hempty, hi.edge hacc hearly hempty⟩
  · have hcount := run_count_le (I := fun _ => True) (·.accepts) iterations (·.cost)
      (fun _ _ _ _ _ => trivial) (fun _ _ _ _ hs => step_iterations hs) trivial h
    have hfirst : iterations (init backlog) = backlog.length := rfl
    omega
  · have hserved : st.Served :=
      run_invariant_of (fun _ _ _ hs hc hstep => hs.step hc hstep) ⟨rfl, rfl, rfl⟩ hsmooth h
    exact ⟨hserved.all, hserved.full⟩

/-- Two connections come, and the first one cannot be made non-blocking: the other one waits. -/
theorem listener_accepts_early : ∃ st,
    run step (init [1]) [.event { EPOLLIN := true }, .arrive 2 false, .accept (.socket false true)]
      = some st ∧
      st.sock.backlog = [2] ∧ st.sock.ready = false ∧ st.early = true ∧
      st.taken ++ [2] = [1, 2] := by
  obtain ⟨st, hrun, hbacklog, harrived, hacc, hready⟩ : ∃ st,
      run step (init [1]) [.event { EPOLLIN := true }, .arrive 2 false,
        .accept (.socket false true)] = some st ∧
      st.sock.backlog = [2] ∧ st.arrived = [1, 2] ∧ st.accepting = false ∧ st.sock.ready = false :=
    ⟨_, rfl, rfl, rfl, rfl, rfl⟩
  obtain ⟨hfifo, -, hwaits, -⟩ := listener_accepts hrun
  rw [hbacklog, harrived] at hfifo
  refine ⟨st, hrun, hbacklog, hready, ?_, hfifo⟩
  rcases hwaits hacc hready with ⟨hempty, -⟩ | hearly
  · rw [hbacklog] at hempty
    cases hempty
  · exact hearly

end Listener

end Kernel4GameServer
