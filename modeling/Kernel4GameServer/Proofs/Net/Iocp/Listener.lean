import Kernel4GameServer.Net.Iocp.Listener

/-!
# `Kernel4GameServer.Proofs.Net.Iocp.Listener`: a listener waits, has told its host, or is deaf

A listener is `Waiting`, with its event in one place, or has `Told` its host. `waiting_step` and
`told_step` are what a step does to either, and `accept_cases` is the one step between them. An
`AcceptEx` that fails makes a listener deaf, which no step undoes.

`listener_deaf_iff` draws the conclusions over whole runs.
-/

set_option autoImplicit false

namespace Kernel4GameServer

open Lib

namespace IocpListener

variable {st st' : IocpListener}

/-- The event of the listener is with the system or in the port, or the main thread has it. -/
structure Waiting (st : IocpListener) : Prop where
  place : st.pc = .outside ↔ st.op ≠ .none
  listening : st.listening = true
  m_pPipe : st.m_pPipe = true
  errors : st.errors = 0

/-- The host got `Error`, and nothing is left of the listener. -/
structure Told (st : IocpListener) : Prop where
  pc : st.pc = .outside
  op : st.op = .none
  listening : st.listening = false
  m_pPipe : st.m_pPipe = false
  errors : st.errors = 1

theorem waiting_init : init.Waiting where
  place := by simp [init]
  listening := rfl
  m_pPipe := rfl
  errors := rfl

/-- Once nothing of the listener is under way, no step can be taken. -/
theorem stuck (hpc : st.pc = .outside) (hop : st.op = .none) (hlistening : st.listening = false)
    (a : IocpListenAction) : st.step a = none := by
  cases a with
  | arrive c => simp [step, hlistening]
  | accepted | broken => simp [step, hop]
  | CompletedAccept => simp [step, hpc, hop]
  | complete result => simp [step, hpc]
  | DoAccept opened posted => simp [step, hpc]

/-- A deaf listener is not on its way to anything. -/
theorem Deaf.stuck (h : st.Deaf) (a : IocpListenAction) : st.step a = none := by
  obtain ⟨halive, -, -, hlistening⟩ := h
  have hno : ¬ (st.op ≠ .none ∨ st.pc ≠ .outside) := by
    intro hyes
    simp [alive] at halive
    rcases hyes with hop | hpc
    · exact hop halive.1
    · exact hpc halive.2
  obtain ⟨hop, hpc⟩ := not_or.mp hno
  exact IocpListener.stuck (not_not.mp hpc) (not_not.mp hop) hlistening a

/-- What `DoAccept` leads to. -/
theorem DoAccept_cases (h : st.Waiting) (hop : st.op = .none) (opened posted : Bool) :
    (opened = true → posted = true) ∧
        ((st.DoAccept opened posted).Waiting ∨ (st.DoAccept opened posted).Told) ∨
      ¬ (opened = true → posted = true) ∧ (st.DoAccept opened posted).Deaf := by
  cases opened with
  | false =>
      refine .inl ⟨by simp, .inr ⟨rfl, hop, rfl, rfl, ?_⟩⟩
      show st.errors + 1 = 1
      rw [h.errors]
  | true =>
      cases posted with
      | false =>
          refine .inr ⟨by simp, ?_, h.errors, h.m_pPipe, rfl⟩
          simp [alive, DoAccept, hop]
      | true =>
          refine .inl ⟨by simp, .inl ⟨?_, h.listening, h.m_pPipe, h.errors⟩⟩
          simp [DoAccept]

/-- What a step leads to from a listener that waits. -/
theorem waiting_step (h : st.Waiting) {a : IocpListenAction} (hs : st.step a = some st') :
    st.Posts a ∧ (st'.Waiting ∨ st'.Told) ∨ ¬ st.Posts a ∧ st'.Deaf := by
  cases a with
  | arrive c =>
      simp only [step] at hs
      split at hs
      · obtain rfl := Option.some.inj hs
        exact .inl ⟨trivial, .inl ⟨h.place, h.listening, h.m_pPipe, h.errors⟩⟩
      · cases hs
  | accepted =>
      simp only [step] at hs
      split at hs
      · rename_i hop _
        obtain rfl := Option.some.inj hs
        refine .inl ⟨trivial, .inl ⟨?_, h.listening, h.m_pPipe, h.errors⟩⟩
        have hpc : st.pc = .outside := h.place.mpr (by simp [hop])
        simp [hpc]
      · cases hs
  | broken =>
      simp only [step] at hs
      split at hs
      · rename_i hop
        obtain rfl := Option.some.inj hs
        refine .inl ⟨trivial, .inl ⟨?_, h.listening, h.m_pPipe, h.errors⟩⟩
        have hpc : st.pc = .outside := h.place.mpr (by simp [hop])
        simp [hpc]
      · cases hs
  | CompletedAccept =>
      simp only [step] at hs
      split at hs
      · obtain rfl := Option.some.inj hs
        exact .inl ⟨trivial, .inl ⟨by simp, h.listening, h.m_pPipe, h.errors⟩⟩
      · cases hs
  | complete result =>
      simp only [step] at hs
      split at hs
      · rename_i c hpc
        have hop : st.op = .none := by
          by_contra hop
          rw [h.place.mpr hop] at hpc
          cases hpc
        unfold complete at hs
        split at hs
        case h_5 => cases hs
        all_goals
          obtain rfl := Option.some.inj hs
          exact .inl ⟨trivial, .inl ⟨by simp [hop], h.listening, h.m_pPipe, h.errors⟩⟩
      · cases hs
  | DoAccept opened posted =>
      have hposted : (st.pc = .adding ∨ st.pc = .posting) ∧ st' = st.DoAccept opened posted := by
        simp only [step] at hs
        split at hs
        · rename_i hpc
          exact ⟨.inl hpc, (Option.some.inj hs).symm⟩
        · rename_i hpc
          exact ⟨.inr hpc, (Option.some.inj hs).symm⟩
        · cases hs
      obtain ⟨hpc, rfl⟩ := hposted
      have hop : st.op = .none := by
        by_contra hop
        rw [h.place.mpr hop] at hpc
        simp at hpc
      exact DoAccept_cases h hop opened posted

/-- The main thread has the event of a connection. -/
def inHand (st : IocpListener) : Option Nat :=
  match st.op, st.pc with
  | .completed c, _ => c
  | _, .completing c => c
  | _, _ => none

/-- Connections are taken in the order they came, and connected in this order. The one that the
event is about was taken last. -/
structure Fifo (st : IocpListener) : Prop where
  fifo : st.taken ++ st.backlog = st.arrived
  connected : ∃ before, st.taken = before ++ st.inHand.toList ∧ st.connected.Sublist before

/-- Where the main thread has the event, no operation is under way. -/
theorem Waiting.op_none (h : st.Waiting) (hpc : st.pc ≠ .outside) : st.op = .none := by
  by_contra hop
  exact hpc (h.place.mpr hop)

/-- Every step of a listener that waits keeps the order. -/
theorem Fifo.step (hf : st.Fifo) (hw : st.Waiting) {a : IocpListenAction}
    (hs : st.step a = some st') : st'.Fifo := by
  obtain ⟨hfifo, before, htaken, hsub⟩ := hf
  cases a with
  | arrive c =>
      simp only [IocpListener.step] at hs
      split at hs
      · obtain rfl := Option.some.inj hs
        refine ⟨?_, before, htaken, hsub⟩
        show st.taken ++ (st.backlog ++ [c]) = st.arrived ++ [c]
        rw [← List.append_assoc, hfifo]
      · cases hs
  | accepted =>
      simp only [IocpListener.step] at hs
      split at hs
      · rename_i c backlog hop hbacklog
        obtain rfl := Option.some.inj hs
        have hpc : st.pc = .outside := hw.place.mpr (by simp [hop])
        have hnone : st.inHand = none := by simp [inHand, hop, hpc]
        refine ⟨?_, st.taken, rfl, ?_⟩
        · show st.taken ++ [c] ++ backlog = st.arrived
          rw [← hfifo, hbacklog, List.append_cons st.taken c backlog]
        · rw [htaken, hnone]
          exact hsub.trans (List.sublist_append_left _ _)
      · cases hs
  | broken =>
      simp only [IocpListener.step] at hs
      split at hs
      · rename_i hop
        obtain rfl := Option.some.inj hs
        have hpc : st.pc = .outside := hw.place.mpr (by simp [hop])
        have hnone : st.inHand = none := by simp [inHand, hop, hpc]
        rw [hnone] at htaken
        exact ⟨hfifo, before, htaken, hsub⟩
      · cases hs
  | CompletedAccept =>
      simp only [IocpListener.step] at hs
      split at hs
      · rename_i c _ hop
        obtain rfl := Option.some.inj hs
        have hhand : st.inHand = c := by simp [inHand, hop]
        rw [hhand] at htaken
        exact ⟨hfifo, before, htaken, hsub⟩
      · cases hs
  | complete result =>
      simp only [IocpListener.step] at hs
      split at hs
      · rename_i c hpc
        have hop := hw.op_none (by simp [hpc])
        have hhand : st.inHand = c := by simp [inHand, hop, hpc]
        rw [hhand] at htaken
        have hall : st.connected.Sublist st.taken := by
          rw [htaken]
          exact hsub.trans (List.sublist_append_left _ _)
        have hrest : ∀ connected : List Nat, connected.Sublist st.taken →
            ({ st with connected := connected, pc := .posting } : IocpListener).Fifo := by
          intro connected hconnected
          refine ⟨hfifo, st.taken, ?_, hconnected⟩
          simp [inHand, hop]
        unfold complete at hs
        split at hs
        case h_1 _ _ c =>
          obtain rfl := Option.some.inj hs
          refine hrest _ ?_
          rw [htaken]
          exact hsub.append_right [c]
        case h_2 =>
          obtain rfl := Option.some.inj hs
          obtain ⟨hfifo', hconnected⟩ := hrest _ hall
          exact ⟨hfifo', hconnected⟩
        case h_5 => cases hs
        all_goals
          obtain rfl := Option.some.inj hs
          exact hrest _ hall
      · cases hs
  | DoAccept opened posted =>
      have hout : st.pc ≠ .outside ∧ (∀ c, st.pc ≠ .completing c) ∧
          st' = st.DoAccept opened posted := by
        simp only [IocpListener.step] at hs
        split at hs
        · rename_i hpc
          exact ⟨by simp [hpc], by simp [hpc], (Option.some.inj hs).symm⟩
        · rename_i hpc
          exact ⟨by simp [hpc], by simp [hpc], (Option.some.inj hs).symm⟩
        · cases hs
      obtain ⟨hpc, hhand, rfl⟩ := hout
      have hop := hw.op_none hpc
      have hnone : st.inHand = none := by
        cases hc : st.pc with
        | completing c => exact absurd hc (hhand c)
        | adding | outside | posting => simp [inHand, hop, hc]
      rw [hnone] at htaken
      unfold DoAccept
      split
      · split
        · exact ⟨hfifo, before, htaken, hsub⟩
        · exact ⟨hfifo, before, by simpa [inHand, hop] using htaken, hsub⟩
      · exact ⟨hfifo, before, by simpa [inHand, hop] using htaken, hsub⟩

/-- A connection that waits is on its way: a step of the system or of the main thread can be taken,
besides the coming of others and the failure of the operation. -/
theorem Waiting.goes_on (h : st.Waiting) (hbacklog : st.backlog ≠ []) :
    ∃ a, (∀ c, a ≠ .arrive c) ∧ a ≠ .broken ∧ (st.step a).isSome = true := by
  obtain ⟨c, backlog, hbacklog⟩ := List.exists_cons_of_ne_nil hbacklog
  cases hpc : st.pc with
  | adding | posting =>
      exact ⟨.DoAccept true true, by simp, by simp, by simp [IocpListener.step, hpc]⟩
  | completing c =>
      refine ⟨.complete .optionFailed, by simp, by simp, ?_⟩
      cases c <;> simp [IocpListener.step, hpc, complete]
  | outside =>
      cases hop : st.op with
      | none => exact absurd hop (h.place.mp hpc)
      | pending => exact ⟨.accepted, by simp, by simp, by simp [IocpListener.step, hop, hbacklog]⟩
      | completed c =>
          exact ⟨.CompletedAccept, by simp, by simp, by simp [IocpListener.step, hpc, hop]⟩

/-! ### Whole runs -/

/-- Nothing more happens to a listener that has told its host. -/
theorem Told.stuck (h : st.Told) (a : IocpListenAction) : st.step a = none :=
  IocpListener.stuck h.pc h.op h.listening a

/-- A run leaves a listener in order. -/
theorem run_order {as : List IocpListenAction} (h : run step init as = some st) :
    (st.Waiting ∨ st.Told ∨ st.Deaf) ∧ st.Fifo := by
  refine run_invariant (I := fun st => (st.Waiting ∨ st.Told ∨ st.Deaf) ∧ st.Fifo) ?_
    ⟨.inl waiting_init, rfl, [], rfl, List.Sublist.refl []⟩ h
  rintro s a s' ⟨hplace, hfifo⟩ hs
  rcases hplace with hw | htold | hdeaf
  · refine ⟨?_, hfifo.step hw hs⟩
    rcases waiting_step hw hs with ⟨-, hw' | htold⟩ | ⟨-, hdeaf⟩
    · exact .inl hw'
    · exact .inr (.inl htold)
    · exact .inr (.inr hdeaf)
  · rw [htold.stuck a] at hs
    cases hs
  · rw [hdeaf.stuck a] at hs
    cases hs

/-- A listener that waits or has told its host is not deaf. -/
theorem not_deaf (h : st.Waiting ∨ st.Told) : ¬ st.Deaf := by
  rintro ⟨-, herrors, -, hlistening⟩
  rcases h with hw | htold
  · rw [hw.listening] at hlistening
    cases hlistening
  · rw [htold.errors] at herrors
    cases herrors

/-- A listener of the IOCP engine, in every run from `AddServer` on. It waits for connections, or
has told its host by one `Error`, or is deaf: the listening socket is closed, no `AcceptEx` is under
way and the host was not told. It is deaf just where an `AcceptEx` has failed in the run.
Connections are taken in the order they came, and connected in this order. While the listener waits
for connections, none of them waits without a step that brings it on. -/
theorem listener_deaf_iff {as : List IocpListenAction} (h : run step init as = some st) :
    (st.Waiting ∨ st.Told ∨ st.Deaf) ∧
    (st.Deaf ↔ ¬ AllSteps step Posts init as) ∧
    st.taken ++ st.backlog = st.arrived ∧ st.connected.Sublist st.taken ∧
    (st.Waiting → st.backlog ≠ [] →
      ∃ a, (∀ c, a ≠ .arrive c) ∧ a ≠ .broken ∧ (st.step a).isSome = true) := by
  obtain ⟨hplace, hfifo, before, htaken, hsub⟩ := run_order h
  have hexact : st.Waiting ∨ st.Told ↔ AllSteps step Posts init as := by
    refine run_good_iff (A := fun _ _ => True) (G := fun s => s.Waiting ∨ s.Told) (B := Deaf)
      ?_ ?_ ?_ (fun s => not_deaf) (.inl waiting_init)
      (allSteps_of_forall (fun _ _ => trivial) _ _) h
    · rintro s a s' (hw | htold) - hposts hs
      · rcases waiting_step hw hs with ⟨-, hgood⟩ | ⟨hno, -⟩
        · exact hgood
        · exact absurd hposts hno
      · rw [htold.stuck a] at hs
        cases hs
    · rintro s a s' (hw | htold) - hposts hs
      · rcases waiting_step hw hs with ⟨hyes, -⟩ | ⟨-, hdeaf⟩
        · exact absurd hyes hposts
        · exact hdeaf
      · rw [htold.stuck a] at hs
        cases hs
    · intro s a s' hdeaf _ hs
      rw [hdeaf.stuck a] at hs
      cases hs
  refine ⟨hplace, ?_, hfifo, ?_, fun hw => hw.goes_on⟩
  · rw [← hexact]
    refine ⟨fun hdeaf hgood => not_deaf hgood hdeaf, fun hno => ?_⟩
    rcases hplace with hw | htold | hdeaf
    · exact absurd (.inl hw) hno
    · exact absurd (.inr htold) hno
    · exact hdeaf
  · rw [htaken]
    exact hsub.trans (List.sublist_append_left _ _)

/-- A connection comes and gets its session, and the next `AcceptEx` fails. -/
theorem listener_deaf_iff_second : ∃ st,
    run step init [.DoAccept true true, .arrive 1, .accepted, .CompletedAccept,
      .complete .connected, .DoAccept true false] = some st ∧
      st.connected = [1] ∧ st.errors = 0 ∧ st.Deaf := by
  obtain ⟨st, hrun, hconnected, herrors⟩ : ∃ st,
      run step init [.DoAccept true true, .arrive 1, .accepted, .CompletedAccept,
        .complete .connected, .DoAccept true false] = some st ∧
      st.connected = [1] ∧ st.errors = 0 := ⟨_, rfl, rfl, rfl⟩
  exact ⟨st, hrun, hconnected, herrors, (listener_deaf_iff hrun).2.1.mpr (by decide)⟩

end IocpListener

end Kernel4GameServer
