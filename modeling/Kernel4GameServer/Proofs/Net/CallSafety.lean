import Kernel4GameServer.Proofs.Net.PipeLifeSteps

/-!
# `Kernel4GameServer.Proofs.Net.CallSafety`: calls from inside the callbacks

A worker may run `DoClose` while the main thread still delivers what was received. Then the
session is in `OnRecv` of a pipe that is closed, and its `Send` and `Close` meet the
`TASSERT`s. `callSafe` is the condition on a step that excludes this.

* `Sound.step`: a step that meets the condition keeps the status and the ghosts in
  agreement, and no `TASSERT` fails.
* `Unsound.of_not` and `Unsound.step`: any other step fails a `TASSERT` or gives a closed pipe
  a status again, and that stays on record.
* `calls_lawful_iff`: the two directions for runs.
-/

set_option autoImplicit false

namespace Kernel4GameServer

open Lib

namespace PipeLife

/-- Some worker is in `DoClose`. -/
def Closing (st : PipeLife) : Prop := ∃ w, (st.worker w).pc.closing = true

/-- No `TASSERT` of `Send`, `Close` or `PostOPTInEpollQueue` has failed. No pipe that `DoClose`
closed got a status again, and the pipe has none, with socket `-1` once `DoClose` is through. -/
structure Lawful (st : PipeLife) : Prop where
  failed : st.failed = false
  revived : st.revived = false
  closed : st.doClosed = true → st.pipe.m_nStatus = .SS_UNINITIALIZE ∧
    (st.pipe.m_lSocketHandler = -1 ∨ st.Closing)

/-- The condition on a step. `DoClose` has not begun when the session calls `Send` or `Close`,
when `DoAccept` sets the status again, and when `DealEvent` runs `DoConnect`. `Send` comes
between `OnConnected` and `Close`. The socket is still in the set of its worker when `Send` or
`Close` gets to its `epoll_ctl`. -/
def callSafe (st : PipeLife) : LifeAction → Bool
  | .Send _ => st.opened && !st.doClosed && !st.closeCalled
  | .Close | .SetStatus => !st.doClosed
  | .goOn _ =>
      match st.call with
      | .post _ => st.workerSet
      | _ => true
  | .DealEvent _ =>
      match st.dealing with
      | mask :: _ => mask.hasError || !mask.EPOLLOUT || !st.doClosed
      | [] => true
  | _ => true

/-- What the steps that meet the condition keep. -/
structure Sound (st : PipeLife) : Prop extends Lawful st where
  established : st.pipe.m_nStatus = .SS_ESTABLISHED ↔
    st.opened = true ∧ st.doClosed = false ∧ st.closeCalled = false

/-- What every other step leaves behind. -/
def Unsound (st : PipeLife) : Prop := st.failed = true ∨ st.revived = true

/-- A unit that was never in use. -/
theorem sound_init : Sound init where
  failed := rfl
  revived := rfl
  closed h := by cases h
  established := by simp [init, CPipe.new]

/-! ### The functions of a use -/

/-- A pipe that has been released is as good as new. -/
theorem Sound.of_Release {st : PipeLife} (hfailed : st.failed = false)
    (hrevived : st.revived = false) : Sound st.Release where
  failed := hfailed
  revived := hrevived
  closed h := by cases h
  established := by simp [PipeLife.Release, CPipe.Clear]

/-- A pipe that has just become established. -/
theorem Sound.of_established {st : PipeLife} (hfailed : st.failed = false)
    (hrevived : st.revived = false) (hclosed : st.doClosed = false)
    (hstatus : st.pipe.m_nStatus = .SS_ESTABLISHED) (hopened : st.opened = true)
    (hcall : st.closeCalled = false) : Sound st where
  failed := hfailed
  revived := hrevived
  closed h := by
    rw [hclosed] at h
    cases h
  established := by simp [hstatus, hopened, hclosed, hcall]

/-- Where `DoClose` has not begun, `DoConnect` leads to an established pipe or releases it. -/
theorem Sound.of_DoConnect (st : PipeLife) (hfailed : st.failed = false)
    (hrevived : st.revived = false) (hclosed : st.doClosed = false) (ok again : Bool) :
    Sound (st.DoConnect ok again) := by
  -- `establish` records whether `DoClose` had begun.
  have hrevived' : (st.revived || st.doClosed) = false := by
    rw [hrevived, hclosed]
    rfl
  cases ok with
  | true => exact .of_established hfailed hrevived' hclosed rfl rfl rfl
  | false => exact .of_Release hfailed hrevived'

/-! ### Steps -/

/-- A quiet step keeps all of it. -/
theorem Sound.quiet {st : PipeLife} (h : Sound st) {pipe : CPipe} {worker : Nat → LifeWorker}
    {dealing : List EpollFlags} {main : LifeMain} {call : LifeCall}
    {callbacks : List PipeCallback} (hstatus : pipe.m_nStatus = st.pipe.m_nStatus)
    (hsocket : pipe.m_lSocketHandler = st.pipe.m_lSocketHandler)
    (hclosing : ∀ u, (worker u).pc.closing = (st.worker u).pc.closing) :
    Sound { st with pipe, worker, dealing, main, call, callbacks } where
  failed := h.failed
  revived := h.revived
  closed hc := by
    obtain ⟨hun, hsock⟩ := h.closed hc
    refine ⟨hstatus.trans hun, ?_⟩
    rcases hsock with hsock | ⟨w, hw⟩
    · exact .inl (hsocket.trans hsock)
    · exact .inr ⟨w, (hclosing w).trans hw⟩
  established := by
    show pipe.m_nStatus = _ ↔ _
    rw [hstatus]
    exact h.established

/-- The place of the worker `w` and of the others after `goTo`. -/
theorem goTo_pc (st : PipeLife) (w u : Nat) (pc : LifePc) :
    ((st.goTo w pc).worker u).pc = if u = w then pc else (st.worker u).pc := by
  simp only [goTo]
  split <;> rfl

/-- A worker that stays in `DoClose` leaves `Closing` as it is. -/
theorem Closing.goTo {st : PipeLife} (h : st.Closing) (w : Nat) {pc : LifePc}
    (hpc : pc.closing = true) : (st.goTo w pc).Closing := by
  obtain ⟨u, hu⟩ := h
  refine ⟨u, ?_⟩
  rw [goTo_pc]
  split
  · exact hpc
  · exact hu

/-- A step that meets the condition keeps the invariant. -/
theorem Sound.step {st st' : PipeLife} {a : LifeAction} (h : Sound st) (huse : UseInv st)
    (hsafe : st.callSafe a = true) (hs : st.step a = some st') : Sound st' := by
  cases step_moves hs with
  | quiet pipe worker dealing main call callbacks hstatus hsocket hclosing hmain htells hst =>
      subst hst
      exact h.quiet hstatus hsocket hclosing
  | again ha hmain hst =>
      subst hst
      exact ⟨⟨h.failed, h.revived, h.closed⟩, h.established⟩
  | Send src ha hmain hst =>
      subst ha hst
      simp only [callSafe, Bool.and_eq_true, Bool.not_eq_true'] at hsafe
      have hstatus : st.pipe.m_nStatus = .SS_ESTABLISHED :=
        h.established.mpr ⟨hsafe.1.1, hsafe.1.2, hsafe.2⟩
      refine ⟨⟨?_, h.revived, h.closed⟩, h.established⟩
      show (st.failed || _) = false
      rw [h.failed, hstatus]
      rfl
  | Close ha hmain hst =>
      subst ha hst
      simp only [callSafe, Bool.not_eq_true'] at hsafe
      refine ⟨⟨h.failed, ?_, fun hc => ?_⟩, ?_⟩
      · show (st.revived || st.doClosed) = false
        rw [h.revived, hsafe]
        rfl
      · have hclosed : st.doClosed = true := hc
        rw [hsafe] at hclosed
        cases hclosed
      · simp [CPipe.closeMark]
  | post opt result ha hcall hst =>
      subst ha hst
      simp only [callSafe, hcall] at hsafe
      refine ⟨⟨?_, h.revived, h.closed⟩, h.established⟩
      show (st.failed || !st.workerSet) = false
      rw [h.failed, hsafe]
      rfl
  | doClose w next hstatus ha hst =>
      subst hst
      refine ⟨⟨h.failed, h.revived, fun _ => ⟨rfl, .inr ⟨w, ?_⟩⟩⟩, ?_⟩
      · rw [goTo_pc, if_pos rfl]
        rfl
      · simp [PipeLife.goTo]
  | del w next hpc hst =>
      subst hst
      refine ⟨⟨h.failed, h.revived, fun hc => ?_⟩, h.established⟩
      obtain ⟨hun, hsock⟩ := h.closed hc
      refine ⟨hun, hsock.imp id fun hclosing => ?_⟩
      have hclosing' : { st with workerSet := false }.Closing := hclosing
      exact hclosing'.goTo w rfl
  | shut w next hpc hst =>
      subst hst
      exact ⟨⟨h.failed, h.revived, fun hc => ⟨(h.closed hc).1, .inl rfl⟩⟩, h.established⟩
  | connected lSocket lEpollFD ok ha hfree hmain hst =>
      have hconnect : Sound ((st.start lSocket lEpollFD true).DoConnect ok true) :=
        .of_DoConnect (st.start lSocket lEpollFD true) h.failed h.revived rfl ok true
      cases ok with
      | true =>
          subst hst
          exact hconnect
      | false =>
          subst hst
          exact ⟨⟨hconnect.failed, hconnect.revived, hconnect.closed⟩, hconnect.established⟩
  | inProgress lSocket lEpollFD ok ha hfree hmain hst =>
      subst hst
      refine ⟨⟨h.failed, h.revived, fun hc => (by cases hc)⟩, ?_⟩
      -- A unit from the pool has no status.
      have hstatus := (huse.unused hfree).1
      simp [start, hstatus]
  | accepted lSocket lEpollFD ok ha hfree hmain hst =>
      have hrevived : (st.revived || false) = false := by
        rw [h.revived]
        rfl
      cases ok with
      | true =>
          subst hst
          exact .of_established h.failed hrevived rfl rfl rfl rfl
      | false =>
          subst hst
          exact .of_Release h.failed hrevived
  | SetStatus ha hmain hst =>
      subst ha hst
      simp only [callSafe, Bool.not_eq_true'] at hsafe
      refine .of_established h.failed ?_ hsafe rfl rfl rfl
      show (st.revived || st.doClosed) = false
      rw [h.revived, hsafe]
      rfl
  | connectFailed mask dealing ok ha hmain hdealing hin herr hst =>
      subst hst
      exact .of_Release h.failed h.revived
  | DoConnect mask dealing ok ha hmain hdealing hin herr hout hadd hst =>
      subst ha hst
      simp only [callSafe, hdealing, herr, hout, Bool.not_true, Bool.false_or,
        Bool.not_eq_true'] at hsafe
      exact .of_DoConnect { st with dealing } h.failed h.revived hsafe ok false

/-- What `DoConnect` leaves on record. -/
theorem DoConnect_record (st : PipeLife) (ok again : Bool) :
    (st.DoConnect ok again).failed = st.failed ∧
      (st.DoConnect ok again).revived = (st.revived || st.doClosed) := by
  cases ok with
  | true => exact ⟨rfl, rfl⟩
  | false => exact ⟨rfl, rfl⟩

/-- From a sound state, a step that does not meet the condition leaves its mark. -/
theorem Unsound.of_not {st st' : PipeLife} {a : LifeAction} (h : Sound st)
    (hsafe : ¬ st.callSafe a = true) (hs : st.step a = some st') : Unsound st' := by
  cases a with
  | Send src =>
      simp only [PipeLife.step] at hs
      split at hs
      · cases hs
        refine .inl ?_
        -- The status is `SS_ESTABLISHED` just when the condition holds.
        have hstatus : st.pipe.m_nStatus ≠ .SS_ESTABLISHED := by
          intro heq
          obtain ⟨hopened, hclosed, hcall⟩ := h.established.mp heq
          exact hsafe (by simp [callSafe, hopened, hclosed, hcall])
        simp [hstatus]
      · cases hs
  | Close =>
      simp only [PipeLife.step] at hs
      split at hs
      · cases hs
        have hclosed : st.doClosed = true := by simpa [callSafe] using hsafe
        exact .inr (by simp [hclosed])
      · cases hs
  | SetStatus =>
      simp only [PipeLife.step] at hs
      split at hs
      · cases hs
        have hclosed : st.doClosed = true := by simpa [callSafe] using hsafe
        exact .inr (by simp [establish, hclosed])
      · cases hs
  | goOn result =>
      cases hcall : st.call with
      | post opt =>
          simp only [PipeLife.step, goOn, hcall] at hs
          cases hs
          have hset : st.workerSet = false := by simpa [callSafe, hcall] using hsafe
          exact .inl (by simp [hset])
      | idle => exact absurd (by simp [callSafe, hcall]) hsafe
      | sendTest src => exact absurd (by simp [callSafe, hcall]) hsafe
      | sendLock => exact absurd (by simp [callSafe, hcall]) hsafe
      | sendLoop => exact absurd (by simp [callSafe, hcall]) hsafe
      | closeLock => exact absurd (by simp [callSafe, hcall]) hsafe
  | DealEvent ok =>
      simp only [PipeLife.step] at hs
      split at hs
      · rename_i mask dealing hmain hdealing
        simp only [callSafe, hdealing, Bool.or_eq_true, Bool.not_eq_true', not_or,
          Bool.not_eq_true, Bool.not_eq_false] at hsafe
        obtain ⟨⟨herr, hout⟩, hclosed⟩ := hsafe
        -- Only the branch that runs `DoConnect` is left.
        simp only [deal, herr, hout, if_true] at hs
        split at hs
        · split at hs
          · rename_i hfalse
            cases hfalse
          · split at hs
            · cases hs
              refine .inr ?_
              rw [(DoConnect_record _ ok false).2]
              show (st.revived || st.doClosed) = true
              rw [hclosed, Bool.or_true]
            · cases hs
        · cases hs
      · cases hs
  | AddClient lSocket lEpollFD ret ok => exact absurd rfl hsafe
  | DoAccept lSocket lEpollFD ok => exact absurd rfl hsafe
  | ret => exact absurd rfl hsafe
  | wait mask => exact absurd rfl hsafe
  | read w => exact absurd rfl hsafe
  | look => exact absurd rfl hsafe
  | used nUse => exact absurd rfl hsafe
  | finish => exact absurd rfl hsafe
  | event w mask => exact absurd rfl hsafe
  | work w received sent => exact absurd rfl hsafe

/-- Both ghosts only ever grow. -/
theorem Unsound.grow {st st' : PipeLife} (h : Unsound st)
    (hfailed : st.failed = true → st'.failed = true)
    (hrevived : st.revived = true → st'.revived = true) : Unsound st' :=
  h.imp hfailed hrevived

/-- `DoConnect` keeps the record. -/
theorem Unsound.of_DoConnect {st : PipeLife} (h : Unsound st) (ok again : Bool) :
    Unsound (st.DoConnect ok again) := by
  obtain ⟨hfailed, hrevived⟩ := DoConnect_record st ok again
  refine h.grow (fun hf => hfailed.trans hf) (fun hr => hrevived.trans ?_)
  rw [hr, Bool.true_or]

/-- Every step keeps the record. -/
theorem Unsound.step {st st' : PipeLife} {a : LifeAction} (h : Unsound st)
    (hs : st.step a = some st') : Unsound st' := by
  cases step_moves hs with
  | quiet pipe worker dealing main call callbacks hstatus hsocket hclosing hmain htells hst =>
      subst hst
      exact h
  | again ha hmain hst =>
      subst hst
      exact h
  | Send src ha hmain hst =>
      subst hst
      exact h.grow (fun hf => by simp [hf]) id
  | Close ha hmain hst =>
      subst hst
      exact h.grow id fun hr => by simp [hr]
  | post opt result ha hcall hst =>
      subst hst
      exact h.grow (fun hf => by simp [hf]) id
  | doClose w next hstatus ha hst =>
      subst hst
      exact h
  | del w next hpc hst =>
      subst hst
      exact h
  | shut w next hpc hst =>
      subst hst
      exact h
  | connected lSocket lEpollFD ok ha huse hmain hst =>
      have hstart : Unsound (st.start lSocket lEpollFD true) := h
      have hconnect := hstart.of_DoConnect ok true
      cases ok with
      | true =>
          subst hst
          exact hconnect
      | false =>
          subst hst
          exact hconnect
  | inProgress lSocket lEpollFD ok ha huse hmain hst =>
      subst hst
      exact h
  | accepted lSocket lEpollFD ok ha huse hmain hst =>
      have hgrow : st.revived = true → (st.revived || false) = true := by
        intro hr
        rw [hr]
        rfl
      cases ok with
      | true =>
          subst hst
          exact h.grow id hgrow
      | false =>
          subst hst
          exact h.grow id hgrow
  | SetStatus ha hmain hst =>
      subst hst
      exact h.grow id fun hr => by simp [establish, hr]
  | connectFailed mask dealing ok ha hmain hdealing huse herr hst =>
      subst hst
      exact h
  | DoConnect mask dealing ok ha hmain hdealing huse herr hout hadd hst =>
      subst hst
      have hnext : Unsound { st with dealing } := h
      exact hnext.of_DoConnect ok false

/-! ### Runs -/

/-- No `TASSERT` fails and no closed pipe gets a status again just when every step meets the
condition. -/
theorem calls_lawful_iff {as : List LifeAction} {st : PipeLife}
    (hrun : run step init as = some st) :
    Lawful st ↔ AllSteps step (fun st a => st.callSafe a = true) init as := by
  have hclash : ∀ st : PipeLife, Lawful st → ¬ Unsound st := by
    rintro st h (hf | hr)
    · rw [h.failed] at hf
      cases hf
    · rw [h.revived] at hr
      cases hr
  rcases run_good_or_bad (A := fun _ _ => True) (G := fun st => Sound st ∧ UseInv st)
      (fun _ _ _ h _ hC hs => ⟨h.1.step h.2 hC hs, h.2.step hs⟩)
      (fun _ _ _ h _ hC hs => Unsound.of_not h.1 hC hs) (fun _ _ _ h _ hs => h.step hs)
      ⟨sound_init, useInv_init⟩ (allSteps_of_forall (fun _ _ => trivial) _ _) hrun with
    ⟨has, hgood⟩ | ⟨has, hbad⟩
  · exact ⟨fun _ => has, fun _ => hgood.1.toLawful⟩
  · exact ⟨fun h => absurd hbad (hclash st h), fun h => absurd h has⟩

/-- A session that answers before its peer closes. -/
theorem lawful_answer : ∃ st : PipeLife,
    run step init [.DoAccept 5 0 true, .SetStatus, .Send [1], .goOn .EAGAIN, .goOn .EAGAIN,
      .goOn (.sent 1), .goOn .EAGAIN, .ret, .event 0 { EPOLLIN := true },
      .work 0 .EAGAIN .EAGAIN, .work 0 .EAGAIN .EAGAIN, .work 0 .ended .EAGAIN] = some st ∧
      st.doClosed = true ∧ Lawful st := by
  have hrun : run step init [.DoAccept 5 0 true, .SetStatus, .Send [1], .goOn .EAGAIN,
      .goOn .EAGAIN, .goOn (.sent 1), .goOn .EAGAIN, .ret, .event 0 { EPOLLIN := true },
      .work 0 .EAGAIN .EAGAIN, .work 0 .EAGAIN .EAGAIN, .work 0 .ended .EAGAIN] = some _ := rfl
  exact ⟨_, hrun, rfl, (calls_lawful_iff hrun).mpr (by decide)⟩

/-- An accepted pipe gets one byte and then the end of the stream. The session answers from
`OnRecv` while BREAK is drained, and closes. -/
def answerAfterClose : List LifeAction :=
  [.DoAccept 5 0 true, .SetStatus, .ret,
    .event 0 { EPOLLIN := true }, .work 0 .EAGAIN .EAGAIN, .work 0 .EAGAIN .EAGAIN,
    .work 0 (.data [7]) .EAGAIN, .work 0 .ended .EAGAIN,
    -- `DoClose`, the other tests of `Run`, and `m_oEventQueue.Add`.
    .work 0 .EAGAIN .EAGAIN, .work 0 .EAGAIN .EAGAIN, .work 0 .EAGAIN .EAGAIN,
    .work 0 .EAGAIN .EAGAIN, .work 0 .EAGAIN .EAGAIN,
    .read 0, .look, .Send [1], .goOn .EAGAIN, .Close, .goOn .EAGAIN, .goOn .EAGAIN]

/-- Not every run is lawful. -/
theorem answer_after_close_fails :
    ¬ ∀ (as : List LifeAction) (st : PipeLife), run step init as = some st → Lawful st := by
  intro h
  have hrun : run step init answerAfterClose = some _ := rfl
  have hfailed := (h answerAfterClose _ hrun).failed
  cases hfailed

end PipeLife

end Kernel4GameServer
