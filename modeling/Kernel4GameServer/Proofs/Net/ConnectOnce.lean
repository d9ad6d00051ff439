import Kernel4GameServer.Proofs.Net.PipeLifeSteps

/-!
# `Kernel4GameServer.Proofs.Net.ConnectOnce`: one answer to each connect

The session that connects waits for `OnConnected` or `OnConnectFailed`. The socket stays in the
main epoll set behind `DoConnect`, so later events of the established connection come to
`DealEvent` again. `connectSafe` is the condition on a step that excludes a second answer.

* `AnswerInv.step`: where the main thread can be when it still owes a callback.
* `answered_of_safe`: a step that meets the condition leaves one answer, or none while the
  connect is in progress.
* `not_answered_of_not`: any other step gives an answer too many.
* `answered_iff`: the two directions for runs.
-/

set_option autoImplicit false

namespace Kernel4GameServer

open Lib

/-- How often the session was told of the outcome of its connect. -/
def answers (callbacks : List PipeCallback) : Nat :=
  callbacks.count .OnConnected + callbacks.count .OnConnectFailed

@[simp] theorem answers_nil : answers [] = 0 := rfl

@[simp] theorem answers_append (cs ds : List PipeCallback) :
    answers (cs ++ ds) = answers cs + answers ds := by
  simp only [answers, List.count_append]
  omega

@[simp] theorem answers_OnConnected : answers [.OnConnected] = 1 := rfl

@[simp] theorem answers_OnConnectFailed : answers [.OnConnectFailed] = 1 := rfl

@[simp] theorem answers_OnRecv : answers [.OnRecv] = 0 := rfl

@[simp] theorem answers_OnDisconnect : answers [.OnDisconnect] = 0 := rfl

/-- A session without an answer was not told that it is connected. -/
theorem not_mem_of_answers {callbacks : List PipeCallback} (h : answers callbacks = 0) :
    PipeCallback.OnConnected ∉ callbacks := by
  intro hmem
  have hpos := List.count_pos_iff.mpr hmem
  unfold answers at h
  omega

namespace PipeLife

/-- The session of an outbound pipe has one answer, or none while the connect is in progress.
`DoConnect` ran at most once, and neither it nor `DealEvent` released an established pipe. -/
structure Answered (st : PipeLife) : Prop where
  once : answers st.callbacks = if st.connecting then 0 else 1
  doConnects : st.doConnects ≤ 1
  lost : st.lost = false

/-- What has to hold in every state. -/
def AnsweredOutbound (st : PipeLife) : Prop := st.outbound = true → Answered st

/-- The condition on a step. `AddClient` does not go on to its own callback, be it behind a
`DoConnect` that fails or behind one that returns. `DealEvent` gets an error or `EPOLLOUT` for
an outbound pipe only while the connect is in progress. -/
def connectSafe (st : PipeLife) : LifeAction → Bool
  | .AddClient _ _ ret ok => decide (ret = .EINPROGRESS) || ok
  | .ret => decide (st.main ≠ .connected true)
  | .DealEvent _ =>
      match st.dealing with
      | mask :: _ => !st.outbound || st.connecting || !(mask.hasError || mask.EPOLLOUT)
      | [] => true
  | _ => true

/-- Where the main thread can be when it owes a callback. -/
structure AnswerInv (st : PipeLife) : Prop where
  accepted : st.main = .accepted → st.outbound = false
  again : st.main = .connected true → st.outbound = true ∧ st.connecting = false
  fresh : st.connecting = true → st.doConnects = 0

/-- A unit that was never in use. -/
theorem answerInv_init : AnswerInv init where
  accepted h := by cases h
  again h := by cases h
  fresh h := by cases h

/-! ### The invariant -/

/-- A main thread that does not owe a callback. -/
theorem AnswerInv.of_other {st : PipeLife} (haccepted : st.main ≠ .accepted)
    (hagain : st.main ≠ .connected true) (hfresh : st.connecting = true → st.doConnects = 0) :
    AnswerInv st where
  accepted h := absurd h haccepted
  again h := absurd h hagain
  fresh := hfresh

/-- With the main thread outside, and no connect in progress or none answered. -/
theorem AnswerInv.of_idle {st : PipeLife} (hmain : st.main = .idle)
    (hfresh : st.connecting = true → st.doConnects = 0) : AnswerInv st := by
  refine .of_other ?_ ?_ hfresh
  · rw [hmain]
    simp
  · rw [hmain]
    simp

/-- With the main thread outside, `DoConnect` of a use keeps the invariant. Only `AddClient`
asks for another callback, and its pipe is outbound. -/
theorem AnswerInv.of_DoConnect (st : PipeLife) (hmain : st.main = .idle) (ok again : Bool)
    (hout : again = true → st.outbound = true) : AnswerInv (st.DoConnect ok again) := by
  have hdone : (st.DoConnect ok again).connecting = false := by cases ok <;> rfl
  have hfresh : (st.DoConnect ok again).connecting = true →
      (st.DoConnect ok again).doConnects = 0 := by
    intro hc
    rw [hdone] at hc
    cases hc
  cases ok with
  | false => exact .of_idle hmain hfresh
  | true =>
      refine ⟨fun h => (by cases h), fun h => ⟨hout ?_, rfl⟩, hfresh⟩
      have heq : LifeMain.connected again = .connected true := h
      injection heq

/-- Every step keeps the invariant. -/
theorem AnswerInv.step {st st' : PipeLife} {a : LifeAction} (h : AnswerInv st)
    (hs : st.step a = some st') : AnswerInv st' := by
  cases step_moves hs with
  | quiet pipe worker dealing main call callbacks hstatus hsocket hclosing hmain htells hst =>
      subst hst
      rcases hmain with rfl | hfree | ⟨_, t, rfl⟩
      · exact ⟨h.accepted, h.again, h.fresh⟩
      · refine .of_other (fun hm => ?_) (fun hm => ?_) h.fresh
        · -- A free main thread owes no callback.
          have heq : main = .accepted := hm
          rw [heq] at hfree
          cases hfree
        · have heq : main = .connected true := hm
          rw [heq] at hfree
          cases hfree
      · exact .of_other (by simp) (by simp) h.fresh
  | again ha hmain hst =>
      subst hst
      exact .of_other (by simp) (by simp) h.fresh
  | Send src ha hmain hst =>
      subst hst
      exact ⟨h.accepted, h.again, h.fresh⟩
  | Close ha hmain hst =>
      subst hst
      exact ⟨h.accepted, h.again, h.fresh⟩
  | post opt result ha hcall hst =>
      subst hst
      exact ⟨h.accepted, h.again, h.fresh⟩
  | doClose w next hstatus ha hst =>
      subst hst
      exact ⟨h.accepted, h.again, h.fresh⟩
  | del w next hpc hst =>
      subst hst
      exact ⟨h.accepted, h.again, h.fresh⟩
  | shut w next hpc hst =>
      subst hst
      exact ⟨h.accepted, h.again, h.fresh⟩
  | connected lSocket lEpollFD ok ha huse hmain hst =>
      have hconnect : AnswerInv ((st.start lSocket lEpollFD true).DoConnect ok true) :=
        .of_DoConnect (st.start lSocket lEpollFD true) hmain ok true fun _ => rfl
      cases ok with
      | true =>
          subst hst
          -- `DoConnect` is in its `OnConnected`, and `AddClient` owes its own behind it.
          exact hconnect
      | false =>
          subst hst
          exact ⟨hconnect.accepted, hconnect.again, hconnect.fresh⟩
  | inProgress lSocket lEpollFD ok ha huse hmain hst =>
      subst hst
      exact .of_idle hmain fun _ => rfl
  | accepted lSocket lEpollFD ok ha huse hmain hst =>
      cases ok with
      | true =>
          subst hst
          exact ⟨fun _ => rfl, fun hm => (by cases hm), fun hc => (by cases hc)⟩
      | false =>
          subst hst
          exact .of_idle hmain fun hc => (by cases hc)
  | SetStatus ha hmain hst =>
      subst hst
      exact .of_other (by simp) (by simp) h.fresh
  | connectFailed mask dealing ok ha hmain hdealing huse herr hst =>
      subst hst
      exact .of_idle hmain fun hc => (by cases hc)
  | DoConnect mask dealing ok ha hmain hdealing huse herr hout hadd hst =>
      subst hst
      exact .of_DoConnect { st with dealing } hmain ok false fun hf => (by cases hf)

/-! ### Answers -/

/-- Telling the session what it received, or that the connection is gone, is no answer. -/
theorem answers_tells {st : PipeLife} {a : LifeAction} {callbacks : List PipeCallback}
    (h : Tells st a callbacks) : answers callbacks = answers st.callbacks := by
  rcases h with rfl | ⟨_, rfl⟩ | ⟨_, _, rfl⟩ <;> simp

/-- `DoConnect` gives one answer more. -/
theorem answers_DoConnect (st : PipeLife) (ok again : Bool) :
    answers (st.DoConnect ok again).callbacks = answers st.callbacks + 1 := by
  cases ok with
  | true =>
      show answers (st.callbacks ++ [.OnConnected]) = _
      simp
  | false =>
      show answers (st.callbacks ++ [.OnConnectFailed]) = _
      simp

/-- So does the error branch of `DealEvent`. -/
theorem answers_connectFailed (st : PipeLife) :
    answers st.connectFailed.callbacks = answers st.callbacks + 1 := by
  show answers (st.callbacks ++ [.OnConnectFailed]) = _
  simp

/-- A `DoConnect` that no other one came before gives the one answer. -/
theorem Answered.of_DoConnect (st : PipeLife) (hnone : answers st.callbacks = 0)
    (hfresh : st.doConnects = 0) (hlost : st.lost = false) (ok again : Bool) :
    Answered (st.DoConnect ok again) where
  once := by
    have hdone : (st.DoConnect ok again).connecting = false := by cases ok <;> rfl
    rw [answers_DoConnect, hnone, hdone]
    rfl
  doConnects := by
    have hone : (st.DoConnect ok again).doConnects = st.doConnects + 1 := by cases ok <;> rfl
    omega
  lost := by
    cases ok with
    | true => exact hlost
    | false =>
        show (st.lost || decide (PipeCallback.OnConnected ∈ st.callbacks)) = false
        rw [hlost, decide_eq_false (not_mem_of_answers hnone)]
        rfl

/-- The error branch of `DealEvent` gives the one answer when there was none. -/
theorem Answered.of_connectFailed (st : PipeLife) (hnone : answers st.callbacks = 0)
    (hfresh : st.doConnects = 0) (hlost : st.lost = false) : Answered st.connectFailed where
  once := by
    rw [answers_connectFailed, hnone]
    rfl
  doConnects := by
    show st.doConnects ≤ 1
    omega
  lost := by
    show (st.lost || decide (PipeCallback.OnConnected ∈ st.callbacks)) = false
    rw [hlost, decide_eq_false (not_mem_of_answers hnone)]
    rfl

/-- What `connectSafe` says about an effective event of an outbound pipe: there is no answer
yet. -/
theorem none_of_connectSafe {st : PipeLife} {mask : EpollFlags} {dealing : List EpollFlags}
    {ok : Bool} (hP : AnsweredOutbound st) (hsafe : st.connectSafe (.DealEvent ok) = true)
    (hdealing : st.dealing = mask :: dealing)
    (heffect : (mask.hasError || mask.EPOLLOUT) = true) (hout : st.outbound = true) :
    st.connecting = true ∧ answers st.callbacks = 0 ∧ st.lost = false := by
  simp only [connectSafe, hdealing, hout, heffect, Bool.not_true, Bool.false_or,
    Bool.or_false] at hsafe
  have hanswered := hP hout
  exact ⟨hsafe, by rw [hanswered.once, hsafe]; rfl, hanswered.lost⟩

/-- A step that meets the condition leaves one answer, or none while the connect is in
progress. -/
theorem answered_of_safe {st st' : PipeLife} {a : LifeAction} (h : AnswerInv st)
    (hP : AnsweredOutbound st) (hsafe : st.connectSafe a = true) (hs : st.step a = some st') :
    AnsweredOutbound st' := by
  cases step_moves hs with
  | quiet pipe worker dealing main call callbacks hstatus hsocket hclosing hmain htells hst =>
      subst hst
      intro hout
      have hanswered := hP hout
      exact ⟨(answers_tells htells).trans hanswered.once, hanswered.doConnects, hanswered.lost⟩
  | again ha hmain hst =>
      subst ha
      simp [connectSafe, hmain] at hsafe
  | Send src ha hmain hst =>
      subst hst
      intro hout
      exact ⟨(hP hout).once, (hP hout).doConnects, (hP hout).lost⟩
  | Close ha hmain hst =>
      subst hst
      intro hout
      exact ⟨(hP hout).once, (hP hout).doConnects, (hP hout).lost⟩
  | post opt result ha hcall hst =>
      subst hst
      intro hout
      exact ⟨(hP hout).once, (hP hout).doConnects, (hP hout).lost⟩
  | doClose w next hstatus ha hst =>
      subst hst
      intro hout
      exact ⟨(hP hout).once, (hP hout).doConnects, (hP hout).lost⟩
  | del w next hpc hst =>
      subst hst
      intro hout
      exact ⟨(hP hout).once, (hP hout).doConnects, (hP hout).lost⟩
  | shut w next hpc hst =>
      subst hst
      intro hout
      exact ⟨(hP hout).once, (hP hout).doConnects, (hP hout).lost⟩
  | connected lSocket lEpollFD ok ha huse hmain hst =>
      subst ha
      -- The condition leaves the `DoConnect` that succeeds.
      have hok : ok = true := by simpa [connectSafe] using hsafe
      subst hok
      subst hst
      intro _
      exact .of_DoConnect (st.start lSocket lEpollFD true) rfl rfl rfl true true
  | inProgress lSocket lEpollFD ok ha huse hmain hst =>
      subst hst
      intro _
      exact ⟨rfl, Nat.zero_le 1, rfl⟩
  | accepted lSocket lEpollFD ok ha huse hmain hst =>
      cases ok with
      | true =>
          subst hst
          intro hout
          cases hout
      | false =>
          subst hst
          intro hout
          cases hout
  | SetStatus ha hmain hst =>
      subst hst
      intro hout
      have hin : st.outbound = true := hout
      rw [h.accepted hmain] at hin
      cases hin
  | connectFailed mask dealing ok ha hmain hdealing huse herr hst =>
      subst ha hst
      intro hout
      obtain ⟨hconnecting, hnone, hlost⟩ :=
        none_of_connectSafe hP hsafe hdealing (by rw [herr]; rfl) hout
      exact .of_connectFailed { st with dealing } hnone (h.fresh hconnecting) hlost
  | DoConnect mask dealing ok ha hmain hdealing huse herr hev hadd hst =>
      subst ha hst
      intro hout
      have hout' : st.outbound = true := by cases ok <;> exact hout
      obtain ⟨hconnecting, hnone, hlost⟩ :=
        none_of_connectSafe hP hsafe hdealing (by rw [hev, Bool.or_true]) hout'
      exact .of_DoConnect { st with dealing } hnone (h.fresh hconnecting) hlost ok false

/-- An answer behind another one is one too many. -/
theorem not_answered {st : PipeLife} (hout : st.outbound = true) (hone : st.connecting = false)
    (htwo : answers st.callbacks = 2) : ¬ AnsweredOutbound st := by
  intro hP
  have honce := (hP hout).once
  rw [htwo, hone] at honce
  cases honce

/-- Any other step gives an answer too many. -/
theorem not_answered_of_not {st st' : PipeLife} {a : LifeAction} (h : AnswerInv st)
    (hP : AnsweredOutbound st) (hsafe : ¬ st.connectSafe a = true)
    (hs : st.step a = some st') : ¬ AnsweredOutbound st' := by
  cases a with
  | AddClient lSocket lEpollFD ret ok =>
      simp only [connectSafe, Bool.or_eq_true, decide_eq_true_eq, not_or,
        Bool.not_eq_true] at hsafe
      obtain ⟨hret, rfl⟩ := hsafe
      cases ret with
      | EINPROGRESS => exact absurd rfl hret
      | connected =>
          simp only [step] at hs
          split at hs
          · cases hs
            exact not_answered rfl rfl rfl
          · cases hs
  | ret =>
      have hmain : st.main = .connected true := by simpa [connectSafe] using hsafe
      obtain ⟨hout, hone⟩ := h.again hmain
      have honce := (hP hout).once
      rw [hone] at honce
      simp only [step, hmain] at hs
      split at hs
      · rename_i again heq _
        cases heq
        cases hs
        refine not_answered hout hone ?_
        show answers (st.callbacks ++ [.OnConnected]) = 2
        rw [answers_append, honce]
        rfl
      · cases hs
  | DealEvent ok =>
      simp only [step] at hs
      split at hs
      · rename_i mask dealing hmain hdealing
        simp only [connectSafe, hdealing, Bool.or_eq_true, Bool.not_eq_true', not_or,
          Bool.not_eq_true, Bool.not_eq_false] at hsafe
        obtain ⟨⟨hout, hone⟩, heffect⟩ := hsafe
        have honce := (hP hout).once
        rw [hone] at honce
        -- Both branches for an effective event give an answer.
        simp only [deal] at hs
        split at hs
        · split at hs
          · cases hs
            refine not_answered hout rfl ?_
            rw [answers_connectFailed]
            show answers st.callbacks + 1 = 2
            rw [honce]
            rfl
          · rename_i herr
            have hev : mask.EPOLLOUT = true := by simpa [herr] using heffect
            rw [if_pos hev] at hs
            split at hs
            · cases hs
              refine not_answered ?_ ?_ ?_
              · cases ok <;> exact hout
              · cases ok <;> rfl
              · rw [answers_DoConnect]
                show answers st.callbacks + 1 = 2
                rw [honce]
                rfl
            · cases hs
        · cases hs
      · cases hs
  | DoAccept lSocket lEpollFD ok => exact absurd rfl hsafe
  | SetStatus => exact absurd rfl hsafe
  | wait mask => exact absurd rfl hsafe
  | Send src => exact absurd rfl hsafe
  | Close => exact absurd rfl hsafe
  | goOn result => exact absurd rfl hsafe
  | read w => exact absurd rfl hsafe
  | look => exact absurd rfl hsafe
  | used nUse => exact absurd rfl hsafe
  | finish => exact absurd rfl hsafe
  | event w mask => exact absurd rfl hsafe
  | work w received sent => exact absurd rfl hsafe

/-! ### Runs -/

/-- In every state of a run each connect has its one answer, just when every step of the run
meets the condition. -/
theorem answered_iff {as : List LifeAction} {st : PipeLife} (hrun : run step init as = some st) :
    Throughout step AnsweredOutbound init as ↔
      AllSteps step (fun st a => st.connectSafe a = true) init as := by
  have hinit : AnsweredOutbound init := fun hout => by cases hout
  refine throughout_iff (I := AnswerInv) (fun s a s' hI hP hs => ⟨fun hP' => ?_, fun hsafe => ?_⟩)
    (fun s a s' hI _ _ hs => hI.step hs) answerInv_init hinit hrun
  · by_contra hsafe
    exact not_answered_of_not hI hP hsafe hs hP'
  · exact answered_of_safe hI hP hsafe hs

/-- A connect that is answered once, with traffic behind it. -/
theorem answered_connect : Throughout step AnsweredOutbound init
    [.AddClient 5 0 .EINPROGRESS true, .wait { EPOLLOUT := true }, .DealEvent true, .Send [1],
      .goOn .EAGAIN, .goOn .EAGAIN, .goOn (.sent 1), .goOn .EAGAIN, .ret] := by
  have hrun : run step init [.AddClient 5 0 .EINPROGRESS true, .wait { EPOLLOUT := true },
      .DealEvent true, .Send [1], .goOn .EAGAIN, .goOn .EAGAIN, .goOn (.sent 1), .goOn .EAGAIN,
      .ret] = some _ := rfl
  exact (answered_iff hrun).mpr (by decide)

/-- Not every connect is answered once: the peer resets an established connection, and the
main epoll set reports it. -/
theorem reset_after_connect_fails : ¬ ∀ (as : List LifeAction) (st : PipeLife),
    run step init as = some st → AnsweredOutbound st := by
  intro h
  have hrun : run step init [.AddClient 5 0 .EINPROGRESS true, .wait { EPOLLOUT := true },
      .DealEvent true, .ret, .wait { EPOLLERR := true, EPOLLHUP := true }, .DealEvent true]
      = some _ := rfl
  have hlost := (h _ _ hrun rfl).lost
  cases hlost

end PipeLife

end Kernel4GameServer
