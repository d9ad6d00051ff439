import Kernel4GameServer.Net.Epoll.Shutdown

/-!
# `Kernel4GameServer.Proofs.Net.Shutdown`: `epoller::Destory` and its workers

`Terminate` waits for a worker whose status is WORKING. A worker sets that status itself when it
begins, so `Terminate` returns at once from a worker that is created and not yet scheduled, and
`Destory` deletes it. And the main thread, which waits in `Terminate`, is the only reader of the
queue that the worker fills.

`Epoller.handshake_iff` is the main result: in a run no worker goes on behind its `Terminate`
and no `Terminate` is a deadlock exactly when every `Terminate` is in time (`Epoller.InTime`).
`Epoller.late_worker` is a run with a worker that begins behind `delete[] m_pWorkerAry`,
`Epoller.full_queue` one that ends in a deadlock, and `Epoller.Deadlock.step` says that it stays
one.
-/

set_option autoImplicit false

namespace Kernel4GameServer

open Lib

/-! ### One worker -/

namespace EpollWorker

variable {w w' : EpollWorker} {a : RunAction}

/-- Behind `Run` there is no step. -/
theorem step_returned (h : w.thread.run = .returned) (a : RunAction) : w.step a = none := by
  unfold step
  rw [h]

/-- A worker in `Add` that starts to wait there, or goes on to wait. -/
theorem blocked_add {type : IoEventType} {left : Nat} (hrun : w.thread.run = .running)
    (hloop : w.loop = .add type left) : w.Blocked ↔ w.full = true := by
  constructor
  · exact fun h => h.2.2
  · exact fun h => ⟨hrun, by rw [hloop]; rfl, h⟩

/-- A worker outside of `Add` does not wait there. -/
theorem not_blocked (hloop : w.loop.inAdd = false) : ¬ w.Blocked :=
  fun h => Bool.false_ne_true (hloop.symm.trans h.2.1)

/-- The loop over the events does not lead into `Add`. -/
theorem next_inAdd (left : Nat) : (RunLoopPc.next left).inAdd = false := by
  unfold RunLoopPc.next
  split <;> rfl

/-- A step of a worker is one of a thread that has not returned. It keeps the invariant of the
thread, and it does nothing to the caller of `Terminate`. -/
theorem step_thread (hstep : w.step a = some w') (h : w.thread.Inv) :
    w.thread.run ≠ .returned ∧ w'.thread.Inv ∧ w'.thread.terminate = w.thread.terminate := by
  refine ⟨fun hrun => ?_, ?_⟩
  · rw [step_returned hrun] at hstep
    cases hstep
  unfold step at hstep
  split at hstep
  · rename_i hrun
    obtain ⟨thread, hbegin, rfl⟩ := Option.map_eq_some_iff.mp hstep
    refine ⟨h.begin hbegin, ?_⟩
    unfold CThread.begin at hbegin
    rw [hrun] at hbegin
    obtain rfl := Option.some.inj hbegin
    rfl
  · rename_i hrun hloop
    split at hstep
    · rename_i hstatus
      obtain rfl := Option.some.inj hstep
      exact ⟨h.finish hrun hstatus, rfl⟩
    · obtain rfl := Option.some.inj hstep
      exact ⟨h, rfl⟩
  · split at hstep
    · obtain rfl := Option.some.inj hstep
      exact ⟨h, rfl⟩
    · split at hstep
      · obtain rfl := Option.some.inj hstep
        exact ⟨h, rfl⟩
      · cases hstep
  · split at hstep
    · obtain rfl := Option.some.inj hstep
      exact ⟨h, rfl⟩
    · obtain rfl := Option.some.inj hstep
      exact ⟨h, rfl⟩
  · split at hstep
    · obtain rfl := Option.some.inj hstep
      exact ⟨h, rfl⟩
    · obtain rfl := Option.some.inj hstep
      exact ⟨h, rfl⟩
  · cases hstep

/-- A worker waits in `Add` when it did before, or when it comes to `Add` with a full queue. -/
theorem step_blocked (hstep : w.step a = some w') :
    w'.Blocked ↔ w.Blocked ∨ (a.adds = true ∧ w.full = true) := by
  -- Most steps begin and end outside of `Add`.
  have houtside : ∀ {v : EpollWorker}, a.adds = false → ¬ w.Blocked → ¬ v.Blocked →
      (v.Blocked ↔ w.Blocked ∨ (a.adds = true ∧ w.full = true)) :=
    fun ha hw hv => iff_of_false hv fun h =>
      h.elim hw fun h => Bool.false_ne_true (ha.symm.trans h.1)
  unfold step at hstep
  split at hstep
  · rename_i hrun
    obtain ⟨thread, -, rfl⟩ := Option.map_eq_some_iff.mp hstep
    refine houtside rfl (fun h => ?_) (not_blocked rfl)
    exact absurd (hrun.symm.trans h.1) (by decide)
  · rename_i hrun hloop
    have hw : ¬ w.Blocked := not_blocked (by rw [hloop]; rfl)
    split at hstep
    · obtain rfl := Option.some.inj hstep
      exact houtside rfl hw fun h => by cases h.1
    · obtain rfl := Option.some.inj hstep
      exact houtside rfl hw (not_blocked rfl)
  · rename_i nRetCount hrun hloop
    have hw : ¬ w.Blocked := not_blocked (by rw [hloop]; rfl)
    split at hstep
    · obtain rfl := Option.some.inj hstep
      exact houtside rfl hw (not_blocked rfl)
    · split at hstep
      · obtain rfl := Option.some.inj hstep
        exact houtside rfl hw (not_blocked rfl)
      · cases hstep
  · rename_i left eventType hrun hloop
    have hw : ¬ w.Blocked := not_blocked (by rw [hloop]; rfl)
    split at hstep
    · rename_i htype
      obtain rfl := Option.some.inj hstep
      rw [blocked_add (w := { w with loop := .add eventType left }) hrun rfl]
      exact ⟨fun hfull => .inr ⟨decide_eq_true htype, hfull⟩,
        fun h => h.elim (fun h => absurd h hw) And.right⟩
    · rename_i htype
      obtain rfl := Option.some.inj hstep
      exact houtside (decide_eq_false htype) hw (not_blocked (next_inAdd left))
  · rename_i type left hrun hloop
    split at hstep
    · obtain rfl := Option.some.inj hstep
      exact ⟨.inl, fun h => h.elim (fun h => h) fun h => absurd h.1 Bool.false_ne_true⟩
    · rename_i hfull
      obtain rfl := Option.some.inj hstep
      exact houtside rfl (fun h => hfull h.2.2) (not_blocked (next_inAdd left))
  · cases hstep

end EpollWorker

/-! ### All workers and the main thread -/

namespace Epoller

variable {st st' : Epoller} {a : EpollerAction}

@[simp] theorem setWorker_self (st : Epoller) (i : Nat) (w : EpollWorker) :
    (st.setWorker i w).m_pWorkerAry i = w :=
  Function.update_self _ _ _

@[simp] theorem setWorker_other (st : Epoller) {i j : Nat} (w : EpollWorker) (h : j ≠ i) :
    (st.setWorker i w).m_pWorkerAry j = st.m_pWorkerAry j :=
  Function.update_of_ne h _ _

/-- What holds in every state: the status of each thread fits, and a caller that waits is the
main thread in `Destory`. -/
structure Inv (st : Epoller) : Prop where
  thread : ∀ i, (st.m_pWorkerAry i).thread.Inv
  caller : ∀ i, (st.m_pWorkerAry i).thread.terminate = .waiting →
    st.main = .Destory i ∧ i < st.m_nWorkerCount

/-- The engine in front of the start of its workers. -/
theorem init_inv (m_nWorkerCount : Nat) : (init m_nWorkerCount).Inv where
  thread _ := CThread.init_inv
  caller _ h := by cases h

/-- No worker goes on behind its `Terminate`, and no `Terminate` is a deadlock. -/
def Sound (st : Epoller) : Prop := st.Stopped ∧ ∀ i, ¬ st.Deadlock i

/-- In front of `Destory` no `Terminate` has been called. -/
theorem sound_of_not_destory (hmain : ∀ i, st.main ≠ .Destory i) (hdeleted : st.main ≠ .deleted) :
    st.Sound := by
  refine ⟨fun i _ hi => ?_, fun i hi => hmain i hi.1⟩
  unfold Terminated at hi
  split at hi
  · exact hi.elim
  · exact hi.elim
  · rename_i j hj
    exact absurd hj (hmain j)
  · rename_i hd
    exact absurd hd hdeleted

/-- A worker changes whose thread is in order, and nothing is done to the caller of its
`Terminate`. -/
theorem Inv.setWorker (h : st.Inv) {i : Nat} {w : EpollWorker} (hw : w.thread.Inv)
    (hterminate : w.thread.terminate = (st.m_pWorkerAry i).thread.terminate) :
    (st.setWorker i w).Inv := by
  refine ⟨fun j => ?_, fun j hwaiting => h.caller j ?_⟩
  · by_cases hj : j = i
    · subst hj
      rwa [setWorker_self]
    · rw [setWorker_other st w hj]
      exact h.thread j
  · by_cases hj : j = i
    · subst hj
      rwa [setWorker_self, hterminate] at hwaiting
    · rwa [setWorker_other st w hj] at hwaiting

/-- The main thread goes on when it waits for no worker. -/
theorem Inv.goto (h : st.Inv)
    (hmain : ∀ i, i < st.m_nWorkerCount → st.main ≠ .Destory i) (main : EpollerPc) :
    ({ st with main } : Epoller).Inv := by
  refine ⟨h.thread, fun i hwaiting => ?_⟩
  obtain ⟨hm, hi⟩ := h.caller i hwaiting
  exact absurd hm (hmain i hi)

/-- A step of a worker is harmless unless it goes to `Add` with a full queue while `Terminate`
waits for it. -/
theorem Sound.worker_iff (hs : st.Sound) (h : st.Inv) {i : Nat} {b : RunAction} {w : EpollWorker}
    (hstep : (st.m_pWorkerAry i).step b = some w) :
    (st.setWorker i w).Sound ↔ st.InTime (.worker i b) := by
  obtain ⟨hrun, -, hterminate⟩ := EpollWorker.step_thread hstep (h.thread i)
  have hblocked := EpollWorker.step_blocked hstep
  constructor
  · intro hs' hadds hwaiting
    by_contra hfull
    refine hs'.2 i ⟨(h.caller i hwaiting).1, ?_, ?_⟩
    · rw [setWorker_self, hterminate]
      exact hwaiting
    · rw [setWorker_self]
      exact hblocked.mpr (.inr ⟨hadds, by simpa using hfull⟩)
  · intro hin
    refine ⟨fun j hj ht => ?_, ?_⟩
    · by_cases hji : j = i
      · subst hji
        exact absurd (hs.1 j hj ht) hrun
      · rw [setWorker_other st w hji]
        exact hs.1 j hj ht
    · rintro j ⟨hmain, hwaiting, hb⟩
      by_cases hji : j = i
      · subst hji
        rw [setWorker_self] at hwaiting hb
        rw [hterminate] at hwaiting
        rcases hblocked.mp hb with hold | ⟨hadds, hfull⟩
        · exact hs.2 j ⟨hmain, hwaiting, hold⟩
        · exact absurd (hin hadds hwaiting) (by rw [hfull]; decide)
      · rw [setWorker_other st w hji] at hwaiting hb
        exact hs.2 j ⟨hmain, hwaiting, hb⟩

/-! ### `Terminate` -/

/-- The state behind a step of `Terminate` of the worker `i`, which leaves its thread as `t`. -/
def terminated (st : Epoller) (i : Nat) (t : CThread) : Epoller :=
  { st.setWorker i { st.m_pWorkerAry i with thread := t } with
    main :=
      match t.terminate with
      | .returned _ => .Destory (i + 1)
      | _ => .Destory i }

/-- `Terminate` goes on to the next worker when it returns. -/
theorem terminated_main (st : Epoller) (i : Nat) (t : CThread) :
    (∃ result, t.terminate = .returned result ∧ (st.terminated i t).main = .Destory (i + 1)) ∨
      ((∀ result, t.terminate ≠ .returned result) ∧ (st.terminated i t).main = .Destory i) := by
  unfold terminated
  cases ht : t.terminate with
  | returned result => exact .inl ⟨result, rfl, rfl⟩
  | idle => exact .inr ⟨(fun _ heq => by cases heq), rfl⟩
  | storing => exact .inr ⟨(fun _ heq => by cases heq), rfl⟩
  | waiting => exact .inr ⟨(fun _ heq => by cases heq), rfl⟩

@[simp] theorem terminated_self (st : Epoller) (i : Nat) (t : CThread) :
    (st.terminated i t).m_pWorkerAry i = { st.m_pWorkerAry i with thread := t } :=
  Function.update_self _ _ _

@[simp] theorem terminated_other (st : Epoller) {i j : Nat} (t : CThread) (h : j ≠ i) :
    (st.terminated i t).m_pWorkerAry j = st.m_pWorkerAry j :=
  Function.update_of_ne h _ _

/-- A step of `Terminate` keeps the invariant. -/
theorem Inv.terminated (h : st.Inv) {i : Nat} (hi : i < st.m_nWorkerCount)
    (hmain : st.main = .Destory i) {t : CThread}
    (ht : (st.m_pWorkerAry i).thread.Terminate = some t) : (st.terminated i t).Inv := by
  refine ⟨fun j => ?_, fun j hwaiting => ?_⟩
  · by_cases hj : j = i
    · subst hj
      rw [terminated_self]
      exact (h.thread j).terminate ht
    · rw [terminated_other st t hj]
      exact h.thread j
  · by_cases hj : j = i
    · subst hj
      rw [terminated_self] at hwaiting
      rcases terminated_main st j t with ⟨result, hreturned, -⟩ | ⟨-, hm⟩
      · rw [hreturned] at hwaiting
        cases hwaiting
      · exact ⟨hm, hi⟩
    · rw [terminated_other st t hj] at hwaiting
      have hother := (h.caller j hwaiting).1.symm.trans hmain
      exact absurd (EpollerPc.Destory.inj hother) hj

/-- While `Terminate` has not returned it is harmless unless it waits for a worker that waits
in `Add`. -/
theorem Sound.terminated_iff (hs : st.Sound) {i : Nat} (hmain : st.main = .Destory i)
    {t : CThread} (ht : ∀ result, t.terminate ≠ .returned result) :
    (st.terminated i t).Sound ↔
      ¬ (t.terminate = .waiting ∧ EpollWorker.Blocked { st.m_pWorkerAry i with thread := t }) := by
  have hm : (st.terminated i t).main = .Destory i := by
    rcases terminated_main st i t with ⟨result, hreturned, -⟩ | ⟨-, hm⟩
    · exact absurd hreturned (ht result)
    · exact hm
  constructor
  · rintro hs' ⟨hwaiting, hb⟩
    exact hs'.2 i ⟨hm, by rwa [terminated_self], by rwa [terminated_self]⟩
  · intro hnone
    refine ⟨fun j hj hterminated => ?_, ?_⟩
    · unfold Terminated at hterminated
      rw [hm] at hterminated
      have hlt : j < i := hterminated
      rw [terminated_other st t (Nat.ne_of_lt hlt)]
      refine hs.1 j hj ?_
      unfold Terminated
      rw [hmain]
      exact hlt
    · rintro j ⟨hj, hwaiting, hb⟩
      obtain rfl : j = i := EpollerPc.Destory.inj (hj.symm.trans hm)
      rw [terminated_self] at hwaiting hb
      exact hnone ⟨hwaiting, hb⟩

/-- When `Terminate` returns, its worker must have returned. -/
theorem Sound.returned_iff (hs : st.Sound) (h : st.Inv) {i : Nat} (hi : i < st.m_nWorkerCount)
    (hmain : st.main = .Destory i) {t : CThread} {result : Bool}
    (ht : t.terminate = .returned result) :
    (st.terminated i t).Sound ↔ t.run = .returned := by
  have hm : (st.terminated i t).main = .Destory (i + 1) := by
    rcases terminated_main st i t with ⟨-, -, hm⟩ | ⟨hnone, -⟩
    · exact hm
    · exact absurd ht (hnone result)
  constructor
  · intro hs'
    have hrun := hs'.1 i hi (by
      unfold Terminated
      rw [hm]
      exact Nat.lt_succ_self i)
    rwa [terminated_self] at hrun
  · intro hrun
    refine ⟨fun j hj hterminated => ?_, ?_⟩
    · unfold Terminated at hterminated
      rw [hm] at hterminated
      have hlt : j < i + 1 := hterminated
      by_cases hji : j = i
      · subst hji
        rwa [terminated_self]
      · rw [terminated_other st t hji]
        refine hs.1 j hj ?_
        unfold Terminated
        rw [hmain]
        show j < i
        omega
    · rintro j ⟨hj, hwaiting, -⟩
      obtain rfl : j = i + 1 := EpollerPc.Destory.inj (hj.symm.trans hm)
      rw [terminated_other st t (Nat.succ_ne_self i)] at hwaiting
      have hother := (h.caller _ hwaiting).1.symm.trans hmain
      exact absurd (EpollerPc.Destory.inj hother) (Nat.succ_ne_self i)

/-- A step of `Terminate` is harmless exactly when it is in time. -/
theorem Sound.terminate_iff (hs : st.Sound) (h : st.Inv) {i : Nat} (hi : i < st.m_nWorkerCount)
    (hmain : st.main = .Destory i) {t : CThread}
    (ht : (st.m_pWorkerAry i).thread.Terminate = some t) :
    (st.terminated i t).Sound ↔ st.InTime .Terminate := by
  have hthread := h.thread i
  have hin : st.InTime .Terminate ↔
      ((st.m_pWorkerAry i).thread.terminate = .idle →
        (st.m_pWorkerAry i).thread.run = .running) ∧
      ((st.m_pWorkerAry i).thread.terminate = .storing → ¬ (st.m_pWorkerAry i).Blocked) := by
    unfold InTime
    rw [hmain]
    exact ⟨fun hall => hall hi, fun hand _ => hand⟩
  rw [hin]
  unfold CThread.Terminate at ht
  split at ht
  · rename_i hpc
    rw [hpc]
    split at ht
    · rename_i hstatus
      obtain rfl := Option.some.inj ht
      rw [hs.terminated_iff hmain fun _ heq => by cases heq]
      exact iff_of_true (fun hb => by cases hb.1)
        ⟨fun _ => hthread.running hstatus, fun heq => by cases heq⟩
    · rename_i hstatus
      -- `Terminate` returns at once, before `Run` has started.
      obtain rfl := Option.some.inj ht
      rw [hs.returned_iff h hi hmain rfl]
      refine iff_of_false (fun hrun => ?_) fun hand => ?_
      · have hnot := hthread
        unfold CThread.Inv at hnot
        rw [show (st.m_pWorkerAry i).thread.run = .returned from hrun] at hnot
        rw [hpc] at hnot
        rcases hnot.2 with heq | heq <;> cases heq
      · have hnot := hthread
        unfold CThread.Inv at hnot
        rw [hand.1 rfl, hpc] at hnot
        exact hstatus hnot
  · rename_i hpc
    rw [hpc]
    obtain rfl := Option.some.inj ht
    rw [hs.terminated_iff hmain fun _ heq => by cases heq]
    -- The store makes the caller wait, which is harmful just when the worker is blocked.
    constructor
    · exact fun hnone => ⟨(fun heq => by cases heq), fun _ hb => hnone ⟨rfl, hb⟩⟩
    · exact fun hand hb => hand.2 rfl hb.2
  · rename_i hpc
    rw [hpc]
    -- A caller that waits already adds nothing to the condition.
    have htrue : (TerminatePc.waiting = .idle → (st.m_pWorkerAry i).thread.run = .running) ∧
        (TerminatePc.waiting = .storing → ¬ (st.m_pWorkerAry i).Blocked) :=
      ⟨(fun heq => by cases heq), fun heq => by cases heq⟩
    split at ht
    · rename_i hstatus
      obtain rfl := Option.some.inj ht
      rw [hs.returned_iff h hi hmain rfl]
      exact iff_of_true (hthread.returned hpc hstatus) htrue
    · obtain rfl := Option.some.inj ht
      rw [hs.terminated_iff hmain fun _ heq => by rw [hpc] at heq; cases heq]
      exact iff_of_true (fun hb => hs.2 i ⟨hmain, hpc, hb.2⟩) htrue
  · cases ht

/-! ### Runs -/

/-- `Terminate` behind the last worker deletes them. -/
theorem Sound.deleted (hs : st.Sound) {i : Nat} (hmain : st.main = .Destory i)
    (hi : ¬ i < st.m_nWorkerCount) : ({ st with main := .deleted } : Epoller).Sound := by
  refine ⟨fun j hj _ => hs.1 j hj ?_, fun j hj => by cases hj.1⟩
  unfold Terminated
  rw [hmain]
  have hlt : j < st.m_nWorkerCount := hj
  show j < i
  omega

/-- Every step keeps the invariant, and a step from a sound state leads to a sound one exactly
when it is in time. -/
theorem step_spec (hstep : st.step a = some st') (h : st.Inv) :
    st'.Inv ∧ (st.Sound → (st'.Sound ↔ st.InTime a)) := by
  cases a with
  | Start =>
      simp only [step] at hstep
      split at hstep
      · rename_i i hmain
        have hnot : ∀ j, j < st.m_nWorkerCount → st.main ≠ .Destory j :=
          fun j _ heq => by rw [hmain] at heq; cases heq
        -- There is another worker to start, or all of them run.
        split at hstep
        · obtain ⟨t, ht, rfl⟩ := Option.map_eq_some_iff.mp hstep
          have hset : (st.setWorker i { st.m_pWorkerAry i with thread := t }).Inv :=
            h.setWorker ((h.thread i).start ht) (CThread.Start_terminate ht)
          refine ⟨hset.goto hnot _, fun _ => iff_of_true ?_ trivial⟩
          exact sound_of_not_destory (fun _ heq => by cases heq) fun heq => by cases heq
        · obtain rfl := Option.some.inj hstep
          refine ⟨h.goto hnot _, fun _ => iff_of_true ?_ trivial⟩
          exact sound_of_not_destory (fun _ heq => by cases heq) fun heq => by cases heq
      · cases hstep
  | Read i =>
      simp only [step] at hstep
      split at hstep
      · rename_i t rest hmain hqueue
        split at hstep
        · obtain rfl := Option.some.inj hstep
          refine ⟨h.setWorker (h.thread i) rfl, fun _ => iff_of_true ?_ trivial⟩
          refine sound_of_not_destory (fun j heq => ?_) fun heq => ?_
          · exact absurd (hmain.symm.trans heq) fun heq => by cases heq
          · exact absurd (hmain.symm.trans heq) fun heq => by cases heq
        · cases hstep
      · cases hstep
  | Destory =>
      simp only [step] at hstep
      split at hstep
      · rename_i hmain
        obtain rfl := Option.some.inj hstep
        -- No worker has been terminated yet.
        have hinv : ({ st with main := .Destory 0 } : Epoller).Inv :=
          h.goto (fun j _ heq => by rw [hmain] at heq; cases heq) _
        refine ⟨hinv, fun _ => iff_of_true ⟨fun j _ hj => ?_, fun j hj => ?_⟩ trivial⟩
        · exact absurd hj (Nat.not_lt_zero j)
        · have hwas := (h.caller j hj.2.1).1
          rw [hmain] at hwas
          cases hwas
      · cases hstep
  | Terminate =>
      simp only [step] at hstep
      split at hstep
      · rename_i i hmain
        split at hstep
        · rename_i hi
          obtain ⟨t, ht, rfl⟩ := Option.map_eq_some_iff.mp hstep
          -- The worker in its turn takes a step of `Terminate`.
          exact ⟨h.terminated hi hmain ht, fun hs => hs.terminate_iff h hi hmain ht⟩
        · rename_i hi
          obtain rfl := Option.some.inj hstep
          refine ⟨h.goto (fun j hj heq => hi ?_) _, fun hs => ?_⟩
          · rwa [EpollerPc.Destory.inj (hmain.symm.trans heq)]
          · refine iff_of_true (hs.deleted hmain hi) ?_
            unfold InTime
            rw [hmain]
            exact fun hlt => absurd hlt hi
      · cases hstep
  | worker i b =>
      obtain ⟨w, hw, rfl⟩ := Option.map_eq_some_iff.mp hstep
      obtain ⟨-, hthread, hterminate⟩ := EpollWorker.step_thread hw (h.thread i)
      exact ⟨h.setWorker hthread hterminate, fun hs => hs.worker_iff h hw⟩

/-- The handshake of `Destory` and the workers. In every run of any number of workers, in every
state on the way, `Run` has returned for every worker whose `Terminate` has returned and no
`Terminate` waits for a worker that waits in `Add`, exactly when every step is in time: the
worker has begun when `Terminate` tests its status, it does not wait in `Add` when `Terminate`
stores STOPPING, and it adds no event to a full queue while `Terminate` waits. -/
theorem handshake_iff {m_nWorkerCount : Nat} {as : List EpollerAction}
    (hrun : run step (init m_nWorkerCount) as = some st) :
    Throughout step (fun st => st.Stopped ∧ ∀ i, ¬ st.Deadlock i) (init m_nWorkerCount) as ↔
      AllSteps step InTime (init m_nWorkerCount) as :=
  throughout_iff (I := Inv) (P := Sound) (fun _ _ _ h hs hstep => (step_spec hstep h).2 hs)
    (fun _ _ _ h _ _ hstep => (step_spec hstep h).1) (init_inv m_nWorkerCount)
    (sound_of_not_destory (fun _ heq => by cases heq) fun heq => by cases heq) hrun

/-- A run in which the worker has begun, handles an event and stops in time. -/
def stopsInTime : List EpollerAction :=
  [.Start, .Start, .worker 0 .begin, .worker 0 .test, .worker 0 (.epoll_wait 1), .Destory,
    .Terminate, .Terminate, .worker 0 (.event .RECV), .worker 0 .Add, .worker 0 .test,
    .Terminate, .Terminate]

/-- Nothing goes wrong in that run. -/
theorem handshake_inTime :
    ∃ st, run step (init 1) stopsInTime = some st ∧
      Throughout step (fun st => st.Stopped ∧ ∀ i, ¬ st.Deadlock i) (init 1) stopsInTime :=
  ⟨_, rfl, (handshake_iff rfl).mpr (by decide)⟩

/-- A worker that is not scheduled before `Destory` begins when it is deleted. -/
theorem late_worker :
    ∃ st st', run step (init 1) [.Start, .Start, .Destory, .Terminate, .Terminate] = some st ∧
      st.main = .deleted ∧ ¬ st.Stopped ∧ st.step (.worker 0 .begin) = some st' := by
  refine ⟨_, _, rfl, rfl, fun hstopped => ?_, rfl⟩
  have hrun := hstopped 0 (by decide) trivial
  exact absurd hrun (by decide)

/-! ### The deadlock -/

/-- No step ends a deadlock. -/
theorem Deadlock.step {i : Nat} (hd : st.Deadlock i) (h : st.Inv)
    (hstep : st.step a = some st') : st'.Deadlock i := by
  obtain ⟨hmain, hwaiting, hblocked⟩ := hd
  cases a with
  | Start => simp only [Epoller.step, hmain] at hstep; cases hstep
  | Read j => simp only [Epoller.step, hmain] at hstep; cases hstep
  | Destory => simp only [Epoller.step, hmain] at hstep; cases hstep
  | Terminate =>
      -- The status stays STOPPING, since only the worker would set it to STOPED.
      have hstatus : (st.m_pWorkerAry i).thread.m_nStatus = .THREAD_STOPPING := by
        have hthread := h.thread i
        unfold CThread.Inv at hthread
        rwa [hblocked.1, hwaiting] at hthread
      simp only [Epoller.step, hmain, if_pos (h.caller i hwaiting).2, CThread.Terminate, hwaiting,
        hstatus] at hstep
      obtain rfl := Option.some.inj hstep
      refine ⟨by simp [hwaiting], ?_, ?_⟩
      · show ((st.setWorker i _).m_pWorkerAry i).thread.terminate = .waiting
        rw [setWorker_self]
        exact hwaiting
      · show ((st.setWorker i _).m_pWorkerAry i).Blocked
        rw [setWorker_self]
        exact hblocked
  | worker j b =>
      obtain ⟨w, hw, rfl⟩ := Option.map_eq_some_iff.mp hstep
      by_cases hj : i = j
      · subst hj
        obtain ⟨-, -, hterminate⟩ := EpollWorker.step_thread hw (h.thread i)
        refine ⟨hmain, ?_, ?_⟩
        · rw [setWorker_self, hterminate]
          exact hwaiting
        · rw [setWorker_self]
          exact (EpollWorker.step_blocked hw).mpr (.inl hblocked)
      · refine ⟨hmain, ?_, ?_⟩
        · rwa [setWorker_other st w hj]
        · rwa [setWorker_other st w hj]

/-- The last write to a worker counts. -/
theorem setWorker_setWorker (st : Epoller) (i : Nat) (w w' : EpollWorker) :
    (st.setWorker i w).setWorker i w' = st.setWorker i w' := by
  simp [setWorker]

/-- A run of one worker is a run of the engine. -/
theorem run_worker (i : Nat) : ∀ (bs : List RunAction) (st : Epoller),
    run step st (bs.map (.worker i)) =
      (run EpollWorker.step (st.m_pWorkerAry i) bs).map (st.setWorker i) := by
  intro bs
  induction bs with
  | nil =>
      intro st
      simp [setWorker]
  | cons b bs ih =>
      intro st
      rw [List.map_cons, run_cons, run_cons]
      show (((st.m_pWorkerAry i).step b).map (st.setWorker i)).bind _ = _
      cases (st.m_pWorkerAry i).step b with
      | none => rfl
      | some w =>
          show run step (st.setWorker i w) (bs.map (.worker i)) = _
          rw [ih, setWorker_self]
          exact congrArg (Option.map · _) (funext (setWorker_setWorker st i w))

/-- A worker that runs, with `n` events in its queue. -/
def busy (n : Nat) : EpollWorker where
  thread := ⟨.THREAD_WORKING, .running, .idle⟩
  loop := .test
  m_oEventQueue := List.replicate n .RECV

/-- A turn of the loop of `Run` that adds an event. -/
def turn : List RunAction := [.test, .epoll_wait 1, .event .RECV, .Add]

/-- While there is room the worker adds one event after the other. -/
theorem busy_turns : ∀ {n : Nat}, n ≤ IOEVENT_QUEUE_SIZE →
    run EpollWorker.step (busy 0) (List.replicate n turn).flatten = some (busy n) := by
  intro n
  induction n with
  | zero => exact fun _ => rfl
  | succ n ih =>
      intro hn
      have hroom : ¬ EpollWorker.full { busy n with loop := .add .RECV 0 } = true := by
        show ¬ decide (_ ≤ (List.replicate n IoEventType.RECV).length) = true
        rw [List.length_replicate, decide_eq_true_eq]
        omega
      have hadd : EpollWorker.step { busy n with loop := .add .RECV 0 } .Add
          = some (busy (n + 1)) := by
        refine (if_neg hroom).trans ?_
        unfold busy
        rw [List.replicate_succ']
        rfl
      have hturn : run EpollWorker.step (busy n) turn = some (busy (n + 1)) := by
        show run EpollWorker.step { busy n with loop := .add .RECV 0 } [.Add] = _
        rw [run_singleton]
        exact hadd
      rw [List.replicate_succ', List.flatten_append, run_append, ih (Nat.le_of_succ_le hn)]
      simpa using hturn

/-- The worker fills its queue, and it has another event when `Destory` is called. -/
def fillsQueue : List EpollerAction :=
  [.Start, .Start, .worker 0 .begin] ++
    ((List.replicate IOEVENT_QUEUE_SIZE turn).flatten.map (.worker 0) ++
      [.worker 0 .test, .worker 0 (.epoll_wait 1), .worker 0 (.event .RECV), .Destory, .Terminate,
        .Terminate])

/-- A worker with a full queue has another event when `Destory` is called. -/
theorem deadlock_of_full {st : Epoller} (hmain : st.main = .running)
    (hcount : st.m_nWorkerCount = 1) {queue : List IoEventType}
    (hqueue : queue.length = IOEVENT_QUEUE_SIZE) :
    ∃ st', run step (st.setWorker 0 { busy 0 with m_oEventQueue := queue })
        [.worker 0 .test, .worker 0 (.epoll_wait 1), .worker 0 (.event .RECV), .Destory,
          .Terminate, .Terminate] = some st' ∧ st'.Deadlock 0 := by
  obtain ⟨m_nWorkerCount, m_pWorkerAry, main⟩ := st
  obtain rfl : main = .running := hmain
  obtain rfl : m_nWorkerCount = 1 := hcount
  refine ⟨_, rfl, rfl, rfl, rfl, rfl, ?_⟩
  exact decide_eq_true (Nat.le_of_eq hqueue.symm)

/-- That run ends in a deadlock. -/
theorem full_queue : ∃ st, run step (init 1) fillsQueue = some st ∧ st.Deadlock 0 := by
  obtain ⟨st₁, hst₁, hmain, hcount, hworker⟩ : ∃ st,
      run step (init 1) [.Start, .Start, .worker 0 .begin] = some st ∧ st.main = .running ∧
        st.m_nWorkerCount = 1 ∧ st.m_pWorkerAry 0 = busy 0 :=
    ⟨_, rfl, rfl, rfl, rfl⟩
  have hfill := run_worker 0 (List.replicate IOEVENT_QUEUE_SIZE turn).flatten st₁
  rw [hworker, busy_turns (Nat.le_refl _)] at hfill
  unfold fillsQueue
  rw [run_append, hst₁, Option.bind_some, run_append, hfill]
  exact deadlock_of_full hmain hcount List.length_replicate

end Epoller

end Kernel4GameServer
