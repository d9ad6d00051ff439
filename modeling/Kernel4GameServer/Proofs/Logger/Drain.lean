import Kernel4GameServer.Logger.Drain
import Kernel4GameServer.Proofs.Public.TQueue

/-!
# `Kernel4GameServer.Proofs.Logger.Drain`: the messages in front of the end

`Run` decides to return from three observations, and it looks at the status last. When the
other thread logs a message and calls `Terminate` between `IsEmpty` and the test of the status,
`Run` sees STOPPING and returns, and the message stays in the queue.

`Sound` is the property that is lost in this case, and when a record is dropped by a change of
the file, and that nothing brings back: what `Run` has handled was passed to `FILEWrite`, and a
`Run` that is about to return leaves an empty queue. `DrainState.drained_iff` is the main
result, and `DrainState.lost_message` is a run that loses its only message.
-/

set_option autoImplicit false

namespace Kernel4GameServer

open Lib

/-- A write comes from `FILEWrite` alone, and it comes when the record is kept. -/
theorem FileInfo.record_isWrite (f : FileInfo) (context : List UInt8) (lTick : Int)
    (r : FileResults) :
    (f.record context lTick r).2.any FileCall.isWrite = true ↔ f.Kept lTick r := by
  have hfirst : (f.openFirst r).2.any FileCall.isWrite = false := by
    unfold openFirst FILEOpen
    cases f.file <;> cases r.opened <;> rfl
  unfold record Kept
  rw [List.any_append, hfirst, Bool.false_or]
  generalize (f.openFirst r).1 = g
  unfold rotateWrite FILEClose FILEOpen FILEWrite
  by_cases hrotate : lTick - g.m_lOpenTick > m_lMaxTick ∨ g.m_lFileSize > m_lMaxSize
  · cases hfile : g.file <;> cases hclosed : r.closed <;> cases hreopened : r.reopened <;>
      simp [hrotate, hfile, FileCall.isWrite]
  · simp [hrotate, FileCall.isWrite]

namespace LoggerState

variable {st st' : LoggerState}

/-- `Log` and the copy of the message do nothing to the queue and to `Run`. -/
theorem step_frame {a : LogAction} (ha : a = .fill ∨ ∃ log, a = .Log log)
    (hstep : st.step a = some st') :
    st'.m_oQueueStream = st.m_oQueueStream ∧ st'.runner = st.runner := by
  rcases ha with rfl | ⟨log, rfl⟩
  · simp only [step] at hstep
    split at hstep
    · obtain rfl := Option.some.inj hstep
      exact ⟨rfl, rfl⟩
    · cases hstep
  · simp only [step] at hstep
    split at hstep
    · obtain rfl := Option.some.inj hstep
      exact ⟨rfl, rfl⟩
    · obtain ⟨c, hc, rfl⟩ := Option.map_eq_some_iff.mp hstep
      exact ⟨rfl, rfl⟩
    · cases hstep

/-- `Add` puts a message behind those of the queue, which has room. -/
theorem step_Add (hstep : st.step .Add = some st') :
    st.m_oQueueStream.length < queueSize ∧
      (∃ p, st'.m_oQueueStream = st.m_oQueueStream ++ [p]) ∧ st'.runner = st.runner := by
  simp only [step] at hstep
  split at hstep
  · rename_i p hcaller
    split at hstep
    · rename_i hroom
      obtain rfl := Option.some.inj hstep
      exact ⟨hroom, ⟨p, rfl⟩, rfl⟩
    · cases hstep
  · cases hstep

/-- `Read` takes the front of the queue. -/
theorem step_Read (hstep : st.step .Read = some st') :
    ∃ p, st.m_oQueueStream = p :: st'.m_oQueueStream ∧ st.runner = .idle ∧
      st'.runner = .read p := by
  simp only [step] at hstep
  split at hstep
  · rename_i p queue hrunner hqueue
    obtain rfl := Option.some.inj hstep
    exact ⟨p, hqueue, hrunner, rfl⟩
  · cases hstep

/-- What `Run` does with the record it has read. -/
theorem step_file {lTick : Int} {r : FileResults} (hstep : st.step (.file lTick r) = some st') :
    (∃ p, st.runner = .read p ∧ st'.runner = .handled p) ∧
      st'.m_oQueueStream = st.m_oQueueStream ∧
      ((st'.calls.drop st.calls.length).any FileCall.isWrite = true ↔
        st.m_oFileInfo.Kept lTick r) := by
  simp only [step] at hstep
  split at hstep
  · rename_i p hrunner
    obtain rfl := Option.some.inj hstep
    refine ⟨⟨p, hrunner, rfl⟩, rfl, ?_⟩
    rw [List.drop_left]
    exact FileInfo.record_isWrite _ _ lTick r
  · cases hstep

/-- The stream of a handled record goes back to the pool. -/
theorem step_Recover (hstep : st.step .Recover = some st') :
    (∃ p, st.runner = .handled p) ∧ st'.runner = .idle ∧
      st'.m_oQueueStream = st.m_oQueueStream := by
  simp only [step] at hstep
  split at hstep
  · rename_i p hrunner
    obtain rfl := Option.some.inj hstep
    exact ⟨⟨p, hrunner⟩, rfl, rfl⟩
  · cases hstep

end LoggerState

namespace DrainState

/-- The messages that `Run` has finished with. -/
def handled (st : DrainState) : Nat :=
  match st.logger.runner with
  | .read _ => st.taken - 1
  | _ => st.taken

/-- `Run` has seen an empty queue and will see STOPPING, or it has returned. -/
def Late (st : DrainState) : Prop :=
  st.thread.run = .returned ∨
    (st.thread.run = .running ∧ st.thread.m_nStatus = .THREAD_STOPPING ∧ st.loop = .test)

/-- What holds in every state. -/
structure Inv (st : DrainState) : Prop where
  thread : st.thread.Inv
  counts : st.taken + st.logger.m_oQueueStream.length = st.added
  room : st.logger.m_oQueueStream.length ≤ LoggerState.queueSize
  reading : ∀ p, st.logger.runner = .read p → 1 ≤ st.taken ∧ st.loop = .read
  ended : st.thread.run = .returned → st.loop = .test
  passed : ∀ k ∈ st.passed, k < st.handled

/-- Every message that `Run` has finished with was passed to `FILEWrite`, and a `Run` that does
not come back leaves none. -/
def Sound (st : DrainState) : Prop :=
  (∀ k, k < st.handled → k ∈ st.passed) ∧ (st.Late → st.logger.m_oQueueStream = [])

/-- The logger behind `Redry`. -/
theorem init_inv : init.Inv where
  thread := CThread.init_inv
  counts := rfl
  room := Nat.zero_le _
  reading _ h := by cases h
  ended h := by cases h
  passed k h := by cases h

variable {st st' : DrainState}

/-- A step that finishes no message, and that does not change whether `Run` leaves messages
behind, keeps the property and does not bring it back. -/
theorem sound_congr (hhandled : st'.handled = st.handled) (hpassed : st'.passed = st.passed)
    (hlate : st'.Late ∧ st'.logger.m_oQueueStream ≠ [] ↔
      st.Late ∧ st.logger.m_oQueueStream ≠ []) : st'.Sound ↔ st.Sound := by
  have hleft : (st'.Late → st'.logger.m_oQueueStream = []) ↔
      (st.Late → st.logger.m_oQueueStream = []) := by
    rw [← not_iff_not, Classical.not_imp, Classical.not_imp]
    exact hlate
  unfold Sound
  rw [hhandled, hpassed, hleft]

/-- A thread that is in no call of `Terminate` has a `Run` that is not about to return. -/
theorem Inv.not_late (h : st.Inv) (hidle : st.thread.terminate = .idle) : ¬ st.Late := by
  have hthread := h.thread
  rintro (hrun | ⟨hrun, hstatus, -⟩)
  · unfold CThread.Inv at hthread
    rw [hrun, hidle] at hthread
    rcases hthread.2 with heq | heq <;> cases heq
  · have hwaiting := hthread.waiting hrun hstatus
    rw [hidle] at hwaiting
    cases hwaiting

/-- Counters are equal just when the queue is empty. -/
theorem Inv.isEmpty_iff (h : st.Inv) : st.IsEmpty = true ↔ st.logger.m_oQueueStream = [] := by
  have hcounts := h.counts
  have hroom := h.room
  unfold LoggerState.queueSize at hroom
  unfold IsEmpty
  rw [beq_iff_eq, QueueState.ofNat_inj (by omega) (by omega), ← List.length_eq_zero_iff]
  omega

/-! ### The steps -/

/-- A step of `Log` comes while `Terminate` is not called, so it adds to no queue that `Run`
leaves behind. -/
theorem log_spec (h : st.Inv) {a : LogAction} (ha : a = .Add ∨ a = .fill ∨ ∃ log, a = .Log log)
    (hstep : st.logStep a = some st') : st'.Inv ∧ (st'.Sound ↔ st.Sound) := by
  unfold logStep at hstep
  split at hstep
  · rename_i hidle
    obtain ⟨logger, hlogger, rfl⟩ := Option.map_eq_some_iff.mp hstep
    have hnot := h.not_late hidle
    have hrunner : logger.runner = st.logger.runner := by
      rcases ha with rfl | ha
      · exact (LoggerState.step_Add hlogger).2.2
      · exact (LoggerState.step_frame ha hlogger).2
    have hhandled : handled { st with
        logger, added := if a = .Add then st.added + 1 else st.added } = st.handled := by
      unfold handled
      rw [hrunner]
    refine ⟨?_, sound_congr hhandled rfl (iff_of_false (fun h => hnot h.1) fun h => hnot h.1)⟩
    -- Only `Add` puts a record in the queue; the other steps are about the stream of the caller.
    have hcounts : st.taken + logger.m_oQueueStream.length
          = (if a = .Add then st.added + 1 else st.added) ∧
        logger.m_oQueueStream.length ≤ LoggerState.queueSize := by
      have hold := h.counts
      have hroom := h.room
      rcases ha with rfl | ha
      · obtain ⟨hlt, ⟨p, hqueue⟩, -⟩ := LoggerState.step_Add hlogger
        rw [hqueue, List.length_append, List.length_singleton, if_pos rfl]
        omega
      · have hne : a ≠ .Add := by
          rcases ha with rfl | ⟨log, rfl⟩ <;> exact fun heq => by cases heq
        rw [(LoggerState.step_frame ha hlogger).1, if_neg hne]
        exact ⟨hold, hroom⟩
    exact
      { thread := h.thread
        counts := hcounts.1
        room := hcounts.2
        reading := fun p hp => h.reading p (hrunner ▸ hp)
        ended := h.ended
        passed := by
          intro k hk
          rw [hhandled]
          exact h.passed k hk }
  · cases hstep

/-- A step of the thread alone keeps the invariant when `Run` ends at its test. -/
theorem Inv.setThread (h : st.Inv) {thread : CThread} (hthread : thread.Inv)
    (hended : thread.run = .returned → st.loop = .test) : ({ st with thread } : DrainState).Inv :=
  { h with thread := hthread, ended := hended }

/-- `Terminate` is harmless, except that it stores STOPPING too late for a `Run` that is about to
test the status. -/
theorem terminate_spec (h : st.Inv) (hstep : st.step .Terminate = some st') :
    st'.Inv ∧ (st'.Sound ↔ st.Sound ∧ st.Drains .Terminate) := by
  simp only [step] at hstep
  split at hstep
  · obtain ⟨thread, ht, rfl⟩ := Option.map_eq_some_iff.mp hstep
    have hinv := h.thread.terminate ht
    unfold CThread.Terminate at ht
    split at ht
    · rename_i hpc
      have hdrains : st.Drains .Terminate := fun heq => by rw [hpc] at heq; cases heq
      split at ht
      · obtain rfl := Option.some.inj ht
        exact ⟨h.setThread hinv h.ended, by
          rw [and_iff_left hdrains]; exact sound_congr rfl rfl Iff.rfl⟩
      · obtain rfl := Option.some.inj ht
        exact ⟨h.setThread hinv h.ended, by
          rw [and_iff_left hdrains]; exact sound_congr rfl rfl Iff.rfl⟩
    · rename_i hpc
      obtain rfl := Option.some.inj ht
      refine ⟨h.setThread hinv h.ended, ?_⟩
      -- So far the status was WORKING, and now it is STOPPING.
      obtain ⟨hrun, hstatus⟩ := h.thread.storing hpc
      have hnot : ¬ st.Late := by
        rintro (hr | ⟨-, hs, -⟩)
        · rw [hrun] at hr
          cases hr
        · rw [hstatus] at hs
          cases hs
      constructor
      · rintro ⟨hpassed, hleft⟩
        exact ⟨⟨hpassed, fun hlate => absurd hlate hnot⟩,
          fun _ htest => hleft (.inr ⟨hrun, rfl, htest⟩)⟩
      · rintro ⟨⟨hpassed, -⟩, hdrains⟩
        refine ⟨hpassed, fun hlate => hdrains hpc ?_⟩
        rcases hlate with hr | ⟨-, -, htest⟩
        · exact absurd (hrun.symm.trans hr) (by decide)
        · exact htest
    · rename_i hpc
      have hdrains : st.Drains .Terminate := fun heq => by rw [hpc] at heq; cases heq
      split at ht
      · obtain rfl := Option.some.inj ht
        exact ⟨h.setThread hinv h.ended, by
          rw [and_iff_left hdrains]; exact sound_congr rfl rfl Iff.rfl⟩
      · obtain rfl := Option.some.inj ht
        exact ⟨h, (and_iff_left hdrains).symm⟩
    · cases ht
  · cases hstep

/-- While `Run` is not at the test of the status it is not about to return. -/
theorem not_late_of_loop (hrun : st.thread.run = .running) (hloop : st.loop ≠ .test) :
    ¬ st.Late := by
  rintro (hr | ⟨-, -, htest⟩)
  · rw [hrun] at hr
    cases hr
  · exact hloop htest

/-- `Run` begins. -/
theorem begin_spec (h : st.Inv) (hrun : st.thread.run = .created) {thread : CThread}
    (hbegin : st.thread.begin = some thread) :
    ({ st with thread, loop := .read } : DrainState).Inv ∧
      (({ st with thread, loop := .read } : DrainState).Sound ↔ st.Sound) := by
  have hrun' : thread.run = .running := by
    unfold CThread.begin at hbegin
    rw [hrun] at hbegin
    obtain rfl := Option.some.inj hbegin
    rfl
  refine ⟨?_, sound_congr rfl rfl (iff_of_false ?_ ?_)⟩
  · exact
      { h with
        thread := h.thread.begin hbegin
        reading := fun p hp => ⟨(h.reading p hp).1, rfl⟩
        ended := fun hr => by rw [hrun'] at hr; cases hr }
  · exact fun hand => @not_late_of_loop { st with thread, loop := .read } hrun'
      (fun heq => by cases heq) hand.1
  · rintro ⟨hr | ⟨hr, -⟩, -⟩
    · rw [hrun] at hr
      cases hr
    · rw [hrun] at hr
      cases hr

/-- `Read` takes a message, which `Run` has not finished with, or none. -/
theorem read_spec (h : st.Inv) (hrun : st.thread.run = .running) (hloop : st.loop = .read)
    (hidle : st.logger.runner = .idle) (hstep : st.read = some st') :
    st'.Inv ∧ (st'.Sound ↔ st.Sound) := by
  have hnot : ¬ st.Late := not_late_of_loop hrun (by rw [hloop]; decide)
  unfold read at hstep
  split at hstep
  · -- Nothing to read: only the place of the loop changes.
    rename_i hempty
    obtain rfl := Option.some.inj hstep
    refine ⟨?_, sound_congr rfl rfl (iff_of_false ?_ fun hand => hnot hand.1)⟩
    · exact
        { h with
          reading := fun p hp => by
            have hp : st.logger.runner = .read p := hp
            rw [hidle] at hp
            cases hp
          ended := fun hr => absurd (hrun.symm.trans hr) (by decide) }
    · exact fun hand => hand.2 hempty
  · obtain ⟨logger, hlogger, rfl⟩ := Option.map_eq_some_iff.mp hstep
    obtain ⟨p, hqueue, -, hrunner⟩ := LoggerState.step_Read hlogger
    -- The message is taken and in hand, so the number handled is the same.
    have hhandled : handled { st with logger, taken := st.taken + 1 } = st.handled := by
      unfold handled
      rw [hrunner, hidle]
      rfl
    refine ⟨?_, sound_congr hhandled rfl (iff_of_false ?_ fun hand => hnot hand.1)⟩
    · have hcounts := h.counts
      have hroom := h.room
      rw [hqueue, List.length_cons] at hcounts hroom
      exact
        { thread := h.thread
          counts := by
            show st.taken + 1 + logger.m_oQueueStream.length = st.added
            omega
          room := Nat.le_of_succ_le hroom
          reading := fun _ _ => ⟨Nat.le_add_left 1 st.taken, hloop⟩
          ended := h.ended
          passed := by
            intro k hk
            rw [hhandled]
            exact h.passed k hk }
    · exact fun hand => @not_late_of_loop { st with logger, taken := st.taken + 1 } hrun
        (by show st.loop ≠ .test; rw [hloop]; decide) hand.1

/-- The record that `Run` has read is passed to `FILEWrite` exactly when it is kept. -/
theorem file_spec (h : st.Inv) (hrun : st.thread.run = .running) (hloop : st.loop = .read)
    {lTick : Int} {r : FileResults} (hstep : st.file lTick r = some st') :
    st'.Inv ∧ (st'.Sound ↔ st.Sound ∧ st.Drains (.file lTick r)) := by
  have hnot : ∀ {s : DrainState}, s.thread = st.thread → s.loop = st.loop → ¬ s.Late :=
    fun hthread hl => not_late_of_loop (hthread ▸ hrun) (by rw [hl, hloop]; decide)
  unfold file at hstep
  obtain ⟨logger, hlogger, rfl⟩ := Option.map_eq_some_iff.mp hstep
  obtain ⟨⟨p, hreading, hrunner⟩, hqueue, hkept⟩ := LoggerState.step_file hlogger
  have hpos := (h.reading p hreading).1
  -- The message in hand counts as handled once `Run` has gone through its calls.
  have hhandled : st.handled = st.taken - 1 := by
    unfold handled
    rw [hreading]
  have hhandled' : ∀ passed, handled { st with logger, passed } = st.taken := by
    intro passed
    unfold handled
    rw [hrunner]
  have hpassed := h.passed
  rw [hhandled] at hpassed
  have hinv : ∀ passed, (∀ k ∈ passed, k < st.taken) →
      ({ st with logger, passed } : DrainState).Inv := by
    intro passed hall
    exact
      { thread := h.thread
        counts := by
          show st.taken + logger.m_oQueueStream.length = st.added
          rw [hqueue]
          exact h.counts
        room := by
          show logger.m_oQueueStream.length ≤ _
          rw [hqueue]
          exact h.room
        reading := fun q hq => by
          have hq : logger.runner = .read q := hq
          rw [hrunner] at hq
          cases hq
        ended := h.ended
        passed := by rwa [hhandled'] }
  have hdrains : st.Drains (.file lTick r) ↔
      (logger.calls.drop st.logger.calls.length).any FileCall.isWrite = true := hkept.symm
  rw [hdrains]
  split
  · rename_i hwrite
    -- It was written: the number `taken - 1` joins the passed ones.
    rw [and_iff_left hwrite]
    refine ⟨hinv _ fun k hk => ?_, ?_⟩
    · rcases List.mem_append.mp hk with hk | hk
      · have := hpassed k hk
        omega
      · rw [List.mem_singleton.mp hk]
        omega
    · unfold Sound
      rw [hhandled', hhandled]
      refine and_congr ⟨fun hall k hk => ?_, fun hall k hk => ?_⟩
        (iff_of_true (fun hlate => absurd hlate (hnot rfl rfl))
          fun hlate => absurd hlate (hnot rfl rfl))
      · rcases List.mem_append.mp (hall k (by omega)) with hin | hin
        · exact hin
        · have := List.mem_singleton.mp hin
          omega
      · -- Each handled message was passed before, or is the one of this step.
        rcases Nat.lt_or_ge k (st.taken - 1) with hlt | hge
        · exact List.mem_append_left _ (hall k hlt)
        · have hk : k < st.taken := hk
          exact List.mem_append_right _ (List.mem_singleton.mpr (by omega))
  · rename_i hwrite
    refine ⟨hinv _ fun k hk => ?_, iff_of_false (fun hsound => ?_) fun hand => hwrite hand.2⟩
    · have := hpassed k hk
      omega
    · -- The message that `Run` has finished with now was not passed.
      have hin := hsound.1 (st.taken - 1) (by rw [hhandled']; omega)
      have := hpassed _ hin
      omega

/-- The stream goes back to the pool, and `Run` is done with its message all the same. -/
theorem recover_spec (h : st.Inv) {logger : LoggerState}
    (hlogger : st.logger.step .Recover = some logger) :
    ({ st with logger } : DrainState).Inv ∧
      (({ st with logger } : DrainState).Sound ↔ st.Sound) := by
  obtain ⟨⟨p, hrunner⟩, hidle, hqueue⟩ := LoggerState.step_Recover hlogger
  have hhandled : handled { st with logger } = st.handled := by
    unfold handled
    rw [hidle, hrunner]
  have hleft : ({ st with logger } : DrainState).Late ∧ logger.m_oQueueStream ≠ [] ↔
      st.Late ∧ st.logger.m_oQueueStream ≠ [] := by
    rw [hqueue]
    exact Iff.rfl
  refine ⟨?_, sound_congr hhandled rfl hleft⟩
  exact
    { thread := h.thread
      counts := by
        show st.taken + logger.m_oQueueStream.length = st.added
        rw [hqueue]
        exact h.counts
      room := by
        show logger.m_oQueueStream.length ≤ _
        rw [hqueue]
        exact h.room
      reading := fun q hq => by
        have hq : logger.runner = .read q := hq
        rw [hidle] at hq
        cases hq
      ended := h.ended
      passed := by
        intro k hk
        rw [hhandled]
        exact h.passed k hk }

/-- A `Run` that reads nothing goes to another place of its loop. -/
theorem Inv.setLoop (h : st.Inv) (hrun : st.thread.run = .running) (hloop : st.loop ≠ .read)
    (loop : DrainPc) : ({ st with loop } : DrainState).Inv :=
  { h with
    reading := fun p hp => absurd (h.reading p hp).2 hloop
    ended := fun hr => absurd (hrun.symm.trans hr) (by decide) }

/-- `IsEmpty` leads to the test of the status just when nothing is in the queue. -/
theorem isEmpty_spec (h : st.Inv) (hrun : st.thread.run = .running) (hloop : st.loop = .isEmpty)
    (hstep : (if st.IsEmpty then some { st with loop := .test }
      else some { st with loop := .read }) = some st') : st'.Inv ∧ (st'.Sound ↔ st.Sound) := by
  have hnot : ¬ st.Late := not_late_of_loop hrun (by rw [hloop]; decide)
  have hread : st.loop ≠ .read := by rw [hloop]; decide
  split at hstep
  · rename_i hempty
    obtain rfl := Option.some.inj hstep
    refine ⟨h.setLoop hrun hread .test,
      sound_congr rfl rfl (iff_of_false ?_ fun hand => hnot hand.1)⟩
    exact fun hand => hand.2 (h.isEmpty_iff.mp hempty)
  · obtain rfl := Option.some.inj hstep
    refine ⟨h.setLoop hrun hread .read,
      sound_congr rfl rfl (iff_of_false ?_ fun hand => hnot hand.1)⟩
    exact fun hand => @not_late_of_loop { st with loop := .read } hrun
      (fun heq => by cases heq) hand.1

/-- The test of the status ends the `Run` that sees STOPPING. -/
theorem test_spec (h : st.Inv) (hrun : st.thread.run = .running) (hloop : st.loop = .test)
    (hstep : (if st.thread.m_nStatus = .THREAD_STOPPING then
        some { st with thread := st.thread.finish }
      else some { st with loop := .read }) = some st') : st'.Inv ∧ (st'.Sound ↔ st.Sound) := by
  have hread : st.loop ≠ .read := by rw [hloop]; decide
  split at hstep
  · rename_i hstopping
    obtain rfl := Option.some.inj hstep
    have hlate : st.Late := .inr ⟨hrun, hstopping, hloop⟩
    refine ⟨h.setThread (h.thread.finish hrun hstopping) fun _ => hloop,
      sound_congr rfl rfl (and_congr_left' (iff_of_true (.inl rfl) hlate))⟩
  · rename_i hworking
    obtain rfl := Option.some.inj hstep
    refine ⟨h.setLoop hrun hread .read,
      sound_congr rfl rfl (iff_of_false ?_ ?_)⟩
    · exact fun hand => @not_late_of_loop { st with loop := .read } hrun
        (fun heq => by cases heq) hand.1
    · rintro ⟨hr | ⟨-, hstatus, -⟩, -⟩
      · rw [hrun] at hr
        cases hr
      · exact hworking hstatus

/-- A step of `Run` loses a message just when it drops a record. -/
theorem run_spec (h : st.Inv) {a : DrainAction} (ha : a ≠ .Terminate)
    (hstep : st.runStep a = some st') : st'.Inv ∧ (st'.Sound ↔ st.Sound ∧ st.Drains a) := by
  unfold runStep at hstep
  split at hstep
  · rename_i hrun
    obtain ⟨thread, hthread, rfl⟩ := Option.map_eq_some_iff.mp hstep
    rw [and_iff_left (show st.Drains .begin from trivial)]
    exact begin_spec h hrun hthread
  · rename_i hrun hloop
    split at hstep
    · rename_i hidle
      rw [and_iff_left (show st.Drains .Read from trivial)]
      exact read_spec h hrun hloop hidle hstep
    · cases hstep
  · rename_i hrun hloop
    exact file_spec h hrun hloop hstep
  · obtain ⟨logger, hlogger, rfl⟩ := Option.map_eq_some_iff.mp hstep
    rw [and_iff_left (show st.Drains .Recover from trivial)]
    exact recover_spec h hlogger
  · rename_i hrun hloop
    rw [and_iff_left (show st.Drains .IsEmpty from trivial)]
    exact isEmpty_spec h hrun hloop hstep
  · rename_i hrun hloop
    rw [and_iff_left (show st.Drains .test from trivial)]
    exact test_spec h hrun hloop hstep
  · cases hstep

/-- `Start` creates the thread, which is not inside of `Run`. -/
theorem start_spec (h : st.Inv) {thread : CThread} (hstart : st.thread.Start = some thread) :
    ({ st with thread } : DrainState).Inv ∧
      (({ st with thread } : DrainState).Sound ↔ st.Sound) := by
  have hinv := h.thread.start hstart
  unfold CThread.Start at hstart
  split at hstart
  · rename_i hrun
    obtain rfl := Option.some.inj hstart
    refine ⟨h.setThread hinv (fun hr => by cases hr),
      sound_congr rfl rfl (iff_of_false ?_ ?_)⟩
    · rintro ⟨hr | ⟨hr, -⟩, -⟩ <;> cases hr
    · rintro ⟨hr | ⟨hr, -⟩, -⟩
      · rw [hrun] at hr
        cases hr
      · rw [hrun] at hr
        cases hr
  · cases hstart

/-- Every step keeps the invariant. It keeps what is sound so just when it meets the condition,
and what is not sound stays so. -/
theorem step_spec (h : st.Inv) {a : DrainAction} (hstep : st.step a = some st') :
    st'.Inv ∧ (st'.Sound ↔ st.Sound ∧ st.Drains a) := by
  cases a with
  | Start =>
      obtain ⟨thread, hthread, rfl⟩ := Option.map_eq_some_iff.mp hstep
      rw [and_iff_left (show st.Drains .Start from trivial)]
      exact start_spec h hthread
  | Log log =>
      rw [and_iff_left (show st.Drains (.Log log) from trivial)]
      exact log_spec h (.inr (.inr ⟨log, rfl⟩)) hstep
  | fill =>
      rw [and_iff_left (show st.Drains .fill from trivial)]
      exact log_spec h (.inr (.inl rfl)) hstep
  | Add =>
      rw [and_iff_left (show st.Drains .Add from trivial)]
      exact log_spec h (.inl rfl) hstep
  | Terminate => exact terminate_spec h hstep
  | begin => exact run_spec h (fun heq => by cases heq) hstep
  | Read => exact run_spec h (fun heq => by cases heq) hstep
  | file lTick r => exact run_spec h (fun heq => by cases heq) hstep
  | Recover => exact run_spec h (fun heq => by cases heq) hstep
  | IsEmpty => exact run_spec h (fun heq => by cases heq) hstep
  | test => exact run_spec h (fun heq => by cases heq) hstep

/-! ### Runs -/

/-- Nothing is lost at the beginning. -/
theorem init_sound : init.Sound :=
  ⟨fun k hk => absurd hk (Nat.not_lt_zero k), fun _ => rfl⟩

/-- When `Run` has returned, it has passed every message to `FILEWrite` just when nothing was
lost: what is in the queue is not passed. -/
theorem Inv.passed_iff (h : st.Inv) (hreturned : st.thread.run = .returned) :
    (∀ k, k < st.added → k ∈ st.passed) ↔ st.Sound := by
  have hhandled : st.handled = st.taken := by
    unfold handled
    split
    · rename_i p hp
      have hread := (h.reading p hp).2
      rw [h.ended hreturned] at hread
      cases hread
    · rfl
  have hcounts := h.counts
  unfold Sound
  rw [hhandled]
  constructor
  · intro hall
    refine ⟨fun k hk => hall k (by omega), fun _ => ?_⟩
    by_contra hqueue
    have hpos := List.length_pos_iff.mpr hqueue
    have htaken := h.passed st.taken (hall st.taken (by omega))
    omega
  · rintro ⟨hall, hleft⟩ k hk
    have hqueue := hleft (.inl hreturned)
    rw [hqueue, List.length_nil] at hcounts
    exact hall k (by omega)

/-- `Logger` drains before it stops: when `Run` has returned, every message whose `Log` was
complete in front of `Terminate` was passed to `FILEWrite`, exactly in the runs in which
`Terminate` never stores STOPPING behind an `IsEmpty` that a message has overtaken, and no record
is dropped by a change of the file. -/
theorem drained_iff {st : DrainState} {as : List DrainAction}
    (hrun : run step init as = some st) (hreturned : st.thread.run = .returned) :
    (∀ k, k < st.added → k ∈ st.passed) ↔ AllSteps step Drains init as := by
  obtain ⟨hinv, hsound⟩ :=
    run_iff (I := Inv) (P := Sound) (fun _ _ _ h => step_spec h) init_inv hrun
  rw [hinv.passed_iff hreturned, hsound]
  exact and_iff_right init_sound

/-- The results of file operations that succeed. -/
def opens : FileResults where
  opened := true
  openTick := 0
  closed := true
  reopened := true
  reopenTick := 0
  nCount := 1

/-- A message comes when `Run` is behind `IsEmpty`, and `Terminate` when it has looked at the
status again. -/
def inTimeRun : List DrainAction :=
  [.Start, .begin, .Read, .IsEmpty, .Log (some [97]), .fill, .Add, .test, .Terminate, .Terminate,
    .Read, .file 0 opens, .Recover, .Read, .IsEmpty, .test]

/-- That run passes its message. -/
theorem drained_inTime :
    ∃ st, run step init inTimeRun = some st ∧ st.added = 1 ∧ ∀ k, k < st.added → k ∈ st.passed := by
  obtain ⟨st, hst, hreturned, hadded⟩ : ∃ st, run step init inTimeRun = some st ∧
      st.thread.run = .returned ∧ st.added = 1 := ⟨_, rfl, rfl, rfl⟩
  exact ⟨st, hst, hadded, (drained_iff hst hreturned).mpr (by decide)⟩

/-- A message comes when `Run` is behind `IsEmpty`, and so does `Terminate`. -/
def overtakenRun : List DrainAction :=
  [.Start, .begin, .Read, .IsEmpty, .Log (some [97]), .fill, .Add, .Terminate, .Terminate, .test]

/-- `Run` sees STOPPING and returns, and the message stays in the queue. -/
theorem lost_message :
    ∃ st, run step init overtakenRun = some st ∧ st.thread.run = .returned ∧
      ¬ ∀ k, k < st.added → k ∈ st.passed :=
  ⟨_, rfl, rfl, by decide⟩

end DrainState

end Kernel4GameServer
