import Kernel4GameServer.Logger.Logger
import Kernel4GameServer.Proofs.Public.TPool
import Kernel4GameServer.Proofs.Public.TStream

/-!
# `Kernel4GameServer.Proofs.Logger.LogIntegrity`: what reaches the log files

`Run` gives a stream back to the pool with its bytes still unread, and `Log` appends to what
it finds in the stream it gets. A stream that comes out of the pool a second time puts its
old message in front of the new one. This does not happen before the 257th call of `Log`,
because the pool starts with 256 streams and gives back the oldest one first.

* `record_written`: where the file operations succeed, a record reaches the files.
* `Inv.step`: a stream is with one of the two threads, or in the queue, or free.
* `step_output`: one step adds the record of its message to those written and still to be
  written, with what the stream already held in front of the message.
* `log_integrity_iff`: the bytes are those of the messages exactly where every stream that
  `Log` got was empty.
-/

set_option autoImplicit false

namespace Kernel4GameServer

open Lib

/-- The records of two lists of calls. -/
theorem written_append (cs ds : List FileCall) : written (cs ++ ds) = written cs ++ written ds :=
  List.filterMap_append

/-- A write to an open file, or to the next one, arrives where the operations succeed. -/
theorem FileInfo.rotateWrite_written {f : FileInfo} (hfile : f.file = true)
    (context : List UInt8) (lTick : Int) {r : FileResults} (hclosed : r.closed = true)
    (hreopened : r.reopened = true) (hcount : r.nCount = context.length) :
    written (f.rotateWrite context lTick r).2 = [context] := by
  have htake : context.take r.nCount = context := by rw [hcount, List.take_length]
  simp only [rotateWrite, FILEClose, FILEOpen, FILEWrite, hfile, hclosed, hreopened]
  split <;> simp [written, htake]

/-- A record whose file operations succeed is written as it is. -/
theorem FileInfo.record_written (f : FileInfo) (context : List UInt8) (lTick : Int)
    {r : FileResults} (hopened : r.opened = true) (hclosed : r.closed = true)
    (hreopened : r.reopened = true) (hcount : r.nCount = context.length) :
    written (f.record context lTick r).2 = [context] := by
  have hfirst : (f.openFirst r).1.file = true ∧ written (f.openFirst r).2 = [] := by
    unfold openFirst
    split
    · rename_i hfile
      exact ⟨hfile, rfl⟩
    · rename_i hfile
      -- The first record opens the file.
      simp [FILEOpen, hfile, hopened, written]
  show written ((f.openFirst r).2 ++ _) = [context]
  rw [written_append, hfirst.2, List.nil_append]
  exact rotateWrite_written hfirst.1 context lTick hclosed hreopened hcount

/-- The stream that `Log` is filling or about to queue. -/
def LogCaller.held : LogCaller → List Nat
  | .idle => []
  | .created p _ => [p]
  | .filled p => [p]

/-- The stream that `Run` has taken from the queue. -/
def LogRunner.held : LogRunner → List Nat
  | .idle => []
  | .read p => [p]
  | .handled p => [p]

namespace LoggerState

/-- The streams that are not free: with `Run`, in the queue, with `Log`. -/
def held (st : LoggerState) : List Nat := st.runner.held ++ st.m_oQueueStream ++ st.caller.held

/-- A stream that is not free has one place. -/
structure Inv (st : LoggerState) : Prop where
  pool : st.m_oPoolStream.Inv
  wf : ∀ p, (st.stream p).WellFormed
  nodup : st.held.Nodup
  used : ∀ p ∈ st.held, st.m_oPoolStream.inUse p = true

/-- The new logger satisfies the invariant. -/
theorem inv_init : init.Inv where
  pool := TPool.init_inv _ _
  wf p := by
    show (TPool.unit (.init .init 256) p : LOGStream).WellFormed
    simp only [TPool.init, TPool.AllocNewBlob]
    split <;> exact TStream.init_wf
  nodup := List.nodup_nil
  used p hp := by cases hp

/-! ### The steps -/

/-- `Log` gets a stream that no thread has. -/
theorem Inv.create {st : LoggerState} (h : st.Inv) (hcaller : st.caller = .idle)
    (log : List UInt8) {c : Nat × TPool LOGStream} (hc : st.Create = some c) :
    ({ st with m_oPoolStream := c.2, caller := .created c.1 log } : LoggerState).Inv := by
  obtain ⟨p, pool⟩ := c
  obtain ⟨hpool, hfree, hin, -⟩ := TPool.Create_spec h.pool hc
  have hheld : st.held = st.runner.held ++ st.m_oQueueStream := by
    simp [held, hcaller, LogCaller.held]
  exact
    { pool := hpool
      wf := fun q => by
        show (pool.unit q).WellFormed
        rcases TPool.Create_unit hc q with hold | hnew
        · rw [hold]
          exact h.wf q
        · rw [hnew]
          exact TStream.init_wf
      nodup := by
        show (st.runner.held ++ st.m_oQueueStream ++ [p]).Nodup
        rw [← hheld]
        refine List.nodup_append.mpr ⟨h.nodup, by simp, ?_⟩
        intro q hq r hr hqr
        rw [List.mem_singleton] at hr
        have hused := h.used q hq
        rw [hqr, hr, hfree] at hused
        cases hused
      used := fun q hq => by
        have hq' : q ∈ st.held ++ [p] := by
          rw [hheld]
          exact hq
        rcases List.mem_append.mp hq' with hq' | hq'
        · exact (hin q).mpr (.inr (h.used q hq'))
        · exact (hin q).mpr (.inl (List.mem_singleton.mp hq')) }

/-- The copy of the message keeps the streams well formed. -/
theorem Inv.fill {st : LoggerState} (h : st.Inv) {p : Nat} {log : List UInt8}
    (hcaller : st.caller = .created p log) :
    ({ st with
        m_oPoolStream :=
          st.m_oPoolStream.set p ((st.stream p).inBytes (Mem.ofList log 0) log.length)
        caller := .filled p } : LoggerState).Inv := by
  have hheld : st.held = st.runner.held ++ st.m_oQueueStream ++ [p] := by
    simp [held, hcaller, LogCaller.held]
  exact
    { pool := TPool.set_inv h.pool _ _
      wf := fun q => by
        show (TPool.unit (st.m_oPoolStream.set p _) q).WellFormed
        by_cases hq : q = p
        · subst hq
          rw [TPool.set_unit_self]
          exact TStream.inBytes_wf (by decide) (h.wf q) _ (Int.natCast_nonneg _)
        · rw [TPool.set_unit_other _ _ hq]
          exact h.wf q
      nodup := by
        show (st.runner.held ++ st.m_oQueueStream ++ [p]).Nodup
        rw [← hheld]
        exact h.nodup
      used := fun q hq => h.used q (by
        rw [hheld]
        exact hq) }

/-- `Recover` takes a stream back that no thread has any more. -/
theorem Inv.recover {st : LoggerState} (h : st.Inv) {p : Nat} (hrunner : st.runner = .handled p) :
    ({ st with m_oPoolStream := st.m_oPoolStream.Recover p, runner := .idle } :
      LoggerState).Inv := by
  have hheld : st.held = p :: (st.m_oQueueStream ++ st.caller.held) := by
    simp [held, hrunner, LogRunner.held]
  have hnodup := h.nodup
  rw [hheld, List.nodup_cons] at hnodup
  obtain ⟨hpool, hunit, hin⟩ := TPool.Recover_spec h.pool (h.used p (by
    rw [hheld]
    exact List.mem_cons_self))
  exact
    { pool := hpool
      wf := fun q => by
        show (TPool.unit (st.m_oPoolStream.Recover p) q).WellFormed
        rw [hunit]
        exact h.wf q
      nodup := hnodup.2
      used := fun q hq => by
        have hq' : q ∈ st.m_oQueueStream ++ st.caller.held := hq
        have hne : q ≠ p := by
          rintro rfl
          exact hnodup.1 hq'
        show (st.m_oPoolStream.Recover p).inUse q = true
        rw [hin]
        show (if q = p then false else _) = true
        rw [if_neg hne]
        exact h.used q (by
          rw [hheld]
          exact List.mem_cons_of_mem _ hq') }

/-- Every step keeps the invariant. -/
theorem Inv.step {st st' : LoggerState} (h : st.Inv) {a : LogAction}
    (hstep : st.step a = some st') : st'.Inv := by
  cases a with
  | Log log =>
      simp only [LoggerState.step] at hstep
      split at hstep
      · cases hstep
        exact h
      · rename_i log hcaller
        obtain ⟨c, hc, rfl⟩ := Option.map_eq_some_iff.mp hstep
        exact h.create hcaller log hc
      · cases hstep
  | fill =>
      simp only [LoggerState.step] at hstep
      split at hstep
      · rename_i p log hcaller
        cases hstep
        exact h.fill hcaller
      · cases hstep
  | Add =>
      simp only [LoggerState.step] at hstep
      split at hstep
      · rename_i p hcaller
        split at hstep
        · cases hstep
          -- The stream moves from the caller to the queue, and the held streams are the same.
          have hheld : st.held = st.runner.held ++ (st.m_oQueueStream ++ [p]) ++ [] := by
            simp [held, hcaller, LogCaller.held]
          have hnodup := h.nodup
          have hused := h.used
          rw [hheld] at hnodup hused
          exact ⟨h.pool, h.wf, hnodup, hused⟩
        · cases hstep
      · cases hstep
  | Read =>
      simp only [LoggerState.step] at hstep
      split at hstep
      · rename_i p queue hrunner hqueue
        cases hstep
        -- It moves from the queue to `Run`.
        have hheld : st.held = [p] ++ queue ++ st.caller.held := by
          simp [held, hrunner, hqueue, LogRunner.held]
        have hnodup := h.nodup
        have hused := h.used
        rw [hheld] at hnodup hused
        exact ⟨h.pool, h.wf, hnodup, hused⟩
      · cases hstep
  | file lTick r =>
      simp only [LoggerState.step] at hstep
      split at hstep
      · rename_i p hrunner
        cases hstep
        -- The file calls read the stream and leave it with `Run`.
        have hheld : st.held = [p] ++ st.m_oQueueStream ++ st.caller.held := by
          simp [held, hrunner, LogRunner.held]
        have hnodup := h.nodup
        have hused := h.used
        rw [hheld] at hnodup hused
        exact ⟨h.pool, h.wf, hnodup, hused⟩
      · cases hstep
  | Recover =>
      simp only [LoggerState.step] at hstep
      split at hstep
      · rename_i p hrunner
        cases hstep
        exact h.recover hrunner
      · cases hstep

/-! ### The records on their way -/

/-- The record that `Log` makes. -/
def callerRecord (pool : TPool LOGStream) : LogCaller → List (List UInt8)
  | .idle => []
  | .created p log => [(pool.unit p).unread ++ log]
  | .filled p => [(pool.unit p).unread]

/-- The record that `Run` is about to write. -/
def runnerRecord (pool : TPool LOGStream) : LogRunner → List (List UInt8)
  | .read p => [(pool.unit p).unread]
  | _ => []

/-- The records that are still to be written: the one that `Run` has taken, those of the
queue and the one that `Log` makes. -/
def pending (st : LoggerState) : List (List UInt8) :=
  runnerRecord st.m_oPoolStream st.runner
    ++ st.m_oQueueStream.map (fun p => (st.stream p).unread)
    ++ callerRecord st.m_oPoolStream st.caller

/-- The records in the files and those that are still to be written. -/
def output (st : LoggerState) : List (List UInt8) := written st.calls ++ st.pending

/-- What the stream that a `Log` gets already holds. -/
def leftover (st : LoggerState) : LogAction → List UInt8
  | .Log (some _) =>
      match st.Create with
      | some c => (c.2.unit c.1).unread
      | none => []
  | _ => []

/-- The condition on a step: the stream that `Log` gets from the pool is empty. -/
def Fresh (st : LoggerState) (a : LogAction) : Prop := st.leftover a = []

instance (st : LoggerState) (a : LogAction) : Decidable (st.Fresh a) :=
  inferInstanceAs (Decidable (_ = []))

/-- Streams that are not changed have the same records. -/
theorem pending_congr (pool pool' : TPool LOGStream) (runner : LogRunner) (queue : List Nat)
    (hsame : ∀ p ∈ runner.held ++ queue, pool'.unit p = pool.unit p) :
    runnerRecord pool' runner ++ queue.map (fun p => (pool'.unit p).unread)
      = runnerRecord pool runner ++ queue.map fun p => (pool.unit p).unread := by
  congr 1
  · cases runner with
    | read p =>
        simp only [runnerRecord]
        rw [hsame p (by simp [LogRunner.held])]
    | idle => rfl
    | handled p => rfl
  · refine List.map_congr_left fun p hp => ?_
    rw [hsame p (List.mem_append_right _ hp)]

/-- One step adds the record of the message that it begins, with what the stream holds in
front of the message. -/
theorem step_output {st st' : LoggerState} (h : st.Inv) {a : LogAction}
    (hok : st.Succeeds a = true) (hstep : st.step a = some st') :
    st'.output = st.output ++ (messages [a]).map (st.leftover a ++ ·) := by
  cases a with
  | Log log =>
      simp only [LoggerState.step] at hstep
      split at hstep
      · cases hstep
        simp [messages]
      · rename_i log hcaller
        obtain ⟨c, hc, rfl⟩ := Option.map_eq_some_iff.mp hstep
        obtain ⟨p, pool⟩ := c
        have hkeep := (TPool.Create_spec h.pool hc).2.2.2
        have hsame := pending_congr st.m_oPoolStream pool st.runner st.m_oQueueStream fun q hq =>
          hkeep q (h.used q (List.mem_append_left _ hq))
        simp only [output, pending, stream, hsame, hcaller, callerRecord, leftover, hc, messages]
        simp
      · cases hstep
  | fill =>
      simp only [LoggerState.step] at hstep
      split at hstep
      · rename_i p log hcaller
        cases hstep
        have hnodup := h.nodup
        have hheld : st.held = st.runner.held ++ st.m_oQueueStream ++ [p] := by
          simp [held, hcaller, LogCaller.held]
        rw [hheld] at hnodup
        -- Neither `Run` nor the queue has the stream that is filled.
        have hsame := pending_congr st.m_oPoolStream
          (st.m_oPoolStream.set p ((st.stream p).inBytes (Mem.ofList log 0) log.length))
          st.runner st.m_oQueueStream fun q hq =>
            TPool.set_unit_other _ _ ((List.nodup_append.mp hnodup).2.2 q hq p (by simp))
        have hbytes := TStream.inBytes_unread (by decide) (h.wf p) (Mem.ofList log 0)
          (Int.natCast_nonneg log.length)
        rw [Int.toNat_natCast, Mem.slice_ofList] at hbytes
        simp only [output, pending, stream, hcaller, callerRecord, messages] at hsame hbytes ⊢
        simp only [hsame, TPool.set_unit_self, hbytes]
        simp
      · cases hstep
  | Add =>
      simp only [LoggerState.step] at hstep
      split at hstep
      · rename_i p hcaller
        split at hstep
        · cases hstep
          simp [output, pending, hcaller, callerRecord, messages, stream]
        · cases hstep
      · cases hstep
  | Read =>
      simp only [LoggerState.step] at hstep
      split at hstep
      · rename_i p queue hrunner hqueue
        cases hstep
        simp [output, pending, hrunner, hqueue, runnerRecord, messages, stream]
      · cases hstep
  | file lTick r =>
      simp only [LoggerState.step] at hstep
      split at hstep
      · rename_i p hrunner
        cases hstep
        simp only [Succeeds, hrunner, Bool.and_eq_true, decide_eq_true_eq] at hok
        obtain ⟨⟨⟨hopened, hclosed⟩, hreopened⟩, hcount⟩ := hok
        have hwritten := FileInfo.record_written st.m_oFileInfo
          (Mem.slice (st.stream p).buff 0 (st.stream p).size.toNat) lTick hopened hclosed
          hreopened (by rw [hcount, Mem.length_slice])
        rw [TStream.slice_buff_size] at hwritten
        simp only [output, pending, written_append, hrunner, runnerRecord, messages,
          TStream.slice_buff_size, hwritten]
        simp [stream]
      · cases hstep
  | Recover =>
      simp only [LoggerState.step] at hstep
      split at hstep
      · rename_i p hrunner
        cases hstep
        have hused := h.used p (by simp [held, hrunner, LogRunner.held])
        have hunit := (TPool.Recover_spec h.pool hused).2.1
        simp only [output, pending, hrunner, runnerRecord, messages, stream, hunit]
        -- `Recover` changes no stream.
        cases st.caller <;> simp [callerRecord]
      · cases hstep

/-! ### Runs -/

/-- The messages of a run with one more step. -/
theorem messages_snoc (as : List LogAction) (a : LogAction) :
    messages (as ++ [a]) = messages as ++ messages [a] :=
  List.filterMap_append

/-- The number of bytes of a list of records. -/
theorem length_flatten_append (rs qs : List (List UInt8)) :
    (rs ++ qs).flatten.length = rs.flatten.length + qs.flatten.length := by
  rw [List.flatten_append, List.length_append]

/-- A run, the records it makes and the condition on its steps: the records are the messages
where every `Log` got an empty stream, and longer otherwise. -/
structure Outcome (as : List LogAction) (fresh : Prop) (st : LoggerState) : Prop where
  inv : st.Inv
  exact_of_fresh : fresh → st.output = messages as
  longer : ¬ fresh → (messages as).flatten.length < st.output.flatten.length

/-- One more step of a run. -/
theorem Outcome.step {as : List LogAction} {fresh : Prop} {st st' : LoggerState} {a : LogAction}
    (h : Outcome as fresh st) (hok : st.Succeeds a = true) (hstep : st.step a = some st') :
    Outcome (as ++ [a]) (fresh ∧ st.Fresh a) st' := by
  have hout := step_output h.inv hok hstep
  -- What is left in the streams only adds bytes to the messages.
  have hlen : (messages [a]).flatten.length
      ≤ ((messages [a]).map (st.leftover a ++ ·)).flatten.length := by
    cases hm : messages [a] with
    | nil => simp
    | cons m ms =>
        have hnil : ms = [] := by
          have : (messages [a]).length ≤ 1 := List.length_filterMap_le _ _
          rw [hm] at this
          exact List.length_eq_zero_iff.mp (by simpa using this)
        subst hnil
        simp
  refine ⟨h.inv.step hstep, ?_, ?_⟩
  · rintro ⟨hfresh, ha⟩
    rw [hout, h.exact_of_fresh hfresh, messages_snoc, show st.leftover a = [] from ha]
    simp
  · intro hnot
    rw [hout, messages_snoc, length_flatten_append, length_flatten_append]
    by_cases hfresh : fresh
    · -- The streams were empty so far, and this `Log` got one that was not.
      have ha : st.leftover a ≠ [] := fun ha => hnot ⟨hfresh, ha⟩
      have hpos := List.length_pos_iff.mpr ha
      rw [h.exact_of_fresh hfresh]
      cases a with
      | Log log =>
          cases log with
          | none => exact absurd rfl ha
          | some log => simp [messages]; omega
      | fill => exact absurd rfl ha
      | Add => exact absurd rfl ha
      | Read => exact absurd rfl ha
      | file lTick r => exact absurd rfl ha
      | Recover => exact absurd rfl ha
    · have := h.longer hfresh
      omega

/-- The outcome of every run whose file operations succeed. -/
theorem run_outcome {as : List LogAction} {st : LoggerState}
    (hok : AllSteps step (fun st a => st.Succeeds a = true) init as)
    (h : run step init as = some st) : Outcome as (AllSteps step Fresh init as) st :=
  run_induction_of (fun as st => Outcome as (AllSteps LoggerState.step Fresh init as) st)
    ⟨inv_init, fun _ => rfl, fun hnot => absurd trivial hnot⟩
    (fun as s a s' hrun ih hs hstep => by
      rw [allSteps_snoc hrun]
      exact ih.step hs hstep) hok h

/-- The bytes in the log files and those still on their way are the messages, in call order,
exactly where every `Log` got an empty stream from the pool. Each message is then one
record. Once the queue is drained the files hold exactly the messages under the same
condition. -/
theorem log_integrity_iff (as : List LogAction) (st : LoggerState)
    (hok : AllSteps step (fun st a => st.Succeeds a = true) init as)
    (h : run step init as = some st) :
    (st.output.flatten = (messages as).flatten ↔ AllSteps step Fresh init as) ∧
    (AllSteps step Fresh init as → st.output = messages as) ∧
    (st.pending = [] →
      ((written st.calls).flatten = (messages as).flatten ↔ AllSteps step Fresh init as)) := by
  have hout := run_outcome hok h
  have hiff : st.output.flatten = (messages as).flatten ↔ AllSteps step Fresh init as := by
    constructor
    · intro heq
      by_contra hnot
      have hlen := hout.longer hnot
      rw [heq] at hlen
      exact Nat.lt_irrefl _ hlen
    · intro hfresh
      rw [hout.exact_of_fresh hfresh]
  refine ⟨hiff, hout.exact_of_fresh, fun hdrained => ?_⟩
  rw [← hiff, output, hdrained, List.append_nil]

/-- A file operation with `nCount` bytes that succeeds. -/
def fine (nCount : Nat) : FileResults := ⟨true, 0, true, true, 0, nCount⟩

/-- A message that is logged, written and whose stream goes back to the pool. `nCount` is
the number of bytes written. -/
def oneLog (log : List UInt8) (nCount : Nat) : List LogAction :=
  [.Log (some log), .fill, .Add, .Read, .file 0 (fine nCount), .Recover]

/-- Two messages behind each other. -/
theorem log_integrity_two :
    ∃ st, run step init (oneLog [97] 1 ++ oneLog [98] 1) = some st ∧
      (written st.calls).flatten = [97, 98] := by
  obtain ⟨st, hst, hdrained⟩ : ∃ st, run step init (oneLog [97] 1 ++ oneLog [98] 1) = some st ∧
      st.pending = [] := ⟨_, rfl, rfl⟩
  refine ⟨st, hst, ?_⟩
  exact ((log_integrity_iff _ st (by decide) hst).2.2 hdrained).mpr (by decide)

/-! ### The 257th message -/

/-- No call of `Log` is running, and `Run` has nothing to do. -/
structure Quiet (st : LoggerState) : Prop where
  caller : st.caller = .idle
  runner : st.runner = .idle
  queue : st.m_oQueueStream = []

/-- A message that is logged and written while nothing else happens: the stream at the front
of the free list goes to its end and keeps its bytes. -/
theorem oneLog_run {st : LoggerState} (h : st.Inv) (hquiet : st.Quiet) (p : Nat)
    (rest : List Nat) (hlist : st.m_oPoolStream.m_list = p :: rest) (log : List UInt8) :
    ∃ st', run step st (oneLog log ((st.stream p).unread ++ log).length) = some st' ∧
      AllSteps step (fun st a => st.Succeeds a = true) st
        (oneLog log ((st.stream p).unread ++ log).length) ∧
      st'.Inv ∧ st'.Quiet ∧ st'.m_oPoolStream.m_list = rest ++ [p] ∧
      (st'.stream p).unread = (st.stream p).unread ++ log ∧
      (∀ q, q ≠ p → st'.stream q = st.stream q) ∧
      written st'.calls = written st.calls ++ [(st.stream p).unread ++ log] := by
  obtain ⟨hcaller, hrunner, hqueue⟩ := hquiet
  -- The front of the free list is not in use.
  have hfront := (h.pool.free p).mp (by rw [hlist]; exact List.mem_cons_self)
  generalize hs : (st.stream p).inBytes (Mem.ofList log 0) log.length = s
  generalize hrecord : (st.stream p).unread ++ log = record
  -- `in` puts the message behind the bytes that the stream still has.
  have hbytes : s.unread = record := by
    have hin := TStream.inBytes_unread (by decide) (h.wf p) (Mem.ofList log 0)
      (Int.natCast_nonneg log.length)
    rw [Int.toNat_natCast, Mem.slice_ofList] at hin
    rw [← hs, hin, hrecord]
  have hsize : s.size.toNat = record.length := by rw [← TStream.length_unread, hbytes]
  have hcontext : Mem.slice s.buff 0 s.size.toNat = record := by
    rw [TStream.slice_buff_size, hbytes]
  have hs' : (st.m_oPoolStream.unit p).inBytes (Mem.ofList log 0) log.length = s := hs
  let pool : TPool LOGStream :=
    TPool.set
      { st.m_oPoolStream with
        inUse := fun q => if q = p then true else st.m_oPoolStream.inUse q
        m_list := rest }
      p s
  let out := st.m_oFileInfo.record record 0 (fine record.length)
  have hpool : pool.Recover p = { pool with
      inUse := fun q => if q = p then false else pool.inUse q
      m_list := rest ++ [p] } :=
    if_pos ⟨hfront.1, if_pos rfl⟩
  -- `Log`, `fill`, `Add`, `Read`, the file calls and `Recover`, one after the other.
  have hrun : run step st (oneLog log record.length)
      = some { m_oPoolStream := pool.Recover p
               m_oQueueStream := []
               m_oFileInfo := out.1
               caller := .idle
               runner := .idle
               calls := st.calls ++ out.2 } := by
    simp [oneLog, step, Create, TPool.Create, TPool.takeFront, hlist, hcaller, hrunner, hqueue,
      queueSize, stream, pool, out, hs', hcontext]
  refine ⟨_, hrun, ?_, run_invariant (fun _ _ _ hi hs => Inv.step hi hs) h hrun, ⟨rfl, rfl, rfl⟩,
    ?_, ?_, ?_, ?_⟩
  · simp [oneLog, AllSteps, step, Create, TPool.Create, TPool.takeFront, hlist, hcaller, hrunner,
      hqueue, queueSize, stream, hs', hsize, Succeeds, fine]
  · show (pool.Recover p).m_list = _
    rw [hpool]
  · show ((pool.Recover p).unit p).unread = _
    rw [hpool]
    show (pool.unit p).unread = _
    rw [TPool.set_unit_self, hbytes]
  · intro q hq
    show (pool.Recover p).unit q = _
    rw [hpool]
    exact TPool.set_unit_other _ _ hq
  · show written (st.calls ++ out.2) = _
    rw [written_append]
    congr 1
    exact FileInfo.record_written _ _ _ rfl rfl rfl rfl

/-- Empty messages, one for each of the streams in front of the free list. -/
theorem emptyLogs_run (n : Nat) :
    ∀ {st : LoggerState} (front rest : List Nat), st.Inv → st.Quiet →
      st.m_oPoolStream.m_list = front ++ rest → front.length = n →
      (∀ p ∈ front, (st.stream p).unread = []) →
      ∃ st', run step st (List.replicate n (oneLog [] 0)).flatten = some st' ∧
        AllSteps step (fun st a => st.Succeeds a = true) st
          (List.replicate n (oneLog [] 0)).flatten ∧
        st'.Inv ∧ st'.Quiet ∧ st'.m_oPoolStream.m_list = rest ++ front ∧
        (∀ q, (st'.stream q).unread = (st.stream q).unread) ∧
        (written st'.calls).flatten = (written st.calls).flatten := by
  induction n with
  | zero =>
      intro st front rest h hquiet hlist hlen _
      have hnil := List.length_eq_zero_iff.mp hlen
      subst hnil
      exact ⟨st, rfl, trivial, h, hquiet, by rw [hlist]; simp, fun _ => rfl, rfl⟩
  | succ n ih =>
      intro st front rest h hquiet hlist hlen hempty
      cases front with
      | nil => cases hlen
      | cons p front =>
          have hp := hempty p List.mem_cons_self
          have hone := oneLog_run h hquiet p (front ++ rest) hlist []
          rw [hp] at hone
          obtain ⟨st₁, hrun₁, hok₁, h₁, hquiet₁, hlist₁, hself, hother, hwritten₁⟩ := hone
          -- `p` is at the end of the free list now, the next stream at its front.
          have hsame : ∀ q, (st₁.stream q).unread = (st.stream q).unread := by
            intro q
            by_cases hq : q = p
            · rw [hq, hself, hp]
              rfl
            · rw [hother q hq]
          obtain ⟨st₂, hrun₂, hok₂, h₂, hquiet₂, hlist₂, hunread, hwritten₂⟩ :=
            ih front (rest ++ [p]) h₁ hquiet₁ (by rw [hlist₁]; simp)
              (by simpa using hlen)
              (fun q hq => by
                rw [hsame q]
                exact hempty q (List.mem_cons_of_mem _ hq))
          refine ⟨st₂, ?_, ?_, h₂, hquiet₂, by rw [hlist₂]; simp, fun q => by
            rw [hunread, hsame], ?_⟩
          · rw [List.replicate_succ, List.flatten_cons, run_append]
            exact Option.bind_eq_some_iff.mpr ⟨st₁, hrun₁, hrun₂⟩
          · rw [List.replicate_succ, List.flatten_cons]
            exact (allSteps_append hrun₁).mpr ⟨hok₁, hok₂⟩
          · rw [hwritten₂, hwritten₁]
            simp

/-- Empty messages have no bytes. -/
theorem emptyLogs_messages (n : Nat) :
    (messages (List.replicate n (oneLog [] 0)).flatten).flatten = [] := by
  induction n with
  | zero => rfl
  | succ n ih =>
      rw [List.replicate_succ, List.flatten_cons, messages, List.filterMap_append,
        List.flatten_append]
      exact ih

/-- A message, 255 empty ones, and one more message. -/
def reuseRun : List LogAction :=
  oneLog [97] 1 ++ ((List.replicate 255 (oneLog [] 0)).flatten ++ oneLog [98] 2)

/-- The message `a`, 255 empty messages and the message `b` leave `aab` in the log file: the
pool starts with 256 streams, so the last one is the first one again, with `a` still in it. -/
theorem log_reuse :
    AllSteps step (fun st a => st.Succeeds a = true) init reuseRun ∧
    ∃ st, run step init reuseRun = some st ∧ st.pending = [] ∧
      (written st.calls).flatten = [97, 97, 98] ∧
      (messages reuseRun).flatten = [97, 98] := by
  have hlist : init.m_oPoolStream.m_list = 0 :: List.range' 1 255 := rfl
  have hnew : ∀ p, (init.stream p).unread = [] := by
    intro p
    show (TPool.unit (.init .init 256) p : LOGStream).unread = []
    simp only [TPool.init, TPool.AllocNewBlob]
    split <;> rfl
  -- The message `a` goes through stream 0, which keeps the `a` and goes to the end of the list.
  have ha := oneLog_run inv_init ⟨rfl, rfl, rfl⟩ 0 (List.range' 1 255) hlist [97]
  rw [hnew 0] at ha
  obtain ⟨st₁, hrun₁, hok₁, h₁, hquiet₁, hlist₁, hself₁, hother₁, hwritten₁⟩ := ha
  obtain ⟨st₂, hrun₂, hok₂, h₂, hquiet₂, hlist₂, hunread₂, hwritten₂⟩ :=
    emptyLogs_run 255 (List.range' 1 255) [0] h₁ hquiet₁ hlist₁ (List.length_range') (fun p hp => by
      have hne : p ≠ 0 := by
        have := (List.mem_range'_1.mp hp).1
        omega
      rw [hother₁ p hne, hnew p])
  -- After 255 empty messages stream 0 is in front again.
  have hb := oneLog_run h₂ hquiet₂ 0 (List.range' 1 255) hlist₂ [98]
  rw [hunread₂ 0, hself₁] at hb
  obtain ⟨st₃, hrun₃, hok₃, -, hquiet₃, -, -, -, hwritten₃⟩ := hb
  refine ⟨?_, st₃, ?_, ?_, ?_, ?_⟩
  · exact (allSteps_append hrun₁).mpr ⟨hok₁, (allSteps_append hrun₂).mpr ⟨hok₂, hok₃⟩⟩
  · rw [reuseRun, run_append]
    refine Option.bind_eq_some_iff.mpr ⟨st₁, hrun₁, ?_⟩
    rw [run_append]
    exact Option.bind_eq_some_iff.mpr ⟨st₂, hrun₂, hrun₃⟩
  · rw [pending, hquiet₃.caller, hquiet₃.runner, hquiet₃.queue]
    rfl
  · rw [hwritten₃, List.flatten_append, hwritten₂, hwritten₁]
    rfl
  · rw [reuseRun, messages, List.filterMap_append, List.filterMap_append, List.flatten_append,
      List.flatten_append]
    show [97] ++ ((messages (List.replicate 255 (oneLog [] 0)).flatten).flatten ++ [98]) = _
    rw [emptyLogs_messages 255]
    rfl

end LoggerState

end Kernel4GameServer
