import Kernel4GameServer.Logger.Logger
import Kernel4GameServer.Public.CThread

/-!
# `Kernel4GameServer.Logger.Drain`: how the logger stops

`Logger::Run` with its three observations, and `Logger::Terminate`. `Run` reads the queue, and
when it got nothing it asks whether the queue is empty, and when it is empty it looks at the
status. These are three steps, and the thread that logs may come in between. That thread calls
`Log` any number of times and then `Terminate`.

The messages are numbered in the order in which they are added to the queue, which is the order
in which they are taken. `added` and `taken` are how many there are; `m_nWCount` and
`m_nRCount` of the queue are these numbers as `u32`. `passed` are the messages that were passed
to `FILEWrite`.
-/

set_option autoImplicit false

namespace Kernel4GameServer

open Lib

/-- Where `Run` is in its loop: at `Read` or in the branch behind it, at `IsEmpty`, or at the
test of the status. -/
inductive DrainPc where
  | read
  | isEmpty
  | test
  deriving DecidableEq, Repr

/-- The logger, its thread and its queue. -/
structure DrainState where
  logger : LoggerState
  thread : CThread
  loop : DrainPc
  added : Nat
  taken : Nat
  passed : List Nat

/-- The steps: those of the thread that logs, which are `Start`, the steps of `Log` and those of
`Terminate`, and those of `Run`. -/
inductive DrainAction where
  | Start
  | Log (log : Option (List UInt8))
  | fill
  | Add
  | Terminate
  | begin
  | Read
  | file (lTick : Int) (r : FileResults)
  | Recover
  | IsEmpty
  | test
  deriving DecidableEq, Repr

/-- A call of `fwrite`. -/
def FileCall.isWrite : FileCall → Bool
  | .fwrite _ _ _ => true
  | _ => false

/-- The bytes of a record are passed to `FILEWrite`, unless the file is too old or too large and
cannot be closed or the next one cannot be opened. -/
def FileInfo.Kept (f : FileInfo) (lTick : Int) (r : FileResults) : Prop :=
  let g := (f.openFirst r).1
  lTick - g.m_lOpenTick > m_lMaxTick ∨ g.m_lFileSize > m_lMaxSize →
    g.file = true ∧ r.closed = true ∧ r.reopened = true

instance (f : FileInfo) (lTick : Int) (r : FileResults) : Decidable (f.Kept lTick r) :=
  inferInstanceAs (Decidable (_ ∨ _ → _ ∧ _))

namespace DrainState

/-- The logger behind `Redry`. -/
def init : DrainState where
  logger := .init
  thread := .init
  loop := .read
  added := 0
  taken := 0
  passed := []

/-- A step of `Log`. The thread is in no call of `Terminate`. -/
def logStep (st : DrainState) (a : LogAction) : Option DrainState :=
  if st.thread.terminate = .idle then
    (st.logger.step a).map fun logger =>
      { st with logger, added := if a = .Add then st.added + 1 else st.added }
  else none

/-- `Read` of the queue. -/
def read (st : DrainState) : Option DrainState :=
  if st.logger.m_oQueueStream = [] then some { st with loop := .isEmpty }
  else (st.logger.step .Read).map fun logger => { st with logger, taken := st.taken + 1 }

/-- What `Run` does with a record. The calls it makes show whether the record is passed to
`FILEWrite`. -/
def file (st : DrainState) (lTick : Int) (r : FileResults) : Option DrainState :=
  (st.logger.step (.file lTick r)).map fun logger =>
    { st with
      logger
      passed :=
        if (logger.calls.drop st.logger.calls.length).any FileCall.isWrite then
          st.passed ++ [st.taken - 1]
        else st.passed }

/-- `IsEmpty()`: the counters of the two sides are compared. -/
def IsEmpty (st : DrainState) : Bool := UInt32.ofNat st.taken == UInt32.ofNat st.added

/-- A step of `Run`. -/
def runStep (st : DrainState) (a : DrainAction) : Option DrainState :=
  match st.thread.run, st.loop, a with
  | .created, _, .begin => st.thread.begin.map fun thread => { st with thread, loop := .read }
  | .running, .read, .Read => if st.logger.runner = .idle then st.read else none
  | .running, .read, .file lTick r => st.file lTick r
  | .running, .read, .Recover =>
      (st.logger.step .Recover).map fun logger => { st with logger }
  | .running, .isEmpty, .IsEmpty =>
      if st.IsEmpty then some { st with loop := .test } else some { st with loop := .read }
  | .running, .test, .test =>
      if st.thread.m_nStatus = .THREAD_STOPPING then some { st with thread := st.thread.finish }
      else some { st with loop := .read }
  | _, _, _ => none

/-- One step of a thread. -/
def step (st : DrainState) : DrainAction → Option DrainState
  | .Start => st.thread.Start.map fun thread => { st with thread }
  | .Log log => st.logStep (.Log log)
  | .fill => st.logStep .fill
  | .Add => st.logStep .Add
  | .Terminate =>
      if st.logger.caller = .idle then st.thread.Terminate.map fun thread => { st with thread }
      else none
  | a => st.runStep a

/-- `Terminate` does not store STOPPING while `Run` is behind an `IsEmpty` that was true and a
message has come since, and no record is dropped by a change of the file. -/
def Drains (st : DrainState) : DrainAction → Prop
  | .Terminate =>
      st.thread.terminate = .storing → st.loop = .test → st.logger.m_oQueueStream = []
  | .file lTick r => st.logger.m_oFileInfo.Kept lTick r
  | _ => True

instance (st : DrainState) : ∀ a, Decidable (st.Drains a)
  | .Start => isTrue trivial
  | .Log _ => isTrue trivial
  | .fill => isTrue trivial
  | .Add => isTrue trivial
  | .Terminate => inferInstanceAs (Decidable (_ → _ → _))
  | .begin => isTrue trivial
  | .Read => isTrue trivial
  | .file _ _ => inferInstanceAs (Decidable (FileInfo.Kept _ _ _))
  | .Recover => isTrue trivial
  | .IsEmpty => isTrue trivial
  | .test => isTrue trivial

end DrainState

end Kernel4GameServer
