import Kernel4GameServer.Lib.Run
import Kernel4GameServer.Public.TPool
import Kernel4GameServer.Public.TStream

/-!
# `Kernel4GameServer.Logger.Logger`: the log file and its two threads

`kernel/logger/Logger.cpp`. `Log` takes a stream from the pool, copies the message into it
and puts it into the queue. `Run` takes it out, writes its bytes to the open file and gives
it back to the pool. Where another thread can come in between, the code is cut into steps.

The results of `fopen`, `fclose` and `fwrite` and what the clock says are the environment.
`calls` records the calls of these functions. A message is the list of its bytes in front of
the terminator, so its length is `strlen`.
-/

set_option autoImplicit false

namespace Kernel4GameServer

open Lib

/-- `LOGStream`. -/
abbrev LOGStream := TStream 1024

/-- A call of the C library. The flag of `fwrite` says that its file is open. -/
inductive FileCall where
  | fopen (opened : Bool)
  | fclose (closed : Bool)
  | fwrite (opened : Bool) (context : List UInt8) (nCount : Nat)
  deriving DecidableEq, Repr

/-- `FileInfo`. `file` says that the handle is not NULL. -/
structure FileInfo where
  file : Bool
  m_lOpenTick : Int
  m_lFileSize : Int
  deriving DecidableEq, Repr

/-- The results of the file operations that one record may need, and the times at which
files are opened. -/
structure FileResults where
  opened : Bool
  openTick : Int
  closed : Bool
  reopened : Bool
  reopenTick : Int
  nCount : Nat
  deriving DecidableEq, Repr

namespace FileInfo

/-- `FILEOpen(name)`. -/
def FILEOpen (f : FileInfo) (opened : Bool) (now : Int) : FileInfo × Bool × List FileCall :=
  if f.file then (f, false, [])
  else if opened then
    ({ file := true, m_lOpenTick := now, m_lFileSize := 0 }, true, [.fopen true])
  else (f, false, [.fopen false])

/-- `FILEClose()`. -/
def FILEClose (f : FileInfo) (closed : Bool) : FileInfo × Bool × List FileCall :=
  if ¬ f.file then (f, false, [])
  else if closed then
    ({ file := false, m_lOpenTick := 0, m_lFileSize := 0 }, true, [.fclose true])
  else (f, false, [.fclose false])

/-- `FILEWrite(context, size)`. Its result is not looked at. -/
def FILEWrite (f : FileInfo) (context : List UInt8) (nCount : Nat) : FileInfo × List FileCall :=
  ({ f with m_lFileSize := f.m_lFileSize + nCount }, [.fwrite f.file context nCount])

/-- `m_lMaxTick`. -/
def m_lMaxTick : Int := 60 * 60 * 1000

/-- `m_lMaxSize`. -/
def m_lMaxSize : Int := 1024 * 1024 * 256

/-- `Run` opens a file where there is none. Where this fails it goes on. -/
def openFirst (f : FileInfo) (r : FileResults) : FileInfo × List FileCall :=
  if f.file then (f, [])
  else
    let o := f.FILEOpen r.opened r.openTick
    (o.1, o.2.2)

/-- `Run` goes on to the next file where this one is too old or too large, and writes. -/
def rotateWrite (f : FileInfo) (context : List UInt8) (lTick : Int) (r : FileResults) :
    FileInfo × List FileCall :=
  if lTick - f.m_lOpenTick > m_lMaxTick ∨ f.m_lFileSize > m_lMaxSize then
    let c := f.FILEClose r.closed
    -- Where the close or the open fails, the record is dropped.
    if ¬ c.2.1 then (c.1, c.2.2)
    else
      let o := c.1.FILEOpen r.reopened r.reopenTick
      if ¬ o.2.1 then (o.1, c.2.2 ++ o.2.2)
      else
        let w := o.1.FILEWrite context r.nCount
        (w.1, c.2.2 ++ o.2.2 ++ w.2)
  else f.FILEWrite context r.nCount

/-- What `Run` does with the bytes of one record. -/
def record (f : FileInfo) (context : List UInt8) (lTick : Int) (r : FileResults) :
    FileInfo × List FileCall :=
  let first := f.openFirst r
  let rest := first.1.rotateWrite context lTick r
  (rest.1, first.2 ++ rest.2)

end FileInfo

/-- The records that reached the files, the first file first. -/
def written (calls : List FileCall) : List (List UInt8) :=
  calls.filterMap fun
    | .fwrite true context nCount => some (context.take nCount)
    | _ => none

/-- Where the calling thread is inside `Log`: outside, behind `Create`, behind `in`. -/
inductive LogCaller where
  | idle
  | created (pStream : Nat) (log : List UInt8)
  | filled (pStream : Nat)
  deriving DecidableEq, Repr

/-- Where `Run` is: at `Read`, behind it, behind the file operations. -/
inductive LogRunner where
  | idle
  | read (pLog : Nat)
  | handled (pLog : Nat)
  deriving DecidableEq, Repr

/-- The logger. -/
structure LoggerState where
  m_oPoolStream : TPool LOGStream
  m_oQueueStream : List Nat
  m_oFileInfo : FileInfo
  caller : LogCaller
  runner : LogRunner
  calls : List FileCall

/-- The steps of `Log` and of `Run`. `Log none` is the call with a NULL pointer. -/
inductive LogAction where
  | Log (log : Option (List UInt8))
  | fill
  | Add
  | Read
  | file (lTick : Int) (r : FileResults)
  | Recover
  deriving DecidableEq, Repr

namespace LoggerState

/-- The capacity of `m_oQueueStream`. -/
def queueSize : Nat := 409600

/-- The logger behind `Redry`. -/
def init : LoggerState where
  m_oPoolStream := .init .init 256
  m_oQueueStream := []
  m_oFileInfo := { file := false, m_lOpenTick := 0, m_lFileSize := 0 }
  caller := .idle
  runner := .idle
  calls := []

/-- `m_oPoolStream.Create()`. -/
def Create (st : LoggerState) : Option (Nat × TPool LOGStream) :=
  st.m_oPoolStream.Create .init 64

/-- The stream at an address. -/
def stream (st : LoggerState) (p : Nat) : LOGStream := st.m_oPoolStream.unit p

/-- One step of a thread. `Add` waits while the queue is full. -/
def step (st : LoggerState) : LogAction → Option LoggerState
  | .Log log =>
      match st.caller, log with
      -- A NULL pointer is not logged.
      | .idle, none => some st
      | .idle, some log =>
          st.Create.map fun c =>
            { st with m_oPoolStream := c.2, caller := .created c.1 log }
      | _, _ => none
  | .fill =>
      match st.caller with
      -- `in` appends: what was left in the stream stays in front.
      | .created p log =>
          some { st with
            m_oPoolStream :=
              st.m_oPoolStream.set p ((st.stream p).inBytes (Mem.ofList log 0) log.length)
            caller := .filled p }
      | _ => none
  | .Add =>
      match st.caller with
      | .filled p =>
          if st.m_oQueueStream.length < queueSize then
            some { st with m_oQueueStream := st.m_oQueueStream ++ [p], caller := .idle }
          else none
      | _ => none
  | .Read =>
      match st.runner, st.m_oQueueStream with
      | .idle, p :: queue => some { st with m_oQueueStream := queue, runner := .read p }
      | _, _ => none
  | .file lTick r =>
      match st.runner with
      | .read p =>
          let s := st.stream p
          let out := st.m_oFileInfo.record (Mem.slice s.buff 0 s.size.toNat) lTick r
          some { st with
            m_oFileInfo := out.1
            runner := .handled p
            calls := st.calls ++ out.2 }
      | _ => none
  | .Recover =>
      match st.runner with
      | .handled p =>
          some { st with m_oPoolStream := st.m_oPoolStream.Recover p, runner := .idle }
      | _ => none

/-- The messages of all `Log` calls of a run. -/
def messages (as : List LogAction) : List (List UInt8) :=
  as.filterMap fun
    | .Log (some log) => some log
    | _ => none

/-- The file operations of a step succeed. -/
def Succeeds (st : LoggerState) : LogAction → Bool
  | .file _ r =>
      match st.runner with
      | .read p =>
          r.opened && r.closed && r.reopened && decide (r.nCount = (st.stream p).size.toNat)
      | _ => true
  | _ => true

end LoggerState

end Kernel4GameServer
