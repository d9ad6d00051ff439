import Kernel4GameServer.Lib.History
import Kernel4GameServer.Logger.Logger

/-!
# `Kernel4GameServer.Logger.Handles`: the handles of the log files

`kernel/logger/Logger.h`. `FileInfo` keeps one `FILE *`. The handles are numbered in the
order in which `fopen` returned them, so a stale pointer is never mistaken for a later file
at the same address. `handles calls` says which handle `FileInfo::file` holds behind the
calls, and which ones `fclose` has got. `fclose` ends a stream even where it fails.
-/

set_option autoImplicit false

namespace Kernel4GameServer

open Lib

/-- The handles behind some calls: the value of `FileInfo::file`, where `none` is NULL, how
many `fopen` has returned, and which were passed to `fclose`. -/
structure Handles where
  file : Option Nat
  opened : Nat
  closed : List Nat
  deriving DecidableEq, Repr

namespace Handles

/-- No file was opened yet. -/
def init : Handles := { file := none, opened := 0, closed := [] }

/-- One call: `FILEOpen` stores what `fopen` returns, and `FILEClose` stores NULL where
`fclose` succeeds. -/
def call (h : Handles) : FileCall → Handles
  | .fopen true => { h with file := some h.opened, opened := h.opened + 1 }
  | .fopen false => { h with file := none }
  | .fclose true => { h with file := none, closed := h.closed ++ h.file.toList }
  | .fclose false => { h with closed := h.closed ++ h.file.toList }
  | .fwrite _ _ _ => h

/-- `file` denotes a handle that `fopen` returned and that was not passed to `fclose`. -/
def Open (h : Handles) : Prop := ∃ k, h.file = some k ∧ k < h.opened ∧ k ∉ h.closed

end Handles

/-- The handles behind the calls. -/
def handles (calls : List FileCall) : Handles := calls.foldl Handles.call .init

/-- The discipline of a call behind the calls `pre`: a handle that is written to or closed is
open, and it is not NULL where `FILEWrite` is called. -/
def HandleOk (pre : List FileCall) : FileCall → Prop
  | .fopen _ => True
  | .fclose _ => (handles pre).Open
  | .fwrite opened _ _ => opened = true ∧ (handles pre).Open

namespace LoggerState

/-- The clock reads more than `m_lMaxTick` when a record is taken. -/
def ClockLate (_ : LoggerState) : LogAction → Prop
  | .file lTick _ => FileInfo.m_lMaxTick < lTick
  | _ => True

/-- No `fclose` has failed before a record is taken. -/
def NoCloseFailed (st : LoggerState) : LogAction → Prop
  | .file _ _ => FileCall.fclose false ∉ st.calls
  | _ => True

instance (st : LoggerState) (a : LogAction) : Decidable (st.ClockLate a) :=
  match a with
  | .file lTick _ => inferInstanceAs (Decidable (FileInfo.m_lMaxTick < lTick))
  | .Log _ | .fill | .Add | .Read | .Recover => isTrue trivial

instance (st : LoggerState) (a : LogAction) : Decidable (st.NoCloseFailed a) :=
  match a with
  | .file _ _ => inferInstanceAs (Decidable (FileCall.fclose false ∉ st.calls))
  | .Log _ | .fill | .Add | .Read | .Recover => isTrue trivial

end LoggerState

end Kernel4GameServer
