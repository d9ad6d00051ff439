import Kernel4GameServer.Lib.Run
import Kernel4GameServer.Logger.Handles

/-!
# `Kernel4GameServer.Proofs.Logger.Handles`: which handles `Run` uses

A `fopen` that fails leaves `m_lOpenTick` at zero, and the clock is later than that by more
than `m_lMaxTick`. So the record goes the way of the rotation, where `FILEClose` finds no
file, and nothing is written. A `fclose` that fails leaves `file` as it is. The next record
then closes or writes to a handle that is gone.

* `Tracked`: `FileInfo` and the handles agree, and no file means no open tick.
* `Sound.record` and `record_unsound`: a record keeps the discipline from a sound state, and
  breaks it behind a `fclose` that failed.
* `handles_ok_iff`: the discipline holds in the runs with no record behind such a `fclose`.
-/

set_option autoImplicit false

namespace Kernel4GameServer

open Lib

/-! ### The handles -/

@[simp] theorem handles_append (cs ds : List FileCall) :
    handles (cs ++ ds) = ds.foldl Handles.call (handles cs) :=
  List.foldl_append

/-- The handles that `fclose` got and the one in `file` are among those that `fopen`
returned. -/
theorem handles_lt (calls : List FileCall) :
    (∀ k ∈ (handles calls).closed, k < (handles calls).opened)
      ∧ ∀ k, (handles calls).file = some k → k < (handles calls).opened := by
  induction calls using List.reverseRecOn with
  | nil => exact ⟨fun k hk => absurd hk List.not_mem_nil, fun k hk => by cases hk⟩
  | append_singleton calls c ih =>
      obtain ⟨hclosed, hfile⟩ := ih
      rw [handles_append]
      have hgot : ∀ k ∈ (handles calls).closed ++ (handles calls).file.toList,
          k < (handles calls).opened := by
        intro k hk
        rcases List.mem_append.mp hk with hk | hk
        · exact hclosed k hk
        · exact hfile k (by simpa using hk)
      cases c with
      | fopen opened =>
          cases opened with
          | true =>
              refine ⟨fun k hk => Nat.lt_succ_of_lt (hclosed k hk), fun k hk => ?_⟩
              have hk : (handles calls).opened = k := Option.some.inj hk
              simp [Handles.call, ← hk]
          | false => exact ⟨hclosed, fun k hk => by cases hk⟩
      | fclose closed =>
          cases closed with
          | true => exact ⟨hgot, fun k hk => by cases hk⟩
          | false => exact ⟨hgot, hfile⟩
      | fwrite opened context nCount => exact ⟨hclosed, hfile⟩

/-- Where the discipline holds, `fclose` gets no handle twice. -/
theorem closed_nodup (calls : List FileCall) (h : Always HandleOk calls) :
    (handles calls).closed.Nodup := by
  induction calls using List.reverseRecOn with
  | nil => exact List.nodup_nil
  | append_singleton calls c ih =>
      obtain ⟨hcalls, hc⟩ := always_snoc.mp h
      rw [handles_append]
      cases c with
      | fopen opened => cases opened <;> exact ih hcalls
      | fclose closed =>
          obtain ⟨k, hk, -, hnew⟩ := hc
          have hmore : ((handles calls).closed ++ [k]).Nodup :=
            List.nodup_append.mpr ⟨ih hcalls, by simp, fun a ha b hb => by
              rw [List.mem_singleton] at hb
              intro hab
              exact hnew (hb ▸ hab ▸ ha)⟩
          cases closed <;> simpa [Handles.call, hk] using hmore
      | fwrite opened context nCount => exact ih hcalls

namespace FileInfo

variable {f : FileInfo} {calls : List FileCall}

/-! ### `FileInfo` and its handle -/

/-- `file` is NULL where no handle is held, and the open tick is zero there. -/
structure Tracked (f : FileInfo) (calls : List FileCall) : Prop where
  file : (handles calls).file.isSome = f.file
  tick : f.file = false → f.m_lOpenTick = 0

/-- `FILEOpen` stores the handle together with the tick. -/
theorem Tracked.FILEOpen (h : f.Tracked calls) (opened : Bool) (now : Int) :
    (f.FILEOpen opened now).1.Tracked (calls ++ (f.FILEOpen opened now).2.2) := by
  unfold FileInfo.FILEOpen
  cases hfile : f.file with
  | true => simpa using h
  | false =>
      cases opened with
      | true => exact ⟨by simp [Handles.call], fun hnull => by simp at hnull⟩
      | false => exact ⟨by simp [Handles.call, hfile], fun _ => h.tick hfile⟩

/-- `FILEClose` takes both back, or neither. -/
theorem Tracked.FILEClose (h : f.Tracked calls) (closed : Bool) :
    (f.FILEClose closed).1.Tracked (calls ++ (f.FILEClose closed).2.2) := by
  unfold FileInfo.FILEClose
  cases hfile : f.file with
  | false => simpa using h
  | true =>
      cases closed with
      | true => exact ⟨by simp [Handles.call], fun _ => rfl⟩
      | false => exact ⟨by simpa [Handles.call] using h.file, h.tick⟩

/-- `FILEWrite` leaves both. -/
theorem Tracked.FILEWrite (h : f.Tracked calls) (context : List UInt8) (nCount : Nat) :
    (f.FILEWrite context nCount).1.Tracked (calls ++ (f.FILEWrite context nCount).2) :=
  ⟨by simpa [FileInfo.FILEWrite, Handles.call] using h.file, h.tick⟩

/-- The first part of a record. -/
theorem Tracked.openFirst (h : f.Tracked calls) (r : FileResults) :
    (f.openFirst r).1.Tracked (calls ++ (f.openFirst r).2) := by
  unfold FileInfo.openFirst
  split
  · simpa using h
  · exact h.FILEOpen r.opened r.openTick

/-- The second part of a record: a write, or the rotation as far as it comes. -/
theorem Tracked.rotateWrite (h : f.Tracked calls) (context : List UInt8) (lTick : Int)
    (r : FileResults) :
    (f.rotateWrite context lTick r).1.Tracked (calls ++ (f.rotateWrite context lTick r).2) := by
  have hclose := h.FILEClose r.closed
  have hopen := hclose.FILEOpen r.reopened r.reopenTick
  have hwrite := hopen.FILEWrite context r.nCount
  simp only [List.append_assoc] at hopen hwrite
  unfold FileInfo.rotateWrite
  split
  · dsimp only
    split
    · exact hclose
    · split
      · exact hopen
      · simpa only [List.append_assoc] using hwrite
  · exact h.FILEWrite context r.nCount

/-- A record. -/
theorem Tracked.record (h : f.Tracked calls) (context : List UInt8) (lTick : Int)
    (r : FileResults) :
    (f.record context lTick r).1.Tracked (calls ++ (f.record context lTick r).2) := by
  have hrest := (h.openFirst r).rotateWrite context lTick r
  simpa only [FileInfo.record, List.append_assoc] using hrest

/-! ### Open and stale handles -/

/-- The discipline holds so far, no `fclose` has failed, and a handle in use is open. -/
structure Sound (f : FileInfo) (calls : List FileCall) : Prop extends f.Tracked calls where
  always : Always HandleOk calls
  closed : FileCall.fclose false ∉ calls
  fresh : ∀ k, (handles calls).file = some k → k ∉ (handles calls).closed

/-- The discipline holds so far, but the handle in use is gone: its `fclose` has failed. -/
structure Spoilt (f : FileInfo) (calls : List FileCall) : Prop extends f.Tracked calls where
  always : Always HandleOk calls
  failed : FileCall.fclose false ∈ calls
  stale : ∃ k, (handles calls).file = some k ∧ k ∈ (handles calls).closed

/-- The file of a sound state is open. -/
theorem Sound.isOpen (h : f.Sound calls) (hfile : f.file = true) : (handles calls).Open := by
  have hsome := h.file
  rw [hfile, Option.isSome_iff_exists] at hsome
  obtain ⟨k, hk⟩ := hsome
  exact ⟨k, hk, (handles_lt calls).2 k hk, h.fresh k hk⟩

/-- A handle that was passed to `fclose` is not open. -/
theorem Spoilt.not_open (h : f.Spoilt calls) : ¬ (handles calls).Open := by
  rintro ⟨k, hk, -, hk'⟩
  obtain ⟨j, hj, hj'⟩ := h.stale
  rw [hk, Option.some.injEq] at hj
  exact hk' (hj ▸ hj')

/-- A file that is gone is not NULL. -/
theorem Spoilt.file_true (h : f.Spoilt calls) : f.file = true := by
  obtain ⟨k, hk, -⟩ := h.stale
  rw [← h.file, hk]
  rfl

/-- `FILEOpen` stores a handle that no call has got before. -/
theorem Sound.FILEOpen (h : f.Sound calls) (opened : Bool) (now : Int) :
    (f.FILEOpen opened now).1.Sound (calls ++ (f.FILEOpen opened now).2.2) := by
  have htracked := h.toTracked.FILEOpen opened now
  unfold FileInfo.FILEOpen at htracked ⊢
  cases hfile : f.file with
  | true => simpa using h
  | false =>
      simp only [hfile, Bool.false_eq_true, if_false] at htracked ⊢
      have halways : Always HandleOk (calls ++ [.fopen opened]) :=
        always_snoc.mpr ⟨h.always, trivial⟩
      cases opened with
      | true =>
          refine ⟨htracked, halways, by simpa using h.closed, ?_⟩
          intro k hk hclosed
          have hk : (handles calls).opened = k := by simpa [Handles.call] using hk
          have hclosed : k ∈ (handles calls).closed := by simpa [Handles.call] using hclosed
          -- Earlier handles have smaller numbers.
          have := (handles_lt calls).1 k hclosed
          omega
      | false =>
          refine ⟨htracked, halways, by simpa using h.closed, ?_⟩
          intro k hk
          simp [Handles.call] at hk

/-- A `fclose` that succeeds leaves no file. -/
theorem Sound.closeFile (h : f.Sound calls) (hfile : f.file = true) :
    (f.FILEClose true).1.Sound (calls ++ (f.FILEClose true).2.2) := by
  have htracked := h.toTracked.FILEClose true
  have halways : Always HandleOk (calls ++ [.fclose true]) :=
    always_snoc.mpr ⟨h.always, h.isOpen hfile⟩
  simp only [FileInfo.FILEClose, hfile, not_true_eq_false, if_false, if_true] at htracked ⊢
  refine ⟨htracked, halways, by simpa using h.closed, ?_⟩
  intro k hk
  simp [Handles.call] at hk

/-- A `fclose` that fails leaves the handle in `file`. -/
theorem Sound.spoil (h : f.Sound calls) (hfile : f.file = true) :
    (f.FILEClose false).1.Spoilt (calls ++ (f.FILEClose false).2.2) := by
  have htracked := h.toTracked.FILEClose false
  have halways : Always HandleOk (calls ++ [.fclose false]) :=
    always_snoc.mpr ⟨h.always, h.isOpen hfile⟩
  obtain ⟨k, hk, -, -⟩ := h.isOpen hfile
  simp only [FileInfo.FILEClose, hfile, not_true_eq_false, if_false, Bool.false_eq_true]
    at htracked ⊢
  exact ⟨htracked, halways, by simp, k, by simp [Handles.call, hk], by simp [Handles.call, hk]⟩

/-- `FILEWrite` writes to an open file. -/
theorem Sound.FILEWrite (h : f.Sound calls) (hfile : f.file = true) (context : List UInt8)
    (nCount : Nat) :
    (f.FILEWrite context nCount).1.Sound (calls ++ (f.FILEWrite context nCount).2) := by
  have hok : HandleOk calls (.fwrite f.file context nCount) := ⟨hfile, h.isOpen hfile⟩
  exact
    { toTracked := h.toTracked.FILEWrite context nCount
      always := always_snoc.mpr ⟨h.always, hok⟩
      closed := by simpa [FileInfo.FILEWrite] using h.closed
      fresh := by simpa [FileInfo.FILEWrite, Handles.call] using h.fresh }

/-! ### One record -/

/-- The discipline holds so far, with the file in use open or gone. -/
def Disciplined (f : FileInfo) (calls : List FileCall) : Prop := f.Sound calls ∨ f.Spoilt calls

/-- `Run` opens a file first. -/
theorem Sound.openFirst (h : f.Sound calls) (r : FileResults) :
    (f.openFirst r).1.Sound (calls ++ (f.openFirst r).2) := by
  unfold FileInfo.openFirst
  split
  · simpa using h
  · exact h.FILEOpen r.opened r.openTick

/-- The next file is opened, and written to where that succeeds. -/
theorem Sound.reopenWrite (h : f.Sound calls) (hfile : f.file = false) (context : List UInt8)
    (r : FileResults) :
    let o := f.FILEOpen r.reopened r.reopenTick
    if o.2.1 then (o.1.FILEWrite context r.nCount).1.Sound
        (calls ++ (o.2.2 ++ (o.1.FILEWrite context r.nCount).2))
      else o.1.Sound (calls ++ o.2.2) := by
  have hopen := h.FILEOpen r.reopened r.reopenTick
  cases hopened : r.reopened with
  | false =>
      rw [hopened] at hopen
      simpa [FileInfo.FILEOpen, hfile] using hopen
  | true =>
      rw [hopened] at hopen
      have hwrite := hopen.FILEWrite (by simp [FileInfo.FILEOpen, hfile]) context r.nCount
      simpa [FileInfo.FILEOpen, hfile] using hwrite

/-- The second part of a record. Without a file the clock is past `m_lMaxTick`, so nothing is
written. -/
theorem Sound.rotateWrite (h : f.Sound calls) (context : List UInt8) {lTick : Int}
    (hclock : m_lMaxTick < lTick) (r : FileResults) :
    (f.rotateWrite context lTick r).1.Disciplined
      (calls ++ (f.rotateWrite context lTick r).2) := by
  unfold FileInfo.rotateWrite
  cases hfile : f.file with
  | false =>
      have hlate : lTick - f.m_lOpenTick > m_lMaxTick := by
        rw [h.tick hfile]
        omega
      rw [if_pos (.inl hlate)]
      left
      simpa [FileInfo.FILEClose, hfile] using h
  | true =>
      split
      · cases hclosed : r.closed with
        | false =>
            have hspoilt := h.spoil hfile
            right
            simpa [FileInfo.FILEClose, hfile] using hspoilt
        | true =>
            have hnext := (h.closeFile hfile).reopenWrite
              (by simp [FileInfo.FILEClose, hfile]) context r
            left
            revert hnext
            cases hopened : r.reopened <;>
              simp [FileInfo.FILEClose, FileInfo.FILEOpen, hfile]
      · exact .inl (h.FILEWrite hfile context r.nCount)

/-- A record keeps the discipline as long as no `fclose` has failed before it. -/
theorem Sound.record (h : f.Sound calls) (context : List UInt8) {lTick : Int}
    (hclock : m_lMaxTick < lTick) (r : FileResults) :
    (f.record context lTick r).1.Disciplined (calls ++ (f.record context lTick r).2) := by
  have hrest := (h.openFirst r).rotateWrite context hclock r
  simpa only [FileInfo.record, List.append_assoc] using hrest

/-- Behind a `fclose` that failed, a record closes the handle again or writes to it. -/
theorem Spoilt.record (h : f.Spoilt calls) (context : List UInt8) (lTick : Int)
    (r : FileResults) : ¬ Always HandleOk (calls ++ (f.record context lTick r).2) := by
  have hfile := h.file_true
  have hfirst : ∃ c rest, (f.record context lTick r).2 = c :: rest ∧ ¬ HandleOk calls c := by
    simp only [FileInfo.record, FileInfo.openFirst, hfile, if_true, List.nil_append]
    unfold FileInfo.rotateWrite
    split
    · -- The rotation begins with the close, whatever comes of it.
      cases hclosed : r.closed with
      | false => exact ⟨.fclose false, [], by simp [FileInfo.FILEClose, hfile], h.not_open⟩
      | true =>
          cases hreopened : r.reopened with
          | false =>
              exact ⟨.fclose true, [.fopen false],
                by simp [FileInfo.FILEClose, FileInfo.FILEOpen, hfile], h.not_open⟩
          | true =>
              exact ⟨.fclose true, [.fopen true, .fwrite true context r.nCount],
                by simp [FileInfo.FILEClose, FileInfo.FILEOpen, FileInfo.FILEWrite, hfile],
                h.not_open⟩
    · exact ⟨.fwrite f.file context r.nCount, [], rfl, fun hok => h.not_open hok.2⟩
  obtain ⟨c, rest, heq, hbad⟩ := hfirst
  intro hall
  exact hbad (hall calls c rest (by rw [heq]))

end FileInfo

/-! ### Runs -/

namespace LoggerState

variable {st st' : LoggerState}

/-- Only the handling of a record touches the file. -/
theorem step_calls {a : LogAction} (hstep : st.step a = some st') :
    (st'.m_oFileInfo = st.m_oFileInfo ∧ st'.calls = st.calls ∧ ∀ lTick r, a ≠ .file lTick r)
      ∨ ∃ lTick r context, a = .file lTick r
        ∧ st'.m_oFileInfo = (st.m_oFileInfo.record context lTick r).1
        ∧ st'.calls = st.calls ++ (st.m_oFileInfo.record context lTick r).2 := by
  cases a with
  | file lTick r =>
      simp only [step] at hstep
      split at hstep
      · obtain rfl := Option.some.inj hstep
        exact .inr ⟨lTick, r, _, rfl, rfl, rfl⟩
      · cases hstep
  | Log log =>
      left
      simp only [step] at hstep
      split at hstep
      · obtain rfl := Option.some.inj hstep
        exact ⟨rfl, rfl, fun _ _ h => by cases h⟩
      · obtain ⟨c, hc, rfl⟩ := Option.map_eq_some_iff.mp hstep
        exact ⟨rfl, rfl, fun _ _ h => by cases h⟩
      · cases hstep
  | fill =>
      left
      simp only [step] at hstep
      split at hstep
      · obtain rfl := Option.some.inj hstep
        exact ⟨rfl, rfl, fun _ _ h => by cases h⟩
      · cases hstep
  | Add =>
      left
      simp only [step] at hstep
      split at hstep
      · split at hstep
        · obtain rfl := Option.some.inj hstep
          exact ⟨rfl, rfl, fun _ _ h => by cases h⟩
        · cases hstep
      · cases hstep
  | Read =>
      left
      simp only [step] at hstep
      split at hstep
      · obtain rfl := Option.some.inj hstep
        exact ⟨rfl, rfl, fun _ _ h => by cases h⟩
      · cases hstep
  | Recover =>
      left
      simp only [step] at hstep
      split at hstep
      · obtain rfl := Option.some.inj hstep
        exact ⟨rfl, rfl, fun _ _ h => by cases h⟩
      · cases hstep

/-- No file is open at the start. -/
theorem init_sound : init.m_oFileInfo.Sound init.calls where
  file := rfl
  tick _ := rfl
  always := always_nil
  closed := List.not_mem_nil
  fresh _ hk := by cases hk

/-- `FileInfo` and the handles agree in every state. -/
theorem run_tracked {as : List LogAction} (h : run step init as = some st) :
    st.m_oFileInfo.Tracked st.calls := by
  refine run_invariant (I := fun st => st.m_oFileInfo.Tracked st.calls) ?_
    init_sound.toTracked h
  intro s a s' hs hstep
  rcases step_calls hstep with ⟨hinfo, hcalls, -⟩ | ⟨lTick, r, context, -, hinfo, hcalls⟩
  · rw [hinfo, hcalls]
    exact hs
  · rw [hinfo, hcalls]
    exact hs.record context lTick r

/-- A step keeps the discipline where no `fclose` has failed. -/
theorem disciplined_step {a : LogAction} (h : st.m_oFileInfo.Disciplined st.calls)
    (hclock : st.ClockLate a) (hno : st.NoCloseFailed a) (hstep : st.step a = some st') :
    st'.m_oFileInfo.Disciplined st'.calls := by
  rcases step_calls hstep with ⟨hinfo, hcalls, -⟩ | ⟨lTick, r, context, rfl, hinfo, hcalls⟩
  · rw [hinfo, hcalls]
    exact h
  · rw [hinfo, hcalls]
    cases h with
    | inl hsound => exact hsound.record context hclock r
    | inr hspoilt => exact absurd hspoilt.failed hno

/-- A step that takes a record behind a failed `fclose` breaks it. -/
theorem undisciplined_step {a : LogAction} (h : st.m_oFileInfo.Disciplined st.calls)
    (hno : ¬ st.NoCloseFailed a) (hstep : st.step a = some st') :
    ¬ Always HandleOk st'.calls := by
  rcases step_calls hstep with ⟨-, -, hne⟩ | ⟨lTick, r, context, rfl, -, hcalls⟩
  · cases a with
    | file lTick r => exact absurd rfl (hne lTick r)
    | _ => exact absurd trivial hno
  · rw [hcalls]
    cases h with
    | inl hsound => exact absurd hsound.closed hno
    | inr hspoilt => exact hspoilt.record context lTick r

/-- What is broken stays broken. -/
theorem undisciplined_stays {a : LogAction} (h : ¬ Always HandleOk st.calls)
    (hstep : st.step a = some st') : ¬ Always HandleOk st'.calls := by
  rcases step_calls hstep with ⟨-, hcalls, -⟩ | ⟨lTick, r, context, -, -, hcalls⟩
  · rw [hcalls]
    exact h
  · rw [hcalls]
    exact fun hall => h hall.of_append

/-- `FileInfo::file` is NULL just where no handle is held. With a clock past `m_lMaxTick`, a
handle that is written to or closed is open at every call just where no record is taken behind
a `fclose` that failed, and then none is closed twice. -/
theorem handles_ok_iff (as : List LogAction) (st : LoggerState)
    (hclock : AllSteps step ClockLate init as) (h : run step init as = some st) :
    (handles st.calls).file.isSome = st.m_oFileInfo.file
    ∧ (Always HandleOk st.calls ↔ AllSteps step NoCloseFailed init as)
    ∧ (Always HandleOk st.calls → (handles st.calls).closed.Nodup) := by
  refine ⟨(run_tracked h).file, ?_, closed_nodup st.calls⟩
  rcases run_good_or_bad (A := ClockLate) (C := NoCloseFailed)
      (G := fun st => st.m_oFileInfo.Disciplined st.calls)
      (B := fun st => ¬ Always HandleOk st.calls)
      (fun _ _ _ hs hc hno hstep => disciplined_step hs hc hno hstep)
      (fun _ _ _ hs _ hno hstep => undisciplined_step hs hno hstep)
      (fun _ _ _ hs _ hstep => undisciplined_stays hs hstep) (.inl init_sound) hclock h
    with ⟨has, hgood⟩ | ⟨has, hbad⟩
  · refine ⟨fun _ => has, fun _ => ?_⟩
    cases hgood with
    | inl hsound => exact hsound.always
    | inr hspoilt => exact hspoilt.always
  · exact ⟨fun hall => absurd hall hbad, fun hall => absurd hall has⟩

/-- A record that is logged and handled while nothing else happens. -/
def oneRecord (lTick : Int) (r : FileResults) : List LogAction :=
  [.Log (some [97]), .fill, .Add, .Read, .file lTick r, .Recover]

/-- The results with a file opened at `tick`, where the flags say what succeeds. -/
def resultsAt (tick : Int) (opened closed : Bool) : FileResults :=
  { opened := opened, openTick := tick, closed := closed, reopened := opened, reopenTick := tick,
    nCount := 1 }

/-- The first record finds no file and cannot open one, the second opens it, and the third
goes on to the next file. -/
def rotation : List LogAction :=
  oneRecord 4000000 (resultsAt 4000000 false true)
    ++ oneRecord 4000001 (resultsAt 4000001 true true)
    ++ oneRecord 8000000 (resultsAt 8000000 true true)

/-- Its two writes and its close use open handles. -/
theorem handles_ok_rotation :
    ∃ st, run step init rotation = some st
      ∧ st.calls = [.fopen false, .fopen true, .fwrite true [97] 1, .fclose true, .fopen true,
          .fwrite true [97] 1]
      ∧ Always HandleOk st.calls := by
  obtain ⟨st, hst, hcalls⟩ : ∃ st, run step init rotation = some st
      ∧ st.calls = [.fopen false, .fopen true, .fwrite true [97] 1, .fclose true, .fopen true,
          .fwrite true [97] 1] := ⟨_, rfl, rfl⟩
  exact ⟨st, hst, hcalls, (handles_ok_iff rotation st (by decide) hst).2.1.mpr (by decide)⟩

/-- The `fclose` of the second record fails, and one more record comes. -/
def failedClose : List LogAction :=
  oneRecord 4000000 (resultsAt 4000000 true true)
    ++ oneRecord 8000000 (resultsAt 8000000 true false)
    ++ oneRecord 8000001 (resultsAt 8000001 true false)

/-- The handle goes to `fclose` a second time. -/
theorem closed_twice :
    ∃ st, AllSteps step ClockLate init failedClose ∧ run step init failedClose = some st
      ∧ st.calls = [.fopen true, .fwrite true [97] 1, .fclose false, .fclose false]
      ∧ ¬ Always HandleOk st.calls ∧ ¬ (handles st.calls).closed.Nodup := by
  refine ⟨_, by decide, rfl, rfl, ?_, by decide⟩
  intro hall
  obtain ⟨k, hk, -, hnew⟩ :=
    hall [.fopen true, .fwrite true [97] 1, .fclose false] (.fclose false) [] rfl
  obtain rfl : 0 = k := Option.some.inj hk
  exact hnew (by decide)

end LoggerState

end Kernel4GameServer
