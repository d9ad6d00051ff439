import Kernel4GameServer.Net.Epoll.SPipe
import Kernel4GameServer.Proofs.Public.TPool

/-!
# `Kernel4GameServer.Proofs.Net.Accept`: what a failed accept leaves behind

`DoAccept` relates a pipe to its socket and its session before `epoll_ctl`. When that fails it
calls `Release` and nothing else; `DoConnect` in the same place closes the socket and clears
`m_pPipe` of the session first. When `setnonblocking` fails it only leaves the loop.

* `failed_round`: what is left, for every engine and every failure.
* `nothing_left_iff`: a run leaves nothing behind exactly when no accept in it fails.
* `stale_session`: the session of a failed accept keeps the pipe through every run that does
  not name it, and shares it with the session that gets the pipe next.
-/

set_option autoImplicit false

namespace Kernel4GameServer

open Lib

namespace AcceptEngine

/-- The accept succeeds, or afterwards its socket is closed, and its pipe is free and cleared
and no session refers to it. -/
def LeavesNothing (st : AcceptEngine) : EngineAction → Prop
  | .DoAccept x =>
      (x.nonblocking = true ∧ x.added = true) ∨
        x.lSocket ∉ (st.acceptRound x).1.sockets ∧
        ∀ p, (st.acceptRound x).2 = some p →
          p ∈ (st.acceptRound x).1.s_oCPipePool.m_list ∧ ((st.acceptRound x).1.pipe p).Cleared ∧
          ∀ s, (st.acceptRound x).1.m_pPipe s ≠ some p
  | _ => True

/-- No call fails behind `accept`. -/
def Succeeds (_ : AcceptEngine) : EngineAction → Prop
  | .DoAccept x => x.nonblocking = true ∧ x.added = true
  | _ => True

/-- What a failed accept leaves: its socket is open, and its pipe, free and cleared, is that of
its session. -/
def Leaves (st : AcceptEngine) : EngineAction → Prop
  | .DoAccept x =>
      (x.nonblocking = true ∧ x.added = true) ∨
        x.lSocket ∈ (st.acceptRound x).1.sockets ∧
        (x.nonblocking = true → ∃ p, (st.acceptRound x).2 = some p ∧
          p ∈ (st.acceptRound x).1.s_oCPipePool.m_list ∧ ((st.acceptRound x).1.pipe p).Cleared ∧
          (st.acceptRound x).1.m_pPipe x.pSession = some p)
  | _ => True

/-- `Clear` leaves a cleared pipe. -/
theorem clear_cleared (p : SessionPipe) : p.Clear.Cleared where
  status := rfl
  socket := rfl
  need_send := rfl
  recv := rfl
  send := rfl
  addr := rfl
  host := rfl
  epoll := rfl

/-! ### One iteration -/

/-- The pipe that an iteration creates, and the engine behind `Relate`. -/
theorem acceptRound_created (st : AcceptEngine) {x : Accepting} (hx : x.nonblocking = true) :
    ∃ p pool, st.s_oCPipePool.Create .new 64 = some (p, pool) ∧
      (st.acceptRound x).2 = some p ∧
      (st.acceptRound x).1.sockets = x.lSocket :: st.sockets ∧
      (st.acceptRound x).1.m_pPipe = fun s => if s = x.pSession then some p else st.m_pPipe s := by
  have hsome := TPool.Create_isSome st.s_oCPipePool SessionPipe.new (Nat.zero_lt_succ 63)
  obtain ⟨⟨p, pool⟩, hc⟩ := Option.isSome_iff_exists.mp hsome
  refine ⟨p, pool, hc, ?_⟩
  simp only [acceptRound, hx, if_true, hc]
  cases x.added <;> exact ⟨trivial, rfl, rfl⟩

/-- The pool behind an iteration whose `epoll_ctl` fails: the pipe is back in it, cleared. -/
theorem acceptRound_failed {st : AcceptEngine} (h : st.s_oCPipePool.Inv) {x : Accepting}
    (hx : x.nonblocking = true) (hadd : x.added = false) {p : Nat}
    {pool : TPool SessionPipe} (hc : st.s_oCPipePool.Create .new 64 = some (p, pool)) :
    p ∈ (st.acceptRound x).1.s_oCPipePool.m_list ∧ ((st.acceptRound x).1.pipe p).Cleared := by
  obtain ⟨hinv, -, hin, -⟩ := TPool.Create_spec h hc
  have huse : pool.inUse p = true := (hin p).mpr (.inl rfl)
  simp only [acceptRound, hx, if_true, hc, hadd]
  constructor
  · -- The pipe is in use until `Recover`.
    refine (TPool.mem_Recover ?_).mpr (.inr ⟨rfl, huse⟩)
    exact TPool.set_inv (TPool.set_inv (TPool.set_inv hinv _ _) _ _) _ _
  · show SessionPipe.Cleared ((TPool.Recover _ p).unit p)
    rw [TPool.Recover_unit, TPool.set_unit_self]
    exact clear_cleared _

/-- What a failed accept leaves, whatever the engine is like. -/
theorem failed_round {st : AcceptEngine} (h : st.s_oCPipePool.Inv) (a : EngineAction) :
    st.Leaves a := by
  cases a with
  | DoAccept x =>
      cases hx : x.nonblocking with
      | false =>
          refine .inr ⟨?_, fun htrue => absurd (hx.symm.trans htrue) (by decide)⟩
          simp [acceptRound, hx]
      | true =>
          obtain ⟨p, pool, hc, hp, hsockets, hpoint⟩ := st.acceptRound_created hx
          cases hadd : x.added with
          | true => exact .inl ⟨hx, hadd⟩
          | false =>
              obtain ⟨hfree, hclear⟩ := acceptRound_failed h hx hadd hc
              refine .inr ⟨?_, fun _ => ⟨p, hp, hfree, hclear, ?_⟩⟩
              · rw [hsockets]
                exact List.mem_cons_self
              · rw [hpoint]
                exact if_pos rfl
  | _ => trivial

/-- An accept leaves nothing behind exactly when it does not fail. -/
theorem leavesNothing_iff (st : AcceptEngine) (a : EngineAction) :
    st.LeavesNothing a ↔ st.Succeeds a := by
  cases a with
  | DoAccept x =>
      refine ⟨fun hleaves => ?_, fun hok => .inl hok⟩
      rcases hleaves with hok | ⟨hclosed, -⟩
      · exact hok
      · -- The socket is never closed.
        refine absurd ?_ hclosed
        cases hx : x.nonblocking with
        | false => simp [acceptRound, hx]
        | true =>
            obtain ⟨p, pool, -, -, hsockets, -⟩ := st.acceptRound_created hx
            rw [hsockets]
            exact List.mem_cons_self
  | _ => exact Iff.rfl

/-! ### Runs -/

/-- Every step keeps the pool in order. -/
theorem step_inv {st st' : AcceptEngine} {a : EngineAction} (h : st.s_oCPipePool.Inv)
    (hstep : st.step a = some st') : st'.s_oCPipePool.Inv := by
  cases a with
  | DoAccept x =>
      simp only [step] at hstep
      split at hstep
      · cases hstep
        cases hx : x.nonblocking with
        | false => simpa [acceptRound, hx] using h
        | true =>
            obtain ⟨p, pool, hc, -⟩ := st.acceptRound_created hx
            have hinv := (TPool.Create_spec h hc).1
            simp only [acceptRound, hx, if_true, hc]
            split
            · exact TPool.set_inv (TPool.set_inv hinv _ _) _ _
            · exact TPool.Recover_inv
                (TPool.set_inv (TPool.set_inv (TPool.set_inv hinv _ _) _ _) _ _) _
      · cases hstep
  | AddClient lSocket pSession lEpollFD =>
      simp only [step] at hstep
      split at hstep
      · obtain ⟨⟨p, pool⟩, hc, rfl⟩ := Option.map_eq_some_iff.mp hstep
        exact TPool.set_inv (TPool.Create_spec h hc).1 _ _
      · cases hstep
  | connectFailed p closes =>
      simp only [step] at hstep
      split at hstep
      · cases hstep
        cases closes <;> exact TPool.Recover_inv (TPool.set_inv h _ _) _
      · cases hstep
  | DoClose p =>
      simp only [step] at hstep
      split at hstep
      · cases hstep
        exact TPool.set_inv h _ _
      · cases hstep

/-- A failed accept. In a run, the accepts leave nothing behind exactly when none of them
fails. Each that fails leaves its socket open, and when a pipe was made for it the session
refers to that pipe, which is free and cleared. -/
theorem nothing_left_iff (as : List EngineAction) :
    (AllSteps step LeavesNothing init as ↔ AllSteps step Succeeds init as) ∧
    AllSteps step Leaves init as := by
  constructor
  · exact allSteps_congr leavesNothing_iff
  · refine allSteps_of_invariant (C := fun _ _ => True) (I := fun st => st.s_oCPipePool.Inv)
      (fun _ _ _ h _ hs => step_inv h hs) (fun _ a h _ => failed_round h a) ?_
      (allSteps_of_forall (fun _ _ => trivial) _ _)
    exact TPool.init_inv _ _

/-- The steps that give the session `s` another pipe, or take it away. -/
def Untouched (s : Nat) (st : AcceptEngine) : EngineAction → Prop
  | .DoAccept x => x.pSession ≠ s
  | .AddClient _ pSession _ => pSession ≠ s
  | .connectFailed p _ => (st.pipe p).m_pHost ≠ some s
  | .DoClose _ => True

/-- A session that no step touches keeps its pipe. -/
theorem step_points {s p : Nat} {st st' : AcceptEngine} {a : EngineAction}
    (h : st.m_pPipe s = some p) (hu : st.Untouched s a) (hstep : st.step a = some st') :
    st'.m_pPipe s = some p := by
  cases a with
  | DoAccept x =>
      simp only [step] at hstep
      split at hstep
      · cases hstep
        cases hx : x.nonblocking with
        | false => simpa [acceptRound, hx] using h
        | true =>
            obtain ⟨q, pool, -, -, -, hpoint⟩ := st.acceptRound_created hx
            rw [hpoint]
            exact (if_neg (Ne.symm hu)).trans h
      · cases hstep
  | AddClient lSocket pSession lEpollFD =>
      simp only [step] at hstep
      split at hstep
      · obtain ⟨r, -, rfl⟩ := Option.map_eq_some_iff.mp hstep
        exact (if_neg (Ne.symm hu)).trans h
      · cases hstep
  | connectFailed q closes =>
      simp only [step] at hstep
      split at hstep
      · cases hstep
        have hne : some s ≠ (st.pipe q).m_pHost := Ne.symm hu
        cases closes <;> exact (if_neg hne).trans h
      · cases hstep
  | DoClose q =>
      simp only [step] at hstep
      split at hstep
      · cases hstep
        exact h
      · cases hstep

/-- The session of a failed accept keeps its pipe through a run that does not touch it. An
accept that takes the pipe from the pool then makes it the pipe of two sessions. -/
theorem stale_session {s p : Nat} {st st' : AcceptEngine} {as : List EngineAction}
    (h : st.m_pPipe s = some p) (hrun : run step st as = some st')
    (hall : AllSteps step (Untouched s) st as) (x : Accepting) (hs : x.pSession ≠ s)
    (hp : (st'.acceptRound x).2 = some p) :
    (st'.acceptRound x).1.m_pPipe s = some p ∧
      (st'.acceptRound x).1.m_pPipe x.pSession = some p := by
  have hkeep : st'.m_pPipe s = some p :=
    run_invariant_of (I := fun st => st.m_pPipe s = some p)
      (fun _ _ _ hold hu hstep => step_points hold hu hstep) h hall hrun
  cases hx : x.nonblocking with
  | false => simp [acceptRound, hx] at hp
  | true =>
      obtain ⟨q, pool, -, hq, -, hpoint⟩ := st'.acceptRound_created hx
      obtain rfl : q = p := Option.some.inj (hq.symm.trans hp)
      rw [hpoint]
      exact ⟨(if_neg (Ne.symm hs)).trans hkeep, if_pos rfl⟩

/-- A client connects and `epoll_ctl` fails: the socket `7` is open, and the session `0` refers
to the pipe `0`, which is the last free one. -/
theorem failed_accept_leaves :
    ∃ st, run step init [.DoAccept ⟨7, 1, true, 0, 0, false⟩] = some st ∧
      7 ∈ st.sockets ∧ st.m_pPipe 0 = some 0 ∧ st.s_oCPipePool.m_list.getLast? = some 0 ∧
      (st.pipe 0).m_pHost = none ∧
      ¬ AllSteps step LeavesNothing init [.DoAccept ⟨7, 1, true, 0, 0, false⟩] := by
  refine ⟨_, rfl, by decide, rfl, by decide, rfl, fun hall => ?_⟩
  exact absurd ((leavesNothing_iff _ _).mp hall.1).2 (by decide)

end AcceptEngine

end Kernel4GameServer
