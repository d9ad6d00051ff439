import Kernel4GameServer.Proofs.Timermgr.Refine

/-!
# `Kernel4GameServer.Proofs.Timermgr.Lifecycle`: the callbacks of a timer and its node

`TimerState.lifecycle` is the main result. The callbacks that a call of `StartTimer` gets are
those of its phase (`Plan.Inv.called`), and the phases follow `OnStart`, `OnTime`, ...,
`OnTerminate`. The node of the call is in use from the call on until it is released behind
`OnTerminate` (`Sim.owner`), and then it is in no slot, because the node whose callback runs
is loose (`Timermgr.Holds.apart`).
-/

set_option autoImplicit false

namespace Kernel4GameServer

open Lib

/-- A timer that fires has got `OnStart` first. -/
theorem fired_of_pos {n : Nat} (hn : 1 ≤ n) : fired n = .OnStart :: List.replicate n .OnTime :=
  if_neg (by omega)

/-- The callbacks of fewer firings come first. -/
theorem fired_le {h n : Nat} (hle : h ≤ n) : fired h <+: fired n := by
  rcases Nat.eq_zero_or_pos h with rfl | hpos
  · exact List.nil_prefix
  · rw [fired_of_pos hpos, fired_of_pos (Nat.le_trans hpos hle), List.cons_prefix_cons]
    exact ⟨rfl, ⟨List.replicate (n - h) .OnTime, by
      rw [List.replicate_append_replicate, Nat.add_sub_cancel' hle]⟩⟩

namespace Phase

variable {start cursor : Int} {pc : PlanPc} {i : Nat} {c : StartCall} {x : Phase}

/-- The callbacks of a timer with a loop count, in whatever phase. -/
theorem callbacks_loop (hplaced : x.Placed start cursor pc i c) {n : Nat} (hn : 1 ≤ n)
    (hloop : c.loop = n) :
    x.callbacks c <+: fired n ++ [.OnTerminate true, .Release] := by
  obtain rfl : n = c.loop.toNat := by omega
  cases x with
  | waiting h =>
      have hallows := hplaced.1
      unfold StartCall.Allows at hallows
      exact (fired_le (by omega)).trans (List.prefix_append _ _)
  | starting =>
      refine List.IsPrefix.trans ?_ (List.prefix_append _ _)
      rw [fired_of_pos hn]
      exact ⟨_, rfl⟩
  | firing h =>
      have hallows := hplaced.1
      unfold StartCall.Allows at hallows
      exact (fired_le (by omega)).trans (List.prefix_append _ _)
  | ending =>
      show fired c.loop.toNat ++ _ <+: _
      rw [List.prefix_append_right_inj]
      exact ⟨[.Release], rfl⟩
  | released => exact List.prefix_rfl

/-- The callbacks of a timer without a loop count, in whatever phase. -/
theorem callbacks_forever (hplaced : x.Placed start cursor pc i c) (hloop : c.loop ≤ 0) :
    ∃ h, x.callbacks c <+: .OnStart :: List.replicate h .OnTime := by
  cases x with
  | waiting h =>
      refine ⟨h + 1, ?_⟩
      rw [← fired_of_pos (by omega)]
      exact fired_le (by omega)
  | starting => exact ⟨0, List.prefix_rfl⟩
  | firing h =>
      refine ⟨h + 1, ?_⟩
      rw [← fired_of_pos (by omega)]
      exact List.prefix_rfl
  | ending =>
      have hpos := hplaced.1
      omega
  | released =>
      have hpos : 1 ≤ c.loop := hplaced
      omega

/-- A call has its node until `Release`. -/
theorem release_mem (x : Phase) (c : StartCall) :
    TimerCallback.Release ∈ x.callbacks c ↔ x = .released := by
  have hfired : ∀ h, TimerCallback.Release ∉ fired h := by
    intro h hmem
    unfold fired at hmem
    split at hmem
    · cases hmem
    · rcases List.mem_cons.mp hmem with heq | hmem
      · cases heq
      · cases List.eq_of_mem_replicate hmem
  cases x with
  | waiting h => exact iff_of_false (hfired h) (by intro heq; cases heq)
  | starting =>
      refine iff_of_false ?_ (by intro heq; cases heq)
      show TimerCallback.Release ∉ [.OnStart]
      decide
  | firing h => exact iff_of_false (hfired (h + 1)) (by intro heq; cases heq)
  | ending =>
      refine iff_of_false ?_ (by intro heq; cases heq)
      show TimerCallback.Release ∉ fired _ ++ [.OnTerminate true]
      rw [List.mem_append]
      rintro (hmem | hmem)
      · exact hfired _ hmem
      · cases List.mem_singleton.mp hmem
  | released =>
      refine iff_of_true ?_ rfl
      show TimerCallback.Release ∈ fired _ ++ [.OnTerminate true, .Release]
      rw [List.mem_append]
      exact .inr (by decide)

end Phase

namespace TimerState

variable {start : Int} {st : TimerState} {lists : Int → List Nat} {phase : Nat → Phase}

/-- The callback of a call is that of its node. -/
theorem running_of_calls {m : Timermgr} {pc : TimerPc} {i : Nat} (h : (pc.plan m).Calls i) :
    ∃ p, pc.Running p ∧ (m.node p).call = i := by
  cases pc with
  | idle => exact h.elim
  | cursor lTick nCursor => exact h.elim
  | slot lTick nCursor => exact h.elim
  | onStart lTick nCursor p => exact ⟨p, rfl, h⟩
  | onTime lTick nCursor p => exact ⟨p, rfl, h⟩
  | onTerminate lTick nCursor p => exact ⟨p, rfl, h⟩

/-- The call of a running node is not released. -/
theorem Sim.running_not_released (h : Sim start st lists phase) {p : Nat}
    (hp : st.pc.Running p) : phase (st.mgr.node p).call ≠ .released := by
  have hfits := h.fits
  cases hpc : st.pc with
  | idle =>
      rw [hpc] at hp
      exact hp.elim
  | cursor lTick nCursor =>
      rw [hpc] at hp
      exact hp.elim
  | slot lTick nCursor =>
      rw [hpc] at hp
      exact hp.elim
  | onStart lTick nCursor q =>
      rw [hpc] at hp hfits
      obtain rfl : q = p := hp
      obtain ⟨-, c, -, hphase, -⟩ := hfits
      rw [hphase]
      exact fun heq => by cases heq
  | onTime lTick nCursor q =>
      rw [hpc] at hp hfits
      obtain rfl : q = p := hp
      obtain ⟨-, c, k, -, hphase, -⟩ := hfits
      rw [hphase]
      exact fun heq => by cases heq
  | onTerminate lTick nCursor q =>
      rw [hpc] at hp hfits
      obtain rfl : q = p := hp
      obtain ⟨-, c, -, hphase⟩ := hfits
      rw [hphase]
      exact fun heq => by cases heq

/-- A call has exactly one node in use until it is released, and none then. -/
theorem Sim.owner (h : Sim start st lists phase) {i : Nat} {c : StartCall}
    (hc : st.calls[i]? = some c) :
    (phase i ≠ .released → ∃! p, st.mgr.InUse p ∧ (st.mgr.node p).call = i) ∧
      (phase i = .released → ∀ p, st.mgr.InUse p → (st.mgr.node p).call ≠ i) := by
  constructor
  · intro hphase
    have hexists : ∃ p, st.mgr.InUse p ∧ (st.mgr.node p).call = i := by
      have hplaced : (phase i).Placed start _ (st.pc.plan st.mgr) i c := h.inv.placed hc
      -- A timer that is in a callback has the node that runs.
      have hrunning : (st.pc.plan st.mgr).Calls i →
          ∃ p, st.mgr.InUse p ∧ (st.mgr.node p).call = i := by
        intro hcalls
        obtain ⟨p, hp, hi⟩ := running_of_calls hcalls
        exact ⟨p, (h.holds.inUse p).mpr (.inr hp), hi⟩
      cases hx : phase i with
      | waiting k =>
          obtain ⟨p, hp, hi⟩ := h.holds.covered hc hx
          exact ⟨p, (h.holds.inUse p).mpr (.inl ⟨_, hp⟩), hi⟩
      | starting =>
          rw [hx] at hplaced
          exact hrunning hplaced.2
      | firing k =>
          rw [hx] at hplaced
          exact hrunning hplaced.2.2
      | ending =>
          rw [hx] at hplaced
          exact hrunning hplaced.2
      | released => exact absurd hx hphase
    obtain ⟨p, hp, hi⟩ := hexists
    exact ⟨p, ⟨hp, hi⟩, fun q hq => h.holds.injective hq.1 hp (hq.2.trans hi.symm)⟩
  · intro hphase p hp hi
    -- A node in use waits in a slot or runs, and then its call is not released.
    rcases (h.holds.inUse p).mp hp with ⟨key, hin⟩ | hrun
    · obtain ⟨d, k, -, hwait, -⟩ := h.holds.waiting hin
      rw [hi, hphase] at hwait
      cases hwait
    · exact h.running_not_released hrun (hi.symm ▸ hphase)

/-- The lifecycle of a timer. In every run, for every call of `StartTimer`:
* with a loop count of `n` from one on, it gets a prefix of `OnStart`, `n` times `OnTime`,
  `OnTerminate(true)` and the release of its node; outside of `Processing` it got fewer
  firings than `n` or all of this;
* with a loop count that is not positive, as `LOOP_FOREVER`, it gets a prefix of `OnStart`
  and `OnTime` any number of times;
* there is exactly one node of the call in use until its release, and none from then on.
And for every node: when it is about to be released, it is in use and in no slot; the nodes
in slots are in use; and every free node is in the list of the pool once. -/
theorem lifecycle {start : Int} {as : List TimerAction} {st : TimerState}
    (hrun : run step (init start) as = some st)
    (hA : AllSteps step Admissible (init start) as) :
    (∀ (i : Nat) (c : StartCall), st.calls[i]? = some c →
      (∀ n : Nat, 1 ≤ n → c.loop = n →
        callbacks i st.trace
          <+: .OnStart :: List.replicate n .OnTime ++ [.OnTerminate true, .Release] ∧
        (st.pc = .idle → (∃ h, h < n ∧ callbacks i st.trace = fired h) ∨ callbacks i st.trace
          = .OnStart :: List.replicate n .OnTime ++ [.OnTerminate true, .Release])) ∧
      (c.loop ≤ 0 → ∃ h, callbacks i st.trace <+: .OnStart :: List.replicate h .OnTime) ∧
      (.Release ∉ callbacks i st.trace →
        ∃! p, st.mgr.InUse p ∧ (st.mgr.node p).call = i) ∧
      (.Release ∈ callbacks i st.trace →
        ∀ p, st.mgr.InUse p → (st.mgr.node p).call ≠ i)) ∧
    (∀ lTick nCursor p, st.pc = .onTerminate lTick nCursor p → st.mgr.InUse p ∧
      ∀ key l, Chain st.mgr.next (st.mgr.head key) l → p ∉ l) ∧
    (∀ key l p, Chain st.mgr.next (st.mgr.head key) l → p ∈ l → st.mgr.InUse p) ∧
    st.mgr.s_oTimeNodePool.Inv := by
  obtain ⟨lists, phase, hsim, -⟩ := run_plan (I := fun _ => True) trivial
    (fun _ _ _ => trivial) hrun (fitting_of_admissible hA)
  have hlists : ∀ {key l}, Chain st.mgr.next (st.mgr.head key) l → l = lists key :=
    fun hl => hl.unique (hsim.holds.rep.chain _)
  refine ⟨fun i c hc => ?_, fun lTick nCursor p hpc => ?_, fun key l p hl hp => ?_,
    hsim.holds.pool⟩
  · have hcalled : callbacks i st.trace = (phase i).callbacks c := hsim.inv.called hc
    have hplaced : (phase i).Placed start _ (st.pc.plan st.mgr) i c := hsim.inv.placed hc
    have howner := hsim.owner hc
    rw [hcalled, Phase.release_mem]
    refine ⟨fun n hn hloop => ?_, Phase.callbacks_forever hplaced, howner⟩
    rw [← fired_of_pos hn]
    refine ⟨Phase.callbacks_loop hplaced hn hloop, fun hpc => ?_⟩
    rw [hpc] at hplaced
    -- Outside the loop a timer waits or is released; the other phases belong to a node that runs.
    cases hx : phase i with
    | waiting h =>
        rw [hx] at hplaced
        have hallows := hplaced.1
        unfold StartCall.Allows at hallows
        exact .inl ⟨h, by omega, rfl⟩
    | starting =>
        rw [hx] at hplaced
        exact hplaced.2.elim
    | firing h =>
        rw [hx] at hplaced
        exact hplaced.2.2.elim
    | ending =>
        rw [hx] at hplaced
        exact hplaced.2.elim
    | released =>
        refine .inr ?_
        show fired c.loop.toNat ++ _ = _
        rw [hloop]
        rfl
  · -- The node is the one that runs, so it is loose and in no slot.
    have hp : st.pc.Running p := by
      rw [hpc]
      rfl
    refine ⟨(hsim.holds.inUse p).mpr (.inr hp), fun key l hl hin => ?_⟩
    exact hsim.holds.apart hp ⟨key, hlists hl ▸ hin⟩
  · exact (hsim.holds.inUse p).mpr (.inl ⟨key, hlists hl ▸ hp⟩)

/-- A timer with two firings, which starts another timer in its last callback. -/
def startsAnother : List TimerAction :=
  [.StartTimer 5 1 7 100 0 2, .Processing 30, .go, .go, .go, .go, .go, .go, .Processing 400,
    .go, .go, .go, .go, .go, .go, .go, .StartTimer 400 2 7 100 0 (-1), .go]

/-- The callbacks of the first timer of that run. -/
theorem lifecycle_twice :
    ∃ st, run step (init 0) startsAnother = some st ∧
      (callbacks 0 st.trace
        <+: .OnStart :: List.replicate 2 .OnTime ++ [.OnTerminate true, .Release]) := by
  obtain ⟨st, hst, hc⟩ : ∃ st, run step (init 0) startsAnother = some st ∧
      st.calls[0]? = some ⟨5, 1, 7, 100, 0, 2⟩ := ⟨_, rfl, rfl⟩
  exact ⟨st, hst, (((lifecycle hst (by decide)).1 0 _ hc).1 2 (by decide) rfl).1⟩

end TimerState

end Kernel4GameServer
