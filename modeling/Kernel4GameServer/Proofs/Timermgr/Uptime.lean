import Kernel4GameServer.Proofs.Timermgr.Schedule

/-!
# `Kernel4GameServer.Proofs.Timermgr.Uptime`: what a `Processing` leaves in the slots

`ResetTimeNode` divides the time since the start in 64 bits, `Processing` narrows it to `s32`
first. The two agree below `2 ^ 31` ms of uptime (`reach_eq_iff`). Later on the cursor stays
behind, and the timers in the slots that it does not come to are never called again.

`TimerState.emptied_iff` is the main result: a `Processing` leaves no timer behind exactly
when no firing that is still to be made has its slot between the two. `Plan.Since` is the
invariant of the steps of one `Processing`.
-/

set_option autoImplicit false

namespace Kernel4GameServer

open Lib

/-- The cursor goes up to the slot of the tick exactly below `2 ^ 31` ms of uptime. -/
theorem reach_eq_iff {start lTick : Int} (hle : start ≤ lTick) :
    reach start lTick = (lTick - start) / 20 ↔ lTick - start < 2147483648 := by
  constructor
  · intro heq
    have hlt := reach_lt start lTick
    rw [heq] at hlt
    by_contra hge
    -- Right behind `2 ^ 31` the narrowed time is negative.
    have hneg : s32 (lTick - start) ≤ 0 := by
      rw [s32, BitVec.toInt_ofInt, Int.bmod]
      split <;> omega
    have hreach : reach start lTick ≤ Int.tdiv 0 20 := Int.tdiv_le_tdiv (by decide) hneg
    rw [heq, Int.zero_tdiv] at hreach
    omega
  · exact reach_eq hle

/-! ### The steps of one `Processing` -/

/-- An event that is no firing adds no firing. -/
theorem hits_snoc_quiet {trace : List TimerEvent} {e : TimerEvent}
    (he : ∀ j lTick, e ≠ .OnTime j lTick) (i : Nat) : hits i (trace ++ [e]) = hits i trace := by
  unfold hits
  rw [callbacks_snoc, List.count_append, Nat.add_eq_left, List.count_eq_zero]
  intro hin
  rw [Option.mem_toList] at hin
  cases e with
  | OnTime j lTick => exact he j lTick rfl
  | StartTimer call => cases hin
  | KillTimer id timer => cases hin
  | Processing lTick => cases hin
  | OnStart call lTick =>
      simp only [TimerEvent.callback] at hin
      split at hin <;> cases hin
  | OnTerminate call nonviolent lTick =>
      simp only [TimerEvent.callback] at hin
      split at hin <;> cases hin
  | Release call =>
      simp only [TimerEvent.callback] at hin
      split at hin <;> cases hin

/-- A firing is one of its call. -/
theorem hits_snoc_OnTime (trace : List TimerEvent) (i j : Nat) (lTick : Int) :
    hits j (trace ++ [.OnTime i lTick]) = if i = j then hits j trace + 1 else hits j trace := by
  unfold hits
  rw [callbacks_snoc, TimerEvent.callback]
  split
  · rw [List.count_append]
    rfl
  · exact congrArg _ (List.append_nil _)

namespace Plan

/-- What has happened since the `Processing` of the time `now` was called in `s₀`. -/
structure Since (start now : Int) (s₀ s : Plan) : Prop where
  clock : now ≤ s.clock
  tick : ∀ lTick, s.pc.tick = some lTick → lTick = now
  returned : s.pc.tick = none → reach start now ≤ s.cursor
  kept : ∀ (i : Nat) (c : StartCall), s₀.calls[i]? = some c → s.calls[i]? = some c
  /-- The slots of the timers started since are not before that of the tick. -/
  fresh : ∀ (i : Nat) (c : StartCall), s.calls[i]? = some c →
    s₀.calls[i]? = some c ∨ (now - start) / 20 ≤ c.slot start 0
  /-- The firings since were in slots before the reach. -/
  fired : ∀ (i : Nat) (c : StartCall), s₀.calls[i]? = some c →
    hits i s₀.trace ≤ hits i s.trace ∧
      ∀ k, hits i s₀.trace ≤ k → k < hits i s.trace → c.slot start k < reach start now

variable {start now : Int} {s₀ s s' : Plan} {a : TimerAction}

/-- The clock goes on. -/
theorem Step.clock_le (hstep : Step start s a s') : s.clock ≤ s'.clock := by
  cases hstep with
  | StartTimer c interval delay loop huser hclock hc => exact hclock
  | Processing lTick hpc hclock => exact hclock
  | _ => exact Int.le_refl _

/-- A call is an old one, or it is made now. -/
theorem Step.new_call (hstep : Step start s a s') {i : Nat} {c : StartCall}
    (hc : s'.calls[i]? = some c) :
    s.calls[i]? = some c ∨ s.clock ≤ c.t0 ∧ c.Bounded start := by
  cases hstep with
  | StartTimer d interval delay loop huser hclock hd =>
      rcases getElem?_snoc hc with hold | ⟨-, rfl⟩
      · exact .inl hold
      · exact .inr ⟨hclock, hd⟩
  | _ => exact .inl hc

/-- A `Processing` begins. -/
theorem Step.since {lTick : Int} (hstep : Step start s (.Processing lTick) s') :
    Since start lTick s s' := by
  cases hstep
  have hhits : ∀ i, hits i (s.trace ++ [.Processing lTick]) = hits i s.trace :=
    hits_snoc_quiet fun j t heq => by cases heq
  refine ⟨Int.le_refl _, fun t ht => (Option.some.inj ht).symm, fun h => ?_, fun _ _ hc => hc,
    fun _ _ hc => .inl hc, fun i c _ => ⟨Nat.le_of_eq (hhits i).symm, fun k hge hlt => ?_⟩⟩
  · cases h
  · have hlt : k < hits i (s.trace ++ [.Processing lTick]) := hlt
    rw [hhits] at hlt
    omega

/-- Every other step keeps what has happened since. -/
theorem Since.step (h : Since start now s₀ s) (hs : s.Inv start)
    (ha : ∀ lTick, a ≠ .Processing lTick) (hstep : Step start s a s') :
    Since start now s₀ s' := by
  have hclock := Int.le_trans h.clock hstep.clock_le
  have hfresh : ∀ (i : Nat) (c : StartCall), s'.calls[i]? = some c →
      s₀.calls[i]? = some c ∨ (now - start) / 20 ≤ c.slot start 0 := by
    intro i c hc
    rcases hstep.new_call hc with hold | ⟨hle, hbounded⟩
    · exact h.fresh i c hold
    · -- A timer that starts now is due later than now.
      have hnow := h.clock
      have hdelay := hbounded.delay_nonneg
      refine .inr ?_
      unfold StartCall.slot
      rw [c.due_zero]
      omega
  cases hstep.effect hs with
  | quiet hcalls hcursor htick htrace =>
      -- A quiet event is no firing.
      have hhits : ∀ i, hits i s'.trace = hits i s.trace := by
        intro i
        rcases htrace with htrace | ⟨e, htrace, hquiet⟩
        · rw [htrace]
        · rw [htrace]
          exact hits_snoc_quiet (fun j t heq => by rw [heq] at hquiet; exact hquiet) i
      refine ⟨hclock, ?_, ?_, fun i c hc => hcalls i c (h.kept i c hc), hfresh, ?_⟩
      · rw [htick]
        exact h.tick
      · rw [htick]
        exact fun hnone => Int.le_trans (h.returned hnone) hcursor
      · intro i c hc
        rw [hhits]
        exact h.fired i c hc
  | fires i c lTick hc hallows hslot hlt htick htick' hcalls hcursor htrace =>
      obtain rfl := h.tick lTick htick
      refine ⟨hclock, ?_, ?_, ?_, hfresh, ?_⟩
      · rw [htick', ← htick]
        exact h.tick
      · rw [htick']
        exact fun hnone => by cases hnone
      · rw [hcalls]
        exact h.kept
      · intro j d hd
        obtain ⟨hle, hfired⟩ := h.fired j d hd
        rw [htrace, hits_snoc_OnTime]
        split
        · rename_i hij
          subst hij
          -- Timer `i` itself fires once more, in a slot before the one of the tick.
          obtain rfl : c = d := Option.some.inj (hc.symm.trans (h.kept i d hd))
          refine ⟨Nat.le_succ_of_le hle, fun k hge hk => ?_⟩
          rcases Nat.lt_succ_iff_lt_or_eq.mp hk with hk | rfl
          · exact hfired k hge hk
          · rw [hslot]
            exact hlt
        · exact ⟨hle, hfired⟩
  | calls lTick heq => exact absurd heq (ha lTick)
  | returns lTick htick hle htick' hcalls hcursor htrace =>
      obtain rfl := h.tick lTick htick
      refine ⟨hclock, ?_, ?_, ?_, hfresh, ?_⟩
      · rw [htick']
        exact fun t ht => by cases ht
      · rw [hcursor]
        exact fun _ => hle
      · rw [hcalls]
        exact h.kept
      · rw [htrace]
        exact h.fired

/-- No `Processing` is before the start. -/
theorem Step.start_le {lTick : Int} (hstep : Step start s (.Processing lTick) s')
    (hs : s.Inv start) : start ≤ lTick := by
  cases hstep with
  | Processing _ _ hclock => exact Int.le_trans hs.start_le hclock

end Plan

namespace TimerState

/-- What a `Processing` leaves in the slots. In every run, when the `Processing` of the time
`now` has returned, no node is in a slot before that of `now` exactly when every firing that
was still to be made at its call has its slot before the reach of the narrowed time or not
before the slot of `now`. The reach is the slot of `now` exactly below `2 ^ 31` ms of
uptime. -/
theorem emptied_iff {start now : Int} {as bs : List TimerAction} {st₀ st : TimerState}
    (hrun₀ : run step (init start) as = some st₀)
    (hA₀ : AllSteps step Admissible (init start) as)
    (hrun : run step st₀ (.Processing now :: bs) = some st)
    (hA : AllSteps step Admissible st₀ (.Processing now :: bs))
    (hbs : ∀ t, .Processing t ∉ bs) (hidle : st.pc = .idle) :
    ((∀ key l, Chain st.mgr.next (st.mgr.head key) l → key < (now - start) / 20 → l = []) ↔
      ∀ (i k : Nat) (c : StartCall), st₀.calls[i]? = some c → hits i st₀.trace ≤ k →
        c.Allows k → reach start now ≤ c.slot start k → (now - start) / 20 ≤ c.slot start k) ∧
    (reach start now = (now - start) / 20 ↔ now - start < 2147483648) := by
  obtain ⟨lists₀, phase₀, hsim₀, -⟩ := run_plan (I := fun _ => True) trivial
    (fun _ _ _ => trivial) hrun₀ (fitting_of_admissible hA₀)
  rw [run_cons] at hrun
  obtain ⟨st₁, hst₁, hrun⟩ := Option.bind_eq_some_iff.mp hrun
  obtain ⟨hAfirst, hArest⟩ := (allSteps_cons hst₁).mp (fitting_of_admissible hA)
  obtain ⟨lists₁, phase₁, hplan₁, hsim₁⟩ := hsim₀.step hAfirst hst₁
  obtain ⟨lists, phase, hsim, hsince⟩ := Sim.run_plan
    (C := fun a => ∀ t, a ≠ .Processing t) (I := Plan.Since start now (st₀.plan phase₀))
    (fun hinv hI hC hplan => hI.step hinv hC hplan) hsim₁ hplan₁.since
    (fun a ha t heq => hbs t (heq ▸ ha)) hrun hArest
  have hpc : (st.plan phase).pc = .idle := by
    show st.pc.plan st.mgr = _
    rw [hidle]
    rfl
  have hcursor : reach start now ≤ st.mgr.m_nCursor := by
    refine hsince.returned ?_
    rw [hpc]
    rfl
  have hstart : start ≤ now := hplan₁.start_le hsim₀.inv
  refine ⟨⟨fun hempty i k c hc hge hallows hreach => ?_, fun hnone key l hl hkey => ?_⟩,
    reach_eq_iff hstart⟩
  · have hc' := hsince.kept i c hc
    have hfired := (hsince.fired i c hc).2 k hge
    by_contra hlt
    -- The firing is not made, so its timer waits, in the slot of this firing or before.
    rcases hsim.inv.rest hpc hc' with ⟨hphase, -, -⟩ | hall
    · obtain ⟨p, hp, -⟩ := hsim.holds.covered hc' hphase
      have hle : hits i st.trace ≤ k := by
        by_contra hmade
        have := hfired (Nat.lt_of_not_le hmade)
        omega
      have hslot : c.slot start (hits i st.trace) ≤ c.slot start k :=
        StartCall.slot_mono (hsim.inv.bounded hc') hle
      have hnil := hempty _ _ (hsim.holds.rep.chain (c.slot start (hits i st.trace))) (by omega)
      have hp : p ∈ lists (c.slot start (hits i st.trace)) := hp
      rw [hnil] at hp
      cases hp
    · have := hfired (hall k hallows)
      omega
  · have hlists : l = lists key := hl.unique (hsim.holds.rep.chain key)
    refine List.eq_nil_iff_forall_not_mem.mpr fun p hp => ?_
    obtain ⟨c, h, hc, hphase, -, hslot⟩ := hsim.holds.waiting (hlists ▸ hp)
    have hplaced := hsim.inv.placed hc
    rw [show (st.plan phase).phase _ = .waiting h from hphase] at hplaced
    have hhits : hits (st.mgr.node p).call st.trace = h := hsim.inv.hits_waiting hc hphase
    have hge : reach start now ≤ c.slot start h := Int.le_trans hcursor hplaced.2
    rcases hsince.fresh _ c hc with hold | hnew
    · have hle := (hsince.fired _ c hold).1
      have := hnone _ h c hold (hhits ▸ hle) hplaced.1 hge
      omega
    · have := StartCall.slot_mono (hsim.inv.bounded hc) (Nat.zero_le h)
      omega

/-- A timer is called in time, and nothing is left behind. -/
theorem emptied_once :
    ∃ st₀ st, run step (init 0) [.StartTimer 5 1 7 100 0 2] = some st₀ ∧
      run step st₀ [.Processing 30, .go, .go, .go, .go, .go, .go] = some st ∧
      ∀ key l, Chain st.mgr.next (st.mgr.head key) l → key < (30 - 0) / 20 → l = [] := by
  obtain ⟨st₀, st, hst₀, hst, hpc⟩ : ∃ st₀ st,
      run step (init 0) [.StartTimer 5 1 7 100 0 2] = some st₀ ∧
      run step st₀ [.Processing 30, .go, .go, .go, .go, .go, .go] = some st ∧
      st.pc = .idle := ⟨_, _, rfl, rfl, rfl⟩
  refine ⟨st₀, st, hst₀, hst, (emptied_iff hst₀ (by decide) hst ?_ ?_ hpc).1.mpr ?_⟩
  · have hA : AllSteps step Admissible (init 0) (.StartTimer 5 1 7 100 0 2 ::
        [.Processing 30, .go, .go, .go, .go, .go, .go]) := by decide
    exact ((allSteps_cons ((run_singleton _ _).symm.trans hst₀)).mp hA).2
  · intro t ht
    simp at ht
  · intro i k c hc hge hallows hreach
    exact hreach

/-- Behind `2 ^ 31` ms of uptime a `Processing` returns at once, and a timer that is due stays
in its slot. -/
theorem overdue_stays :
    ∃ st, run step (init 0) [.StartTimer 2147483600 1 7 100 0 (-1), .Processing 2147483648, .go]
        = some st ∧ st.pc = .idle ∧ st.mgr.node 0 = { TimeNode.zero with
          m_byStatus := .TIMER_STATUS_RUN
          m_nID := 1
          m_nInterval := 100
          m_nMaxHitCount := -1
          m_lNextRunTick := 2147483600
          m_pTimer := 7 } ∧
      Chain st.mgr.next (st.mgr.head 107374180) [0] ∧ 107374180 < (2147483648 - 0) / 20 :=
  ⟨_, rfl, rfl, rfl, .cons .nil, by decide⟩

end TimerState

end Kernel4GameServer
