import Kernel4GameServer.Proofs.Timermgr.Schedule
import Kernel4GameServer.Timermgr.Firing

/-!
# `Kernel4GameServer.Proofs.Timermgr.Arguments`: the arguments of `StartTimer`

`IKernel::StartTimer` takes `interval`, `delay` and `loop` as `s64`, and so does
`Timermgr::StartTimer`, which checks the interval before it is narrowed. `SetTimer` takes all
three as `s32`.

`Timermgr.honours_iff` is the main result: where the slot numbers fit, a timer keeps its
arguments exactly when the delay is below `2 ^ 31` ms, and the interval too unless it is never
used. The loop count is never too large, because that many slots do not fit.
`Timermgr.delay_wraps` is a timer that fires 49 days early. `TimerState.due_of_waiting` says
of the runs of the manager what `Fired` says of one node.
-/

set_option autoImplicit false

namespace Kernel4GameServer

open Lib

/-- Exactly the values of `s32` stay as they are. -/
theorem s32_eq_iff {x : Int} (h : 0 ≤ x) : s32 x = x ↔ x < 2147483648 := by
  constructor
  · intro heq
    have hrange := s32_range x
    omega
  · intro hlt
    exact s32_of_range (by omega) hlt

/-- A quotient that truncates is the number in units of the divisor, up to one. -/
theorem tdiv_bounds (x : Int) : 20 * x.tdiv 20 - 20 < x ∧ x < 20 * x.tdiv 20 + 20 := by
  rcases Int.le_total 0 x with hpos | hneg
  · rw [Int.tdiv_eq_ediv_of_nonneg hpos]
    omega
  · have hdiv : x.tdiv 20 = -(-x / 20) := by
      rw [← Int.tdiv_eq_ediv_of_nonneg (by omega), Int.neg_tdiv, Int.neg_neg]
    omega

namespace Timermgr

variable {m₀ m m' : Timermgr} {p k : Nat}

/-- What `k` firings make of a node. -/
theorem Fired.node (h : Fired m₀ p k m) :
    (m.node p).m_nInterval = (m₀.node p).m_nInterval ∧
    (m.node p).m_nHitCount = (m₀.node p).m_nHitCount + k ∧
    (m.node p).m_nMaxHitCount = (m₀.node p).m_nMaxHitCount ∧
    (m.node p).m_lNextRunTick = (m₀.node p).m_lNextRunTick + k * (m₀.node p).m_nInterval := by
  induction h with
  | started => simp
  | OnTimer h hends ih =>
      rename_i k m
      obtain ⟨hinterval, hhit, hmax, hnext⟩ := ih
      have hnode : ((m.setNode p (m.node p).hit).ResetTimeNode p).node p
          = { (m.node p).hit with
              m_pNext := (((m.setNode p (m.node p).hit).ResetTimeNode p).node p).m_pNext } := by
        unfold ResetTimeNode
        rw [node_SlotAdd, if_pos rfl, node_setNode_self]
      rw [hnode]
      have hmul : ((k + 1 : Nat) : Int) * (m₀.node p).m_nInterval
          = k * (m₀.node p).m_nInterval + (m₀.node p).m_nInterval := by
        rw [Int.natCast_succ, Int.add_mul, Int.one_mul]
      refine ⟨hinterval, ?_, hmax, ?_⟩
      · show (m.node p).m_nHitCount + 1 = _
        omega
      · show (m.node p).m_lNextRunTick + (m.node p).m_nInterval = _
        omega
  | other h hsame ih =>
      obtain ⟨hinterval, hhit, hmax, hnext⟩ := ih
      exact ⟨hsame.interval.trans hinterval, hsame.hitCount.trans hhit,
        hsame.maxHitCount.trans hmax, hsame.nextRunTick.trans hnext⟩

/-- The node that `StartTimer` creates has the narrowed arguments. -/
theorem StartTimer_node {call : Nat} {now id : Int} {timer : Nat} {interval delay loop : Int}
    (hm : m.StartTimer call now id timer interval delay loop = some m') :
    ∃ p m₁, m.SetTimer call now id timer (s32 interval) (s32 loop) (s32 delay) = some (p, m₁) ∧
      (m'.node p).m_nInterval = s32 interval ∧ (m'.node p).m_nHitCount = 0 ∧
      (m'.node p).m_nMaxHitCount = s32 loop ∧ (m'.node p).m_lNextRunTick = now + s32 delay := by
  obtain ⟨⟨p, m₁⟩, hset, rfl⟩ := Option.map_eq_some_iff.mp hm
  have hnode : m₁.node p
      = .Initialize call now id timer (s32 interval) (s32 loop) (s32 delay) := by
    obtain ⟨r, -, hr⟩ := Option.map_eq_some_iff.mp hset
    obtain ⟨rfl, rfl⟩ := Prod.mk.inj hr
    exact node_setNode_self _ _ _
  have hreset : (m₁.ResetTimeNode p).node p
      = { m₁.node p with m_pNext := ((m₁.ResetTimeNode p).node p).m_pNext } := by
    unfold ResetTimeNode
    rw [node_SlotAdd, if_pos rfl]
  refine ⟨p, m₁, hset, ?_⟩
  rw [hreset, hnode]
  exact ⟨rfl, rfl, rfl, rfl⟩

/-- A loop count whose slots all fit is an `s32`. -/
theorem SlotsFit.loop_lt {start now interval delay loop : Int}
    (h : SlotsFit start now interval delay loop) (hi : 100 ≤ interval) (hl : 1 ≤ loop) :
    loop < 2147483648 := by
  obtain ⟨hge, -⟩ := h 0 (by omega)
  obtain ⟨-, hlt⟩ := h (loop - 1).toNat (by omega)
  have hcast : (((loop - 1).toNat : Nat) : Int) = loop - 1 := Int.toNat_of_nonneg (by omega)
  rw [hcast] at hlt
  -- The slots are at least five apart.
  have hmul : (loop - 1) * 100 ≤ (loop - 1) * interval :=
    Int.mul_le_mul_of_nonneg_left hi (by omega)
  have hfirst := tdiv_bounds (now + delay + (0 : Nat) * interval - start)
  have hlast := tdiv_bounds (now + delay + (loop - 1) * interval - start)
  rw [Int.natCast_zero, Int.zero_mul] at hge hfirst
  omega

/-- A timer keeps the arguments of `StartTimer` exactly when the delay is below `2 ^ 31` ms, and
the interval too or there is only one firing. -/
theorem honours_iff {call : Nat} {now id : Int} {timer : Nat} {interval delay loop : Int}
    (hm : m.StartTimer call now id timer interval delay loop = some m') (hi : 100 ≤ interval)
    (hd : 0 ≤ delay) (hl : 1 ≤ loop)
    (hslots : SlotsFit m.m_lStartRunTick now interval delay loop) :
    ∃ p m₁, m.SetTimer call now id timer (s32 interval) (s32 loop) (s32 delay) = some (p, m₁) ∧
      (m'.Honours p now interval delay loop ↔
        delay < 2147483648 ∧ (loop = 1 ∨ interval < 2147483648)) := by
  obtain ⟨p, m₁, hset, hinterval, hhit, hmax, hnext⟩ := StartTimer_node hm
  -- The slots fit, so the loop count survives the narrowing.
  have hloop : s32 loop = loop := (s32_eq_iff (by omega)).mpr (hslots.loop_lt hi hl)
  rw [hloop] at hmax
  refine ⟨p, m₁, hset, ?_⟩
  have hends : ∀ {k m}, Fired m' p k m → ((m.node p).hit.Ends ↔ (k : Int) + 1 = loop) := by
    intro k m h
    obtain ⟨-, hk, hmax', -⟩ := h.node
    show (m.node p).m_nHitCount + 1 = (m.node p).m_nMaxHitCount ∧
      (m.node p).m_nMaxHitCount ≠ LOOP_FOREVER ↔ _
    unfold LOOP_FOREVER
    omega
  constructor
  · intro h
    have hfirst := h.due 0 m' .started
    rw [hnext, Int.natCast_zero, Int.zero_mul] at hfirst
    refine ⟨(s32_eq_iff hd).mp (by omega), ?_⟩
    by_cases hone : loop = 1
    · exact .inl hone
    · -- The first firing does not end the timer, and its next tick is that of the interval.
      have hfired : Fired m' p 1 _ := .OnTimer .started (by rw [hends .started]; omega)
      have hsecond := h.due 1 _ hfired
      rw [hfired.node.2.2.2, hnext, hinterval] at hsecond
      exact .inr ((s32_eq_iff (by omega)).mp (by omega))
  · rintro ⟨hdelay, hinterval'⟩
    -- No timer fires after it has ended, which is at firing `loop`.
    have hlt : ∀ {k m}, Fired m' p k m → (k : Int) < loop := by
      intro k m h
      induction h with
      | started => omega
      | OnTimer h hnot ih =>
          rw [hends h] at hnot
          omega
      | other h hsame ih => exact ih
    refine ⟨fun k m h => ?_, fun k m h => hends h⟩
    rw [h.node.2.2.2, hnext, hinterval, (s32_eq_iff hd).mpr hdelay]
    rcases hinterval' with hone | hinterval'
    · obtain rfl : k = 0 := by
        have := hlt h
        omega
      simp
    · rw [(s32_eq_iff (by omega)).mpr hinterval']

/-- A timer with two firings at most 100 ms apart keeps its arguments. -/
theorem honours_twice :
    ∃ (m' : Timermgr) (p : Nat) (m₁ : Timermgr),
      (Timermgr.init 0).SetTimer 0 5 1 7 100 2 30 = some (p, m₁) ∧ m'.Honours p 5 100 30 2 := by
  have hslots : SlotsFit 0 5 100 30 2 := by
    intro k hk
    have hcases : k = 0 ∨ k = 1 := by omega
    rcases hcases with rfl | rfl <;> decide
  obtain ⟨m', hm'⟩ : ∃ m', (Timermgr.init 0).StartTimer 0 5 1 7 100 30 2 = some m' := ⟨_, rfl⟩
  obtain ⟨p, m₁, hset, hiff⟩ := honours_iff hm' (by decide) (by decide) (by decide) hslots
  exact ⟨m', p, m₁, hset, hiff.mpr ⟨by decide, .inr (by decide)⟩⟩

/-- A timer with a delay of `2 ^ 32` ms, which is over 49 days, fires in the first
`Processing`. -/
theorem delay_wraps :
    ∃ (m' : Timermgr) (st : TimerState),
      (Timermgr.init 0).StartTimer 0 0 1 7 100 4294967296 1 = some m' ∧
      SlotsFit 0 0 100 4294967296 1 ∧ (m'.node 0).m_nID = 1 ∧
      ¬ m'.Honours 0 0 100 4294967296 1 ∧
      run TimerState.step (TimerState.init 0)
        [.StartTimer 0 1 7 100 4294967296 1, .Processing 20, .go, .go, .go] = some st ∧
      st.trace = [.StartTimer 0, .Processing 20, .OnStart 0 20, .OnTime 0 20] := by
  refine ⟨_, _, rfl, ?_, rfl, fun h => ?_, rfl, rfl⟩
  · intro k hk
    obtain rfl : k = 0 := by omega
    decide
  · have hdue := h.due 0 _ .started
    exact absurd hdue (by decide)

end Timermgr

namespace TimerState

/-- The due ticks of the timers of a run. Where the arguments are in range, a node in a slot is
that of a call, it counts the firings of this call so far, and its next tick is `delay` behind
the time of the call and `interval` more for each of them. -/
theorem due_of_waiting {start : Int} {as : List TimerAction} {st : TimerState}
    (hrun : run step (init start) as = some st) (hF : AllSteps step Fitting (init start) as)
    {key : Int} {l : List Nat} {p : Nat} (hl : Chain st.mgr.next (st.mgr.head key) l)
    (hp : p ∈ l) :
    ∃ c, st.calls[(st.mgr.node p).call]? = some c ∧
      (st.mgr.node p).m_nHitCount = hits (st.mgr.node p).call st.trace ∧
      (st.mgr.node p).m_lNextRunTick = c.due (hits (st.mgr.node p).call st.trace) := by
  obtain ⟨lists, phase, hsim, -⟩ := run_plan (I := fun _ => True) trivial
    (fun _ _ _ => trivial) hrun hF
  rw [hl.unique (hsim.holds.rep.chain key)] at hp
  obtain ⟨c, k, hc, hphase, his, -⟩ := hsim.holds.waiting hp
  have hhits : hits (st.mgr.node p).call st.trace = k := hsim.inv.hits_waiting hc hphase
  rw [hhits]
  exact ⟨c, hc, his.hitCount, his.nextRunTick⟩

end TimerState

end Kernel4GameServer
