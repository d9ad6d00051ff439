import Kernel4GameServer.Proofs.Timermgr.Nodes

/-!
# `Kernel4GameServer.Proofs.Timermgr.Refine`: the timer manager keeps to the plan

`Sim` relates a state of the timer manager to a plan: `Holds` for the memory, `TimerPc.Fits`
for the callback that runs. `Sim.step` shows that every step of the timer manager is a step
of the plan. There is one lemma for each part of the code:

- `Sim.startTimer`, `Sim.killTimer` and `Sim.processing` for the calls of the user;
- `Sim.goCursor` and `Sim.goSlot` for the loop heads, `Sim.goStarted`, `Sim.goHit` and
  `Sim.goTerminated` for the parts of `OnTimer`.

`Sim.go_isSome` is the other direction for the code itself: inside of `Processing` it never
gets stuck.
-/

set_option autoImplicit false

namespace Kernel4GameServer

open Lib

/-- The callback of the node at `p` runs. -/
def TimerPc.Running (pc : TimerPc) (p : Nat) : Prop :=
  match pc with
  | .idle => False
  | .cursor _ _ => False
  | .slot _ _ => False
  | .onStart _ _ q => q = p
  | .onTime _ _ q => q = p
  | .onTerminate _ _ q => q = p

/-- The place of the plan: a callback is one of a call. -/
def TimerPc.plan (m : Timermgr) : TimerPc → PlanPc
  | .idle => .idle
  | .cursor lTick nCursor => .cursor lTick nCursor
  | .slot lTick nCursor => .slot lTick nCursor
  | .onStart lTick nCursor p => .callback lTick nCursor (m.node p).call
  | .onTime lTick nCursor p => .callback lTick nCursor (m.node p).call
  | .onTerminate lTick nCursor p => .callback lTick nCursor (m.node p).call

/-- The place of the plan depends on the call of the running node only. -/
theorem TimerPc.plan_congr {m m' : Timermgr} {pc : TimerPc}
    (h : ∀ p, pc.Running p → (m'.node p).call = (m.node p).call) : pc.plan m' = pc.plan m := by
  cases pc with
  | idle => rfl
  | cursor lTick nCursor => rfl
  | slot lTick nCursor => rfl
  | onStart lTick nCursor p => rw [plan, plan, h p rfl]
  | onTime lTick nCursor p => rw [plan, plan, h p rfl]
  | onTerminate lTick nCursor p => rw [plan, plan, h p rfl]

/-- The node whose callback runs is that of its call, and the slot it came from is still in
the map. -/
def TimerPc.Fits (m : Timermgr) (calls : List StartCall) (phase : Nat → Phase) :
    TimerPc → Prop
  | .idle => True
  | .cursor _ _ => True
  | .slot _ _ => (m.m_oTimeSlotMap m.m_nCursor).isSome = true
  | .onStart _ _ p => (m.m_oTimeSlotMap m.m_nCursor).isSome = true ∧ ∃ c,
      calls[(m.node p).call]? = some c ∧ phase (m.node p).call = .starting ∧ (m.node p).Is c 0
  | .onTime _ _ p => (m.m_oTimeSlotMap m.m_nCursor).isSome = true ∧ ∃ c h,
      calls[(m.node p).call]? = some c ∧ phase (m.node p).call = .firing h ∧ (m.node p).Is c h
  | .onTerminate _ _ p => (m.m_oTimeSlotMap m.m_nCursor).isSome = true ∧ ∃ c,
      calls[(m.node p).call]? = some c ∧ phase (m.node p).call = .ending

/-- The running node fits when it is not written, its slot stays in the map, and its call
keeps its phase. -/
theorem TimerPc.Fits.mono {m m' : Timermgr} {calls calls' : List StartCall}
    {phase phase' : Nat → Phase} {pc : TimerPc} (h : pc.Fits m calls phase)
    (hslot : (m.m_oTimeSlotMap m.m_nCursor).isSome = true →
      (m'.m_oTimeSlotMap m'.m_nCursor).isSome = true)
    (hnode : ∀ p, pc.Running p → m'.node p = m.node p)
    (hcalls : ∀ (i : Nat) (c : StartCall), calls[i]? = some c → calls'[i]? = some c)
    (hphase : ∀ p, pc.Running p → phase' (m.node p).call = phase (m.node p).call) :
    pc.Fits m' calls' phase' := by
  cases pc with
  | idle => trivial
  | cursor lTick nCursor => trivial
  | slot lTick nCursor => exact hslot h
  | onStart lTick nCursor p =>
      obtain ⟨hin, c, hc, hp, his⟩ := h
      rw [← hphase p rfl] at hp
      rw [← hnode p rfl] at hc hp his
      exact ⟨hslot hin, c, hcalls _ _ hc, hp, his⟩
  | onTime lTick nCursor p =>
      obtain ⟨hin, c, k, hc, hp, his⟩ := h
      rw [← hphase p rfl] at hp
      rw [← hnode p rfl] at hc hp his
      exact ⟨hslot hin, c, k, hcalls _ _ hc, hp, his⟩
  | onTerminate lTick nCursor p =>
      obtain ⟨hin, c, hc, hp⟩ := h
      rw [← hphase p rfl] at hp
      rw [← hnode p rfl] at hc hp
      exact ⟨hslot hin, c, hcalls _ _ hc, hp⟩

/-- The user runs in the plan where it runs in the code. -/
theorem TimerPc.user_plan (m : Timermgr) (pc : TimerPc) : (pc.plan m).user = pc.user := by
  cases pc <;> rfl

/-- The node of a call behind a firing is that before the next. -/
theorem TimeNode.Is.hit {n : TimeNode} {c : StartCall} {h : Nat} (his : n.Is c h) :
    n.hit.Is c (h + 1) where
  status := his.status
  interval := his.interval
  hitCount := by
    show n.m_nHitCount + 1 = _
    rw [his.hitCount]
    rfl
  maxHitCount := his.maxHitCount
  nextRunTick := by
    show n.m_lNextRunTick + n.m_nInterval = _
    rw [his.nextRunTick, his.interval, c.due_succ]

namespace TimerState

/-- The plan of a state. -/
def plan (st : TimerState) (phase : Nat → Phase) : Plan where
  calls := st.calls
  phase := phase
  cursor := st.mgr.m_nCursor
  pc := st.pc.plan st.mgr
  clock := st.clock
  trace := st.trace

/-- The state is one of the plan with these phases. -/
structure Sim (start : Int) (st : TimerState) (lists : Int → List Nat) (phase : Nat → Phase) :
    Prop where
  holds : Timermgr.Holds start st.mgr lists st.pc.Running st.calls phase
  fits : st.pc.Fits st.mgr st.calls phase
  inv : (st.plan phase).Inv start

variable {start : Int} {st st' : TimerState} {lists : Int → List Nat} {phase : Nat → Phase}

/-- The state behind `Initialize()`. -/
theorem init_sim (start : Int) :
    Sim start (init start) (fun _ => []) (Plan.init start).phase where
  holds := .init start _
  fits := trivial
  inv := Plan.init_inv start

/-- When the slot of the cursor has no head, no timer waits there. -/
theorem Sim.empty (h : Sim start st lists phase)
    (hhead : st.mgr.head st.mgr.m_nCursor = none) : (st.plan phase).Empty start := by
  intro i c k hc hk hslot
  obtain ⟨p, hp, -⟩ := h.holds.covered hc hk
  have hslot : c.slot start k = st.mgr.m_nCursor := hslot
  rw [hslot, h.holds.rep.list_eq_nil hhead] at hp
  cases hp

/-- `Processing` at the head of the loop over the slots. -/
theorem Sim.goCursor (h : Sim start st lists phase) {lTick nCursor : Int}
    (hpc : st.pc = .cursor lTick nCursor) :
    Plan.Step start (st.plan phase) .go ((st.goCursor lTick nCursor).plan phase) ∧
      Sim start (st.goCursor lTick nCursor) lists phase := by
  obtain ⟨m, pc, clock, calls, trace⟩ := st
  obtain rfl : pc = .cursor lTick nCursor := hpc
  unfold TimerState.goCursor
  split
  · rename_i hlt
    split
    · rename_i slot hslot
      have hstep : Plan.Step start
          (plan ⟨m, .cursor lTick nCursor, clock, calls, trace⟩ phase) .go _ :=
        .enter lTick nCursor rfl hlt
      refine ⟨hstep, h.holds, ?_, hstep.inv h.inv⟩
      show (m.m_oTimeSlotMap m.m_nCursor).isSome = true
      rw [show m.m_oTimeSlotMap m.m_nCursor = some slot from hslot]
      rfl
    · rename_i hslot
      have hhead : m.head m.m_nCursor = none := by
        unfold Timermgr.head
        rw [show m.m_oTimeSlotMap m.m_nCursor = none from hslot]
        rfl
      have hstep : Plan.Step start
          (plan ⟨m, .cursor lTick nCursor, clock, calls, trace⟩ phase) .go _ :=
        .skip lTick nCursor rfl hlt (h.empty hhead)
      exact ⟨hstep, h.holds.cursor _, trivial, hstep.inv h.inv⟩
  · rename_i hlt
    have hstep : Plan.Step start
        (plan ⟨m, .cursor lTick nCursor, clock, calls, trace⟩ phase) .go _ :=
      .stop lTick nCursor rfl hlt
    exact ⟨hstep, h.holds, trivial, hstep.inv h.inv⟩

/-- `TimeSlot::Run` at an empty slot. -/
theorem goSlot_leave {slot : TimeSlot}
    (hslot : st.mgr.m_oTimeSlotMap st.mgr.m_nCursor = some slot) (hhead : slot.m_pHead = none)
    (lTick nCursor : Int) :
    st.goSlot lTick nCursor = some { st with
      mgr := { st.mgr.setSlot st.mgr.m_nCursor none with m_nCursor := st.mgr.m_nCursor + 1 }
      pc := .cursor lTick nCursor } := by
  simp only [TimerState.goSlot, hslot, Option.map_some, hhead]

/-- `TimeSlot::Run` at a node that runs: `OnStart` when it never fired, `OnTime` else. -/
theorem goSlot_run {slot : TimeSlot} {p : Nat}
    (hrun : (st.mgr.node p).m_byStatus = .TIMER_STATUS_RUN)
    (hslot : st.mgr.m_oTimeSlotMap st.mgr.m_nCursor = some slot) (hhead : slot.m_pHead = some p)
    (lTick nCursor : Int) :
    st.goSlot lTick nCursor = some (
      if 0 = (st.mgr.node p).m_nHitCount then { st with
        mgr := st.mgr.setSlot st.mgr.m_nCursor
          (some { slot with m_pHead := (st.mgr.node p).m_pNext })
        pc := .onStart lTick nCursor p
        trace := st.trace ++ [.OnStart (st.mgr.node p).call lTick] }
      else { st with
        mgr := st.mgr.setSlot st.mgr.m_nCursor
          (some { slot with m_pHead := (st.mgr.node p).m_pNext })
        pc := .onTime lTick nCursor p
        trace := st.trace ++ [.OnTime (st.mgr.node p).call lTick] }) := by
  simp only [TimerState.goSlot, hslot, Option.map_some, hhead, hrun]

/-- `TimeSlot::Run` at the head of its loop. -/
theorem Sim.goSlot (h : Sim start st lists phase) {lTick nCursor : Int}
    (hpc : st.pc = .slot lTick nCursor) (hgo : st.goSlot lTick nCursor = some st') :
    ∃ lists' phase', Plan.Step start (st.plan phase) .go (st'.plan phase') ∧
      Sim start st' lists' phase' := by
  obtain ⟨m, pc, clock, calls, trace⟩ := st
  obtain rfl : pc = .slot lTick nCursor := hpc
  have hfits : (m.m_oTimeSlotMap m.m_nCursor).isSome = true := h.fits
  obtain ⟨slot, hslot⟩ := Option.isSome_iff_exists.mp hfits
  cases hhead : slot.m_pHead with
  | none =>
      have hnone : m.head m.m_nCursor = none := by
        unfold Timermgr.head
        rw [hslot]
        exact hhead
      rw [goSlot_leave hslot hhead] at hgo
      obtain rfl := Option.some.inj hgo
      have hstep : Plan.Step start
          (plan ⟨m, .slot lTick nCursor, clock, calls, trace⟩ phase) .go _ :=
        .leave lTick nCursor rfl (h.empty hnone)
      exact ⟨lists, phase, hstep, (h.holds.erase hnone).cursor _, trivial, hstep.inv h.inv⟩
  | some p =>
      -- The node is that of a call that waits for a firing in this slot.
      have hloose : ∀ q, p = q ↔ q = p ∨ (TimerPc.slot lTick nCursor).Running q :=
        fun q => by simp [TimerPc.Running, eq_comm]
      have hpop := fun x hx => h.holds.pop (x := x) hslot hhead hx hloose
      have hp : p ∈ lists m.m_nCursor := (hpop .starting (fun _ h => by cases h)).1
      obtain ⟨c, k, hc, hk, his, hkey⟩ := h.holds.waiting hp
      have hin : ((m.setSlot m.m_nCursor
          (some { slot with m_pHead := (m.node p).m_pNext })).m_oTimeSlotMap
            m.m_nCursor).isSome = true := by
        simp [Timermgr.setSlot]
      rw [goSlot_run his.status hslot hhead, his.hitCount] at hgo
      rcases Nat.eq_zero_or_pos k with rfl | hpos
      · rw [if_pos (by omega)] at hgo
        obtain rfl := Option.some.inj hgo
        obtain ⟨-, lists', hholds⟩ := hpop .starting (fun _ h => by cases h)
        have hstep : Plan.Step start
            (plan ⟨m, .slot lTick nCursor, clock, calls, trace⟩ phase) .go _ :=
          .first lTick nCursor _ c rfl hc hk hkey
        refine ⟨lists', Function.update phase (m.node p).call .starting, hstep, hholds, ?_,
          hstep.inv h.inv⟩
        exact ⟨hin, c, hc, Function.update_self _ _ _, his⟩
      · rw [if_neg (by omega)] at hgo
        obtain rfl := Option.some.inj hgo
        obtain ⟨-, lists', hholds⟩ := hpop (.firing k) (fun _ h => by cases h)
        have hstep : Plan.Step start
            (plan ⟨m, .slot lTick nCursor, clock, calls, trace⟩ phase) .go _ :=
          .pick lTick nCursor _ c k rfl hc hk hpos hkey
        refine ⟨lists', Function.update phase (m.node p).call (.firing k), hstep, hholds, ?_,
          hstep.inv h.inv⟩
        exact ⟨hin, c, k, hc, Function.update_self _ _ _, his⟩

/-- `OnTimer` behind `OnStart`. -/
theorem Sim.goStarted (h : Sim start st lists phase) {lTick nCursor : Int} {p : Nat}
    (hpc : st.pc = .onStart lTick nCursor p) :
    ∃ phase', Plan.Step start (st.plan phase) .go ((st.goStarted lTick nCursor p).plan phase') ∧
      Sim start (st.goStarted lTick nCursor p) lists phase' := by
  obtain ⟨m, pc, clock, calls, trace⟩ := st
  obtain rfl : pc = .onStart lTick nCursor p := hpc
  obtain ⟨hin, c, hc, hphase, his⟩ := h.fits
  have hstep : Plan.Step start
      (plan ⟨m, .onStart lTick nCursor p, clock, calls, trace⟩ phase) .go _ :=
    .started lTick nCursor _ c rfl hc hphase
  refine ⟨Function.update phase (m.node p).call (.firing 0), hstep, ?_, ?_, hstep.inv h.inv⟩
  · exact h.holds.setPhase rfl rfl fun _ h => by cases h
  · exact ⟨hin, c, 0, hc, Function.update_self _ _ _, his⟩

/-- `OnTimer` behind `OnTime`. -/
theorem Sim.goHit (h : Sim start st lists phase) {lTick nCursor : Int} {p : Nat}
    (hpc : st.pc = .onTime lTick nCursor p) :
    ∃ lists' phase',
      Plan.Step start (st.plan phase) .go ((st.goHit lTick nCursor p).plan phase') ∧
        Sim start (st.goHit lTick nCursor p) lists' phase' := by
  obtain ⟨m, pc, clock, calls, trace⟩ := st
  obtain rfl : pc = .onTime lTick nCursor p := hpc
  obtain ⟨hin, c, k, hc, hphase, his⟩ := h.fits
  have hplaced := h.inv.placed hc
  rw [show (plan ⟨m, .onTime lTick nCursor p, clock, calls, trace⟩ phase).phase _ = .firing k
    from hphase] at hplaced
  obtain ⟨hallows, hslot, -⟩ := hplaced
  obtain ⟨-, hup, hn, hlt⟩ := h.inv.timed
  have hbounded := h.inv.bounded hc
  have hself : (m.setNode p (m.node p).hit).node p = (m.node p).hit :=
    Timermgr.node_setNode_self m p _
  have hholds : Timermgr.Holds start (m.setNode p (m.node p).hit) lists (p = ·) calls phase :=
    h.holds.setNode rfl rfl
  have hhit := his.hit
  unfold TimerState.goHit
  dsimp only
  rw [hhit.hitCount, hhit.maxHitCount]
  split
  · rename_i hlast
    have hstep : Plan.Step start
        (plan ⟨m, .onTime lTick nCursor p, clock, calls, trace⟩ phase) .go
        (plan ⟨m.setNode p (m.node p).hit, .onTerminate lTick nCursor p, clock, calls,
            trace ++ [.OnTerminate (m.node p).call true lTick]⟩
          (Function.update phase (m.node p).call .ending)) := by
      have hlast' : Plan.Step start
          (plan ⟨m, .onTime lTick nCursor p, clock, calls, trace⟩ phase) .go _ :=
        .last lTick nCursor _ c k rfl hc hphase hlast.1
      have hpc : (TimerPc.onTerminate lTick nCursor p).plan (m.setNode p (m.node p).hit)
          = .callback lTick nCursor (m.node p).call :=
        TimerPc.plan_congr fun q hq => by obtain rfl : p = q := hq; rw [hself]; rfl
      unfold plan
      rw [hpc]
      exact hlast'
    refine ⟨lists, _, hstep, ?_, ?_, hstep.inv h.inv⟩
    · exact hholds.setPhase rfl (congrArg _ hself) fun _ h => by cases h
    refine ⟨hin, c, ?_, ?_⟩
    · rw [hself]
      exact hc
    · rw [hself]
      exact Function.update_self _ _ _
  · rename_i hagain
    have hloop : (k : Int) + 1 ≠ c.loop := by
      intro heq
      refine hagain ⟨heq, ?_⟩
      unfold LOOP_FOREVER
      omega
    have hstep : Plan.Step start
        (plan ⟨m, .onTime lTick nCursor p, clock, calls, trace⟩ phase) .go _ :=
      .again lTick nCursor _ c k rfl hc hphase hloop
    -- The next tick is within the range of the slots.
    have hdue : c.due (k + 1) = c.due k + c.interval := c.due_succ k
    have hreset : (m.setNode p (m.node p).hit).ResetTimeNode p
        = (m.setNode p (m.node p).hit).SlotAdd (c.slot start (k + 1)) p := by
      have hnext := hhit.nextRunTick
      have hnonneg : 0 ≤ m.m_nCursor := h.inv.cursor_nonneg
      have hcursor : c.slot start k = m.m_nCursor := hslot
      have hlt : m.m_nCursor < nCursor := hlt
      have hge := hbounded.interval_pos
      have hle := hbounded.interval_lt
      have hreach : 20 * nCursor < 2147483648 := hn ▸ reach_lt start lTick
      unfold StartCall.slot at hcursor ⊢
      rw [Timermgr.ResetTimeNode_eq hholds.started hholds.scale, hself, hnext]
      · rw [hself, hnext]
        omega
      · rw [hself, hnext]
        omega
    rw [hreset]
    refine ⟨Function.update lists (c.slot start (k + 1)) (p :: lists (c.slot start (k + 1))),
      _, hstep, ?_, ?_, hstep.inv h.inv⟩
    · refine hholds.link rfl (congrArg _ hself) hc (hself.symm ▸ hhit) fun q => ?_
      exact ⟨False.elim, fun hand => hand.2 hand.1.symm⟩
    · exact Timermgr.slot_SlotAdd _ _ _ _ hin

/-- `OnTimer` behind `OnTerminate`. -/
theorem Sim.goTerminated (h : Sim start st lists phase) {lTick nCursor : Int} {p : Nat}
    (hpc : st.pc = .onTerminate lTick nCursor p) :
    ∃ phase',
      Plan.Step start (st.plan phase) .go ((st.goTerminated lTick nCursor p).plan phase') ∧
        Sim start (st.goTerminated lTick nCursor p) lists phase' := by
  obtain ⟨m, pc, clock, calls, trace⟩ := st
  obtain rfl : pc = .onTerminate lTick nCursor p := hpc
  obtain ⟨hin, c, hc, hphase⟩ := h.fits
  have hstep : Plan.Step start
      (plan ⟨m, .onTerminate lTick nCursor p, clock, calls, trace⟩ phase) .go _ :=
    .ended lTick nCursor _ c rfl hc hphase
  unfold TimerState.goTerminated
  dsimp only
  rw [Timermgr.FindNode_eq (m := m) h.holds.unregistered]
  refine ⟨_, hstep, ?_, hin, hstep.inv h.inv⟩
  have hholds := h.holds.setPhase (x := .released) rfl rfl fun _ h => by cases h
  exact hholds.release rfl fun q => ⟨False.elim, fun hand => hand.2 hand.1.symm⟩

/-- The call that a `StartTimer` records is within its bounds. -/
theorem bounded_of_fitting {now id interval delay loop : Int} {timer : Nat}
    (hstart : st.mgr.m_lStartRunTick = start)
    (hA : st.Fitting (.StartTimer now id timer interval delay loop)) :
    StartCall.Bounded start ⟨now, id, timer, s32 interval, s32 delay, s32 loop⟩ := by
  obtain ⟨hge, hlt, hdelay, hdelay', hdue⟩ := hA
  rw [hstart] at hdue
  -- The arguments are in the range of `s32`.
  have hi : s32 interval = interval := s32_of_range (by omega) hlt
  have hd : s32 delay = delay := s32_of_range (by omega) hdelay'
  rw [hi, hd]
  exact ⟨hdue, hge, hlt, hdelay, hdelay'⟩

/-- What `StartTimer` does to the memory, at whatever time from the start on. -/
theorem Sim.started (h : Sim start st lists phase) {now id interval delay loop : Int}
    {timer : Nat} {m' : Timermgr}
    (hc : StartCall.Bounded start ⟨now, id, timer, s32 interval, s32 delay, s32 loop⟩)
    (hstart : start ≤ now)
    (hm' : st.mgr.StartTimer st.calls.length now id timer interval delay loop = some m') :
    (∃ lists', Timermgr.Holds start m' lists' st.pc.Running
      (st.calls ++ [⟨now, id, timer, s32 interval, s32 delay, s32 loop⟩])
      (Function.update phase st.calls.length (.waiting 0))) ∧
    st.pc.Fits m' (st.calls ++ [⟨now, id, timer, s32 interval, s32 delay, s32 loop⟩])
      (Function.update phase st.calls.length (.waiting 0)) ∧
    st.pc.plan m' = st.pc.plan st.mgr ∧ m'.m_nCursor = st.mgr.m_nCursor := by
  obtain ⟨hholds, hcursor, hnode, hslot⟩ := h.holds.StartTimer hc hstart rfl rfl rfl hm'
  have hrunning : ∀ p, st.pc.Running p → st.mgr.InUse p :=
    fun p hp => (h.holds.inUse p).mpr (.inr hp)
  refine ⟨hholds, ?_, TimerPc.plan_congr fun p hp => by rw [hnode p (hrunning p hp)], hcursor⟩
  refine h.fits.mono (fun hin => ?_) (fun p hp => hnode p (hrunning p hp))
    (fun i c hi => ?_) fun p hp => ?_
  · rw [hcursor]
    exact hslot _ hin
  · exact (List.getElem?_append_left (List.getElem?_eq_some_iff.mp hi).1).trans hi
  · exact Function.update_of_ne (Nat.ne_of_lt (h.holds.called (hrunning p hp))) _ _

/-- `StartTimer`. -/
theorem Sim.startTimer (h : Sim start st lists phase) {now id interval delay loop : Int}
    {timer : Nat} (hA : st.Fitting (.StartTimer now id timer interval delay loop))
    (hstep : st.step (.StartTimer now id timer interval delay loop) = some st') :
    ∃ lists' phase',
      Plan.Step start (st.plan phase) (.StartTimer now id timer interval delay loop)
          (st'.plan phase') ∧
        Sim start st' lists' phase' := by
  simp only [step] at hstep
  split at hstep
  · rename_i huser
    obtain ⟨m', hm', rfl⟩ := Option.map_eq_some_iff.mp hstep
    have hc := bounded_of_fitting h.holds.started hA
    obtain ⟨⟨lists', hholds⟩, hfits, hpc, hcursor⟩ :=
      h.started hc (Int.le_trans h.inv.start_le huser.2) hm'
    have hplan : Plan.Step start (st.plan phase)
        (.StartTimer now id timer interval delay loop)
        (plan ⟨m', st.pc, now,
            st.calls ++ [⟨now, id, timer, s32 interval, s32 delay, s32 loop⟩],
            st.trace ++ [.StartTimer st.calls.length]⟩
          (Function.update phase st.calls.length (.waiting 0))) := by
      have hplan' := Plan.Step.StartTimer (s := st.plan phase)
        ⟨now, id, timer, s32 interval, s32 delay, s32 loop⟩ interval delay loop
        ((TimerPc.user_plan _ _).trans huser.1) huser.2 hc
      unfold plan
      rw [hpc, hcursor]
      exact hplan'
    exact ⟨lists', _, hplan, hholds, hfits, hplan.inv h.inv⟩
  · cases hstep

/-- `KillTimer`: nothing but the event. -/
theorem Sim.killTimer (h : Sim start st lists phase) {id : Int} {timer : Nat}
    (hstep : st.step (.KillTimer id timer) = some st') :
    Plan.Step start (st.plan phase) (.KillTimer id timer) (st'.plan phase) ∧
      Sim start st' lists phase := by
  simp only [step, Timermgr.KillTimer, Timermgr.FindNode_eq h.holds.unregistered] at hstep
  split at hstep
  · rename_i huser
    obtain rfl := Option.some.inj hstep
    have hplan : Plan.Step start (st.plan phase) (.KillTimer id timer) _ :=
      .KillTimer id timer ((TimerPc.user_plan _ _).trans huser)
    exact ⟨hplan, h.holds, h.fits, hplan.inv h.inv⟩
  · cases hstep

/-- `Processing` up to its loop. -/
theorem Sim.processing (h : Sim start st lists phase) {now : Int}
    (hstep : st.step (.Processing now) = some st') :
    Plan.Step start (st.plan phase) (.Processing now) (st'.plan phase) ∧
      Sim start st' lists phase := by
  obtain ⟨m, pc, clock, calls, trace⟩ := st
  simp only [step] at hstep
  split at hstep
  · rename_i hidle
    obtain ⟨hpc, hclock⟩ := hidle
    obtain rfl : pc = .idle := hpc
    obtain rfl := Option.some.inj hstep
    have hplan : Plan.Step start (plan ⟨m, .idle, clock, calls, trace⟩ phase)
        (.Processing now) _ := .Processing now rfl hclock
    rw [Timermgr.target_eq (m := m) h.holds.started h.holds.scale]
    exact ⟨hplan, h.holds, trivial, hplan.inv h.inv⟩
  · cases hstep

/-- The steps that meet the contract are such that their slots fit. -/
theorem fitting_of_admissible {as : List TimerAction}
    (hA : AllSteps TimerState.step Admissible st as) : AllSteps TimerState.step Fitting st as := by
  refine allSteps_mono (fun st a hA => ?_) hA
  cases a with
  | StartTimer now id timer interval delay loop =>
      have hge : 100 ≤ interval := hA.1
      exact ⟨by omega, hA.2⟩
  | KillTimer id timer => trivial
  | Processing now => trivial
  | go => trivial

/-- Every step of the timer manager is a step of the plan. -/
theorem Sim.step (h : Sim start st lists phase) {a : TimerAction} (hA : st.Fitting a)
    (hstep : st.step a = some st') :
    ∃ lists' phase', Plan.Step start (st.plan phase) a (st'.plan phase') ∧
      Sim start st' lists' phase' := by
  cases a with
  | StartTimer now id timer interval delay loop => exact h.startTimer hA hstep
  | KillTimer id timer => exact ⟨lists, phase, h.killTimer hstep⟩
  | Processing now => exact ⟨lists, phase, h.processing hstep⟩
  | go =>
      have hstep : st.go = some st' := hstep
      unfold go at hstep
      split at hstep
      · cases hstep
      · rename_i lTick nCursor hpc
        obtain rfl := Option.some.inj hstep
        exact ⟨lists, phase, h.goCursor hpc⟩
      · rename_i lTick nCursor hpc
        exact h.goSlot hpc hstep
      · rename_i lTick nCursor p hpc
        obtain rfl := Option.some.inj hstep
        exact ⟨lists, h.goStarted hpc⟩
      · rename_i lTick nCursor p hpc
        obtain rfl := Option.some.inj hstep
        exact h.goHit hpc
      · rename_i lTick nCursor p hpc
        obtain rfl := Option.some.inj hstep
        exact ⟨lists, h.goTerminated hpc⟩

/-- The rule for a property of the plan: what every step of a plan keeps holds of every state
of the timer manager behind one for which it holds. `C` is what is known of the steps. -/
theorem Sim.run_plan {C : TimerAction → Prop} {I : Plan → Prop}
    (hstep : ∀ {s s' : Plan} {a : TimerAction}, s.Inv start → I s → C a →
      Plan.Step start s a s' → I s') :
    ∀ {as : List TimerAction} {st st' : TimerState} {lists : Int → List Nat}
      {phase : Nat → Phase}, Sim start st lists phase → I (st.plan phase) → (∀ a ∈ as, C a) →
      run TimerState.step st as = some st' → AllSteps TimerState.step Fitting st as →
      ∃ lists' phase', Sim start st' lists' phase' ∧ I (st'.plan phase') := by
  intro as
  induction as with
  | nil =>
      intro st st' lists phase hsim hI _ hrun _
      obtain rfl := Option.some.inj hrun
      exact ⟨lists, phase, hsim, hI⟩
  | cons a as ih =>
      intro st st' lists phase hsim hI hC hrun hA
      rw [run_cons] at hrun
      obtain ⟨t, ht, hrun⟩ := Option.bind_eq_some_iff.mp hrun
      obtain ⟨hAa, hAs⟩ := (allSteps_cons ht).mp hA
      obtain ⟨lists', phase', hplan, hsim'⟩ := hsim.step hAa ht
      have hI' := hstep hsim.inv hI (hC a List.mem_cons_self) hplan
      exact ih hsim' hI' (fun b hb => hC b (List.mem_cons_of_mem a hb)) hrun hAs

/-- The same for the states of a run from the start. -/
theorem run_plan {I : Plan → Prop} (hinit : I (Plan.init start))
    (hstep : ∀ {s s' : Plan} {a : TimerAction}, s.Inv start → I s → Plan.Step start s a s' → I s')
    {as : List TimerAction} (hrun : run TimerState.step (init start) as = some st)
    (hA : AllSteps TimerState.step Fitting (init start) as) :
    ∃ lists phase, Sim start st lists phase ∧ I (st.plan phase) :=
  Sim.run_plan (C := fun _ => True) (fun hinv hI _ hplan => hstep hinv hI hplan)
    (init_sim start) hinit (fun _ _ => trivial) hrun hA

/-- Inside of `Processing` the code never gets stuck. -/
theorem Sim.go_isSome (h : Sim start st lists phase) (hpc : st.pc ≠ .idle) :
    ∃ st', st.step .go = some st' := by
  show ∃ st', st.go = some st'
  unfold go
  split
  · rename_i hidle
    exact absurd hidle hpc
  · exact ⟨_, rfl⟩
  · rename_i lTick nCursor hslot
    have hfits := h.fits
    rw [hslot] at hfits
    obtain ⟨slot, hin⟩ := Option.isSome_iff_exists.mp hfits
    unfold TimerState.goSlot
    rw [hin]
    exact ⟨_, rfl⟩
  · exact ⟨_, rfl⟩
  · exact ⟨_, rfl⟩
  · exact ⟨_, rfl⟩

end TimerState

end Kernel4GameServer
