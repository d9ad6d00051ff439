import Kernel4GameServer.Lib.History
import Kernel4GameServer.Proofs.Kernel.LoopDrain

/-!
# `Kernel4GameServer.Proofs.Kernel.Loop`: no worker is starved by the loop

`loop_serves` and `loop_ends` draw the conclusions over whole runs. `Ending` says that behind a
`Shutdown` no further round begins.
-/

set_option autoImplicit false

namespace Kernel4GameServer

open Lib

namespace LoopState

variable {σ ε : Type} {m size : Nat} {c : LoopConfig} {onRecv : OnRecv σ ε}
  {s s' : LoopState σ ε m size}

/-! ### The end of the loop -/

/-- The main thread is in a round. -/
def inRound (s : LoopState σ ε m size) : Nat :=
  match s.pc with
  | .before | .head | .done => 0
  | _ => 1

/-- `Shutdown` has been called in the loop, which begins no round beyond the `r`-th. -/
structure Ending (r : Nat) (s : LoopState σ ε m size) : Prop where
  m_bShutdown : s.m_bShutdown = true
  begun : s.pc ≠ .before
  rounds : s.rounds + inRound s ≤ r

/-- A step of the main thread leaves `m_bShutdown` alone, and ends the loop where it is set. -/
theorem main_shutdown {now : Int} (h : s.main c onRecv now = some s') (hpc : s.pc ≠ .before) :
    s'.pc ≠ .before ∧ s'.m_bShutdown = s.m_bShutdown ∧
      (s'.pc = .done → s.m_bShutdown = true) ∧
      (s.m_bShutdown = true → s'.rounds + inRound s' ≤ s.rounds + inRound s) := by
  unfold LoopState.main at h
  unfold inRound
  cases hp : s.pc with
  | before => exact absurd hp hpc
  | head =>
      rw [hp] at h
      obtain rfl := Option.some.inj h
      dsimp only
      by_cases hs : s.m_bShutdown = true
      · rw [if_pos hs]
        exact ⟨by simp, rfl, fun _ => hs, fun _ => Nat.le_refl _⟩
      · rw [if_neg hs]
        exact ⟨by simp, rfl, by simp, fun hs' => absurd hs' hs⟩
  | deal | timers =>
      rw [hp] at h
      obtain rfl := Option.some.inj h
      exact ⟨by simp, rfl, by simp, fun _ => Nat.le_refl _⟩
  | handling i lTick event =>
      rw [hp] at h
      obtain rfl := Option.some.inj h
      rcases handle_cases c onRecv s i lTick event with ⟨d, -, heq⟩ | ⟨d, -, heq⟩
      all_goals
        rw [heq]
        exact ⟨by simp [setPipe, hp], rfl, by simp [setPipe, hp], by simp [setPipe, hp]⟩
  | visit i =>
      rw [hp] at h
      obtain rfl := Option.some.inj h
      dsimp only
      by_cases hlt : i < c.sNetThdCount
      · rw [if_pos hlt]
        exact ⟨by simp, rfl, by simp, fun _ => Nat.le_refl _⟩
      · rw [if_neg hlt]
        exact ⟨by simp, rfl, by simp, fun _ => Nat.le_refl _⟩
  | timed i lTick =>
      rw [hp] at h
      obtain rfl := Option.some.inj h
      dsimp only
      by_cases hout : c.share ≤ now - lTick
      · rw [if_pos hout]
        exact ⟨by simp, rfl, by simp, fun _ => Nat.le_refl _⟩
      · rw [if_neg hout]
        exact ⟨by simp, rfl, by simp, fun _ => Nat.le_refl _⟩
  | empty i lTick =>
      rw [hp] at h
      dsimp only at h
      split at h
      all_goals
        obtain rfl := Option.some.inj h
        exact ⟨by simp, rfl, by simp, fun _ => Nat.le_refl _⟩
  | read i lTick =>
      rw [hp] at h
      obtain ⟨q, -, rfl⟩ := Option.map_eq_some_iff.mp h
      exact ⟨by simp, rfl, by simp, fun _ => Nat.le_refl _⟩
  | reading i lTick =>
      rw [hp] at h
      obtain ⟨q, hq, rfl⟩ := Option.map_eq_some_iff.mp h
      dsimp only
      rcases read_cases hq c i lTick with ⟨-, -, hb, -, -⟩ | ⟨hb, -⟩ | ⟨e, -, hb, -, -⟩
      · rw [hb, nothing]
        cases c.engine with
        | epoller | iocper => exact ⟨by simp, rfl, by simp, fun _ => Nat.le_refl _⟩
      · rw [hb]
        exact ⟨by simp, rfl, by simp, fun _ => Nat.le_refl _⟩
      · rw [hb]
        exact ⟨by simp, rfl, by simp, fun _ => Nat.le_refl _⟩
  | done =>
      rw [hp] at h
      cases h

/-- Once the loop has begun it does not begin again. -/
theorem begun_step {a : LoopAction m} (hpc : s.pc ≠ .before) (h : s.step c onRecv a = some s') :
    s'.pc ≠ .before := by
  cases a with
  | main now => exact (main_shutdown h hpc).1
  | Add i event =>
      obtain ⟨q, -, rfl⟩ := Add_queue h
      exact hpc
  | produce i =>
      obtain ⟨q, -, rfl⟩ := Option.map_eq_some_iff.mp h
      exact hpc
  | received p piece | Shutdown =>
      obtain rfl := Option.some.inj h
      exact hpc

/-- Behind a `Shutdown` the loop stays on its way out. -/
theorem Ending.step {r : Nat} (he : s.Ending r) {a : LoopAction m}
    (h : s.step c onRecv a = some s') : s'.Ending r := by
  cases a with
  | main now =>
      obtain ⟨hbegun, hsame, -, hrounds⟩ := main_shutdown h he.begun
      exact ⟨hsame.trans he.m_bShutdown, hbegun, (hrounds he.m_bShutdown).trans he.rounds⟩
  | Add i event =>
      obtain ⟨q, -, rfl⟩ := Add_queue h
      exact ⟨he.m_bShutdown, he.begun, he.rounds⟩
  | produce i =>
      obtain ⟨q, -, rfl⟩ := Option.map_eq_some_iff.mp h
      exact ⟨he.m_bShutdown, he.begun, he.rounds⟩
  | received p piece =>
      obtain rfl := Option.some.inj h
      exact ⟨he.m_bShutdown, he.begun, he.rounds⟩
  | Shutdown =>
      obtain rfl := Option.some.inj h
      exact ⟨rfl, he.begun, he.rounds⟩

/-- `Shutdown` has been called in the run `as`, with the loop begun. -/
def Asked (c : LoopConfig) (onRecv : OnRecv σ ε) (s₀ : LoopState σ ε m size)
    (as : List (LoopAction m)) : Prop :=
  ∃ pre post t, as = pre ++ .Shutdown :: post ∧ run (step c onRecv) s₀ pre = some t ∧ t.pc ≠ .before

/-- The last action of a run is that call, or one of the actions in front of it. -/
theorem asked_snoc {s₀ : LoopState σ ε m size} {as : List (LoopAction m)} {a : LoopAction m}
    (h : run (step c onRecv) s₀ as = some s) :
    Asked c onRecv s₀ (as ++ [a]) ↔ Asked c onRecv s₀ as ∨ a = .Shutdown ∧ s.pc ≠ .before := by
  constructor
  · rintro ⟨pre, post, t, heq, ht, hpc⟩
    rcases split_snoc heq with ⟨rfl, rfl, -⟩ | ⟨post', -, rfl⟩
    · rw [h, Option.some.injEq] at ht
      exact .inr ⟨rfl, ht ▸ hpc⟩
    · exact .inl ⟨pre, post', t, rfl, ht, hpc⟩
  · rintro (⟨pre, post, t, rfl, ht, hpc⟩ | ⟨rfl, hpc⟩)
    · exact ⟨pre, post ++ [a], t, by simp, ht, hpc⟩
    · exact ⟨as, [], s, rfl, h, hpc⟩

/-- Where the loop has not begun, no call of `Shutdown` counts. -/
theorem not_asked {s₀ : LoopState σ ε m size} {as : List (LoopAction m)}
    (h : run (step c onRecv) s₀ as = some s) (hpc : s.pc = .before) : ¬ Asked c onRecv s₀ as := by
  rintro ⟨pre, post, t, rfl, ht, hbegun⟩
  obtain ⟨u, hu, hrest⟩ := run_append_some h
  rw [ht, Option.some.injEq] at hu
  exact run_invariant (fun _ _ _ hs hstep => begun_step hs hstep) (hu ▸ hbegun) hrest hpc

/-- In the loop `m_bShutdown` is set just when `Shutdown` was called in it. -/
theorem run_asked {s₀ : LoopState σ ε m size} (h₀ : s₀.pc = .before) {as : List (LoopAction m)}
    (h : run (step c onRecv) s₀ as = some s) (hpc : s.pc ≠ .before) :
    s.m_bShutdown = true ↔ Asked c onRecv s₀ as := by
  refine run_induction (fun as s => s.pc ≠ .before → (s.m_bShutdown = true ↔ Asked c onRecv s₀ as))
    (fun hno => absurd h₀ hno) ?_ h hpc
  intro as s a s' hrun ih hstep hbegun
  rw [asked_snoc hrun]
  by_cases hpc : s.pc = .before
  · -- `Loop` resets the flag.
    have hno := not_asked hrun hpc
    cases a with
    | main now =>
        replace hstep : s.main c onRecv now = some s' := hstep
        unfold LoopState.main at hstep
        rw [hpc] at hstep
        obtain rfl := Option.some.inj hstep
        simp [hno]
    | Add i event =>
        obtain ⟨q, -, rfl⟩ := Add_queue hstep
        exact absurd hpc hbegun
    | produce i =>
        obtain ⟨q, -, rfl⟩ := Option.map_eq_some_iff.mp hstep
        exact absurd hpc hbegun
    | received p piece | Shutdown =>
        obtain rfl := Option.some.inj hstep
        exact absurd hpc hbegun
  · rw [← ih hpc]
    cases a with
    | main now =>
        rw [(main_shutdown hstep hpc).2.1]
        simp
    | Add i event =>
        obtain ⟨q, -, rfl⟩ := Add_queue hstep
        simp [setQueue]
    | produce i =>
        obtain ⟨q, -, rfl⟩ := Option.map_eq_some_iff.mp hstep
        simp [setQueue]
    | received p piece =>
        obtain rfl := Option.some.inj hstep
        simp [setPipe]
    | Shutdown =>
        obtain rfl := Option.some.inj hstep
        simp [hpc]

/-- The loop is left only with the flag set. -/
theorem done_step {a : LoopAction m} (hd : s.pc = .done → s.m_bShutdown = true)
    (h : s.step c onRecv a = some s') : s'.pc = .done → s'.m_bShutdown = true := by
  intro hdone
  cases a with
  | Add i event =>
      obtain ⟨q, -, rfl⟩ := Add_queue h
      exact hd hdone
  | produce i =>
      obtain ⟨q, -, rfl⟩ := Option.map_eq_some_iff.mp h
      exact hd hdone
  | received p piece =>
      obtain rfl := Option.some.inj h
      exact hd hdone
  | Shutdown =>
      obtain rfl := Option.some.inj h
      rfl
  | main now =>
      by_cases hpc : s.pc = .before
      · replace h : s.main c onRecv now = some s' := h
        unfold LoopState.main at h
        rw [hpc] at h
        obtain rfl := Option.some.inj h
        cases hdone
      · obtain ⟨-, hsame, hout, -⟩ := main_shutdown h hpc
        rw [hsame]
        exact hout hdone

/-! ### Whole runs -/

/-- A run keeps the invariant. -/
theorem run_inv (hpos : 0 < size) (hs32 : size < 2147483648) (hi : s.Inv c)
    {as : List (LoopAction m)} (h : run (step c onRecv) s as = some s') : s'.Inv c :=
  run_invariant (fun _ _ _ hi hs => hi.step hpos hs32 hs) hi h

/-- The steps of the main thread in a run are paid. -/
theorem run_paid (hpos : 0 < size) (hs32 : size < 2147483648) (hi : s.Inv c)
    {as : List (LoopAction m)} (h : run (step c onRecv) s as = some s') :
    as.countP (·.isMain) + paid c.sNetThdCount s ≤ paid c.sNetThdCount s' := by
  have hrun := run_gain_le (·.isMain) (fun _ => 0) (paid c.sNetThdCount) (fun _ => 0)
    (fun _ _ _ hi hs => hi.step hpos hs32 hs)
    (fun u a u' hu hs => by
      have hone := hu.paid_step hs
      omega) hi h
  have hcost : (as.map fun _ => 0).sum = 0 := by
    simp
  rw [hcost] at hrun
  omega

/-- What has been given to a callback are the first events that were added. -/
theorem Inv.given_added (hi : s.Inv c) (i : Nat) : s.given i <+: s.added i := by
  have htaken : s.given i ++ (s.m_oEventQueue i).inHand
      = (s.added i).take (s.m_oEventQueue i).removed := (hi.queues i).taken
  have hfirst : s.given i <+: (s.added i).take (s.m_oEventQueue i).removed :=
    htaken ▸ List.prefix_append _ _
  exact hfirst.trans (List.take_prefix _ _)

/-- No worker is starved by the loop, whatever the clock says and whatever the workers add.

* The events of a worker are taken up in their order, and as many of those there are as rounds
  pass, but for one, in these rounds.
* A step of the main thread goes on in the round, or is paid by an event, by a spin, or by a round
  of the drain loop that is not the last.
* With a session that returns no negative number there are no more of those than bytes came. There
  are none in the IOCP engine. In the epoll engine the handling of an event ends just where the
  drain loop does.
* There are no spins in the epoll engine, and in the other one only where an event has come or the
  worker is inside of `Add`.
* The main thread can go on until the loop is left. -/
theorem loop_serves (hpos : 0 < size) (hs32 : size < 2147483648) (c : LoopConfig)
    (onRecv : OnRecv σ ε) (m_queue : Nat → Nat → IoEvent m) (session : Fin m → σ)
    {as bs : List (LoopAction m)} {s s' : LoopState σ ε m size}
    (h : run (step c onRecv) (init m_queue session) as = some s)
    (h' : run (step c onRecv) s bs = some s') :
    (∀ i, s.given i <+: s.added i) ∧
    (∀ i < c.sNetThdCount,
      min (s.added i).length ((s.given i).length + (s'.rounds - s.rounds - 1))
        ≤ (s'.given i).length) ∧
    bs.countP (·.isMain) + roundSteps c.sNetThdCount * s.rounds + 8 * s.handled + 4 * s.spins
        + s.drains
      ≤ roundSteps c.sNetThdCount * (s'.rounds + 1) + 8 * s'.handled + 4 * s'.spins + s'.drains ∧
    (Nonneg onRecv → s.drains ≤ s.bytes) ∧
    (c.engine = .iocper → s.drains = 0) ∧
    (c.engine = .epoller → ∀ i lTick event, s.pc = .handling i lTick event →
      event.type = .BREAK ∨ event.type = .RECV → ∀ now,
      ((∃ k t, run (step c onRecv) s (List.replicate k (.main now)) = some t ∧
          t.pc = .timed i lTick) ↔ Ends (drainBody onRecv) (s.pipes event.pCPipe))) ∧
    (c.engine = .epoller → s.spins = 0) ∧
    (∀ i lTick, s.pc = .empty i lTick → (s.m_oEventQueue i).queue.IsEmpty = false →
      (s.m_oEventQueue i).producer = .count ∨ (s.m_oEventQueue i).unread ≠ []) ∧
    (s.pc ≠ .done → ∀ now, ∃ t, s.step c onRecv (.main now) = some t) := by
  have hi : s.Inv c := run_inv hpos hs32 (inv_init c m_queue session) h
  have hown : s.Own c := run_invariant (fun _ _ _ ho hs => ho.step hs)
    ⟨fun _ => ⟨rfl, by simp [init]⟩, fun _ => rfl⟩ h
  refine ⟨hi.given_added, fun i hin => ?_, ?_, fun hnon => ?_, hown.iocper,
    fun hengine i lTick event hpc htype => handling_ends_iff hengine htype hpc,
    fun hengine => (hown.epoller hengine).1, fun i lTick => hi.spinning, hi.goes_on⟩
  · obtain ⟨-, hle⟩ := turns_le s i
    obtain ⟨hle', -⟩ := turns_le s' i
    have hgrows := run_grows h' i
    rcases run_served hi hpos hs32 hin h' with hall | hturns
    · exact (Nat.min_le_left _ _).trans hall
    · refine (Nat.min_le_right _ _).trans ?_
      omega
  · have hpaid := run_paid hpos hs32 hi h'
    unfold paid at hpaid
    have hplace := (run_inv hpos hs32 hi h').place_le
    rw [Nat.mul_add]
    omega
  · have hdrained : s.Drained := run_invariant (fun _ _ _ hd hs => hd.step hnon hs)
      (drained_init m_queue session) h
    have hle := hdrained.drains
    omega

/-- Two workers, and no time for either. -/
def twoWorkers (engine : NetEngine) : LoopConfig :=
  { engine, sNetThdCount := 2, sNetframetick := 0 }

/-- A session that uses one byte after the other. -/
def byteSession : OnRecv Unit Unit := fun _ _ _ => ⟨1, (), [()]⟩

/-- One pipe, on which three bytes come, and the second worker adds its event. -/
def threeBytes : List (LoopAction 1) :=
  .received 0 [1, 2, 3] :: .Add 1 ⟨.RECV, 0⟩ :: List.replicate 5 (.produce 1)

/-- The event is taken up within two rounds, and the drain loop goes round again three times. -/
theorem loop_serves_second : ∃ s s' : LoopState Unit Unit 1 1,
    run (step (twoWorkers .epoller) byteSession) (init (fun _ _ => ⟨.COUNT, 0⟩) fun _ => ())
        threeBytes = some s ∧
      run (step (twoWorkers .epoller) byteSession) s (List.replicate 30 (.main 0)) = some s' ∧
      s.added 1 = [⟨.RECV, 0⟩] ∧ s'.rounds = 2 ∧ s'.drains = 3 ∧ 1 ≤ (s'.given 1).length := by
  obtain ⟨s, hs, s', hs', hadded, hrounds, hdrains, hbefore⟩ : ∃ s : LoopState Unit Unit 1 1,
      run (step (twoWorkers .epoller) byteSession) (init (fun _ _ => ⟨.COUNT, 0⟩) fun _ => ())
        threeBytes = some s ∧
      ∃ s', run (step (twoWorkers .epoller) byteSession) s (List.replicate 30 (.main 0)) = some s' ∧
        s.added 1 = [⟨.RECV, 0⟩] ∧ s'.rounds = 2 ∧ s'.drains = 3 ∧ s.rounds = 0 :=
    ⟨_, rfl, _, rfl, rfl, rfl, rfl, rfl⟩
  have hserved := (loop_serves (by decide) (by decide) (twoWorkers .epoller) byteSession _ _ hs
    hs').2.1 1 (by decide)
  rw [hadded, hrounds, hbefore, List.length_singleton] at hserved
  refine ⟨s, s', hs, hs', hadded, hrounds, hdrains, ?_⟩
  omega

/-- The loop ends by a `Shutdown` that is called in it, and by no other. In the loop `m_bShutdown`
is set just when that call has been made, and the loop is left only then. Behind the call the main
thread is in its last round, or before the one test that ends the loop, and has no more steps to
take than those of two rounds, of the events it still handles, of the drain loop in them, and of the
spins. -/
theorem loop_ends (hpos : 0 < size) (hs32 : size < 2147483648) (c : LoopConfig)
    (onRecv : OnRecv σ ε) (m_queue : Nat → Nat → IoEvent m) (session : Fin m → σ)
    {as bs : List (LoopAction m)} {s s' : LoopState σ ε m size}
    (h : run (step c onRecv) (init m_queue session) as = some s) (hpc : s.pc ≠ .before)
    (h' : run (step c onRecv) s bs = some s') :
    (s.m_bShutdown = true ↔
      Asked c onRecv (init m_queue session : LoopState σ ε m size) as) ∧
    (s.pc = .done → Asked c onRecv (init m_queue session : LoopState σ ε m size) as) ∧
    (Asked c onRecv (init m_queue session : LoopState σ ε m size) as →
      s'.rounds ≤ s.rounds + inRound s ∧
      bs.countP (·.isMain) + 8 * s.handled + 4 * s.spins + s.drains
        ≤ 2 * roundSteps c.sNetThdCount + 8 * s'.handled + 4 * s'.spins + s'.drains) := by
  have hi : s.Inv c := run_inv hpos hs32 (inv_init c m_queue session) h
  have hasked := run_asked rfl h hpc
  refine ⟨hasked, fun hdone => hasked.mp ?_, fun hask => ?_⟩
  · exact run_invariant (I := fun u => u.pc = .done → u.m_bShutdown = true)
      (fun _ _ _ hd hs => done_step hd hs) (fun hno => by cases hno) h hdone
  · have hending : s'.Ending (s.rounds + inRound s) :=
      run_invariant (fun _ _ _ he hs => he.step hs) ⟨hasked.mpr hask, hpc, Nat.le_refl _⟩ h'
    have hrounds := hending.rounds
    have hin : inRound s ≤ 1 := by
      unfold inRound
      split <;> omega
    have hpaid := run_paid hpos hs32 hi h'
    unfold paid at hpaid
    have hplace := (run_inv hpos hs32 hi h').place_le
    have hone : s'.rounds ≤ s.rounds + 1 := by omega
    have hmul := Nat.mul_le_mul_left (roundSteps c.sNetThdCount) hone
    rw [Nat.mul_add] at hmul
    refine ⟨by omega, ?_⟩
    omega

/-- A call of `Shutdown` in the first round, and one that came before the loop. -/
theorem loop_ends_first : ∃ s s' : LoopState Unit Unit 1 1,
    run (step (twoWorkers .iocper) byteSession) (init (fun _ _ => ⟨.COUNT, 0⟩) fun _ => ())
        [.Shutdown, .main 0, .main 0, .Shutdown] = some s ∧
      run (step (twoWorkers .iocper) byteSession) s (List.replicate 12 (.main 0)) = some s' ∧
      s'.pc = .done ∧ s'.rounds ≤ 1 := by
  obtain ⟨s, hs, s', hs', hset, hbegun, hdone, hrounds, hin⟩ : ∃ s : LoopState Unit Unit 1 1,
      run (step (twoWorkers .iocper) byteSession) (init (fun _ _ => ⟨.COUNT, 0⟩) fun _ => ())
        [.Shutdown, .main 0, .main 0, .Shutdown] = some s ∧
      ∃ s', run (step (twoWorkers .iocper) byteSession) s (List.replicate 12 (.main 0)) = some s' ∧
        s.m_bShutdown = true ∧ s.pc = .deal ∧ s'.pc = .done ∧ s.rounds = 0 ∧ inRound s = 1 :=
    ⟨_, rfl, _, rfl, rfl, rfl, rfl, rfl, rfl⟩
  have hends := loop_ends (by decide) (by decide) (twoWorkers .iocper) byteSession _ _ hs
    (by simp [hbegun]) hs'
  have hlast := (hends.2.2 (hends.1.mp hset)).1
  rw [hrounds, hin] at hlast
  exact ⟨s, s', hs, hs', hdone, hlast⟩

end LoopState

end Kernel4GameServer
