import Mathlib.Algebra.BigOperators.Fin
import Kernel4GameServer.Proofs.Kernel.LoopSteps
import Kernel4GameServer.Proofs.Net.DrainLoop

/-!
# `Kernel4GameServer.Proofs.Kernel.LoopDrain`: the drain loop inside of the loop

The handling of an event in the epoll engine is the drain loop, and nothing bounds it but the
session. With one that returns no negative number every round but the last takes a byte at least, so
there are no more of these than bytes came (`Drained`). Any other session may keep the main thread
for ever: `handling_ends_iff` says that it comes to the end of the handling just where the drain
loop ends.
-/

set_option autoImplicit false

namespace Kernel4GameServer

open Lib

namespace LoopState

variable {σ ε : Type} {m size : Nat} {c : LoopConfig} {onRecv : OnRecv σ ε}
  {s s' : LoopState σ ε m size}

/-! ### The drain loop -/

/-- The bytes that wait on the pipes. -/
def pending (s : LoopState σ ε m size) : Nat := ∑ p, (s.pipes p).stream.size.toNat

/-- Where one pipe takes a step, only its bytes count. -/
theorem pending_setPipe (s : LoopState σ ε m size) (p : Fin m) (d : Drain σ ε) :
    (s.setPipe p d).pending + (s.pipes p).stream.size.toNat
      = s.pending + d.stream.size.toNat := by
  have hall : ∀ q, ((s.setPipe p d).pipes q).stream.size.toNat
      = Function.update (fun q => (s.pipes q).stream.size.toNat) p d.stream.size.toNat q :=
    fun q => Function.apply_update (fun _ (d : Drain σ ε) => d.stream.size.toNat) s.pipes p d q
  unfold pending
  rw [Finset.sum_congr rfl fun q _ => hall q, Finset.sum_update_of_mem (Finset.mem_univ p),
    ← Finset.add_sum_erase Finset.univ _ (Finset.mem_univ p), Finset.sdiff_singleton_eq_erase]
  omega

/-- `OnRecv` returns no negative number. -/
def Nonneg (onRecv : OnRecv σ ε) : Prop :=
  ∀ session context size, 0 < size → 0 ≤ (onRecv session context size).nUse

/-- What is done with an event leaves the offsets of the stream in order. With a session that
returns no negative number it is done again only where it has taken bytes. -/
theorem handle_drains (c : LoopConfig) (onRecv : OnRecv σ ε) (type : IoEventType) {d : Drain σ ε}
    (hd : d.stream.WellFormed) :
    (c.engine.handle onRecv type d).1.stream.WellFormed ∧
      (Nonneg onRecv → (c.engine.handle onRecv type d).2.toNat
          + (c.engine.handle onRecv type d).1.stream.size.toNat ≤ d.stream.size.toNat) := by
  have hdrain : (drainBody onRecv d).1.stream.WellFormed ∧
      (Nonneg onRecv → (drainBody onRecv d).2.toNat
        + (drainBody onRecv d).1.stream.size.toNat ≤ d.stream.size.toNat) := by
    refine ⟨drainBody_wf hd, fun hnon => ?_⟩
    by_cases hsize : 0 < d.stream.size
    · rcases (hnon d.session d.stream.buff d.stream.size hsize).eq_or_lt with hzero | hpos
      · have hflag : (drainBody onRecv d).2
            = decide (0 ≠ (onRecv d.session d.stream.buff d.stream.size).nUse) :=
          drainBody_flag hsize
        rw [← hzero] at hflag
        have hsame : (drainBody onRecv d).1.stream = d.stream := by
          simp [drainBody, recvCall, hsize, ← hzero]
        rw [hflag, hsame]
        exact (Nat.zero_add _).le
      · obtain ⟨-, hless⟩ := drainBody_positive onRecv hsize hpos
        have hflag := Bool.toNat_le (drainBody onRecv d).2
        omega
    · have hsame : (drainBody onRecv d).1.stream = d.stream := by
        simp [drainBody, recvCall, hsize]
      rw [drainBody_empty (by omega), hsame]
      exact (Nat.zero_add _).le
  have honce : (recvOnce onRecv d).stream.WellFormed ∧
      (recvOnce onRecv d).stream.size.toNat ≤ d.stream.size.toNat := by
    unfold recvOnce
    split
    · dsimp only
      split
      · rename_i hsize hpos
        have hlow := hd.read_le
        have hsize' : 0 < d.stream.size := by
          simp only [TStream.size] at hsize ⊢
          omega
        exact ⟨TStream.out_wf hd (by omega), (TStream.out_size_lt hsize' hpos).le⟩
      · exact ⟨hd, Nat.le_refl _⟩
    · exact ⟨hd, Nat.le_refl _⟩
  have hnone : d.stream.WellFormed ∧
      (Nonneg onRecv → false.toNat + d.stream.size.toNat ≤ d.stream.size.toNat) :=
    ⟨hd, fun _ => (Nat.zero_add _).le⟩
  unfold NetEngine.handle
  split
  · exact hdrain
  · exact hdrain
  · exact hnone
  · exact ⟨honce.1, fun _ => (Nat.zero_add _).le.trans honce.2⟩
  · exact hnone

/-- The drain loop goes round again no more often than bytes have come. -/
structure Drained (s : LoopState σ ε m size) : Prop where
  wf : ∀ p, (s.pipes p).stream.WellFormed
  drains : s.drains + s.pending ≤ s.bytes

theorem drained_init (m_queue : Nat → Nat → IoEvent m) (session : Fin m → σ) :
    (init m_queue session : LoopState σ ε m size).Drained where
  wf _ := TStream.init_wf
  drains := by
    have hzero : (init m_queue session : LoopState σ ε m size).pending = 0 :=
      Finset.sum_eq_zero fun p _ => rfl
    rw [hzero]
    exact Nat.le_refl 0

/-- A step on one pipe. -/
theorem Drained.setPipe (hd : s.Drained) {p : Fin m} {d : Drain σ ε} (hwf : d.stream.WellFormed)
    (q : Fin m) : ((s.setPipe p d).pipes q).stream.WellFormed := by
  show (Function.update s.pipes p d q).stream.WellFormed
  by_cases hq : q = p
  · rw [hq, Function.update_self]
    exact hwf
  · rw [Function.update_of_ne hq]
    exact hd.wf q

/-- Every step keeps that, with a session that returns no negative number. -/
theorem Drained.step (hd : s.Drained) (hnon : Nonneg onRecv) {a : LoopAction m}
    (h : s.step c onRecv a = some s') : s'.Drained := by
  cases a with
  | Add i event =>
      obtain ⟨q, -, rfl⟩ := Add_queue h
      exact ⟨hd.wf, hd.drains⟩
  | produce i =>
      obtain ⟨q, -, rfl⟩ := Option.map_eq_some_iff.mp h
      exact ⟨hd.wf, hd.drains⟩
  | Shutdown =>
      obtain rfl := Option.some.inj h
      exact ⟨hd.wf, hd.drains⟩
  | received p piece =>
      obtain rfl := Option.some.inj h
      have hlen : (0 : Int) ≤ piece.length := Int.natCast_nonneg _
      refine ⟨hd.setPipe (TStream.inBytes_wf BUFF_SIZE_pos (hd.wf p) _ hlen), ?_⟩
      have hpending := pending_setPipe s p { s.pipes p with
        stream := (s.pipes p).stream.inBytes (Mem.ofList piece 0) piece.length }
      have hsize := TStream.inBytes_size BUFF_SIZE_pos (hd.wf p) (Mem.ofList piece 0) hlen
      have hlow := (hd.wf p).read_le
      have hdrains := hd.drains
      dsimp only at hpending
      rw [hsize] at hpending
      have hnat : ((s.pipes p).stream.size + piece.length).toNat
          = (s.pipes p).stream.size.toNat + piece.length := by
        simp only [TStream.size]
        omega
      rw [hnat] at hpending
      show s.drains + LoopState.pending (s.setPipe p _) ≤ s.bytes + piece.length
      omega
  | main now =>
      replace h : s.main c onRecv now = some s' := h
      unfold LoopState.main at h
      split at h
      case h_5 i lTick _ =>
        obtain ⟨q, -, rfl⟩ := Option.map_eq_some_iff.mp h
        exact ⟨hd.wf, hd.drains⟩
      case h_6 i lTick _ =>
        obtain ⟨q, -, rfl⟩ := Option.map_eq_some_iff.mp h
        exact ⟨hd.wf, hd.drains⟩
      case h_7 i lTick event _ =>
        obtain rfl := Option.some.inj h
        obtain ⟨hwf, hless⟩ := handle_drains c onRecv event.type (hd.wf event.pCPipe)
        replace hless := hless hnon
        have hdrains := hd.drains
        rcases handle_cases c onRecv s i lTick event with ⟨d, heq, hs⟩ | ⟨d, heq, hs⟩
        all_goals
          rw [heq] at hwf hless
          have hpending := pending_setPipe s event.pCPipe d
          rw [hs]
          refine ⟨hd.setPipe hwf, ?_⟩
          simp only [Bool.toNat_true, Bool.toNat_false] at hless
        · show s.drains + 1 + LoopState.pending (s.setPipe event.pCPipe d) ≤ s.bytes
          omega
        · show s.drains + LoopState.pending (s.setPipe event.pCPipe d) ≤ s.bytes
          omega
      case h_8 i lTick _ =>
        split at h
        all_goals
          obtain rfl := Option.some.inj h
          exact ⟨hd.wf, hd.drains⟩
      case h_11 => cases h
      all_goals
        obtain rfl := Option.some.inj h
        exact ⟨hd.wf, hd.drains⟩

/-- A round of the drain loop is a step of the main thread. Behind the last one it looks at the
clock. -/
theorem drain_step (onRecv : OnRecv σ ε) (hengine : c.engine = .epoller) {i : Nat} {lTick : Int}
    {event : IoEvent m} (htype : event.type = .BREAK ∨ event.type = .RECV)
    (hpc : s.pc = .handling i lTick event) (now : Int) :
    ∃ t, s.step c onRecv (.main now) = some t ∧
      t.pipes event.pCPipe = (drainBody onRecv (s.pipes event.pCPipe)).1 ∧
      t.pc = if (drainBody onRecv (s.pipes event.pCPipe)).2 then .handling i lTick event
        else .timed i lTick := by
  have hbody : c.engine.handle onRecv event.type (s.pipes event.pCPipe)
      = drainBody onRecv (s.pipes event.pCPipe) := by
    rw [hengine]
    rcases htype with h | h <;> rw [h] <;> rfl
  have hstep : s.step c onRecv (.main now) = some (s.handle c onRecv i lTick event) := by
    show s.main c onRecv now = _
    rw [LoopState.main, hpc]
  rcases handle_cases c onRecv s i lTick event with ⟨d, heq, hs⟩ | ⟨d, heq, hs⟩
  all_goals
    rw [hbody] at heq
    rw [hs] at hstep
    refine ⟨_, hstep, ?_, ?_⟩
    · rw [heq]
      exact Function.update_self _ _ _
    · rw [heq]
      first | exact hpc | rfl

/-- The main thread alone goes through rounds of the drain loop that all go round again. -/
theorem run_rounds (hengine : c.engine = .epoller) {i : Nat} {lTick : Int} {event : IoEvent m}
    (htype : event.type = .BREAK ∨ event.type = .RECV) (now : Int) :
    ∀ {k : Nat} {s : LoopState σ ε m size}, s.pc = .handling i lTick event →
      GoesRound (drainBody onRecv) k (s.pipes event.pCPipe) →
      ∃ t, run (step c onRecv) s (List.replicate k (.main now)) = some t ∧
        t.pc = .handling i lTick event ∧
        t.pipes event.pCPipe = Lib.rounds (drainBody onRecv) k (s.pipes event.pCPipe) := by
  intro k
  induction k with
  | zero =>
      intro s hpc _
      exact ⟨s, rfl, hpc, rfl⟩
  | succ k ih =>
      intro s hpc hgoes
      obtain ⟨u, hu, hupipe, hupc⟩ := drain_step onRecv hengine htype hpc now
      have hfirst : (drainBody onRecv (s.pipes event.pCPipe)).2 = true := hgoes 0 (Nat.succ_pos k)
      rw [hfirst, if_pos rfl] at hupc
      obtain ⟨t, ht, htpc, htpipe⟩ := ih hupc (by
        rw [hupipe]
        exact fun j hj => hgoes (j + 1) (Nat.succ_lt_succ hj))
      refine ⟨t, ?_, htpc, ?_⟩
      · rw [List.replicate_succ, run_cons, hu]
        exact ht
      · rw [htpipe, hupipe]
        rfl

/-- The main thread alone comes to the end of the handling of an event in the epoll engine just
where the drain loop ends. -/
theorem handling_ends_iff (hengine : c.engine = .epoller) {i : Nat} {lTick : Int}
    {event : IoEvent m} (htype : event.type = .BREAK ∨ event.type = .RECV)
    (hpc : s.pc = .handling i lTick event) (now : Int) :
    (∃ k t, run (step c onRecv) s (List.replicate k (.main now)) = some t ∧
        t.pc = .timed i lTick) ↔ Ends (drainBody onRecv) (s.pipes event.pCPipe) := by
  constructor
  · rintro ⟨k, t, ht, htimed⟩
    by_contra hno
    obtain ⟨u, hu, hupc, -⟩ :=
      run_rounds hengine htype now hpc (goesRound_of_not_ends hno k)
    rw [ht, Option.some.injEq] at hu
    rw [← hu, htimed] at hupc
    cases hupc
  · intro hends
    obtain ⟨k, hgoes, hlast⟩ := exists_last_of_ends hends
    obtain ⟨u, hu, hupc, hupipe⟩ := run_rounds hengine htype now hpc hgoes
    obtain ⟨t, ht, -, htpc⟩ := drain_step onRecv hengine htype hupc now
    rw [hupipe, hlast] at htpc
    refine ⟨k + 1, t, ?_, htpc⟩
    rw [List.replicate_succ', run_append, hu, Option.bind_some, run_cons, ht]
    rfl

end LoopState

end Kernel4GameServer
