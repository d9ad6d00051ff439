import Kernel4GameServer.Lib.RoundRobin
import Kernel4GameServer.Net.Balancing

/-!
# `Kernel4GameServer.Proofs.Net.Balancing`: how connections spread over the workers

* `BalancingWorker_spec`: the loop of the epoll engine finds the first of the smallest
  `GetOPTCount()`. They are all zero, so it always finds the first worker.
* `assigned_eq`: the choices of the IOCP engine as a function of their number. They take turns
  until the counter wraps, at the connect behind the `2 ^ 31`th.
* `balancing_iff`: what comes of it for all runs.
-/

set_option autoImplicit false

namespace Kernel4GameServer

open Lib

/-! ### The epoll engine -/

/-- A loop over `1, …, m` that keeps the place of the smallest value it has seen, from place 0
on, ends with the first place of the smallest of all. -/
theorem foldl_min_spec (f : Nat → Int) (m : Nat) {p : Nat}
    (hp : (List.range' 1 m).foldl (fun q i => if f i < f q then i else q) 0 = p) :
    p ≤ m ∧ (∀ i ≤ m, f p ≤ f i) ∧ ∀ i < p, f p < f i := by
  induction m generalizing p with
  | zero =>
      obtain rfl : 0 = p := hp
      refine ⟨Nat.le_refl _, fun i hi => ?_, fun i hi => absurd hi (Nat.not_lt_zero i)⟩
      rw [Nat.le_zero.mp hi]
  | succ m ih =>
      rw [List.range'_1_concat, List.foldl_append, List.foldl_cons, List.foldl_nil] at hp
      obtain ⟨hle, hmin, hfirst⟩ := ih rfl
      split at hp
      · rename_i hless
        obtain rfl : 1 + m = p := hp
        refine ⟨by omega, fun i hi => ?_, fun i hi => ?_⟩
        · by_cases hlast : i = 1 + m
          · rw [hlast]
          · have := hmin i (by omega)
            omega
        · have := hmin i (by omega)
          omega
      · rename_i hmore
        rw [hp] at hle hmin hfirst hmore
        refine ⟨by omega, fun i hi => ?_, hfirst⟩
        by_cases hlast : i = 1 + m
        · rw [hlast]
          omega
        · exact hmin i (by omega)

namespace EpollBalance

variable {st st' : EpollBalance}

/-- `BalancingWorker` finds the first of the smallest counts. -/
theorem BalancingWorker_spec (st : EpollBalance) (hne : 0 < st.m_pWorkerAry.length) :
    st.BalancingWorker < st.m_pWorkerAry.length
      ∧ (∀ i < st.m_pWorkerAry.length, st.optCount st.BalancingWorker ≤ st.optCount i)
      ∧ ∀ i < st.BalancingWorker, st.optCount st.BalancingWorker < st.optCount i := by
  obtain ⟨hle, hmin, hfirst⟩ :=
    foldl_min_spec st.optCount (st.m_pWorkerAry.length - 1) (p := st.BalancingWorker) rfl
  exact ⟨by omega, fun i hi => hmin i (by omega), hfirst⟩

/-- The counts are those of the constructor, and so every connection is with the first
worker. -/
structure Inv (n : Nat) (st : EpollBalance) : Prop where
  workers : st.m_pWorkerAry = List.replicate n .init
  assigned : ∀ w ∈ st.assigned, w = 0
  connected : ∀ w ∈ st.connected, w = 0

/-- No `m_lOptCount` is other than zero. -/
theorem Inv.optCount {n : Nat} (h : st.Inv n) (i : Nat) : st.optCount i = 0 := by
  rw [EpollBalance.optCount, h.workers, List.getD_eq_getElem?_getD, List.getElem?_replicate]
  split <;> rfl

/-- The first worker is chosen. -/
theorem Inv.choice {n : Nat} (h : st.Inv n) (hn : 1 ≤ n) : st.BalancingWorker = 0 := by
  have hlen : st.m_pWorkerAry.length = n := by rw [h.workers, List.length_replicate]
  obtain ⟨-, -, hfirst⟩ := BalancingWorker_spec st (by omega)
  by_contra hne
  have hless := hfirst 0 (by omega)
  rw [h.optCount, h.optCount] at hless
  omega

/-- A step keeps the invariant. -/
theorem Inv.step {n : Nat} (h : st.Inv n) (hn : 1 ≤ n) {a : BalanceAction}
    (hstep : st.step a = some st') : st'.Inv n := by
  have hsnoc : ∀ {ws : List Nat}, (∀ w ∈ ws, w = 0) →
      ∀ w ∈ ws ++ [st.BalancingWorker], w = 0 := by
    intro ws hws w hw
    rcases List.mem_append.mp hw with hw | hw
    · exact hws w hw
    · rw [List.mem_singleton.mp hw]
      exact h.choice hn
  cases a with
  | connect =>
      obtain rfl := Option.some.inj hstep
      exact ⟨h.workers, hsnoc h.assigned, hsnoc h.connected⟩
  | disconnect place =>
      simp only [EpollBalance.step] at hstep
      split at hstep
      · obtain rfl := Option.some.inj hstep
        exact ⟨h.workers, h.assigned, fun w hw => h.connected w (List.mem_of_mem_eraseIdx hw)⟩
      · cases hstep

/-- The first worker has the least connections where it has none, or is alone. -/
theorem Inv.leastLoaded_iff {n : Nat} (h : st.Inv n) (hn : 1 ≤ n) (a : BalanceAction) :
    st.LeastLoaded a ↔ st.FirstOrOnly a := by
  have hlen : st.m_pWorkerAry.length = n := by rw [h.workers, List.length_replicate]
  cases a with
  | connect =>
      rw [LeastLoaded, FirstOrOnly, h.choice hn, hlen]
      constructor
      · intro hleast
        by_cases hone : n = 1
        · exact .inl hone
        · -- The second worker has no connection, so the first one has none either.
          have hsecond : st.connected.count 1 = 0 :=
            List.count_eq_zero.mpr fun hmem => by simpa using h.connected 1 hmem
          have hfirst : st.connected.count 0 = 0 := by
            have := hleast 1 (by omega)
            omega
          refine .inr (List.eq_nil_iff_forall_not_mem.mpr fun w hw => ?_)
          exact List.count_eq_zero.mp hfirst (h.connected w hw ▸ hw)
      · rintro (hone | hnil) i hi
        · obtain rfl : i = 0 := by omega
          exact Nat.le_refl _
        · simp [hnil]
  | disconnect place => exact Iff.rfl

/-- In every run, the chosen workers exist. Each has the smallest number of connections just
where every connection came when there was none, or to an only worker. -/
theorem leastLoaded_run {n : Nat} (hn : 1 ≤ n) {as : List BalanceAction} {st : EpollBalance}
    (h : run EpollBalance.step (init n) as = some st) :
    (∀ w ∈ st.assigned, w < n)
      ∧ (AllSteps EpollBalance.step LeastLoaded (init n) as
        ↔ AllSteps EpollBalance.step FirstOrOnly (init n) as) := by
  have hinit : Inv n (init n) :=
    { workers := rfl
      assigned := fun w hw => absurd hw List.not_mem_nil
      connected := fun w hw => absurd hw List.not_mem_nil }
  have hinv : st.Inv n := run_invariant (fun _ _ _ hs hstep => hs.step hn hstep) hinit h
  refine ⟨fun w hw => ?_, ?_, ?_⟩
  · rw [hinv.assigned w hw]
    exact hn
  · exact allSteps_of_invariant (fun _ _ _ hs _ hstep => hs.step hn hstep)
      (fun _ a hs => (hs.leastLoaded_iff hn a).mp) hinit
  · exact allSteps_of_invariant (fun _ _ _ hs _ hstep => hs.step hn hstep)
      (fun _ a hs => (hs.leastLoaded_iff hn a).mpr) hinit

end EpollBalance

/-! ### The IOCP engine -/

namespace IocpBalance

variable {n : Nat} {st st' : IocpBalance}

/-- The choices of the first `k` connects. -/
def choices (n k : Nat) : List Int := (List.range k).map fun m : Nat => (s32 (m : Int)).tmod n

/-- The counter and the choices are functions of the number of connects. -/
theorem assigned_eq {as : List BalanceAction} (h : run (step n) init as = some st) :
    st.index = s32 (connects as) ∧ st.assigned = choices n (connects as) := by
  revert as st
  refine run_induction
    (fun as (st : IocpBalance) =>
      st.index = s32 (connects as) ∧ st.assigned = choices n (connects as))
    ⟨rfl, rfl⟩ ?_
  intro as s a s' _ ih hstep
  obtain ⟨hindex, hassigned⟩ := ih
  cases a with
  | connect =>
      have hmore : connects (as ++ [.connect]) = connects as + 1 := by
        simp [connects]
      obtain rfl := Option.some.inj hstep
      rw [hmore]
      refine ⟨?_, ?_⟩
      · show s32 (s.index + 1) = s32 (connects as + 1 : Nat)
        rw [hindex, s32_s32_add, Int.natCast_add_one]
      · show s.assigned ++ [s.index.tmod n] = choices n (connects as + 1)
        rw [hassigned, hindex, choices, choices, List.range_succ, List.map_append]
        rfl
  | disconnect place =>
      have hsame : connects (as ++ [.disconnect place]) = connects as := by
        simp [connects]
      simp only [step] at hstep
      split at hstep
      · obtain rfl := Option.some.inj hstep
        rw [hsame]
        exact ⟨hindex, hassigned⟩
      · cases hstep

/-- Up to the wrap, the workers take turns. -/
theorem choices_eq_turns (n : Nat) {k : Nat} (hk : k ≤ 2147483648) :
    choices n k = (turns n k).map Nat.cast := by
  rw [choices, turns, List.map_map]
  refine List.map_congr_left fun m hm => ?_
  have hm : m < k := List.mem_range.mp hm
  rw [s32_of_range (by omega) (by omega)]
  exact (Int.ofNat_tmod m n).symm

/-- The first choice behind the wrap. -/
theorem choices_wrap (n : Nat) :
    choices n 2147483649 = choices n 2147483648 ++ [-((2147483648 % n : Nat) : Int)] := by
  have hwrap : s32 ((2147483648 : Nat) : Int) = -((2147483648 : Nat) : Int) := by decide
  rw [choices, choices, List.range_succ, List.map_append, List.map_singleton, hwrap,
    Int.neg_tmod, Int.ofNat_tmod]

/-- How far the choice is good: to the wrap, one connect further for the worker counts that
divide `2 ^ 31`, and for ever with one worker. -/
def Spread (n k : Nat) : Prop :=
  n = 1 ∨ k ≤ 2147483648 ∨ (n ∣ 2147483648 ∧ k ≤ 2147483649)

/-- Fewer connects are good too. -/
theorem Spread.mono {k l : Nat} (h : Spread n k) (hl : l ≤ k) : Spread n l := by
  rcases h with hone | hk | ⟨hdvd, hk⟩
  · exact .inl hone
  · exact .inr (.inl (by omega))
  · exact .inr (.inr ⟨hdvd, by omega⟩)

/-- The turns are choices that exist, and they are even. -/
theorem balanced_turns (hn : 1 ≤ n) (k : Nat) (hst : st.assigned = (turns n k).map Nat.cast) :
    st.Balanced n where
  exist w hw := by
    rw [hst] at hw
    obtain ⟨i, hi, rfl⟩ := List.mem_map.mp hw
    have := turns_lt hn hi
    omega
  even i j hi hj := by
    rw [hst, List.count_map_of_injective _ _ Nat.cast_injective,
      List.count_map_of_injective _ _ Nat.cast_injective]
    exact turns_balanced hi hj k

/-- Where the counter has gone far enough for it, the choices are good. -/
theorem balanced_of_spread (hn : 1 ≤ n) {k : Nat} (hst : st.assigned = choices n k)
    (h : Spread n k) : st.Balanced n := by
  rcases h with rfl | hk | ⟨hdvd, hk⟩
  · refine ⟨fun w hw => ?_, fun i j hi hj => ?_⟩
    · rw [hst] at hw
      obtain ⟨m, -, rfl⟩ := List.mem_map.mp hw
      simp
    · obtain rfl : i = j := by omega
      exact Nat.le_succ _
  · exact balanced_turns hn k (hst.trans (choices_eq_turns n hk))
  · rcases Nat.lt_or_ge k 2147483649 with hlt | hge
    · exact balanced_turns hn k (hst.trans (choices_eq_turns n (by omega)))
    · -- The choice behind the wrap is the turn that comes next.
      obtain rfl : k = 2147483649 := by omega
      have hturn : turns n 2147483649 = turns n 2147483648 ++ [2147483648 % n] :=
        turns_succ n 2147483648
      refine balanced_turns hn 2147483649 ?_
      rw [hst, choices_wrap, choices_eq_turns n (Nat.le_refl _), hturn, List.map_append,
        List.map_singleton, Nat.mod_eq_zero_of_dvd hdvd, Nat.cast_zero, Int.neg_zero]

/-- Further on, a worker was chosen that does not exist. -/
theorem missing_of_not_spread {k : Nat} (h : ¬ Spread n k) :
    ∃ w ∈ choices n k, w < 0 := by
  have hne : n ≠ 1 := fun hone => h (.inl hone)
  have hk : 2147483648 < k := by
    by_contra hle
    exact h (.inr (.inl (by omega)))
  by_cases hdvd : n ∣ 2147483648
  · -- The connect after the next one: `-(2 ^ 31 - 1)` leaves a remainder.
    have hk' : 2147483649 < k := by
      by_contra hle
      exact h (.inr (.inr ⟨hdvd, by omega⟩))
    refine ⟨_, List.mem_map.mpr ⟨2147483649, List.mem_range.mpr hk', rfl⟩, ?_⟩
    have hwrap : s32 ((2147483649 : Nat) : Int) = -((2147483647 : Nat) : Int) := by decide
    rw [hwrap, Int.neg_tmod, ← Int.ofNat_tmod]
    have hrest : 2147483647 % n ≠ 0 := by
      intro hzero
      have hone : n ∣ 1 := (Nat.dvd_add_right (Nat.dvd_of_mod_eq_zero hzero)).mp hdvd
      exact hne (Nat.dvd_one.mp hone)
    omega
  · refine ⟨_, List.mem_map.mpr ⟨2147483648, List.mem_range.mpr hk, rfl⟩, ?_⟩
    have hwrap : s32 ((2147483648 : Nat) : Int) = -((2147483648 : Nat) : Int) := by decide
    rw [hwrap, Int.neg_tmod, ← Int.ofNat_tmod]
    have hrest : 2147483648 % n ≠ 0 := fun hzero => hdvd (Nat.dvd_of_mod_eq_zero hzero)
    omega

/-- In a run, all states are balanced just where the connects are not too many. -/
theorem balanced_run (hn : 1 ≤ n) {as : List BalanceAction} (h : run (step n) init as = some st) :
    Throughout (step n) (Balanced n) init as ↔ Spread n (connects as) := by
  constructor
  · intro hall
    by_contra hfar
    obtain ⟨w, hw, hneg⟩ := missing_of_not_spread hfar
    rw [← (assigned_eq h).2] at hw
    have := ((hall as List.prefix_rfl st h).exist w hw).1
    omega
  · intro hspread bs hbs t ht
    have hle : connects bs ≤ connects as := hbs.sublist.count_le _
    exact balanced_of_spread hn (assigned_eq ht).2 (hspread.mono hle)

end IocpBalance

/-- How connections spread over `n` workers, in every run of connects and disconnects.

The epoll engine chooses workers that exist. It chooses one with the smallest number of
connections at every connect just where each connect finds no connection, or there is but one
worker. The choices of the IOCP engine exist and are even up to one in every state just where
there are at most `2 ^ 31` connects, one more where `n` divides `2 ^ 31`, or one worker. -/
theorem balancing_iff (n : Nat) (hn : 1 ≤ n) :
    (∀ as st, run EpollBalance.step (.init n) as = some st →
      (∀ w ∈ st.assigned, w < n)
      ∧ (AllSteps EpollBalance.step EpollBalance.LeastLoaded (.init n) as
        ↔ AllSteps EpollBalance.step EpollBalance.FirstOrOnly (.init n) as))
    ∧ ∀ as st, run (IocpBalance.step n) .init as = some st →
      (Throughout (IocpBalance.step n) (IocpBalance.Balanced n) .init as
        ↔ n = 1 ∨ connects as ≤ 2147483648
          ∨ (n ∣ 2147483648 ∧ connects as ≤ 2147483649)) :=
  ⟨fun _ _ h => EpollBalance.leastLoaded_run hn h, fun _ _ h => IocpBalance.balanced_run hn h⟩

/-- Two workers: a connection that ends before the next one comes leaves the epoll engine its
choice, and three connections of the IOCP engine spread as two and one. -/
theorem balancing_two :
    AllSteps EpollBalance.step EpollBalance.LeastLoaded (.init 2)
        [.connect, .disconnect 0, .connect]
    ∧ Throughout (IocpBalance.step 2) (IocpBalance.Balanced 2) .init
        [.connect, .connect, .connect] := by
  obtain ⟨hepoll, hiocp⟩ := balancing_iff 2 (by decide)
  exact ⟨(hepoll [.connect, .disconnect 0, .connect] _ rfl).2.mpr (by decide),
    (hiocp [.connect, .connect, .connect] _ rfl).mpr (.inr (.inl (by decide)))⟩

/-- Two workers: the second connection goes to the first worker, which has one already, while
the second worker has none. -/
theorem second_connection :
    ∃ st, run EpollBalance.step (.init 2) [.connect, .connect] = some st
      ∧ st.connected = [0, 0]
      ∧ ¬ AllSteps EpollBalance.step EpollBalance.LeastLoaded (.init 2) [.connect, .connect] := by
  refine ⟨_, rfl, rfl, ?_⟩
  rintro ⟨-, hsecond, -⟩
  exact absurd (hsecond 1 (by decide)) (by decide)

end Kernel4GameServer
