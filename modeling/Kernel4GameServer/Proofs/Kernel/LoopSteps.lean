import Kernel4GameServer.Kernel.Loop
import Kernel4GameServer.Lib.Measure
import Kernel4GameServer.Proofs.Public.TQueue

/-!
# `Kernel4GameServer.Proofs.Kernel.LoopSteps`: what the steps of the loop do

* `Inv`: each queue keeps the invariant of `TQueue`, the main thread is inside of `Read` just where
  its place says so, and the workers it is at are there.
* `Served`: a worker has got an event taken up in every turn, as long as there were events. It holds
  for any clock, since both engines compare the time only behind an event.
* `place` and `progress`: each step of the main thread goes on in the round, or is paid by a round,
  an event, a spin or a round of the drain loop.
* `Own`: what only one of the engines does.
-/

set_option autoImplicit false

namespace Kernel4GameServer

open Lib

namespace QueueState

variable {type : Type*} {size : Nat} {st st' : QueueState type size}

/-- A step of the producer leaves the consumer and what it has got alone, and adds to what there
is. -/
theorem produce_frame (h : st.step .produce = some st') :
    st'.consumer = st.consumer ∧ st'.returned = st.returned ∧ st.added <+: st'.added := by
  simp only [step, produce] at h
  split at h
  · cases h
  · split at h
    · split at h
      all_goals
        obtain rfl := Option.some.inj h
        exact ⟨rfl, rfl, List.prefix_rfl⟩
    · obtain rfl := Option.some.inj h
      exact ⟨rfl, rfl, List.prefix_rfl⟩
  · obtain rfl := Option.some.inj h
    exact ⟨rfl, rfl, List.prefix_rfl⟩
  · obtain rfl := Option.some.inj h
    exact ⟨rfl, rfl, List.prefix_append _ _⟩
  · obtain rfl := Option.some.inj h
    exact ⟨rfl, rfl, List.prefix_rfl⟩
  · obtain rfl := Option.some.inj h
    exact ⟨rfl, rfl, List.prefix_rfl⟩

/-- The call of `Add` does not touch the queue yet. -/
theorem Add_frame {src : type} (h : st.step (.Add src) = some st') :
    st'.consumer = st.consumer ∧ st'.returned = st.returned ∧ st.added <+: st'.added := by
  simp only [step] at h
  split at h
  · obtain rfl := Option.some.inj h
    exact ⟨rfl, rfl, List.prefix_rfl⟩
  · cases h

/-- The call of `Read` neither. -/
theorem Read_frame (h : st.step .Read = some st') :
    st.consumer = .idle ∧ st'.consumer = .test ∧ st'.returned = st.returned ∧
      st'.added = st.added := by
  simp only [step] at h
  split at h
  · rename_i hidle
    obtain rfl := Option.some.inj h
    exact ⟨hidle, rfl, rfl, rfl⟩
  · cases h

/-- A step of `Read` never adds. -/
theorem consume_added (h : st.step .consume = some st') : st'.added = st.added := by
  simp only [step, consume] at h
  split at h
  · cases h
  · split at h
    all_goals
      obtain rfl := Option.some.inj h
      rfl
  all_goals
    obtain rfl := Option.some.inj h
    rfl

/-- `Read` gives up only where all that was added has been returned. -/
theorem Inv.returned_of_missing (h : st.Inv) (hpos : 0 < size) (hc : st.consumer = .test)
    (hmissing : st.queue.missing = true) : st.returned = st.added := by
  have hread := h.read
  have htaken := h.taken
  rw [hc] at hread
  rw [inHand, hc, List.append_nil] at htaken
  have hempty := (h.ring.missing_iff hpos hread.1).mp hmissing
  rw [htaken, List.take_of_length_le]
  omega

end QueueState

/-- How far `Read` is. -/
def Consumer.rank {type : Type*} : Consumer type → Nat
  | .idle => 0
  | .test => 1
  | .slot => 2
  | .sign _ => 3
  | .count _ => 4
  | .reset _ => 5

namespace LoopState

variable {σ ε : Type} {m size : Nat} {c : LoopConfig} {onRecv : OnRecv σ ε}
  {s s' : LoopState σ ε m size}

/-- A step of `Read`: it gives up at its test, goes on, or returns an event. -/
theorem read_cases {q q' : QueueState (IoEvent m) size} (h : q.step .consume = some q')
    (c : LoopConfig) (i : Nat) (lTick : Int) :
    (q.consumer = .test ∧ q.queue.missing = true ∧ behind c q i lTick = nothing c i lTick ∧
      q'.consumer = .idle ∧ q'.returned = q.returned) ∨
    (behind c q i lTick = .reading i lTick ∧ q'.consumer.rank = q.consumer.rank + 1 ∧
      q'.returned = q.returned) ∨
    (∃ event, q.consumer = .reset event ∧ behind c q i lTick = .handling i lTick event ∧
      q'.consumer = .idle ∧ q'.returned = q.returned ++ [event]) := by
  unfold behind
  simp only [QueueState.step, QueueState.consume] at h
  cases hc : q.consumer with
  | idle =>
      rw [hc] at h
      cases h
  | test =>
      rw [hc] at h
      simp only at h
      split at h
      · rename_i hmissing
        obtain rfl := Option.some.inj h
        exact .inl ⟨rfl, hmissing, if_pos hmissing, rfl, rfl⟩
      · rename_i hmissing
        obtain rfl := Option.some.inj h
        exact .inr (.inl ⟨if_neg hmissing, rfl, rfl⟩)
  | slot | sign value | count value =>
      rw [hc] at h
      obtain rfl := Option.some.inj h
      exact .inr (.inl ⟨rfl, rfl, rfl⟩)
  | reset event =>
      rw [hc] at h
      obtain rfl := Option.some.inj h
      exact .inr (.inr ⟨event, rfl, rfl, rfl, rfl⟩)

/-- A round of the handling of an event: the next one is another, or it was the last. -/
theorem handle_cases (c : LoopConfig) (onRecv : OnRecv σ ε) (s : LoopState σ ε m size) (i : Nat)
    (lTick : Int) (event : IoEvent m) :
    (∃ d, c.engine.handle onRecv event.type (s.pipes event.pCPipe) = (d, true) ∧
      s.handle c onRecv i lTick event
        = { s.setPipe event.pCPipe d with drains := s.drains + 1 }) ∨
    (∃ d, c.engine.handle onRecv event.type (s.pipes event.pCPipe) = (d, false) ∧
      s.handle c onRecv i lTick event
        = { s.setPipe event.pCPipe d with pc := .timed i lTick, handled := s.handled + 1 }) := by
  unfold handle
  rcases c.engine.handle onRecv event.type (s.pipes event.pCPipe) with ⟨d, _ | _⟩
  · exact .inr ⟨d, rfl, rfl⟩
  · exact .inl ⟨d, rfl, rfl⟩

/-- A call of `Add`. -/
theorem Add_queue {i : Nat} {event : IoEvent m} (h : s.step c onRecv (.Add i event) = some s') :
    ∃ q, (s.m_oEventQueue i).step (.Add event) = some q ∧ s' = s.setQueue i q := by
  simp only [step] at h
  split at h
  · obtain ⟨q, hq, rfl⟩ := Option.map_eq_some_iff.mp h
    exact ⟨q, hq, rfl⟩
  · cases h

/-! ### Where the threads are -/

/-- The worker that the main thread is at is one of the `n`. -/
def Within (n : Nat) : LoopPc m → Prop
  | .visit i => i ≤ n
  | .read i _ | .reading i _ | .handling i _ _ | .empty i _ | .timed i _ => i < n
  | _ => True

/-- The queues keep their invariant, and `Read` is under way just where the main thread is inside of
it. -/
structure Inv (c : LoopConfig) (s : LoopState σ ε m size) : Prop where
  queues : ∀ i, (s.m_oEventQueue i).Inv
  idle : ∀ i, (∀ lTick, s.pc ≠ .reading i lTick) → (s.m_oEventQueue i).consumer = .idle
  inside : ∀ i lTick, s.pc = .reading i lTick → (s.m_oEventQueue i).consumer ≠ .idle
  within : Within c.sNetThdCount s.pc

theorem inv_init (c : LoopConfig) (m_queue : Nat → Nat → IoEvent m) (session : Fin m → σ) :
    (init m_queue session : LoopState σ ε m size).Inv c where
  queues i := QueueState.inv_init (m_queue i)
  idle _ _ := rfl
  inside _ _ h := by cases h
  within := trivial

/-- The main thread goes on outside of `Read`. -/
theorem Inv.goes (hi : s.Inv c) (hout : ∀ i lTick, s.pc ≠ .reading i lTick)
    (hout' : ∀ i lTick, s'.pc ≠ .reading i lTick) (hwithin : Within c.sNetThdCount s'.pc)
    (hqueue : s'.m_oEventQueue = s.m_oEventQueue) : s'.Inv c where
  queues i := hqueue ▸ hi.queues i
  idle i _ := hqueue ▸ hi.idle i (hout i)
  inside i lTick h := absurd h (hout' i lTick)
  within := hwithin

/-- A worker takes a step. -/
theorem Inv.worker (hi : s.Inv c) {i : Nat} {q : QueueState (IoEvent m) size} (hq : q.Inv)
    (hsame : q.consumer = (s.m_oEventQueue i).consumer) : (s.setQueue i q).Inv c := by
  have hall : ∀ j, ((s.setQueue i q).m_oEventQueue j).consumer = (s.m_oEventQueue j).consumer := by
    intro j
    show (Function.update s.m_oEventQueue i q j).consumer = _
    by_cases hj : j = i
    · rw [hj, Function.update_self, hsame]
    · rw [Function.update_of_ne hj]
  refine ⟨fun j => ?_, fun j hj => ?_, fun j lTick hj => ?_, hi.within⟩
  · show (Function.update s.m_oEventQueue i q j).Inv
    by_cases hj : j = i
    · rw [hj, Function.update_self]
      exact hq
    · rw [Function.update_of_ne hj]
      exact hi.queues j
  · rw [hall]
    exact hi.idle j hj
  · rw [hall]
    exact hi.inside j lTick hj

/-- The main thread takes a step of `Read`, at the worker `i`. -/
theorem Inv.reads (hi : s.Inv c) {i : Nat} (hother : ∀ j, j ≠ i → ∀ lTick, s.pc ≠ .reading j lTick)
    {q : QueueState (IoEvent m) size} (hq : q.Inv) {pc : LoopPc m}
    (hpc : ∀ j lTick, pc = .reading j lTick → j = i)
    (hidle : (∀ lTick, pc ≠ .reading i lTick) → q.consumer = .idle)
    (hinside : ∀ lTick, pc = .reading i lTick → q.consumer ≠ .idle)
    (hwithin : Within c.sNetThdCount pc) :
    ({ s.setQueue i q with pc := pc } : LoopState σ ε m size).Inv c := by
  refine ⟨fun j => ?_, fun j hj => ?_, fun j lTick hj => ?_, hwithin⟩
  · show (Function.update s.m_oEventQueue i q j).Inv
    by_cases hj : j = i
    · rw [hj, Function.update_self]
      exact hq
    · rw [Function.update_of_ne hj]
      exact hi.queues j
  · show (Function.update s.m_oEventQueue i q j).consumer = .idle
    by_cases hji : j = i
    · rw [hji, Function.update_self]
      exact hidle (hji ▸ hj)
    · rw [Function.update_of_ne hji]
      exact hi.idle j (hother j hji)
  · obtain rfl := hpc j lTick hj
    show (Function.update s.m_oEventQueue j q j).consumer ≠ .idle
    rw [Function.update_self]
    exact hinside lTick hj

/-- The consumer is between two calls where it has made no assignment. -/
theorem rank_eq_zero {q : QueueState (IoEvent m) size} :
    q.consumer.rank = 0 ↔ q.consumer = .idle := by
  cases q.consumer <;> simp [Consumer.rank]

/-- Behind a `Read` that found no event. -/
theorem within_nothing {i : Nat} (lTick : Int) (hi : i < c.sNetThdCount) :
    Within c.sNetThdCount (nothing c i lTick : LoopPc m) ∧
      ∀ j t, (nothing c i lTick : LoopPc m) ≠ .reading j t := by
  unfold nothing
  cases c.engine with
  | epoller =>
      refine ⟨?_, fun j t h => by cases h⟩
      show i + 1 ≤ c.sNetThdCount
      omega
  | iocper => exact ⟨hi, fun j t h => by cases h⟩

/-- A step of the main thread keeps the invariant. -/
theorem Inv.main (hi : s.Inv c) (hpos : 0 < size) (hs32 : size < 2147483648) {now : Int}
    (h : s.main c onRecv now = some s') : s'.Inv c := by
  have hwithin := hi.within
  unfold LoopState.main at h
  cases hpc : s.pc with
  | before | deal | timers =>
      rw [hpc] at h
      obtain rfl := Option.some.inj h
      exact hi.goes (by simp [hpc]) (by simp) (by simp [Within]) rfl
  | head =>
      rw [hpc] at h
      obtain rfl := Option.some.inj h
      refine hi.goes (by simp [hpc]) ?_ ?_ rfl
      · intro i lTick
        split <;> simp
      · split <;> trivial
  | visit i =>
      rw [hpc] at h
      obtain rfl := Option.some.inj h
      refine hi.goes (by simp [hpc]) ?_ ?_ rfl
      · intro j lTick
        split <;> simp
      · split
        · assumption
        · trivial
  | handling i lTick event =>
      rw [hpc] at h hwithin
      obtain rfl := Option.some.inj h
      rcases handle_cases c onRecv s i lTick event with ⟨d, -, heq⟩ | ⟨d, -, heq⟩
      · rw [heq]
        exact hi.goes (by simp [hpc]) (by simp [setPipe, hpc]) (by simpa [setPipe] using hi.within)
          rfl
      · rw [heq]
        exact hi.goes (by simp [hpc]) (by simp) (show i < c.sNetThdCount from hwithin) rfl
  | empty i lTick =>
      rw [hpc] at h hwithin
      dsimp only at h
      split at h
      · obtain rfl := Option.some.inj h
        exact hi.goes (by simp [hpc]) (by simp) (show i + 1 ≤ c.sNetThdCount from hwithin) rfl
      · obtain rfl := Option.some.inj h
        exact hi.goes (by simp [hpc]) (by simp) (show i < c.sNetThdCount from hwithin) rfl
  | timed i lTick =>
      rw [hpc] at h hwithin
      obtain rfl := Option.some.inj h
      refine hi.goes (by simp [hpc]) ?_ ?_ rfl
      · intro j t
        split <;> simp
      · split <;> exact hwithin
  | read i lTick =>
      rw [hpc] at h hwithin
      obtain ⟨q, hq, rfl⟩ := Option.map_eq_some_iff.mp h
      refine hi.reads (by simp [hpc]) ((hi.queues i).step hpos hs32 hq) ?_ ?_ ?_ hwithin
      · intro j t hj
        cases hj
        rfl
      · intro hno
        exact absurd rfl (hno lTick)
      · intro t _
        rw [(QueueState.Read_frame hq).2.1]
        simp
  | reading i lTick =>
      rw [hpc] at h hwithin
      obtain ⟨q, hq, rfl⟩ := Option.map_eq_some_iff.mp h
      have hq' := (hi.queues i).step hpos hs32 hq
      have hother : ∀ j, j ≠ i → ∀ t, s.pc ≠ .reading j t := by
        intro j hj t heq
        rw [hpc] at heq
        cases heq
        exact hj rfl
      rcases read_cases hq c i lTick with
        ⟨-, -, hb, hidle, -⟩ | ⟨hb, hrank, -⟩ | ⟨e, -, hb, hidle, -⟩
      · obtain ⟨hin, hout⟩ := within_nothing (m := m) (c := c) lTick hwithin
        rw [hb]
        exact hi.reads hother hq' (fun j t hj => absurd hj (hout j t)) (fun _ => hidle)
          (fun t ht => absurd ht (hout i t)) hin
      · rw [hb]
        refine hi.reads hother hq' ?_ ?_ ?_ hwithin
        · intro j t hj
          cases hj
          rfl
        · intro hno
          exact absurd rfl (hno lTick)
        · intro t _ hidle
          rw [rank_eq_zero.mpr hidle] at hrank
          omega
      · rw [hb]
        exact hi.reads hother hq' (by simp) (fun _ => hidle) (by simp) hwithin
  | done =>
      rw [hpc] at h
      cases h

/-- Every step keeps the invariant. -/
theorem Inv.step (hi : s.Inv c) (hpos : 0 < size) (hs32 : size < 2147483648) {a : LoopAction m}
    (h : s.step c onRecv a = some s') : s'.Inv c := by
  cases a with
  | main now => exact hi.main hpos hs32 h
  | Add i event =>
      obtain ⟨q, hq, rfl⟩ := Add_queue h
      exact hi.worker ((hi.queues i).step hpos hs32 hq) (QueueState.Add_frame hq).1
  | produce i =>
      obtain ⟨q, hq, rfl⟩ := Option.map_eq_some_iff.mp h
      exact hi.worker ((hi.queues i).step hpos hs32 hq) (QueueState.produce_frame hq).1
  | received p piece | Shutdown =>
      obtain rfl := Option.some.inj h
      exact { hi with }

/-! ### The events of a worker -/

/-- Where one queue takes a step that only adds events and returns them, all of them do. -/
theorem setQueue_grows {i : Nat} {q : QueueState (IoEvent m) size}
    (hgiven : s.given i <+: q.returned) (hadded : s.added i <+: q.added) (j : Nat) :
    s.given j <+: (s.setQueue i q).given j ∧ s.added j <+: (s.setQueue i q).added j := by
  show _ <+: (Function.update s.m_oEventQueue i q j).returned ∧
    _ <+: (Function.update s.m_oEventQueue i q j).added
  by_cases hj : j = i
  · rw [hj, Function.update_self]
    exact ⟨hgiven, hadded⟩
  · rw [Function.update_of_ne hj]
    exact ⟨List.prefix_rfl, List.prefix_rfl⟩

/-- A step of `Read` may return an event. -/
theorem consume_grows {q q' : QueueState (IoEvent m) size} (h : q.step .consume = some q') :
    q.returned <+: q'.returned ∧ q.added <+: q'.added := by
  rw [QueueState.consume_added h]
  refine ⟨?_, List.prefix_rfl⟩
  rcases read_cases h ⟨.epoller, 0, 0⟩ 0 0 with ⟨-, -, -, -, hr⟩ | ⟨-, -, hr⟩ | ⟨e, -, -, -, hr⟩
  · exact hr ▸ List.prefix_rfl
  · exact hr ▸ List.prefix_rfl
  · exact hr ▸ List.prefix_append _ _

/-- What has been added and what has been given to a callback only grows. -/
theorem step_grows {a : LoopAction m} (h : s.step c onRecv a = some s') (j : Nat) :
    s.given j <+: s'.given j ∧ s.added j <+: s'.added j := by
  have hsame : s'.m_oEventQueue = s.m_oEventQueue →
      s.given j <+: s'.given j ∧ s.added j <+: s'.added j := by
    intro hqueue
    unfold given added
    rw [hqueue]
    exact ⟨List.prefix_rfl, List.prefix_rfl⟩
  cases a with
  | received p piece | Shutdown =>
      obtain rfl := Option.some.inj h
      exact hsame rfl
  | Add i event =>
      obtain ⟨q, hq, rfl⟩ := Add_queue h
      obtain ⟨-, hreturned, hadded⟩ := QueueState.Add_frame hq
      exact setQueue_grows (hreturned ▸ List.prefix_rfl) hadded j
  | produce i =>
      obtain ⟨q, hq, rfl⟩ := Option.map_eq_some_iff.mp h
      obtain ⟨-, hreturned, hadded⟩ := QueueState.produce_frame hq
      exact setQueue_grows (hreturned ▸ List.prefix_rfl) hadded j
  | main now =>
      replace h : s.main c onRecv now = some s' := h
      unfold main at h
      split at h
      case h_5 i lTick _ =>
        obtain ⟨q, hq, rfl⟩ := Option.map_eq_some_iff.mp h
        obtain ⟨-, -, hreturned, hadded⟩ := QueueState.Read_frame hq
        exact setQueue_grows (hreturned ▸ List.prefix_rfl) (hadded ▸ List.prefix_rfl) j
      case h_6 i lTick _ =>
        obtain ⟨q, hq, rfl⟩ := Option.map_eq_some_iff.mp h
        obtain ⟨hreturned, hadded⟩ := consume_grows hq
        exact setQueue_grows hreturned hadded j
      case h_7 i lTick event _ =>
        obtain rfl := Option.some.inj h
        rcases handle_cases c onRecv s i lTick event with ⟨d, -, heq⟩ | ⟨d, -, heq⟩
        all_goals exact hsame (by rw [heq]; rfl)
      case h_8 i lTick _ =>
        split at h
        all_goals
          obtain rfl := Option.some.inj h
          exact hsame rfl
      case h_11 => cases h
      all_goals
        obtain rfl := Option.some.inj h
        exact hsame rfl

/-! ### The turns of a worker -/

/-- The main thread has done with the worker `i` in this round. -/
def past (i : Nat) : LoopPc m → Nat
  | .visit j | .read j _ | .reading j _ | .handling j _ _ | .empty j _ | .timed j _ =>
      if i < j then 1 else 0
  | .timers => 1
  | _ => 0

/-- The main thread has given an event of the worker `i` to its callback and not read again, or has
found no event. -/
def busy (i : Nat) : LoopPc m → Nat
  | .handling j _ _ | .empty j _ | .timed j _ => if i = j then 1 else 0
  | _ => 0

/-- The turns of the worker `i`, with the one under way where `Read` has returned in it. -/
def turns (s : LoopState σ ε m size) (i : Nat) : Nat := s.rounds + past i s.pc + busy i s.pc

/-- The first `a` events of the worker `i` have been given to a callback, or behind the `g` first
ones one in every turn behind the `t`-th. -/
def Served (i a t g : Nat) (s : LoopState σ ε m size) : Prop :=
  a ≤ (s.given i).length ∨ s.turns i + g ≤ t + (s.given i).length

/-- A step that begins no turn, or gives an event to its callback. -/
theorem Served.goes {i a t g : Nat} (hs : s.Served i a t g) (hgiven : s.given i <+: s'.given i)
    (hturns : s'.turns i + (s.given i).length ≤ s.turns i + (s'.given i).length) :
    s'.Served i a t g := by
  have hgrows := hgiven.length_le
  rcases hs with hall | hle
  · exact .inl (hall.trans hgrows)
  · right
    omega

/-- At another worker than `i` it is no turn of `i`. -/
theorem past_nothing {i j : Nat} (lTick : Int) (hj : i ≠ j) :
    past i (nothing c j lTick : LoopPc m) = (if i < j then 1 else 0) ∧
      busy i (nothing c j lTick : LoopPc m) = 0 := by
  unfold nothing
  cases c.engine with
  | epoller =>
      refine ⟨?_, rfl⟩
      show (if i < j + 1 then 1 else 0) = if i < j then 1 else 0
      exact if_congr (by omega) rfl rfl
  | iocper => exact ⟨rfl, if_neg hj⟩

/-- A step of the main thread serves a worker in its turn. -/
theorem Served.main {i a t g : Nat} (hs : s.Served i a t g) (hi : s.Inv c) (hpos : 0 < size)
    (hin : i < c.sNetThdCount) (ha : a ≤ (s.added i).length) {now : Int}
    (h : s.main c onRecv now = some s') : s'.Served i a t g := by
  have hgrows := (step_grows (a := .main now) h i).1
  have hwithin := hi.within
  unfold LoopState.main at h
  cases hpc : s.pc with
  | before | deal | timers =>
      rw [hpc] at h
      obtain rfl := Option.some.inj h
      refine hs.goes hgrows (Nat.add_le_add_right ?_ _)
      simp [turns, past, busy, hpc]
  | head =>
      rw [hpc] at h
      obtain rfl := Option.some.inj h
      refine hs.goes hgrows (Nat.add_le_add_right ?_ _)
      unfold turns
      rw [hpc]
      split <;> simp [past, busy]
  | visit j =>
      rw [hpc] at h hwithin
      obtain rfl := Option.some.inj h
      replace hwithin : j ≤ c.sNetThdCount := hwithin
      refine hs.goes hgrows (Nat.add_le_add_right ?_ _)
      unfold turns
      rw [hpc]
      split
      · simp [past, busy]
      · have hlt : i < j := by omega
        simp [past, busy, hlt]
  | handling j lTick event =>
      rw [hpc] at h
      obtain rfl := Option.some.inj h
      rcases handle_cases c onRecv s j lTick event with ⟨d, -, heq⟩ | ⟨d, -, heq⟩
      all_goals
        rw [heq] at hgrows ⊢
        refine hs.goes hgrows (Nat.add_le_add_right ?_ _)
        simp [turns, past, busy, setPipe, hpc]
  | empty j lTick =>
      rw [hpc] at h
      dsimp only at h
      split at h
      · obtain rfl := Option.some.inj h
        refine hs.goes hgrows (Nat.add_le_add_right ?_ _)
        have hlt : i < j + 1 ↔ i < j ∨ i = j := by omega
        simp only [turns, past, busy, hpc, hlt]
        split <;> split <;> split <;> omega
      · obtain rfl := Option.some.inj h
        refine hs.goes hgrows (Nat.add_le_add_right ?_ _)
        simp [turns, past, busy, hpc]
  | timed j lTick =>
      rw [hpc] at h
      obtain rfl := Option.some.inj h
      refine hs.goes hgrows (Nat.add_le_add_right ?_ _)
      unfold turns
      rw [hpc]
      by_cases hout : c.share ≤ now - lTick
      · -- The turn is over, with the event that was handled in it.
        have hlt : i < j + 1 ↔ i < j ∨ i = j := by omega
        rw [if_pos hout]
        simp only [past, busy, hlt]
        split <;> split <;> split <;> omega
      · rw [if_neg hout]
        simp [past, busy]
  | read j lTick =>
      rw [hpc] at h
      obtain ⟨q, hq, rfl⟩ := Option.map_eq_some_iff.mp h
      have hlen := hgrows.length_le
      refine hs.goes hgrows ?_
      have hturns : turns ({ s.setQueue j q with pc := .reading j lTick } : LoopState σ ε m size) i
          = s.turns i := by
        simp [turns, past, busy, hpc, setQueue]
      omega
  | reading j lTick =>
      rw [hpc] at h
      obtain ⟨q, hq, rfl⟩ := Option.map_eq_some_iff.mp h
      have hlen := hgrows.length_le
      have hturns : s.turns i = s.rounds + if i < j then 1 else 0 := by
        simp [turns, past, busy, hpc]
      rcases read_cases hq c j lTick with ⟨htest, hmissing, hb, -, hr⟩ | ⟨hb, -⟩ | ⟨e, -, hb, -, hr⟩
      · rw [hb] at hgrows hlen ⊢
        by_cases hj : i = j
        · -- Whatever was added has been given to a callback.
          subst hj
          have hall := (hi.queues i).returned_of_missing hpos htest hmissing
          left
          refine ha.trans (le_trans ?_ hlen)
          exact (congrArg List.length hall).ge
        · obtain ⟨hpast, hbusy⟩ := past_nothing (m := m) (c := c) lTick hj
          refine hs.goes hgrows ?_
          show s.rounds + past i _ + busy i _ + _ ≤ _
          rw [hpast, hbusy, hturns]
          omega
      · rw [hb] at hgrows hlen ⊢
        refine hs.goes hgrows ?_
        show s.rounds + (if i < j then 1 else 0) + 0 + _ ≤ _
        omega
      · rw [hb] at hgrows hlen ⊢
        refine hs.goes hgrows ?_
        show s.rounds + (if i < j then 1 else 0) + (if i = j then 1 else 0) + _ ≤ _
        by_cases hj : i = j
        · subst hj
          have hone : (({ s.setQueue i q with pc := .handling i lTick e } :
              LoopState σ ε m size).given i).length = (s.given i).length + 1 := by
            show ((Function.update s.m_oEventQueue i q) i).returned.length = _
            rw [Function.update_self, hr, List.length_append]
            rfl
          rw [if_pos rfl, hone, hturns]
          omega
        · rw [if_neg hj, hturns]
          omega
  | done =>
      rw [hpc] at h
      cases h

/-- Every step serves a worker in its turn. -/
theorem Served.step {i a t g : Nat} (hs : s.Served i a t g) (hi : s.Inv c) (hpos : 0 < size)
    (hin : i < c.sNetThdCount) (ha : a ≤ (s.added i).length) {act : LoopAction m}
    (h : s.step c onRecv act = some s') : s'.Served i a t g := by
  have hgrows := (step_grows h i).1
  have hother : s'.turns i = s.turns i → s'.Served i a t g := by
    intro hturns
    refine hs.goes hgrows ?_
    rw [hturns]
    exact Nat.add_le_add_left hgrows.length_le _
  cases act with
  | main now => exact hs.main hi hpos hin ha h
  | Add j event =>
      obtain ⟨q, -, rfl⟩ := Add_queue h
      exact hother rfl
  | produce j =>
      obtain ⟨q, -, rfl⟩ := Option.map_eq_some_iff.mp h
      exact hother rfl
  | received p piece | Shutdown =>
      obtain rfl := Option.some.inj h
      exact hother rfl

/-- A run serves a worker in its turns. -/
theorem run_served {i : Nat} (hi : s.Inv c) (hpos : 0 < size) (hs32 : size < 2147483648)
    (hin : i < c.sNetThdCount) {as : List (LoopAction m)} (h : run (step c onRecv) s as = some s') :
    s'.Served i (s.added i).length (s.turns i) (s.given i).length := by
  have hrun : s'.Inv c ∧ (s.added i).length ≤ (s'.added i).length ∧
      s'.Served i (s.added i).length (s.turns i) (s.given i).length := by
    refine run_invariant (I := fun u => u.Inv c ∧ (s.added i).length ≤ (u.added i).length ∧
      u.Served i (s.added i).length (s.turns i) (s.given i).length) ?_
      ⟨hi, Nat.le_refl _, .inr (Nat.le_refl _)⟩ h
    rintro u a u' ⟨hu, hadded, hserved⟩ hstep
    exact ⟨hu.step hpos hs32 hstep, hadded.trans (step_grows hstep i).2.length_le,
      hserved.step hu hpos hin hadded hstep⟩
  exact hrun.2.2

/-- In a run no event given to a callback is forgotten. -/
theorem run_grows {as : List (LoopAction m)} (h : run (step c onRecv) s as = some s') (i : Nat) :
    (s.given i).length ≤ (s'.given i).length :=
  run_invariant (I := fun u => (s.given i).length ≤ (u.given i).length)
    (fun _ _ _ hu hs => hu.trans (step_grows hs i).1.length_le) (Nat.le_refl _) h

/-- A worker is at most one turn ahead of the rounds. -/
theorem turns_le (s : LoopState σ ε m size) (i : Nat) :
    s.rounds ≤ s.turns i ∧ s.turns i ≤ s.rounds + 1 := by
  unfold turns
  cases s.pc with
  | handling j lTick event | empty j lTick | timed j lTick =>
      simp only [past, busy]
      split <;> split <;> omega
  | before | head | deal | visit j | read j lTick | reading j lTick | timers | done =>
      simp only [past, busy]
      try split
      all_goals omega

/-! ### The steps of the main thread -/

/-- How far the main thread is in its round. An event brings it back by `8` at most, and a spin
by `4`. -/
def place (n : Nat) (s : LoopState σ ε m size) : Nat :=
  match s.pc with
  | .before => 0
  | .head => 1
  | .deal => 2
  | .visit i => 3 + 9 * i
  | .timed i _ => 4 + 9 * i
  | .read i _ => 5 + 9 * i
  | .reading i _ => 5 + 9 * i + (s.m_oEventQueue i).consumer.rank
  | .empty i _ => 7 + 9 * i
  | .handling i _ _ => 11 + 9 * i
  | .timers => 4 + 9 * n
  | .done => 2

/-- The steps of a round without events, with `n` workers. -/
def roundSteps (n : Nat) : Nat := 4 + 9 * n

/-- What the steps of the main thread are paid from. -/
def paid (n : Nat) (s : LoopState σ ε m size) : Nat :=
  place n s + roundSteps n * s.rounds + 8 * s.handled + 4 * s.spins + s.drains

theorem rank_le {type : Type*} (q : Consumer type) : q.rank ≤ 5 := by
  cases q <;> simp [Consumer.rank]

/-- No place is beyond the round. -/
theorem Inv.place_le (hi : s.Inv c) : place c.sNetThdCount s ≤ roundSteps c.sNetThdCount := by
  have hwithin := hi.within
  unfold place roundSteps
  cases hpc : s.pc with
  | before | head | deal | timers | done =>
      dsimp only
      omega
  | visit i =>
      rw [hpc] at hwithin
      replace hwithin : i ≤ c.sNetThdCount := hwithin
      simp
      omega
  | timed i lTick | read i lTick | empty i lTick | handling i lTick event =>
      rw [hpc] at hwithin
      replace hwithin : i < c.sNetThdCount := hwithin
      simp
      omega
  | reading i lTick =>
      rw [hpc] at hwithin
      replace hwithin : i < c.sNetThdCount := hwithin
      have hrank := rank_le (s.m_oEventQueue i).consumer
      simp
      omega

/-- A step of the main thread goes on in the round, or is paid by a round, an event or a spin. -/
theorem Inv.progress (hi : s.Inv c) {now : Int} (h : s.main c onRecv now = some s') :
    paid c.sNetThdCount s + 1 ≤ paid c.sNetThdCount s' := by
  have hwithin := hi.within
  unfold LoopState.main at h
  unfold paid place
  cases hpc : s.pc with
  | before | deal =>
      rw [hpc] at h
      obtain rfl := Option.some.inj h
      dsimp only
      omega
  | head =>
      rw [hpc] at h
      obtain rfl := Option.some.inj h
      dsimp only
      by_cases hs : s.m_bShutdown = true
      · rw [if_pos hs]
        dsimp only
        omega
      · rw [if_neg hs]
        dsimp only
        omega
  | visit i =>
      rw [hpc] at h hwithin
      obtain rfl := Option.some.inj h
      replace hwithin : i ≤ c.sNetThdCount := hwithin
      dsimp only
      by_cases hlt : i < c.sNetThdCount
      · rw [if_pos hlt]
        dsimp only
        omega
      · rw [if_neg hlt]
        dsimp only
        omega
  | handling i lTick event =>
      rw [hpc] at h
      obtain rfl := Option.some.inj h
      rcases handle_cases c onRecv s i lTick event with ⟨d, -, heq⟩ | ⟨d, -, heq⟩
      all_goals
        rw [heq]
        simp only [setPipe, hpc]
        omega
  | empty i lTick =>
      rw [hpc] at h
      dsimp only at h
      split at h
      all_goals
        obtain rfl := Option.some.inj h
        dsimp only
        omega
  | timed i lTick =>
      rw [hpc] at h
      obtain rfl := Option.some.inj h
      dsimp only
      by_cases hout : c.share ≤ now - lTick
      · rw [if_pos hout]
        dsimp only
        omega
      · rw [if_neg hout]
        dsimp only
        omega
  | timers =>
      rw [hpc] at h
      obtain rfl := Option.some.inj h
      dsimp only
      rw [Nat.mul_add]
      unfold roundSteps
      omega
  | read i lTick =>
      rw [hpc] at h
      obtain ⟨q, hq, rfl⟩ := Option.map_eq_some_iff.mp h
      dsimp only [setQueue]
      rw [Function.update_self, (QueueState.Read_frame hq).2.1]
      dsimp only [Consumer.rank]
      omega
  | reading i lTick =>
      rw [hpc] at h
      obtain ⟨q, hq, rfl⟩ := Option.map_eq_some_iff.mp h
      dsimp only [setQueue]
      rcases read_cases hq c i lTick with
        ⟨htest, -, hb, -, -⟩ | ⟨hb, hrank, -⟩ | ⟨e, hreset, hb, -, -⟩
      · rw [hb, htest]
        unfold nothing
        cases c.engine with
        | epoller | iocper =>
            dsimp only [Consumer.rank]
            omega
      · rw [hb]
        dsimp only
        rw [Function.update_self, hrank]
        omega
      · rw [hb, hreset]
        dsimp only [Consumer.rank]
        omega
  | done =>
      rw [hpc] at h
      cases h

/-- The workers and `Shutdown` leave the main thread where it is. -/
theorem paid_other {i : Nat} {q : QueueState (IoEvent m) size}
    (hsame : q.consumer = (s.m_oEventQueue i).consumer) (n : Nat) :
    paid n (s.setQueue i q) = paid n s := by
  have hall : ∀ j, (Function.update s.m_oEventQueue i q j).consumer
      = (s.m_oEventQueue j).consumer := by
    intro j
    by_cases hj : j = i
    · rw [hj, Function.update_self, hsame]
    · rw [Function.update_of_ne hj]
  unfold paid place setQueue
  dsimp only
  cases s.pc with
  | reading j lTick =>
      dsimp only
      rw [hall]
  | _ => rfl

/-- Only the steps of the main thread are paid. -/
theorem Inv.paid_step (hi : s.Inv c) {a : LoopAction m} (h : s.step c onRecv a = some s') :
    a.isMain.toNat + paid c.sNetThdCount s ≤ paid c.sNetThdCount s' := by
  cases a with
  | main now =>
      have hone := hi.progress h
      show 1 + _ ≤ _
      omega
  | Add i event =>
      obtain ⟨q, hq, rfl⟩ := Add_queue h
      rw [paid_other (QueueState.Add_frame hq).1]
      exact (Nat.zero_add _).le
  | produce i =>
      obtain ⟨q, hq, rfl⟩ := Option.map_eq_some_iff.mp h
      rw [paid_other (QueueState.produce_frame hq).1]
      exact (Nat.zero_add _).le
  | received p piece | Shutdown =>
      obtain rfl := Option.some.inj h
      exact (Nat.zero_add _).le

/-- The main thread can always go on. -/
theorem Inv.goes_on (hi : s.Inv c) (hpc : s.pc ≠ .done) (now : Int) :
    ∃ t, s.step c onRecv (.main now) = some t := by
  show ∃ t, s.main c onRecv now = some t
  unfold LoopState.main
  cases hp : s.pc with
  | before | head | deal | visit i | handling i lTick event | timed i lTick | timers =>
      exact ⟨_, rfl⟩
  | empty i lTick =>
      dsimp only
      split
      all_goals exact ⟨_, rfl⟩
  | read i lTick =>
      have hidle := hi.idle i (by simp [hp])
      have hcall : (s.m_oEventQueue i).step .Read
          = some { s.m_oEventQueue i with consumer := .test } := by
        simp [QueueState.step, hidle]
      dsimp only
      rw [hcall]
      exact ⟨_, rfl⟩
  | reading i lTick =>
      have hinside := hi.inside i lTick hp
      dsimp only [QueueState.step]
      unfold QueueState.consume
      cases hc : (s.m_oEventQueue i).consumer with
      | idle => exact absurd hc hinside
      | test =>
          dsimp only
          split
          all_goals exact ⟨_, rfl⟩
      | slot | sign value | count value | reset value => exact ⟨_, rfl⟩
  | done => exact absurd hp hpc

/-- A queue is read again for its counters only where an event has come, or where the worker is
between the store of the sign and that of the counter. -/
theorem Inv.spinning (hi : s.Inv c) {i : Nat} {lTick : Int} (hpc : s.pc = .empty i lTick)
    (hcounters : (s.m_oEventQueue i).queue.IsEmpty = false) :
    (s.m_oEventQueue i).producer = .count ∨ (s.m_oEventQueue i).unread ≠ [] := by
  by_contra hno
  obtain ⟨hcount, hunread⟩ := not_or.mp hno
  have hunread := not_not.mp hunread
  have hread := (hi.queues i).read
  have hwrite := (hi.queues i).write
  rw [hi.idle i (by simp [hpc])] at hread
  have hle := (hi.queues i).ring.removed_le
  have hlen : (s.m_oEventQueue i).added.length = (s.m_oEventQueue i).removed :=
    le_antisymm (List.drop_eq_nil_iff.mp hunread) hle
  have hw : (s.m_oEventQueue i).queue.m_nWCount
      = UInt32.ofNat (s.m_oEventQueue i).added.length := by
    cases hp : (s.m_oEventQueue i).producer with
    | count => exact absurd hp hcount
    | idle | test src wait =>
        rw [hp] at hwrite
        exact hwrite.2
    | slot src | sign src =>
        rw [hp] at hwrite
        exact hwrite.2.1
    | reset =>
        rw [hp] at hwrite
        obtain ⟨n, hn, -, hw⟩ := hwrite
        rw [hw, hn]
  have heq : (s.m_oEventQueue i).queue.IsEmpty = true := by
    rw [TQueue.IsEmpty, beq_iff_eq, hread.2, hw, hlen]
  rw [heq] at hcounters
  cases hcounters

/-- The epoll engine does not ask the counters, and the other has no drain loop. -/
structure Own (c : LoopConfig) (s : LoopState σ ε m size) : Prop where
  epoller : c.engine = .epoller → s.spins = 0 ∧ ∀ i lTick, s.pc ≠ .empty i lTick
  iocper : c.engine = .iocper → s.drains = 0

/-- A step that asks nothing and does not drain. -/
theorem Own.goes (ho : s.Own c) (hspins : s'.spins = s.spins)
    (hempty : c.engine = .epoller → ∀ i lTick, s'.pc ≠ .empty i lTick)
    (hdrains : s'.drains = s.drains) : s'.Own c where
  epoller h := ⟨hspins.trans (ho.epoller h).1, hempty h⟩
  iocper h := hdrains.trans (ho.iocper h)

/-- The IOCP engine handles an event once. -/
theorem handle_iocper (onRecv : OnRecv σ ε) (type : IoEventType) (d : Drain σ ε) :
    (NetEngine.iocper.handle onRecv type d).2 = false := by
  cases type <;> rfl

theorem Own.step (ho : s.Own c) {a : LoopAction m} (h : s.step c onRecv a = some s') :
    s'.Own c := by
  have hempty := fun hengine => (ho.epoller hengine).2
  cases a with
  | Add j event =>
      obtain ⟨q, -, rfl⟩ := Add_queue h
      exact ho.goes rfl hempty rfl
  | produce j =>
      obtain ⟨q, -, rfl⟩ := Option.map_eq_some_iff.mp h
      exact ho.goes rfl hempty rfl
  | received p piece | Shutdown =>
      obtain rfl := Option.some.inj h
      exact ho.goes rfl hempty rfl
  | main now =>
      replace h : s.main c onRecv now = some s' := h
      unfold LoopState.main at h
      cases hpc : s.pc with
      | before | deal | timers =>
          rw [hpc] at h
          obtain rfl := Option.some.inj h
          exact ho.goes rfl (fun _ => by simp) rfl
      | handling i lTick event =>
          rw [hpc] at h
          obtain rfl := Option.some.inj h
          rcases handle_cases c onRecv s i lTick event with ⟨d, hd, heq⟩ | ⟨d, -, heq⟩
          · rw [heq]
            refine ⟨fun hengine => ⟨(ho.epoller hengine).1, by simp [setPipe, hpc]⟩,
              fun hengine => ?_⟩
            -- There is no second time.
            have hno := handle_iocper onRecv event.type (s.pipes event.pCPipe)
            rw [← hengine, hd] at hno
            cases hno
          · rw [heq]
            exact ho.goes rfl (fun _ => by simp) rfl
      | head | visit i | timed i lTick =>
          rw [hpc] at h
          obtain rfl := Option.some.inj h
          refine ho.goes rfl (fun _ j t => ?_) rfl
          dsimp only
          split <;> simp
      | empty i lTick =>
          rw [hpc] at h
          have hengine : c.engine ≠ .epoller := fun hengine => absurd hpc (hempty hengine i lTick)
          dsimp only at h
          split at h
          all_goals
            obtain rfl := Option.some.inj h
            exact ⟨fun heq => absurd heq hengine, ho.iocper⟩
      | read i lTick =>
          rw [hpc] at h
          obtain ⟨q, -, rfl⟩ := Option.map_eq_some_iff.mp h
          exact ho.goes rfl (fun _ => by simp) rfl
      | reading i lTick =>
          rw [hpc] at h
          obtain ⟨q, hq, rfl⟩ := Option.map_eq_some_iff.mp h
          refine ho.goes rfl (fun hengine => ?_) rfl
          dsimp only
          rcases read_cases hq c i lTick with ⟨-, -, hb, -, -⟩ | ⟨hb, -⟩ | ⟨e, -, hb, -, -⟩
          · rw [hb, nothing, hengine]
            simp
          · rw [hb]
            simp
          · rw [hb]
            simp
      | done =>
          rw [hpc] at h
          cases h

end LoopState

end Kernel4GameServer
