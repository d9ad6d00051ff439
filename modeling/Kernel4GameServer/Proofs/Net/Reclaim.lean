import Kernel4GameServer.Lib.Run
import Kernel4GameServer.Net.Epoll.PipePool
import Kernel4GameServer.Proofs.Net.PipeLifeSteps
import Kernel4GameServer.Proofs.Public.TPool

/-!
# `Kernel4GameServer.Proofs.Net.Reclaim`: where the pipes of the pool go

A pipe in use is connecting or established, or it is stranded: `DoClose` closed it, and no
`Release` follows, not even behind `OnDisconnect`.

* `UseInv`, for every unit, and `PoolInv`: the pool and its units agree on what is in use.
* `used_eq`: the pipes in use are those of a connection and the stranded ones.
* `Attached.step`: as long as no worker closes a pipe and no BREAK is handled, nothing is
  stranded.
* `reclaimed_of_open`: so in these runs the pool holds a pipe for each connection.
-/

set_option autoImplicit false

namespace Kernel4GameServer

open Lib

namespace PipeLife

/-- The pipe of a connection: waiting for `connect`, or with the status `SS_ESTABLISHED` or
`SS_WAITCLOSE`. -/
def isLive (st : PipeLife) : Bool :=
  st.connecting || decide (st.pipe.m_nStatus ≠ .SS_UNINITIALIZE)

/-- A pipe in use without a connection. -/
def isStranded (st : PipeLife) : Bool := st.inUse && !st.isLive

/-- The condition on a step: the worker does not close the pipe, and BREAK is not handled. -/
def staysOpen (st : PipeLife) (a : LifeAction) : Bool :=
  !st.closes a && decide (¬ (a = .finish ∧ st.main = .drained .BREAK))

/-- What the steps that meet the condition keep: a pipe in use has a connection, and its session
has not been told of the end. -/
structure Attached (st : PipeLife) : Prop where
  live : st.inUse = true → st.isLive = true
  told : PipeCallback.OnDisconnect ∉ st.callbacks

/-- A unit that was never in use. -/
theorem attached_init : Attached init where
  live h := by cases h
  told := by simp [init]

/-- An established pipe has a connection. -/
theorem isLive_of_established {st : PipeLife} (h : st.pipe.m_nStatus = .SS_ESTABLISHED) :
    st.isLive = true := by
  simp [isLive, h]

/-- A unit that is not in use has none. -/
theorem UseInv.not_live {st : PipeLife} (h : UseInv st) (huse : st.inUse = false) :
    st.isLive = false := by
  obtain ⟨hstatus, hconnecting⟩ := h.unused huse
  simp [isLive, hstatus, hconnecting]

/-- `DoConnect` leaves an established pipe or releases it. -/
theorem Attached.of_DoConnect {st : PipeLife} (htold : PipeCallback.OnDisconnect ∉ st.callbacks)
    (ok again : Bool) : Attached (st.DoConnect ok again) := by
  cases ok with
  | true =>
      refine ⟨fun _ => isLive_of_established rfl, ?_⟩
      show _ ∉ st.callbacks ++ [.OnConnected]
      simp [htold]
  | false =>
      refine ⟨fun huse => (by cases huse), ?_⟩
      show _ ∉ st.callbacks ++ [.OnConnectFailed]
      simp [htold]

/-- A step that meets the condition keeps the pipe with its connection. -/
theorem Attached.step {st st' : PipeLife} {a : LifeAction} (h : Attached st)
    (hopen : st.staysOpen a = true) (hs : st.step a = some st') : Attached st' := by
  simp only [staysOpen, Bool.and_eq_true, Bool.not_eq_true', decide_eq_true_eq] at hopen
  -- The condition leaves out the steps of `DoClose` and the end of a BREAK event.
  obtain ⟨hcloses, hfinish⟩ := hopen
  cases step_moves hs with
  | quiet pipe worker dealing main call callbacks hstatus hsocket hclosing hmain htells hst =>
      subst hst
      refine ⟨fun huse => ?_, ?_⟩
      · have hlive := h.live huse
        unfold isLive at hlive ⊢
        rwa [hstatus]
      · show _ ∉ callbacks
        rcases htells with rfl | ⟨_, rfl⟩ | ⟨ha, hbreak, _⟩
        · exact h.told
        · simp [h.told]
        · exact absurd ⟨ha, hbreak⟩ hfinish
  | again ha hmain hst =>
      subst hst
      exact ⟨h.live, by simp [h.told]⟩
  | Send src ha hmain hst =>
      subst hst
      exact ⟨h.live, h.told⟩
  | Close ha hmain hst =>
      subst hst
      exact ⟨fun _ => by simp [isLive, CPipe.closeMark], h.told⟩
  | post opt result ha hcall hst =>
      subst hst
      exact ⟨h.live, h.told⟩
  | doClose w next hstatus ha hst =>
      rw [hcloses] at ha
      cases ha
  | del w next hpc hst =>
      subst hst
      exact ⟨h.live, h.told⟩
  | shut w next hpc hst =>
      subst hst
      exact ⟨h.live, h.told⟩
  | connected lSocket lEpollFD ok ha huse hmain hst =>
      have hnone : PipeCallback.OnDisconnect ∉ (st.start lSocket lEpollFD true).callbacks := by
        simp [start]
      have hconnect := Attached.of_DoConnect hnone ok true
      cases ok with
      | true =>
          subst hst
          exact hconnect
      | false =>
          -- A connect that fails releases the unit at once.
          subst hst
          exact ⟨hconnect.live, by simp [hconnect.told]⟩
  | inProgress lSocket lEpollFD ok ha huse hmain hst =>
      subst hst
      exact ⟨fun _ => rfl, by simp [start]⟩
  | accepted lSocket lEpollFD ok ha huse hmain hst =>
      cases ok with
      | true =>
          subst hst
          exact ⟨fun _ => isLive_of_established rfl, by simp [start, establish]⟩
      | false =>
          subst hst
          exact ⟨fun huse => (by cases huse), by simp [start, establish, PipeLife.Release]⟩
  | SetStatus ha hmain hst =>
      subst hst
      exact ⟨fun _ => isLive_of_established rfl, by simp [h.told]⟩
  | connectFailed mask dealing ok ha hmain hdealing huse herr hst =>
      subst hst
      refine ⟨fun huse => (by cases huse), ?_⟩
      show _ ∉ st.callbacks ++ [.OnConnectFailed]
      simp [h.told]
  | DoConnect mask dealing ok ha hmain hdealing huse herr hout hadd hst =>
      subst hst
      have htold : PipeCallback.OnDisconnect ∉ { st with dealing }.callbacks := h.told
      exact .of_DoConnect htold ok false

end PipeLife

/-- A free unit stays free until a use begins. -/
theorem PipeLife.UseInv.stays_free {st st' : PipeLife} {a : LifeAction} (h : st.UseInv)
    (hfree : st.inUse = false) (ha : a.begins = false) (hs : st.step a = some st') :
    st'.inUse = false := by
  -- The main thread is in callbacks of units in use only.
  have hcallback : st.main.isFree = false → False := by
    intro hmain
    have huse := h.busy hmain
    rw [hfree] at huse
    cases huse
  cases PipeLife.step_moves hs with
  | quiet pipe worker dealing main call callbacks hstatus hsocket hclosing hmain htells hst =>
      subst hst
      exact hfree
  | again ha hmain hst => exact (hcallback (by rw [hmain]; rfl)).elim
  | Send src ha hmain hst =>
      subst hst
      exact hfree
  | Close ha hmain hst =>
      subst hst
      exact hfree
  | post opt result ha hcall hst =>
      subst hst
      exact hfree
  | doClose w next hstatus ha hst =>
      subst hst
      exact hfree
  | del w next hpc hst =>
      subst hst
      exact hfree
  | shut w next hpc hst =>
      subst hst
      exact hfree
  | connected lSocket lEpollFD ok hact huse hmain hst =>
      rw [hact] at ha
      cases ha
  | inProgress lSocket lEpollFD ok hact huse hmain hst =>
      rw [hact] at ha
      cases ha
  | accepted lSocket lEpollFD ok hact huse hmain hst =>
      rw [hact] at ha
      cases ha
  | SetStatus ha hmain hst => exact (hcallback (by rw [hmain]; rfl)).elim
  | connectFailed mask dealing ok ha hmain hdealing huse herr hst =>
      rw [hfree] at huse
      cases huse
  | DoConnect mask dealing ok ha hmain hdealing huse herr hout hadd hst =>
      rw [hfree] at huse
      cases huse

namespace PipePool

/-! ### The pool and its units -/

/-- The pool after `put`. The unit at `p` is in use, or stays free. -/
theorem put_spec {pool : TPool PipeLife} (h : pool.Inv) {p : Nat} {x : PipeLife}
    (hp : pool.inUse p = true ∨ pool.inUse p = x.inUse) :
    (put pool p x).s_oCPipePool.Inv ∧
      (put pool p x).s_oCPipePool.unit = (pool.set p x).unit ∧
      (put pool p x).s_oCPipePool.inUse = fun q => if q = p then x.inUse else pool.inUse q := by
  have hset := TPool.set_inv h p x
  have hkeep : pool.inUse p = x.inUse →
      pool.inUse = fun q => if q = p then x.inUse else pool.inUse q := by
    intro heq
    funext q
    split
    · rename_i hq
      rw [hq, heq]
    · rfl
  cases hx : x.inUse with
  | true =>
      have hput : put pool p x = ⟨pool.set p x⟩ := by simp [put, hx]
      rw [hput]
      rw [hx] at hkeep hp
      exact ⟨hset, rfl, hkeep (hp.elim id id)⟩
  | false =>
      have hput : put pool p x = ⟨(pool.set p x).Recover p⟩ := by simp [put, hx]
      rw [hput]
      rw [hx] at hkeep
      cases hold : pool.inUse p with
      | true => exact TPool.Recover_spec hset hold
      | false =>
          -- `Recover` leaves a free unit alone.
          have hrec : (pool.set p x).Recover p = pool.set p x := by
            simp [TPool.Recover, hold]
          rw [hrec]
          exact ⟨hset, rfl, hkeep hold⟩

section Units

/-! `I` is what the steps of a unit keep where they meet `C`. -/

variable {I : PipeLife → Prop} {C : PipeLife → LifeAction → Prop}

/-- The pool and its units agree on what is in use, and every unit keeps `I`. -/
structure UnitsInv (I : PipeLife → Prop) (pool : TPool PipeLife) : Prop where
  inv : pool.Inv
  inUse : ∀ p, pool.inUse p = (pool.unit p).inUse
  use : ∀ p, (pool.unit p).UseInv
  unit : ∀ p, I (pool.unit p)

/-- The condition `C` on a step of the pool. A step that begins a use meets it anyway. -/
def OnPipe (C : PipeLife → LifeAction → Prop) (st : PipePool) : PoolAction → Prop
  | .pipe p a => C (st.pipe p) a
  | _ => True

/-- The pool as it starts. -/
theorem unitsInv_init (hinit : I .init) : UnitsInv I init.s_oCPipePool where
  inv := TPool.init_inv PipeLife.init 64
  inUse p := by
    simp only [init, TPool.init, TPool.AllocNewBlob, ite_self]
    rfl
  use p := by
    simp only [init, TPool.init, TPool.AllocNewBlob, ite_self]
    exact PipeLife.useInv_init
  unit p := by
    simp only [init, TPool.init, TPool.AllocNewBlob, ite_self]
    exact hinit

/-- `put` of a unit that keeps the invariants. -/
theorem UnitsInv.put {pool : TPool PipeLife} (hinv : pool.Inv) {p : Nat} {x : PipeLife}
    (hp : pool.inUse p = true ∨ pool.inUse p = x.inUse) (hx : x.UseInv) (hI : I x)
    (hothers : ∀ q, q ≠ p →
      pool.inUse q = (pool.unit q).inUse ∧ (pool.unit q).UseInv ∧ I (pool.unit q)) :
    UnitsInv I (PipePool.put pool p x).s_oCPipePool := by
  obtain ⟨hinv', hunit, hin⟩ := put_spec hinv hp
  refine ⟨hinv', fun q => ?_, fun q => ?_, fun q => ?_⟩
  · rw [hunit, hin]
    by_cases hq : q = p
    · rw [hq, TPool.set_unit_self]
      exact if_pos rfl
    · rw [TPool.set_unit_other pool x hq]
      exact (if_neg hq).trans (hothers q hq).1
  · rw [hunit]
    by_cases hq : q = p
    · rw [hq, TPool.set_unit_self]
      exact hx
    · rw [TPool.set_unit_other pool x hq]
      exact (hothers q hq).2.1
  · rw [hunit]
    by_cases hq : q = p
    · rw [hq, TPool.set_unit_self]
      exact hI
    · rw [TPool.set_unit_other pool x hq]
      exact (hothers q hq).2.2

/-- `Create` and the step that uses the new pipe. -/
theorem UnitsInv.create (hinit : I .init)
    (hI : ∀ x a x', x.UseInv → I x → C x a → x.step a = some x' → I x')
    (hbegins : ∀ x a, a.begins = true → C x a) {st st' : PipePool} {a : LifeAction}
    (ha : a.begins = true) (h : UnitsInv I st.s_oCPipePool) (hs : st.create a = some st') :
    UnitsInv I st'.s_oCPipePool := by
  unfold PipePool.create at hs
  cases hc : st.s_oCPipePool.Create PipeLife.init 64 with
  | none =>
      rw [hc] at hs
      cases hs
  | some r =>
      obtain ⟨p, pool⟩ := r
      rw [hc] at hs
      obtain ⟨x, hx, rfl⟩ := Option.map_eq_some_iff.mp hs
      obtain ⟨hinv, hfree, hin, hkeep⟩ := TPool.Create_spec h.inv hc
      -- A unit is as it was, or new, and then as good as one that is free.
      have hunit : ∀ q, (pool.unit q).UseInv ∧ I (pool.unit q) := by
        intro q
        rcases TPool.Create_unit hc q with hq | hq
        · rw [hq]
          exact ⟨h.use q, h.unit q⟩
        · rw [hq]
          exact ⟨PipeLife.useInv_init, hinit⟩
      refine .put hinv (.inl ((hin p).mpr (.inl rfl))) ((hunit p).1.step hx)
        (hI _ a x (hunit p).1 (hunit p).2 (hbegins _ a ha) hx) fun q hq => ⟨?_, hunit q⟩
      have hold : pool.inUse q = st.s_oCPipePool.inUse q := by
        rw [Bool.eq_iff_iff, hin q, or_iff_right hq]
      cases huse : st.s_oCPipePool.inUse q with
      | true =>
          rw [hold, huse, hkeep q huse, ← h.inUse q, huse]
      | false =>
          rw [hold, huse]
          rcases TPool.Create_unit hc q with hq' | hq'
          · rw [hq', ← h.inUse q, huse]
          · rw [hq']
            rfl

/-- Every step that meets the condition keeps the invariant. -/
theorem UnitsInv.step (hinit : I .init)
    (hI : ∀ x a x', x.UseInv → I x → C x a → x.step a = some x' → I x')
    (hbegins : ∀ x a, a.begins = true → C x a) {st st' : PipePool} {act : PoolAction}
    (h : UnitsInv I st.s_oCPipePool) (hC : OnPipe C st act) (hs : st.step act = some st') :
    UnitsInv I st'.s_oCPipePool := by
  cases act with
  | AddClient lSocket lEpollFD ret ok => exact h.create hinit hI hbegins rfl hs
  | DoAccept lSocket lEpollFD ok => exact h.create hinit hI hbegins rfl hs
  | pipe p a =>
      simp only [PipePool.step] at hs
      split at hs
      · rename_i hp
        obtain ⟨x, hx, rfl⟩ := Option.map_eq_some_iff.mp hs
        refine .put h.inv ?_ ((h.use p).step hx) (hI _ a x (h.use p) (h.unit p) hC hx)
          fun q _ => ⟨h.inUse q, h.use q, h.unit q⟩
        cases huse : st.s_oCPipePool.inUse p with
        | true => exact .inl rfl
        | false =>
            have hfree : (st.pipe p).inUse = false := (h.inUse p).symm.trans huse
            exact .inr ((h.use p).stays_free hfree hp.2 hx).symm
      · cases hs

end Units

/-! ### Counting -/

/-- The pipes in use. -/
def used (st : PipePool) : Nat :=
  (List.range st.s_oCPipePool.allocated).countP st.s_oCPipePool.inUse

/-- The pipes of connections. -/
def connections (st : PipePool) : Nat :=
  (List.range st.s_oCPipePool.allocated).countP fun p => (st.pipe p).isLive

/-- The pipes in use without a connection. -/
def stranded (st : PipePool) : Nat :=
  (List.range st.s_oCPipePool.allocated).countP fun p => (st.pipe p).isStranded

/-- The pipes in use are those of connections and the stranded ones. -/
theorem used_eq {I : PipeLife → Prop} {st : PipePool} (h : UnitsInv I st.s_oCPipePool) :
    st.used = st.connections + st.stranded := by
  have hlive : ∀ p, (st.s_oCPipePool.inUse p && (st.pipe p).isLive) = (st.pipe p).isLive := by
    intro p
    cases huse : st.s_oCPipePool.inUse p with
    | true => simp
    | false =>
        have hnot : (st.pipe p).isLive = false :=
          (h.use p).not_live ((h.inUse p).symm.trans huse)
        rw [hnot]
        rfl
  have hstranded : ∀ p, (st.s_oCPipePool.inUse p && !(st.pipe p).isLive)
      = (st.pipe p).isStranded := by
    intro p
    rw [h.inUse p]
    rfl
  unfold used connections stranded
  rw [List.countP_eq_countP_filter_add _ _ fun p => (st.pipe p).isLive, List.countP_filter,
    List.countP_filter]
  simp only [hlive, hstranded]

/-- All queued events have been processed. -/
def Processed (st : PipePool) : Prop :=
  ∀ p, (st.pipe p).main = .idle ∧ ∀ w, ((st.pipe p).worker w).queue = []

/-- The pool has a pipe in use for each connection, and behind `OnDisconnect` the pipe is back
and clear and the session does not refer to it. -/
structure Reclaimed (st : PipePool) : Prop where
  used : st.Processed → st.used = st.connections
  told : ∀ p, .OnDisconnect ∈ (st.pipe p).callbacks →
    st.s_oCPipePool.inUse p = false ∧ (st.pipe p).pipe.Clear = (st.pipe p).pipe ∧
      (st.pipe p).pointed = false

/-- The condition on a step, for the pipe that it is a step of. -/
def staysOpen (st : PipePool) : PoolAction → Bool
  | .pipe p a => (st.pipe p).staysOpen a
  | _ => true

/-- As long as no worker closes a pipe and BREAK is not handled, every pipe in use has its
connection. -/
theorem reclaimed_of_open {as : List PoolAction} {st : PipePool}
    (hrun : run step init as = some st)
    (hopen : AllSteps step (fun st a => st.staysOpen a = true) init as) : Reclaimed st := by
  have hinv : UnitsInv PipeLife.Attached st.s_oCPipePool := by
    refine run_invariant_of (I := fun st => UnitsInv PipeLife.Attached st.s_oCPipePool)
      (fun st act st' h hC hs => ?_) (unitsInv_init PipeLife.attached_init) hopen hrun
    refine h.step PipeLife.attached_init (C := fun x a => x.staysOpen a = true)
      (fun x a x' _ hx ha hs => hx.step ha hs) (fun x a ha => ?_) ?_ hs
    · cases a <;> cases ha <;> rfl
    · cases act with
      | pipe p a => exact hC
      | AddClient lSocket lEpollFD ret ok => trivial
      | DoAccept lSocket lEpollFD ok => trivial
  refine ⟨fun _ => ?_, fun p hp => absurd hp (hinv.unit p).told⟩
  rw [used_eq hinv, stranded, List.countP_eq_zero.mpr, Nat.add_zero]
  intro p _
  -- A pipe in use is live.
  rw [PipeLife.isStranded, Bool.and_eq_true, Bool.not_eq_true']
  rintro ⟨huse, hnot⟩
  have hlive : (st.pipe p).isLive = true := (hinv.unit p).live huse
  rw [hnot] at hlive
  cases hlive

/-- Traffic on an accepted pipe, while an outbound connect fails. -/
def trafficAndFailure : List PoolAction :=
  [.DoAccept 5 0 true, .pipe 0 .SetStatus, .pipe 0 .ret,
    .AddClient 6 1 .EINPROGRESS true, .pipe 1 (.wait { EPOLLERR := true }),
    .pipe 1 (.DealEvent true), .pipe 0 (.event 0 { EPOLLIN := true }),
    .pipe 0 (.work 0 .EAGAIN .EAGAIN), .pipe 0 (.work 0 .EAGAIN .EAGAIN),
    .pipe 0 (.work 0 (.data [7]) .EAGAIN), .pipe 0 (.work 0 .EAGAIN .EAGAIN)]

/-- There the failed connect has given its pipe back. -/
theorem reclaimed_traffic : ∃ st : PipePool,
    run step init trafficAndFailure = some st ∧ Reclaimed st := by
  have hrun : run step init trafficAndFailure = some _ := rfl
  exact ⟨_, hrun, reclaimed_of_open hrun (by decide)⟩

/-- The peer of an accepted pipe closes, and the session is told. -/
def peerCloses : List PoolAction :=
  [.DoAccept 5 0 true, .pipe 0 .SetStatus, .pipe 0 .ret,
    .pipe 0 (.event 0 { EPOLLIN := true }), .pipe 0 (.work 0 .EAGAIN .EAGAIN),
    .pipe 0 (.work 0 .EAGAIN .EAGAIN), .pipe 0 (.work 0 .ended .EAGAIN),
    -- `DoClose`, the other tests of `Run`, and `m_oEventQueue.Add`.
    .pipe 0 (.work 0 .EAGAIN .EAGAIN), .pipe 0 (.work 0 .EAGAIN .EAGAIN),
    .pipe 0 (.work 0 .EAGAIN .EAGAIN), .pipe 0 (.work 0 .EAGAIN .EAGAIN),
    .pipe 0 (.work 0 .EAGAIN .EAGAIN), .pipe 0 (.read 0), .pipe 0 .look, .pipe 0 .finish]

/-- Its pipe stays in use without a connection, behind `OnDisconnect` too. -/
theorem peer_closes_strands : ∃ st : PipePool, run step init peerCloses = some st ∧
    st.used = 1 ∧ st.connections = 0 ∧ ¬ Reclaimed st := by
  have hrun : run step init peerCloses = some _ := rfl
  refine ⟨_, hrun, by decide, by decide, fun h => ?_⟩
  have hback := (h.told 0 (by decide)).1
  cases hback

end PipePool

end Kernel4GameServer
