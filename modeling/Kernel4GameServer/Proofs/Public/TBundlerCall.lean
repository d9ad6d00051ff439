import Kernel4GameServer.Lib.History
import Kernel4GameServer.Proofs.Public.TBundler
import Kernel4GameServer.Public.TBundlerCall

/-!
# `Kernel4GameServer.Proofs.Public.TBundlerCall`: handlers that bind and unbind while they run

`unbind` only marks an entry, so a handler can unbind any handler, itself included. `bind` of a
handler with a marked entry erases that entry. A handler that unbinds and binds itself so
erases the entry the loop stands on, and the loop goes on from there. `call_bundler_safe_iff`
says that this is the only way in which a call goes wrong.
-/

set_option autoImplicit false
set_option linter.unusedSectionVars false

namespace Kernel4GameServer

open Lib

variable {ID_TYPE t member_fun : Type} [DecidableEq ID_TYPE] [DecidableEq t]
  [DecidableEq member_fun]

namespace BundlerEvent

variable (log : List (BundlerEvent ID_TYPE t member_fun)) (e : BundlerEvent ID_TYPE t member_fun)

@[simp] theorem boundIn_snoc : boundIn (log ++ [e]) = bindings (boundIn log) e := by
  simp [boundIn]

@[simp] theorem invokedIn_snoc : invokedIn (log ++ [e]) = invocations (invokedIn log) e := by
  simp [invokedIn]

end BundlerEvent

namespace BundlerCalls

open BundlerPool BundlerEvent

/-- What each step does. -/
inductive Does (st : BundlerCalls ID_TYPE t member_fun) :
    BundlerAction ID_TYPE t member_fun → BundlerCalls ID_TYPE t member_fun → Prop where
  | refused (id : ID_TYPE) (h : t × member_fun) : (st.pool.bind id h).1 = false →
      Does st (.bind id h) { st with pool := (st.pool.bind id h).2 }
  | bound (id : ID_TYPE) (h : t × member_fun) : (st.pool.bind id h).1 = true →
      Does st (.bind id h)
        { st with pool := (st.pool.bind id h).2, log := st.log ++ [.bound id h] }
  | unknown (id : ID_TYPE) (h : t × member_fun) : (st.pool.unbind id h).1 = false →
      Does st (.unbind id h) { st with pool := (st.pool.unbind id h).2 }
  | unbound (id : ID_TYPE) (h : t × member_fun) : (st.pool.unbind id h).1 = true →
      Does st (.unbind id h)
        { st with pool := (st.pool.unbind id h).2, log := st.log ++ [.unbound id h] }
  | unboundObj (pObj : t) (order : List ID_TYPE) : order.Perm st.pool.keys →
      Does st (.unbindObj pObj order)
        { st with pool := st.pool.unbindObj pObj order, log := st.log ++ [.unboundObj pObj] }
  | reflush : st.walk = none → Does st .reflush { st with pool := st.pool.reflush }
  | noList (id : ID_TYPE) : st.walk = none →
      Does st (.call_bundler id) { st with log := st.log ++ [.began id] ++ [.ended id] }
  | began (id : ID_TYPE) : st.walk = none →
      Does st (.call_bundler id)
        { st with
          walk := some ⟨id, (st.pool.lists id).first, false⟩
          log := st.log ++ [.began id] }
  | ended (w : BundlerWalk ID_TYPE) : st.walk = some w → w.list_itor = none →
      Does st .turn { st with walk := none, log := st.log ++ [.ended w.id] }
  | invoked (w : BundlerWalk ID_TYPE) (i : Nat) (b : Bundler t member_fun) : st.walk = some w →
      w.inCall = false → w.list_itor = some i → (i, b) ∈ (st.pool.lists w.id).nodes →
      b.m_deleted = false →
      Does st .turn
        { st with
          walk := some { w with inCall := true }
          log := st.log ++ [.invoked w.id i b.handler] }
  | advanced (a : BundlerAction ID_TYPE t member_fun) (w : BundlerWalk ID_TYPE) (i : Nat) :
      a = .turn ∨ a = .ret → st.walk = some w → w.list_itor = some i →
      i ∈ (st.pool.lists w.id).ids →
      Does st a
        { st with
          walk := some { w with list_itor := (st.pool.lists w.id).next i, inCall := false } }
  | erased (a : BundlerAction ID_TYPE t member_fun) (w : BundlerWalk ID_TYPE) (i : Nat) :
      a = .turn ∨ a = .ret → st.walk = some w → w.list_itor = some i →
      i ∉ (st.pool.lists w.id).ids →
      Does st a { st with walk := none, log := st.log ++ [.readErased w.id i] }

/-- What `list_itor++` does. -/
theorem advance_does {st st' : BundlerCalls ID_TYPE t member_fun} {w : BundlerWalk ID_TYPE}
    {i : Nat} {a : BundlerAction ID_TYPE t member_fun} (ha : a = .turn ∨ a = .ret)
    (hwalk : st.walk = some w) (hitor : w.list_itor = some i) (heq : st.advance w i = st') :
    Does st a st' := by
  subst heq
  unfold advance
  split
  · rename_i hin
    exact .advanced a w i ha hwalk hitor hin
  · rename_i hnot
    exact .erased a w i ha hwalk hitor hnot

/-- A step that is taken is one of the above. -/
theorem step_does {st st' : BundlerCalls ID_TYPE t member_fun}
    {a : BundlerAction ID_TYPE t member_fun} (hstep : st.step a = some st') : Does st a st' := by
  cases a with
  | bind id h =>
      simp only [step] at hstep
      split at hstep
      · split at hstep
        · rename_i pool hbind
          have hdoes : Does st (.bind id h) _ := .refused id h (by rw [hbind])
          rw [hbind] at hdoes
          exact Option.some.inj hstep ▸ hdoes
        · rename_i pool hbind
          have hdoes : Does st (.bind id h) _ := .bound id h (by rw [hbind])
          rw [hbind] at hdoes
          exact Option.some.inj hstep ▸ hdoes
      · cases hstep
  | unbind id h =>
      simp only [step] at hstep
      split at hstep
      · split at hstep
        · rename_i pool hunbind
          have hdoes : Does st (.unbind id h) _ := .unknown id h (by rw [hunbind])
          rw [hunbind] at hdoes
          exact Option.some.inj hstep ▸ hdoes
        · rename_i pool hunbind
          have hdoes : Does st (.unbind id h) _ := .unbound id h (by rw [hunbind])
          rw [hunbind] at hdoes
          exact Option.some.inj hstep ▸ hdoes
      · cases hstep
  | unbindObj pObj order =>
      simp only [step] at hstep
      split at hstep
      · -- The order of the map is any one of its keys.
        rename_i horder
        exact Option.some.inj hstep ▸ .unboundObj pObj order horder.2
      · cases hstep
  | reflush =>
      simp only [step] at hstep
      split at hstep
      · cases hstep
      · rename_i hwalk
        exact Option.some.inj hstep ▸ .reflush hwalk
  | call_bundler id =>
      simp only [step] at hstep
      split at hstep
      · cases hstep
      · rename_i hwalk
        split at hstep
        · exact Option.some.inj hstep ▸ .began id hwalk
        · have hdoes : Does st (.call_bundler id) _ := .noList id hwalk
          rw [List.append_assoc] at hdoes
          exact Option.some.inj hstep ▸ hdoes
  | turn =>
      simp only [step, turn] at hstep
      split at hstep
      · cases hstep
      · rename_i w hwalk
        split at hstep
        · cases hstep
        · rename_i hin
          split at hstep
          · -- The iterator is at the end of the list.
            rename_i hend
            exact Option.some.inj hstep ▸ .ended w hwalk hend
          · rename_i i hitor
            split at hstep
            · -- The entry under the iterator was erased by a callback.
              rename_i hget
              refine Option.some.inj hstep ▸ .erased _ w i (.inl rfl) hwalk hitor ?_
              rw [← NodeList.get?_isSome, hget]
              exact Bool.false_ne_true
            · rename_i b hget
              split at hstep
              · rename_i hlive
                exact Option.some.inj hstep ▸ .invoked w i b hwalk (Bool.eq_false_iff.mpr hin) hitor
                  (NodeList.get?_eq_some.mp hget) (by simpa using hlive)
              · -- A deleted entry is passed over without a call.
                exact advance_does (.inl rfl) hwalk hitor (Option.some.inj hstep)
  | ret =>
      simp only [step] at hstep
      split at hstep
      · cases hstep
      · rename_i w hwalk
        split at hstep
        · rename_i i _ hitor
          exact advance_does (.inr rfl) hwalk hitor (Option.some.inj hstep)
        · cases hstep

/-! ### The invariant -/

/-- What a call has kept to so far: every event is as it has to be, and the entry that the loop
stands on is in the list. -/
def WalkSafe (st : BundlerCalls ID_TYPE t member_fun) : Prop :=
  Always BundlerEvent.Ok st.log ∧
    ∀ w i, st.walk = some w → w.list_itor = some i → i ∈ (st.pool.lists w.id).ids

/-- The condition on a step: it does not bind the handler that is running, once that has been
unbound. -/
def NotRebound (st : BundlerCalls ID_TYPE t member_fun) :
    BundlerAction ID_TYPE t member_fun → Prop
  | .bind id h => ∀ w i b, st.walk = some w → w.id = id → w.list_itor = some i →
      (i, b) ∈ (st.pool.lists id).nodes → b.handler = h → b.m_deleted = false
  | _ => True

/-- The invariant of the runs that are safe. -/
structure Good (st : BundlerCalls ID_TYPE t member_fun) : Prop where
  inv : st.pool.Inv
  bound : ∀ id h, (id, h) ∈ boundIn st.log ↔ h ∈ st.pool.live id
  safe : st.WalkSafe
  ahead : ∀ w i, st.walk = some w → w.list_itor = some i →
    ∀ k ∈ invokedIn st.log, k < i ∨ w.inCall = true ∧ k = i

/-- A call has read an erased element, or stands on one. -/
structure Bad (st : BundlerCalls ID_TYPE t member_fun) : Prop where
  inv : st.pool.Inv
  erased : (∃ id i, BundlerEvent.readErased id i ∈ st.log) ∨
    ∃ w i, st.walk = some w ∧ w.list_itor = some i ∧ st.pool.Gone w.id i

/-- Nothing bound, nothing called. -/
theorem init_good : (init : BundlerCalls ID_TYPE t member_fun).Good where
  inv := init_inv
  bound id h := by simp [init, boundIn, live, liveOf, BundlerPool.init]
  safe := ⟨always_nil, nofun⟩
  ahead := nofun

/-- An operation keeps the invariant that changes the bound handlers as its event says, and
does not erase the entry the loop stands on. -/
theorem Good.operate {st : BundlerCalls ID_TYPE t member_fun} (h : st.Good)
    {pool : BundlerPool ID_TYPE t member_fun} {e : BundlerEvent ID_TYPE t member_fun}
    (hinv : pool.Inv) (hok : ∀ log, BundlerEvent.Ok log e)
    (hinvoked : ∀ before, invocations before e = before)
    (hbound : ∀ id g, (id, g) ∈ bindings (boundIn st.log) e ↔ g ∈ pool.live id)
    (hsaved : ∀ w i, st.walk = some w → w.list_itor = some i →
      i ∈ (st.pool.lists w.id).ids → i ∈ (pool.lists w.id).ids) :
    ({ st with pool := pool, log := st.log ++ [e] } : BundlerCalls ID_TYPE t member_fun).Good where
  inv := hinv
  bound id g := by
    rw [boundIn_snoc]
    exact hbound id g
  safe := ⟨always_snoc.mpr ⟨h.safe.1, hok _⟩, fun w i hw hi =>
    hsaved w i hw hi (h.safe.2 w i hw hi)⟩
  ahead w i hw hi := by
    rw [invokedIn_snoc, hinvoked]
    exact h.ahead w i hw hi

/-- An operation that refuses changes nothing. -/
theorem bind_refused {pool : BundlerPool ID_TYPE t member_fun} (hinv : pool.Inv) {id : ID_TYPE}
    {h : t × member_fun} (href : (pool.bind id h).1 = false) : (pool.bind id h).2 = pool := by
  rcases bind_cases hinv id h with ⟨_, -, -, -, -, -, heq⟩ | ⟨_, _, -, -, -, -, heq⟩ |
    ⟨_, _, -, -, -, -, heq⟩ <;> rw [heq] at href ⊢ <;> cases href

/-- A handler that is not running, or not unbound, is bound. -/
theorem Good.bind {st : BundlerCalls ID_TYPE t member_fun} (h : st.Good) {id : ID_TYPE}
    {g : t × member_fun} (hC : st.NotRebound (.bind id g)) (hret : (st.pool.bind id g).1 = true) :
    ({ st with pool := (st.pool.bind id g).2, log := st.log ++ [.bound id g] } :
      BundlerCalls ID_TYPE t member_fun).Good := by
  have hbindings : ∀ id' f, (id', f) ∈ bindings (boundIn st.log) (.bound id g) ↔
      f ∈ st.pool.live id' ∨ id' = id ∧ f = g := by
    intro id' f
    rw [bindings, List.mem_append, List.mem_singleton, Prod.mk.injEq, h.bound]
  have hlive : ∀ {pool : BundlerPool ID_TYPE t member_fun}, pool.live = st.pool.live →
      ∀ id' f, (id', f) ∈ bindings (boundIn st.log) (.bound id g) ↔
        f ∈ (pool.push id g).live id' := by
    intro pool heq id' f
    rw [hbindings, live_push, heq]
    split
    · rename_i hid
      subst hid
      simp
    · rename_i hid
      simp [hid]
  rcases bind_cases h.inv id g with ⟨keys', -, -, -, -, -, heq⟩ |
    ⟨i, b, -, hmem, hb, hdel, heq⟩ | ⟨i, b, -, -, -, -, heq⟩
  · refine h.operate (h.inv.bind id g) (fun _ => trivial) (fun _ => rfl) ?_ ?_
    · rw [heq]
      exact hlive rfl
    · rw [heq]
      intro w j _ _ hj
      obtain ⟨b, hmem⟩ := NodeList.mem_ids.mp hj
      exact NodeList.mem_ids_of_mem (mem_push.mpr (.inl hmem))
  · have hnode := h.inv.marked id i b hmem hdel
    refine h.operate (h.inv.bind id g) (fun _ => trivial) (fun _ => rfl) ?_ ?_
    · rw [heq]
      exact hlive (funext (live_dropNode h.inv hmem hdel))
    · rw [heq]
      intro w j hw hitor hj
      obtain ⟨b', hmem'⟩ := NodeList.mem_ids.mp hj
      refine NodeList.mem_ids_of_mem (mem_push.mpr (.inl ((mem_dropNode hnode).mpr ⟨hmem', ?_⟩)))
      -- The entry that is erased is not the one the loop stands on.
      intro hsame
      cases hsame
      rw [hC w j b hw rfl hitor hmem hb] at hdel
      cases hdel
  · rw [heq] at hret
    cases hret

/-- A handler is unbound. -/
theorem Good.unbind {st : BundlerCalls ID_TYPE t member_fun} (h : st.Good) {id : ID_TYPE}
    {g : t × member_fun} (hret : (st.pool.unbind id g).1 = true) :
    ({ st with pool := (st.pool.unbind id g).2, log := st.log ++ [.unbound id g] } :
      BundlerCalls ID_TYPE t member_fun).Good := by
  rcases unbind_cases h.inv id g with ⟨-, heq⟩ | ⟨i, b, hmem, hb, heq⟩
  · rw [heq] at hret
    cases hret
  · refine h.operate (h.inv.unbind id g) (fun _ => trivial) (fun _ => rfl) (fun id' f => ?_) ?_
    · rw [heq, bindings, List.mem_filter, h.bound, live_mark h.inv hmem hb]
      split
      · rename_i hid
        subst hid
        simp
      · rename_i hid
        simp [hid]
    · rw [heq]
      intro w j _ _ hj
      rw [ids_mark]
      exact hj

/-- An object is unbound. -/
theorem Good.unbindObj {st : BundlerCalls ID_TYPE t member_fun} (h : st.Good) {pObj : t}
    {order : List ID_TYPE} (horder : order.Perm st.pool.keys) :
    ({ st with pool := st.pool.unbindObj pObj order, log := st.log ++ [.unboundObj pObj] } :
      BundlerCalls ID_TYPE t member_fun).Good := by
  refine h.operate (h.inv.unbindObj horder) (fun _ => trivial) (fun _ => rfl)
    (fun id g => ?_) fun w j _ _ hj => ?_
  · rw [bindings, List.mem_filter, h.bound, live_unbindObj h.inv horder, List.mem_filter]
  · obtain ⟨b, hmem⟩ := NodeList.mem_ids.mp hj
    have hfst : (markObj pObj (j, b)).1 = j := by
      unfold markObj
      split <;> rfl
    exact NodeList.mem_ids_of_mem ((mem_unbindObj h.inv horder).mpr
      ⟨b, hmem, (Prod.ext hfst.symm rfl : (j, (markObj pObj (j, b)).2) = markObj pObj (j, b))⟩)

/-- The loop takes the entry behind the one it stands on. -/
theorem Good.advance {st : BundlerCalls ID_TYPE t member_fun} (h : st.Good)
    {w : BundlerWalk ID_TYPE} {i : Nat} (hwalk : st.walk = some w) (hitor : w.list_itor = some i)
    (hin : i ∈ (st.pool.lists w.id).ids) :
    ({ st with
      walk := some { w with list_itor := (st.pool.lists w.id).next i, inCall := false } } :
      BundlerCalls ID_TYPE t member_fun).Good where
  inv := h.inv
  bound := h.bound
  safe := ⟨h.safe.1, fun w' j hw' hj => by
    cases hw'
    exact (NodeList.next_some hin hj).1⟩
  ahead w' j hw' hj k hk := by
    cases hw'
    have hij := (NodeList.next_some hin hj).2.1
    rcases h.ahead w i hwalk hitor k hk with hki | ⟨-, rfl⟩
    · exact .inl (Nat.lt_trans hki hij)
    · exact .inl hij

/-- A step that meets the condition keeps the invariant. -/
theorem Good.step {st st' : BundlerCalls ID_TYPE t member_fun}
    {a : BundlerAction ID_TYPE t member_fun} (h : st.Good) (hC : st.NotRebound a)
    (hstep : st.step a = some st') : st'.Good := by
  cases step_does hstep with
  | refused id g href =>
      -- A refused `Bind` changes nothing.
      rw [bind_refused h.inv href]
      exact h
  | bound id g hret => exact h.bind hC hret
  | unknown id g href =>
      rcases unbind_cases h.inv id g with ⟨-, heq⟩ | ⟨i, b, -, -, heq⟩
      · rw [heq]
        exact h
      · rw [heq] at href
        cases href
  | unbound id g hret => exact h.unbind hret
  | unboundObj pObj order horder => exact h.unbindObj horder
  | reflush hwalk =>
      refine ⟨h.inv.reflush, fun id g => ?_, ⟨h.safe.1, fun w i hw => ?_⟩, h.ahead⟩
      · rw [live_reflush h.inv]
        exact h.bound id g
      · rw [hwalk] at hw
        cases hw
  | noList id hwalk =>
      refine ⟨h.inv, fun id' g => ?_, ⟨always_snoc.mpr ⟨always_snoc.mpr ⟨h.safe.1, trivial⟩,
        trivial⟩, h.safe.2⟩, fun w i hw => ?_⟩
      · rw [boundIn_snoc, boundIn_snoc]
        exact h.bound id' g
      · rw [hwalk] at hw
        cases hw
  | began id hwalk =>
      refine ⟨h.inv, fun id' g => ?_, ⟨always_snoc.mpr ⟨h.safe.1, trivial⟩, fun w i hw hi => ?_⟩,
        fun w i hw hi k hk => ?_⟩
      · rw [boundIn_snoc]
        exact h.bound id' g
      · cases hw
        exact (NodeList.first_some hi).1
      · rw [invokedIn_snoc] at hk
        cases hk
  | ended w hwalk hend =>
      refine ⟨h.inv, fun id' g => ?_, ⟨always_snoc.mpr ⟨h.safe.1, trivial⟩, nofun⟩, nofun⟩
      rw [boundIn_snoc]
      exact h.bound id' g
  | invoked w i b hwalk hin hitor hmem hlive =>
      -- The entries invoked so far lie before the iterator, so this one is new.
      have hnew : i ∉ invokedIn st.log := fun hmem => by
        rcases h.ahead w i hwalk hitor i hmem with hlt | ⟨hcall, -⟩
        · exact Nat.lt_irrefl i hlt
        · rw [hin] at hcall
          cases hcall
      refine ⟨h.inv, fun id' g => ?_, ⟨always_snoc.mpr ⟨h.safe.1, ?_, hnew⟩, fun w' j hw' hj => ?_⟩,
        fun w' j hw' hj k hk => ?_⟩
      · rw [boundIn_snoc]
        exact h.bound id' g
      · -- The entry is not marked, so its handler is bound.
        exact (h.bound w.id b.handler).mpr (mem_liveOf.mpr ⟨i, b, hmem, rfl, hlive⟩)
      · cases hw'
        exact h.safe.2 w j hwalk hj
      · cases hw'
        obtain rfl : i = j := Option.some.inj (hitor.symm.trans hj)
        rw [invokedIn_snoc] at hk
        rcases List.mem_append.mp hk with hk | hk
        · rcases h.ahead w i hwalk hitor k hk with hlt | ⟨-, rfl⟩
          · exact .inl hlt
          · exact .inr ⟨rfl, rfl⟩
        · exact .inr ⟨rfl, List.mem_singleton.mp hk⟩
  | advanced a w i ha hwalk hitor hin => exact h.advance hwalk hitor hin
  | erased a w i ha hwalk hitor hnot => exact absurd (h.safe.2 w i hwalk hitor) hnot

/-- A step that binds the running handler, once it has been unbound, erases the entry the loop
stands on. -/
theorem Good.step_bad {st st' : BundlerCalls ID_TYPE t member_fun}
    {a : BundlerAction ID_TYPE t member_fun} (h : st.Good) (hC : ¬ st.NotRebound a)
    (hstep : st.step a = some st') : st'.Bad := by
  cases a with
  | bind id g =>
      simp only [NotRebound, not_forall] at hC
      obtain ⟨w, i, b, hwalk, rfl, hitor, hmem, hb, hdel⟩ := hC
      have hdel : b.m_deleted = true := Bool.not_eq_false _ ▸ hdel
      -- `Bind` erases the marked entry and pushes a new one, and the loop stands on the erased
      -- one.
      have hgone : (st.pool.bind w.id g).2.Gone w.id i := by
        rcases bind_cases h.inv w.id g with ⟨_, -, -, -, -, hnone, -⟩ |
          ⟨j, b', -, hmem', hb', -, heq⟩ | ⟨j, b', -, hmem', hb', hlive, -⟩
        · exact absurd hb (hnone _ hmem)
        · -- The entry of the handler is the one under the iterator.
          have hij := h.inv.unique w.id j i b' b hmem' hmem (hb'.trans hb.symm)
          subst hij
          rw [heq]
          refine Gone.push ⟨?_, fun hin => ?_⟩ w.id g
          · rw [BundlerPool.dropNode, if_pos (h.inv.marked w.id j b hmem hdel)]
            exact (fresh_deleted st.pool _ w.id).symm ▸
              NodeList.lt_fresh (NodeList.mem_ids_of_mem hmem)
          · obtain ⟨b'', hin⟩ := NodeList.mem_ids.mp hin
            exact ((mem_dropNode (h.inv.marked w.id j b hmem hdel)).mp hin).2 rfl
        · have hij := h.inv.unique w.id j i b' b hmem' hmem (hb'.trans hb.symm)
          subst hij
          -- That entry is marked, so `Bind` does not find it live.
          rw [NodeList.node_unique hmem' hmem, hdel] at hlive
          cases hlive
      cases step_does hstep with
      | refused => exact ⟨h.inv.bind _ _, .inr ⟨w, i, hwalk, hitor, hgone⟩⟩
      | bound => exact ⟨h.inv.bind _ _, .inr ⟨w, i, hwalk, hitor, hgone⟩⟩
      | advanced _ _ _ ha => rcases ha with ha | ha <;> cases ha
      | erased _ _ _ ha => rcases ha with ha | ha <;> cases ha
  | unbind id g => exact absurd trivial hC
  | unbindObj pObj order => exact absurd trivial hC
  | reflush => exact absurd trivial hC
  | call_bundler id => exact absurd trivial hC
  | turn => exact absurd trivial hC
  | ret => exact absurd trivial hC

/-- An erased entry is never in the list again, and the loop reads it when the handler
returns. -/
theorem Bad.step {st st' : BundlerCalls ID_TYPE t member_fun}
    {a : BundlerAction ID_TYPE t member_fun} (h : st.Bad) (hstep : st.step a = some st') :
    st'.Bad := by
  rcases h.erased with ⟨id, i, hmem⟩ | ⟨w, i, hwalk, hitor, hgone⟩
  · have hinv : st'.pool.Inv := by
      cases step_does hstep with
      | refused id g | bound id g => exact h.inv.bind id g
      | unknown id g | unbound id g => exact h.inv.unbind id g
      | unboundObj pObj order horder => exact h.inv.unbindObj horder
      | reflush => exact h.inv.reflush
      | noList | began | ended | invoked | advanced | erased => exact h.inv
    refine ⟨hinv, .inl ⟨id, i, ?_⟩⟩
    -- The event is in the log, and the log only grows.
    cases step_does hstep <;> simp [hmem]
  · cases step_does hstep with
    | refused id g | bound id g =>
        exact ⟨h.inv.bind id g, .inr ⟨w, i, hwalk, hitor, hgone.bind id g⟩⟩
    | unknown id g | unbound id g =>
        exact ⟨h.inv.unbind id g, .inr ⟨w, i, hwalk, hitor, hgone.unbind id g⟩⟩
    | unboundObj pObj order horder =>
        exact ⟨h.inv.unbindObj horder, .inr ⟨w, i, hwalk, hitor, hgone.unbindObj pObj order⟩⟩
    | reflush hnone => simp [hnone] at hwalk
    | noList id hnone => simp [hnone] at hwalk
    | began id hnone => simp [hnone] at hwalk
    | ended w' hwalk' hend =>
        cases hwalk.symm.trans hwalk'
        simp [hitor] at hend
    | invoked w' j b hwalk' hin hitor' hmem hlive =>
        cases hwalk.symm.trans hwalk'
        cases hitor.symm.trans hitor'
        -- The callee would have to be in the list.
        exact absurd (NodeList.mem_ids_of_mem hmem) hgone.2
    | advanced a w' j ha hwalk' hitor' hin =>
        cases hwalk.symm.trans hwalk'
        cases hitor.symm.trans hitor'
        exact absurd hin hgone.2
    | erased a w' j ha hwalk' hitor' hnot => exact ⟨h.inv, .inl ⟨w'.id, j, by simp⟩⟩

/-- When calls are safe under re-entrancy. In a run of any operations and calls, whatever the
handlers bind and unbind, all of the following holds just when no running handler binds itself
after it was unbound: the loop never reads or leaves an erased element, no entry is invoked
twice in one call, and no handler is invoked between being unbound and being bound again. -/
theorem call_bundler_safe_iff {as : List (BundlerAction ID_TYPE t member_fun)}
    {st : BundlerCalls ID_TYPE t member_fun} (h : run step init as = some st) :
    st.WalkSafe ↔ AllSteps step NotRebound init as := by
  rcases run_good_or_bad (A := fun _ _ => True) (C := NotRebound) (G := Good) (B := Bad)
    (fun _ _ _ hs _ hC hstep => hs.step hC hstep) (fun _ _ _ hs _ hC hstep => hs.step_bad hC hstep)
    (fun _ _ _ hs _ hstep => hs.step hstep) init_good
    (allSteps_of_forall (fun _ _ => trivial) _ _) h
    with ⟨hall, hgood⟩ | ⟨hnot, hbad⟩
  · exact ⟨fun _ => hall, fun _ => hgood.safe⟩
  · refine ⟨fun hsafe => ?_, fun hall => absurd hall hnot⟩
    rcases hbad.erased with ⟨id, i, hmem⟩ | ⟨w, i, hwalk, hitor, hgone⟩
    · obtain ⟨pre, post, hsplit⟩ := List.append_of_mem hmem
      exact (hsafe.1 pre _ post hsplit).elim
    · exact absurd (hsafe.2 w i hwalk hitor) hgone.2

/-- A handler unbinds itself and the handler behind it; the loop passes both entries and ends. -/
theorem call_bundler_unbinds :
    ∃ st : BundlerCalls Nat Nat Nat,
      run step init [.bind 0 (1, 2), .bind 0 (3, 4), .call_bundler 0, .turn, .unbind 0 (1, 2),
        .unbind 0 (3, 4), .ret, .turn, .turn] = some st ∧ st.WalkSafe ∧ .ended 0 ∈ st.log := by
  have hrun : run step (init : BundlerCalls Nat Nat Nat) [.bind 0 (1, 2), .bind 0 (3, 4),
    .call_bundler 0, .turn, .unbind 0 (1, 2), .unbind 0 (3, 4), .ret, .turn, .turn] = some _ := rfl
  refine ⟨_, hrun, (call_bundler_safe_iff hrun).mpr ?_, by decide⟩
  exact ⟨nofun, nofun, trivial, trivial, trivial, trivial, trivial, trivial, trivial, trivial⟩

/-- A handler unbinds and binds itself: its entry is erased, and the loop leaves it. -/
theorem call_bundler_rebinds :
    ∃ st : BundlerCalls Nat Nat Nat,
      run step init [.bind 0 (1, 2), .call_bundler 0, .turn, .unbind 0 (1, 2), .bind 0 (1, 2),
        .ret] = some st ∧ .readErased 0 0 ∈ st.log ∧ ¬ st.WalkSafe := by
  refine ⟨_, rfl, by decide, fun hsafe => ?_⟩
  exact hsafe.1 [.bound 0 (1, 2), .began 0, .invoked 0 0 (1, 2), .unbound 0 (1, 2),
    .bound 0 (1, 2)] _ [] rfl

end BundlerCalls

end Kernel4GameServer
