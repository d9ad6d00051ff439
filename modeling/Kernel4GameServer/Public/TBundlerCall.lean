import Kernel4GameServer.Public.TBundler

/-!
# `Kernel4GameServer.Public.TBundlerCall`: `call_bundler` with handlers that bind and unbind

`call_bundler` of `Public/TBundler.h`, handler by handler. The loop runs the entry at
`list_itor` and then takes the entry behind it. A handler can do anything between `turn`, which
runs it, and `ret`, where it returns: these are the steps `bind`, `unbind` and `unbindObj` in
between. Outside of a call there is `reflush` too.
-/

set_option autoImplicit false

namespace Kernel4GameServer

open Lib

/-- What happens in a run. An entry is the number of its list element. -/
inductive BundlerEvent (ID_TYPE t member_fun : Type) where
  | bound (id : ID_TYPE) (h : t × member_fun)
  | unbound (id : ID_TYPE) (h : t × member_fun)
  | unboundObj (pObj : t)
  | began (id : ID_TYPE)
  | invoked (id : ID_TYPE) (i : Nat) (h : t × member_fun)
  | ended (id : ID_TYPE)
  | readErased (id : ID_TYPE) (i : Nat)
  deriving DecidableEq, Repr

/-- A running `call_bundler(id)`: the iterator `list_itor`, and whether a handler is running. -/
structure BundlerWalk (ID_TYPE : Type) where
  id : ID_TYPE
  list_itor : Option Nat
  inCall : Bool

/-- A pool on which a `call_bundler` may be running. -/
structure BundlerCalls (ID_TYPE t member_fun : Type) where
  pool : BundlerPool ID_TYPE t member_fun
  walk : Option (BundlerWalk ID_TYPE)
  log : List (BundlerEvent ID_TYPE t member_fun)

/-- The steps: the operations, one turn of the loop in `call_bundler`, and the return of a
handler. -/
inductive BundlerAction (ID_TYPE t member_fun : Type) where
  | bind (id : ID_TYPE) (h : t × member_fun)
  | unbind (id : ID_TYPE) (h : t × member_fun)
  | unbindObj (pObj : t) (order : List ID_TYPE)
  | reflush
  | call_bundler (id : ID_TYPE)
  | turn
  | ret

namespace BundlerCalls

variable {ID_TYPE t member_fun : Type} [DecidableEq ID_TYPE] [DecidableEq t]
  [DecidableEq member_fun]

/-- A new pool. -/
def init : BundlerCalls ID_TYPE t member_fun := ⟨.init, none, []⟩

/-- Other code than the loop of `call_bundler` runs. -/
def outside (st : BundlerCalls ID_TYPE t member_fun) : Bool :=
  match st.walk with
  | none => true
  | some w => w.inCall

/-- `list_itor++`. When the element is erased, what happens is not defined, and the call ends
here. -/
def advance (st : BundlerCalls ID_TYPE t member_fun) (w : BundlerWalk ID_TYPE) (i : Nat) :
    BundlerCalls ID_TYPE t member_fun :=
  if i ∈ (st.pool.lists w.id).ids then
    { st with
      walk := some { w with list_itor := (st.pool.lists w.id).next i, inCall := false } }
  else { st with walk := none, log := st.log ++ [.readErased w.id i] }

/-- One turn of the loop, up to the call of the handler. -/
def turn (st : BundlerCalls ID_TYPE t member_fun) (w : BundlerWalk ID_TYPE) :
    BundlerCalls ID_TYPE t member_fun :=
  match w.list_itor with
  | none => { st with walk := none, log := st.log ++ [.ended w.id] }
  | some i =>
      match (st.pool.lists w.id).get? i with
      -- The iterator is one of an erased element.
      | none => { st with walk := none, log := st.log ++ [.readErased w.id i] }
      | some b =>
          if !b.m_deleted then
            { st with
              walk := some { w with inCall := true }
              log := st.log ++ [.invoked w.id i b.handler] }
          else st.advance w i

/-- One step. -/
def step (st : BundlerCalls ID_TYPE t member_fun) :
    BundlerAction ID_TYPE t member_fun → Option (BundlerCalls ID_TYPE t member_fun)
  | .bind id h =>
      if st.outside then
        match st.pool.bind id h with
        | (false, pool) => some { st with pool := pool }
        | (true, pool) => some { st with pool := pool, log := st.log ++ [.bound id h] }
      else none
  | .unbind id h =>
      if st.outside then
        match st.pool.unbind id h with
        | (false, pool) => some { st with pool := pool }
        | (true, pool) => some { st with pool := pool, log := st.log ++ [.unbound id h] }
      else none
  | .unbindObj pObj order =>
      if st.outside ∧ order.Perm st.pool.keys then
        some { st with
          pool := st.pool.unbindObj pObj order
          log := st.log ++ [.unboundObj pObj] }
      else none
  | .reflush =>
      match st.walk with
      | some _ => none
      | none => some { st with pool := st.pool.reflush }
  | .call_bundler id =>
      match st.walk with
      | some _ => none
      | none =>
          if id ∈ st.pool.keys then
            some { st with
              walk := some ⟨id, (st.pool.lists id).first, false⟩
              log := st.log ++ [.began id] }
          else some { st with log := st.log ++ [.began id, .ended id] }
  | .turn =>
      match st.walk with
      | none => none
      | some w => if w.inCall then none else some (st.turn w)
  | .ret =>
      match st.walk with
      | none => none
      | some w =>
          match w.inCall, w.list_itor with
          | true, some i => some (st.advance w i)
          | _, _ => none

end BundlerCalls

/-! ### What a call promises -/

namespace BundlerEvent

variable {ID_TYPE t member_fun : Type} [DecidableEq ID_TYPE] [DecidableEq t]
  [DecidableEq member_fun]

/-- The handlers bound after an event. -/
def bindings (before : List (ID_TYPE × (t × member_fun))) :
    BundlerEvent ID_TYPE t member_fun → List (ID_TYPE × (t × member_fun))
  | .bound id h => before ++ [(id, h)]
  | .unbound id h => before.filter (· ≠ (id, h))
  | .unboundObj pObj => before.filter fun x => x.2.1 ≠ pObj
  | _ => before

/-- The entries invoked in the current call, after an event. -/
def invocations (before : List Nat) : BundlerEvent ID_TYPE t member_fun → List Nat
  | .began _ => []
  | .invoked _ i _ => before ++ [i]
  | _ => before

/-- The handlers bound after some events. -/
def boundIn (log : List (BundlerEvent ID_TYPE t member_fun)) : List (ID_TYPE × (t × member_fun)) :=
  log.foldl bindings []

/-- The entries invoked in the current call. -/
def invokedIn (log : List (BundlerEvent ID_TYPE t member_fun)) : List Nat :=
  log.foldl invocations []

/-- What an event has to be behind the events in front of it. A handler that is invoked is
bound, and its entry was not invoked before in this call. The loop never reads or leaves an
erased element. -/
def Ok (log : List (BundlerEvent ID_TYPE t member_fun)) : BundlerEvent ID_TYPE t member_fun → Prop
  | .invoked id i h => (id, h) ∈ boundIn log ∧ i ∉ invokedIn log
  | .readErased _ _ => False
  | _ => True

end BundlerEvent

end Kernel4GameServer
