import Kernel4GameServer.Lib.NodeList
import Kernel4GameServer.Lib.Run

/-!
# `Kernel4GameServer.Public.TCallBack`: lists of callbacks that change while they are called

`Public/TCallBack.h`. Each id has a `std::list` of callbacks. `Call` walks over it with an
iterator that is one element ahead of the callback it calls, and the callbacks register and
unregister callbacks while it does. The `info` of a callback is only printed, and left out.

A callback can do anything between `turn`, which calls it, and `ret`, where it returns: these
are the steps `RegisterCall` and `UnRgsCall` in between.
-/

set_option autoImplicit false

namespace Kernel4GameServer

open Lib

/-- `TCallBack<ID_TYPE, TYPE_CALL, Args...>`. -/
structure TCallBack (ID_TYPE TYPE_CALL : Type) where
  m_mapContainer : ID_TYPE → Option (NodeList TYPE_CALL)

namespace TCallBack

variable {ID_TYPE TYPE_CALL : Type} [DecidableEq ID_TYPE] [DecidableEq TYPE_CALL]

/-- The constructor. -/
def init : TCallBack ID_TYPE TYPE_CALL := ⟨fun _ => none⟩

/-- The entry of an id is set. -/
def set (t : TCallBack ID_TYPE TYPE_CALL) (id : ID_TYPE) (pool : NodeList TYPE_CALL) :
    TCallBack ID_TYPE TYPE_CALL :=
  ⟨fun id' => if id' = id then some pool else t.m_mapContainer id'⟩

/-- The list that `RegisterCall` and `UnRgsCall` look at: an id without one gets an empty
one. -/
def pool (t : TCallBack ID_TYPE TYPE_CALL) (id : ID_TYPE) : NodeList TYPE_CALL :=
  (t.m_mapContainer id).getD .empty

/-- `std::find` of a callback. -/
def find (t : TCallBack ID_TYPE TYPE_CALL) (id : ID_TYPE) (pFun : TYPE_CALL) : Option Nat :=
  (t.pool id).find fun value => value == pFun

/-- `RegisterCall(id, pFun)`. -/
def RegisterCall (t : TCallBack ID_TYPE TYPE_CALL) (id : ID_TYPE) (pFun : TYPE_CALL) :
    Bool × TCallBack ID_TYPE TYPE_CALL :=
  match t.find id pFun with
  | some _ => (false, t.set id (t.pool id))
  | none => (true, t.set id ((t.pool id).push_back pFun))

/-- `UnRgsCall(id, pFun)`. -/
def UnRgsCall (t : TCallBack ID_TYPE TYPE_CALL) (id : ID_TYPE) (pFun : TYPE_CALL) :
    Bool × TCallBack ID_TYPE TYPE_CALL :=
  match t.find id pFun with
  | none => (false, t.set id (t.pool id))
  | some itor => (true, t.set id ((t.pool id).erase itor))

end TCallBack

/-- What happens in a run. A registration is the number of its element. -/
inductive CallEvent (ID_TYPE TYPE_CALL : Type) where
  | registered (id : ID_TYPE) (i : Nat) (pFun : TYPE_CALL)
  | unregistered (id : ID_TYPE) (i : Nat)
  | began (id : ID_TYPE)
  | invoked (id : ID_TYPE) (i : Nat) (pFun : TYPE_CALL)
  | ended (id : ID_TYPE)
  | readErased (id : ID_TYPE) (i : Nat)
  deriving DecidableEq, Repr

/-- A running `Call(id)`: the iterator `itor`, and whether a callback is running. -/
structure CallWalk (ID_TYPE : Type) where
  id : ID_TYPE
  itor : Option Nat
  inCall : Bool

/-- Callbacks with a `Call` that may be running. -/
structure CallRun (ID_TYPE TYPE_CALL : Type) where
  t : TCallBack ID_TYPE TYPE_CALL
  walk : Option (CallWalk ID_TYPE)
  log : List (CallEvent ID_TYPE TYPE_CALL)

/-- The steps: the calls, one turn of the loop in `Call`, and the return of a callback. -/
inductive CallAction (ID_TYPE TYPE_CALL : Type) where
  | RegisterCall (id : ID_TYPE) (pFun : TYPE_CALL)
  | UnRgsCall (id : ID_TYPE) (pFun : TYPE_CALL)
  | Call (id : ID_TYPE)
  | turn
  | ret

namespace CallRun

variable {ID_TYPE TYPE_CALL : Type} [DecidableEq ID_TYPE] [DecidableEq TYPE_CALL]

/-- No callbacks. -/
def init : CallRun ID_TYPE TYPE_CALL := ⟨.init, none, []⟩

/-- Other code than the loop of `Call` runs. -/
def outside (st : CallRun ID_TYPE TYPE_CALL) : Bool :=
  match st.walk with
  | none => true
  | some w => w.inCall

/-- `while (itor != iend) { icurrent = itor++; (icurrent->value)(a...); }`, one turn up to the
call. An iterator whose element is erased is read none the less; what happens then is not
defined, and the call ends here. -/
def turn (st : CallRun ID_TYPE TYPE_CALL) (w : CallWalk ID_TYPE) : CallRun ID_TYPE TYPE_CALL :=
  match w.itor with
  | none => { st with walk := none, log := st.log ++ [.ended w.id] }
  | some i =>
      match (st.t.pool w.id).get? i with
      -- The iterator is one of an erased element.
      | none => { st with walk := none, log := st.log ++ [.readErased w.id i] }
      | some value =>
          { st with
            walk := some { w with itor := (st.t.pool w.id).next i, inCall := true }
            log := st.log ++ [.invoked w.id i value] }

/-- One step. -/
def step (st : CallRun ID_TYPE TYPE_CALL) :
    CallAction ID_TYPE TYPE_CALL → Option (CallRun ID_TYPE TYPE_CALL)
  | .RegisterCall id pFun =>
      if st.outside then
        match st.t.RegisterCall id pFun with
        | (false, t) => some { st with t := t }
        | (true, t) =>
            some { st with
              t := t
              log := st.log ++ [.registered id (st.t.pool id).fresh pFun] }
      else none
  | .UnRgsCall id pFun =>
      if st.outside then
        some { st with
          t := (st.t.UnRgsCall id pFun).2
          log := match st.t.find id pFun with
            | none => st.log
            | some itor => st.log ++ [.unregistered id itor] }
      else none
  | .Call id =>
      match st.walk with
      | some _ => none
      | none =>
          match st.t.m_mapContainer id with
          | none => some { st with log := st.log ++ [.began id, .ended id] }
          | some pool =>
              some { st with
                walk := some ⟨id, pool.first, false⟩
                log := st.log ++ [.began id] }
  | .turn =>
      match st.walk with
      | none => none
      | some w => if w.inCall then none else some (st.turn w)
  | .ret =>
      match st.walk with
      | none => none
      | some w =>
          if w.inCall then some { st with walk := some { w with inCall := false } } else none

end CallRun

/-! ### What a call promises -/

namespace CallEvent

variable {ID_TYPE TYPE_CALL : Type} [DecidableEq ID_TYPE] [DecidableEq TYPE_CALL]

/-- The registrations after an event. -/
def registrations (before : List (ID_TYPE × Nat × TYPE_CALL)) :
    CallEvent ID_TYPE TYPE_CALL → List (ID_TYPE × Nat × TYPE_CALL)
  | .registered id i pFun => before ++ [(id, i, pFun)]
  | .unregistered id i => before.filter fun r => (r.1, r.2.1) ≠ (id, i)
  | _ => before

/-- The registrations invoked in the current call, after an event. -/
def invocations (before : List Nat) : CallEvent ID_TYPE TYPE_CALL → List Nat
  | .began _ => []
  | .invoked _ i _ => before ++ [i]
  | _ => before

/-- The registrations made since the last invocation, after an event. -/
def latest (before : List (ID_TYPE × Nat)) : CallEvent ID_TYPE TYPE_CALL → List (ID_TYPE × Nat)
  | .began _ => []
  | .invoked _ _ _ => []
  | .registered id i _ => before ++ [(id, i)]
  | _ => before

/-- The registrations after some events. -/
def registeredIn (log : List (CallEvent ID_TYPE TYPE_CALL)) : List (ID_TYPE × Nat × TYPE_CALL) :=
  log.foldl registrations []

/-- The registrations invoked in the current call. -/
def invokedIn (log : List (CallEvent ID_TYPE TYPE_CALL)) : List Nat := log.foldl invocations []

/-- The registrations made since the last invocation. -/
def latestIn (log : List (CallEvent ID_TYPE TYPE_CALL)) : List (ID_TYPE × Nat) :=
  log.foldl latest []

/-- What an event has to be behind the events in front of it. A callback that is invoked is
registered and was not invoked before in this call. When the call ends, every registration has
been invoked, apart from those made by the last callback, whose turn does not come. No erased
element is read. -/
def Ok (log : List (CallEvent ID_TYPE TYPE_CALL)) : CallEvent ID_TYPE TYPE_CALL → Prop
  | .invoked id i pFun => (id, i, pFun) ∈ registeredIn log ∧ i ∉ invokedIn log
  | .ended id => ∀ i pFun, (id, i, pFun) ∈ registeredIn log →
      i ∈ invokedIn log ∨ (id, i) ∈ latestIn log
  | .readErased _ _ => False
  | _ => True

end CallEvent

end Kernel4GameServer
