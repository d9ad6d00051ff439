import Kernel4GameServer.Lib.NodeList
import Kernel4GameServer.Lib.Run

/-!
# `Kernel4GameServer.Public.TBundler`: handlers that are unbound later

`Public/TBundler.h`. A `bundler_pool` has a list of handlers for each id. `unbind` only marks an
entry as deleted and puts a node with its iterators into `m_delete_list`; the entry leaves the
list in the next `reflush`, or when the handler is bound again.

An iterator of the hash map is its key: no operation here erases an entry of the map. An insertion
may rehash it, which leaves the iterators valid in the implementations that are used (`hash_map` of
Visual C++, `tr1::unordered_map` of GCC) and need not in others. `erase` of
an element that is erased already is not defined; `erasedTwice` records that it happened. In a
release build a `TASSERT` is empty, so `bind` of a bound handler returns false.
-/

set_option autoImplicit false

namespace Kernel4GameServer

open Lib

/-- `bundler<t, Args...>`. -/
structure Bundler (t member_fun : Type) where
  m_pObj : t
  m_pAddress : member_fun
  m_deleted : Bool
  deriving DecidableEq, Repr

/-- What `operator ==` compares: the object and the function. -/
def Bundler.handler {t member_fun : Type} (b : Bundler t member_fun) : t × member_fun :=
  (b.m_pObj, b.m_pAddress)

/-- `delete_node`. -/
structure DeleteNode (ID_TYPE : Type) where
  map_itor : ID_TYPE
  list_itor : Nat
  deriving DecidableEq, Repr

/-- `bundler_pool<t, ID_TYPE, Args...>`. `keys` are the ids in the hash map, and `lists` their
lists; an id that is no key has the empty list that an insertion gives it. -/
structure BundlerPool (ID_TYPE t member_fun : Type) where
  keys : List ID_TYPE
  lists : ID_TYPE → NodeList (Bundler t member_fun)
  m_delete_list : List (DeleteNode ID_TYPE)
  erasedTwice : Bool

namespace BundlerPool

variable {ID_TYPE t member_fun : Type} [DecidableEq ID_TYPE] [DecidableEq t]
  [DecidableEq member_fun]

/-- A new pool. -/
def init : BundlerPool ID_TYPE t member_fun := ⟨[], fun _ => .empty, [], false⟩

/-- The list of an id is set. -/
def set (pool : BundlerPool ID_TYPE t member_fun) (id : ID_TYPE)
    (l : NodeList (Bundler t member_fun)) : BundlerPool ID_TYPE t member_fun :=
  { pool with lists := fun id' => if id' = id then l else pool.lists id' }

/-- `std::find` of a handler. -/
def find (pool : BundlerPool ID_TYPE t member_fun) (id : ID_TYPE) (h : t × member_fun) :
    Option Nat :=
  (pool.lists id).find fun b => b.handler == h

/-- `list_itor->m_deleted`. -/
def isDeleted (pool : BundlerPool ID_TYPE t member_fun) (id : ID_TYPE) (list_itor : Nat) : Bool :=
  ((pool.lists id).get? list_itor).any Bundler.m_deleted

/-- `push_back` of a new entry. -/
def push (pool : BundlerPool ID_TYPE t member_fun) (id : ID_TYPE) (h : t × member_fun) :
    BundlerPool ID_TYPE t member_fun :=
  pool.set id ((pool.lists id).push_back ⟨h.1, h.2, false⟩)

/-- `delete_node::deleted()`. -/
def deleted (pool : BundlerPool ID_TYPE t member_fun) (node : DeleteNode ID_TYPE) :
    BundlerPool ID_TYPE t member_fun :=
  { pool.set node.map_itor ((pool.lists node.map_itor).erase node.list_itor) with
    erasedTwice :=
      pool.erasedTwice || !decide (node.list_itor ∈ (pool.lists node.map_itor).ids) }

/-- The loop of `bind` over `m_delete_list`: the first node of the entry is carried out and
leaves the list. -/
def dropNode (pool : BundlerPool ID_TYPE t member_fun) (node : DeleteNode ID_TYPE) :
    BundlerPool ID_TYPE t member_fun :=
  if node ∈ pool.m_delete_list then
    { pool.deleted node with m_delete_list := pool.m_delete_list.erase node }
  else pool

/-- `bind(id, pObj, paddress)`. -/
def bind (pool : BundlerPool ID_TYPE t member_fun) (id : ID_TYPE) (h : t × member_fun) :
    Bool × BundlerPool ID_TYPE t member_fun :=
  if id ∈ pool.keys then
    match pool.find id h with
    | none => (true, pool.push id h)
    | some list_itor =>
        -- The entry waits in `m_delete_list`. It is erased now, and a new one is pushed.
        if pool.isDeleted id list_itor then (true, (pool.dropNode ⟨id, list_itor⟩).push id h)
        else (false, pool)
  else (true, { pool.push id h with keys := pool.keys ++ [id] })

/-- `list_itor->m_deleted = true; m_delete_list.push_back(delete_node(pool_itor, list_itor));` -/
def mark (pool : BundlerPool ID_TYPE t member_fun) (id : ID_TYPE) (list_itor : Nat) :
    BundlerPool ID_TYPE t member_fun :=
  { pool.set id ((pool.lists id).modify list_itor fun b => { b with m_deleted := true }) with
    m_delete_list := pool.m_delete_list ++ [⟨id, list_itor⟩] }

/-- `unbind(id, pObj, paddress)`. -/
def unbind (pool : BundlerPool ID_TYPE t member_fun) (id : ID_TYPE) (h : t × member_fun) :
    Bool × BundlerPool ID_TYPE t member_fun :=
  if id ∈ pool.keys then
    match pool.find id h with
    | none => (false, pool)
    -- `m_deleted` is not looked at.
    | some list_itor => (true, pool.mark id list_itor)
  else (false, pool)

/-- The inner loop of `unbind(pObj)`, over the rest of the list of one id. -/
def unbindNodes (id : ID_TYPE) (pObj : t) (pool : BundlerPool ID_TYPE t member_fun) :
    List (Nat × Bundler t member_fun) → BundlerPool ID_TYPE t member_fun
  | [] => pool
  | (list_itor, b) :: rest =>
      unbindNodes id pObj (if b.m_pObj = pObj then pool.mark id list_itor else pool) rest

/-- `unbind(pObj)`, over the ids in the order of the hash map. -/
def unbindObj (pool : BundlerPool ID_TYPE t member_fun) (pObj : t) (order : List ID_TYPE) :
    BundlerPool ID_TYPE t member_fun :=
  order.foldl (fun pool id => pool.unbindNodes id pObj (pool.lists id).nodes) pool

/-- The handlers that `call_bundler(id)` runs, when they leave the pool alone. -/
def call_bundler (pool : BundlerPool ID_TYPE t member_fun) (id : ID_TYPE) :
    List (t × member_fun) :=
  if id ∈ pool.keys then
    ((pool.lists id).values.filter fun b => !b.m_deleted).map Bundler.handler
  else []

/-- `reflush()`. -/
def reflush (pool : BundlerPool ID_TYPE t member_fun) : BundlerPool ID_TYPE t member_fun :=
  { pool.m_delete_list.foldl deleted pool with m_delete_list := [] }

end BundlerPool

/-- A call on a pool. `unbindObj` comes with the order in which the hash map gives its keys. -/
inductive BundlerCall (ID_TYPE t member_fun : Type) where
  | bind (id : ID_TYPE) (h : t × member_fun)
  | unbind (id : ID_TYPE) (h : t × member_fun)
  | unbindObj (pObj : t) (order : List ID_TYPE)
  | call_bundler (id : ID_TYPE)
  | reflush

/-- What a call shows: the value it returns, or the handlers it runs. -/
inductive BundlerAnswer (t member_fun : Type) where
  | value (ret : Bool)
  | handlers (hs : List (t × member_fun))
  | none
  deriving DecidableEq

/-! ### A pool that deletes at once -/

/-- The handlers bound for each id, in the order of their binding. -/
abbrev Bound (ID_TYPE t member_fun : Type) := ID_TYPE → List (t × member_fun)

namespace Bound

variable {ID_TYPE t member_fun : Type} [DecidableEq ID_TYPE] [DecidableEq t]
  [DecidableEq member_fun]

/-- The handlers of one id are set. -/
def set (bound : Bound ID_TYPE t member_fun) (id : ID_TYPE) (hs : List (t × member_fun)) :
    Bound ID_TYPE t member_fun :=
  fun id' => if id' = id then hs else bound id'

/-- What a call does on a pool that deletes at once. -/
def step (bound : Bound ID_TYPE t member_fun) :
    BundlerCall ID_TYPE t member_fun → Bound ID_TYPE t member_fun × BundlerAnswer t member_fun
  | .bind id h =>
      if h ∈ bound id then (bound, .value false)
      else (bound.set id (bound id ++ [h]), .value true)
  | .unbind id h =>
      if h ∈ bound id then (bound.set id ((bound id).filter (· ≠ h)), .value true)
      else (bound, .value false)
  | .unbindObj pObj _ => (fun id => (bound id).filter fun h => h.1 ≠ pObj, .none)
  | .call_bundler id => (bound, .handlers (bound id))
  | .reflush => (bound, .none)

end Bound

/-! ### Calls one after the other -/

/-- A pool with the calls made on it and what they showed. -/
structure BundlerRun (ID_TYPE t member_fun : Type) where
  pool : BundlerPool ID_TYPE t member_fun
  log : List (BundlerCall ID_TYPE t member_fun × BundlerAnswer t member_fun)

namespace BundlerRun

variable {ID_TYPE t member_fun : Type} [DecidableEq ID_TYPE] [DecidableEq t]
  [DecidableEq member_fun]

/-- A new pool. -/
def init : BundlerRun ID_TYPE t member_fun := ⟨.init, []⟩

/-- One call. -/
def step (st : BundlerRun ID_TYPE t member_fun) (c : BundlerCall ID_TYPE t member_fun) :
    Option (BundlerRun ID_TYPE t member_fun) :=
  match c with
  | .bind id h =>
      let r := st.pool.bind id h
      some ⟨r.2, st.log ++ [(c, .value r.1)]⟩
  | .unbind id h =>
      let r := st.pool.unbind id h
      some ⟨r.2, st.log ++ [(c, .value r.1)]⟩
  | .unbindObj pObj order =>
      if order.Perm st.pool.keys then
        some ⟨st.pool.unbindObj pObj order, st.log ++ [(c, .none)]⟩
      else none
  | .call_bundler id => some ⟨st.pool, st.log ++ [(c, .handlers (st.pool.call_bundler id))]⟩
  | .reflush => some ⟨st.pool.reflush, st.log ++ [(c, .none)]⟩

end BundlerRun

end Kernel4GameServer
