import Kernel4GameServer.Lib.Run
import Mathlib.Logic.Function.Basic

/-!
# `Kernel4GameServer.Public.TQueue`: the bounded queue between two threads

`Public/TQueue.h`. A ring of `size` slots, each with a sign that says whether it is in use, an
index and a counter for each side. Indices and counters are `u32`; `size` is an `s32` above
zero, so `m_nWIndex >= size` compares numbers. The values of the slots are whatever the memory
holds before the first store.

Each assignment of `Add`, `TryAdd` and `Read` is one step of the thread that makes it, and so
is the test of the sign in front of it. `Add` repeats the test until the slot is free. With one
thread on each side the two locks of the template are never contended, so they are left out.

The ghosts of a state say what the queue is for. `added` are the values whose sign is stored,
`removed` counts the signs that `Read` has cleared, and `returned` are the results. `refused`
and `missed` note how many values were unread at each test by which `TryAdd` or `Read` gave
up.
-/

set_option autoImplicit false

namespace Kernel4GameServer

open Lib

/-- `NOT_EXISTS_DATA`. -/
def NOT_EXISTS_DATA : Int8 := 0

/-- `EXISTS_DATA`. -/
def EXISTS_DATA : Int8 := 1

/-- `TQueue<type, lock, size>` without its locks. -/
structure TQueue (type : Type*) (size : Nat) where
  m_queue : Nat → type
  m_sign : Nat → Int8
  m_nRIndex : UInt32
  m_nWIndex : UInt32
  m_nRCount : UInt32
  m_nWCount : UInt32

namespace TQueue

variable {type : Type*} {size : Nat}

/-- The constructor `TQueue()`. -/
def init (m_queue : Nat → type) : TQueue type size where
  m_queue := m_queue
  m_sign := fun _ => NOT_EXISTS_DATA
  m_nRIndex := 0
  m_nWIndex := 0
  m_nRCount := 0
  m_nWCount := 0

/-- `m_sign[m_nWIndex] != NOT_EXISTS_DATA`. -/
def full (q : TQueue type size) : Bool := q.m_sign q.m_nWIndex.toNat != NOT_EXISTS_DATA

/-- `m_sign[m_nRIndex] != EXISTS_DATA`. -/
def missing (q : TQueue type size) : Bool := q.m_sign q.m_nRIndex.toNat != EXISTS_DATA

/-- `m_queue[m_nWIndex] = src;`. -/
def storeSlot (q : TQueue type size) (src : type) : TQueue type size :=
  { q with m_queue := Function.update q.m_queue q.m_nWIndex.toNat src }

/-- `m_sign[m_nWIndex++] = EXISTS_DATA;`. -/
def storeSign (q : TQueue type size) : TQueue type size :=
  { q with
    m_sign := Function.update q.m_sign q.m_nWIndex.toNat EXISTS_DATA
    m_nWIndex := q.m_nWIndex + 1 }

/-- `m_nWCount++;`. -/
def countWrite (q : TQueue type size) : TQueue type size := { q with m_nWCount := q.m_nWCount + 1 }

/-- `if (m_nWIndex >= size) m_nWIndex = 0;`. -/
def resetWrite (q : TQueue type size) : TQueue type size :=
  { q with m_nWIndex := if size ≤ q.m_nWIndex.toNat then 0 else q.m_nWIndex }

/-- `m_queue[m_nRIndex]`. -/
def slot (q : TQueue type size) : type := q.m_queue q.m_nRIndex.toNat

/-- `m_sign[m_nRIndex++] = NOT_EXISTS_DATA;`. -/
def clearSign (q : TQueue type size) : TQueue type size :=
  { q with
    m_sign := Function.update q.m_sign q.m_nRIndex.toNat NOT_EXISTS_DATA
    m_nRIndex := q.m_nRIndex + 1 }

/-- `m_nRCount++;`. -/
def countRead (q : TQueue type size) : TQueue type size := { q with m_nRCount := q.m_nRCount + 1 }

/-- `if (m_nRIndex >= size) m_nRIndex = 0;`. -/
def resetRead (q : TQueue type size) : TQueue type size :=
  { q with m_nRIndex := if size ≤ q.m_nRIndex.toNat then 0 else q.m_nRIndex }

/-- `IsEmpty()`. -/
def IsEmpty (q : TQueue type size) : Bool := q.m_nRCount == q.m_nWCount

end TQueue

/-- Which assignment of `Add` or `TryAdd` the producer makes next. At the test, `wait` says
whether it is the test of `Add`. -/
inductive Producer (type : Type*) where
  | idle
  | test (src : type) (wait : Bool)
  | slot (src : type)
  | sign (src : type)
  | count
  | reset

/-- Which assignment of `Read` the consumer makes next. -/
inductive Consumer (type : Type*) where
  | idle
  | test
  | slot
  | sign (value : type)
  | count (value : type)
  | reset (value : type)

/-- A call of either thread, or the next step of the call it is in. -/
inductive QueueAction (type : Type*) where
  | Add (src : type)
  | TryAdd (src : type)
  | Read
  | produce
  | consume

/-- The queue, the positions of the two threads and the ghosts. -/
structure QueueState (type : Type*) (size : Nat) where
  queue : TQueue type size
  producer : Producer type
  consumer : Consumer type
  added : List type
  removed : Nat
  returned : List type
  refused : List Nat
  missed : List Nat

namespace QueueState

variable {type : Type*} {size : Nat}

/-- A new queue. -/
def init (m_queue : Nat → type) : QueueState type size where
  queue := TQueue.init m_queue
  producer := .idle
  consumer := .idle
  added := []
  removed := 0
  returned := []
  refused := []
  missed := []

/-- The values in the queue. -/
def unread (st : QueueState type size) : List type := st.added.drop st.removed

/-- The next step of `Add` or `TryAdd`. -/
def produce (st : QueueState type size) : Option (QueueState type size) :=
  match st.producer with
  | .idle => none
  | .test src wait =>
      if st.queue.full then
        -- `Add` sleeps and tests again, `TryAdd` returns false.
        if wait then some st
        else some { st with producer := .idle, refused := st.refused ++ [st.unread.length] }
      else some { st with producer := .slot src }
  | .slot src => some { st with queue := st.queue.storeSlot src, producer := .sign src }
  | .sign src =>
      some { st with queue := st.queue.storeSign, producer := .count, added := st.added ++ [src] }
  | .count => some { st with queue := st.queue.countWrite, producer := .reset }
  | .reset => some { st with queue := st.queue.resetWrite, producer := .idle }

/-- The next step of `Read`. -/
def consume (st : QueueState type size) : Option (QueueState type size) :=
  match st.consumer with
  | .idle => none
  | .test =>
      if st.queue.missing then
        some { st with consumer := .idle, missed := st.missed ++ [st.unread.length] }
      else some { st with consumer := .slot }
  | .slot => some { st with consumer := .sign st.queue.slot }
  | .sign value =>
      some { st with
        queue := st.queue.clearSign
        consumer := .count value
        removed := st.removed + 1 }
  | .count value => some { st with queue := st.queue.countRead, consumer := .reset value }
  | .reset value =>
      some { st with
        queue := st.queue.resetRead
        consumer := .idle
        returned := st.returned ++ [value] }

/-- A thread calls when it is in no call, and goes on when it is in one. -/
def step (st : QueueState type size) : QueueAction type → Option (QueueState type size)
  | .Add src =>
      match st.producer with
      | .idle => some { st with producer := .test src true }
      | _ => none
  | .TryAdd src =>
      match st.producer with
      | .idle => some { st with producer := .test src false }
      | _ => none
  | .Read =>
      match st.consumer with
      | .idle => some { st with consumer := .test }
      | _ => none
  | .produce => st.produce
  | .consume => st.consume

/-- The value that `Read` has taken out and not returned yet. -/
def inHand (st : QueueState type size) : List type :=
  match st.consumer with
  | .count value | .reset value => [value]
  | _ => []

end QueueState

end Kernel4GameServer
