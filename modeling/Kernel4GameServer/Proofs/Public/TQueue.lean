import Kernel4GameServer.Lib.Ring
import Kernel4GameServer.Public.TQueue

/-!
# `Kernel4GameServer.Proofs.Public.TQueue`: an exact bounded queue

The entries of a queue are numbered by `added`, and entry number `n` is in the slot
`n % size`. The entries from `removed` up to the number of `added` ones are unread, and all
entries that the ring has room for are those below `removed + size`.

* `TQueue.Ring` says what the slots and the signs of this window hold. `Ring.storeSlot`,
  `Ring.storeSign` and `Ring.clearSign` are the three stores that touch it.
* `Inv` adds where the two threads are: `WriteAt` and `ReadAt` relate index and counter of a
  side to the number of its entries. A store of one side does not touch those of the other.

`spsc_fifo` draws the conclusions over whole runs.
-/

set_option autoImplicit false

namespace Kernel4GameServer

open Lib

variable {type : Type*} {size : Nat}

/-! ### Slots and signs -/

namespace TQueue

/-- The slots of the unread entries hold them and are signed, the other slots are not
signed. -/
structure Ring (q : TQueue type size) (added : List type) (removed : Nat) : Prop where
  removed_le : removed ≤ added.length
  added_le : added.length ≤ removed + size
  slots : ∀ n src, removed ≤ n → added[n]? = some src → q.m_queue (n % size) = src
  signed : ∀ n, removed ≤ n → n < added.length → q.m_sign (n % size) = EXISTS_DATA
  unsigned : ∀ n, added.length ≤ n → n < removed + size → q.m_sign (n % size) = NOT_EXISTS_DATA

variable {q : TQueue type size} {added : List type} {removed : Nat}

theorem storeSlot_queue (q : TQueue type size) (src : type) :
    (q.storeSlot src).m_queue = Function.update q.m_queue q.m_nWIndex.toNat src := rfl

theorem storeSign_sign (q : TQueue type size) :
    q.storeSign.m_sign = Function.update q.m_sign q.m_nWIndex.toNat EXISTS_DATA := rfl

theorem clearSign_sign (q : TQueue type size) :
    q.clearSign.m_sign = Function.update q.m_sign q.m_nRIndex.toNat NOT_EXISTS_DATA := rfl

/-- The sign of the next slot to write tells whether there is room. -/
theorem Ring.full_iff (h : q.Ring added removed) (hpos : 0 < size)
    (hindex : q.m_nWIndex.toNat = added.length % size) :
    q.full = true ↔ added.length = removed + size := by
  have hle := h.added_le
  rw [full, bne_iff_ne, ne_eq, hindex]
  constructor
  · intro hsign
    by_contra hne
    exact hsign (h.unsigned _ (Nat.le_refl _) (by omega))
  · -- A full ring goes on at the slot of its first entry.
    intro heq
    rw [heq, Ring.cell_add_size, h.signed _ (Nat.le_refl _) (by omega)]
    decide

/-- The sign of the next slot to read tells whether there is an entry. -/
theorem Ring.missing_iff (h : q.Ring added removed) (hpos : 0 < size)
    (hindex : q.m_nRIndex.toNat = removed % size) :
    q.missing = true ↔ added.length = removed := by
  have hle := h.removed_le
  rw [missing, bne_iff_ne, ne_eq, hindex]
  constructor
  · intro hsign
    by_contra hne
    exact hsign (h.signed _ (Nat.le_refl _) (by omega))
  · intro heq
    rw [h.unsigned _ (Nat.le_of_eq heq) (by omega)]
    decide

/-- A store to the slot behind the last entry leaves the unread ones. -/
theorem Ring.storeSlot (h : q.Ring added removed) (hroom : added.length < removed + size)
    (hindex : q.m_nWIndex.toNat = added.length % size) (src : type) :
    (q.storeSlot src).Ring added removed := by
  refine { h with slots := fun n x hn hx => ?_ }
  have hlt : n < added.length := (List.getElem?_eq_some_iff.mp hx).1
  have hne : n % size ≠ added.length % size :=
    Ring.cell_ne hn (by omega) h.removed_le hroom (by omega)
  rw [storeSlot_queue, hindex, Function.update_of_ne hne]
  exact h.slots n x hn hx

/-- The sign store makes the value in the slot an entry. -/
theorem Ring.storeSign (h : q.Ring added removed) (hroom : added.length < removed + size)
    (hindex : q.m_nWIndex.toNat = added.length % size) {src : type}
    (hslot : q.m_queue (added.length % size) = src) :
    q.storeSign.Ring (added ++ [src]) removed := by
  have hle := h.removed_le
  have hlen : (added ++ [src]).length = added.length + 1 := by simp
  have hne : ∀ n, removed ≤ n → n < removed + size → n ≠ added.length →
      q.storeSign.m_sign (n % size) = q.m_sign (n % size) := by
    intro n hn hn' hnot
    rw [storeSign_sign, hindex, Function.update_of_ne (Ring.cell_ne hn hn' hle hroom hnot)]
  refine ⟨by omega, by omega, fun n x hn hx => ?_, fun n hn hlt => ?_, fun n hn hlt => ?_⟩
  · rcases Nat.lt_or_ge n added.length with hold | hnew
    · exact h.slots n x hn (by rwa [List.getElem?_append_left hold] at hx)
    · have hn' : n < added.length + 1 := hlen ▸ (List.getElem?_eq_some_iff.mp hx).1
      have heq : n = added.length := by omega
      subst heq
      rw [List.getElem?_concat_length] at hx
      exact hslot.trans (Option.some.inj hx)
  · rw [hlen] at hlt
    by_cases heq : n = added.length
    · rw [heq, storeSign_sign, hindex, Function.update_self]
    · rw [hne n hn (by omega) heq]
      exact h.signed n hn (by omega)
  · rw [hlen] at hn
    rw [hne n (by omega) hlt (by omega)]
    exact h.unsigned n (by omega) hlt

/-- The sign store of `Read` takes the first entry away. -/
theorem Ring.clearSign (h : q.Ring added removed)
    (hsome : removed < added.length) (hindex : q.m_nRIndex.toNat = removed % size) :
    q.clearSign.Ring added (removed + 1) := by
  have hle := h.added_le
  have hne : ∀ n, removed ≤ n → n < removed + size → n ≠ removed →
      q.clearSign.m_sign (n % size) = q.m_sign (n % size) := by
    intro n hn hn' hnot
    rw [clearSign_sign, hindex,
      Function.update_of_ne (Ring.cell_ne hn hn' (Nat.le_refl _) (by omega) hnot)]
  refine ⟨hsome, by omega, fun n x hn hx => h.slots n x (by omega) hx, fun n hn hlt => ?_,
    fun n hn hlt => ?_⟩
  · rw [hne n (by omega) (by omega) (by omega)]
    exact h.signed n (by omega) hlt
  · by_cases heq : n = removed + size
    · -- The slot that was read is the one that the ring goes on with.
      rw [heq, Ring.cell_add_size, clearSign_sign, hindex, Function.update_self]
    · rw [hne n (by omega) (by omega) (by omega)]
      exact h.unsigned n hn (by omega)

end TQueue

/-! ### The two sides -/

namespace QueueState

/-- Index and counter of the producer, by the step it is at. Behind the sign store the last
entry is `added.length - 1`, and index and counter follow one after the other. -/
def WriteAt (q : TQueue type size) (added : List type) (removed : Nat) : Producer type → Prop
  | .idle | .test _ _ =>
      q.m_nWIndex.toNat = added.length % size ∧ q.m_nWCount = UInt32.ofNat added.length
  | .slot _ =>
      q.m_nWIndex.toNat = added.length % size ∧ q.m_nWCount = UInt32.ofNat added.length ∧
        added.length < removed + size
  | .sign src =>
      q.m_nWIndex.toNat = added.length % size ∧ q.m_nWCount = UInt32.ofNat added.length ∧
        added.length < removed + size ∧ q.m_queue (added.length % size) = src
  | .count =>
      ∃ n, added.length = n + 1 ∧ q.m_nWIndex.toNat = n % size + 1 ∧
        q.m_nWCount = UInt32.ofNat n
  | .reset =>
      ∃ n, added.length = n + 1 ∧ q.m_nWIndex.toNat = n % size + 1 ∧
        q.m_nWCount = UInt32.ofNat (n + 1)

/-- Index and counter of the consumer, by the step it is at, and the value in its hand. -/
def ReadAt (q : TQueue type size) (added : List type) (removed : Nat) : Consumer type → Prop
  | .idle | .test =>
      q.m_nRIndex.toNat = removed % size ∧ q.m_nRCount = UInt32.ofNat removed
  | .slot =>
      q.m_nRIndex.toNat = removed % size ∧ q.m_nRCount = UInt32.ofNat removed ∧
        removed < added.length
  | .sign value =>
      q.m_nRIndex.toNat = removed % size ∧ q.m_nRCount = UInt32.ofNat removed ∧
        added[removed]? = some value
  | .count _ =>
      ∃ n, removed = n + 1 ∧ q.m_nRIndex.toNat = n % size + 1 ∧ q.m_nRCount = UInt32.ofNat n
  | .reset _ =>
      ∃ n, removed = n + 1 ∧ q.m_nRIndex.toNat = n % size + 1 ∧
        q.m_nRCount = UInt32.ofNat (n + 1)

/-- The invariant. -/
structure Inv (st : QueueState type size) : Prop where
  ring : st.queue.Ring st.added st.removed
  write : WriteAt st.queue st.added st.removed st.producer
  read : ReadAt st.queue st.added st.removed st.consumer
  taken : st.returned ++ st.inHand = st.added.take st.removed
  refused : ∀ n ∈ st.refused, n = size
  missed : ∀ n ∈ st.missed, n = 0

theorem inv_init (m_queue : Nat → type) : (init m_queue : QueueState type size).Inv where
  ring :=
    { removed_le := Nat.le_refl 0
      added_le := Nat.zero_le _
      slots := fun n src _ h => by cases h
      signed := fun n _ h => absurd h (Nat.not_lt_zero n)
      unsigned := fun n _ _ => rfl }
  write := ⟨(Nat.zero_mod size).symm, rfl⟩
  read := ⟨(Nat.zero_mod size).symm, rfl⟩
  taken := rfl
  refused n hn := by cases hn
  missed n hn := by cases hn

variable {st st' : QueueState type size}

/-- Where the producer is does not depend on what the consumer stores. Room only grows. -/
theorem WriteAt.frame {q q' : TQueue type size} {added : List type} {removed removed' : Nat}
    {p : Producer type} (h : WriteAt q added removed p) (hindex : q'.m_nWIndex = q.m_nWIndex)
    (hcount : q'.m_nWCount = q.m_nWCount) (hqueue : q'.m_queue = q.m_queue)
    (hle : removed ≤ removed') : WriteAt q' added removed' p := by
  cases p with
  | idle | test | count | reset =>
      simp only [WriteAt, hindex, hcount]
      exact h
  | slot src =>
      obtain ⟨hi, hc, hroom⟩ := h
      exact ⟨by rw [hindex, hi], by rw [hcount, hc], by omega⟩
  | sign src =>
      obtain ⟨hi, hc, hroom, hslot⟩ := h
      exact ⟨by rw [hindex, hi], by rw [hcount, hc], by omega, by rw [hqueue, hslot]⟩

/-- Where the consumer is does not depend on what the producer stores. Entries stay. -/
theorem ReadAt.frame {q q' : TQueue type size} {added : List type} {removed : Nat}
    {c : Consumer type} (h : ReadAt q added removed c) (hindex : q'.m_nRIndex = q.m_nRIndex)
    (hcount : q'.m_nRCount = q.m_nRCount) (more : List type) :
    ReadAt q' (added ++ more) removed c := by
  cases c with
  | idle | test | count | reset =>
      simp only [ReadAt, hindex, hcount]
      exact h
  | slot =>
      obtain ⟨hi, hc, hlt⟩ := h
      refine ⟨by rw [hindex, hi], by rw [hcount, hc], ?_⟩
      rw [List.length_append]
      omega
  | sign value =>
      obtain ⟨hi, hc, hvalue⟩ := h
      have hlt := (List.getElem?_eq_some_iff.mp hvalue).1
      exact ⟨by rw [hindex, hi], by rw [hcount, hc], by rwa [List.getElem?_append_left hlt]⟩

/-- The same without a new entry. -/
theorem ReadAt.same {q q' : TQueue type size} {added : List type} {removed : Nat}
    {c : Consumer type} (h : ReadAt q added removed c) (hindex : q'.m_nRIndex = q.m_nRIndex)
    (hcount : q'.m_nRCount = q.m_nRCount) : ReadAt q' added removed c := by
  have hframe := h.frame hindex hcount []
  rwa [List.append_nil] at hframe

/-- The index behind an entry, after the reset. -/
theorem index_reset (hpos : 0 < size) {i : UInt32} {n : Nat}
    (h : i.toNat = n % size + 1) :
    (if size ≤ i.toNat then (0 : UInt32) else i).toNat = (n + 1) % size := by
  rw [← Ring.cell_succ hpos n, h]
  split
  · rfl
  · exact h

/-- The index plus one does not wrap. -/
theorem index_succ (hpos : 0 < size) (hs32 : size < 2147483648) {i : UInt32} {n : Nat}
    (h : i.toNat = n % size) : (i + 1).toNat = n % size + 1 := by
  have hlt := Nat.mod_lt n hpos
  rw [UInt32.toNat_add, h, UInt32.toNat_one]
  omega

/-- The counter plus one counts one more. -/
theorem count_succ {c : UInt32} {n : Nat} (h : c = UInt32.ofNat n) :
    c + 1 = UInt32.ofNat (n + 1) := by
  rw [h, UInt32.ofNat_add]
  rfl

/-- The unread values. -/
theorem length_unread (st : QueueState type size) :
    st.unread.length = st.added.length - st.removed :=
  List.length_drop

/-- A step of `Add` or `TryAdd` keeps the invariant. -/
theorem Inv.produce (h : st.Inv) (hpos : 0 < size) (hs32 : size < 2147483648)
    (hstep : st.produce = some st') : st'.Inv := by
  have hwrite := h.write
  simp only [QueueState.produce] at hstep
  cases hp : st.producer with
  | idle => simp [hp] at hstep
  | test src wait =>
      rw [hp] at hwrite hstep
      obtain ⟨hindex, hcount⟩ := hwrite
      have hfull := h.ring.full_iff hpos hindex
      simp only at hstep
      split at hstep
      · rename_i hsign
        split at hstep
        · exact Option.some.inj hstep ▸ h
        · obtain rfl := Option.some.inj hstep
          -- `TryAdd` gives up: the ring is full.
          refine { h with write := ⟨hindex, hcount⟩, refused := fun n hn => ?_ }
          rcases List.mem_append.mp hn with hn | hn
          · exact h.refused n hn
          · rw [List.mem_singleton.mp hn, length_unread, hfull.mp hsign]
            omega
      · rename_i hsign
        obtain rfl := Option.some.inj hstep
        have hle := h.ring.added_le
        have hne : st.added.length ≠ st.removed + size := fun heq => hsign (hfull.mpr heq)
        have hroom : st.added.length < st.removed + size := by omega
        exact { h with write := ⟨hindex, hcount, hroom⟩ }
  | slot src =>
      rw [hp] at hwrite hstep
      obtain rfl := Option.some.inj hstep
      obtain ⟨hindex, hcount, hroom⟩ := hwrite
      have hslot : (st.queue.storeSlot src).m_queue (st.added.length % size) = src := by
        rw [TQueue.storeSlot_queue, hindex, Function.update_self]
      exact { h with
        ring := h.ring.storeSlot hroom hindex src
        write := ⟨hindex, hcount, hroom, hslot⟩
        read := h.read.same rfl rfl }
  | sign src =>
      rw [hp] at hwrite hstep
      obtain rfl := Option.some.inj hstep
      obtain ⟨hindex, hcount, hroom, hslot⟩ := hwrite
      have hlen : (st.added ++ [src]).length = st.added.length + 1 := by simp
      exact { h with
        ring := h.ring.storeSign hroom hindex hslot
        write := ⟨st.added.length, hlen, index_succ hpos hs32 hindex, hcount⟩
        read := h.read.frame rfl rfl [src]
        taken := by
          rw [List.take_append_of_le_length h.ring.removed_le]
          exact h.taken }
  | count =>
      rw [hp] at hwrite hstep
      obtain rfl := Option.some.inj hstep
      obtain ⟨n, hlen, hindex, hcount⟩ := hwrite
      exact { h with
        ring := { h.ring with }
        write := ⟨n, hlen, hindex, count_succ hcount⟩
        read := h.read.same rfl rfl }
  | reset =>
      rw [hp] at hwrite hstep
      obtain rfl := Option.some.inj hstep
      obtain ⟨n, hlen, hindex, hcount⟩ := hwrite
      exact { h with
        ring := { h.ring with }
        write := ⟨by rw [hlen]; exact index_reset hpos hindex, by rw [hlen]; exact hcount⟩
        read := h.read.same rfl rfl }

/-- A step of `Read` keeps the invariant. -/
theorem Inv.consume (h : st.Inv) (hpos : 0 < size) (hs32 : size < 2147483648)
    (hstep : st.consume = some st') : st'.Inv := by
  have hread := h.read
  have htaken := h.taken
  simp only [QueueState.consume] at hstep
  cases hc : st.consumer with
  | idle => simp [hc] at hstep
  | test =>
      rw [hc] at hread hstep
      rw [inHand, hc] at htaken
      obtain ⟨hindex, hcount⟩ := hread
      have hmissing := h.ring.missing_iff hpos hindex
      simp only at hstep
      split at hstep
      · rename_i hsign
        obtain rfl := Option.some.inj hstep
        -- `Read` gives up: the ring is empty.
        refine { h with read := ⟨hindex, hcount⟩, taken := htaken, missed := fun n hn => ?_ }
        rcases List.mem_append.mp hn with hn | hn
        · exact h.missed n hn
        · rw [List.mem_singleton.mp hn, length_unread, hmissing.mp hsign]
          omega
      · rename_i hsign
        obtain rfl := Option.some.inj hstep
        have hle := h.ring.removed_le
        have hne : st.added.length ≠ st.removed := fun heq => hsign (hmissing.mpr heq)
        have hlt : st.removed < st.added.length := by omega
        exact { h with read := ⟨hindex, hcount, hlt⟩, taken := htaken }
  | slot =>
      rw [hc] at hread hstep
      rw [inHand, hc] at htaken
      obtain rfl := Option.some.inj hstep
      obtain ⟨hindex, hcount, hlt⟩ := hread
      have hvalue := List.getElem?_eq_getElem hlt
      have hslot : st.queue.slot = st.added[st.removed] := by
        rw [TQueue.slot, hindex]
        exact h.ring.slots _ _ (Nat.le_refl _) hvalue
      exact { h with read := ⟨hindex, hcount, by rw [hslot, hvalue]⟩, taken := htaken }
  | sign value =>
      rw [hc] at hread hstep
      rw [inHand, hc] at htaken
      obtain rfl := Option.some.inj hstep
      obtain ⟨hindex, hcount, hvalue⟩ := hread
      have hlt := (List.getElem?_eq_some_iff.mp hvalue).1
      refine { h with
        ring := h.ring.clearSign hlt hindex
        write := h.write.frame rfl rfl rfl (Nat.le_succ _)
        read := ⟨st.removed, rfl, index_succ hpos hs32 hindex, hcount⟩
        taken := ?_ }
      show st.returned ++ [value] = st.added.take (st.removed + 1)
      rw [List.take_add_one, hvalue, ← htaken, List.append_nil]
      rfl
  | count value =>
      rw [hc] at hread hstep
      rw [inHand, hc] at htaken
      obtain rfl := Option.some.inj hstep
      obtain ⟨n, hlen, hindex, hcount⟩ := hread
      exact { h with
        ring := { h.ring with }
        write := h.write.frame rfl rfl rfl (Nat.le_refl _)
        read := ⟨n, hlen, hindex, count_succ hcount⟩
        taken := htaken }
  | reset value =>
      rw [hc] at hread hstep
      rw [inHand, hc] at htaken
      obtain rfl := Option.some.inj hstep
      obtain ⟨n, hlen, hindex, hcount⟩ := hread
      refine { h with
        ring := { h.ring with }
        write := h.write.frame rfl rfl rfl (Nat.le_refl _)
        read := ⟨by rw [hlen]; exact index_reset hpos hindex, by rw [hlen]; exact hcount⟩
        taken := ?_ }
      show st.returned ++ [value] ++ [] = st.added.take st.removed
      rw [List.append_nil, htaken]

/-- Each step keeps the invariant. -/
theorem Inv.step (h : st.Inv) (hpos : 0 < size) (hs32 : size < 2147483648)
    {act : QueueAction type} (hstep : st.step act = some st') : st'.Inv := by
  cases act with
  | Add src | TryAdd src =>
      simp only [QueueState.step] at hstep
      split at hstep
      · rename_i hp
        obtain rfl := Option.some.inj hstep
        have hwrite := h.write
        rw [hp] at hwrite
        exact { h with write := hwrite }
      · cases hstep
  | Read =>
      simp only [QueueState.step] at hstep
      split at hstep
      · rename_i hc
        obtain rfl := Option.some.inj hstep
        have hread := h.read
        have htaken := h.taken
        rw [hc] at hread
        rw [inHand, hc] at htaken
        exact { h with read := hread, taken := htaken }
      · cases hstep
  | produce => exact h.produce hpos hs32 hstep
  | consume => exact h.consume hpos hs32 hstep

/-- Counters that differ by less than `2 ^ 32` are equal exactly when the numbers are. -/
theorem ofNat_inj {a b : Nat} (hle : a ≤ b) (hlt : b < a + 4294967296) :
    UInt32.ofNat a = UInt32.ofNat b ↔ a = b := by
  rw [← UInt32.toNat_inj, UInt32.toNat_ofNat', UInt32.toNat_ofNat']
  omega

/-- The queue between one producer and one consumer. In every interleaving of their steps, for
every number of calls: what `Read` has returned, what it has in hand and the unread values are
the added values in their order. The slots of the unread values hold them, and a slot store
goes to none of these slots. `TryAdd` gives up only when `size` values are unread, and `Read`
only when none is. Between calls `IsEmpty()` tells whether no value is unread. -/
theorem spsc_fifo (hpos : 1 ≤ size) (hs32 : size < 2147483648) {m_queue : Nat → type}
    {acts : List (QueueAction type)} {st : QueueState type size}
    (hrun : run step (init m_queue) acts = some st) :
    st.returned <+: st.added ∧
    st.returned ++ st.inHand ++ st.unread = st.added ∧
    (∀ i src, st.unread[i]? = some src → st.queue.m_queue ((st.removed + i) % size) = src) ∧
    (∀ src, st.producer = .slot src →
      ∀ i, i < st.unread.length → (st.removed + i) % size ≠ st.queue.m_nWIndex.toNat) ∧
    (∀ n ∈ st.refused, n = size) ∧
    (∀ n ∈ st.missed, n = 0) ∧
    (st.producer = .idle → st.consumer = .idle →
      (st.queue.IsEmpty = true ↔ st.unread = [])) := by
  have h : st.Inv := run_invariant (fun _ _ _ h hs => h.step hpos hs32 hs) (inv_init m_queue) hrun
  have hle := h.ring.removed_le
  have hroom := h.ring.added_le
  have hall : st.returned ++ st.inHand ++ st.unread = st.added := by
    rw [h.taken, unread, List.take_append_drop]
  refine ⟨⟨st.inHand ++ st.unread, by rw [← List.append_assoc, hall]⟩, hall, fun i src hi => ?_,
    fun src hp i hi heq => ?_, h.refused, h.missed, fun hp hc => ?_⟩
  · rw [unread, List.getElem?_drop] at hi
    exact h.ring.slots _ src (Nat.le_add_right _ _) hi
  · have hwrite := h.write
    rw [hp] at hwrite
    obtain ⟨hindex, -, hlt⟩ := hwrite
    rw [length_unread] at hi
    rw [hindex] at heq
    -- Two different positions less than a round apart have different cells.
    have hsame := Ring.cell_inj (Nat.le_add_right _ i) (by omega) hle hlt heq
    omega
  · have hwrite := h.write
    have hread := h.read
    rw [hp] at hwrite
    rw [hc] at hread
    rw [TQueue.IsEmpty, beq_iff_eq, hread.2, hwrite.2, ofNat_inj hle (by omega), unread,
      List.drop_eq_nil_iff]
    omega

/-- A queue with one slot: the second `TryAdd` finds it full, the second `Read` empty. -/
theorem spsc_fifo_one :
    ∃ st : QueueState Nat 1,
      run step (init fun _ => 0) [.TryAdd 5, .produce, .produce, .produce, .produce, .produce,
        .TryAdd 6, .produce, .Read, .consume, .consume, .consume, .consume, .consume,
        .Read, .consume] = some st ∧
      st.returned = [5] ∧ st.refused = [1] ∧ st.missed = [0] ∧ st.returned <+: st.added ∧
      (st.queue.IsEmpty = true ↔ st.unread = []) := by
  have hrun : run step (init fun _ => 0 : QueueState Nat 1) [.TryAdd 5, .produce, .produce,
    .produce, .produce, .produce, .TryAdd 6, .produce, .Read, .consume, .consume, .consume,
    .consume, .consume, .Read, .consume] = some _ := rfl
  obtain ⟨htaken, -, -, -, -, -, hempty⟩ := spsc_fifo (by decide) (by decide) hrun
  exact ⟨_, hrun, rfl, rfl, rfl, htaken, hempty rfl rfl⟩

end QueueState

end Kernel4GameServer
