import Kernel4GameServer.Net.Epoll.Processing
import Kernel4GameServer.Proofs.Public.TStream

/-!
# `Kernel4GameServer.Proofs.Net.DrainLoop`: when the drain loop ends

The loop of `epollWorker::Processing` goes round while `OnRecv` returns anything but zero,
and takes bytes out only when it returns more than zero. A negative value is the gap
between the two: the loop goes round with the same bytes.

* `drainBody_wf`: a round keeps the offsets of the stream in order, whatever `OnRecv`
  returns.
* `rounds_callAgain`: while `OnRecv` returns negative values the loop repeats the call on the
  same bytes.
* `not_ends_of_negative` and `ends_of_callAgain`: the loop does not end when the repeated calls
  stay negative for ever. It ends when at every buffer one of them is not negative.
-/

set_option autoImplicit false

namespace Kernel4GameServer

open Lib

variable {σ ε : Type}

/-- The session after `k` calls of `OnRecv` on the same bytes. -/
def callAgain (onRecv : OnRecv σ ε) (context : Mem UInt8) (size : Int) : Nat → σ → σ
  | 0, s => s
  | k + 1, s => callAgain onRecv context size k (onRecv s context size).session

/-- What the `k`-th call of `OnRecv` on the same bytes returns, counted from zero. -/
def answer (onRecv : OnRecv σ ε) (context : Mem UInt8) (size : Int) (k : Nat) (s : σ) : Int :=
  (onRecv (callAgain onRecv context size k s) context size).nUse

variable {onRecv : OnRecv σ ε}

/-- A round keeps the offsets of the stream in order. -/
theorem drainBody_wf {d : Drain σ ε} (h : d.stream.WellFormed) :
    (drainBody onRecv d).1.stream.WellFormed := by
  simp only [drainBody]
  split
  · exact TStream.out_wf h (by omega)
  · exact h

/-- A round on an empty stream ends the loop. -/
theorem drainBody_empty {d : Drain σ ε} (h : d.stream.size ≤ 0) :
    (drainBody onRecv d).2 = false := by
  have hcall : recvCall onRecv d.session d.stream d.stream.size = ⟨0, d.session, []⟩ :=
    if_neg (by omega)
  simp [drainBody, hcall]

/-- A round on a stream that is not empty goes round again unless `OnRecv` returns zero. -/
theorem drainBody_flag {d : Drain σ ε} (h : 0 < d.stream.size) :
    (drainBody onRecv d).2
      = decide (0 ≠ (onRecv d.session d.stream.buff d.stream.size).nUse) := by
  have hcall : recvCall onRecv d.session d.stream d.stream.size
      = onRecv d.session d.stream.buff d.stream.size := if_pos h
  simp only [drainBody, hcall]

/-- A round whose call returns a negative value leaves the stream as it is. -/
theorem drainBody_negative {d : Drain σ ε} (h : 0 < d.stream.size)
    (hneg : (onRecv d.session d.stream.buff d.stream.size).nUse < 0) :
    (drainBody onRecv d).1.stream = d.stream ∧
      (drainBody onRecv d).1.session
        = (onRecv d.session d.stream.buff d.stream.size).session := by
  have hcall : recvCall onRecv d.session d.stream d.stream.size
      = onRecv d.session d.stream.buff d.stream.size := if_pos h
  simp only [drainBody, hcall]
  rw [if_neg (by omega)]
  exact ⟨rfl, trivial⟩

/-- A round whose call returns more than zero leaves fewer bytes. -/
theorem drainBody_positive (onRecv : OnRecv σ ε) {d : Drain σ ε} (h : 0 < d.stream.size)
    (hpos : 0 < (onRecv d.session d.stream.buff d.stream.size).nUse) :
    (drainBody onRecv d).1.stream
        = d.stream.out (onRecv d.session d.stream.buff d.stream.size).nUse ∧
      (drainBody onRecv d).1.stream.size.toNat < d.stream.size.toNat := by
  have hcall : recvCall onRecv d.session d.stream d.stream.size
      = onRecv d.session d.stream.buff d.stream.size := if_pos h
  simp only [drainBody, hcall]
  rw [if_pos hpos]
  exact ⟨rfl, TStream.out_size_lt h hpos⟩

/-- While `OnRecv` returns negative values, the loop repeats the call on the same bytes. -/
theorem rounds_callAgain (k : Nat) {d : Drain σ ε} (h : 0 < d.stream.size)
    (hneg : ∀ j < k, answer onRecv d.stream.buff d.stream.size j d.session < 0) :
    (rounds (drainBody onRecv) k d).stream = d.stream ∧
      (rounds (drainBody onRecv) k d).session
        = callAgain onRecv d.stream.buff d.stream.size k d.session := by
  induction k generalizing d with
  | zero => exact ⟨rfl, rfl⟩
  | succ k ih =>
      obtain ⟨hs, hses⟩ := drainBody_negative h (hneg 0 (Nat.succ_pos k))
      have ih' := ih (d := (drainBody onRecv d).1) (by rw [hs]; exact h) (fun j hj => by
        rw [hs, hses]
        exact hneg (j + 1) (Nat.succ_lt_succ hj))
      rw [hs, hses] at ih'
      exact ih'

/-- The flag of the round behind `k` negative answers tells whether the `k`-th answer is
zero. -/
theorem rounds_flag (k : Nat) {d : Drain σ ε} (h : 0 < d.stream.size)
    (hneg : ∀ j < k, answer onRecv d.stream.buff d.stream.size j d.session < 0) :
    (drainBody onRecv (rounds (drainBody onRecv) k d)).2
      = decide (0 ≠ answer onRecv d.stream.buff d.stream.size k d.session) := by
  obtain ⟨hs, hses⟩ := rounds_callAgain k h hneg
  rw [drainBody_flag (by rw [hs]; exact h), hs, hses]
  rfl

/-- The loop does not end when every repeated call returns a negative value. -/
theorem not_ends_of_negative {d : Drain σ ε} (h : 0 < d.stream.size)
    (hneg : ∀ k, answer onRecv d.stream.buff d.stream.size k d.session < 0) :
    ¬ Ends (drainBody onRecv) d := by
  refine not_ends_of_goesRound fun n k _ => ?_
  rw [rounds_flag k h fun j _ => hneg j, decide_eq_true_eq]
  have := hneg k
  omega

/-- The loop ends when at every buffer that is not empty some repeated call returns zero or
more. The number of unread bytes is the measure: the first such call ends the loop or takes
some of them. -/
theorem ends_of_callAgain
    (h : ∀ (s : σ) (context : Mem UInt8) (size : Int), 0 < size →
      ∃ k, 0 ≤ answer onRecv context size k s) (d : Drain σ ε) :
    Ends (drainBody onRecv) d := by
  refine (ends_iff_of_measure fun d => d.stream.size.toNat).mpr fun t _ => ?_
  by_cases hsize : 0 < t.stream.size
  · classical
    have hex := h t.session t.stream.buff t.stream.size hsize
    have hneg : ∀ j < Nat.find hex, answer onRecv t.stream.buff t.stream.size j t.session < 0 :=
      fun j hj => Int.not_le.mp (Nat.find_min hex hj)
    have hfirst : 0 ≤ answer onRecv t.stream.buff t.stream.size (Nat.find hex) t.session :=
      Nat.find_spec hex
    by_cases hzero : answer onRecv t.stream.buff t.stream.size (Nat.find hex) t.session = 0
    · refine ⟨Nat.find hex, .inl ?_⟩
      rw [rounds_flag _ hsize hneg, hzero]
      rfl
    · refine ⟨Nat.find hex + 1, .inr ?_⟩
      obtain ⟨hs, hses⟩ := rounds_callAgain _ hsize hneg
      have hpos : 0 < answer onRecv t.stream.buff t.stream.size (Nat.find hex) t.session := by
        omega
      have hround := drainBody_positive onRecv
        (d := rounds (drainBody onRecv) (Nat.find hex) t)
        (by rw [hs]; exact hsize) (by rw [hs, hses]; exact hpos)
      rw [rounds_succ]
      rw [hs] at hround
      exact hround.2
  · exact ⟨0, .inl (drainBody_empty (d := t) (by omega))⟩

/-- The loop ends from every stream exactly when no session state and no buffer make every
repeated call return a negative value. -/
theorem forall_ends_iff :
    (∀ d : Drain σ ε, d.stream.WellFormed → Ends (drainBody onRecv) d) ↔
      ∀ (s : σ) (context : Mem UInt8) (size : Int), 0 < size →
        ∃ k, 0 ≤ answer onRecv context size k s := by
  constructor
  · intro h s context size hsize
    by_contra hcon
    -- A stream whose unread bytes are the `size` bytes at `context`.
    let d : Drain σ ε := ⟨s, ⟨⟨0, context⟩, 0, size, size⟩, []⟩
    have hwf : d.stream.WellFormed := ⟨Int.le_refl _, Int.le_of_lt hsize, Int.le_refl _⟩
    have hbuff : d.stream.buff = context := by
      funext i
      exact congrArg context (Int.zero_add i)
    have hd : d.stream.size = size := Int.sub_zero size
    refine not_ends_of_negative (d := d) (by rw [hd]; exact hsize) (fun k => ?_) (h d hwf)
    rw [hbuff, hd]
    exact Int.not_le.mp fun hle => hcon ⟨k, hle⟩
  · intro h d _
    exact ends_of_callAgain h d

end Kernel4GameServer
