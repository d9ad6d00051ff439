import Kernel4GameServer.Lib.Transducer
import Kernel4GameServer.Net.Iocp.Engine
import Kernel4GameServer.Proofs.Public.TStream

/-!
# `Kernel4GameServer.Proofs.Net.Iocp.Alone`: a connection alone

What a connection is for: the bytes it receives are offered to `OnRecv` in their order, and
the bytes of `Send` go to its socket in theirs. `Alone` is such a connection with nothing but
its own bytes, and `Alone.step` what it does with an input. `CPipe.alone` is what a pipe is
taken for, and the lemmas about `In`, `Send`, `Out` and `OnRecv` say that a pipe does what the
connection alone does.

`offered_own` and `sent_own` say that a connection alone offers bytes it received and sends
bytes of `Send`.
-/

set_option autoImplicit false

namespace Kernel4GameServer.Iocp

open Lib

/-- A connection: the bytes that `OnRecv` has not used, those that are not sent, and whether
the next `Send` posts a packet. -/
structure Alone where
  unread : List UInt8
  unsent : List UInt8
  needPost : Bool
  deriving DecidableEq, Repr

namespace Alone

/-- A new connection. -/
def new : Alone := { unread := [], unsent := [], needPost := true }

/-- What a connection does with an input. -/
def step (sNetSendSize : Nat) (o : Alone) : Input → Alone × Output
  | .received bytes => ({ o with unread := o.unread ++ bytes }, .silent)
  | .OnRecv nUse => ({ o with unread := o.unread.drop nUse.toNat }, .offered o.unread)
  | .Send src =>
      ({ o with unsent := o.unsent ++ src, needPost := false },
        if o.needPost then .posted else .silent)
  | .sent nIOBytes ok =>
      let unsent := o.unsent.drop nIOBytes
      if unsent = [] then ({ o with unsent, needPost := true }, .silent)
      else ({ o with unsent }, if ok then .WSASend (unsent.take sNetSendSize) else .silent)

/-- The bytes that are received in a list of inputs. -/
def received (is : List Input) : List UInt8 :=
  is.flatMap fun
    | .received bytes => bytes
    | _ => []

/-- The bytes of the `Send` calls in a list of inputs. -/
def sends (is : List Input) : List UInt8 :=
  is.flatMap fun
    | .Send src => src
    | _ => []

variable {sNetSendSize : Nat}

/-- What is left of some bytes is their end. -/
theorem suffix_append {α : Type} {a b : List α} (h : a <:+ b) (c : List α) :
    a ++ c <:+ b ++ c := by
  obtain ⟨u, rfl⟩ := h
  exact ⟨u, by simp⟩

/-- One input: the bytes after it are the last ones of those before it with the new ones. -/
theorem step_suffix (o : Alone) (i : Input) :
    (step sNetSendSize o i).1.unread <:+ o.unread ++ received [i] ∧
      (step sNetSendSize o i).1.unsent <:+ o.unsent ++ sends [i] := by
  cases i with
  | received bytes => simp [step, received, sends]
  | OnRecv nUse => simpa [step, received, sends] using List.drop_suffix _ _
  | Send src => simp [step, received, sends]
  | sent n ok =>
      have hdrop := List.drop_suffix n o.unsent
      simp only [step, received, sends, List.flatMap_cons, List.flatMap_nil, List.append_nil]
      split
      · exact ⟨List.suffix_rfl, hdrop⟩
      · exact ⟨List.suffix_rfl, hdrop⟩

/-- The bytes of a connection are the last ones of those that came in. -/
theorem after_suffix (o : Alone) (is : List Input) :
    (after (step sNetSendSize) o is).unread <:+ o.unread ++ received is ∧
      (after (step sNetSendSize) o is).unsent <:+ o.unsent ++ sends is := by
  induction is generalizing o with
  | nil => simp [after, received, sends]
  | cons i is ih =>
      obtain ⟨hread, hsend⟩ := ih (step sNetSendSize o i).1
      obtain ⟨hread', hsend'⟩ := @step_suffix sNetSendSize o i
      have hreceived : received (i :: is) = received [i] ++ received is := by
        simp [received]
      have hsends : sends (i :: is) = sends [i] ++ sends is := by
        simp [sends]
      rw [after, hreceived, hsends, ← List.append_assoc, ← List.append_assoc]
      exact ⟨hread.trans (suffix_append hread' _), hsend.trans (suffix_append hsend' _)⟩

/-- An answer of a new connection comes from the state after the inputs before it. -/
theorem mem_outputs {o : Alone} {is : List Input} {out : Output}
    (h : out ∈ outputs (step sNetSendSize) o is) :
    ∃ pre i post, is = pre ++ i :: post ∧
      out = (step sNetSendSize (after (step sNetSendSize) o pre) i).2 := by
  induction is generalizing o with
  | nil => cases h
  | cons i is ih =>
      rcases List.mem_cons.mp h with rfl | h
      · exact ⟨[], i, is, rfl, rfl⟩
      · obtain ⟨pre, j, post, rfl, hout⟩ := ih h
        exact ⟨i :: pre, j, post, rfl, hout⟩

/-- A new connection offers to `OnRecv` bytes that it has received. -/
theorem offered_own {is : List Input} {bytes : List UInt8}
    (h : .offered bytes ∈ outputs (step sNetSendSize) new is) : bytes <:+: received is := by
  obtain ⟨pre, i, post, rfl, hout⟩ := mem_outputs h
  have hread := (@after_suffix sNetSendSize new pre).1
  have hpre : received pre <:+: received (pre ++ i :: post) := by
    rw [received, received, List.flatMap_append]
    exact (List.prefix_append _ _).isInfix
  cases i with
  | OnRecv nUse =>
      cases hout
      exact hread.isInfix.trans hpre
  | received bytes => cases hout
  | Send src =>
      simp only [step] at hout
      split at hout <;> cases hout
  | sent n ok =>
      simp only [step] at hout
      split at hout
      · cases hout
      · split at hout <;> cases hout

/-- A new connection gives WSASend bytes of its `Send` calls. -/
theorem sent_own {is : List Input} {bytes : List UInt8}
    (h : .WSASend bytes ∈ outputs (step sNetSendSize) new is) : bytes <:+: sends is := by
  obtain ⟨pre, i, post, rfl, hout⟩ := mem_outputs h
  have hsend := (@after_suffix sNetSendSize new pre).2
  have hpre : sends pre <:+: sends (pre ++ i :: post) := by
    rw [sends, sends, List.flatMap_append]
    exact (List.prefix_append _ _).isInfix
  cases i with
  | sent n ok =>
      simp only [step] at hout
      split at hout
      · cases hout
      · split at hout
        · cases hout
          exact ((List.take_prefix _ _).isInfix.trans (List.drop_suffix _ _).isInfix).trans
            (hsend.isInfix.trans hpre)
        · cases hout
  | received bytes => cases hout
  | OnRecv nUse => cases hout
  | Send src =>
      simp only [step] at hout
      split at hout <;> cases hout

end Alone

/-- The offsets of both streams are in order. -/
structure CPipe.StreamsWF (p : CPipe) : Prop where
  recv : p.m_oRecvStream.WellFormed
  send : p.m_oSendStream.WellFormed

/-- The connection that a pipe is taken for. -/
def CPipe.alone (p : CPipe) : Alone where
  unread := p.m_oRecvStream.unread
  unsent := p.m_oSendStream.unread
  needPost := p.m_bNeedPostOPT

namespace CPipe

variable {p : CPipe} {sNetSendSize : Nat}

/-- A pipe that the pool makes is a new connection. -/
theorem new_alone : new.alone = .new ∧ new.StreamsWF :=
  ⟨rfl, ⟨Int.le_refl _, Int.le_refl _, by decide⟩, ⟨Int.le_refl _, Int.le_refl _, by decide⟩⟩

theorem In_alone (h : p.StreamsWF) (bytes : List UInt8) :
    (p.In (Mem.ofList bytes 0) bytes.length).StreamsWF ∧
      (p.In (Mem.ofList bytes 0) bytes.length).alone
        = (p.alone.step sNetSendSize (.received bytes)).1 := by
  refine ⟨⟨TStream.inBytes_wf BUFF_SIZE_pos h.recv _ (Int.natCast_nonneg _), h.send⟩, ?_⟩
  have hread := TStream.inBytes_unread BUFF_SIZE_pos h.recv (Mem.ofList bytes 0)
    (Int.natCast_nonneg bytes.length)
  rw [Int.toNat_natCast, Mem.slice_ofList] at hread
  simp only [alone, In, Alone.step, hread]

theorem sendIn_alone (h : p.StreamsWF) (src : List UInt8) :
    (p.sendIn (Mem.ofList src 0) src.length).StreamsWF ∧
      (p.sendIn (Mem.ofList src 0) src.length).alone
        = { p.alone with unsent := p.alone.unsent ++ src } := by
  refine ⟨⟨h.recv, TStream.inBytes_wf BUFF_SIZE_pos h.send _ (Int.natCast_nonneg _)⟩, ?_⟩
  have hsend := TStream.inBytes_unread BUFF_SIZE_pos h.send (Mem.ofList src 0)
    (Int.natCast_nonneg src.length)
  rw [Int.toNat_natCast, Mem.slice_ofList] at hsend
  simp only [alone, sendIn, hsend]

/-- A stream is empty where it has no unread bytes. -/
theorem size_eq_zero {s : TStream BUFF_SIZE} (h : s.WellFormed) :
    0 = s.size ↔ s.unread = [] := by
  have hlen := TStream.length_unread s
  have hle : 0 ≤ s.size := by
    have := h.read_le
    simp only [TStream.size]
    omega
  rw [← List.length_eq_zero_iff, hlen]
  omega

/-- The range that `Out` gives to WSASend: the first unread bytes, as many as one call takes. -/
theorem slice_len (s : TStream BUFF_SIZE) (n : Nat) :
    Mem.slice s.buff 0 (if s.size ≥ n then (n : Int) else s.size).toNat = s.unread.take n := by
  split
  · rename_i hle
    exact TStream.slice_buff s (by omega)
  · rename_i hlt
    rw [TStream.slice_buff_size, List.take_of_length_le]
    rw [TStream.length_unread]
    omega

theorem outSection_alone (h : p.StreamsWF) (nIOBytes : Nat) (ok : Bool) :
    (p.outSection sNetSendSize nIOBytes ok).1.StreamsWF ∧
      ((p.outSection sNetSendSize nIOBytes ok).1.alone,
        (p.outSection sNetSendSize nIOBytes ok).2.output)
        = p.alone.step sNetSendSize (.sent nIOBytes ok) := by
  have hwf := TStream.out_wf h.send (Int.natCast_nonneg nIOBytes)
  have hout := TStream.out_unread h.send (Int.natCast_nonneg nIOBytes)
  rw [Int.toNat_natCast] at hout
  have hzero := size_eq_zero hwf
  rw [hout] at hzero
  simp only [outSection, Alone.step]
  by_cases hnil : List.drop nIOBytes p.m_oSendStream.unread = []
  · rw [if_pos (hzero.mpr hnil)]
    refine ⟨⟨h.recv, hwf⟩, ?_⟩
    simp only [alone, hout, OutEnd.output, hnil, if_true]
  · rw [if_neg (mt hzero.mp hnil)]
    refine ⟨⟨h.recv, hwf⟩, ?_⟩
    simp only [alone, formatSend, hout, hnil, if_false]
    cases ok with
    | true => simp only [if_true, OutEnd.output, slice_len, hout]
    | false => simp only [Bool.false_eq_true, if_false, OutEnd.output]

end CPipe

end Kernel4GameServer.Iocp
