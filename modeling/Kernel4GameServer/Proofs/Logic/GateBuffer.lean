import Kernel4GameServer.Logic.GateBuffer
import Kernel4GameServer.Proofs.Logic.SinkDrain
import Kernel4GameServer.Proofs.Net.RecvChunking

/-!
# `Kernel4GameServer.Proofs.Logic.GateBuffer`: how much unparsed input a Gate connection keeps

`OnRecv` closes the connection when a length prefix is above `4096`, and uses a frame that is
there. A prefix from `0` to `23` is neither: the call returns zero, and so does every later
call, with all that arrives behind it. A negative prefix keeps the drain loop on the same bytes.

* `called_uses_iff`: which calls of `OnRecv` on `4096` bytes or more use a byte or close.
* `Held`: the unread bytes counted from the last look of the main thread. `Held.step` keeps it
  over a step that meets `PrefixFits`.
* `buffered_iff`: a run keeps the promise exactly when all its calls meet `PrefixFits`. Then
  the unread bytes are fewer than `4096` and those that arrived since the last event.
-/

set_option autoImplicit false

namespace Kernel4GameServer

open Lib

namespace GateBuffer

/-- `OnRecv` on `4096` bytes or more uses a byte or closes the connection. -/
def UsesOrCloses (st : GateBuffer) : RecvAction → Prop
  | .call =>
      match st.recv.io.reader with
      | .looking v => 4096 ≤ v.nLeft → 0 < (st.called v).nUse ∨ .Close ∈ (st.called v).effects
      | _ => True
  | _ => True

/-- The bytes that `OnRecv` is handed begin with a length of a header at least, when there
are `4096` or more. -/
def PrefixFits (st : GateBuffer) : RecvAction → Prop
  | .call =>
      match st.recv.io.reader with
      | .looking v =>
          4096 ≤ v.nLeft → sizeof_testmsgheader ≤ readS32 st.recv.io.stream.buff 0
      | _ => True
  | _ => True

/-- No more than `n` bytes arrive between two events. -/
def Arrivals (n : Nat) (st : GateBuffer) : RecvAction → Prop
  | .append (.write src) => st.since + src.length ≤ n
  | _ => True

/-- The promise in a state: fewer than `4096` unread bytes besides those that arrived since
the last event, or the connection is closed. -/
def Buffered (st : GateBuffer) : Prop :=
  ¬ st.Closed → st.recv.io.stream.size < 4096 + st.since

instance (st : GateBuffer) : ∀ a, Decidable (st.PrefixFits a)
  | .call => by
      unfold PrefixFits
      cases st.recv.io.reader <;> infer_instance
  | .append _ | .post _ | .read | .lock | .look | .free => isTrue trivial

/-! ### One call -/

/-- What `OnRecv` calls when it is handed a prefix above `4096`, and only then. -/
theorem close_mem_effects (sink : ClientConnectSink) (context : Mem UInt8) (size : Int) :
    .Close ∈ (sink.OnRecv context size).effects ↔ 4096 < readS32 context 0 := by
  simp only [ClientConnectSink.OnRecv]
  split
  · exact iff_of_true (List.mem_singleton.mpr rfl) ‹_›
  · refine iff_of_false (fun h => ?_) ‹_›
    split at h
    · split at h
      · simp at h
      · split at h <;> simp at h
    · simp at h

/-- A call on `4096` bytes or more uses a byte or closes exactly when the length prefix is
that of a header at least. -/
theorem called_uses_iff (st : GateBuffer) {v : View} (hv : 4096 ≤ v.nLeft) :
    (0 < (st.called v).nUse ∨ .Close ∈ (st.called v).effects)
      ↔ sizeof_testmsgheader ≤ readS32 st.recv.io.stream.buff 0 := by
  have hcall : st.called v = st.recv.session.OnRecv st.recv.io.stream.buff v.nLeft :=
    if_pos (by omega)
  rw [hcall, close_mem_effects, ClientConnectSink.OnRecv_ret, ClientConnectSink.ret,
    sizeof_testmsgheader]
  split <;> omega

/-- A step keeps the promise of `OnRecv` exactly when it meets `PrefixFits`. -/
theorem usesOrCloses_iff (st : GateBuffer) (a : RecvAction) :
    st.UsesOrCloses a ↔ st.PrefixFits a := by
  cases a with
  | call =>
      simp only [UsesOrCloses, PrefixFits]
      split
      · exact forall_congr' fun hv => st.called_uses_iff hv
      · exact Iff.rfl
  | _ => exact Iff.rfl

/-! ### One step -/

/-- The unread bytes, counted from the last look of the main thread and from the last event.
`looking` is about a call that is still to come, `used` about one that was the last. -/
structure Held (st : GateBuffer) : Prop where
  io : st.recv.io.Inv
  looking : ∀ v, st.recv.io.reader = .looking v → st.recv.io.stream.size = v.nLeft + st.fresh
  used : ∀ t, st.recv.main = .used t 0 → ¬ st.Closed →
    st.recv.io.stream.size < 4096 + st.fresh
  buffered : st.Buffered

/-- A new connection keeps nothing. -/
theorem init_held (sink : ClientConnectSink) : (init sink).Held where
  io := StreamState.inv_init
  looking v hr := by cases hr
  used t hm := by cases hm
  buffered _ := by
    show (0 : Int) < 4096 + (0 : Nat)
    decide

/-- The number of unread bytes is the size of the stream. -/
theorem size_eq_length {s : TStream BUFF_SIZE} (h : s.WellFormed) :
    s.size = s.unread.length := by
  have := h.read_le
  rw [TStream.length_unread, TStream.size]
  omega

/-- Each step is a step of the receive path with the counts brought up to date. -/
theorem step_some {st st' : GateBuffer} {a : RecvAction} (h : st.step a = some st') :
    st.recv.step ClientConnectSink.OnRecv a = some st'.recv := by
  obtain ⟨recv, hrecv, rfl⟩ := Option.map_eq_some_iff.mp h
  rw [hrecv]
  cases a <;> rfl

/-- A closed connection stays closed. -/
theorem Closed.step {st st' : GateBuffer} {a : RecvAction} (hc : st.Closed)
    (h : st.step a = some st') : st'.Closed := by
  have hrecv := step_some h
  unfold Closed at hc ⊢
  generalize st'.recv = recv at hrecv
  cases RecvState.step_cases hrecv with
  | call t v io _ _ _ => exact List.mem_append_left _ hc
  | finish t io _ _ =>
      show _ ∈ ite _ _ _
      split
      · exact List.mem_append_left _ hc
      · exact hc
  | _ => exact hc

/-- A step that meets `PrefixFits` keeps the counts right. -/
theorem Held.step {st st' : GateBuffer} {a : RecvAction} (hs : st.Held) (hp : st.PrefixFits a)
    (h : st.step a = some st') : st'.Held := by
  obtain ⟨hio, hlook, hused, hbuf⟩ := hs
  obtain ⟨recv, hrecv, rfl⟩ := Option.map_eq_some_iff.mp h
  cases RecvState.step_cases hrecv with
  | append b io hb hstep =>
      -- What arrives is behind the unread bytes, and both counts go up with it.
      have hio' := hio.step BUFF_SIZE_pos hstep
      obtain ⟨hreader, d, hwritten, hunread, -⟩ := RecvState.writer_step hio hb hstep
      have hsize : io.stream.size = st.recv.io.stream.size + d.length := by
        rw [size_eq_length hio'.wf, size_eq_length hio.wf, hunread, List.length_append]
        omega
      have harr : st.arrived { st.recv with io } = d.length := by
        show io.written.length - st.recv.io.written.length = d.length
        rw [hwritten, List.length_append]
        omega
      refine ⟨hio', fun v hr => ?_, fun t hm hc => ?_, fun hc => ?_⟩
      · have := hlook v (hreader ▸ hr)
        show io.stream.size = v.nLeft + ((st.fresh + st.arrived { st.recv with io } : Nat) : Int)
        omega
      · have := hused t hm hc
        show io.stream.size < 4096 + ((st.fresh + st.arrived { st.recv with io } : Nat) : Int)
        omega
      · have := hbuf hc
        show io.stream.size < 4096 + ((st.since + st.arrived { st.recv with io } : Nat) : Int)
        omega
  | post t => exact ⟨hio, hlook, hused, hbuf⟩
  | read t queue _ _ => exact ⟨hio, hlook, fun t hm => (by cases hm), hbuf⟩
  | lock t io _ hstep =>
      obtain ⟨hstream, -, hreader⟩ := RecvState.lock_step hstep
      refine ⟨hio.step BUFF_SIZE_pos hstep, fun v hr => ?_, fun t hm => (by cases hm), fun hc => ?_⟩
      · cases hreader.symm.trans hr
      · show io.stream.size < _
        rw [hstream]
        exact hbuf hc
  | look t io _ hstep =>
      have hio' := hio.step BUFF_SIZE_pos hstep
      cases StreamState.step_cases hstep
      refine ⟨hio', fun v hr => ?_, fun t hm => (by cases hm), hbuf⟩
      cases hr
      exact (Int.add_zero _).symm
  | call t v io _ hr hstep =>
      have hsize := hlook v hr
      have hclosed : ¬ GateBuffer.Closed { st with recv := { st.recv with
          io
          main := .used t (st.called v).nUse
          session := (st.called v).session
          trace := st.recv.trace ++ (st.called v).effects.map .effect } } →
          ¬ st.Closed ∧ .Close ∉ (st.called v).effects := by
        intro hc
        exact ⟨fun h => hc (List.mem_append_left _ h), fun h =>
          hc (List.mem_append_right _ (List.mem_map_of_mem h))⟩
      have hcases : io = st.recv.io ∨
          0 < (st.called v).nUse ∧ io.Inv ∧ io.reader = .done v ∧
            io.stream.size ≤ st.recv.io.stream.size := by
        split at hstep
        · rename_i hpos
          have hio' := hio.step BUFF_SIZE_pos hstep
          obtain ⟨-, hunread, -⟩ := RecvState.out_step hio hstep
          refine .inr ⟨hpos, hio', ?_, ?_⟩
          · cases StreamState.step_cases hstep with
            | out v' _ hr' _ _ =>
                rw [hr] at hr'
                cases hr'
                rfl
          · rw [size_eq_length hio'.wf, size_eq_length hio.wf, hunread, List.length_drop]
            omega
        · exact .inl (Option.some.inj hstep).symm
      rcases hcases with rfl | ⟨hpos, hio', hdone, hle⟩
      · refine ⟨hio, hlook, fun t' hm hc => ?_, fun hc => hbuf (hclosed hc).1⟩
        -- The last call used nothing and closed nothing, so it had fewer than `4096` bytes.
        have hzero : (st.called v).nUse = 0 := (RecvMain.used.inj hm).2
        have hfew : ¬ 4096 ≤ v.nLeft := by
          intro hv
          have huses := (st.usesOrCloses_iff .call).mpr hp
          simp only [UsesOrCloses, hr] at huses
          rcases huses hv with hpos | hclose
          · omega
          · exact (hclosed hc).2 hclose
        show st.recv.io.stream.size < 4096 + (st.fresh : Int)
        omega
      · refine ⟨hio', fun v' hr' => ?_, fun t' hm hc => ?_, fun hc => ?_⟩
        · cases hdone.symm.trans hr'
        · have hzero : (st.called v).nUse = 0 := (RecvMain.used.inj hm).2
          omega
        · have := hbuf (hclosed hc).1
          show io.stream.size < 4096 + (st.since : Int)
          omega
  | again t nUse io _ _ hstep =>
      obtain ⟨hstream, -, hreader⟩ := RecvState.free_step hstep
      refine ⟨hio.step BUFF_SIZE_pos hstep, fun v hr => ?_, fun t hm => (by cases hm), fun hc => ?_⟩
      · cases hreader.symm.trans hr
      · show io.stream.size < _
        rw [hstream]
        exact hbuf hc
  | finish t io hm hstep =>
      obtain ⟨hstream, -, hreader⟩ := RecvState.free_step hstep
      refine ⟨hio.step BUFF_SIZE_pos hstep, fun v hr => ?_, fun t hm => (by cases hm), fun hc => ?_⟩
      · cases hreader.symm.trans hr
      · show io.stream.size < 4096 + (st.fresh : Int)
        rw [hstream]
        refine hused t hm fun hclosed => hc ?_
        show _ ∈ ite _ _ _
        split
        · exact List.mem_append_left _ hclosed
        · exact hclosed

/-! ### Runs -/

/-- In a run whose calls all meet `PrefixFits` the counts are right in the end. -/
theorem run_held (sink : ClientConnectSink) {as : List RecvAction} {st : GateBuffer}
    (hrun : run step (init sink) as = some st) (hall : AllSteps step PrefixFits (init sink) as) :
    st.Held :=
  run_invariant_of (fun _ _ _ hs hp h => hs.step hp h) (init_held sink) hall hrun

/-- The connection is closed, or its capacity is one `BUFF_SIZE` above what it has to hold
when `n` bytes arrive between two events. -/
def Capacity (n : Nat) (st : GateBuffer) : Prop :=
  st.Closed ∨ st.recv.io.CapLe (4096 + n + BUFF_SIZE)

/-- A step with few arrivals keeps the capacity. -/
theorem Capacity.step {n : Nat} {st st' : GateBuffer} {a : RecvAction} (hcap : st.Capacity n)
    (hs : st.Held) (ha : st.Arrivals n a) (h : st.step a = some st') : st'.Capacity n := by
  rcases hcap with hclosed | hcap
  · exact .inl (hclosed.step h)
  · by_cases hclosed : st.Closed
    · exact .inl (hclosed.step h)
    have hbuf := hs.buffered hclosed
    have hrecv := step_some h
    refine .inr ?_
    generalize st'.recv = recv at hrecv
    -- Only a step of `in` can ask for more room.
    cases RecvState.step_cases hrecv with
    | append b io _ hstep =>
        refine hcap.step (fun src hb => ?_) hstep
        subst hb
        simp only [Arrivals] at ha
        omega
    | lock t io _ hstep => exact hcap.step (fun _ hb => by cases hb) hstep
    | look t io _ hstep => exact hcap.step (fun _ hb => by cases hb) hstep
    | call t v io _ _ hstep =>
        show io.CapLe _
        split at hstep
        · exact hcap.step (fun _ hb => by cases hb) hstep
        · exact Option.some.inj hstep ▸ hcap
    | again t nUse io _ _ hstep => exact hcap.step (fun _ hb => by cases hb) hstep
    | finish t io _ hstep => exact hcap.step (fun _ hb => by cases hb) hstep
    | _ => exact hcap

/-- The capacity in a run whose calls all meet `PrefixFits`, with at most `n` bytes between
two events. -/
theorem run_capacity (sink : ClientConnectSink) {n : Nat} {as : List RecvAction} {st : GateBuffer}
    (hrun : run step (init sink) as = some st) (hall : AllSteps step PrefixFits (init sink) as)
    (harr : AllSteps step (Arrivals n) (init sink) as) : st.Capacity n := by
  have hboth : st.Held ∧ st.Capacity n := by
    refine run_invariant_of (I := fun st => st.Held ∧ st.Capacity n) ?_ ?_
      ((allSteps_and (C := PrefixFits) (D := Arrivals n)).mpr ⟨hall, harr⟩) hrun
    · rintro s a s' ⟨hs, hcap⟩ ⟨hp, ha⟩ h
      exact ⟨hs.step hp h, hcap.step hs ha h⟩
    · refine ⟨init_held sink, .inr ⟨?_, fun k src hw => by cases hw⟩⟩
      show (BUFF_SIZE : Int) ≤ 4096 + n + BUFF_SIZE
      omega
  exact hboth.2

/-- The input a Gate connection keeps. In a run, every call of `OnRecv` on `4096` bytes or
more uses a byte or closes, every state on the way has fewer than `4096` unread bytes besides
those that arrived since the last event or is closed, and the capacity is bounded by what
arrives between two events, exactly when all calls are handed a prefix of at least
`sizeof(testmsgheader)` or fewer than `4096` bytes. -/
theorem buffered_iff (sink : ClientConnectSink) {as : List RecvAction} {st : GateBuffer}
    (hrun : run step (init sink) as = some st) :
    (AllSteps step UsesOrCloses (init sink) as ∧
      Throughout step Buffered (init sink) as ∧
      ∀ n : Nat, AllSteps step (Arrivals n) (init sink) as → ¬ st.Closed →
        st.recv.io.stream.m_max ≤ 4096 + n + BUFF_SIZE)
      ↔ AllSteps step PrefixFits (init sink) as := by
  have huses : AllSteps step UsesOrCloses (init sink) as
      ↔ AllSteps step PrefixFits (init sink) as :=
    allSteps_congr usesOrCloses_iff
  constructor
  · rintro ⟨hall, -, -⟩
    exact huses.mp hall
  · intro hall
    refine ⟨huses.mpr hall, fun bs hbs t ht => ?_, fun n harr hopen => ?_⟩
    · obtain ⟨cs, rfl⟩ := hbs
      exact (run_held sink ht ((allSteps_append ht).mp hall).1).buffered
    · exact ((run_capacity sink hrun hall harr).resolve_left hopen).max_le

/-- A client sends `src` in one piece, and the main thread handles the event with one call of
`OnRecv`. -/
def onePieceEvent (src : List UInt8) : List RecvAction :=
  [.append (.write src), .append .relocate, .append .copy, .append .advance, .post .RECV,
    .read, .lock, .look, .call, .free]

/-- `n` zero bytes are unread and the last event is done. -/
structure Zeros (n : Nat) (st : GateBuffer) : Prop where
  wf : st.recv.io.stream.WellFormed
  writer : st.recv.io.writer = .idle
  reader : st.recv.io.reader = .idle
  main : st.recv.main = .idle
  queue : st.recv.queue = []
  trace : st.recv.trace = []
  unread : st.recv.io.stream.unread = List.replicate n 0
  since : st.since = 0

/-- A length prefix between zero and the size of a header: nothing is used, nothing is
called. -/
theorem onRecv_short (sink : ClientConnectSink) {context : Mem UInt8} (size : Int)
    (h : 0 ≤ readS32 context 0) (hlt : readS32 context 0 < sizeof_testmsgheader) :
    sink.OnRecv context size = ⟨0, sink, []⟩ := by
  have hrange := readS32_range context 0
  have hsizeT := ClientConnectSink.sizeof_le_sizeT hrange.1
  simp only [sizeof_testmsgheader] at hlt
  rw [ClientConnectSink.OnRecv]
  simp only
  rw [if_neg (by omega), if_neg fun hframe => ?_]
  have := hsizeT.mp hframe.2
  omega

/-- The length prefix of zero bytes is zero. -/
theorem readS32_zeros {s : TStream BUFF_SIZE} {n : Nat} (hn : 4 ≤ n)
    (h : s.unread = List.replicate n 0) : readS32 s.buff 0 = 0 := by
  have hsize : s.size.toNat = n := by
    rw [← TStream.length_unread, h, List.length_replicate]
  -- The unread bytes are a slice of a memory of zeros.
  have hslice : Mem.slice s.buff 0 n = Mem.slice (fun _ => 0) 0 n := by
    rw [← hsize, TStream.slice_buff_size, h, hsize, Mem.slice, List.map_const',
      List.length_range]
  have hcell := Mem.slice_eq_iff.mp hslice
  rw [readS32, hcell 0 (by omega) (by omega), hcell (0 + 1) (by omega) (by omega),
    hcell (0 + 2) (by omega) (by omega), hcell (0 + 3) (by omega) (by omega)]
  rfl

/-- A whole `in`, with both threads outside. -/
theorem run_piece {st : GateBuffer} (hw : st.recv.io.writer = .idle)
    (hr : st.recv.io.reader = .idle) (src : List UInt8) :
    run step st [.append (.write src), .append .relocate, .append .copy, .append .advance]
      = some
        { recv := { st.recv with
            io := { st.recv.io with
              stream := st.recv.io.stream.inBytes (Mem.ofList src 0) src.length
              written := st.recv.io.written ++ src } }
          fresh := st.fresh + src.length
          since := st.since + src.length } := by
  obtain ⟨⟨⟨stream, writer, reader, written, taken⟩, queue, main, session, trace⟩, fresh,
    since⟩ := st
  dsimp only at hw hr
  subst hw hr
  cases hplan : stream.inPlan src.length <;>
    simp [step, RecvState.step, StreamState.step, StreamAction.ofWriter, hplan, arrived,
      TStream.inBytes, TStream.relocate]

/-- A whole event whose only call of `OnRecv` uses nothing and calls nothing. -/
theorem run_event {st : GateBuffer} (hr : st.recv.io.reader = .idle) (hm : st.recv.main = .idle)
    (hq : st.recv.queue = []) (hpos : 0 < st.recv.io.stream.size)
    (hcall : st.recv.session.OnRecv st.recv.io.stream.buff st.recv.io.stream.size
      = ⟨0, st.recv.session, []⟩) :
    run step st [.post .RECV, .read, .lock, .look, .call, .free]
      = some { st with fresh := 0, since := 0 } := by
  obtain ⟨⟨⟨stream, writer, reader, written, taken⟩, queue, main, session, trace⟩, fresh,
    since⟩ := st
  dsimp only at hr hm hq hpos hcall
  subst hr hm hq
  simp [step, RecvState.step, StreamState.step, recvCall, hpos, hcall]

/-- Zero bytes pile up: with four of them unread, another piece stays too. -/
theorem Zeros.event {n m : Nat} {st : GateBuffer} (h : st.Zeros n) (hm : 4 ≤ n + m) :
    ∃ st', run step st (onePieceEvent (List.replicate m 0)) = some st' ∧ st'.Zeros (n + m) := by
  have hslice := Mem.slice_ofList (List.replicate m (0 : UInt8)) 0
  have hnonneg : (0 : Int) ≤ ((List.replicate m (0 : UInt8)).length : Int) := Int.natCast_nonneg _
  -- The stream behind the piece holds zeros only.
  have hunread : (st.recv.io.stream.inBytes (Mem.ofList (List.replicate m 0) 0)
      (List.replicate m (0 : UInt8)).length).unread = List.replicate (n + m) 0 := by
    rw [TStream.inBytes_unread BUFF_SIZE_pos h.wf _ hnonneg, h.unread, Int.toNat_natCast,
      hslice, List.replicate_append_replicate]
  have hwf := TStream.inBytes_wf BUFF_SIZE_pos h.wf (Mem.ofList (List.replicate m 0) 0) hnonneg
  have hpiece := run_piece h.writer h.reader (List.replicate m 0)
  generalize st.recv.io.stream.inBytes (Mem.ofList (List.replicate m 0) 0)
    (List.replicate m (0 : UInt8)).length = stream at hunread hwf hpiece
  have hlength := readS32_zeros hm hunread
  have hsize : stream.size = n + m := by
    rw [size_eq_length hwf, hunread, List.length_replicate]
    omega
  have hcall := onRecv_short st.recv.session stream.size (Int.le_of_eq hlength.symm)
    (by rw [hlength]; decide)
  have hrun : run step st (onePieceEvent (List.replicate m 0)) = some
      { recv := { st.recv with
          io := { st.recv.io with
            stream := stream
            written := st.recv.io.written ++ List.replicate m 0 } }
        fresh := 0
        since := 0 } := by
    rw [show onePieceEvent (List.replicate m 0) = [.append (.write (List.replicate m 0)),
        .append .relocate, .append .copy, .append .advance]
        ++ [.post .RECV, .read, .lock, .look, .call, .free] from rfl, run_append, hpiece]
    exact run_event h.reader h.main h.queue (by dsimp only; omega) hcall
  exact ⟨_, hrun,
    { wf := hwf
      writer := h.writer
      reader := h.reader
      main := h.main
      queue := h.queue
      trace := h.trace
      unread := hunread
      since := rfl }⟩

/-- A new connection holds no zeros. -/
theorem init_zeros (sink : ClientConnectSink) : (init sink).Zeros 0 where
  wf := TStream.init_wf
  writer := rfl
  reader := rfl
  main := rfl
  queue := rfl
  trace := rfl
  unread := rfl
  since := rfl

/-- Event after event a client piles up as many unread bytes as it sends, and the connection
stays open. -/
theorem zeros_pile_up (sink : ClientConnectSink) (k : Nat) :
    ∃ as st, run step (init sink) as = some st ∧ ¬ st.Closed ∧ st.recv.main = .idle ∧
      st.recv.io.stream.size = 4096 * k ∧ st.since = 0 := by
  have hzeros : ∃ as st, run step (init sink) as = some st ∧ st.Zeros (4096 * k) := by
    induction k with
    | zero => exact ⟨[], init sink, rfl, init_zeros sink⟩
    | succ k ih =>
        obtain ⟨as, st, hrun, hz⟩ := ih
        obtain ⟨st', hevent, hz'⟩ := hz.event (m := 4096) (by omega)
        exact ⟨as ++ onePieceEvent (List.replicate 4096 0), st',
          by rw [run_append, hrun]; exact hevent, hz'⟩
  obtain ⟨as, st, hrun, hz⟩ := hzeros
  refine ⟨as, st, hrun, fun hc => ?_, hz.main, ?_, hz.since⟩
  · rw [Closed, hz.trace] at hc
    cases hc
  · rw [size_eq_length hz.wf, hz.unread, List.length_replicate]
    omega

/-- A frame of `24` bytes with the id `2`. -/
def frame : List UInt8 :=
  [24, 0, 0, 0, 2, 0, 0, 0, 0, 0, 0, 0, 0, 0, 0, 0, 0, 0, 0, 0, 0, 0, 0, 0]

/-- A frame of the largest size. -/
def largeFrame : List UInt8 := [0, 16, 0, 0, 2, 0, 0, 0] ++ List.replicate 4088 0

/-- A client sends three frames in one piece. The main thread handles the event with a call for
each of them, none of which is handed fewer than `4096` bytes, and a last round. -/
def threeFrames : List RecvAction :=
  [.append (.write (frame ++ frame ++ largeFrame)), .append .relocate, .append .copy,
    .append .advance, .post .RECV, .read] ++
  (List.replicate 4 [.lock, .look, .call, .free]).flatten

/-- The promise is kept on the frames. -/
theorem buffered_frame :
    ∃ st, run step (init ⟨true, -1⟩) threeFrames = some st ∧
      4096 ≤ (frame ++ frame ++ largeFrame).length ∧
      AllSteps step UsesOrCloses (init ⟨true, -1⟩) threeFrames ∧
      Throughout step Buffered (init ⟨true, -1⟩) threeFrames := by
  obtain ⟨st, hst⟩ : ∃ st, run step (init ⟨true, -1⟩) threeFrames = some st :=
    Option.isSome_iff_exists.mp (by decide +kernel)
  obtain ⟨huses, hbuffered, -⟩ := (buffered_iff ⟨true, -1⟩ hst).mpr (by decide +kernel)
  have hlength : (frame ++ frame ++ largeFrame).length = 24 + 24 + 4096 := by
    rw [List.length_append, List.length_append, largeFrame, List.length_append,
      List.length_replicate]
    rfl
  exact ⟨st, hst, by omega, huses, hbuffered⟩

/-- A client sends `4096` zero bytes in one piece. `OnRecv` uses none of them and does not
close, and they are unread when the event is done. -/
theorem zeros_stay :
    ∃ st, run step (init ⟨true, -1⟩) (onePieceEvent (List.replicate 4096 0)) = some st ∧
      ¬ st.Closed ∧ st.recv.main = .idle ∧ st.since = 0 ∧ st.recv.io.stream.size = 4096 ∧
      ¬ AllSteps step UsesOrCloses (init ⟨true, -1⟩) (onePieceEvent (List.replicate 4096 0)) ∧
      ¬ st.Buffered := by
  obtain ⟨st, hrun, hz⟩ := (init_zeros ⟨true, -1⟩).event (m := 4096) (by decide)
  have hopen : ¬ st.Closed := by
    rw [Closed, hz.trace]
    exact List.not_mem_nil
  have hsize : st.recv.io.stream.size = 4096 := by
    rw [size_eq_length hz.wf, hz.unread, List.length_replicate]
    rfl
  have hfull : ¬ st.Buffered := by
    intro hbuf
    have := hbuf hopen
    rw [hz.since] at this
    omega
  refine ⟨st, hrun, hopen, hz.main, hz.since, hsize, fun hall => ?_, hfull⟩
  -- A run that keeps the promise would end with fewer bytes.
  exact hfull (run_held _ hrun ((allSteps_congr usesOrCloses_iff).mp hall)).buffered

end GateBuffer

end Kernel4GameServer
