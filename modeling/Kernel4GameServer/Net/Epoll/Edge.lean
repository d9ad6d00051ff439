import Kernel4GameServer.Net.Epoll.Worker

/-!
# `Kernel4GameServer.Net.Epoll.Edge`: a connection and the socket under it

`DoConnect` and `DoAccept` add a socket to the epoll set of its worker with
`EPOLLIN | EPOLLOUT | EPOLLET`. An edge-triggered set reports a socket again only when
something has changed, so it matters that no byte is left where no report will come for it.
`Connection` takes any event mask and any result of `recv` and `send`. Here both come from a
socket.

`Socket` is what the system promises of a non-blocking stream socket in an epoll set and no
more. A report is due when data comes behind a `recv` that said EAGAIN, and when room comes
behind a `send` that said EAGAIN. Other reports may come, and a report may name a direction in
which nothing is to be done. `EdgeState` is the connection with its socket, and with the bytes
that came, that were read and that were sent.
-/

set_option autoImplicit false

namespace Kernel4GameServer

open Lib

/-- The options that `epoll_ctl` was last given for a socket: those of `DoConnect` and
`DoAccept`, `EPOLLOUT | EPOLLONESHOT`, the error flags, or a one-shot that has fired. -/
inductive Interest where
  | edge
  | outOnce
  | errors
  | disabled
  deriving DecidableEq, Repr

/-- A socket. `recvBuf` came and was not read, `ended` is the end of the stream behind it,
`room` is what `send` still takes. On a `broken` socket both calls fail. `ready` says that a
report is due. `recvEdge` and `sendEdge` say that the next arrival and the next room must be
reported. -/
structure Socket where
  recvBuf : List UInt8
  ended : Bool
  broken : Bool
  room : Nat
  interest : Interest
  ready : Bool
  recvEdge : Bool
  sendEdge : Bool
  deriving DecidableEq, Repr

namespace Socket

/-- A connected socket that has just been added, with room for `room` bytes. -/
def added (room : Nat) : Socket where
  recvBuf := []
  ended := false
  broken := false
  room := room
  interest := .edge
  ready := true
  recvEdge := true
  sendEdge := decide (room = 0)

/-- A `recv` would not say EAGAIN. -/
def readable (s : Socket) : Bool := decide (s.recvBuf ≠ []) || s.ended || s.broken

/-- A `send` would not say EAGAIN. -/
def writable (s : Socket) : Bool := decide (0 < s.room) || s.broken

/-- The bytes `bs` come. -/
def arrive (s : Socket) (bs : List UInt8) (edge : Bool) : Option Socket :=
  if bs ≠ [] ∧ s.ended = false ∧ s.broken = false ∧
      (edge = true ∨ s.recvEdge = false ∨ s.interest ≠ .edge) then
    some { s with
      recvBuf := s.recvBuf ++ bs
      ready := s.ready || edge
      recvEdge := s.recvEdge && !edge }
  else none

/-- Room for `k` more bytes. -/
def free (s : Socket) (k : Nat) (edge : Bool) : Option Socket :=
  if 0 < k ∧ (edge = true ∨ s.sendEdge = false ∨ s.interest = .errors ∨
      s.interest = .disabled) then
    some { s with
      room := s.room + k
      ready := s.ready || edge
      sendEdge := s.sendEdge && !edge }
  else none

/-- The other side ends the stream, or the connection breaks. -/
def hangup (s : Socket) (rst : Bool) : Socket :=
  { s with
    ended := true
    broken := s.broken || rst
    ready := true }

/-- `epoll_wait` may report `mask`. -/
def reports (s : Socket) (mask : EpollFlags) : Bool :=
  decide (mask.hasError = s.broken) && (mask.EPOLLIN || mask.EPOLLOUT || mask.hasError) &&
    match s.interest with
    | .edge => (!s.readable || mask.EPOLLIN) && (!s.writable || mask.EPOLLOUT)
    | .outOnce => !mask.EPOLLIN && decide (mask.EPOLLOUT = s.writable)
    | .errors => !mask.EPOLLIN && !mask.EPOLLOUT
    | .disabled => false

/-- `epoll_wait` has reported the socket. -/
def reported (s : Socket) : Socket :=
  match s.interest with
  | .edge => { s with ready := false }
  | .outOnce => { s with ready := false, interest := .disabled }
  -- Without EPOLLET the socket is reported until it is closed.
  | _ => s

/-- Nothing that was asked for is to be reported. -/
def quiet (s : Socket) : Bool :=
  match s.interest with
  | .edge => !s.readable && !s.writable
  | .outOnce => !s.writable
  | .errors => !s.broken
  | .disabled => true

/-- `epoll_ctl(EPOLL_CTL_MOD)` with the options `opt`. -/
def modify (s : Socket) (opt : EpollFlags) : Socket :=
  { s with
    interest := if opt.EPOLLOUT then .outOnce else .errors
    ready := s.ready || if opt.EPOLLOUT then s.writable else s.broken
    sendEdge := s.sendEdge || decide (s.room = 0) }

/-- The result `result` of `recv`. The buffer of `DoRecv` may cut any piece off. -/
def recv (s : Socket) : RecvResult → Option Socket
  | .data piece =>
      if s.broken = false ∧ piece <+: s.recvBuf then
        some { s with recvBuf := s.recvBuf.drop piece.length }
      else none
  | .EAGAIN => if s.readable = false then some { s with recvEdge := true } else none
  | .ended => if s.broken = true ∨ (s.recvBuf = [] ∧ s.ended = true) then some s else none

/-- The result `result` of `send`. -/
def send (s : Socket) : SendResult → Option Socket
  | .sent k =>
      if s.broken = false ∧ k ≤ s.room then some { s with room := s.room - k } else none
  | .EAGAIN => if s.writable = false then some { s with sendEdge := true } else none
  | .failed => if s.broken = true then some s else none

end Socket

/-- A `send` in the loop of `Send`, and the room that came in front of it. -/
structure SendCall where
  freed : Option (Nat × Bool)
  result : SendResult
  deriving DecidableEq, Repr

namespace SendCall

/-- The call on a socket. -/
def on (c : SendCall) (s : Socket) : Option Socket :=
  (match c.freed with
    | some (k, edge) => s.free k edge
    | none => some s).bind fun s' => s'.send c.result

end SendCall

/-- What the loop of `Send` does to the socket. Like the loop it looks at a result only while
bytes are pending. -/
def CPipe.sendLoopOn (p : CPipe) (s : Socket) : List SendCall → Option Socket
  | [] => some s
  | c :: cs =>
      if p.m_oSendStream.size > 0 then
        (c.on s).bind fun s' =>
          match c.result with
          | .sent k => (p.sendOut k).sendLoopOn s' cs
          | _ => some s'
      else some s

/-- What the locked section of `Send` does to the socket. -/
def CPipe.sendSectionOn (p : CPipe) (s : Socket) (calls : List SendCall) : Option Socket :=
  if p.m_bNeedSend then p.sendLoopOn s calls else some s

/-- A connection with its socket. `arrived` came to the socket, `taken` went into
`m_oRecvStream`, `posted` was accepted by `Send`, `wire` by `send`. `unseen` says that bytes
went into the stream behind the last call of `OnRecv` that used nothing. -/
structure EdgeState where
  conn : Connection
  sock : Socket
  arrived : List UInt8
  taken : List UInt8
  posted : List UInt8
  wire : List UInt8
  unseen : Bool

/-- The steps: those of the socket, those of the two threads that make a call on it, and their
other steps. -/
inductive EdgeAction where
  | arrive (bs : List UInt8) (edge : Bool)
  | free (k : Nat) (edge : Bool)
  | hangup (rst : Bool)
  | event (mask : EpollFlags)
  | skip
  | recv (result : RecvResult)
  | send (result : SendResult)
  | sendLocked (calls : List SendCall)
  | closeLocked
  | testRecv
  | testSend
  | testClose
  | add
  | Send (src : List UInt8)
  | Close
  | read
  | round (nUse : Int)
  | finish
  deriving DecidableEq, Repr

namespace EdgeState

/-- A connection behind `DoConnect`, on a socket that takes `room` bytes. -/
def init (lSocket room : Nat) : EdgeState where
  conn := .init lSocket
  sock := .added room
  arrived := []
  taken := []
  posted := []
  wire := []
  unseen := false

/-- `epoll_ctl` for the options that a section posted. A closed socket is in no set. -/
def modify (st : EdgeState) (opts : List EpollFlags) : EdgeState :=
  if st.conn.registered then { st with sock := opts.foldl .modify st.sock } else st

/-- A step that makes no call on the socket. -/
def plain (st : EdgeState) (a : ConnAction) : Option EdgeState :=
  (st.conn.step a).map fun conn => { st with conn }

/-- One step. -/
def step (st : EdgeState) : EdgeAction → Option EdgeState
  | .arrive bs edge =>
      (st.sock.arrive bs edge).map fun sock => { st with sock, arrived := st.arrived ++ bs }
  | .free k edge => (st.sock.free k edge).map fun sock => { st with sock }
  | .hangup rst => some { st with sock := st.sock.hangup rst }
  | .event mask =>
      if st.sock.ready ∧ st.sock.reports mask then
        (st.conn.step (.event mask)).map fun conn =>
          { st with conn, sock := st.sock.reported }
      else none
  | .skip =>
      if st.conn.worker = .wait ∧ st.sock.ready ∧ st.sock.quiet then
        some { st with sock := { st.sock with ready := false } }
      else none
  | .recv result =>
      (st.sock.recv result).bind fun sock =>
        (st.conn.step (.recv result)).map fun conn =>
          match result with
          | .data piece => { st with conn, sock, taken := st.taken ++ piece, unseen := true }
          | _ => { st with conn, sock }
  | .send result =>
      -- With nothing pending `DoSend` does not call `send`.
      (if st.conn.pipe.m_oSendStream.size > 0 then st.sock.send result
        else some st.sock).bind fun sock =>
        (st.conn.step (.send result)).bind fun conn =>
          (st.conn.pipe.doSendRound result).map fun r =>
            { st with conn, sock, wire := st.wire ++ r.1.wire }
  | .sendLocked calls =>
      (st.conn.pipe.sendSectionOn st.sock calls).bind fun sock =>
        (st.conn.step (.SendLocked (calls.map (·.result)))).bind fun conn =>
          (st.conn.pipe.sendSection (calls.map (·.result))).map fun r =>
            { st with conn, sock, wire := st.wire ++ r.wire }.modify r.posted
  | .closeLocked =>
      (st.conn.step .CloseLocked).map fun conn =>
        { st with conn }.modify st.conn.pipe.closeSection.posted
  | .testRecv => st.plain .testRecv
  | .testSend => st.plain .testSend
  | .testClose => st.plain .testClose
  | .add => st.plain .add
  | .Send src =>
      (st.plain (.Send src)).map fun st' =>
        -- On a pipe that is not established `Send` returns at once.
        if st.conn.pipe.m_nStatus = .SS_ESTABLISHED then
          { st' with posted := st.posted ++ src }
        else st'
  | .Close => st.plain .Close
  | .read => st.plain .read
  | .round nUse =>
      (st.plain (.round nUse)).map fun st' =>
        -- `OnRecv` saw everything and used nothing, or there was nothing to see.
        if st.conn.pipe.m_oRecvStream.size > 0 ∧ nUse ≠ 0 then st'
        else { st' with unseen := false }
  | .finish => st.plain .finish

end EdgeState

end Kernel4GameServer
