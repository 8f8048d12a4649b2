import Mathlib.Tactic.Common

/-! # TCP sockets

A TCP socket as its owner sees it: the connection states of RFC 9293, the bytes
that wait in its two buffers, and what the segments of the peer make of them.
Sequence numbers, windows and retransmission are settled below: an arrival is
what the stack concludes from the segments it has put in order. -/

namespace WarrenSdk.Tcp

inductive State
  | closed
  | listen
  | synSent
  | synReceived
  | established
  | finWait1
  | finWait2
  | closeWait
  | closing
  | lastAck
  | timeWait
  deriving DecidableEq

structure Socket where
  state : State := .closed
  /-- The size of each buffer. -/
  capacity : Nat
  /-- Received and not yet taken by the owner. -/
  rx : List UInt8 := []
  /-- Accepted from the owner and not yet acknowledged by the peer. -/
  tx : List UInt8 := []
  /-- Every byte that was ever put into the receive buffer. -/
  arrived : List UInt8 := []
  /-- The handshake was completed. -/
  opened : Bool := false
  /-- The peer has closed its sending side. -/
  finished : Bool := false
  deriving DecidableEq

namespace Socket

/-! ## What the owner asks -/

def isActive (socket : Socket) : Bool :=
  match socket.state with
  | .closed | .timeWait | .listen => false
  | _ => true

def maySend (socket : Socket) : Bool :=
  match socket.state with
  | .established | .closeWait => true
  | _ => false

def mayRecv (socket : Socket) : Bool :=
  match socket.state with
  | .established | .finWait1 | .finWait2 => true
  | _ => !socket.rx.isEmpty

def canSend (socket : Socket) : Bool :=
  socket.maySend && decide (socket.tx.length < socket.capacity)

def canRecv (socket : Socket) : Bool := socket.mayRecv && !socket.rx.isEmpty

@[simp] theorem canRecv_eq (socket : Socket) : socket.canRecv = !socket.rx.isEmpty := by
  cases empty : socket.rx.isEmpty with
  | true => simp [canRecv, empty]
  | false => cases state : socket.state <;> simp [canRecv, mayRecv, empty, state]

/-! ## What the owner does -/

/-- Start to listen on a port; only a closed socket can, and not on port zero. -/
def listen (socket : Socket) (port : UInt16) : Option Socket :=
  if socket.state = .closed ∧ port ≠ 0 then
    some { socket with state := .listen }
  else none

def connect (socket : Socket) : Socket := { socket with state := .synSent }

def sendSlice (socket : Socket) (data : List UInt8) : Option (Nat × Socket) :=
  if socket.maySend then
    let size := min (socket.capacity - socket.tx.length) data.length
    some (size, { socket with tx := socket.tx ++ data.take size })
  else none

def recvSlice (socket : Socket) (limit : Nat) : Option (List UInt8 × Socket) :=
  if socket.mayRecv then
    some (socket.rx.take limit, { socket with rx := socket.rx.drop limit })
  else none

variable {socket : Socket}

theorem recvSlice_eq_some (received : socket.recvSlice limit = some (bytes, after)) :
    bytes = socket.rx.take limit ∧ after = { socket with rx := socket.rx.drop limit } := by
  rw [recvSlice] at received
  split at received
  · cases received
    exact ⟨rfl, rfl⟩
  · cases received

theorem sendSlice_eq_some (sent : socket.sendSlice data = some (size, after)) : socket.maySend ∧
      size = min (socket.capacity - socket.tx.length) data.length ∧
      after = { socket with tx := socket.tx ++ data.take size } := by
  rw [sendSlice] at sent
  split at sent
  · rename_i may
    cases sent
    exact ⟨may, rfl, rfl⟩
  · cases sent

theorem not_canSend_of_invalid (refused : socket.sendSlice data = none) :
    socket.canSend = false := by
  rw [sendSlice] at refused
  split at refused
  · cases refused
  · rename_i may
    simp [canSend, may]

theorem not_canSend_of_full (offered : data ≠ []) (sent : socket.sendSlice data = some (0, after)) :
    after.canSend = false := by
  rcases sendSlice_eq_some sent with ⟨_, none, rfl⟩
  have bytes := List.length_pos_iff.mpr offered
  have full : ¬socket.tx.length < socket.capacity := by omega
  simp [canSend, full]

def close (socket : Socket) : Socket :=
  match socket.state with
  | .listen | .synSent => { socket with state := .closed }
  | .synReceived | .established => { socket with state := .finWait1 }
  | .closeWait => { socket with state := .lastAck }
  | _ => socket

def abort (socket : Socket) : Socket := { socket with state := .closed }

def unclosed (socket : Socket) : Bool :=
  match socket.state with
  | .listen | .synSent | .synReceived | .established | .closeWait => true
  | _ => false

theorem unclosed_sendSlice (sent : socket.sendSlice data = some (size, after)) :
    after.unclosed = socket.unclosed := by
  rcases sendSlice_eq_some sent with ⟨_, _, rfl⟩
  rfl

@[simp] theorem unclosed_close (socket : Socket) : socket.close.unclosed = false := by
  cases state : socket.state <;> simp [close, unclosed, state]

end Socket

/-! ## What the network does -/

inductive Arrival
  /-- A SYN of the peer. -/
  | syn
  /-- The peer has acknowledged our SYN and, if it was missing, sent its own. -/
  | synAcked
  | data (bytes : List UInt8)
  | fin
  /-- The peer has acknowledged bytes of the send buffer. -/
  | acked (count : Nat)
  /-- The peer has acknowledged our FIN. -/
  | finAcked
  | rst
  /-- The TIME-WAIT timer has run out. -/
  | expired
  deriving DecidableEq

namespace Socket

def takesData (socket : Socket) : Bool :=
  match socket.state with
  | .established | .finWait1 | .finWait2 => true
  | _ => false

def admitted (socket : Socket) (bytes : List UInt8) : List UInt8 :=
  if socket.takesData then
    bytes.take (socket.capacity - socket.rx.length)
  else []

def receive (socket : Socket) : Arrival → Socket
  | .syn =>
    match socket.state with
    | .listen | .synSent => { socket with state := .synReceived }
    | _ => socket
  | .synAcked =>
    match socket.state with
    | .synSent | .synReceived =>
      { socket with state := .established, opened := true }
    | _ => socket
  | .data bytes =>
    { socket with
      rx := socket.rx ++ socket.admitted bytes
      arrived := socket.arrived ++ socket.admitted bytes }
  | .fin =>
    match socket.state with
    | .established => { socket with state := .closeWait, finished := true }
    | .finWait1 => { socket with state := .closing, finished := true }
    | .finWait2 => { socket with state := .timeWait, finished := true }
    | _ => socket
  | .acked count => { socket with tx := socket.tx.drop count }
  | .finAcked =>
    match socket.state with
    | .finWait1 => { socket with state := .finWait2, tx := [] }
    | .closing => { socket with state := .timeWait, tx := [] }
    | .lastAck => { socket with state := .closed, tx := [] }
    | _ => socket
  | .rst =>
    -- A half-open passive socket goes back to listening.
    match socket.state with
    | .listen | .synReceived => { socket with state := .listen }
    | _ => { socket with state := .closed }
  | .expired =>
    match socket.state with
    | .timeWait => { socket with state := .closed }
    | _ => socket

end Socket

end WarrenSdk.Tcp
