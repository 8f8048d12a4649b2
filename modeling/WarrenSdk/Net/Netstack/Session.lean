import WarrenSdk.Bolthole.Address
import WarrenSdk.Net.Tcp

/-! # One connection of the netstack

The application and the engine share two bounded channels for each connection.
The application's end is a stream; the engine's end is a record beside the
socket. A session is one connection with all three. -/

namespace WarrenSdk.Net.Netstack

open Bolthole

def connChannelDepth : Nat := 32

/-- How many bytes of the application are taken up before the writer is
throttled. -/
def pendingOutCap : Nat := 256 * 1024

def drainChunk : Nat := 4096

inductive NetError
  | connectionRefused
  | connectTimeout
  | connectFailed
  | engineStopped
  | noDnsRecord
  | io
  deriving DecidableEq

/-! ## The application's end -/

inductive WriteOp
  | data (bytes : List UInt8)
  | shutdown
  deriving DecidableEq

/-- Who has the stream of a connection. -/
inductive Holder
  /-- It waits with the reply to a connect; the caller may have given up. -/
  | reply (waiting : Bool)
  /-- It waits in the accept queue of a listener. -/
  | queue
  | application
  /-- It was dropped. -/
  | nobody
  deriving DecidableEq

/-- The two channels of a connection and the stream that reads and writes
them. -/
structure Link where
  toApp : List (List UInt8) := []
  fromApp : List WriteOp := []
  /-- The engine still has its ends of the channels. -/
  engineEnd : Bool := true
  holder : Holder
  leftover : List UInt8 := []
  readPos : Nat := 0
  /-- Every byte that a read has returned. -/
  given : List UInt8 := []
  /-- Every byte that a write has accepted. -/
  written : List UInt8 := []
  /-- A shutdown was accepted. -/
  shut : Bool := false
  deriving DecidableEq

inductive Poll (Value : Type)
  | pending
  | ready (value : Value)
  deriving DecidableEq

namespace Link

def hasStream (link : Link) : Bool := link.holder ≠ .nobody

def fill (link : Link) (remaining : Nat) : Poll (List UInt8) × Link :=
  let bytes := (link.leftover.drop link.readPos).take remaining
  (.ready bytes,
    { link with
      readPos := link.readPos + bytes.length
      given := link.given ++ bytes })

def pollRead (link : Link) (remaining : Nat) : Poll (List UInt8) × Link :=
  if link.leftover.length ≤ link.readPos then
    match link.toApp with
    | chunk :: rest => fill { link with toApp := rest, leftover := chunk, readPos := 0 } remaining
    | [] =>
      -- The sender is gone and nothing is queued: the end of the stream.
      if link.engineEnd then (.pending, link) else (.ready [], link)
  else fill link remaining

/-- Queue an operation, if the channel has room; a channel whose receiver is
gone refuses it. -/
def queueOp (link : Link) (op : WriteOp) : Poll Bool × Link :=
  if link.engineEnd then
    if link.fromApp.length < connChannelDepth then
      (.ready true, { link with fromApp := link.fromApp ++ [op] })
    else (.pending, link)
  else (.ready false, link)

def pollWrite (link : Link) (buf : List UInt8) : Poll Bool × Link :=
  match link.queueOp (.data buf) with
  | (.ready true, queued) => (.ready true, { queued with written := queued.written ++ buf })
  | refused => refused

def pollShutdown (link : Link) : Poll Bool × Link :=
  match link.queueOp .shutdown with
  | (.ready true, queued) => (.ready true, { queued with shut := true })
  | refused => refused

def dropStream (link : Link) : Link := { link with holder := .nobody }

end Link

/-! ## The engine's end -/

structure Outgoing where
  pendingOut : List (List UInt8) := []
  pendingOutLen : Nat := 0
  wantClose : Bool := false
  /-- Every byte that the socket has accepted. -/
  handed : List UInt8 := []
  /-- The socket was told to close. -/
  closed : Bool := false
  deriving DecidableEq

namespace Outgoing

def ingest (out : Outgoing) : List WriteOp → Outgoing × List WriteOp
  | [] => (out, [])
  | op :: rest =>
    if out.pendingOutLen < pendingOutCap then
      match op with
      | .data bytes =>
        ingest { out with
          pendingOutLen := out.pendingOutLen + bytes.length
          pendingOut := out.pendingOut ++ [bytes] } rest
      | .shutdown => ingest { out with wantClose := true } rest
    else (out, op :: rest)

end Outgoing

/-- A socket as the pump sees it: it may accept any first part of what it is
offered, and has no room left if that is none of a byte. -/
structure Outlet (Socket : Type) where
  canSend : Socket → Bool
  sendSlice : Socket → List UInt8 → Option (Nat × Socket)
  close : Socket → Socket
  hasRoom : Socket → Bool
  accepts {socket after : Socket} {data : List UInt8} {size : Nat}
    (sent : sendSlice socket data = some (size, after)) : size ≤ data.length
  mute {socket : Socket} (silent : canSend socket = false) : hasRoom socket = false
  invalid {socket : Socket} {data : List UInt8}
    (refused : sendSlice socket data = none) : hasRoom socket = false
  full {socket after : Socket} {data : List UInt8} (offered : data ≠ [])
    (sent : sendSlice socket data = some (0, after)) : hasRoom after = false

namespace Outgoing

variable {Socket : Type} (outlet : Outlet Socket)

def accepted (out : Outgoing) (chunk : List UInt8) (rest : List (List UInt8))
    (size : Nat) : Outgoing :=
  { out with
    pendingOutLen := out.pendingOutLen - size
    pendingOut :=
      if size = chunk.length then rest else chunk.drop size :: rest
    handed := out.handed ++ chunk.take size }

/-- Offer the pending chunks to the socket until it takes no more. Every round
but the last hands over a byte, so that many rounds and one are enough. -/
def push : Nat → Outgoing → Socket → Outgoing × Socket
  | 0, out, socket => (out, socket)
  | rounds + 1, out, socket =>
    if outlet.canSend socket then
      match out.pendingOut with
      | [] => (out, socket)
      | chunk :: rest =>
        match outlet.sendSlice socket chunk with
        | none => (out, socket)
        | some (0, socket) => (out, socket)
        | some (size + 1, socket) => push rounds (out.accepted chunk rest (size + 1)) socket
    else (out, socket)

def finish (out : Outgoing) (socket : Socket) : Outgoing × Socket :=
  if out.wantClose && out.pendingOut.isEmpty && outlet.canSend socket then
    ({ out with closed := true }, outlet.close socket)
  else (out, socket)

def pump (out : Outgoing) (socket : Socket) : Outgoing × Socket :=
  let pushed := out.push outlet (out.pendingOut.flatten.length + 1) socket
  pushed.1.finish outlet pushed.2

end Outgoing

def tcpOutlet : Outlet Tcp.Socket where
  canSend := Tcp.Socket.canSend
  sendSlice := Tcp.Socket.sendSlice
  close := Tcp.Socket.close
  hasRoom := Tcp.Socket.canSend
  accepts := by
    intro socket after data size sent
    rcases Tcp.Socket.sendSlice_eq_some sent with ⟨_, rfl, _⟩
    exact Nat.min_le_right _ _
  mute := id
  invalid := Tcp.Socket.not_canSend_of_invalid
  full := Tcp.Socket.not_canSend_of_full

structure Conn where
  id : Nat
  handle : Nat
  localPort : UInt16
  out : Outgoing := {}
  /-- When the handshake has to be complete. -/
  deadline : Instant
  /-- The connect that is still to be answered. -/
  connect : Option Nat
  deriving DecidableEq

structure Session where
  conn : Conn
  socket : Tcp.Socket
  link : Link
  deriving DecidableEq

inductive Reply
  | stream (id : Nat)
  | flow
  | listener
  | failed (error : NetError)
  deriving DecidableEq

namespace Session

def ingestWrites (session : Session) : Session :=
  let taken := session.conn.out.ingest session.link.fromApp
  { session with
    conn := { session.conn with out := taken.1 }
    link := { session.link with fromApp := taken.2 } }

def pumpSocket (session : Session) : Session :=
  let pumped := session.conn.out.pump tcpOutlet session.socket
  { session with
    conn := { session.conn with out := pumped.1 }
    socket := pumped.2 }

/-- The stream goes to the caller, unless it has given up. -/
def deliver (session : Session) : Session :=
  { session with
    conn := { session.conn with connect := none }
    link := { session.link with
      holder :=
        if session.link.holder = .reply true then .application else .nobody } }

/-- The connect has failed; its stream is dropped. -/
def fail (session : Session) : Session :=
  { session with
    conn := { session.conn with connect := none }
    link := session.link.dropStream }

def answer (session : Session) (now : Instant) : Session × Option (Nat × Reply) :=
  match session.conn.connect with
  | none => (session, none)
  | some request =>
    match session.socket.state with
    | .established => (session.deliver, some (request, .stream session.conn.id))
    | .closed => (session.fail, some (request, .failed .connectionRefused))
    | _ =>
      if session.conn.deadline ≤ now then
        ({ session with socket := session.socket.abort }.fail,
          some (request, .failed .connectTimeout))
      else (session, none)

def moveReceived : Nat → Tcp.Socket → Link → Tcp.Socket × Link
  | 0, socket, link => (socket, link)
  | rounds + 1, socket, link =>
    if socket.canRecv && link.hasStream &&
        decide (link.toApp.length < connChannelDepth) then
      match socket.recvSlice drainChunk with
      | none => (socket, link)
      | some ([], socket) => (socket, link)
      | some (bytes, socket) =>
        moveReceived rounds socket { link with toApp := link.toApp ++ [bytes] }
    else (socket, link)

/-- Every round puts a chunk into the channel, so its depth bounds them. -/
def drainSocket (session : Session) (now : Instant) : Session × Option (Nat × Reply) :=
  let answered := session.answer now
  let moved := moveReceived connChannelDepth answered.1.socket answered.1.link
  ({ answered.1 with socket := moved.1, link := moved.2 }, answered.2)

def reapable (session : Session) : Bool :=
  session.conn.connect.isNone && !session.socket.isActive &&
    decide (session.socket.state = .closed)

/-! ## The life of one connection -/

inductive Action
  /-- A segment of the peer, or a timer of the stack. -/
  | arrive (arrival : Tcp.Arrival)
  | ingestWrites
  | pumpSocket
  | drainSocket (now : Instant)
  /-- The caller of the connect gives up. -/
  | hangUp
  /-- The application takes the stream from the accept queue. -/
  | accept
  | read (remaining : Nat)
  | write (buf : List UInt8)
  | shutdown
  | dropStream
  deriving DecidableEq

def reap (session : Session) : Session :=
  if session.reapable then
    { session with link := { session.link with engineEnd := false } }
  else session

def engineStep (session : Session) (act : Session → Session) : Session :=
  if session.link.engineEnd then act session else session

def streamStep (session : Session) (act : Link → Link) : Session :=
  if session.link.holder = .application then
    { session with link := act session.link }
  else session

def handStep (session : Session) (old new : Holder) : Session :=
  if session.link.holder = old then
    { session with link := { session.link with holder := new } }
  else session

def step (session : Session) : Action → Session
  | .arrive arrival =>
    session.engineStep fun session =>
      { session with socket := session.socket.receive arrival }
  | .ingestWrites => session.engineStep ingestWrites
  | .pumpSocket => session.engineStep pumpSocket
  | .drainSocket now => session.engineStep fun session => (session.drainSocket now).1.reap
  | .hangUp => session.handStep (.reply true) (.reply false)
  | .accept => session.handStep .queue .application
  | .read remaining => session.streamStep fun link => (link.pollRead remaining).2
  | .write buf => session.streamStep fun link => (link.pollWrite buf).2
  | .shutdown => session.streamStep fun link => link.pollShutdown.2
  | .dropStream => session.streamStep Link.dropStream

end Session

end WarrenSdk.Net.Netstack
