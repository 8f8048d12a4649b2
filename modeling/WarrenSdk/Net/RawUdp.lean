import WarrenSdk.Bolthole.Ip
import WarrenSdk.Foundation.HashMap

/-! # Datagram flows over a raw packet plane

A demux hands out flows on local ports and routes the datagrams of the downlink
to the flow that owns their destination. A flow and its registration share an
inbox; the registration holds its only sender, so an inbox is closed once no
registration has it. -/

namespace WarrenSdk.Net

open Bolthole

/-! ## Reading datagrams -/

def ipv4HeaderLen : Nat := 20
def ipv6HeaderLen : Nat := 40
def udpHeaderLen : Nat := 8

def flowInboxDepth : Nat := 64

/-- The addresses of a packet and the bytes that its length field gives to the
transport, if that is an unfragmented UDP datagram. -/
def udpOfPacket (packet : List UInt8) : Option (IpAddr × IpAddr × List UInt8) :=
  match packet with
  | [] => none
  | first :: _ =>
    if first >>> 4 = 4 then
      let ihl := (first &&& 0x0f).toNat * 4
      let frag := u16At packet 6
      let total := (u16At packet 2).toNat
      if ihl < ipv4HeaderLen || packet.length < ihl then none
      else if byteAt packet 9 ≠ protoUdp then none
      else if frag &&& 0x1fff ≠ 0 || frag &&& 0x2000 ≠ 0 then none
      else if total < ihl || packet.length < total then none
      else
        some (.v4 (.ofOctets (Bytes.slice packet 12 4)), .v4 (.ofOctets (Bytes.slice packet 16 4)),
          Bytes.slice packet ihl (total - ihl))
    else if first >>> 4 = 6 then
      let payloadLen := (u16At packet 4).toNat
      if packet.length < ipv6HeaderLen || byteAt packet 6 ≠ protoUdp then none
      else if packet.length < ipv6HeaderLen + payloadLen then none
      else
        some (.v6 (.ofOctets (Bytes.slice packet 8 16)), .v6 (.ofOctets (Bytes.slice packet 24 16)),
          Bytes.slice packet ipv6HeaderLen payloadLen)
    else none

def parseUdp (packet : List UInt8) : Option (SocketAddr × SocketAddr × List UInt8) :=
  match udpOfPacket packet with
  | none => none
  | some (src, dst, udp) =>
    let udpLen := (u16At udp 4).toNat
    if udp.length < udpHeaderLen then none
    else if udpLen < udpHeaderLen || udp.length < udpLen then none
    else
      some (⟨src, u16At udp 0⟩, ⟨dst, u16At udp 2⟩,
        Bytes.slice udp udpHeaderLen (udpLen - udpHeaderLen))

/-! ## Flows -/

/-- What an inbox holds: a payload and where it came from. -/
abbrev Datagram := List UInt8 × SocketAddr

inductive RemoteFilter
  | endpoint (expected : SocketAddr)
  | host (host : IpAddr)
  deriving DecidableEq

def RemoteFilter.accepts : RemoteFilter → SocketAddr → Bool
  | .endpoint expected, sender => sender = expected
  | .host expected, sender => sender.ip = expected

/-- One flow's registration. The token tells a superseded flow its own entry
from the one that replaced it. -/
structure Registration where
  token : UInt64
  «local» : SocketAddr
  inbox : Nat
  deriving DecidableEq

structure RawUdpFlow where
  «local» : SocketAddr
  expectedRemote : RemoteFilter
  token : UInt64
  inbox : Nat
  deriving DecidableEq

/-- The registered flows by the local port that they own, and the inboxes by
the number they were made under. -/
structure RawUdpDemux where
  flows : HashMap UInt16 Registration
  nextToken : UInt64
  inboxes : HashMap Nat (List Datagram)
  nextInbox : Nat

namespace RawUdpDemux

def new : RawUdpDemux where
  flows := .empty
  nextToken := 0
  inboxes := .empty
  nextInbox := 0

def takeToken (demux : RawUdpDemux) : UInt64 × Nat × RawUdpDemux :=
  (demux.nextToken, demux.nextInbox,
    { demux with
      nextToken := demux.nextToken + 1
      inboxes := demux.inboxes.insert demux.nextInbox []
      nextInbox := demux.nextInbox + 1 })

def enroll (demux : RawUdpDemux) (registration : Registration) : RawUdpDemux :=
  { demux with
    flows := demux.flows.insert registration.local.port registration }

def registerWith (demux : RawUdpDemux) («local» : SocketAddr)
    (expectedRemote : RemoteFilter) : RawUdpFlow × RawUdpDemux :=
  let (token, inbox, demux) := demux.takeToken
  ({ «local», expectedRemote, token, inbox }, demux.enroll { token, «local», inbox })

def register (demux : RawUdpDemux) («local» expectedRemote : SocketAddr) :
    RawUdpFlow × RawUdpDemux :=
  demux.registerWith «local» (.endpoint expectedRemote)

def registerFromHost (demux : RawUdpDemux) («local» : SocketAddr)
    (expectedHost : IpAddr) : RawUdpFlow × RawUdpDemux :=
  demux.registerWith «local» (.host expectedHost)

/-- Queue a datagram at an inbox; a full one drops it. -/
def push (demux : RawUdpDemux) (inbox : Nat) (datagram : Datagram) :
    RawUdpDemux :=
  { demux with
    inboxes := demux.inboxes.modify inbox fun queued =>
      if queued.length < flowInboxDepth then queued ++ [datagram]
      else queued }

def deliver (demux : RawUdpDemux) (packet : List UInt8) : Bool × RawUdpDemux :=
  match parseUdp packet with
  | none => (false, demux)
  | some (src, dst, payload) =>
    match demux.flows.get dst.port with
    | none => (false, demux)
    | some registered =>
      if registered.local = dst then
        (true, demux.push registered.inbox (payload, src))
      else (false, demux)

def closeAll (demux : RawUdpDemux) : RawUdpDemux :=
  { demux with flows := .empty }

/-- A flow that is dropped takes its own registration along, and no other. -/
def dropFlow (demux : RawUdpDemux) (flow : RawUdpFlow) : RawUdpDemux :=
  match demux.flows.get flow.local.port with
  | some registered =>
    if registered.token = flow.token then
      { demux with flows := demux.flows.remove flow.local.port }
    else demux
  | none => demux

/-! ## Receiving -/

def Registered (demux : RawUdpDemux) (flow : RawUdpFlow) : Prop :=
  demux.flows.get flow.local.port = some ⟨flow.token, flow.local, flow.inbox⟩

instance (demux : RawUdpDemux) (flow : RawUdpFlow) : Decidable (demux.Registered flow) :=
  inferInstanceAs (Decidable (_ = _))

def hasSender (demux : RawUdpDemux) (inbox : Nat) : Bool :=
  demux.flows.toList.any fun entry => entry.2.inbox = inbox

inductive Received
  | datagram (payload : List UInt8) (sender : SocketAddr)
  | over
  | waiting
  deriving DecidableEq

def takeAccepted (filter : RemoteFilter) : List Datagram → Option Datagram × List Datagram
  | [] => (none, [])
  | (payload, sender) :: rest =>
    if filter.accepts sender then (some (payload, sender), rest)
    else takeAccepted filter rest

/-- Wait for a datagram: an inbox without a sender ends the wait once it is
empty. -/
def recvFrom (demux : RawUdpDemux) (flow : RawUdpFlow) : Received × RawUdpDemux :=
  let (taken, rest) := takeAccepted flow.expectedRemote
    ((demux.inboxes.get flow.inbox).getD [])
  let demux := { demux with inboxes := demux.inboxes.insert flow.inbox rest }
  match taken with
  | some (payload, sender) => (.datagram payload sender, demux)
  | none =>
    if demux.hasSender flow.inbox then (.waiting, demux) else (.over, demux)

theorem recvFrom_ends {demux : RawUdpDemux} (closed : demux.hasSender flow.inbox = false) :
    (demux.recvFrom flow).1 ≠ .waiting := by
  rw [recvFrom]
  rcases takeAccepted flow.expectedRemote
    ((demux.inboxes.get flow.inbox).getD []) with ⟨taken, rest⟩
  have stillClosed : { demux with
      inboxes := demux.inboxes.insert flow.inbox rest }.hasSender flow.inbox = false := closed
  cases taken with
  | some datagram => simp
  | none => simp [stillClosed]

theorem hasSender_eq_false {demux : RawUdpDemux} (empty : ∀ port, demux.flows.get port = none) :
    demux.hasSender inbox = false := by
  rw [hasSender, List.any_eq_false]
  intro entry member
  have present := HashMap.mem_toList.mp member
  rw [empty] at present
  cases present

end RawUdpDemux

end WarrenSdk.Net
