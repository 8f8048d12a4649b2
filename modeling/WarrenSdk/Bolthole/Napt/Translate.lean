import WarrenSdk.Bolthole.Icmp
import WarrenSdk.Bolthole.Napt.Table

/-! # Translation

Both directions of the translator. A translation returns its outcome, the
packet as it leaves it and the state as it leaves it: a refusal can still have
touched the state. -/

namespace WarrenSdk.Bolthole

def mapProto (protocol : UInt8) (v6 : Bool) : Option MapProto :=
  if protocol = protoTcp then some .tcp
  else if protocol = protoUdp then some .udp
  else if v6 = false ∧ protocol = protoIcmpv4 then some .icmp
  else if v6 = true ∧ protocol = protoIcmpv6 then some .icmp
  else none

/-- What both directions read behind the address header. -/
inductive Transport where
  | ports (proto : MapProto) (source destination : UInt16) (flags : UInt8)
  | echo (identifier : UInt16)
  | icmpError
  deriving DecidableEq

/-- TCP and UDP carry ports, an echo carries its identifier, and an ICMP error
quotes the packet it is about. -/
def readTransport (pkt : List UInt8) (hdr : IpHeader) : Except NatDrop Transport :=
  match mapProto hdr.protocol hdr.isV6 with
  | some .tcp =>
    match readPorts pkt hdr.l4Offset, tcpFlags pkt hdr.l4Offset with
    | .error refusal, _ => .error (.ofPacketError refusal)
    | .ok _, .error refusal => .error (.ofPacketError refusal)
    | .ok (source, destination), .ok flags => .ok (.ports .tcp source destination flags)
  | some .udp =>
    match readPorts pkt hdr.l4Offset with
    | .error refusal => .error (.ofPacketError refusal)
    | .ok (source, destination) => .ok (.ports .udp source destination 0)
  | some .icmp =>
    match readIcmp pkt hdr.l4Offset with
    | .error refusal => .error (.ofPacketError refusal)
    | .ok icmp =>
      if isEcho hdr.protocol icmp.kind then
        match icmp.echoId with
        | some identifier => .ok (.echo identifier)
        | none => .error .malformed
      else if isIcmpError hdr.protocol icmp.kind then .ok .icmpError
      else .error .unsupportedProtocol
  | none => .error .unsupportedProtocol

namespace Napt

variable (engine : ChecksumEngine)

def externalPort (nat : Napt) (id : MappingId) : Except NatDrop UInt16 :=
  match nat.mappings.get id with
  | some mapping => .ok mapping.externalPort
  | none => .error .noMapping

def translated (nat : Napt) (id : MappingId) (internal : SocketAddr) : Except NatDrop Translated :=
  match nat.mappings.get id with
  | some mapping => .ok ⟨mapping.owner, internal.ip⟩
  | none => .error .noMapping

/-! ## Uplink -/

/-- The flow packets of the uplink: a TCP or UDP packet from its source port,
an echo from its identifier. -/
def uplinkFlow (nat : Napt) (peer : PeerId) (pkt : List UInt8) (hdr : IpHeader)
    (external : IpAddr) (proto : MapProto) (port remotePort : UInt16)
    (flags : UInt8) (now : Instant) (draw : Nat) : Except NatDrop Unit × List UInt8 × Napt :=
  match nat.mappingForUplink peer proto ⟨hdr.src, port⟩ now draw with
  | (.error refusal, nat) => (.error refusal, pkt, nat)
  | (.ok id, nat) =>
    let nat := nat.touchUplink id hdr.dst remotePort flags now
    match nat.externalPort id with
    | .error refusal => (.error refusal, pkt, nat)
    | .ok externalPort =>
      match rewriteEndpoint engine pkt hdr .source external
        (some externalPort) with
      | .error refusal => (.error (.ofPacketError refusal), pkt, nat)
      | .ok pkt => (.ok (), pkt, nat)

/-- A peer answering an error about a packet that reached it through a
mapping: the quote names the peer and is rewritten like the outer header. -/
def uplinkError (nat : Napt) (peer : PeerId) (pkt : List UInt8)
    (hdr : IpHeader) (external : IpAddr) : Except NatDrop Unit × List UInt8 :=
  match parseErrorQuote pkt hdr with
  | .error refusal => (.error (.ofPacketError refusal), pkt)
  | .ok quote =>
    match mapProto quote.inner.protocol quote.inner.isV6 with
    | none => (.error .unsupportedProtocol, pkt)
    | some proto =>
      match quote.port .destination with
      | none => (.error .malformed, pkt)
      | some port =>
        match (nat.outbound.get (proto, quote.inner.dst, port)).bind
          nat.mappings.get with
        | none => (.error .noMapping, pkt)
        | some mapping =>
          if mapping.owner ≠ peer then (.error .sourceNotOwned, pkt)
          else
            match rewriteEndpoint engine pkt hdr .source external none with
            | .error refusal => (.error (.ofPacketError refusal), pkt)
            | .ok pkt =>
              match rewriteErrorQuote engine pkt hdr quote .destination external
                (some mapping.externalPort) with
              | (.error refusal, pkt) => (.error (.ofPacketError refusal), pkt)
              | (.ok (), pkt) => (.ok (), pkt)

def uplink (nat : Napt) (peer : PeerId) (pkt : List UInt8) (now : Instant)
    (draw : Nat) : Except NatDrop Unit × List UInt8 × Napt :=
  match parseIp pkt with
  | .error refusal => (.error (.ofPacketError refusal), pkt, nat)
  | .ok hdr =>
    match nat.external hdr.isV6 with
    | none => (.error .familyUnavailable, pkt, nat)
    | some external =>
      if nat.ownership.ownerOf hdr.src ≠ some peer then
        (.error .sourceNotOwned, pkt, nat)
      else
        match readTransport pkt hdr with
        | .error refusal => (.error refusal, pkt, nat)
        | .ok (.ports proto source destination flags) =>
          nat.uplinkFlow engine peer pkt hdr external proto source destination flags now draw
        | .ok (.echo identifier) =>
          nat.uplinkFlow engine peer pkt hdr external .icmp identifier 0 0 now draw
        | .ok .icmpError =>
          let (outcome, pkt) := nat.uplinkError engine peer pkt hdr external
          (outcome, pkt, nat)

def translateUplink (nat : Napt) (peer : PeerId) (pkt : List UInt8)
    (now : Instant) (draw : Nat) : Except NatDrop Unit × List UInt8 × Napt :=
  let (outcome, pkt, nat) := nat.uplink engine peer pkt now draw
  (outcome, pkt, { nat with counters := nat.counters.countUplink outcome })

/-! ## Downlink -/

/-- The flow packets of the downlink, looked up by their destination port or
echo identifier. -/
def downlinkFlow (nat : Napt) (pkt : List UInt8) (hdr : IpHeader)
    (proto : MapProto) (port remotePort : UInt16) (flags : UInt8)
    (now : Instant) : Except NatDrop Translated × List UInt8 × Napt :=
  match nat.inbound.get (proto, hdr.isV6, port) with
  | none => (.error .noMapping, pkt, nat)
  | some id =>
    match nat.acceptDownlink id hdr.src remotePort flags now with
    | (.error refusal, nat) => (.error refusal, pkt, nat)
    | (.ok internal, nat) =>
      match rewriteEndpoint engine pkt hdr .destination internal.ip
        (some internal.port) with
      | .error refusal => (.error (.ofPacketError refusal), pkt, nat)
      | .ok pkt => (nat.translated id internal, pkt, nat)

/-- An error about a packet the gateway sent: the quote names the external
address, and the mapping it matches says which peer sent it. -/
def downlinkError (nat : Napt) (pkt : List UInt8) (hdr : IpHeader)
    (external : IpAddr) : Except NatDrop Translated × List UInt8 :=
  match parseErrorQuote pkt hdr with
  | .error refusal => (.error (.ofPacketError refusal), pkt)
  | .ok quote =>
    if quote.inner.src ≠ external then (.error .noMapping, pkt)
    else
      match mapProto quote.inner.protocol quote.inner.isV6 with
      | none => (.error .unsupportedProtocol, pkt)
      | some proto =>
        match quote.port .source with
        | none => (.error .malformed, pkt)
        | some port =>
          match nat.inbound.get (proto, hdr.isV6, port) with
          | none => (.error .noMapping, pkt)
          | some id =>
            match nat.mappings.get id with
            | none => (.error .noMapping, pkt)
            | some mapping =>
              let internal := mapping.internal
              match rewriteEndpoint engine pkt hdr .destination internal.ip
                none with
              | .error refusal => (.error (.ofPacketError refusal), pkt)
              | .ok pkt =>
                match rewriteErrorQuote engine pkt hdr quote .source internal.ip
                  (some internal.port) with
                | (.error refusal, pkt) => (.error (.ofPacketError refusal), pkt)
                | (.ok (), pkt) => (nat.translated id internal, pkt)

def downlink (nat : Napt) (pkt : List UInt8) (now : Instant) :
    Except NatDrop Translated × List UInt8 × Napt :=
  match parseIp pkt with
  | .error refusal => (.error (.ofPacketError refusal), pkt, nat)
  | .ok hdr =>
    match nat.external hdr.isV6 with
    | none => (.error .familyUnavailable, pkt, nat)
    | some external =>
      if hdr.dst ≠ external then (.error .noMapping, pkt, nat)
      else
        match readTransport pkt hdr with
        | .error refusal => (.error refusal, pkt, nat)
        | .ok (.ports proto source destination flags) =>
          nat.downlinkFlow engine pkt hdr proto destination source flags now
        | .ok (.echo identifier) => nat.downlinkFlow engine pkt hdr .icmp identifier 0 0 now
        | .ok .icmpError =>
          let (outcome, pkt) := nat.downlinkError engine pkt hdr external
          (outcome, pkt, nat)

def translateDownlink (nat : Napt) (pkt : List UInt8) (now : Instant) :
    Except NatDrop Translated × List UInt8 × Napt :=
  let (outcome, pkt, nat) := nat.downlink engine pkt now
  (outcome, pkt, { nat with counters := nat.counters.countDownlink outcome })

/-! ## Runs -/

/-- The operations of the translator, with the random draw and the visiting
order that the source does not fix. -/
inductive Op where
  | setOwnership (ownership : Ownership)
  | setExternal (rank : MappingId → Nat) (epoch : EpochId) (v4 : Ipv4Addr) (v6 : Option Ipv6Addr)
  | addStatic (dnat : StaticDnat) (now : Instant)
  | removeStatic (proto : MapProto) (externalPort : UInt16) (v6 : Bool)
  | flushPeer (rank : MappingId → Nat) (peer : PeerId)
  | sweep (now : Instant)
  | translateUplink (peer : PeerId) (pkt : List UInt8) (now : Instant) (draw : Nat)
  | translateDownlink (pkt : List UInt8) (now : Instant)

def step (nat : Napt) : Op → Napt
  | .setOwnership ownership => nat.setOwnership ownership
  | .setExternal rank epoch v4 v6 => nat.setExternal rank epoch v4 v6
  | .addStatic dnat now => (nat.addStatic dnat now).2
  | .removeStatic proto externalPort v6 => (nat.removeStatic proto externalPort v6).2
  | .flushPeer rank peer => nat.flushPeer rank peer
  | .sweep now => (nat.sweep now).2
  | .translateUplink peer pkt now draw => (nat.translateUplink engine peer pkt now draw).2.2
  | .translateDownlink pkt now => (nat.translateDownlink engine pkt now).2.2

end Napt

end WarrenSdk.Bolthole
