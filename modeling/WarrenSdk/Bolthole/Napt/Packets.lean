import WarrenSdk.Bolthole.Napt.Steps

/-! # What a packet does

The outcomes of a translation, packet by packet: refused outright, an ICMP error
that leaves the state alone, or a flow packet that reaches a mapping and leaves
its mark on it. Later results read translations through these cases only. -/

namespace WarrenSdk.Bolthole

/-- The endpoints of a TCP, UDP or echo packet below the addresses: the port on
the gateway's side, or the echo identifier, and the remote's. An echo has one
identifier, and its remote counts as port zero. -/
structure FlowPacket where
  proto : MapProto
  port : UInt16
  remotePort : UInt16
  flags : UInt8
  deriving DecidableEq

def Transport.flow (side : Side) : Transport → Option FlowPacket
  | .ports proto source destination flags =>
    match side with
    | .source => some ⟨proto, source, destination, flags⟩
    | .destination => some ⟨proto, destination, source, flags⟩
  | .echo identifier => some ⟨.icmp, identifier, 0, 0⟩
  | .icmpError => none

def readFlow (pkt : List UInt8) (side : Side) : Option (IpHeader × FlowPacket) :=
  match parseIp pkt with
  | .error _ => none
  | .ok hdr =>
    match readTransport pkt hdr with
    | .error _ => none
    | .ok transport => (transport.flow side).map fun flow => (hdr, flow)

variable {hdr : IpHeader}

theorem readFlow_eq (parsed : parseIp pkt = .ok hdr) (read : readTransport pkt hdr = .ok transport)
    (isFlow : transport.flow side = some flow) : readFlow pkt side = some (hdr, flow) := by
  simp [readFlow, parsed, read, isFlow]

theorem readFlow_some (read : readFlow pkt side = some (hdr, flow)) :
    parseIp pkt = .ok hdr ∧ ∃ transport, readTransport pkt hdr = .ok transport ∧
      transport.flow side = some flow := by
  unfold readFlow at read
  split at read
  · exact absurd read (by simp)
  · rename_i parsed
    split at read
    · exact absurd read (by simp)
    · rename_i transport transportRead
      rcases Option.map_eq_some_iff.mp read with ⟨_, isFlow, equal⟩
      cases equal
      exact ⟨parsed, transport, transportRead, isFlow⟩

/-! ## Reading a rewritten packet -/

theorem mapProto_some (known : mapProto protocol v6 = some proto) :
    (proto = .tcp ∧ protocol = protoTcp) ∨ (proto = .udp ∧ protocol = protoUdp) ∨
      (proto = .icmp ∧ isIcmp protocol) := by
  unfold mapProto at known
  split at known
  · rename_i tcp
    cases known
    exact .inl ⟨rfl, tcp⟩
  split at known
  · rename_i udp
    cases known
    exact .inr (.inl ⟨rfl, udp⟩)
  split at known
  · rename_i icmp
    cases known
    exact .inr (.inr ⟨rfl, by simp [isIcmp, icmp.2]⟩)
  split at known
  · rename_i icmp
    cases known
    exact .inr (.inr ⟨rfl, by simp [isIcmp, icmp.2]⟩)
  · cases known

def Side.withPort (port : UInt16) (ports : UInt16 × UInt16) : Side → UInt16 × UInt16
  | .source => (port, ports.2)
  | .destination => (ports.1, port)

def Transport.withPort (side : Side) (port : UInt16) : Transport → Transport
  | .ports proto source destination flags =>
    let ports := side.withPort port (source, destination)
    .ports proto ports.1 ports.2 flags
  | .echo _ => .echo port
  | .icmpError => .icmpError

theorem Transport.flow_withPort {transport : Transport} {flow : FlowPacket}
    (isFlow : transport.flow side = some flow) :
    (transport.withPort side port).flow side = some { flow with port } := by
  cases transport with
  | ports proto source destination flags =>
    cases side with
    | source | destination =>
      cases isFlow
      rfl
  | echo identifier =>
    cases isFlow
    rfl
  | icmpError => cases isFlow

theorem IpHeader.isV6_withAddress (side : Side) (family : addr.isIpv6 = hdr.isV6) :
    (hdr.withAddress side addr).isV6 = hdr.isV6 := by
  cases side with
  | source => exact family
  | destination => rfl

theorem endpointOffset_icmp (icmp : isIcmp protocol) (l4 : Nat) (side : Side) :
    endpointOffset protocol l4 side = l4 + 4 := by
  simp [endpointOffset, icmp]

theorem endpointOffset_plain (plain : isIcmp protocol = false) (l4 : Nat) (side : Side) :
    endpointOffset protocol l4 side + 2 ≤ l4 + 4 := by
  cases side <;> simp [endpointOffset, plain]

section Rewritten

variable {port : UInt16}

variable (rewritten : Rewritten pkt hdr side addr (some port) out)

include rewritten

/-- A rewritten TCP or UDP packet has the new port on its side and the old one
on the other. -/
theorem Rewritten.readPorts_eq (bounds : hdr.Bounds pkt) (plain : isIcmp hdr.protocol = false)
    (checksum : hdr.l4Offset + 4 ≤ checksumOffset hdr)
    (read : readPorts pkt hdr.l4Offset = .ok ports) :
    readPorts out hdr.l4Offset = .ok (side.withPort port ports) := by
  have written := rewritten.port port rfl
  have kept : ∀ offset, hdr.l4Offset ≤ offset → offset + 2 ≤ hdr.l4Offset + 4 →
      (offset + 2 ≤ endpointOffset hdr.protocol hdr.l4Offset side ∨
        endpointOffset hdr.protocol hdr.l4Offset side + 2 ≤ offset) →
      u16At out offset = u16At pkt offset := by
    intro offset behind within apart
    apply u16At_congr <;>
      exact rewritten.transport_byte bounds (by omega) (by omega) (by omega)
  unfold readPorts at read ⊢
  rw [rewritten.edits.length]
  split at read
  · rename_i long
    rw [if_pos long]
    cases read
    cases side with
    | source =>
      have place : endpointOffset hdr.protocol hdr.l4Offset .source =
        hdr.l4Offset := by simp [endpointOffset, plain]
      rw [place] at written kept
      rw [written, kept (hdr.l4Offset + 2) (by omega) (by omega) (by omega)]
      rfl
    | destination =>
      have place : endpointOffset hdr.protocol hdr.l4Offset .destination =
        hdr.l4Offset + 2 := by simp [endpointOffset, plain]
      rw [place] at written kept
      rw [written, kept hdr.l4Offset (by omega) (by omega) (by omega)]
      rfl
  · cases read

/-- A rewritten ICMP message keeps its type and code, and carries the new
identifier if it carried one. -/
theorem Rewritten.readIcmp_eq {head : IcmpHeader} (bounds : hdr.Bounds pkt)
    (icmp : isIcmp hdr.protocol) (checksum : checksumOffset hdr = hdr.l4Offset + 2)
    (read : readIcmp pkt hdr.l4Offset = .ok head) : readIcmp out hdr.l4Offset =
      .ok { head with echoId := head.echoId.map fun _ => port } := by
  have place := endpointOffset_icmp icmp hdr.l4Offset side
  have written := rewritten.port port rfl
  have kind : byteAt out hdr.l4Offset = byteAt pkt hdr.l4Offset :=
    byteAt_congr (rewritten.transport_byte bounds (by omega) (by omega) (by omega))
  have code : byteAt out (hdr.l4Offset + 1) = byteAt pkt (hdr.l4Offset + 1) :=
    byteAt_congr (rewritten.transport_byte bounds (by omega) (by omega) (by omega))
  rw [place] at written
  unfold readIcmp at read ⊢
  simp only [rewritten.edits.length, kind, code, written]
  split at read
  · rename_i long
    rw [if_pos long]
    cases read
    simp only
    split
    · rfl
    · rfl
  · cases read

theorem Rewritten.readTransport_eq {transport : Transport}
    (bounds : hdr.Bounds pkt) (read : readTransport pkt hdr = .ok transport)
    (isFlow : transport.flow side = some flow) :
    readTransport out (hdr.withAddress side addr) = .ok (transport.withPort side port) := by
  have sameFamily := IpHeader.isV6_withAddress side rewritten.family
  have sameProtocol : (hdr.withAddress side addr).protocol = hdr.protocol := by cases side <;> rfl
  have sameOffset : (hdr.withAddress side addr).l4Offset = hdr.l4Offset := by cases side <;> rfl
  unfold readTransport at read ⊢
  rw [sameFamily, sameProtocol, sameOffset]
  cases known : mapProto hdr.protocol hdr.isV6 with
  | none =>
    rw [known] at read
    cases read
  | some proto =>
    rw [known] at read
    rcases mapProto_some known with ⟨rfl, isTcp⟩ | ⟨rfl, isUdp⟩ | ⟨rfl, icmp⟩
    · have checksum : checksumOffset hdr = hdr.l4Offset + 16 := by
        simp [checksumOffset, l4Checksum, isTcp]
      have plain : isIcmp hdr.protocol = false := by
        rw [isTcp]
        decide
      have place := endpointOffset_plain plain hdr.l4Offset side
      have flagsNow : tcpFlags out hdr.l4Offset = tcpFlags pkt hdr.l4Offset := by
        rw [tcpFlags, tcpFlags, rewritten.transport_byte bounds (by omega) (by omega) (by omega)]
      dsimp only at read ⊢
      split at read
      · cases read
      · cases read
      · rename_i ports flagsRead
        cases read
        rw [rewritten.readPorts_eq bounds plain (by omega) ports, flagsNow, flagsRead]
        rfl
    · have checksum : checksumOffset hdr = hdr.l4Offset + 6 := by
        simp [checksumOffset, l4Checksum, isUdp, protoUdp, protoTcp]
      have plain : isIcmp hdr.protocol = false := by
        rw [isUdp]
        decide
      dsimp only at read ⊢
      split at read
      · cases read
      · rename_i ports
        cases read
        rw [rewritten.readPorts_eq bounds plain (by omega) ports]
        rfl
    · have checksum : checksumOffset hdr = hdr.l4Offset + 2 := by
        simp only [isIcmp, Bool.or_eq_true, decide_eq_true_eq] at icmp
        rcases icmp with icmp | icmp <;>
          simp [checksumOffset, l4Checksum, icmp, protoIcmpv4, protoIcmpv6, protoTcp, protoUdp]
      dsimp only at read ⊢
      split at read
      · cases read
      · rename_i head headRead
        rw [rewritten.readIcmp_eq bounds icmp checksum headRead]
        dsimp only
        split at read
        · rename_i echo
          rw [if_pos echo]
          split at read
          · rename_i identifier carried
            cases read
            rw [carried]
            rfl
          · cases read
        · split at read
          · cases read
            cases isFlow
          · cases read

/-- A rewritten flow packet is read with its new endpoint. -/
theorem Rewritten.flow_eq (read : readFlow pkt side = some (hdr, flow)) :
    readFlow out side = some (hdr.withAddress side addr, { flow with port }) := by
  rcases readFlow_some read with ⟨parsed, transport, transportRead, isFlow⟩
  exact readFlow_eq (rewritten.parse_eq parsed)
    (rewritten.readTransport_eq (parse_bounds parsed) transportRead isFlow)
    (Transport.flow_withPort isFlow)

end Rewritten

namespace Napt

variable (engine : ChecksumEngine) {nat : Napt}

/-! ## Uplink -/

inductive UplinkCase (nat : Napt) (peer : PeerId) (pkt : List UInt8) (now : Instant) (draw : Nat) :
    Except NatDrop Unit × List UInt8 × Napt → Prop where
  | refused {refusal : NatDrop} : UplinkCase nat peer pkt now draw (.error refusal, pkt, nat)
  | flow {hdr : IpHeader} {flow : FlowPacket} {external : IpAddr}
      (read : readFlow pkt .source = some (hdr, flow))
      (current : nat.external hdr.isV6 = some external)
      (owner : nat.ownership.ownerOf hdr.src = some peer) : UplinkCase nat peer pkt now draw
        (nat.uplinkFlow engine peer pkt hdr external flow.proto flow.port
          flow.remotePort flow.flags now draw)
  | icmpError {hdr : IpHeader} {external : IpAddr} (parsed : parseIp pkt = .ok hdr)
      (read : readTransport pkt hdr = .ok .icmpError)
      (current : nat.external hdr.isV6 = some external)
      (owner : nat.ownership.ownerOf hdr.src = some peer) : UplinkCase nat peer pkt now draw
        ((nat.uplinkError engine peer pkt hdr external).1,
          (nat.uplinkError engine peer pkt hdr external).2, nat)

theorem uplink_case (nat : Napt) (peer : PeerId) (pkt : List UInt8) (now : Instant) (draw : Nat) :
    UplinkCase engine nat peer pkt now draw (nat.uplink engine peer pkt now draw) := by
  unfold uplink
  split
  · exact .refused
  · rename_i hdr parsed
    split
    · exact .refused
    · rename_i external current
      split
      · exact .refused
      · rename_i owner
        rw [ne_eq, not_not] at owner
        split
        · exact .refused
        · rename_i read
          exact .flow (readFlow_eq parsed read rfl) current owner
        · rename_i read
          exact .flow (readFlow_eq parsed read rfl) current owner
        · rename_i read
          exact .icmpError parsed read current owner

/-- What a flow packet of the uplink does once it has a mapping: the mapping is
touched, and the packet leaves from its external port unless it cannot be
rewritten. -/
inductive UplinkFlowCase (nat : Napt) (peer : PeerId) (pkt : List UInt8)
    (hdr : IpHeader) (external : IpAddr) (flow : FlowPacket) (now : Instant) :
    Except NatDrop Unit × List UInt8 × Napt → Prop where
  | refused {refusal : NatDrop} {after : Napt}
      (mapped : UplinkMapping nat peer flow.proto ⟨hdr.src, flow.port⟩ now (.error refusal) after) :
      UplinkFlowCase nat peer pkt hdr external flow now (.error refusal, pkt, after)
  | unwritable {id : MappingId} {mapping : Mapping} {after : Napt}
      {refusal : PacketError}
      (mapped : UplinkMapping nat peer flow.proto ⟨hdr.src, flow.port⟩ now (.ok id) after)
      (found : after.mappings.get id = some mapping)
      (failed : rewriteEndpoint engine pkt hdr .source external
        (some mapping.externalPort) = .error refusal) :
      UplinkFlowCase nat peer pkt hdr external flow now (.error (.ofPacketError refusal), pkt,
          after.touchUplink id hdr.dst flow.remotePort flow.flags now)
  | sent {id : MappingId} {mapping : Mapping} {after : Napt}
      {out : List UInt8}
      (mapped : UplinkMapping nat peer flow.proto ⟨hdr.src, flow.port⟩ now (.ok id) after)
      (found : after.mappings.get id = some mapping)
      (rewritten : rewriteEndpoint engine pkt hdr .source external
        (some mapping.externalPort) = .ok out) :
      UplinkFlowCase nat peer pkt hdr external flow now (.ok (), out,
          after.touchUplink id hdr.dst flow.remotePort flow.flags now)

variable {id : MappingId}

theorem externalPort_touchUplink (found : nat.mappings.get id = some mapping)
    (remote : IpAddr) (port : UInt16) (flags : UInt8) (now : Instant) :
    (nat.touchUplink id remote port flags now).externalPort id = .ok mapping.externalPort := by
  have same := mapping.observe_sameIdentity nat.config.remotesPerMapping remote port flags now true
  have recorded := record_recorded (table_of_get found)
    (mapping.observe nat.config.remotesPerMapping remote port flags now true) now
  have present := recorded.table id
  rw [if_pos rfl] at present
  rcases get_of_table present with ⟨stored, storedFound, equal⟩
  have samePort : stored.externalPort = mapping.externalPort :=
    (congrArg Mapping.externalPort equal).trans same.externalPort
  simp only [touchUplink, found, externalPort, storedFound, samePort]

theorem uplinkFlow_case (coherent : nat.Coherent) (peer : PeerId)
    (pkt : List UInt8) (hdr : IpHeader) (external : IpAddr) (flow : FlowPacket)
    (now : Instant) (draw : Nat) : UplinkFlowCase engine nat peer pkt hdr external flow now
      (nat.uplinkFlow engine peer pkt hdr external flow.proto flow.port
        flow.remotePort flow.flags now draw) := by
  rcases mappingForUplink_cases coherent peer flow.proto ⟨hdr.src, flow.port⟩
    now draw with ⟨outcome, after, equal, mapped⟩
  unfold uplinkFlow
  rw [equal]
  cases outcome with
  | error refusal => exact .refused mapped
  | ok id =>
    rcases mapped.owned coherent with ⟨mapping, found, _⟩
    simp only [externalPort_touchUplink found]
    split
    · rename_i failed
      exact .unwritable mapped found failed
    · rename_i rewritten
      exact .sent mapped found rewritten

/-- What an accepted flow packet of the uplink did: it got a mapping, marked it,
and left from the mapping's port and the current address. -/
theorem translateUplink_sent (coherent : nat.Coherent)
    (read : readFlow pkt .source = some (hdr, flow))
    (accepted : (nat.translateUplink engine peer pkt now draw).1 = .ok ()) :
    ∃ id mapping after external,
      UplinkMapping nat peer flow.proto ⟨hdr.src, flow.port⟩ now (.ok id) after ∧
      after.mappings.get id = some mapping ∧ nat.external hdr.isV6 = some external ∧
      rewriteEndpoint engine pkt hdr .source external
        (some mapping.externalPort) = .ok (nat.translateUplink engine peer pkt now draw).2.1 ∧
      (nat.translateUplink engine peer pkt now draw).2.2.table =
        (after.touchUplink id hdr.dst flow.remotePort flow.flags now).table := by
  have outcome := uplink_case engine nat peer pkt now draw
  unfold translateUplink at accepted ⊢
  generalize nat.uplink engine peer pkt now draw = whole at outcome accepted ⊢
  cases outcome with
  | refused => cases accepted
  | icmpError parsed isError =>
    rcases readFlow_some read with ⟨same, transport, readAgain, isFlow⟩
    cases parsed.symm.trans same
    cases isError.symm.trans readAgain
    cases isFlow
  | flow again current owner =>
    rename_i external
    cases again.symm.trans read
    have outcome := uplinkFlow_case engine coherent peer pkt hdr external flow now draw
    generalize nat.uplinkFlow engine peer pkt hdr external flow.proto
      flow.port flow.remotePort flow.flags now draw = whole at outcome accepted ⊢
    cases outcome with
    | refused | unwritable => cases accepted
    | sent mapped found rewritten =>
      exact ⟨_, _, _, external, mapped, found, current, rewritten, rfl⟩

/-- An accepted ICMP error of the uplink leaves from the external address, and
its quote names that address too. -/
theorem uplinkError_address {external : IpAddr} (parsed : parseIp pkt = .ok hdr)
    (accepted : (nat.uplinkError engine peer pkt hdr external).1 = .ok ()) :
    parseIp (nat.uplinkError engine peer pkt hdr external).2 =
      .ok (hdr.withAddress .source external) ∧
    ∀ quote, parseErrorQuote pkt hdr = .ok quote →
      Bytes.slice (nat.uplinkError engine peer pkt hdr external).2
        (quote.innerOffset + addressOffset quote.inner.isV6 .destination)
        (IpAddr.width quote.inner.isV6) = external.octets := by
  unfold uplinkError at accepted ⊢
  split at accepted
  · cases accepted
  rename_i quote quoted
  split at accepted
  · cases accepted
  rename_i proto isProto
  split at accepted
  · cases accepted
  rename_i port hasPort
  split at accepted
  · cases accepted
  rename_i mapping found
  split at accepted
  · cases accepted
  rename_i owned
  split at accepted
  · cases accepted
  rename_i middle rewritten
  have bounds := parseErrorQuote_bounds quoted
  have outer := (rewriteEndpoint_ok (parse_bounds parsed) rewritten).parse_eq parsed
  have edits : Bytes.EditedWithin [(hdr.l4Offset, hdr.totalLen - hdr.l4Offset)] middle
      (rewriteErrorQuote engine middle hdr quote .destination external
        (some mapping.externalPort)).2 := rewriteErrorQuote_edits bounds
  have written : (rewriteErrorQuote engine middle hdr quote .destination
      external (some mapping.externalPort)).1 = .ok () → _ :=
    rewriteErrorQuote_address bounds
  simp only [quoted, if_neg owned]
  generalize rewriteErrorQuote engine middle hdr quote .destination external
    (some mapping.externalPort) = result at accepted edits written ⊢
  rcases result with ⟨outcome, out⟩
  cases outcome with
  | error refusal => cases accepted
  | ok _ =>
    refine ⟨parseIp_of_transport_edits outer edits, ?_⟩
    intro other same
    cases same
    exact written rfl

/-- An accepted packet of the uplink leaves from the current external
address. -/
theorem translateUplink_address (coherent : nat.Coherent) {draw : Nat}
    (accepted : (nat.translateUplink engine peer pkt now draw).1 = .ok ()) :
    ∃ hdr external, parseIp pkt = .ok hdr ∧ nat.external hdr.isV6 = some external ∧
      parseIp (nat.translateUplink engine peer pkt now draw).2.1 =
        .ok (hdr.withAddress .source external) ∧
      ∀ quote, readTransport pkt hdr = .ok .icmpError → parseErrorQuote pkt hdr = .ok quote →
        Bytes.slice (nat.translateUplink engine peer pkt now draw).2.1
          (quote.innerOffset + addressOffset quote.inner.isV6 .destination)
          (IpAddr.width quote.inner.isV6) = external.octets := by
  cases read : readFlow pkt .source with
  | some flow =>
    rcases translateUplink_sent engine coherent read accepted with
      ⟨_, _, _, external, _, _, current, rewritten, _⟩
    rcases readFlow_some read with ⟨parsed, transport, isTransport, isFlow⟩
    refine ⟨flow.1, external, parsed, current, (rewriteEndpoint_ok
      (parse_bounds parsed) rewritten).parse_eq parsed, ?_⟩
    intro quote isError
    cases isTransport.symm.trans isError
    exact absurd isFlow (by simp [Transport.flow])
  | none =>
    have outcome := uplink_case engine nat peer pkt now draw
    unfold translateUplink at accepted ⊢
    generalize nat.uplink engine peer pkt now draw = whole at outcome accepted ⊢
    cases outcome with
    | refused => cases accepted
    | icmpError parsed isError current owner =>
      rcases uplinkError_address engine parsed accepted with ⟨outer, quotes⟩
      exact ⟨_, _, parsed, current, outer, fun quote _ => quotes quote⟩
    | flow again => cases again.symm.trans read

/-! ## Downlink -/

inductive DownlinkCase (nat : Napt) (pkt : List UInt8) (now : Instant) :
    Except NatDrop Translated × List UInt8 × Napt → Prop where
  | refused {refusal : NatDrop} : DownlinkCase nat pkt now (.error refusal, pkt, nat)
  | flow {hdr : IpHeader} {flow : FlowPacket} (read : readFlow pkt .destination = some (hdr, flow))
      (current : nat.external hdr.isV6 = some hdr.dst) : DownlinkCase nat pkt now
        (nat.downlinkFlow engine pkt hdr flow.proto flow.port flow.remotePort flow.flags now)
  | icmpError {hdr : IpHeader} (parsed : parseIp pkt = .ok hdr)
      (read : readTransport pkt hdr = .ok .icmpError)
      (current : nat.external hdr.isV6 = some hdr.dst) : DownlinkCase nat pkt now
        ((nat.downlinkError engine pkt hdr hdr.dst).1,
          (nat.downlinkError engine pkt hdr hdr.dst).2, nat)

theorem downlink_case (nat : Napt) (pkt : List UInt8) (now : Instant) :
    DownlinkCase engine nat pkt now (nat.downlink engine pkt now) := by
  unfold downlink
  split
  · exact .refused
  · rename_i hdr parsed
    split
    · exact .refused
    · rename_i external current
      split
      · exact .refused
      · rename_i address
        rw [ne_eq, not_not] at address
        subst external
        split
        · exact .refused
        · rename_i read
          exact .flow (readFlow_eq parsed read rfl) current
        · rename_i read
          exact .flow (readFlow_eq parsed read rfl) current
        · rename_i read
          exact .icmpError parsed read current

/-- What a flow packet of the downlink does: refused unless its mapping tracks
the remote or is pinned; otherwise recorded, and delivered if it can be
rewritten. -/
inductive DownlinkFlowCase (nat : Napt) (pkt : List UInt8) (hdr : IpHeader)
    (flow : FlowPacket) (now : Instant) : Except NatDrop Translated × List UInt8 × Napt → Prop where
  | refused {refusal : NatDrop} : DownlinkFlowCase nat pkt hdr flow now (.error refusal, pkt, nat)
  | unwritable {id : MappingId} {mapping : Mapping} {refusal : PacketError}
      (found : nat.inbound.get (flow.proto, hdr.isV6, flow.port) = some id)
      (present : nat.mappings.get id = some mapping)
      (admitted : (mapping.remoteIndex hdr.src flow.remotePort).isSome ∨ mapping.pinned = true) :
      DownlinkFlowCase nat pkt hdr flow now (.error (.ofPacketError refusal), pkt,
          nat.record id (mapping.observe nat.config.remotesPerMapping hdr.src
            flow.remotePort flow.flags now false) now)
  | delivered {id : MappingId} {mapping : Mapping} {out : List UInt8}
      (found : nat.inbound.get (flow.proto, hdr.isV6, flow.port) = some id)
      (present : nat.mappings.get id = some mapping)
      (admitted : (mapping.remoteIndex hdr.src flow.remotePort).isSome ∨ mapping.pinned = true)
      (rewritten : rewriteEndpoint engine pkt hdr .destination
        mapping.internal.ip (some mapping.internal.port) = .ok out) :
      DownlinkFlowCase nat pkt hdr flow now (.ok ⟨mapping.owner, mapping.internal.ip⟩, out,
          nat.record id (mapping.observe nat.config.remotesPerMapping hdr.src
            flow.remotePort flow.flags now false) now)

theorem translated_record (present : nat.mappings.get id = some mapping)
    (cap : Nat) (remote : IpAddr) (port : UInt16) (flags : UInt8)
    (now : Instant) (uplink : Bool) (internal : SocketAddr) :
    (nat.record id (mapping.observe cap remote port flags now uplink)
      now).translated id internal = .ok ⟨mapping.owner, internal.ip⟩ := by
  have same := mapping.observe_sameIdentity cap remote port flags now uplink
  have recorded := record_recorded (table_of_get present)
    (mapping.observe cap remote port flags now uplink) now
  have stored := recorded.table id
  rw [if_pos rfl] at stored
  rcases get_of_table stored with ⟨kept, keptFound, equal⟩
  have sameOwner : kept.owner = mapping.owner := (congrArg Mapping.owner equal).trans same.owner
  simp only [translated, keptFound, sameOwner]

theorem downlinkFlow_case (nat : Napt) (pkt : List UInt8) (hdr : IpHeader)
    (flow : FlowPacket) (now : Instant) : DownlinkFlowCase engine nat pkt hdr flow now
      (nat.downlinkFlow engine pkt hdr flow.proto flow.port flow.remotePort flow.flags now) := by
  unfold downlinkFlow
  split
  · exact .refused
  · rename_i id found
    unfold acceptDownlink
    cases present : nat.mappings.get id with
    | none => exact .refused
    | some mapping =>
      cases unknown : (mapping.remoteIndex hdr.src flow.remotePort).isNone && !mapping.pinned with
      | true =>
        simp only [unknown, if_true]
        exact .refused
      | false =>
        have admitted : (mapping.remoteIndex hdr.src
            flow.remotePort).isSome ∨ mapping.pinned = true := by
          cases tracked : mapping.remoteIndex hdr.src flow.remotePort with
          | none => exact .inr (by simpa [tracked] using unknown)
          | some position => exact .inl rfl
        simp only [unknown, Bool.false_eq_true, if_false]
        split
        · exact .unwritable found present admitted
        · rename_i rewritten
          rw [translated_record present]
          exact .delivered found present admitted rewritten

/-- What an accepted flow packet of the downlink says about the state: its
destination is the current address, its port leads to a mapping that lets the
remote in, and it leaves for the mapping's endpoint. -/
theorem translateDownlink_delivered (read : readFlow pkt .destination = some (hdr, flow))
    (accepted : (nat.translateDownlink engine pkt now).1 = .ok result) :
    ∃ id mapping, nat.external hdr.isV6 = some hdr.dst ∧
      nat.inbound.get (flow.proto, hdr.isV6, flow.port) = some id ∧
      nat.mappings.get id = some mapping ∧
      ((mapping.remoteIndex hdr.src flow.remotePort).isSome ∨ mapping.pinned) ∧
      result = ⟨mapping.owner, mapping.internal.ip⟩ ∧
      rewriteEndpoint engine pkt hdr .destination mapping.internal.ip
        (some mapping.internal.port) = .ok (nat.translateDownlink engine pkt now).2.1 := by
  have outcome := downlink_case engine nat pkt now
  unfold translateDownlink at accepted ⊢
  generalize nat.downlink engine pkt now = whole at outcome accepted ⊢
  cases outcome with
  | refused => simp at accepted
  | icmpError parsed isError =>
    rcases readFlow_some read with ⟨same, transport, readAgain, isFlow⟩
    cases parsed.symm.trans same
    cases isError.symm.trans readAgain
    exact absurd isFlow (by simp [Transport.flow])
  | flow again current =>
    cases again.symm.trans read
    have outcome := downlinkFlow_case engine nat pkt hdr flow now
    generalize nat.downlinkFlow engine pkt hdr flow.proto flow.port
      flow.remotePort flow.flags now = whole at outcome accepted ⊢
    cases outcome with
    | refused | unwritable => simp at accepted
    | delivered found present admitted rewritten =>
      exact ⟨_, _, current, found, present, admitted, (Except.ok.inj accepted).symm, rewritten⟩

/-- A flow packet of the downlink is delivered when its port leads to a mapping
that lets the remote in and it can be rewritten. -/
theorem translateDownlink_accepts (read : readFlow pkt .destination = some (hdr, flow))
    (current : nat.external hdr.isV6 = some hdr.dst)
    (found : nat.inbound.get (flow.proto, hdr.isV6, flow.port) = some id)
    (present : nat.mappings.get id = some mapping)
    (admitted : (mapping.remoteIndex hdr.src flow.remotePort).isSome ∨
      mapping.pinned) (rewritten : rewriteEndpoint engine pkt hdr .destination
      mapping.internal.ip (some mapping.internal.port) = .ok out) :
    (nat.translateDownlink engine pkt now).1 = .ok ⟨mapping.owner, mapping.internal.ip⟩ ∧
      (nat.translateDownlink engine pkt now).2.1 = out := by
  rcases readFlow_some read with ⟨parsed, transport, transportRead, isFlow⟩
  have flowed : nat.downlink engine pkt now = nat.downlinkFlow engine pkt hdr
      flow.proto flow.port flow.remotePort flow.flags now := by
    simp only [downlink, parsed, current, ne_eq, not_true_eq_false, if_false, transportRead]
    cases transport with
    | ports | echo => cases isFlow; rfl
    | icmpError => cases isFlow
  have passes : ((mapping.remoteIndex hdr.src flow.remotePort).isNone &&
      !mapping.pinned) = false := by
    rcases admitted with tracked | pinned
    · rw [Option.isNone_eq_false_iff.mpr tracked, Bool.false_and]
    · rw [pinned, Bool.not_true, Bool.and_false]
  have accepted : nat.downlinkFlow engine pkt hdr flow.proto flow.port
      flow.remotePort flow.flags now = (.ok ⟨mapping.owner, mapping.internal.ip⟩, out,
        nat.record id (mapping.observe nat.config.remotesPerMapping hdr.src
          flow.remotePort flow.flags now false) now) := by
    simp only [downlinkFlow, found, acceptDownlink, present, passes,
      Bool.false_eq_true, if_false, rewritten, translated_record present]
  simp only [translateDownlink, flowed, accepted, and_self]

/-- An accepted ICMP error of the downlink is about a packet that left from the
external address. -/
theorem downlinkError_address {external : IpAddr}
    (accepted : (nat.downlinkError engine pkt hdr external).1 = .ok result) :
    ∀ quote, parseErrorQuote pkt hdr = .ok quote → quote.inner.src = external := by
  intro quote quoted
  unfold downlinkError at accepted
  rw [quoted] at accepted
  dsimp only at accepted
  split at accepted
  · cases accepted
  · rename_i same
    exact Decidable.not_not.mp same

/-- An accepted packet of the downlink came to the current external address. -/
theorem translateDownlink_address
    (accepted : (nat.translateDownlink engine pkt now).1 = .ok result) :
    ∃ hdr, parseIp pkt = .ok hdr ∧ nat.external hdr.isV6 = some hdr.dst ∧
      ∀ quote, readTransport pkt hdr = .ok .icmpError →
        parseErrorQuote pkt hdr = .ok quote → quote.inner.src = hdr.dst := by
  have outcome := downlink_case engine nat pkt now
  unfold translateDownlink at accepted
  generalize nat.downlink engine pkt now = whole at outcome accepted
  cases outcome with
  | refused => cases accepted
  | icmpError parsed read current =>
    exact ⟨_, parsed, current, fun quote _ =>
      downlinkError_address engine accepted quote⟩
  | flow read current =>
    rcases readFlow_some read with ⟨parsed, transport, isTransport, isFlow⟩
    refine ⟨_, parsed, current, ?_⟩
    intro quote isError
    cases isTransport.symm.trans isError
    exact absurd isFlow (by simp [Transport.flow])

end Napt

end WarrenSdk.Bolthole
