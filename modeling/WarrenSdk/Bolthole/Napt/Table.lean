import WarrenSdk.Bolthole.Napt.State

/-! # Operations on the table

How mappings are linked, inserted, removed, touched and expired. A step that
the source makes with a random draw or over a hash map takes the draw, or the
rank that orders the visit, as an argument. -/

namespace WarrenSdk.Bolthole

/-! ## Flows -/

/-- Move one flow on what a packet carries, and report whether it just
closed. -/
def advance (flow : RemoteFlow) (proto : MapProto) (flags : UInt8)
    (uplink : Bool) : RemoteFlow × Bool :=
  let wasOpen : Bool := flow.state ≠ .tcpClosed
  match proto with
  | .udp =>
    let flow := if uplink then flow else { flow with state := .udpAnswered }
    (flow, wasOpen && flow.state = .tcpClosed)
  | .icmp =>
    let flow := { flow with state := .icmp }
    (flow, wasOpen && flow.state = .tcpClosed)
  | .tcp =>
    if flags &&& tcpRst ≠ 0 then ({ flow with state := .tcpClosed }, wasOpen)
    else
      let flow :=
        if flags &&& tcpSyn ≠ 0 ∧ flags &&& tcpAck ≠ 0 ∧ uplink = false then
          { flow with state := .tcpEstablished }
        else if flags &&& tcpSyn ≠ 0 ∧ flags &&& tcpAck = 0 ∧ uplink = true then
          { flow with state := .tcpSyn, finUp := false, finDown := false }
        else flow
      let flow :=
        if flags &&& tcpFin ≠ 0 then
          if uplink then { flow with finUp := true }
          else { flow with finDown := true }
        else flow
      let flow :=
        if flow.finUp ∧ flow.finDown then { flow with state := .tcpClosed }
        else flow
      (flow, wasOpen && flow.state = .tcpClosed)

def oldestRemote (remotes : List RemoteFlow) : Option Nat :=
  (remotes.map RemoteFlow.lastSeen).min?.bind fun oldest =>
    remotes.findIdx? fun flow => flow.lastSeen = oldest

def newFlow (proto : MapProto) (addr : IpAddr) (port : UInt16) (now : Instant) : RemoteFlow where
  addr := addr
  port := port
  state :=
    match proto with
    | .tcp => .tcpSyn
    | .udp => .udpOneWay
    | .icmp => .icmp
  finUp := false
  finDown := false
  lastSeen := now

namespace Mapping

def forgetOldest (mapping : Mapping) (cap : Nat) : List RemoteFlow :=
  if cap ≤ mapping.remotes.length then
    match oldestRemote mapping.remotes with
    | some position => swapRemove mapping.remotes position
    | none => mapping.remotes
  else mapping.remotes

def observe (mapping : Mapping) (cap : Nat) (addr : IpAddr) (port : UInt16)
    (flags : UInt8) (now : Instant) (uplink : Bool) : Mapping × Bool :=
  match mapping.remoteIndex addr port with
  | some position =>
    match mapping.remotes[position]? with
    | some flow =>
      let (flow, closed) := advance { flow with lastSeen := now } mapping.proto flags uplink
      ({ mapping with
          remotes := mapping.remotes.set position flow
          lastSeen := now }, closed)
    | none => ({ mapping with lastSeen := now }, false)
  | none =>
    let (flow, closed) := advance (newFlow mapping.proto addr port now) mapping.proto flags uplink
    ({ mapping with
        remotes := mapping.forgetOldest cap ++ [flow]
        lastSeen := now }, closed)

end Mapping

namespace NatConfig

def initial (config : NatConfig) : MapProto → Duration
  | .tcp => config.tcpSyn
  | .udp => config.udpInitial
  | .icmp => config.icmp

def timeout (config : NatConfig) : FlowState → Duration
  | .udpOneWay => config.udpInitial
  | .udpAnswered => config.udpEstablished
  | .tcpSyn => config.tcpSyn
  | .tcpEstablished => config.tcpEstablished
  | .tcpClosed => config.tcpClosing
  | .icmp => config.icmp

def cap (config : NatConfig) (proto : MapProto) : Nat :=
  if proto = .icmp then config.perPeerIdentifiers else config.perPeerMappings

end NatConfig

namespace Napt

/-! ## The recency lists -/

def clearLinks (nat : Napt) (id : MappingId) : Napt :=
  nat.modifyMapping id fun mapping =>
    { mapping with older := none, newer := none }

def setOlder (nat : Napt) (id : MappingId) (older : Option MappingId) : Napt :=
  nat.modifyMapping id fun mapping => { mapping with older }

def setNewer (nat : Napt) (id : MappingId) (newer : Option MappingId) : Napt :=
  nat.modifyMapping id fun mapping => { mapping with newer }

def setEnds (nat : Napt) (key : PeerId × MapProto) (ends : MappingId × MappingId) : Napt :=
  { nat with recency := nat.recency.insert key ends }

/-- The second half of `unlink`: the newer side of the gap. -/
def unlinkNewer (nat : Napt) (key : PeerId × MapProto) (older newer : Option MappingId) : Napt :=
  match newer with
  | some newer => nat.setOlder newer older
  | none =>
    match nat.recency.get key, older with
    | some (oldest, _), some older => nat.setEnds key (oldest, older)
    | _, _ => nat

def unlink (nat : Napt) (id : MappingId) : Napt :=
  match nat.mappings.get id with
  | none => nat
  | some mapping =>
    if mapping.pinned then nat
    else
      let key := mapping.recencyKey
      let nat := nat.clearLinks id
      match mapping.older with
      | some older => (nat.setNewer older mapping.newer).unlinkNewer key (some older) mapping.newer
      | none =>
        match nat.recency.get key, mapping.newer with
        | some (_, newest), some newer =>
          (nat.setEnds key (newer, newest)).unlinkNewer key none (some newer)
        | some _, none => { nat with recency := nat.recency.remove key }
        | none, newer => nat.unlinkNewer key none newer

def linkNewest (nat : Napt) (id : MappingId) : Napt :=
  match nat.mappings.get id with
  | none => nat
  | some mapping =>
    if mapping.pinned then nat
    else
      let key := mapping.recencyKey
      match nat.recency.get key with
      | some (oldest, previous) =>
        (((nat.setEnds key (oldest, id)).setNewer previous (some id)).setOlder
          id (some previous)).setNewer id none
      | none => (nat.setEnds key (id, id)).clearLinks id

def touchRecency (nat : Napt) (id : MappingId) : Napt :=
  match nat.mappings.get id with
  | none => nat
  | some mapping =>
    if mapping.pinned || mapping.newer.isNone then nat
    else (nat.unlink id).linkNewest id

def oldestOf (nat : Napt) (peer : PeerId) (proto : MapProto) : Option MappingId :=
  (nat.recency.get (peer, proto)).map Prod.fst

/-! ## Inserting and removing -/

def insertMapping (nat : Napt) (mapping : Mapping) : MappingId × Napt :=
  let id : MappingId := ⟨nat.nextId⟩
  (id, { nat with
    nextId := nat.nextId + 1
    outbound := nat.outbound.insert mapping.outboundKey id
    inbound := nat.inbound.insert mapping.inboundKey id
    mappings := nat.mappings.insert id mapping })

def giveBack (nat : Napt) (mapping : Mapping) : Napt :=
  let v6 := mapping.internal.isIpv6
  { nat.setAllocator mapping.proto v6
      ((nat.ports v6 mapping.proto).release mapping.externalPort) with
    peerCounts := nat.peerCounts.modify mapping.recencyKey fun count => count - 1 }

def removeMapping (nat : Napt) (id : MappingId) : Napt :=
  let nat := nat.unlink id
  match nat.mappings.get id with
  | none => nat
  | some mapping =>
    let nat := { nat with
      mappings := nat.mappings.remove id
      outbound := nat.outbound.remove mapping.outboundKey
      inbound := nat.inbound.remove mapping.inboundKey }
    if mapping.pinned then nat else nat.giveBack mapping

/-- Make room for one more mapping of a peer: over the cap it loses its own
oldest one, or for TCP is refused. -/
def makeRoom (nat : Napt) (peer : PeerId) (proto : MapProto) : Except NatDrop Unit × Napt :=
  if nat.config.cap proto ≤ (nat.peerCounts.get (peer, proto)).getD 0 then
    if proto = .tcp then (.error .peerCap, nat)
    else
      match nat.oldestOf peer proto with
      | none => (.error .peerCap, nat)
      | some victim => (.ok (), nat.removeMapping victim)
  else (.ok (), nat)

def dynamicMapping (peer : PeerId) (proto : MapProto) (internal : SocketAddr)
    (externalPort : UInt16) (now : Instant) : Mapping where
  owner := peer
  proto := proto
  internal := internal
  externalPort := externalPort
  remotes := []
  lastSeen := now
  pinned := false
  older := none
  newer := none

def openMapping (nat : Napt) (peer : PeerId) (proto : MapProto)
    (internal : SocketAddr) (externalPort : UInt16) (now : Instant) : MappingId × Napt :=
  let (id, nat) := nat.insertMapping
    (dynamicMapping peer proto internal externalPort now)
  let nat := nat.linkNewest id
  let nat := { nat with
    peerCounts := nat.peerCounts.insert (peer, proto)
      ((nat.peerCounts.get (peer, proto)).getD 0 + 1) }
  (id, nat.pushExpiry (now + nat.config.initial proto) id)

def createMapping (nat : Napt) (peer : PeerId) (proto : MapProto)
    (internal : SocketAddr) (now : Instant) (draw : Nat) : Except NatDrop MappingId × Napt :=
  match nat.makeRoom peer proto with
  | (.error refusal, nat) => (.error refusal, nat)
  | (.ok (), nat) =>
    let v6 := internal.isIpv6
    match (nat.ports v6 proto).alloc (some internal.port) draw with
    | (none, allocator) => (.error .portExhausted, nat.setAllocator proto v6 allocator)
    | (some externalPort, allocator) =>
      let (id, nat) := (nat.setAllocator proto v6 allocator).openMapping peer
        proto internal externalPort now
      (.ok id, nat)

def mappingForUplink (nat : Napt) (peer : PeerId) (proto : MapProto)
    (internal : SocketAddr) (now : Instant) (draw : Nat) : Except NatDrop MappingId × Napt :=
  match nat.outbound.get (proto, internal.ip, internal.port) with
  | some id =>
    match nat.mappings.get id with
    | none => (.error .noMapping, nat)
    | some mapping =>
      if mapping.owner ≠ peer then (.error .sourceNotOwned, nat)
      else (.ok id, nat)
  | none => nat.createMapping peer proto internal now draw

/-! ## Packets on a mapping -/

/-- Store what a packet did to a mapping, move it to the recent end and, when
the packet closed a flow, queue the earlier deadline. -/
def record (nat : Napt) (id : MappingId) (observed : Mapping × Bool) (now : Instant) : Napt :=
  let nat := (nat.modifyMapping id fun _ => observed.1).touchRecency id
  if observed.2 then nat.pushExpiry (now + nat.config.tcpClosing) id else nat

def touchUplink (nat : Napt) (id : MappingId) (remote : IpAddr)
    (port : UInt16) (flags : UInt8) (now : Instant) : Napt :=
  match nat.mappings.get id with
  | none => nat
  | some mapping =>
    nat.record id (mapping.observe nat.config.remotesPerMapping remote port flags now true) now

/-- Apply the filtering rule to a downlink packet and record it: a pinned
forward accepts any remote, a dynamic mapping only one it tracks. -/
def acceptDownlink (nat : Napt) (id : MappingId) (remote : IpAddr)
    (port : UInt16) (flags : UInt8) (now : Instant) : Except NatDrop SocketAddr × Napt :=
  match nat.mappings.get id with
  | none => (.error .noMapping, nat)
  | some mapping =>
    if (mapping.remoteIndex remote port).isNone && !mapping.pinned then
      (.error .noMapping, nat)
    else
      (.ok mapping.internal, nat.record id (mapping.observe nat.config.remotesPerMapping remote port
          flags now false) now)

/-! ## Expiry -/

def deadlineOf (nat : Napt) (mapping : Mapping) : Instant :=
  if mapping.pinned then mapping.lastSeen + Duration.fromSecs 86400
  else
    mapping.remotes.foldl
      (fun deadline flow => max deadline (flow.lastSeen + nat.config.timeout flow.state))
      (mapping.lastSeen + nat.config.initial mapping.proto)

/-- One round of the sweep for the heap's first entry, already popped: a live
deadline goes back into the heap, and a mapping that is really due goes. -/
def sweepEntry (nat : Napt) (id : MappingId) (now : Instant) : Nat × Napt :=
  match nat.mappings.get id with
  | none => (0, nat)
  | some mapping =>
    let real := nat.deadlineOf mapping
    if now < real then (0, nat.pushExpiry real id)
    else (1, nat.removeMapping id)

/-- The sweep's loop. Every round pops an entry that is due and pushes none
that is, so the heap's length bounds the rounds. -/
def sweepLoop (now : Instant) : Nat → Nat → Napt → Nat × Napt
  | 0, removed, nat => (removed, nat)
  | fuel + 1, removed, nat =>
    match nat.expiry with
    | [] => (removed, nat)
    | (deadline, id) :: rest =>
      if now < deadline then (removed, nat)
      else
        let (gone, nat) := { nat with expiry := rest }.sweepEntry id now
        sweepLoop now fuel (removed + gone) nat

def sweep (nat : Napt) (now : Instant) : Nat × Napt := sweepLoop now nat.expiry.length 0 nat

/-! ## Configuration -/

def setOwnership (nat : Napt) (ownership : Ownership) : Napt :=
  { nat with ownership }

/-- Remove every mapping that a test selects, in the order of `rank`. -/
def flushWhere (nat : Napt) (rank : MappingId → Nat) (doomed : Mapping → Bool) :
    Napt :=
  (((nat.mappings.iter rank).filter fun entry => doomed entry.2).map
    Prod.fst).foldl removeMapping nat

def flushFamily (nat : Napt) (rank : MappingId → Nat) (v6 : Bool) : Napt :=
  nat.flushWhere rank fun mapping => mapping.internal.isIpv6 = v6 && !mapping.pinned

def flushPeer (nat : Napt) (rank : MappingId → Nat) (peer : PeerId) : Napt :=
  nat.flushWhere rank fun mapping => mapping.owner = peer && !mapping.pinned

/-- The table that a new epoch starts with: a family survives only when the
exit and its address are both unchanged. -/
def flushForEpoch (nat : Napt) (rank : MappingId → Nat) (epoch : EpochId)
    (v4 : Ipv4Addr) (v6 : Option Ipv6Addr) : Napt :=
  let sameExit : Bool := nat.exit = some epoch.exit
  let nat :=
    if !(sameExit && nat.v4 = some v4) then nat.flushFamily rank false else nat
  if !(sameExit && nat.v6 = v6) then nat.flushFamily rank true else nat

def setExternal (nat : Napt) (rank : MappingId → Nat) (epoch : EpochId)
    (v4 : Ipv4Addr) (v6 : Option Ipv6Addr) : Napt :=
  { nat.flushForEpoch rank epoch v4 v6 with
    exit := some epoch.exit
    epoch := some epoch
    v4 := some v4
    v6 }

def removeFound (nat : Napt) : Option MappingId → Napt
  | some id => nat.removeMapping id
  | none => nat

def reserveForward (nat : Napt) (dnat : StaticDnat) : Except CoreError Unit × Napt :=
  let v6 := dnat.target.isIpv6
  let allocator := nat.ports v6 dnat.proto
  if allocator.contains dnat.externalPort then
    match allocator.reserve dnat.externalPort with
    | (.error refusal, allocator) => (.error refusal, nat.setAllocator dnat.proto v6 allocator)
    | (.ok (), allocator) => (.ok (), nat.setAllocator dnat.proto v6 allocator)
  else (.ok (), nat)

def pinnedMapping (dnat : StaticDnat) (owner : PeerId) (now : Instant) : Mapping where
  owner := owner
  proto := dnat.proto
  internal := dnat.target
  externalPort := dnat.externalPort
  remotes := []
  lastSeen := now
  pinned := true
  older := none
  newer := none

def installForward (nat : Napt) (dnat : StaticDnat) (owner : PeerId)
    (now : Instant) : MappingId × Napt :=
  let nat := nat.removeFound
    (nat.outbound.get (dnat.proto, dnat.target.ip, dnat.target.port))
  let nat := nat.removeFound
    (nat.inbound.get (dnat.proto, dnat.target.isIpv6, dnat.externalPort))
  nat.insertMapping (pinnedMapping dnat owner now)

def addStatic (nat : Napt) (dnat : StaticDnat) (now : Instant) :
    Except CoreError MappingId × Napt :=
  match nat.ownership.ownerOf dnat.target.ip with
  | none => (.error .targetNotOwned, nat)
  | some owner =>
    match nat.reserveForward dnat with
    | (.error refusal, nat) => (.error refusal, nat)
    | (.ok (), nat) =>
      let (id, nat) := nat.installForward dnat owner now
      (.ok id, nat)

def removeStatic (nat : Napt) (proto : MapProto) (externalPort : UInt16)
    (v6 : Bool) : Bool × Napt :=
  match nat.inbound.get (proto, v6, externalPort) with
  | none => (false, nat)
  | some id =>
    if !((nat.mappings.get id).any Mapping.pinned) then (false, nat)
    else
      let nat := nat.removeMapping id
      (true, nat.setAllocator proto v6 ((nat.ports v6 proto).unreserve externalPort).2)

end Napt

end WarrenSdk.Bolthole
