import WarrenSdk.Bolthole.Ip
import WarrenSdk.Bolthole.Network
import WarrenSdk.Bolthole.Ports

/-! # The state of the translator

The table of the peer-aware NAPT: its mappings, the two indexes that find
them, the recency lists that order them for eviction, the port spaces they draw
from and the expiry heap.

Identifiers count upwards without bound, where the source has 64 bits of them.
The heap is the list of its entries in the order in which they would be
popped. -/

namespace WarrenSdk.Bolthole

structure PeerId where
  index : UInt32
  deriving DecidableEq

structure ExitId where
  bytes : List UInt8
  length : bytes.length = 16
  deriving DecidableEq

structure EpochId where
  exit : ExitId
  generation : UInt64
  deriving DecidableEq

inductive MapProto where
  | tcp
  | udp
  | icmp
  deriving DecidableEq

structure MappingId where
  value : Nat
  deriving DecidableEq

structure Translated where
  peer : PeerId
  destination : IpAddr
  deriving DecidableEq

structure StaticDnat where
  proto : MapProto
  externalPort : UInt16
  target : SocketAddr
  deriving DecidableEq

/-- The keys under which the mapping of a forward is found. -/
abbrev StaticDnat.outboundKey (dnat : StaticDnat) : MapProto × IpAddr × UInt16 :=
  (dnat.proto, dnat.target.ip, dnat.target.port)

abbrev StaticDnat.inboundKey (dnat : StaticDnat) : MapProto × Bool × UInt16 :=
  (dnat.proto, dnat.target.isIpv6, dnat.externalPort)

inductive NatDrop where
  | sourceNotOwned
  | noMapping
  | portExhausted
  | peerCap
  | fragment
  | extensionHeader
  | unsupportedProtocol
  | malformed
  | familyUnavailable
  deriving DecidableEq

def NatDrop.ofPacketError : PacketError → NatDrop
  | .fragment => .fragment
  | .extensionHeader => .extensionHeader
  | .unsupportedProtocol => .unsupportedProtocol
  | .truncated | .badVersion | .familyMismatch | .notAnEcho
  | .notAnIcmpError => .malformed

structure Ownership where
  table : IpNetworkTable PeerId

namespace Ownership

def new : Ownership := ⟨IpNetworkTable.new⟩

def insert (ownership : Ownership) (network : IpNetwork) (peer : PeerId) :
    Ownership :=
  ⟨ownership.table.insert network peer⟩

def insertAddr (ownership : Ownership) (addr : IpAddr) (peer : PeerId) :
    Ownership :=
  ⟨ownership.table.insert (IpNetwork.single addr) peer⟩

def ownerOf (ownership : Ownership) (addr : IpAddr) : Option PeerId :=
  (ownership.table.longestMatch addr).map Prod.snd

end Ownership

structure NatConfig where
  pool : PortRange := ⟨dynamicPoolStart, dynamicPoolEnd⟩
  perPeerMappings : Nat := 4096
  perPeerIdentifiers : Nat := 1024
  remotesPerMapping : Nat := 64
  udpInitial : Duration := Duration.fromSecs 30
  udpEstablished : Duration := Duration.fromSecs 120
  tcpSyn : Duration := Duration.fromSecs 60
  tcpEstablished : Duration := Duration.fromSecs 7440
  tcpClosing : Duration := Duration.fromSecs 60
  icmp : Duration := Duration.fromSecs 60

inductive FlowState where
  | udpOneWay
  | udpAnswered
  | tcpSyn
  | tcpEstablished
  | tcpClosed
  | icmp
  deriving DecidableEq

structure RemoteFlow where
  addr : IpAddr
  port : UInt16
  state : FlowState
  finUp : Bool
  finDown : Bool
  lastSeen : Instant
  deriving DecidableEq

structure Mapping where
  owner : PeerId
  proto : MapProto
  internal : SocketAddr
  externalPort : UInt16
  remotes : List RemoteFlow
  lastSeen : Instant
  pinned : Bool
  /-- The neighbours in the owner's recency list; a pinned forward has none. -/
  older : Option MappingId
  newer : Option MappingId
  deriving DecidableEq

namespace Mapping

def remoteIndex (mapping : Mapping) (addr : IpAddr) (port : UInt16) : Option Nat :=
  mapping.remotes.findIdx? fun flow => flow.addr = addr && flow.port = port

def outboundKey (mapping : Mapping) : MapProto × IpAddr × UInt16 :=
  (mapping.proto, mapping.internal.ip, mapping.internal.port)

def inboundKey (mapping : Mapping) : MapProto × Bool × UInt16 :=
  (mapping.proto, mapping.internal.isIpv6, mapping.externalPort)

def recencyKey (mapping : Mapping) : PeerId × MapProto := (mapping.owner, mapping.proto)

end Mapping

structure Snapshot where
  uplinkTranslated : Nat := 0
  downlinkTranslated : Nat := 0
  uplinkDropped : Nat := 0
  downlinkDropped : Nat := 0
  sourceNotOwned : Nat := 0
  noMapping : Nat := 0
  portExhausted : Nat := 0
  peerCap : Nat := 0
  fragment : Nat := 0
  v6ExtensionHeader : Nat := 0
  unsupportedProtocol : Nat := 0
  malformed : Nat := 0
  familyUnavailable : Nat := 0
  deriving DecidableEq

namespace Snapshot

def byClass (totals : Snapshot) : NatDrop → Snapshot
  | .sourceNotOwned =>
    { totals with sourceNotOwned := totals.sourceNotOwned + 1 }
  | .noMapping => { totals with noMapping := totals.noMapping + 1 }
  | .portExhausted => { totals with portExhausted := totals.portExhausted + 1 }
  | .peerCap => { totals with peerCap := totals.peerCap + 1 }
  | .fragment => { totals with fragment := totals.fragment + 1 }
  | .extensionHeader =>
    { totals with v6ExtensionHeader := totals.v6ExtensionHeader + 1 }
  | .unsupportedProtocol =>
    { totals with unsupportedProtocol := totals.unsupportedProtocol + 1 }
  | .malformed => { totals with malformed := totals.malformed + 1 }
  | .familyUnavailable =>
    { totals with familyUnavailable := totals.familyUnavailable + 1 }

def countUplink (totals : Snapshot) : Except NatDrop Unit → Snapshot
  | .ok () => { totals with uplinkTranslated := totals.uplinkTranslated + 1 }
  | .error refusal =>
    { totals with uplinkDropped := totals.uplinkDropped + 1 }.byClass refusal

def countDownlink (totals : Snapshot) : Except NatDrop Translated → Snapshot
  | .ok _ => { totals with downlinkTranslated := totals.downlinkTranslated + 1 }
  | .error refusal =>
    { totals with downlinkDropped := totals.downlinkDropped + 1 }.byClass refusal

end Snapshot

/-- Entries of the expiry heap are popped by deadline, then by identifier. -/
def dueBefore (left right : Instant × MappingId) : Prop :=
  left.1 < right.1 ∨ (left.1 = right.1 ∧ left.2.value ≤ right.2.value)

instance : DecidableRel dueBefore := fun left right =>
  inferInstanceAs (Decidable (left.1 < right.1 ∨ (left.1 = right.1 ∧ left.2.value ≤ right.2.value)))

structure Napt where
  config : NatConfig
  ownership : Ownership
  exit : Option ExitId
  epoch : Option EpochId
  v4 : Option Ipv4Addr
  v6 : Option Ipv6Addr
  mappings : HashMap MappingId Mapping
  /-- The oldest and the newest mapping per peer and protocol. -/
  recency : HashMap (PeerId × MapProto) (MappingId × MappingId)
  outbound : HashMap (MapProto × IpAddr × UInt16) MappingId
  inbound : HashMap (MapProto × Bool × UInt16) MappingId
  peerCounts : HashMap (PeerId × MapProto) Nat
  /-- One port space per family and protocol. -/
  ports : Bool → MapProto → PortAllocator
  expiry : List (Instant × MappingId)
  /-- Counts without end: fewer than `2 ^ 64` mappings are ever opened. -/
  nextId : Nat
  counters : Snapshot

namespace Napt

def new (config : NatConfig) : Napt where
  config := config
  ownership := Ownership.new
  exit := none
  epoch := none
  v4 := none
  v6 := none
  mappings := HashMap.empty
  recency := HashMap.empty
  outbound := HashMap.empty
  inbound := HashMap.empty
  peerCounts := HashMap.empty
  ports := fun _ proto =>
    match proto with
    | .tcp | .udp => PortAllocator.ports config.pool
    | .icmp => PortAllocator.identifiers
  expiry := []
  nextId := 1
  counters := {}

def external (nat : Napt) (v6 : Bool) : Option IpAddr :=
  if v6 then nat.v6.map IpAddr.v6 else nat.v4.map IpAddr.v4

def mappingCount (nat : Napt) : Nat := nat.mappings.toList.length

def setAllocator (nat : Napt) (proto : MapProto) (v6 : Bool) (allocator : PortAllocator) : Napt :=
  { nat with
    ports := fun family kind =>
      if family = v6 ∧ kind = proto then allocator else nat.ports family kind }

def modifyMapping (nat : Napt) (id : MappingId) (edit : Mapping → Mapping) :
    Napt :=
  { nat with mappings := nat.mappings.modify id edit }

def pushExpiry (nat : Napt) (deadline : Instant) (id : MappingId) : Napt :=
  { nat with expiry := nat.expiry.orderedInsert dueBefore (deadline, id) }

end Napt

end WarrenSdk.Bolthole
