import WarrenSdk.Bolthole.Conf
import WarrenSdk.Bolthole.IndexGen
import WarrenSdk.Bolthole.Napt.State
import WarrenSdk.Bolthole.RateLimit

/-! # The state of the responder

The responder terminates every peer's protocol session. The protocol itself is
a library of its own, and nothing is assumed of it: `Noise` is any family of
tunnels and limiters, each call of which sees its own state, what is shared and
whatever else the library reads, its clock and its randomness. -/

namespace WarrenSdk.Bolthole

instance : Ord PeerId := ⟨compareOn PeerId.index⟩

instance : Std.TransOrd PeerId := inferInstanceAs (Std.TransCmp (compareOn PeerId.index))

instance : Std.LawfulEqOrd PeerId where
  eq_of_compare := by
    intro left right equal
    have index : left.index = right.index := Std.LawfulEqOrd.eq_of_compare equal
    cases left
    cases right
    cases index
    rfl

/-! ## The protocol library -/

/-- The refusals that the responder tells apart, and all others. -/
inductive WireGuardError
  | wrongTai64nTimestamp
  | connectionExpired
  | other
  deriving DecidableEq

inductive TunnResult
  | done
  | err (refusal : WireGuardError)
  | writeToNetwork (bytes : List UInt8)
  | writeToTunnelV4 (bytes : List UInt8) (src : Ipv4Addr)
  | writeToTunnelV6 (bytes : List UInt8) (src : Ipv6Addr)
  deriving DecidableEq

/-- A datagram that parsed and whose first authenticator verified. -/
inductive Packet (Init : Type)
  | handshakeInit (init : Init)
  | handshakeResponse (receiverIdx : UInt32)
  | packetCookieReply (receiverIdx : UInt32)
  | packetData (receiverIdx : UInt32)

/-- What a call on a tunnel leaves behind: its result, the buffer that it wrote
into, the tunnel and the limiter that all tunnels share. -/
structure Reaction (Tunn RateLimiter : Type) where
  result : TunnResult
  scratch : List UInt8
  tunn : Tunn
  limiter : RateLimiter

structure Noise where
  Tunn : Type
  RateLimiter : Type
  Init : Type
  Ambient : Type
  newLimiter : Ambient → PeerPublicKey → (limit : UInt64) → RateLimiter
  resetCount : Ambient → RateLimiter → RateLimiter
  verifyPacket : Ambient → RateLimiter → (src : IpAddr) →
    (datagram : List UInt8) → Except TunnResult (Packet Init) × RateLimiter
  parseHandshakeAnon : GatewayKey → Init → Option PeerPublicKey
  newTunn : Ambient → GatewayKey → PeerPublicKey → Option PresharedKey →
    (index : UInt32) → RateLimiter → Tunn
  decapsulate : Ambient → RateLimiter → Tunn → (src : Option IpAddr) →
    (datagram scratch : List UInt8) → Reaction Tunn RateLimiter
  encapsulate : Ambient → RateLimiter → Tunn →
    (packet scratch : List UInt8) → Reaction Tunn RateLimiter
  updateTimers : Ambient → RateLimiter → Tunn → (scratch : List UInt8) → Reaction Tunn RateLimiter
  dstAddress : (packet : List UInt8) → Option IpAddr

/-! ## Counters -/

structure ResponderSnapshot where
  datagrams : Nat := 0
  handshakes : Nat := 0
  uplink : Nat := 0
  replies : Nat := 0
  cookies : Nat := 0
  loopback : Nat := 0
  dropped : Nat := 0
  handshakeRefusedGateClosed : Nat := 0
  droppedGateClosed : Nat := 0
  sourceRateLimited : Nat := 0
  unknownPeer : Nat := 0
  unknownIndex : Nat := 0
  authFailed : Nat := 0
  replayed : Nat := 0
  spoofedSource : Nat := 0
  linkLocalSource : Nat := 0
  oversize : Nat := 0
  malformed : Nat := 0
  nonUnicast : Nat := 0
  selfDestination : Nat := 0
  peerIsolation : Nat := 0
  unownedPeerAddress : Nat := 0
  poolDestination : Nat := 0
  privateDestination : Nat := 0
  v6Unavailable : Nat := 0
  v6Budget : Nat := 0
  noRoute : Nat := 0
  downlinkQueued : Nat := 0
  downlinkDroppedNoEndpoint : Nat := 0
  answersSuppressed : Nat := 0
  clockJumpResets : Nat := 0

namespace ResponderSnapshot

def reply (totals : ResponderSnapshot) (cookie : Bool) : ResponderSnapshot :=
  { totals with
    replies := totals.replies + 1
    cookies := if cookie then totals.cookies + 1 else totals.cookies }

def byReason (totals : ResponderSnapshot) : DropReason → ResponderSnapshot
  | .oversize => { totals with oversize := totals.oversize + 1 }
  | .malformed => { totals with malformed := totals.malformed + 1 }
  | .gateClosed =>
    { totals with droppedGateClosed := totals.droppedGateClosed + 1 }
  | .sourceRateLimited =>
    { totals with sourceRateLimited := totals.sourceRateLimited + 1 }
  | .unknownPeer => { totals with unknownPeer := totals.unknownPeer + 1 }
  | .unknownIndex => { totals with unknownIndex := totals.unknownIndex + 1 }
  | .auth => { totals with authFailed := totals.authFailed + 1 }
  | .replay => { totals with replayed := totals.replayed + 1 }
  | .spoofedSource => { totals with spoofedSource := totals.spoofedSource + 1 }
  | .linkLocalSource =>
    { totals with linkLocalSource := totals.linkLocalSource + 1 }
  | .nonUnicast => { totals with nonUnicast := totals.nonUnicast + 1 }
  | .selfDestination =>
    { totals with selfDestination := totals.selfDestination + 1 }
  | .peerIsolation => { totals with peerIsolation := totals.peerIsolation + 1 }
  | .unownedPeerAddress =>
    { totals with unownedPeerAddress := totals.unownedPeerAddress + 1 }
  | .poolDestination =>
    { totals with poolDestination := totals.poolDestination + 1 }
  | .privateDestination =>
    { totals with privateDestination := totals.privateDestination + 1 }
  | .v6Unavailable => { totals with v6Unavailable := totals.v6Unavailable + 1 }
  | .v6Budget => { totals with v6Budget := totals.v6Budget + 1 }
  | .noRoute => { totals with noRoute := totals.noRoute + 1 }

def countDropped (totals : ResponderSnapshot) (reason : DropReason) :
    ResponderSnapshot :=
  { totals with dropped := totals.dropped + 1 }.byReason reason

end ResponderSnapshot

/-! ## The responder -/

/-- Whether the gateway may emit anything toward a peer, and the epoch that was
set for. -/
structure Gate where
  «open» : Bool := false
  generation : UInt64 := 0
  deriving DecidableEq

inductive V6State
  | available
  | noAssignment
  | budgetTooSmall
  deriving DecidableEq

/-- A moment of the wall clock, in nanoseconds. -/
abbrev SystemTime := Nat

structure ResponderOptions where
  peerIsolation : Bool := true
  handshakeRate : UInt64 := 200
  perSourceRate : UInt32 := handshakeRatePerIp
  perSourceBurst : UInt32 := handshakeBurstPerIp
  sourcesTracked : Nat := handshakeSourcesTracked
  answerRate : UInt32 := answerRatePerSecond
  answerBurst : UInt32 := Bolthole.answerBurst

structure Peer (noise : Noise) where
  label : PeerLabel
  «public» : PeerPublicKey
  psk : Option PresharedKey
  allowed : List IpNetwork
  tunn : noise.Tunn
  endpoint : Option SocketAddr
  stats : PeerStats
  lastDrop : Option DropReason

namespace Peer

def added (conf : PeerConf) (tunn : noise.Tunn) : Peer noise where
  label := conf.label
  «public» := conf.public
  psk := conf.psk
  allowed := conf.allowed
  tunn := tunn
  endpoint := none
  stats := {}
  lastDrop := none

def owns (peer : Peer noise) (addr : IpAddr) : Bool :=
  peer.allowed.any fun network => network.contains addr

def conf (peer : Peer noise) : PeerConf where
  label := peer.label
  «public» := peer.public
  psk := peer.psk
  allowed := peer.allowed

@[simp] theorem conf_label (peer : Peer noise) : peer.conf.label = peer.label := rfl

@[simp] theorem conf_public (peer : Peer noise) : peer.conf.public = peer.public := rfl

def sameMaterial (peer : Peer noise) (conf : PeerConf) : Bool :=
  peer.public = conf.public && peer.psk = conf.psk && peer.allowed = conf.allowed

theorem conf_of_sameMaterial {peer : Peer noise} {conf : PeerConf}
    (label : peer.label = conf.label) (same : peer.sameMaterial conf) : peer.conf = conf := by
  cases conf
  simp only [sameMaterial, Bool.and_eq_true, decide_eq_true_eq] at same
  simp [Peer.conf, label, same]

end Peer

structure Responder (noise : Noise) where
  key : GatewayKey
  limiter : noise.RateLimiter
  peers : Std.TreeMap PeerId (Peer noise)
  byPubkey : HashMap PeerPublicKey PeerId
  byLabel : HashMap PeerLabel PeerId
  routes : IpNetworkTable PeerId
  perSource : HandshakeBuckets
  answers : TokenBucket
  indexes : IndexGen
  plan : PeerPlan
  isolation : Bool
  gate : Gate
  v6 : V6State
  counters : ResponderSnapshot
  lastReset : Option Instant
  lastWall : Option SystemTime

namespace Responder

def buildTunn (responder : Responder noise) (ambient : noise.Ambient)
    (conf : PeerConf) (index : UInt32) : noise.Tunn :=
  noise.newTunn ambient responder.key conf.public conf.psk index responder.limiter

def insertPeerAt (responder : Responder noise) (ambient : noise.Ambient)
    (conf : PeerConf) (index : UInt32) : Responder noise :=
  let id : PeerId := ⟨index⟩
  { responder with
    byPubkey := responder.byPubkey.insert conf.public id
    byLabel := responder.byLabel.insert conf.label id
    peers := responder.peers.insert id (.added conf (responder.buildTunn ambient conf index)) }

def insertPeer (ambient : noise.Ambient) (responder : Responder noise)
    (conf : PeerConf) : Except ConfError (Responder noise) :=
  match responder.indexes.next with
  | (none, _) => .error .tooManyPeers
  | (some index, indexes) => .ok ({ responder with indexes }.insertPeerAt ambient conf index)

def rebuildLookups (responder : Responder noise) : Responder noise :=
  { responder with
    byPubkey := .ofList (responder.peers.toList.map fun entry => (entry.2.public, entry.1))
    byLabel := .ofList (responder.peers.toList.map fun entry => (entry.2.label, entry.1)) }

def rebuildRoutes (responder : Responder noise) : Responder noise :=
  { responder with
    routes := responder.peers.toList.foldl (fun routes entry =>
      entry.2.allowed.foldl (fun routes network => routes.insert network entry.1) routes) .new }

def vacant (ambient : noise.Ambient) (conf : GatewayConf) (plan : PeerPlan)
    (options : ResponderOptions) (indexes : IndexGen) : Responder noise where
  key := conf.key
  limiter := noise.newLimiter ambient conf.key.public options.handshakeRate
  peers := ∅
  byPubkey := .empty
  byLabel := .empty
  routes := .new
  perSource := .withLimits options.perSourceRate options.perSourceBurst options.sourcesTracked
  answers := .new options.answerRate options.answerBurst
  indexes := indexes
  plan := plan
  isolation := options.peerIsolation
  gate := {}
  v6 := .available
  counters := {}
  lastReset := none
  lastWall := none

def withIndexes (ambient : noise.Ambient) (conf : GatewayConf)
    (plan : PeerPlan) (options : ResponderOptions) (indexes : IndexGen) :
    Except ConfError (Responder noise) := do
  conf.validate
  conf.checkAgainst plan
  let responder ← conf.peers.foldlM (insertPeer ambient)
    (vacant ambient conf plan options indexes)
  return responder.rebuildRoutes

def setGate (responder : Responder noise) («open» : Bool) (generation : UInt64) : Responder noise :=
  { responder with gate := { «open», generation } }

def setIpv6 (responder : Responder noise) (state : V6State) : Responder noise :=
  { responder with v6 := state }

def peerConfs (responder : Responder noise) : List PeerConf :=
  responder.peers.toList.map fun entry => entry.2.conf

def note (responder : Responder noise) (reason : DropReason) : Responder noise :=
  { responder with counters := responder.counters.countDropped reason }

def noteFor (responder : Responder noise) (peer : PeerId) (reason : DropReason) : Responder noise :=
  { responder with
    peers := responder.peers.modify peer fun peer =>
      { peer with
        lastDrop := some reason
        stats := { peer.stats with drops := peer.stats.drops + 1 } }
  }.note reason

end Responder

end WarrenSdk.Bolthole
