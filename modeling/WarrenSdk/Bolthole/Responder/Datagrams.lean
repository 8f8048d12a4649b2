import WarrenSdk.Bolthole.IcmpReply
import WarrenSdk.Bolthole.Responder.State

/-! # Datagrams

Everything that may make the responder emit bytes: a datagram from the network,
a packet for a peer, the queue behind a handshake and the protocol timers. What
is returned to the caller is cut out of its scratch buffer, which the protocol
library writes into. -/

namespace WarrenSdk.Bolthole

inductive Inbound
  | uplink (peer : PeerId) (packet : List UInt8)
  | reply (bytes : List UInt8)
  | loopback (owner : PeerId) (packet : List UInt8)
  | consumed
  | dropped (reason : DropReason)
  deriving DecidableEq

inductive Encapsulated
  | sent (endpoint : SocketAddr) (bytes : List UInt8)
  | deferred (initiation : Option (SocketAddr × List UInt8))
  deriving DecidableEq

inductive RouteError
  | noRoute
  | unknownPeer
  | gateClosed
  | encapsulation
  deriving DecidableEq

inductive Outcome
  | network (len : Nat) (kind : UInt8)
  | tunnel (len : Nat) (src : IpAddr)
  | done
  | failed (reason : DropReason)

def summarize : TunnResult → Outcome
  | .done => .done
  | .err .wrongTai64nTimestamp => .failed .replay
  | .err _ => .failed .auth
  | .writeToNetwork bytes => .network bytes.length (bytes.headD 0)
  | .writeToTunnelV4 bytes src => .tunnel bytes.length (.v4 src)
  | .writeToTunnelV6 bytes src => .tunnel bytes.length (.v6 src)

/-! ## Where a packet may go -/

inductive Answer
  | echo
  | unreachable
  | noRouteV6 (reason : DropReason)

def Answer.counted : Answer → Option DropReason
  | .echo => none
  | .unreachable => some .privateDestination
  | .noRouteV6 reason => some reason

inductive Verdict
  | forward
  | loopback (owner : PeerId)
  | answer (reason : Answer)
  | drop (reason : DropReason)

def isV6LinkLocal (addr : Ipv6Addr) : Bool := addr.firstSegment &&& 0xffc0 = 0xfe80

def isLinkLocal : IpAddr → Bool
  | .v4 addr => addr.isLinkLocal
  | .v6 addr => isV6LinkLocal addr

def isUnicast : IpAddr → Bool
  | .v4 addr =>
    !(addr.isMulticast || addr.isBroadcast || addr.isLoopback ||
      addr.isUnspecified || addr.isLinkLocal)
  | .v6 addr => !(addr.isMulticast || addr.isLoopback || addr.isUnspecified || isV6LinkLocal addr)

def isCgnat (addr : Ipv4Addr) : Bool :=
  addr.octet 0 = 100 && 64 ≤ addr.octet 1 && addr.octet 1 < 128

def isPrivate : IpAddr → Bool
  | .v4 addr => addr.isPrivate || isCgnat addr
  | .v6 addr => addr.firstSegment &&& 0xfe00 = 0xfc00

def isEchoRequest (packet : List UInt8) : Bool :=
  match parseIp packet with
  | .error _ => false
  | .ok header =>
    match readIcmp packet header.l4Offset with
    | .error _ => false
    | .ok icmp =>
      (header.isV6 && icmp.kind = icmpv6EchoRequest) ||
        (!header.isV6 && icmp.kind = icmpv4EchoRequest)

def isResolverPort (packet : List UInt8) : Bool :=
  match parseIp packet with
  | .error _ => false
  | .ok header =>
    if header.protocol ≠ protoUdp ∧ header.protocol ≠ protoTcp then false
    else
      match readPorts packet header.l4Offset with
      | .error _ => false
      | .ok (_, destination) => destination = 53

namespace Responder

def verdict (responder : Responder noise) (packet : List UInt8) : Verdict :=
  match noise.dstAddress packet with
  | none => .drop .malformed
  | some dst =>
    if isUnicast dst = false then .drop .nonUnicast
    else if responder.plan.isGateway dst then
      if isEchoRequest packet then .answer .echo else .drop .selfDestination
    else
      match responder.routes.longestMatch dst with
      | some (_, owner) =>
        if responder.isolation then .drop .peerIsolation else .loopback owner
      | none =>
        if responder.plan.contains dst then .drop .unownedPeerAddress
        else if isTunnelPool dst then
          -- The exit's resolver is the one address there that a peer may reach.
          if isTunnelGateway dst && isResolverPort packet then .forward
          else .drop .poolDestination
        else if isPrivate dst then .answer .unreachable
        else if dst.isIpv6 then
          match responder.v6 with
          | .available => .forward
          | .noAssignment => .answer (.noRouteV6 .v6Unavailable)
          | .budgetTooSmall => .answer (.noRouteV6 .v6Budget)
        else .forward

/-! ## Calls into a peer's tunnel -/

def settle (responder : Responder noise) (id : PeerId)
    (reaction : Reaction noise.Tunn noise.RateLimiter) : Responder noise :=
  { responder with
    peers := responder.peers.modify id fun peer =>
      { peer with tunn := reaction.tunn }
    limiter := reaction.limiter }

def decapsulate (responder : Responder noise) (ambient : noise.Ambient)
    (id : PeerId) (src : SocketAddr) (datagram scratch : List UInt8) :
    Outcome × List UInt8 × Responder noise :=
  match responder.peers[id]? with
  | none => (.failed .unknownIndex, scratch, responder)
  | some peer =>
    let reaction := noise.decapsulate ambient responder.limiter peer.tunn
      (some src.ip) datagram scratch
    (summarize reaction.result, reaction.scratch, responder.settle id reaction)

def countSent (responder : Responder noise) (id : PeerId) (bytes : Nat) : Responder noise :=
  { responder with
    peers := responder.peers.modify id fun peer =>
      { peer with
        stats := { peer.stats with txBytes := peer.stats.txBytes + bytes } } }

def encapsulateInto (responder : Responder noise) (ambient : noise.Ambient)
    (id : PeerId) (packet scratch : List UInt8) : Option Nat × List UInt8 × Responder noise :=
  match responder.peers[id]? with
  | none => (none, scratch, responder)
  | some peer =>
    let reaction := noise.encapsulate ambient responder.limiter peer.tunn packet
      scratch
    let responder := responder.settle id reaction
    match reaction.result with
    | .writeToNetwork bytes =>
      if bytes.head? = some 4 then
        (some bytes.length, reaction.scratch, responder.countSent id packet.length)
      else (none, reaction.scratch, responder)
    | _ => (none, reaction.scratch, responder)

/-! ## Decrypted packets -/

def buildAnswer (engine : ChecksumEngine) (plan : PeerPlan) (reason : Answer)
    (packet : List UInt8) : Option (List UInt8) :=
  match reason with
  | .echo =>
    if byteAt packet 0 >>> 4 = 4 then buildEchoReplyV4 engine packet
    else buildEchoReplyV6 engine packet
  | .unreachable =>
    if byteAt packet 0 >>> 4 = 4 then
      buildUnreachableV4 engine packet plan.gatewayV4
    else buildUnreachableV6 engine packet plan.gatewayV6
  | .noRouteV6 _ => buildUnreachableV6 engine packet plan.gatewayV6

def noteAnswer (responder : Responder noise) (reason : Answer) : Responder noise :=
  match reason.counted with
  | some refusal => responder.note refusal
  | none => responder

def sendAnswer (responder : Responder noise) (ambient : noise.Ambient)
    (id : PeerId) (packet scratch : List UInt8) : Inbound × Responder noise :=
  match responder.encapsulateInto ambient id packet scratch with
  | (some out, scratch, responder) =>
    (.reply (scratch.take out),
      { responder with counters := responder.counters.reply false })
  | (none, _, responder) => (.consumed, responder)

def answerPacket (engine : ChecksumEngine) (responder : Responder noise)
    (ambient : noise.Ambient) (id : PeerId) (reason : Answer)
    (packet scratch : List UInt8) (now : Instant) : Inbound × Responder noise :=
  let responder := responder.noteAnswer reason
  let (admitted, answers) := responder.answers.admits now
  let responder := { responder with answers }
  if admitted = false then
    (.consumed, { responder with
      counters.answersSuppressed := responder.counters.answersSuppressed + 1 })
  else
    match buildAnswer engine responder.plan reason packet with
    | none => (.consumed, responder)
    | some answer => responder.sendAnswer ambient id answer scratch

def deliver (engine : ChecksumEngine) (responder : Responder noise)
    (ambient : noise.Ambient) (id : PeerId) (len : Nat) (now : Instant)
    (scratch : List UInt8) : Inbound × Responder noise :=
  let packet := scratch.take len
  match responder.verdict packet with
  | .forward =>
    (.uplink id packet,
      { responder with counters.uplink := responder.counters.uplink + 1 })
  | .loopback owner =>
    (.loopback owner packet,
      { responder with counters.loopback := responder.counters.loopback + 1 })
  | .answer reason => responder.answerPacket engine ambient id reason packet scratch now
  | .drop reason => (.dropped reason, responder.noteFor id reason)

/-! ## Datagrams -/

def setEndpoint (responder : Responder noise) (id : PeerId)
    (endpoint : Option SocketAddr) : Responder noise :=
  { responder with
    peers := responder.peers.modify id fun peer => { peer with endpoint } }

/-- Only an authenticated packet may move a peer's endpoint. -/
def roams (kind : UInt8) : Outcome → Bool
  | .failed _ => false
  | .network _ out => kind = 4 || (kind = 2 && out ≠ 3)
  | .tunnel _ _ | .done => kind = 4

def roam (responder : Responder noise) (id : PeerId) (src : SocketAddr)
    (kind : UInt8) (outcome : Outcome) : Responder noise :=
  if roams kind outcome then responder.setEndpoint id (some src)
  else responder

def countReceived (responder : Responder noise) (id : PeerId) (bytes : Nat) : Responder noise :=
  { responder with
    peers := responder.peers.modify id fun peer =>
      { peer with
        stats := { peer.stats with rxBytes := peer.stats.rxBytes + bytes } } }

/-- A decrypted packet: its source must be the peer's, and the gate open. -/
def demuxTunnel (engine : ChecksumEngine) (responder : Responder noise)
    (ambient : noise.Ambient) (id : PeerId) (len : Nat) (inner : IpAddr)
    (now : Instant) (scratch : List UInt8) : Inbound × Responder noise :=
  match responder.peers[id]? with
  | none => (.dropped .unknownIndex, responder.note .unknownIndex)
  | some peer =>
    if peer.owns inner = false then
      let reason : DropReason :=
        if isLinkLocal inner then .linkLocalSource else .spoofedSource
      (.dropped reason, responder.noteFor id reason)
    else if responder.gate.open = false then
      (.dropped .gateClosed, responder.noteFor id .gateClosed)
    else
      (responder.countReceived id len).deliver engine ambient id len now scratch

def demuxNetwork (responder : Responder noise) (id : PeerId) (len : Nat)
    (scratch : List UInt8) : Inbound × Responder noise :=
  if responder.gate.open = false then
    (.dropped .gateClosed, responder.noteFor id .gateClosed)
  else
    (.reply (scratch.take len),
      { responder with counters := responder.counters.reply false })

def demux (engine : ChecksumEngine) (responder : Responder noise)
    (ambient : noise.Ambient) (src : SocketAddr) (datagram : List UInt8)
    (receiverIdx : UInt32) (kind : UInt8) (now : Instant)
    (scratch : List UInt8) : Inbound × Responder noise :=
  -- The high 24 bits of a session index name the peer.
  let id : PeerId := ⟨receiverIdx >>> 8⟩
  if responder.peers[id]?.isNone then
    (.dropped .unknownIndex, responder.note .unknownIndex)
  else
    let (outcome, scratch, responder) := responder.decapsulate ambient id src datagram scratch
    let responder := responder.roam id src kind outcome
    match outcome with
    | .failed reason => (.dropped reason, responder.noteFor id reason)
    | .done => (.consumed, responder)
    | .network len _ => responder.demuxNetwork id len scratch
    | .tunnel len inner => responder.demuxTunnel engine ambient id len inner now scratch

def countHandshake (responder : Responder noise) (id : PeerId)
    (src : SocketAddr) : Responder noise :=
  { responder with
    peers := responder.peers.modify id fun peer =>
      { peer with
        endpoint := some src
        stats := { peer.stats with handshakes := peer.stats.handshakes + 1 } }
    counters.handshakes := responder.counters.handshakes + 1 }

/-- An initiation: the gate, then the budget of its source, then the peer that
it names, and only then the handshake. -/
def initiation (responder : Responder noise) (ambient : noise.Ambient)
    (src : SocketAddr) (datagram : List UInt8) (init : noise.Init)
    (now : Instant) (scratch : List UInt8) : Inbound × Responder noise :=
  if responder.gate.open = false then
    (.dropped .gateClosed,
      { responder with
        counters.handshakeRefusedGateClosed := responder.counters.handshakeRefusedGateClosed + 1
      }.note .gateClosed)
  else
    let (admitted, perSource) := responder.perSource.admits src.ip now
    let responder := { responder with perSource }
    if admitted = false then
      (.dropped .sourceRateLimited, responder.note .sourceRateLimited)
    else
      match noise.parseHandshakeAnon responder.key init with
      | none => (.dropped .auth, responder.note .auth)
      | some peerStaticPublic =>
        match responder.byPubkey.get peerStaticPublic with
        | none => (.dropped .unknownPeer, responder.note .unknownPeer)
        | some id =>
          match responder.decapsulate ambient id src datagram scratch with
          | (.network len kind, scratch, responder) =>
            let responder :=
              if kind = 2 then responder.countHandshake id src else responder
            (.reply (scratch.take len),
              { responder with
                counters := responder.counters.reply (kind = 3) })
          | (.failed reason, _, responder) => (.dropped reason, responder.noteFor id reason)
          | (.tunnel _ _, _, responder) | (.done, _, responder) =>
            (.dropped .auth, responder.noteFor id .auth)

def handleDatagram (engine : ChecksumEngine) (responder : Responder noise)
    (ambient : noise.Ambient) (src : SocketAddr) (datagram : List UInt8)
    (now : Instant) (scratch : List UInt8) : Inbound × Responder noise :=
  let responder :=
    { responder with counters.datagrams := responder.counters.datagrams + 1 }
  if 65535 < datagram.length then
    (.dropped .oversize, responder.note .oversize)
  else
    let (verified, limiter) := noise.verifyPacket ambient responder.limiter src.ip datagram
    let responder := { responder with limiter }
    match verified with
    | .error (.writeToNetwork cookie) =>
      (.reply cookie,
        { responder with counters := responder.counters.reply true })
    | .error _ => (.dropped .malformed, responder.note .malformed)
    | .ok (.handshakeInit init) => responder.initiation ambient src datagram init now scratch
    | .ok (.handshakeResponse receiverIdx) =>
      responder.demux engine ambient src datagram receiverIdx 2 now scratch
    | .ok (.packetCookieReply receiverIdx) =>
      responder.demux engine ambient src datagram receiverIdx 3 now scratch
    | .ok (.packetData receiverIdx) =>
      responder.demux engine ambient src datagram receiverIdx 4 now scratch

/-! ## Packets for a peer -/

def flush (responder : Responder noise) (ambient : noise.Ambient)
    (peer : PeerId) (scratch : List UInt8) : Option (List UInt8) × Responder noise :=
  if responder.gate.open = false then (none, responder)
  else
    match responder.peers[peer]? with
    | none => (none, responder)
    | some entry =>
      let reaction := noise.decapsulate ambient responder.limiter entry.tunn
        none [] scratch
      let responder := responder.settle peer reaction
      match reaction.result with
      | .writeToNetwork bytes => (some (reaction.scratch.take bytes.length), responder)
      | _ => (none, responder)

def countDeferred (responder : Responder noise) (id : PeerId) : Responder noise :=
  { responder with
    peers := responder.peers.modify id fun peer =>
      { peer with
        stats := { peer.stats with deferred := peer.stats.deferred + 1 } } }

def countQueued (responder : Responder noise) : Responder noise :=
  { responder with
    counters.downlinkQueued := responder.counters.downlinkQueued + 1 }

def countWithoutEndpoint (responder : Responder noise) : Responder noise :=
  { responder with
    counters.downlinkDroppedNoEndpoint := responder.counters.downlinkDroppedNoEndpoint + 1 }

def sendToPeer (responder : Responder noise) (ambient : noise.Ambient)
    (peer : PeerId) (packet scratch : List UInt8) :
    Except RouteError Encapsulated × Responder noise :=
  if responder.gate.open = false then (.error .gateClosed, responder)
  else
    match responder.peers[peer]? with
    | none => (.error .unknownPeer, responder)
    | some entry =>
      let reaction := noise.encapsulate ambient responder.limiter entry.tunn
        packet scratch
      let responder := responder.settle peer reaction
      match reaction.result with
      | .writeToNetwork bytes =>
        if bytes.headD 0 = 4 then
          let responder := responder.countSent peer packet.length
          match entry.endpoint with
          | some endpoint => (.ok (.sent endpoint (reaction.scratch.take bytes.length)), responder)
          | none => (.ok (.deferred none), responder.countWithoutEndpoint)
        else
          let responder := (responder.countDeferred peer).countQueued
          match entry.endpoint with
          | some endpoint =>
            (.ok (.deferred (some (endpoint, reaction.scratch.take bytes.length))), responder)
          | none => (.ok (.deferred none), responder.countWithoutEndpoint)
      | .done => (.ok (.deferred none), (responder.countDeferred peer).countQueued)
      | _ => (.error .encapsulation, responder)

def encapsulateTo (responder : Responder noise) (ambient : noise.Ambient)
    (dst : IpAddr) (packet scratch : List UInt8) :
    Except RouteError Encapsulated × Responder noise :=
  match responder.routes.longestMatch dst with
  | none => (.error .noRoute, responder.note .noRoute)
  | some (_, owner) => responder.sendToPeer ambient owner packet scratch

/-! ## Timers -/

def rebuild (responder : Responder noise) (ambient : noise.Ambient)
    (id : PeerId) : Responder noise :=
  match responder.peers[id]? with
  | none => responder
  | some peer =>
    let tunn := responder.buildTunn ambient peer.conf id.index
    { responder with
      peers := responder.peers.modify id fun peer => { peer with tunn } }

/-- How far the wall clock must move between two ticks to count as a
suspend. -/
def clockJump : Duration := Duration.fromSecs 30

def jumped (last : Option SystemTime) (wall : SystemTime) : Bool :=
  last.any fun last => clockJump < wall - last || clockJump < last - wall

def resetStale (ambient : noise.Ambient) (responder : Responder noise)
    (id : PeerId) : Responder noise :=
  let responder := responder.rebuild ambient id
  { responder with
    counters.clockJumpResets := responder.counters.clockJumpResets + 1 }

def detectClockJump (responder : Responder noise) (ambient : noise.Ambient)
    (wall : SystemTime) : Responder noise :=
  let jump := jumped responder.lastWall wall
  let responder := { responder with lastWall := some wall }
  if jump = false then responder
  else
    let stale := (responder.peers.toList.filter fun (_, peer) => peer.endpoint.isSome).map Prod.fst
    stale.foldl (resetStale ambient) responder

structure TickState (noise : Noise) where
  responder : Responder noise
  scratch : List UInt8
  out : List (SocketAddr × List UInt8)

def tickPeer (ambient : noise.Ambient) («open» : Bool)
    (state : TickState noise) (id : PeerId) : TickState noise :=
  match state.responder.peers[id]? with
  | none => state
  | some peer =>
    match peer.endpoint with
    | none => state
    | some endpoint =>
      let reaction := noise.updateTimers ambient state.responder.limiter
        peer.tunn state.scratch
      let responder := state.responder.settle id reaction
      match reaction.result with
      | .writeToNetwork bytes =>
        { responder
          scratch := reaction.scratch
          out := if «open» then state.out ++ [(endpoint, bytes)]
            else state.out }
      | .err .connectionExpired =>
        { responder := responder.setEndpoint id none
          scratch := reaction.scratch
          out := state.out }
      | _ => { responder, scratch := reaction.scratch, out := state.out }

def resetCount (responder : Responder noise) (ambient : noise.Ambient)
    (now : Instant) : Responder noise :=
  if responder.lastReset.all fun last => Duration.fromSecs 1 ≤ now - last then
    { responder with
      limiter := noise.resetCount ambient responder.limiter
      lastReset := some now }
  else responder

/-- Drive the protocol timers. While the gate is closed they keep running and
what they produce is discarded. -/
def tick (responder : Responder noise) (ambient : noise.Ambient)
    (now : Instant) (wall : SystemTime) (scratch : List UInt8) :
    List (SocketAddr × List UInt8) × Responder noise :=
  let responder := (responder.resetCount ambient now).detectClockJump ambient
    wall
  let state := responder.peers.keys.foldl
    (tickPeer ambient responder.gate.open) { responder, scratch, out := [] }
  (state.out, state.responder)

end Responder

end WarrenSdk.Bolthole
