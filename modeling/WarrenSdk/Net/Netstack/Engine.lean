import Mathlib.Data.Finset.Erase
import Mathlib.Data.Finset.Insert
import WarrenSdk.Foundation.Arena
import WarrenSdk.Foundation.Execution
import WarrenSdk.Foundation.HashMap
import WarrenSdk.Foundation.Vec
import WarrenSdk.Net.Dns
import WarrenSdk.Net.Netstack.Session

/-! # The netstack engine

One task owns a set of sockets and serves connects, name lookups, datagram flows
and listeners with them. A turn of its loop takes up commands and writes, lets
the stack work on a batch of frames and looks at what came of it. The stages of
the loop are the actions of the engine here, next to what applications do with
their ends. The clock and the random numbers are inputs, and so is what the
stack makes of the frames. -/

namespace WarrenSdk.Net.Netstack

open Bolthole

def ephemeralBase : UInt16 := 49152
def ephemeralPorts : Nat := 16384
def connectTimeout : Duration := .fromSecs 10
def dnsTimeout : Duration := .fromSecs 5
def dnsRetxInitial : Duration := .fromSecs 1
def dnsPort : UInt16 := 53
def dnsCacheMaxTtl : Duration := .fromSecs 300
def dnsCacheCap : Nat := 512
def dnsSlots : Nat := 4
def udpSlots : Nat := 16
def udpChannelDepth : Nat := 64
def listenBacklog : Nat := 8
def acceptChannelDepth : Nat := 32

/-! ## Sockets -/

/-- A payload and the other end it comes from or goes to. -/
abbrev Datagram := List UInt8 × SocketAddr

structure UdpSocket where
  port : UInt16
  slots : Nat
  rx : List Datagram := []
  tx : List Datagram := []
  deriving DecidableEq

def isUnspecified : IpAddr → Bool
  | .v4 addr => addr.isUnspecified
  | .v6 addr => addr.isUnspecified

def UdpSocket.sendSlice (socket : UdpSocket) (data : List UInt8)
    (dst : SocketAddr) : Option UdpSocket :=
  if isUnspecified dst.ip ∨ dst.port = 0 ∨ socket.slots ≤ socket.tx.length then
    none
  else some { socket with tx := socket.tx ++ [(data, dst)] }

inductive Socket
  | tcp (socket : Tcp.Socket)
  | udp (socket : UdpSocket)
  deriving DecidableEq

abbrev SocketSet := Arena Socket

namespace SocketSet

def tcp (sockets : SocketSet) (handle : Nat) : Option Tcp.Socket :=
  match Arena.get sockets handle with
  | some (.tcp socket) => some socket
  | _ => none

def udp (sockets : SocketSet) (handle : Nat) : Option UdpSocket :=
  match Arena.get sockets handle with
  | some (.udp socket) => some socket
  | _ => none

end SocketSet

/-- What the stack makes of the frames of a batch, socket by socket. -/
inductive Delivery
  | segment (handle : Nat) (arrival : Tcp.Arrival)
  | datagram (handle : Nat) (datagram : Datagram)
  /-- The queued datagrams of a socket have left. -/
  | dispatched (handle : Nat)
  deriving DecidableEq

def deliver (sockets : SocketSet) : Delivery → SocketSet
  | .segment handle arrival =>
    match SocketSet.tcp sockets handle with
    | some socket => Arena.set sockets handle (.tcp (socket.receive arrival))
    | none => sockets
  | .datagram handle datagram =>
    match SocketSet.udp sockets handle with
    | some socket =>
      if socket.rx.length < socket.slots then
        Arena.set sockets handle (.udp { socket with rx := socket.rx ++ [datagram] })
      else sockets
    | none => sockets
  | .dispatched handle =>
    match SocketSet.udp sockets handle with
    | some socket => Arena.set sockets handle (.udp { socket with tx := [] })
    | none => sockets

/-! ## What the engine keeps -/

structure PendingResolve where
  handle : Nat
  localPort : UInt16
  id : UInt16
  name : List UInt8
  rtype : Dns.RecordType
  request : Nat
  deadline : Instant
  query : List UInt8
  nextRetx : Instant
  retxInterval : Duration
  deriving DecidableEq

structure UdpFlow where
  handle : Nat
  localPort : UInt16
  toApp : List Datagram := []
  fromApp : List Datagram := []
  /-- The application still has its end. -/
  held : Bool := true
  deriving DecidableEq

structure Listener where
  port : UInt16
  /-- Sockets that wait for a connection. -/
  pending : List Nat
  /-- Accepted connections that the application has not taken yet. -/
  queue : List Nat := []
  /-- The application still has its end. -/
  held : Bool := true
  deriving DecidableEq

inductive Event
  | replied (request : Nat) (reply : Reply)
  /-- A query has left for the resolver. -/
  | queried (name : List UInt8) (rtype : Dns.RecordType) (id : UInt16)
  /-- A datagram has ended a lookup. -/
  | heard (lookup : PendingResolve) (datagram : Datagram) (now : Instant)
  | lookedUp (request : Nat) (name : List UInt8) (rtype : Dns.RecordType)
      (result : Except NetError IpAddr) (now : Instant)
  /-- A connection was put into the queue of a listener. -/
  | accepted (listener : Nat) (handle id : Nat)
  /-- A connection was dropped because its queue was full or gone. -/
  | turnedAway (listener : Nat) (handle : Nat)

/-! ## Looking at what came in -/

inductive Fate
  | waits
  | accepted
  | reclaimed
  deriving DecidableEq

def fate (sockets : SocketSet) (handle : Nat) : Fate :=
  match SocketSet.tcp sockets handle with
  | none => .waits
  | some socket =>
    match socket.state with
    | .listen | .synReceived => .waits
    | .established => .accepted
    | _ => .reclaimed

def Listener.fated (listener : Listener) (sockets : SocketSet) (which : Fate) : List Nat :=
  listener.pending.filter fun handle => fate sockets handle = which

def Listener.engaged (listener : Listener) (sockets : SocketSet) : Nat :=
  (listener.fated sockets .accepted).length + (listener.fated sockets .reclaimed).length

def PendingResolve.outcome (lookup : PendingResolve) (data : List UInt8)
    (now : Instant) : Except NetError IpAddr × Option (IpAddr × Instant) :=
  match Dns.parseResponseTtl data lookup.id lookup.rtype with
  | .ok (ip :: _, ttl) =>
    (.ok ip,
      if 0 < ttl then some (ip, now + min (.fromSecs ttl) dnsCacheMaxTtl)
      else none)
  | .ok ([], _) => (.error .noDnsRecord, none)
  | .error .noAddress => (.error .noDnsRecord, none)
  | .error _ => (.error .connectFailed, none)

inductive Ending
  | heard (datagram : Datagram)
  | late
  deriving DecidableEq

/-- Whether a lookup is over. The datagram that is taken goes with its socket,
which is removed as soon as the lookup is over. -/
def PendingResolve.ending (lookup : PendingResolve) (sockets : SocketSet)
    (now : Instant) : Option Ending :=
  match SocketSet.udp sockets lookup.handle with
  | none => none
  | some socket =>
    match socket.rx with
    | datagram :: _ => some (.heard datagram)
    | [] => if lookup.deadline ≤ now then some .late else none

/-! ## The engine -/

structure Engine where
  sockets : SocketSet := Arena.empty
  conns : List Conn := []
  links : HashMap Nat Link := .empty
  resolvers : List PendingResolve := []
  dnsCache : HashMap (List UInt8 × Dns.RecordType) (IpAddr × Instant) := .empty
  udpFlows : List UdpFlow := []
  listeners : List Listener := []
  nextConnId : Nat := 0
  nextPort : UInt16
  usedPorts : Finset UInt16 := ∅
  dnsServer : Ipv4Addr
  tcpBufferBytes : Nat
  log : List Event := []

namespace Engine

/-- A fresh engine; the first port is drawn at random. -/
def spawn (dnsServer : Ipv4Addr) (tcpBufferBytes : Nat) (seed : UInt16) : Engine where
  nextPort := ephemeralBase + seed % (65535 - ephemeralBase)
  dnsServer := dnsServer
  tcpBufferBytes := tcpBufferBytes

def note (engine : Engine) (event : Event) : Engine :=
  { engine with log := engine.log ++ [event] }

/-! ## Ports -/

def portAfter (port : UInt16) : UInt16 :=
  if port = 65535 then ephemeralBase else port + 1

def allocPortFrom : Nat → Engine → Option UInt16 × Engine
  | 0, engine => (none, engine)
  | tries + 1, engine =>
    let port := engine.nextPort
    let moved := { engine with nextPort := portAfter port }
    if port ∈ engine.usedPorts then allocPortFrom tries moved
    else (some port, { moved with usedPorts := insert port moved.usedPorts })

def allocPort (engine : Engine) : Option UInt16 × Engine := allocPortFrom ephemeralPorts engine

def freePort (engine : Engine) (port : UInt16) : Engine :=
  { engine with usedPorts := engine.usedPorts.erase port }

def removeSocket (engine : Engine) (handle : Nat) : Engine :=
  { engine with sockets := Arena.remove engine.sockets handle }

/-! ## Connects -/

def track (engine : Engine) (handle : Nat) (localPort : UInt16)
    (deadline : Instant) (connect : Option Nat) (holder : Holder) : Engine :=
  { engine with
    conns := engine.conns ++ [{ id := engine.nextConnId, handle, localPort, deadline, connect }]
    links := engine.links.insert engine.nextConnId { holder }
    nextConnId := engine.nextConnId + 1 }

def openOn (request : Nat) (routable : Bool) (now : Instant) (handle : Nat) :
    Option UInt16 × Engine → Engine
  | (none, engine) => (engine.removeSocket handle).note (.replied request (.failed .connectFailed))
  | (some port, engine) =>
    if routable then
      { engine with
        sockets := Arena.set engine.sockets handle
          (.tcp (Tcp.Socket.connect { capacity := engine.tcpBufferBytes })) }.track
        handle port (now + connectTimeout) (some request) (.reply true)
    else
      ((engine.removeSocket handle).freePort port).note (.replied request (.failed .connectFailed))

/-- Start to connect; the stack may find that it has no route. -/
def openTcp (engine : Engine) (request : Nat) (routable : Bool) (now : Instant) : Engine :=
  let added := Arena.add engine.sockets
    (.tcp { capacity := engine.tcpBufferBytes })
  openOn request routable now added.1 (allocPort { engine with sockets := added.2 })

/-! ## Listeners -/

def newListenSocket (sockets : SocketSet) (port : UInt16) (bytes : Nat) :
    Option (Nat × SocketSet) :=
  let added := Arena.add sockets (.tcp { capacity := bytes })
  match Tcp.Socket.listen { capacity := bytes } port with
  | some socket => some (added.1, Arena.set added.2 added.1 (.tcp socket))
  | none => none

/-- The backlog of a new listener; a port that cannot be listened on gives
back the sockets. -/
def newBacklog (port : UInt16) (bytes : Nat) : Nat → SocketSet → Option (List Nat × SocketSet)
  | 0, sockets => some ([], sockets)
  | count + 1, sockets => do
    let (handle, sockets) ← newListenSocket sockets port bytes
    let (handles, sockets) ← newBacklog port bytes count sockets
    some (handle :: handles, sockets)

def startListen (engine : Engine) (request : Nat) (port : UInt16) : Engine :=
  match newBacklog port engine.tcpBufferBytes listenBacklog engine.sockets with
  | none => engine.note (.replied request (.failed .connectFailed))
  | some (pending, sockets) =>
    { engine with
      sockets
      listeners := engine.listeners ++ [({ port := port, pending := pending } : Listener)] }.note
      (.replied request .listener)

/-- Hand one accepted connection to the application, or drop it. -/
def acceptOne (now : Instant) (engine : Engine) (place handle : Nat) : Engine :=
  match engine.listeners[place]? with
  | none => engine
  | some listener =>
    if listener.held && decide (listener.queue.length < acceptChannelDepth) then
      { engine.track handle 0 now none .queue with
        listeners := engine.listeners.set place
          { listener with queue := listener.queue ++ [engine.nextConnId] } }.note
        (.accepted place handle engine.nextConnId)
    else
      (engine.removeSocket handle).note (.turnedAway place handle)

def refillOne (engine : Engine) (port : UInt16) : Engine :=
  match newListenSocket engine.sockets port engine.tcpBufferBytes with
  | none => engine
  | some (handle, sockets) =>
    match engine.listeners.findIdx? (fun listener => listener.port = port) with
    | none => engine
    | some place =>
      { engine with
        sockets
        listeners := engine.listeners.modify place fun listener =>
          { listener with pending := listener.pending ++ [handle] } }

def removeListener (engine : Engine) (place : Nat) : Engine :=
  match engine.listeners[place]? with
  | none => engine
  | some listener =>
    { engine with
      listeners := swapRemove engine.listeners place
      sockets := listener.pending.foldl Arena.remove engine.sockets }

def live (engine : Engine) : List (Listener × Nat) :=
  engine.listeners.zipIdx.filter fun entry => entry.1.held

/-- The waiting sockets whose handshake is over, with the places of their
listeners. -/
def accepted (engine : Engine) : List (Nat × Nat) :=
  engine.live.flatMap fun entry =>
    (entry.1.fated engine.sockets .accepted).map fun handle => (entry.2, handle)

def reclaimed (engine : Engine) : List Nat :=
  engine.live.flatMap fun entry => entry.1.fated engine.sockets .reclaimed

def refills (engine : Engine) : List (UInt16 × Nat) :=
  engine.live.map fun entry => (entry.1.port, entry.1.engaged engine.sockets)

def dead (engine : Engine) : List Nat :=
  (engine.listeners.zipIdx.filter fun entry => !entry.1.held).map Prod.snd

def retain (engine : Engine) : Engine :=
  { engine with
    listeners := engine.listeners.map fun listener =>
      if listener.held then
        { listener with pending := listener.fated engine.sockets .waits }
      else listener }

def refillMany (engine : Engine) (refill : UInt16 × Nat) : Engine :=
  (List.replicate refill.2 refill.1).foldl refillOne engine

def handOn (engine : Engine) (now : Instant) : Engine :=
  engine.accepted.foldl (fun engine entry => acceptOne now engine entry.1 entry.2)
    (engine.reclaimed.foldl removeSocket engine.retain)

def acceptListeners (engine : Engine) (now : Instant) : Engine :=
  engine.dead.reverse.foldl removeListener (engine.refills.foldl refillMany (engine.handOn now))

/-! ## Name lookups -/

def resolver (engine : Engine) : SocketAddr := ⟨.v4 engine.dnsServer, dnsPort⟩

def cached (engine : Engine) (name : List UInt8) (rtype : Dns.RecordType)
    (now : Instant) : Option IpAddr :=
  match engine.dnsCache.get (name, rtype) with
  | some (ip, expiry) => if now < expiry then some ip else none
  | none => none

def failResolve (engine : Engine) (request : Nat) (name : List UInt8)
    (rtype : Dns.RecordType) (now : Instant) : Engine :=
  engine.note (.lookedUp request name rtype (.error .connectFailed) now)

def resolveOn (request : Nat) (name : List UInt8) (rtype : Dns.RecordType)
    (id : UInt16) (now : Instant) (query : List UInt8) (handle : Nat) :
    Option UInt16 × Engine → Engine
  | (none, engine) =>
    (engine.removeSocket handle).failResolve request name rtype now
  | (some localPort, engine) =>
    match UdpSocket.sendSlice { port := localPort, slots := dnsSlots }
        query engine.resolver with
    | none =>
      ((engine.removeSocket handle).freePort localPort).failResolve request
        name rtype now
    | some socket =>
      { engine with
        sockets := Arena.set engine.sockets handle (.udp socket)
        resolvers := engine.resolvers ++
          [({ handle, localPort, id, name, rtype, request
              deadline := now + dnsTimeout
              query
              nextRetx := now + dnsRetxInitial
              retxInterval := dnsRetxInitial } : PendingResolve)] }.note
        (.queried name rtype id)

def startResolve (engine : Engine) (request : Nat) (name : List UInt8)
    (rtype : Dns.RecordType) (id : UInt16) (now : Instant) : Engine :=
  match engine.cached name rtype now with
  | some ip => engine.note (.lookedUp request name rtype (.ok ip) now)
  | none =>
    match Dns.encodeQuery name id rtype with
    | .error _ => engine.failResolve request name rtype now
    | .ok query =>
      let added := Arena.add engine.sockets (.udp { port := 0, slots := dnsSlots })
      resolveOn request name rtype id now query added.1
        (allocPort { engine with sockets := added.2 })

def cacheDns (engine : Engine) (name : List UInt8) (rtype : Dns.RecordType)
    (ip : IpAddr) (expiry now : Instant) : Engine :=
  let pruned :=
    if dnsCacheCap ≤ engine.dnsCache.size then
      let fresh := engine.dnsCache.retain fun _ entry => decide (now < entry.2)
      if dnsCacheCap ≤ fresh.size then .empty else fresh
    else engine.dnsCache
  { engine with dnsCache := pruned.insert (name, rtype) (ip, expiry) }

def finishResolve (now : Instant) (engine : Engine) (place : Nat) (ending : Ending) : Engine :=
  match engine.resolvers[place]? with
  | none => engine
  | some lookup =>
    let reaped := { (engine.removeSocket lookup.handle).freePort lookup.localPort
      with resolvers := swapRemove engine.resolvers place }
    match ending with
    | .late =>
      reaped.note (.lookedUp lookup.request lookup.name lookup.rtype (.error .connectTimeout) now)
    | .heard datagram =>
      let outcome := lookup.outcome datagram.1 now
      let kept :=
        match outcome.2 with
        | some (ip, expiry) => reaped.cacheDns lookup.name lookup.rtype ip expiry now
        | none => reaped
      (kept.note (.heard lookup datagram now)).note
        (.lookedUp lookup.request lookup.name lookup.rtype outcome.1 now)

def finished (engine : Engine) (now : Instant) : List (Nat × Ending) :=
  engine.resolvers.zipIdx.filterMap fun entry =>
    (entry.1.ending engine.sockets now).map fun ending => (entry.2, ending)

/-- The last places first, so that the others stay valid. -/
def drainResolvers (engine : Engine) (now : Instant) : Engine :=
  (engine.finished now).reverse.foldl
    (fun engine entry => finishResolve now engine entry.1 entry.2) engine

def retransmitOne (dst : SocketAddr) (now : Instant) (sockets : SocketSet)
    (lookup : PendingResolve) : SocketSet × PendingResolve :=
  if now < lookup.nextRetx then (sockets, lookup)
  else
    let sent :=
      match (SocketSet.udp sockets lookup.handle).bind
          (·.sendSlice lookup.query dst) with
      | some socket => Arena.set sockets lookup.handle (.udp socket)
      | none => sockets
    (sent, { lookup with
      retxInterval := lookup.retxInterval * 2
      nextRetx := now + lookup.retxInterval * 2 })

def retransmitResolvers (engine : Engine) (now : Instant) : Engine :=
  let walked := walk (retransmitOne engine.resolver now) engine.sockets
    engine.resolvers
  { engine with sockets := walked.1, resolvers := walked.2 }

/-! ## Datagram flows -/

def udpOn (request handle : Nat) : Option UInt16 × Engine → Engine
  | (none, engine) => (engine.removeSocket handle).note (.replied request (.failed .connectFailed))
  | (some localPort, engine) =>
    { engine with
      sockets := Arena.set engine.sockets handle (.udp { port := localPort, slots := udpSlots })
      udpFlows := engine.udpFlows ++
        [({ handle := handle, localPort := localPort } : UdpFlow)] }.note
      (.replied request .flow)

def startUdp (engine : Engine) (request : Nat) : Engine :=
  let added := Arena.add engine.sockets (.udp { port := 0, slots := udpSlots })
  udpOn request added.1 (allocPort { engine with sockets := added.2 })

/-- A full socket drops the datagram. -/
def sendOne (socket : UdpSocket) (datagram : Datagram) : UdpSocket :=
  (socket.sendSlice datagram.1 datagram.2).getD socket

def pumpFlow (sockets : SocketSet) (flow : UdpFlow) : SocketSet × UdpFlow :=
  match SocketSet.udp sockets flow.handle with
  | none => (sockets, flow)
  | some socket =>
    (Arena.set sockets flow.handle (.udp (flow.fromApp.foldl sendOne socket)),
      { flow with fromApp := [] })

def removeFlow (engine : Engine) (place : Nat) : Engine :=
  match engine.udpFlows[place]? with
  | none => engine
  | some flow =>
    { (engine.removeSocket flow.handle).freePort flow.localPort with
      udpFlows := swapRemove engine.udpFlows place }

def pumpUdp (engine : Engine) : Engine :=
  let walked := walk pumpFlow engine.sockets engine.udpFlows
  let pumped := { engine with sockets := walked.1, udpFlows := walked.2 }
  let closed := (pumped.udpFlows.zipIdx.filter fun entry => !entry.1.held).map
    Prod.snd
  closed.reverse.foldl removeFlow pumped

/-- A full or closed channel drops the datagram. -/
def receiveOne (flow : UdpFlow) (datagram : Datagram) : UdpFlow :=
  if flow.held && decide (flow.toApp.length < udpChannelDepth) then
    { flow with toApp := flow.toApp ++ [datagram] }
  else flow

def drainFlow (sockets : SocketSet) (flow : UdpFlow) : SocketSet × UdpFlow :=
  match SocketSet.udp sockets flow.handle with
  | none => (sockets, flow)
  | some socket =>
    (Arena.set sockets flow.handle (.udp { socket with rx := [] }), socket.rx.foldl receiveOne flow)

def drainUdp (engine : Engine) : Engine :=
  let walked := walk drainFlow engine.sockets engine.udpFlows
  { engine with sockets := walked.1, udpFlows := walked.2 }

/-! ## Connections -/

def sessionOf (engine : Engine) (conn : Conn) : Option Session :=
  match SocketSet.tcp engine.sockets conn.handle,
      engine.links.get conn.id with
  | some socket, some link => some { conn, socket, link }
  | _, _ => none

def visit (act : Session → Session × Option (Nat × Reply)) (engine : Engine)
    (conn : Conn) : Engine × Conn :=
  match engine.sessionOf conn with
  | none => (engine, conn)
  | some session =>
    let acted := act session
    ({ engine with
        sockets := Arena.set engine.sockets conn.handle (.tcp acted.1.socket)
        links := engine.links.insert conn.id acted.1.link
        log := engine.log ++ acted.2.toList.map fun answer => .replied answer.1 answer.2 },
      acted.1.conn)

def eachConn (engine : Engine) (act : Session → Session × Option (Nat × Reply)) : Engine :=
  let walked := walk (visit act) engine engine.conns
  { walked.1 with conns := walked.2 }

def ingestWrites (engine : Engine) : Engine :=
  engine.eachConn fun session => (session.ingestWrites, none)

def pumpSockets (engine : Engine) : Engine :=
  engine.eachConn fun session => (session.pumpSocket, none)

def reapable (engine : Engine) : List Conn :=
  engine.conns.filter fun conn =>
    match engine.sessionOf conn with
    | some session => session.reapable
    | none => false

/-- Forget a connection; the ends of its channels go with it. -/
def reapOne (engine : Engine) (conn : Conn) : Engine :=
  { (engine.removeSocket conn.handle).freePort conn.localPort with
    conns := engine.conns.filter fun other => other.id ≠ conn.id
    links := engine.links.modify conn.id fun link =>
      { link with engineEnd := false } }

def drainSockets (engine : Engine) (now : Instant) : Engine :=
  let drained := engine.eachConn fun session => session.drainSocket now
  drained.reapable.foldl reapOne drained

/-! ## Applications -/

def onStream (engine : Engine) (id : Nat) (act : Link → Link) : Engine :=
  { engine with
    links := engine.links.modify id fun link =>
      if link.holder = .application then act link else link }

def handOver (engine : Engine) (id : Nat) (old new : Holder) : Engine :=
  { engine with
    links := engine.links.modify id fun link =>
      if link.holder = old then { link with holder := new } else link }

def accept (engine : Engine) (place : Nat) : Engine :=
  match engine.listeners[place]? with
  | none => engine
  | some listener =>
    match listener.queue with
    | [] => engine
    | id :: rest =>
      { engine with
        listeners := engine.listeners.set place { listener with queue := rest }
        }.handOver id .queue .application

/-- Drop a listener, and the streams in its queue with it. -/
def dropListener (engine : Engine) (place : Nat) : Engine :=
  match engine.listeners[place]? with
  | none => engine
  | some listener =>
    listener.queue.foldl (fun engine id => engine.handOver id .queue .nobody)
      { engine with
        listeners := engine.listeners.set place
          { listener with queue := [], held := false } }

def onFlow (engine : Engine) (place : Nat) (act : UdpFlow → UdpFlow) : Engine :=
  { engine with
    udpFlows := engine.udpFlows.modify place fun flow =>
      if flow.held then act flow else flow }

/-! ## Actions -/

inductive Action
  | openTcp (request : Nat) (routable : Bool) (now : Instant)
  | startResolve (request : Nat) (name : List UInt8) (rtype : Dns.RecordType)
      (id : UInt16) (now : Instant)
  | startUdp (request : Nat)
  | startListen (request : Nat) (port : UInt16)
  | ingestWrites
  | pumpUdp
  | pumpSockets
  | poll (batch : List Delivery)
  | drainSockets (now : Instant)
  | acceptListeners (now : Instant)
  | drainResolvers (now : Instant)
  | retransmitResolvers (now : Instant)
  | drainUdp
  | hangUp (id : Nat)
  | read (id remaining : Nat)
  | write (id : Nat) (buf : List UInt8)
  | shutdown (id : Nat)
  | dropStream (id : Nat)
  | accept (place : Nat)
  | dropListener (place : Nat)
  | sendTo (place : Nat) (datagram : Datagram)
  | recvFrom (place : Nat)
  | dropFlow (place : Nat)
  deriving DecidableEq

def step (engine : Engine) : Action → Engine
  | .openTcp request routable now => engine.openTcp request routable now
  | .startResolve request name rtype id now => engine.startResolve request name rtype id now
  | .startUdp request => engine.startUdp request
  | .startListen request port => engine.startListen request port
  | .ingestWrites => engine.ingestWrites
  | .pumpUdp => engine.pumpUdp
  | .pumpSockets => engine.pumpSockets
  | .poll batch => { engine with sockets := batch.foldl deliver engine.sockets }
  | .drainSockets now => engine.drainSockets now
  | .acceptListeners now => engine.acceptListeners now
  | .drainResolvers now => engine.drainResolvers now
  | .retransmitResolvers now => engine.retransmitResolvers now
  | .drainUdp => engine.drainUdp
  | .hangUp id => engine.handOver id (.reply true) (.reply false)
  | .read id remaining => engine.onStream id fun link => (link.pollRead remaining).2
  | .write id buf => engine.onStream id fun link => (link.pollWrite buf).2
  | .shutdown id => engine.onStream id fun link => link.pollShutdown.2
  | .dropStream id => engine.onStream id Link.dropStream
  | .accept place => engine.accept place
  | .dropListener place => engine.dropListener place
  | .sendTo place datagram =>
    engine.onFlow place fun flow =>
      if flow.fromApp.length < udpChannelDepth then
        { flow with fromApp := flow.fromApp ++ [datagram] }
      else flow
  | .recvFrom place => engine.onFlow place fun flow => { flow with toApp := flow.toApp.tail }
  | .dropFlow place => engine.onFlow place fun flow => { flow with held := false }

def run (engine : Engine) (actions : List Action) : Engine := Execution.run step engine actions

end Engine

end WarrenSdk.Net.Netstack
