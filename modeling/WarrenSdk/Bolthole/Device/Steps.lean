import WarrenSdk.Bolthole.ControlClosing
import WarrenSdk.Bolthole.Device.State
import WarrenSdk.Bolthole.Napt.Steps

/-! # The calls of the gateway device, step by step

Calls on the clones of a device interleave. Every critical section of a lock,
every access to the generation outside of one and every operation on a queue is
one step. The responder's lock is the one under which other shared state is
accessed, so a call that holds it takes several steps; the generation is
accessed under it and without it. -/

namespace WarrenSdk.Bolthole

open Interleaving

namespace Responder

variable {noise : Noise}

def peerIds (responder : Responder noise) : List PeerId := responder.peers.keys

def endpoint (responder : Responder noise) (peer : PeerId) : Option SocketAddr :=
  (responder.peers[peer]?).bind Peer.endpoint

def peerByLabel (responder : Responder noise) (label : PeerLabel) : Option PeerId :=
  responder.byLabel.get label

end Responder

namespace Device

/-- The calls on a device, on the sinks of its epochs and on their control
planes. An epoch is named by the place of the call that began it. -/
inductive Call
  | beginEpoch (addressing : EpochAddressing)
  | openGateFor (generation : UInt64)
  | closeGate
  | noteInnerBudget (budget : Nat)
  | addStaticDnat (dnat : StaticDnat)
  | reload (conf : GatewayConf)
  | resetPeer (label : PeerLabel)
  | tick
  | handleDatagram (src : SocketAddr) (datagram : List UInt8)
  | recvPacket (key : Nat)
  | sendPacket (key : Nat) (packet : List UInt8)
  | dropSink (key : Nat)
  | onControl (key : Nat) (call : ControlClosing.Call)
  | inject (key : Nat) (packet : List UInt8)

inductive Result
  | done
  | began (generation : UInt64)
  | opened (current : Bool)
  | pinned (result : Except CoreError MappingId)
  | reloaded (result : Reloaded)
  | reset (result : Except UnknownPeer Unit)
  | received (result : Except NetError (List UInt8))

/-- Where a call stands: the step that it takes next, or how it ended. -/
inductive Pc
  | beginLoad (addressing : EpochAddressing)
  | beginNat (addressing : EpochAddressing) (generation : UInt64)
  | beginLock (addressing : EpochAddressing) (generation : UInt64)
  | beginBudget (addressing : EpochAddressing) (generation : UInt64)
  | beginPublish (addressing : EpochAddressing) (generation : UInt64)
  | beginUnlock (addressing : EpochAddressing) (generation : UInt64)
  | beginQueue (addressing : EpochAddressing) (generation : UInt64)
  | beginControl (generation : UInt64)
  | openLock (generation : UInt64)
  | openCompare (generation : UInt64)
  | openRefuse
  | openSet (generation : UInt64)
  | closeLock
  | closeLoad
  | closeSet (generation : UInt64)
  | budgetStore (budget : Nat)
  | budgetEpoch (budget : Nat)
  | budgetSet (state : V6State)
  | addStatic (dnat : StaticDnat)
  | reload (conf : GatewayConf)
  | reloadNat (ownership : Ownership) (report : ReloadReport)
  | resetPeer (label : PeerLabel)
  | flushPeer (peer : PeerId)
  | tick
  | sweep (now : Instant)
  | datagramOpen (src : SocketAddr) (datagram : List UInt8)
  | datagramStamp (peer : PeerId) (packet : List UInt8) (decryptedUnder : UInt64)
  | datagramQueue (item : UplinkItem)
  | datagramLoop (peer : PeerId) (packet : List UInt8)
  | flushStart
  | flushing (peers : List PeerId)
  | recvCheck (key : Nat)
  | recvControl (key : Nat)
  | recvUplink (key : Nat)
  | recvRelease (key : Nat) (item : UplinkItem)
  | recvTranslate (key : Nat) (item : UplinkItem)
  | sendCheck (key : Nat) (packet : List UInt8)
  | sendDeliver (key : Nat) (packet : List UInt8)
  | sendTranslate (packet : List UInt8)
  | sendEncapsulate (peer : PeerId) (packet : List UInt8)
  | dropStart (key : Nat)
  | dropDrain (key : Nat) (generation : UInt64)
  | dropStop (key : Nat) (generation : UInt64)
  | dropFlows (key : Nat) (generation : UInt64)
  | dropCheck (key : Nat) (generation : UInt64)
  | dropGate (key : Nat) (generation : UInt64)
  | dropFields (key : Nat)
  | onControl (key : Nat) (pc : ControlClosing.Pc)
  | inject (key : Nat) (packet : List UInt8)
  | returned (result : Result)

/-- What happens to the gate, and what leaves the device. A sink that was
dropped `shut` the gate, or left it alone. -/
inductive Event
  | began (generation : UInt64)
  | published (generation : UInt64)
  | opened (generation : UInt64)
  | closed (generation : UInt64)
  | dropped (generation : UInt64) (shut : Bool)
  | received (key : Nat) (item : UplinkItem) (packet : List UInt8)
  | sent (endpoint : SocketAddr) (datagram : List UInt8)
  deriving DecidableEq

/-- What a step reads beside the device: the protocol library's surroundings,
the clocks, the buffer, and what randomness and iteration order give. -/
structure Input (noise : Noise) where
  ambient : noise.Ambient
  now : Instant
  wall : SystemTime
  scratch : List UInt8
  draw : Nat
  rank : MappingId → Nat

variable {noise : Noise} (engine : ChecksumEngine)

abbrev Stepped (noise : Noise) := Interleaving.Outcome (Device noise) Pc Event

def enter : Call → Pc
  | .beginEpoch addressing => .beginLoad addressing
  | .openGateFor generation => .openLock generation
  | .closeGate => .closeLock
  | .noteInnerBudget budget => .budgetStore budget
  | .addStaticDnat dnat => .addStatic dnat
  | .reload conf => .reload conf
  | .resetPeer label => .resetPeer label
  | .tick => .tick
  | .handleDatagram src datagram => .datagramOpen src datagram
  | .recvPacket key => .recvCheck key
  | .sendPacket key packet => .sendCheck key packet
  | .dropSink key => .dropStart key
  | .onControl key call => .onControl key (ControlClosing.enter call)
  | .inject key packet => .inject key packet

/-! ## Critical sections -/

def locked (device : Device noise) (stepped : Stepped noise) : Option (Stepped noise) :=
  if device.responderLock = none then some stepped else none

/-- The epoch that a call is on; the call waits for ever if there is none. -/
def withEpoch (device : Device noise) (key : Nat)
    (stepped : Epoch → Option (Stepped noise)) : Option (Stepped noise) :=
  (device.epochs.get key).bind stepped

def lock (device : Device noise) (place : Nat) : Device noise :=
  { device with responderLock := some place }

def unlock (device : Device noise) : Device noise :=
  { device with responderLock := none }

def sends : Except RouteError Encapsulated → List Event
  | .ok (.sent endpoint bytes) => [.sent endpoint bytes]
  | .ok (.deferred (some (endpoint, bytes))) => [.sent endpoint bytes]
  | .ok (.deferred none) | .error _ => []

/-- Decrypt a datagram; what it turned into decides how the call goes on. -/
def openDatagram (device : Device noise) (src : SocketAddr)
    (datagram : List UInt8) (input : Input noise) : Stepped noise :=
  let (inbound, responder) := device.responder.handleDatagram engine
    input.ambient src datagram input.now input.scratch
  let device := { device with responder }
  match inbound with
  | .reply bytes =>
    { shared := device, pc := .flushStart, events := [.sent src bytes] }
  | .uplink peer packet =>
    { shared := device, pc := .datagramStamp peer packet device.generation }
  | .loopback owner packet =>
    { shared := device, pc := .datagramLoop owner packet }
  | .consumed => { shared := device, pc := .flushStart }
  | .dropped _ => { shared := device, pc := .returned .done }

def encapsulate (device : Device noise) (peer : PeerId) (packet : List UInt8)
    (input : Input noise) : Stepped noise :=
  let (result, responder) := device.responder.sendToPeer input.ambient peer
    packet input.scratch
  { shared := { device with responder }
    pc := .returned .done
    events := sends result }

/-- Drain one datagram that was held back for a peer; without one, or without
an endpoint to send it to, the next peer is drained. -/
def flushOne (device : Device noise) (peer : PeerId) (rest : List PeerId)
    (input : Input noise) : Stepped noise :=
  let endpoint := device.responder.endpoint peer
  let (bytes, responder) := device.responder.flush input.ambient peer
    input.scratch
  let device := { device with responder }
  match bytes, endpoint with
  | some bytes, some endpoint =>
    { shared := device
      pc := .flushing (peer :: rest)
      events := [.sent endpoint bytes] }
  | _, _ => { shared := device, pc := .flushing rest }

def tickResponder (device : Device noise) (input : Input noise) : Stepped noise :=
  let (out, responder) := device.responder.tick input.ambient input.now
    input.wall input.scratch
  { shared := { device with responder }
    pc := .sweep input.now
    events := out.map fun entry => .sent entry.1 entry.2 }

def reloadResponder (device : Device noise) (conf : GatewayConf)
    (input : Input noise) : Stepped noise :=
  let (result, responder) := device.responder.reload input.ambient conf
  { shared := { device with responder }
    pc := match result with
      | .ok report => .reloadNat responder.ownership report
      | result => .returned (.reloaded result) }

def resetResponder (device : Device noise) (label : PeerLabel)
    (input : Input noise) : Stepped noise :=
  let (result, responder) := device.responder.resetPeer input.ambient label
  { shared := { device with responder }
    pc := match result, responder.peerByLabel label with
      | .ok (), some peer => .flushPeer peer
      | result, _ => .returned (.reset result) }

/-- Take what waits for the tunnel, the control plane first; the call ends when
nothing waits and the epoch's sender is gone. -/
def takeUplink (device : Device noise) (key : Nat) (epoch : Epoch) : Stepped noise :=
  match epoch.uplink with
  | item :: uplink =>
    { shared := device.modifyEpoch key fun epoch => { epoch with uplink }
      pc := .recvRelease key item }
  | [] =>
    if device.uplinkTx = some key then
      { shared := device, pc := .recvControl key }
    else
      { shared := device, pc := .returned (.received (.error .engineStopped)) }

def takeControl (device : Device noise) (key : Nat) (epoch : Epoch) : Stepped noise :=
  match epoch.controlQueue with
  | packet :: controlQueue =>
    { shared := device.modifyEpoch key fun epoch =>
        { epoch with controlQueue }
      pc := .returned (.received (.ok packet)) }
  | [] => { shared := device, pc := .recvUplink key }

/-- Give a packet's bytes back, and flush the packet if it was queued under
another epoch. -/
def releaseUplink (device : Device noise) (key : Nat) (epoch : Epoch)
    (item : UplinkItem) : Stepped noise :=
  let device := device.modifyEpoch key fun epoch => epoch.release item
  if item.generation = epoch.generation then
    { shared := device, pc := .recvTranslate key item }
  else { shared := device.countStaleFlushed, pc := .recvCheck key }

def translateUplink (device : Device noise) (key : Nat) (item : UplinkItem)
    (input : Input noise) : Stepped noise :=
  let (result, packet, nat) := device.nat.translateUplink engine item.peer
    item.packet input.now input.draw
  let device := { device with nat }
  match result with
  | .ok () =>
    { shared := device
      pc := .returned (.received (.ok packet))
      events := [.received key item packet] }
  | .error _ => { shared := device, pc := .recvCheck key }

def translateDownlink (device : Device noise) (packet : List UInt8)
    (input : Input noise) : Stepped noise :=
  let (result, packet, nat) := device.nat.translateDownlink engine packet
    input.now
  let device := { device with nat }
  match result with
  | .ok translated =>
    { shared := device, pc := .sendEncapsulate translated.peer packet }
  | .error _ => { shared := device.countUnroutable, pc := .returned .done }

def deliverControl (device : Device noise) (key : Nat) (epoch : Epoch)
    (packet : List UInt8) : Stepped noise :=
  let (owned, demux) := epoch.control.demux.deliver packet
  let device := device.modifyEpoch key fun epoch =>
    { epoch with control.demux := demux }
  if owned then
    { shared := device.countControlDelivered, pc := .returned .done }
  else { shared := device, pc := .sendTranslate packet }

def drainUplink (device : Device noise) (key : Nat) (generation : UInt64)
    (epoch : Epoch) : Stepped noise :=
  match epoch.uplink with
  | _ :: uplink =>
    { shared := (device.modifyEpoch key fun epoch =>
        { epoch with uplink }).countStaleFlushed
      pc := .dropDrain key generation }
  | [] => { shared := device, pc := .dropStop key generation }

def stepControl (device : Device noise) (key : Nat) (epoch : Epoch)
    (pc : ControlClosing.Pc) : Option (Stepped noise) :=
  (ControlClosing.next epoch.control pc).map fun outcome =>
    { shared := device.modifyEpoch key fun epoch =>
        { epoch with control := outcome.shared }
      pc := .onControl key outcome.pc }

/-! ## Steps -/

def next (device : Device noise) (place : Nat) (pc : Pc)
    (input : Input noise) : Option (Stepped noise) :=
  match pc with
  -- The device's own counter is what a stale sink is recognised by.
  | .beginLoad addressing =>
    some {
      shared := device
      pc := .beginNat addressing (nextGeneration device.generation addressing) }
  | .beginNat addressing generation =>
    some {
      shared := device.setExternal input.rank place addressing generation
      pc := .beginLock addressing generation }
  | .beginLock addressing generation =>
    device.locked {
      shared := ((device.lock place).setGate false generation).setIpv6
        (device.ipv6StateAtBegin addressing)
      pc := .beginBudget addressing generation
      events := [.began generation] }
  | .beginBudget addressing generation =>
    some {
      shared := device.storeBudget 0
      pc := .beginPublish addressing generation }
  | .beginPublish addressing generation =>
    some {
      shared := device.publish generation
      pc := .beginUnlock addressing generation
      events := [.published generation] }
  | .beginUnlock addressing generation =>
    some { shared := device.unlock, pc := .beginQueue addressing generation }
  | .beginQueue addressing generation =>
    some {
      shared := device.openQueue place addressing generation
      pc := .beginControl generation }
  | .beginControl generation =>
    some {
      shared := (device.setControl place).modifyEpoch place fun epoch =>
        { epoch with held := true }
      pc := .returned (.began generation) }
  -- The generation is compared under the lock that it is published under.
  | .openLock generation =>
    device.locked { shared := device.lock place, pc := .openCompare generation }
  | .openCompare generation =>
    if device.generation = generation then
      some { shared := device, pc := .openSet generation }
    else some { shared := device, pc := .openRefuse }
  | .openRefuse => some { shared := device.unlock, pc := .returned (.opened false) }
  | .openSet generation =>
    some {
      shared := (device.setGate true generation).unlock
      pc := .returned (.opened true)
      events := [.opened generation] }
  | .closeLock => device.locked { shared := device.lock place, pc := .closeLoad }
  | .closeLoad => some { shared := device, pc := .closeSet device.generation }
  | .closeSet generation =>
    some {
      shared := (device.setGate false generation).unlock
      pc := .returned .done
      events := [.closed generation] }
  | .budgetStore budget => some { shared := device.storeBudget budget, pc := .budgetEpoch budget }
  | .budgetEpoch budget => some { shared := device, pc := .budgetSet (device.v6StateFor budget) }
  | .budgetSet state => device.locked { shared := device.setIpv6 state, pc := .returned .done }
  | .addStatic dnat =>
    let (result, nat) := device.nat.addStatic dnat input.now
    some { shared := { device with nat }, pc := .returned (.pinned result) }
  | .reload conf => device.locked (device.reloadResponder conf input)
  | .reloadNat ownership report =>
    some {
      shared := { device with nat := device.nat.setOwnership ownership }
      pc := .returned (.reloaded (.ok report)) }
  | .resetPeer label => device.locked (device.resetResponder label input)
  | .flushPeer peer =>
    some {
      shared := { device with nat := device.nat.flushPeer input.rank peer }
      pc := .returned (.reset (.ok ())) }
  | .tick => device.locked (device.tickResponder input)
  | .sweep now =>
    some {
      shared := { device with nat := (device.nat.sweep now).2 }
      pc := .returned .done }
  | .datagramOpen src datagram => device.locked (device.openDatagram engine src datagram input)
  -- The generation is read after the responder's lock was released.
  | .datagramStamp peer packet decryptedUnder =>
    some {
      shared := device
      pc := .datagramQueue
        { generation := device.generation, peer, packet, decryptedUnder } }
  | .datagramQueue item => some { shared := device.queueUplink item, pc := .returned .done }
  | .datagramLoop peer packet => device.locked (device.encapsulate peer packet input)
  | .flushStart => device.locked { shared := device, pc := .flushing device.responder.peerIds }
  | .flushing [] => some { shared := device, pc := .returned .done }
  | .flushing (peer :: rest) => device.locked (device.flushOne peer rest input)
  | .recvCheck key =>
    device.withEpoch key fun epoch =>
      if epoch.held = false then none
      else if device.generation = epoch.generation then
        some { shared := device, pc := .recvControl key }
      else
        some {
          shared := device
          pc := .returned (.received (.error .engineStopped)) }
  | .recvControl key => device.withEpoch key fun epoch => some (device.takeControl key epoch)
  | .recvUplink key => device.withEpoch key fun epoch => some (device.takeUplink key epoch)
  | .recvRelease key item => device.withEpoch key fun epoch =>
    some (device.releaseUplink key epoch item)
  | .recvTranslate key item => some (device.translateUplink engine key item input)
  | .sendCheck key packet =>
    device.withEpoch key fun epoch =>
      if epoch.held = false then none
      else if device.generation = epoch.generation then
        some { shared := device, pc := .sendDeliver key packet }
      else some { shared := device.countStaleSend, pc := .returned .done }
  | .sendDeliver key packet => device.withEpoch key fun epoch =>
    some (device.deliverControl key epoch packet)
  | .sendTranslate packet => some (device.translateDownlink engine packet input)
  | .sendEncapsulate peer packet => device.locked (device.encapsulate peer packet input)
  | .dropStart key =>
    device.withEpoch key fun epoch =>
      if epoch.held = false then none
      else
        some {
          shared := device.modifyEpoch key fun epoch =>
            { epoch with held := false }
          pc := .dropDrain key epoch.generation }
  | .dropDrain key generation => device.withEpoch key fun epoch =>
    some (device.drainUplink key generation epoch)
  | .dropStop key generation =>
    some {
      shared := device.modifyEpoch key fun epoch =>
        { epoch with control := epoch.control.stop }
      pc := .dropFlows key generation }
  | .dropFlows key generation =>
    some {
      shared := device.modifyEpoch key fun epoch =>
        { epoch with control := epoch.control.closeFlows }
      pc := .dropCheck key generation }
  -- Whether the sink is stale is read before the responder's lock is taken.
  | .dropCheck key generation =>
    if device.generation = generation then
      some { shared := device, pc := .dropGate key generation }
    else
      some {
        shared := device
        pc := .dropFields key
        events := [.dropped generation false] }
  | .dropGate key generation =>
    device.locked {
      shared := device.setGate false generation
      pc := .dropFields key
      events := [.dropped generation true] }
  | .dropFields key =>
    some {
      shared := device.modifyEpoch key Epoch.close
      pc := .returned .done }
  | .onControl key pc => device.withEpoch key fun epoch => device.stepControl key epoch pc
  | .inject key packet =>
    some {
      shared := device.modifyEpoch key fun epoch => epoch.inject packet
      pc := .returned .done }
  | .returned _ => none

def program : Program (Device noise) Pc Event Call (Input noise) where
  enter := enter
  next := next engine

def start (device : Device noise) : World (Device noise) Pc Event where
  shared := device
  calls := []
  log := []

def run (device : Device noise) (schedule : List (Action Call (Input noise))) :
    World (Device noise) Pc Event :=
  Interleaving.run (program engine) (start device) schedule

end Device

/-! ## A small world

A protocol library without encryption: every datagram is a packet of the first
peer, and every packet for a peer is sent as it is. -/

namespace Device.Sample

def noise : Noise where
  Tunn := Unit
  RateLimiter := Unit
  Init := PeerPublicKey
  Ambient := Unit
  newLimiter _ _ _ := ()
  resetCount _ _ := ()
  verifyPacket _ _ _ _ := (.ok (.packetData 0x100), ())
  parseHandshakeAnon _ init := some init
  newTunn _ _ _ _ _ _ := ()
  decapsulate _ _ _ _ datagram _ :=
    ⟨.writeToTunnelV4 datagram (.ofOctets (Bytes.slice datagram 12 4)), datagram, (), ()⟩
  encapsulate _ _ _ packet _ := ⟨.writeToNetwork packet, packet, (), ()⟩
  updateTimers _ _ _ scratch := ⟨.done, scratch, (), ()⟩
  dstAddress packet := some (.v4 (.ofOctets (Bytes.slice packet 16 4)))

def opened : Except ConfError (Device noise) :=
  Device.new () Responder.Sample.initial .default {} (.fromSeed 2 0) Napt.Sample.config true

def device : Device noise :=
  opened.toOption.getD (idle (.vacant () Responder.Sample.initial .default {} (.fromSeed 2 0))
    Napt.Sample.config true)

theorem built : opened = .ok device := by
  have accepted : opened.isOk = true := by decide +kernel
  unfold device
  cases outcome : opened with
  | error refusal =>
    rw [outcome] at accepted
    cases accepted
  | ok device => rfl

def input : Input noise where
  ambient := ()
  now := 0
  wall := 0
  scratch := []
  draw := 0
  rank := MappingId.value

def addressing (generation : UInt64) (host : UInt8) : EpochAddressing where
  exit := Napt.Sample.exit
  generation := generation
  ipv4 := .ofOctets [10, 66, 0, host]
  gateway := .ofOctets [10, 66, 0, 1]
  ipv6Address := none

def advances (place steps : Nat) : List (Action Call (Input noise)) :=
  List.replicate steps (.advance place input)

def begins (place : Nat) (generation : UInt64) (host : UInt8) : List (Action Call (Input noise)) :=
  .start (.beginEpoch (addressing generation host)) :: advances place 8

def opens (place : Nat) (generation : UInt64) : List (Action Call (Input noise)) :=
  .start (.openGateFor generation) :: advances place 3

end Device.Sample

end WarrenSdk.Bolthole
