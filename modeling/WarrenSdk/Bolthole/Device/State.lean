import WarrenSdk.Bolthole.Control
import WarrenSdk.Bolthole.Napt.Translate
import WarrenSdk.Bolthole.Responder.Ownership
import WarrenSdk.Foundation.Interleaving

/-! # The state of the gateway device

The device is the shell around the responder and the translator: it outlives
every tunnel under it and is handed one epoch at a time. Its responder and its
translator are each behind a lock; the generation is a counter of its own, read
with and without the lock.

The datagrams that leave are announced, not queued: which socket carries them
away never feeds back into the device. -/

namespace WarrenSdk.Bolthole

/-- Under this path budget IPv6 is withdrawn. -/
def ipv6MinMtu : Nat := 1280

def defaultUplinkDepth : Nat := 2048

def uplinkBytesMax : Nat := 4 * 1024 * 1024

def controlDepth : Nat := 64

/-- The addresses that one epoch was assigned, and which epoch they are of. -/
structure EpochAddressing where
  exit : ExitId
  generation : UInt64
  ipv4 : Ipv4Addr
  gateway : Ipv4Addr
  ipv6Address : Option Ipv6Addr
  deriving DecidableEq

/-- A decrypted peer packet that waits for the tunnel. `decryptedUnder` is a
history variable, the generation that was current when the packet was
decrypted; nothing reads it. -/
structure UplinkItem where
  generation : UInt64
  peer : PeerId
  packet : List UInt8
  decryptedUnder : UInt64
  deriving DecidableEq

/-- One epoch's packet plane: its sink and the queues behind it. The addressing
is what the epoch was begun with, `held` says that the sink is in its owner's
hands, and `receiving` that the receivers it owns are not dropped yet. -/
structure Epoch where
  generation : UInt64
  addressing : EpochAddressing
  held : Bool
  receiving : Bool
  uplink : List UplinkItem
  uplinkQueued : Nat
  control : GatewayControl
  controlQueue : List (List UInt8)

structure DeviceCounters where
  uplinkQueueFull : Nat := 0
  uplinkStaleFlushed : Nat := 0
  staleEpochSend : Nat := 0
  controlDelivered : Nat := 0
  downlinkUnroutable : Nat := 0
  deriving DecidableEq

/-- Epochs are known by the call that began them. `pointed` is a history
variable: the call that last pointed the translator at its addresses. -/
structure Device (noise : Noise) where
  responder : Responder noise
  responderLock : Option Nat
  nat : Napt
  pointed : Option (Nat × EpochAddressing)
  generation : UInt64
  innerBudget : Nat
  ipv6Requested : Bool
  epochs : HashMap Nat Epoch
  uplinkTx : Option Nat
  control : Option Nat
  counters : DeviceCounters

namespace Epoch

def begun (addressing : EpochAddressing) (generation : UInt64) : Epoch where
  generation := generation
  addressing := addressing
  held := false
  receiving := true
  uplink := []
  uplinkQueued := 0
  control := .new .new addressing.ipv4 addressing.gateway
  controlQueue := []

def trySend (epoch : Epoch) (item : UplinkItem) : Bool × Epoch :=
  if uplinkBytesMax < epoch.uplinkQueued + item.packet.length then
    (false, epoch)
  else if epoch.receiving && epoch.uplink.length < defaultUplinkDepth then
    (true, { epoch with
      uplink := epoch.uplink ++ [item]
      uplinkQueued := epoch.uplinkQueued + item.packet.length })
  else (false, epoch)

/-- Put a datagram of the control plane into its queue; a full one drops it. -/
def inject (epoch : Epoch) (packet : List UInt8) : Epoch :=
  if epoch.controlQueue.length < controlDepth then
    { epoch with controlQueue := epoch.controlQueue ++ [packet] }
  else epoch

def release (epoch : Epoch) (item : UplinkItem) : Epoch :=
  { epoch with uplinkQueued := epoch.uplinkQueued - item.packet.length }

/-- The receivers go with the sink, and what they still held with them. -/
def close (epoch : Epoch) : Epoch :=
  { epoch with receiving := false, uplink := [], controlQueue := [] }

end Epoch

namespace Device

def idle (responder : Responder noise) (nat : NatConfig) (ipv6 : Bool) : Device noise where
  responder := responder
  responderLock := none
  nat := (Napt.new nat).setOwnership responder.ownership
  pointed := none
  generation := 0
  innerBudget := 0
  ipv6Requested := ipv6
  epochs := .empty
  uplinkTx := none
  control := none
  counters := {}

def new (ambient : noise.Ambient) (conf : GatewayConf) (plan : PeerPlan)
    (options : ResponderOptions) (indexes : IndexGen) (nat : NatConfig)
    (ipv6 : Bool) : Except ConfError (Device noise) := do
  let responder ← Responder.withIndexes ambient conf plan options indexes
  return idle responder nat ipv6

theorem new_ok {nat : NatConfig}
    (built : new ambient conf plan options indexes nat ipv6 = .ok device) : ∃ responder,
      Responder.withIndexes ambient conf plan options indexes = .ok responder ∧
      device = idle responder nat ipv6 := by
  rw [new] at built
  cases opened : Responder.withIndexes ambient conf plan options indexes with
  | error refusal => simp [opened, bind, Except.bind] at built
  | ok responder =>
    simp only [opened, bind, Except.bind, pure, Except.pure, Except.ok.injEq] at built
    exact ⟨responder, rfl, built.symm⟩

/-! ## The pieces of the calls -/

/-- The generation of a new epoch: the supervisor's, unless the device has
already served it. -/
def nextGeneration (previous : UInt64) (addressing : EpochAddressing) :
    UInt64 :=
  max addressing.generation (previous + 1)

def setExternal (device : Device noise) (rank : MappingId → Nat) (key : Nat)
    (addressing : EpochAddressing) (generation : UInt64) : Device noise :=
  { device with
    nat := device.nat.setExternal rank ⟨addressing.exit, generation⟩
      addressing.ipv4 addressing.ipv6Address
    pointed := some (key, addressing) }

def ipv6StateAtBegin (device : Device noise) (addressing : EpochAddressing) :
    V6State :=
  if device.ipv6Requested && addressing.ipv6Address.isSome then .available
  else .noAssignment

def setGate (device : Device noise) («open» : Bool) (generation : UInt64) : Device noise :=
  { device with responder := device.responder.setGate «open» generation }

def setIpv6 (device : Device noise) (state : V6State) : Device noise :=
  { device with responder := device.responder.setIpv6 state }

def storeBudget (device : Device noise) (budget : Nat) : Device noise :=
  { device with innerBudget := budget }

def publish (device : Device noise) (generation : UInt64) : Device noise :=
  { device with generation }

def openQueue (device : Device noise) (key : Nat)
    (addressing : EpochAddressing) (generation : UInt64) : Device noise :=
  { device with
    epochs := device.epochs.insert key (.begun addressing generation)
    uplinkTx := some key }

def setControl (device : Device noise) (key : Nat) : Device noise :=
  { device with control := some key }

def v6StateFor (device : Device noise) (budget : Nat) : V6State :=
  if device.ipv6Requested = false then .noAssignment
  else
    match device.nat.epoch with
    | none => .noAssignment
    | some _ =>
      if budget ≠ 0 && budget < ipv6MinMtu then .budgetTooSmall
      else .available

def modifyEpoch (device : Device noise) (key : Nat) (edit : Epoch → Epoch) : Device noise :=
  { device with epochs := device.epochs.modify key edit }

def countQueueFull (device : Device noise) : Device noise :=
  { device with counters.uplinkQueueFull := device.counters.uplinkQueueFull + 1 }

def countStaleFlushed (device : Device noise) : Device noise :=
  { device with counters.uplinkStaleFlushed := device.counters.uplinkStaleFlushed + 1 }

def countStaleSend (device : Device noise) : Device noise :=
  { device with counters.staleEpochSend := device.counters.staleEpochSend + 1 }

def countControlDelivered (device : Device noise) : Device noise :=
  { device with counters.controlDelivered := device.counters.controlDelivered + 1 }

def countUnroutable (device : Device noise) : Device noise :=
  { device with counters.downlinkUnroutable := device.counters.downlinkUnroutable + 1 }

/-- Put a decrypted packet into the queue of the current epoch; a packet that
does not fit, or comes before the first epoch, is counted. -/
def queueUplink (device : Device noise) (item : UplinkItem) : Device noise :=
  match device.uplinkTx with
  | none => device.countQueueFull
  | some key =>
    match device.epochs.get key with
    | none => device.countQueueFull
    | some epoch =>
      match epoch.trySend item with
      | (true, epoch) =>
        { device with epochs := device.epochs.insert key epoch }
      | (false, _) => device.countQueueFull

end Device

end WarrenSdk.Bolthole
