import WarrenSdk.Bolthole.Device.Steps
import WarrenSdk.Bolthole.Napt.Epoch
import WarrenSdk.Bolthole.Responder.Gate

/-! # The ordinary steps of a device

Most steps have nothing to do with the gate or with the turnover of an epoch.
What they leave as it is is said here once, for the gate, the epochs and the
packets alike. -/

namespace WarrenSdk.Bolthole

open Interleaving

/-- The epoch is the one that was begun, as much alive as it was, and its queue
holds what it held, unless it is one of the `fresh` packets. -/
structure Epoch.Kept (fresh : UplinkItem → Prop) (epoch later : Epoch) : Prop where
  generation : later.generation = epoch.generation
  addressing : later.addressing = epoch.addressing
  alive : later.control.alive = epoch.control.alive
  receiving : later.receiving = epoch.receiving
  uplink : ∀ item ∈ later.uplink, item ∈ epoch.uplink ∨ fresh item

namespace Device

variable {epoch : Epoch}

/-! ## What stays as it is -/

/-- The translator was used, and not pointed at another epoch. -/
structure Used (before after : Napt) : Prop where
  coherent : before.Coherent → after.Coherent
  external : before.Coherent → ∀ family, after.external family = before.external family

theorem Used.refl (nat : Napt) : Used nat nat := ⟨fun coherent => coherent, fun _ _ => rfl⟩

theorem Used.step (engine : ChecksumEngine) (nat : Napt) (op : Napt.Op)
    (other : ∀ family, (match op with
      | .setExternal _ _ v4 v6 =>
        if family then v6.map IpAddr.v6 else some (.v4 v4)
      | _ => nat.external family) = nat.external family) :
    Used nat (nat.step engine op) where
  coherent := fun coherent => Napt.step_coherent engine coherent op
  external := fun coherent family =>
    (Napt.step_external engine coherent op family).trans (other family)

variable {device : Device noise}

theorem kept_of_eq (same : (later.generation, later.addressing, later.control.alive,
      later.receiving, later.uplink) = (epoch.generation, epoch.addressing,
      epoch.control.alive, epoch.receiving, epoch.uplink)) :
    epoch.Kept fresh later := by
  simp only [Prod.mk.injEq] at same
  rcases same with ⟨generation, addressing, alive, receiving, uplink⟩
  exact ⟨generation, addressing, alive, receiving, fun _ member => .inl (uplink ▸ member)⟩

def KeptEpochs (fresh : UplinkItem → Prop) (before after : HashMap Nat Epoch) : Prop :=
  ∀ key, (before.get key = none ∧ after.get key = none) ∨
    ∃ epoch later, before.get key = some epoch ∧ after.get key = some later ∧ epoch.Kept fresh later

theorem KeptEpochs.refl (epochs : HashMap Nat Epoch) : KeptEpochs fresh epochs epochs := by
  intro key
  cases there : epochs.get key with
  | none => exact .inl ⟨rfl, rfl⟩
  | some epoch => exact .inr ⟨epoch, epoch, rfl, rfl, kept_of_eq rfl⟩

theorem KeptEpochs.insert {epochs : HashMap Nat Epoch}
    (there : epochs.get key = some epoch) (kept : epoch.Kept fresh later) :
    KeptEpochs fresh epochs (epochs.insert key later) := by
  intro other
  rw [HashMap.get_insert]
  split
  · rename_i same
    rw [same]
    exact .inr ⟨epoch, later, there, rfl, kept⟩
  · exact KeptEpochs.refl epochs other

theorem KeptEpochs.modify {epochs : HashMap Nat Epoch}
    (kept : ∀ epoch, epochs.get key = some epoch → epoch.Kept fresh (edit epoch)) :
    KeptEpochs fresh epochs (epochs.modify key edit) := by
  rw [HashMap.modify]
  split
  · rename_i epoch there
    exact .insert there (kept epoch there)
  · exact .refl epochs

/-- Neither the gate nor an epoch was turned. -/
structure Unturned (fresh : UplinkItem → Prop) (before after : Device noise) : Prop where
  gate : after.responder.gate = before.responder.gate
  generation : after.generation = before.generation
  lock : after.responderLock = before.responderLock
  pointed : after.pointed = before.pointed
  nat : Used before.nat after.nat
  epochs : KeptEpochs fresh before.epochs after.epochs

theorem Unturned.of_eq (same : (after.responder.gate, after.generation, after.responderLock,
      after.pointed, after.nat, after.epochs) = (before.responder.gate,
      before.generation, before.responderLock, before.pointed, before.nat,
      before.epochs)) : Unturned fresh before after := by
  simp only [Prod.mk.injEq] at same
  rcases same with ⟨gate, generation, lock, pointed, nat, epochs⟩
  exact ⟨gate, generation, lock, pointed, nat ▸ .refl _, epochs ▸ .refl _⟩

/-- The responder changes the gate only when it is told to. -/
theorem Unturned.responder (device : Device noise) {responder : Responder noise}
    (same : responder.gate = device.responder.gate) :
    Unturned fresh device { device with responder } :=
  .of_eq (by rw [same])

theorem Unturned.used {nat : Napt} (used : Used device.nat nat) :
    Unturned fresh device { device with nat } :=
  ⟨rfl, rfl, rfl, rfl, used, .refl _⟩

theorem Unturned.modify (device : Device noise)
    (kept : ∀ epoch, device.epochs.get key = some epoch → epoch.Kept fresh (edit epoch)) :
    Unturned fresh device (device.modifyEpoch key edit) :=
  ⟨rfl, rfl, rfl, rfl, .refl _, .modify kept⟩

/-- A step that turns nothing may be counted. -/
theorem Unturned.counted (unturned : Unturned fresh before after) (counters : DeviceCounters) :
    Unturned fresh before { after with counters } :=
  ⟨unturned.gate, unturned.generation, unturned.lock, unturned.pointed,
    unturned.nat, unturned.epochs⟩

/-! ## Where a call stands -/

/-- A call that is `busy` turns the gate or an epoch over; one that is
`carrying` has a packet of the uplink in its hands, and one that is `passing`
may have one next. -/
inductive Manner
  | ordinary
  | passing
  | carrying
  | busy
  deriving DecidableEq

def Pc.manner : Pc → Manner
  | .beginControl _ | .budgetStore _ | .budgetEpoch _ | .budgetSet _
  | .addStatic _ | .reload _ | .reloadNat .. | .resetPeer _ | .flushPeer _
  | .tick | .sweep _ | .datagramLoop .. | .flushStart | .flushing _
  | .recvCheck _ | .recvControl _ | .sendCheck .. | .sendDeliver ..
  | .sendTranslate _ | .sendEncapsulate .. | .inject .. => .ordinary
  | .datagramOpen .. | .recvUplink _ | .returned _ => .passing
  | .datagramStamp .. | .datagramQueue _ | .recvRelease ..
  | .recvTranslate .. => .carrying
  | _ => .busy

def Manner.isIdle : Manner → Bool
  | .ordinary | .passing => true
  | .carrying | .busy => false

def Event.isQuiet : Event → Bool
  | .dropped _ shut => !shut
  | .received .. | .sent .. => true
  | .began _ | .published _ | .opened _ | .closed _ => false

/-- A step that is about neither the gate nor an epoch. -/
structure Calm (fresh : UplinkItem → Prop) (device : Device noise)
    (stepped : Stepped noise) : Prop where
  unturned : Unturned fresh device stepped.shared
  free : stepped.pc.manner ≠ .busy
  quiet : ∀ event ∈ stepped.events, event.isQuiet = true

/-- A step that is not about a packet of the uplink either. -/
structure Ordinary (fresh : UplinkItem → Prop) (device : Device noise)
    (stepped : Stepped noise) : Prop where
  unturned : Unturned fresh device stepped.shared
  idle : stepped.pc.manner.isIdle = true
  sent : ∀ event ∈ stepped.events, ∃ endpoint datagram, event = .sent endpoint datagram

theorem Ordinary.silent (unturned : Unturned fresh device stepped.shared)
    (idle : stepped.pc.manner.isIdle) (silent : stepped.events = []) :
    Ordinary fresh device stepped :=
  ⟨unturned, idle, by simp [silent]⟩

theorem Ordinary.calm (ordinary : Ordinary fresh device stepped) : Calm fresh device stepped where
  unturned := ordinary.unturned
  free := by
    intro busy
    have idle := ordinary.idle
    rw [busy] at idle
    cases idle
  quiet := by
    intro event member
    rcases ordinary.sent event member with ⟨endpoint, datagram, rfl⟩
    rfl

/-! ## Ordinary steps -/

theorem locked_eq_some (taken : device.locked stepped = some outcome) :
    device.responderLock = none ∧ outcome = stepped := by
  rw [locked] at taken
  split at taken
  · rename_i free
    cases taken
    exact ⟨free, rfl⟩
  · cases taken

theorem withEpoch_eq_some {stepped : Epoch → Option (Stepped noise)}
    (taken : device.withEpoch key stepped = some outcome) :
    ∃ epoch, device.epochs.get key = some epoch ∧ stepped epoch = some outcome :=
  Option.bind_eq_some_iff.mp taken

section

variable (device : Device noise)

theorem encapsulate_ordinary (peer : PeerId) (packet : List UInt8) (input : Input noise) :
    Ordinary fresh device (device.encapsulate peer packet input) where
  unturned := .responder device (Responder.sendToPeer_traffic _ _ _ _ _).gate
  idle := rfl
  sent := by
    intro event member
    change event ∈ sends _ at member
    rw [sends.eq_def] at member
    split at member <;> simp at member <;> exact ⟨_, _, member⟩

theorem flushOne_ordinary (peer : PeerId) (rest : List PeerId) (input : Input noise) :
    Ordinary fresh device (device.flushOne peer rest input) := by
  have same := (Responder.flush_traffic device.responder input.ambient peer input.scratch).gate
  rw [flushOne]
  generalize device.responder.flush input.ambient peer input.scratch = flushed at same
  rcases flushed with ⟨bytes, responder⟩
  cases bytes with
  | none => exact .silent (.responder device same) rfl rfl
  | some bytes =>
    cases device.responder.endpoint peer with
    | none => exact .silent (.responder device same) rfl rfl
    | some endpoint => exact ⟨.responder device same, rfl, by simp⟩

theorem tickResponder_ordinary (input : Input noise) :
    Ordinary fresh device (device.tickResponder input) where
  unturned := .responder device (Responder.tick_traffic _ _ _ _ _).gate
  idle := rfl
  sent := by
    intro event member
    rcases List.mem_map.mp member with ⟨entry, _, rfl⟩
    exact ⟨_, _, rfl⟩

theorem reloadResponder_ordinary (conf : GatewayConf) (input : Input noise) :
    Ordinary fresh device (device.reloadResponder conf input) := by
  have same := Responder.reload_gate device.responder input.ambient conf
  rw [reloadResponder]
  generalize device.responder.reload input.ambient conf = reloaded at same
  rcases reloaded with ⟨result, responder⟩
  cases result <;> exact .silent (.responder device same) rfl rfl

theorem resetResponder_ordinary (label : PeerLabel) (input : Input noise) :
    Ordinary fresh device (device.resetResponder label input) := by
  have same := (Responder.resetPeer_traffic device.responder input.ambient label).gate
  rw [resetResponder]
  generalize device.responder.resetPeer input.ambient label = reset at same
  rcases reset with ⟨result, responder⟩
  refine .silent (.responder device same) ?_ rfl
  cases result with
  | error => rfl
  | ok => cases named : responder.peerByLabel label <;> simp only [named] <;> rfl

theorem takeControl_ordinary (key : Nat) (epoch : Epoch) :
    Ordinary fresh device (device.takeControl key epoch) := by
  rw [takeControl]
  split
  · exact .silent (.modify device fun _ _ => kept_of_eq rfl) rfl rfl
  · exact .silent (.of_eq rfl) rfl rfl

theorem translateDownlink_ordinary (packet : List UInt8) (input : Input noise) :
    Ordinary fresh device (device.translateDownlink engine packet input) := by
  have used : Used device.nat (device.nat.translateDownlink engine packet input.now).2.2 :=
    .step engine device.nat (.translateDownlink packet input.now) fun _ => rfl
  rw [translateDownlink]
  generalize device.nat.translateDownlink engine packet input.now = translated at used
  rcases translated with ⟨result, packet, nat⟩
  cases result with
  | ok => exact .silent (.used used) rfl rfl
  | error => exact .silent ((Unturned.used used).counted _) rfl rfl

theorem deliverControl_ordinary (key : Nat) (epoch : Epoch) (packet : List UInt8) :
    Ordinary fresh device (device.deliverControl key epoch packet) := by
  rw [deliverControl]
  generalize epoch.control.demux.deliver packet = delivered
  rcases delivered with ⟨owned, demux⟩
  have unturned : Unturned fresh device (device.modifyEpoch key fun epoch =>
      { epoch with control.demux := demux }) :=
    .modify device fun _ _ => kept_of_eq rfl
  cases owned with
  | false => exact .silent unturned rfl rfl
  | true => exact .silent (unturned.counted _) rfl rfl

end

theorem inject_kept (epoch : Epoch) (packet : List UInt8) :
    epoch.Kept fresh (epoch.inject packet) := by
  rw [Epoch.inject]
  split <;> exact kept_of_eq rfl

theorem next_ordinary {place : Nat} {pc : Pc}
    (taken : next engine device place pc input = some outcome)
    (ordinary : pc.manner = .ordinary) : Ordinary fresh device outcome := by
  cases pc with
  | beginControl =>
    cases taken
    refine .silent ⟨rfl, rfl, rfl, rfl, .refl _, .modify ?_⟩ rfl rfl
    exact fun _ _ => kept_of_eq rfl
  | budgetStore | budgetEpoch =>
    cases taken
    exact .silent (.of_eq rfl) rfl rfl
  | budgetSet | flushStart =>
    rcases locked_eq_some taken with ⟨_, rfl⟩
    exact .silent (.of_eq rfl) rfl rfl
  | addStatic dnat =>
    cases taken
    exact .silent (.used (.step engine device.nat (.addStatic dnat input.now) fun _ => rfl)) rfl rfl
  | reloadNat ownership =>
    cases taken
    exact .silent (.used (.step engine device.nat (.setOwnership ownership) fun _ => rfl)) rfl rfl
  | flushPeer peer =>
    cases taken
    exact .silent (.used (.step engine device.nat (.flushPeer input.rank peer)
      fun _ => rfl)) rfl rfl
  | sweep now =>
    cases taken
    exact .silent (.used (.step engine device.nat (.sweep now) fun _ => rfl)) rfl rfl
  | reload =>
    rcases locked_eq_some taken with ⟨_, rfl⟩
    exact reloadResponder_ordinary device _ input
  | resetPeer =>
    rcases locked_eq_some taken with ⟨_, rfl⟩
    exact resetResponder_ordinary device _ input
  | tick =>
    rcases locked_eq_some taken with ⟨_, rfl⟩
    exact tickResponder_ordinary device input
  | datagramLoop | sendEncapsulate =>
    rcases locked_eq_some taken with ⟨_, rfl⟩
    exact encapsulate_ordinary device _ _ input
  | flushing peers =>
    cases peers with
    | nil =>
      cases taken
      exact .silent (.of_eq rfl) rfl rfl
    | cons peer rest =>
      rcases locked_eq_some taken with ⟨_, rfl⟩
      exact flushOne_ordinary device peer rest input
  | recvCheck | sendCheck =>
    rcases withEpoch_eq_some taken with ⟨epoch, _, taken⟩
    split at taken
    · cases taken
    · split at taken <;> cases taken <;> exact .silent (.of_eq rfl) rfl rfl
  | recvControl =>
    rcases withEpoch_eq_some taken with ⟨epoch, _, taken⟩
    cases taken
    exact takeControl_ordinary device _ epoch
  | sendDeliver =>
    rcases withEpoch_eq_some taken with ⟨epoch, _, taken⟩
    cases taken
    exact deliverControl_ordinary device _ epoch _
  | sendTranslate =>
    cases taken
    exact translateDownlink_ordinary device _ input
  | inject key packet =>
    cases taken
    exact .silent (.modify device fun epoch _ => inject_kept epoch packet) rfl rfl
  | _ => cases ordinary

/-! ## Steps of a packet -/

theorem openDatagram_calm (device : Device noise) (src : SocketAddr)
    (datagram : List UInt8) (input : Input noise) :
    Calm fresh device (device.openDatagram engine src datagram input) := by
  have same := (Responder.handleDatagram_traffic engine device.responder
    input.ambient src datagram input.now input.scratch).gate
  rw [openDatagram]
  generalize device.responder.handleDatagram engine input.ambient src datagram
    input.now input.scratch = handled at same
  rcases handled with ⟨inbound, responder⟩
  have unturned : Unturned fresh device { device with responder } := .responder device same
  cases inbound with
  | reply bytes => exact ⟨unturned, nofun, by simp [Event.isQuiet]⟩
  | uplink | loopback | consumed | dropped => exact ⟨unturned, nofun, nofun⟩

/-- The queue of an epoch loses its first packet. -/
theorem shorten_unturned (there : device.epochs.get key = some epoch)
    (queue : epoch.uplink = item :: uplink) :
    Unturned fresh device (device.modifyEpoch key fun epoch => { epoch with uplink }) := by
  apply Unturned.modify
  intro found present
  rw [there] at present
  cases present
  refine ⟨rfl, rfl, rfl, rfl, fun other member => .inl ?_⟩
  rw [queue]
  exact .tail _ member

theorem takeUplink_calm (there : device.epochs.get key = some epoch) :
    Calm fresh device (device.takeUplink key epoch) := by
  rw [takeUplink]
  split
  · rename_i queue
    exact ⟨shorten_unturned there queue, nofun, nofun⟩
  · split <;> exact ⟨.of_eq rfl, nofun, nofun⟩

theorem releaseUplink_calm (device : Device noise) (key : Nat) (epoch : Epoch) (item : UplinkItem) :
    Calm fresh device (device.releaseUplink key epoch item) := by
  have unturned : Unturned fresh device (device.modifyEpoch key fun epoch => epoch.release item) :=
    .modify device fun _ _ => kept_of_eq rfl
  rw [releaseUplink]
  split
  · exact ⟨unturned, nofun, nofun⟩
  · exact ⟨unturned.counted _, nofun, nofun⟩

theorem translateUplink_calm (device : Device noise) (key : Nat)
    (item : UplinkItem) (input : Input noise) :
    Calm fresh device (device.translateUplink engine key item input) := by
  have used : Used device.nat (device.nat.translateUplink engine item.peer
      item.packet input.now input.draw).2.2 :=
    .step engine device.nat
      (.translateUplink item.peer item.packet input.now input.draw) fun _ => rfl
  rw [translateUplink]
  generalize device.nat.translateUplink engine item.peer item.packet input.now
    input.draw = translated at used
  rcases translated with ⟨result, packet, nat⟩
  cases result with
  | ok => exact ⟨.used used, nofun, by simp [Event.isQuiet]⟩
  | error => exact ⟨.used used, nofun, nofun⟩

theorem trySend_kept (sent : epoch.trySend item = (true, later)) :
    epoch.Kept (fun other => item = other) later := by
  rw [Epoch.trySend] at sent
  split at sent
  · cases sent
  · split at sent
    · cases sent
      refine ⟨rfl, rfl, rfl, rfl, fun other member => ?_⟩
      rcases List.mem_append.mp member with before | last
      · exact .inl before
      · exact .inr (List.mem_singleton.mp last).symm
    · cases sent

theorem queueUplink_unturned (device : Device noise) (item : UplinkItem) :
    Unturned (fun other => item = other) device (device.queueUplink item) := by
  rw [queueUplink]
  split
  · exact .of_eq rfl
  · split
    · exact .of_eq rfl
    · rename_i there
      split
      · rename_i sent
        exact ⟨rfl, rfl, rfl, rfl, .refl _, .insert there (trySend_kept sent)⟩
      · exact .of_eq rfl

/-- Only a call that turns the gate or an epoch over is more than a calm
step. -/
theorem next_calm {pc : Pc} (taken : next engine device place pc input = some outcome)
    (free : pc.manner ≠ .busy) : Calm (fun item => pc = .datagramQueue item) device outcome := by
  cases manner : pc.manner with
  | ordinary => exact (next_ordinary taken manner).calm
  | busy => exact absurd manner free
  | passing =>
    cases pc with
    | datagramOpen =>
      rcases locked_eq_some taken with ⟨_, rfl⟩
      exact openDatagram_calm device _ _ input
    | recvUplink =>
      rcases withEpoch_eq_some taken with ⟨epoch, there, taken⟩
      cases taken
      exact takeUplink_calm there
    | returned => cases taken
    | _ => cases manner
  | carrying =>
    cases pc with
    | datagramStamp =>
      cases taken
      exact ⟨.of_eq rfl, nofun, nofun⟩
    | datagramQueue item =>
      cases taken
      have unturned := queueUplink_unturned device item
      simp only [Pc.datagramQueue.injEq]
      exact ⟨unturned, nofun, nofun⟩
    | recvRelease =>
      rcases withEpoch_eq_some taken with ⟨epoch, _, taken⟩
      cases taken
      exact releaseUplink_calm device _ epoch _
    | recvTranslate =>
      cases taken
      exact translateUplink_calm device _ _ input
    | _ => cases manner

end Device

end WarrenSdk.Bolthole
