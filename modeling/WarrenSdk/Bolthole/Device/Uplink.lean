import WarrenSdk.Bolthole.Device.Protocol

/-! # The packets of an epoch

A packet of the uplink is decrypted, stamped with a generation, queued, taken
out by the sink of an epoch and translated, one after the other. An epoch is
turned over in as many steps: the translator is pointed at the new addresses,
the generation is published and the queue replaced. A sink carries its own
epoch's packets from its own epoch's address if a turnover comes neither between
decrypting and stamping nor between choosing a packet and translating it. -/

namespace WarrenSdk.Bolthole

open Interleaving List HashMap Option

def EpochAddressing.address (addressing : EpochAddressing) (family : Bool) : Option IpAddr :=
  if family then addressing.ipv6Address.map .v6 else some (.v4 addressing.ipv4)

def UplinkItem.Genuine (item : UplinkItem) : Prop := item.generation = item.decryptedUnder

namespace Device

variable {noise : Noise} (engine : ChecksumEngine)

/-! ## What stays as it is -/

/-- Every epoch is still the one that was begun, and its queue holds what it
held, unless it is one of the `fresh` packets. -/
structure SameEpochs (fresh : UplinkItem → Prop) (before after : HashMap Nat Epoch) : Prop where
  kept : ∀ key epoch, before.get key = some epoch → ∃ later, after.get key = some later ∧
      later.generation = epoch.generation ∧ later.addressing = epoch.addressing
  known : ∀ key later, after.get key = some later → ∃ epoch, before.get key = some epoch ∧
      later.addressing = epoch.addressing ∧ ∀ item ∈ later.uplink, item ∈ epoch.uplink ∨ fresh item

/-- No turnover took place. -/
structure SamePlane (fresh : UplinkItem → Prop) (before after : Device noise) : Prop where
  nat : Used before.nat after.nat
  pointed : after.pointed = before.pointed
  epochs : SameEpochs fresh before.epochs after.epochs

theorem KeptEpochs.same {after : HashMap Nat Epoch}
    (kept : KeptEpochs fresh before after) : SameEpochs fresh before after where
  kept := by
    intro key epoch there
    rcases kept key with ⟨absent, _⟩ | ⟨found, later, before, after, kept⟩
    · cases absent.symm.trans there
    · cases before.symm.trans there
      exact ⟨later, after, kept.generation, kept.addressing⟩
  known := by
    intro key later there
    rcases kept key with ⟨_, absent⟩ | ⟨epoch, found, before, after, kept⟩
    · cases absent.symm.trans there
    · cases after.symm.trans there
      exact ⟨epoch, before, kept.addressing, kept.uplink⟩

theorem SameEpochs.modify (epochs : HashMap Nat Epoch) (key : Nat)
    (generation : ∀ epoch, (edit epoch).generation = epoch.generation)
    (addressing : ∀ epoch, (edit epoch).addressing = epoch.addressing)
    (uplink : ∀ epoch, ∀ item ∈ (edit epoch).uplink, item ∈ epoch.uplink) :
    SameEpochs fresh epochs (epochs.modify key edit) where
  kept := by
    intro other found present
    rw [get_modify]
    split
    · rename_i same
      rw [← same, present]
      exact ⟨edit found, rfl, generation found, addressing found⟩
    · exact ⟨found, present, rfl, rfl⟩
  known := by
    intro other later present
    rw [get_modify] at present
    split at present
    · rename_i same
      rcases map_eq_some_iff.mp present with ⟨epoch, there, rfl⟩
      rw [same]
      exact ⟨epoch, there, addressing epoch, fun item member => .inl (uplink epoch item member)⟩
    · exact ⟨later, present, rfl, fun _ => .inl⟩

theorem Unturned.plane {after : Device noise} (unturned : Unturned fresh before after) :
    SamePlane fresh before after where
  nat := unturned.nat
  pointed := unturned.pointed
  epochs := unturned.epochs.same

theorem SamePlane.of_eq {after : Device noise} (nat : after.nat = before.nat)
    (pointed : after.pointed = before.pointed) (epochs : after.epochs = before.epochs) :
    SamePlane fresh before after where
  nat := nat ▸ .refl _
  pointed := pointed
  epochs := epochs ▸ (KeptEpochs.refl _).same

theorem SamePlane.modify (device : Device noise) (key : Nat)
    (generation : ∀ epoch, (edit epoch).generation = epoch.generation)
    (addressing : ∀ epoch, (edit epoch).addressing = epoch.addressing)
    (uplink : ∀ epoch, ∀ item ∈ (edit epoch).uplink, item ∈ epoch.uplink) :
    SamePlane fresh device (device.modifyEpoch key edit) where
  nat := .refl _
  pointed := rfl
  epochs := .modify _ _ generation addressing uplink

/-! ## The way of a packet -/

/-- What a call carries: an epoch that begins, before and after the translator
is pointed at it, or a packet on its way. -/
inductive Burden
  | nothing
  | epoch
  | pointed (addressing : EpochAddressing)
  | decrypted (under : UInt64)
  | stamped (item : UplinkItem)
  | chosen (key : Nat) (item : UplinkItem)

def Pc.burden : Pc → Burden
  | .beginLoad _ | .beginNat _ _ => .epoch
  | .beginLock addressing _ | .beginBudget addressing _
  | .beginPublish addressing _ | .beginUnlock addressing _
  | .beginQueue addressing _ => .pointed addressing
  | .datagramStamp _ _ under => .decrypted under
  | .datagramQueue item | .recvRelease _ item => .stamped item
  | .recvTranslate key item => .chosen key item
  | _ => .nothing

def Unreceived (events : List Event) : Prop := ∀ key item packet, .received key item packet ∉ events

/-- What the call at one place does with packets and epochs in a step. -/
inductive Carry (place : Nat) (device : Device noise) :
    Burden → Device noise → Burden → List Event → Prop
  | rests {after : Device noise} {burden : Burden} {events : List Event}
      (plane : SamePlane (fun _ => False) device after) (unreceived : Unreceived events) :
      Carry place device burden after burden events
  | drops {after : Device noise} {burden : Burden} {events : List Event}
      (plane : SamePlane (fun item => burden = .stamped item) device after)
      (unreceived : Unreceived events) : Carry place device burden after .nothing events
  | points {rank : MappingId → Nat} {addressing : EpochAddressing}
      {generation : UInt64} :
      Carry place device .epoch (device.setExternal rank place addressing generation)
        (.pointed addressing) []
  | opens {addressing : EpochAddressing} {generation : UInt64} :
      Carry place device (.pointed addressing)
        (device.openQueue place addressing generation) .nothing []
  | decrypts {after : Device noise} {under : UInt64}
      (plane : SamePlane (fun _ => False) device after) :
      Carry place device .nothing after (.decrypted under) []
  | stamps {under : UInt64} {item : UplinkItem} (current : item.generation = device.generation)
      (history : item.decryptedUnder = under) :
      Carry place device (.decrypted under) device (.stamped item) []
  | takes {after : Device noise} {key : Nat} {epoch : Epoch}
      {item : UplinkItem} (there : device.epochs.get key = some epoch)
      (queued : item ∈ epoch.uplink)
      (plane : SamePlane (fun _ => False) device after) :
      Carry place device .nothing after (.stamped item) []
  | chooses {after : Device noise} {key : Nat} {epoch : Epoch}
      {item : UplinkItem} (there : device.epochs.get key = some epoch)
      (own : item.generation = epoch.generation)
      (plane : SamePlane (fun _ => False) device after) :
      Carry place device (.stamped item) after (.chosen key item) []
  | translates {after : Device noise} {key : Nat} {item : UplinkItem}
      {now : Instant} {draw : Nat}
      (accepted : (device.nat.translateUplink engine item.peer item.packet now draw).1 = .ok ())
      (plane : SamePlane (fun _ => False) device after) :
      Carry place device (.chosen key item) after .nothing
        [.received key item (device.nat.translateUplink engine item.peer item.packet now draw).2.1]

/-! ## The device's steps -/

variable {engine}

variable {pc : Pc} {device : Device noise}

theorem Pc.burden_eq_nothing (idle : pc.manner.isIdle) : pc.burden = .nothing := by
  cases pc <;> first | rfl | cases idle

theorem Ordinary.carry {stepped : Stepped noise}
    (ordinary : Ordinary (fun _ => False) device stepped) (place : Nat) :
    Carry engine place device .nothing stepped.shared stepped.pc.burden
      stepped.events := by
  rw [Pc.burden_eq_nothing ordinary.idle]
  refine .rests ordinary.unturned.plane ?_
  intro key item packet member
  rcases ordinary.sent _ member with ⟨endpoint, datagram, equal⟩
  cases equal

theorem openDatagram_carry (device : Device noise) (place : Nat)
    (src : SocketAddr) (datagram : List UInt8) (input : Input noise) :
    let stepped := device.openDatagram engine src datagram input
    Carry engine place device .nothing stepped.shared stepped.pc.burden
      stepped.events := by
  rw [openDatagram]
  generalize device.responder.handleDatagram engine input.ambient src datagram
    input.now input.scratch = handled
  rcases handled with ⟨inbound, responder⟩
  cases inbound with
  | uplink => exact .decrypts (.of_eq rfl rfl rfl)
  | reply | loopback | consumed | dropped =>
    exact .rests (.of_eq rfl rfl rfl) (by simp [Unreceived])

theorem takeUplink_carry (there : device.epochs.get key = some epoch) (place : Nat) :
    let stepped := device.takeUplink key epoch
    Carry engine place device .nothing stepped.shared stepped.pc.burden
      stepped.events := by
  rw [takeUplink]
  split
  · rename_i queue
    exact .takes there (by rw [queue]; exact .head _)
      (shorten_unturned there queue).plane
  · split <;> exact .rests (.of_eq rfl rfl rfl) (by simp [Unreceived])

theorem releaseUplink_carry (there : device.epochs.get key = some epoch)
    (place : Nat) (item : UplinkItem) :
    let stepped := device.releaseUplink key epoch item
    Carry engine place device (.stamped item) stepped.shared stepped.pc.burden stepped.events := by
  have plane {fresh} : SamePlane fresh device (device.releaseUplink key epoch item).shared :=
    (releaseUplink_calm device key epoch item).unturned.plane
  rw [releaseUplink] at plane ⊢
  split at plane
  · rename_i own
    rw [if_pos own]
    exact .chooses there own plane
  · rename_i other
    rw [if_neg other]
    exact .drops plane (by simp [Unreceived])

theorem translateUplink_carry (device : Device noise) (place key : Nat)
    (item : UplinkItem) (input : Input noise) :
    let stepped := device.translateUplink engine key item input
    Carry engine place device (.chosen key item) stepped.shared
      stepped.pc.burden stepped.events := by
  have plane {fresh} : SamePlane fresh device
      (device.translateUplink engine key item input).shared :=
    (translateUplink_calm device key item input).unturned.plane
  simp only [translateUplink] at plane ⊢
  cases accepted : (device.nat.translateUplink engine item.peer item.packet
    input.now input.draw).1 with
  | ok =>
    simp only [accepted] at plane
    exact .translates accepted plane
  | error =>
    simp only [accepted] at plane
    exact .drops plane (by simp [Unreceived])

/-- Every step of a call is one on the way of a packet or of an epoch. -/
theorem next_carry {place : Nat} {outcome : Stepped noise}
    (taken : next engine device place pc input = some outcome) :
    Carry engine place device pc.burden outcome.shared outcome.pc.burden
      outcome.events := by
  cases pc with
  | beginLoad | beginBudget | beginPublish | beginUnlock | openRefuse |
    openSet | closeLoad | closeSet =>
    cases taken
    exact .rests (.of_eq rfl rfl rfl) (by simp [Unreceived])
  | beginNat =>
    cases taken
    exact .points
  | beginLock | openLock | closeLock | dropGate =>
    rcases locked_eq_some taken with ⟨_, rfl⟩
    exact .rests (.of_eq rfl rfl rfl) (by simp [Unreceived])
  | beginQueue =>
    cases taken
    exact .opens
  | openCompare | dropCheck =>
    rw [next] at taken
    split at taken <;> cases taken <;> exact .rests (.of_eq rfl rfl rfl) (by simp [Unreceived])
  | datagramOpen =>
    rcases locked_eq_some taken with ⟨_, rfl⟩
    exact openDatagram_carry device place _ _ input
  | datagramStamp =>
    cases taken
    exact .stamps rfl rfl
  | datagramQueue item =>
    cases taken
    refine .drops ?_ (by simp [Unreceived])
    simpa [Pc.burden] using (queueUplink_unturned device item).plane
  | recvUplink =>
    rcases withEpoch_eq_some taken with ⟨epoch, there, taken⟩
    cases taken
    exact takeUplink_carry there place
  | recvRelease =>
    rcases withEpoch_eq_some taken with ⟨epoch, there, taken⟩
    cases taken
    exact releaseUplink_carry there place _
  | recvTranslate =>
    cases taken
    exact translateUplink_carry device place _ _ input
  | dropStart =>
    rcases withEpoch_eq_some taken with ⟨epoch, _, taken⟩
    split at taken <;> cases taken
    exact .rests (.modify device _ (fun _ => rfl) (fun _ => rfl) (by simp)) (by simp [Unreceived])
  | dropDrain =>
    rcases withEpoch_eq_some taken with ⟨epoch, there, taken⟩
    cases taken
    rw [drainUplink]
    split
    · rename_i queue
      exact .rests ((shorten_unturned there queue).counted _).plane (by simp [Unreceived])
    · exact .rests (.of_eq rfl rfl rfl) (by simp [Unreceived])
  | dropStop | dropFlows | dropFields =>
    cases taken
    exact .rests (.modify device _ (fun _ => rfl) (fun _ => rfl)
      (by simp [Epoch.close])) (by simp [Unreceived])
  | onControl key pc =>
    rcases withEpoch_eq_some taken with ⟨epoch, _, taken⟩
    rcases map_eq_some_iff.mp taken with ⟨inner, _, rfl⟩
    exact .rests (.modify device _ (fun _ => rfl) (fun _ => rfl) (by simp)) (by simp [Unreceived])
  | returned => cases taken
  | _ => exact (next_ordinary taken rfl).carry place

/-! ## Every interleaving -/

def Rightful (device : Device noise) (place : Nat) : Burden → Prop
  | .nothing | .decrypted _ => True
  | .epoch => device.epochs.get place = none
  | .pointed addressing => device.epochs.get place = none ∧
    ∀ other, device.pointed = some (place, other) → other = addressing
  | .stamped item => item.Genuine
  | .chosen key item => item.Genuine ∧ ∃ epoch, device.epochs.get key = some epoch ∧
      item.generation = epoch.generation

/-- The translator has the addresses of the epoch that it was pointed at, and
every packet in a queue carries its own stamp. -/
structure Plane (device : Device noise) : Prop where
  coherent : device.nat.Coherent
  external : ∀ key addressing, device.pointed = some (key, addressing) →
    ∀ family, device.nat.external family = addressing.address family
  addressed : ∀ key addressing epoch, device.pointed = some (key, addressing) →
    device.epochs.get key = some epoch → epoch.addressing = addressing
  genuine : ∀ key epoch, device.epochs.get key = some epoch → ∀ item ∈ epoch.uplink, item.Genuine

/-- Neither is an epoch published between decrypting a packet and stamping it,
nor is the translator pointed at another epoch between choosing a packet and
translating it. -/
def Punctual (device : Device noise) : Burden → Prop
  | .decrypted under => under = device.generation
  | .chosen key _ => ∃ addressing, device.pointed = some (key, addressing)
  | _ => True

section Steps

variable {after : Device noise}

theorem SameEpochs.get_eq_none {after : HashMap Nat Epoch}
    (same : SameEpochs fresh before after) (absent : before.get key = none) :
    after.get key = none := by
  cases there : after.get key with
  | none => rfl
  | some later =>
    rcases same.known key later there with ⟨epoch, found, _⟩
    rw [absent] at found
    cases found

theorem SamePlane.plane (same : SamePlane fresh device after)
    (plane : Plane device) (genuine : ∀ item, fresh item → item.Genuine) : Plane after where
  coherent := same.nat.coherent plane.coherent
  external := by
    intro key addressing pointed family
    rw [same.pointed] at pointed
    exact (same.nat.external plane.coherent family).trans
      (plane.external key addressing pointed family)
  addressed := by
    intro key addressing later pointed there
    rw [same.pointed] at pointed
    rcases same.epochs.known key later there with ⟨epoch, found, equal, _⟩
    exact equal.trans (plane.addressed key addressing epoch pointed found)
  genuine := by
    intro key later there item member
    rcases same.epochs.known key later there with ⟨epoch, found, _, items⟩
    rcases items item member with queued | isFresh
    · exact plane.genuine key epoch found item queued
    · exact genuine item isFresh

section

variable (carry : Carry engine place device burden after behind events)

include carry

theorem Carry.plane (rightful : Rightful device place burden)
    (plane : Plane device) : Plane after := by
  cases carry with
  | rests same | decrypts same => exact same.plane plane fun _ fresh => fresh.elim
  | drops same =>
    apply same.plane plane
    intro item isStamped
    rw [isStamped] at rightful
    exact rightful
  | points =>
    rename_i rank addressing generation
    constructor
    · exact Napt.step_coherent engine plane.coherent
        (.setExternal rank _ addressing.ipv4 addressing.ipv6Address)
    · intro key other pointed family
      cases pointed
      exact Napt.step_external engine plane.coherent
        (.setExternal rank _ addressing.ipv4 addressing.ipv6Address) family
    · intro key other epoch pointed there
      cases pointed
      have absent : device.epochs.get place = none := rightful
      cases absent.symm.trans there
    · exact plane.genuine
  | opens =>
    constructor
    · exact plane.coherent
    · exact plane.external
    · intro key other epoch pointed there
      simp only [openQueue, get_insert] at there
      split at there
      · rename_i same
        cases there
        rw [same] at pointed
        exact (rightful.2 other pointed).symm
      · exact plane.addressed key other epoch pointed there
    · intro key epoch there
      simp only [openQueue, get_insert] at there
      split at there
      · cases there
        simp [Epoch.begun]
      · exact plane.genuine key epoch there
  | stamps => exact plane
  | takes _ _ same | chooses _ _ same | translates _ same =>
    exact same.plane plane fun _ fresh => fresh.elim

theorem Carry.kept (rightful : Rightful device place burden)
    (there : device.epochs.get key = some epoch) : ∃ later, after.epochs.get key = some later ∧
      later.generation = epoch.generation ∧ later.addressing = epoch.addressing := by
  cases carry with
  | rests same | drops same | decrypts same | takes _ _ same
  | chooses _ _ same | translates _ same => exact same.epochs.kept key epoch there
  | points | stamps => exact ⟨epoch, there, rfl, rfl⟩
  | opens =>
    refine ⟨epoch, ?_, rfl, rfl⟩
    simp only [openQueue, get_insert]
    rw [if_neg, there]
    intro same
    rw [same, rightful.1] at there
    cases there

theorem Carry.get_eq_none (different : key ≠ place) (absent : device.epochs.get key = none) :
    after.epochs.get key = none := by
  cases carry with
  | rests same | drops same | decrypts same | takes _ _ same
  | chooses _ _ same | translates _ same => exact same.epochs.get_eq_none absent
  | points | stamps => exact absent
  | opens =>
    simp only [openQueue, get_insert]
    rw [if_neg different, absent]

theorem Carry.pointed (different : key ≠ place) (now : after.pointed = some (key, addressing)) :
    device.pointed = some (key, addressing) := by
  cases carry with
  | rests same | drops same | decrypts same | takes _ _ same
  | chooses _ _ same | translates _ same =>
    rw [← same.pointed]
    exact now
  | points =>
    cases now
    exact absurd rfl different
  | opens | stamps => exact now

theorem Carry.others (rightful : Rightful device place burden)
    (different : other ≠ place) (there : Rightful device other standing) :
    Rightful after other standing := by
  cases standing with
  | nothing | decrypted => trivial
  | epoch => exact carry.get_eq_none different there
  | pointed addressing =>
    constructor
    · exact carry.get_eq_none different there.1
    · intro found now
      exact there.2 found (carry.pointed different now)
  | stamped item => exact there
  | chosen key item =>
    rcases there with ⟨genuine, epoch, found, own⟩
    rcases carry.kept rightful found with ⟨later, present, generation, _⟩
    exact ⟨genuine, later, present, own.trans generation.symm⟩

theorem Carry.own (rightful : Rightful device place burden)
    (punctual : Punctual device burden) (plane : Plane device) : Rightful after place behind := by
  cases carry with
  | rests same =>
    cases burden with
    | nothing | decrypted => trivial
    | epoch => exact same.epochs.get_eq_none rightful
    | pointed addressing =>
      constructor
      · exact same.epochs.get_eq_none rightful.1
      · rw [same.pointed]
        exact rightful.2
    | stamped => exact rightful
    | chosen key item =>
      rcases rightful with ⟨genuine, epoch, found, own⟩
      rcases same.epochs.kept key epoch found with ⟨later, present, equal, _⟩
      exact ⟨genuine, later, present, own.trans equal.symm⟩
  | drops | opens | decrypts | translates => trivial
  | points =>
    constructor
    · exact rightful
    · intro other pointed
      cases pointed
      rfl
  | stamps current history => exact current.trans (punctual.symm.trans history.symm)
  | takes there queued => exact plane.genuine _ _ there _ queued
  | chooses there own same =>
    rcases same.epochs.kept _ _ there with ⟨later, present, equal, _⟩
    exact ⟨rightful, later, present, own.trans equal.symm⟩

end

/-- A packet was decrypted under an epoch and leaves from the address that the
epoch was assigned. -/
def Own (device : Device noise) (key : Nat) (item : UplinkItem) (packet : List UInt8) : Prop :=
  ∃ epoch, device.epochs.get key = some epoch ∧ item.decryptedUnder = epoch.generation ∧
    ∃ hdr, parseIp packet = .ok hdr ∧ epoch.addressing.address hdr.isV6 = some hdr.src

theorem address_isIpv6 {addressing : EpochAddressing}
    (assigned : addressing.address family = some addr) : addr.isIpv6 = family := by
  cases family with
  | false =>
    cases assigned
    rfl
  | true =>
    rcases map_eq_some_iff.mp assigned with ⟨v6, _, rfl⟩
    rfl

theorem Own.carried (own : Own device key item packet)
    (carry : Carry engine place device burden after behind events)
    (rightful : Rightful device place burden) : Own after key item packet := by
  rcases own with ⟨epoch, found, under, hdr, parsed, assigned⟩
  rcases carry.kept rightful found with ⟨later, present, generation, addressing⟩
  refine ⟨later, present, under.trans generation.symm, hdr, parsed, ?_⟩
  rw [addressing]
  exact assigned

/-- What a sink translates in time is its own epoch's. -/
theorem translateUplink_own {item : UplinkItem}
    (rightful : Rightful device place (.chosen key item))
    (punctual : Punctual device (.chosen key item)) (plane : Plane device)
    (accepted : (device.nat.translateUplink engine item.peer item.packet now draw).1 = .ok ()) :
    Own device key item (device.nat.translateUplink engine item.peer item.packet now draw).2.1 := by
  rcases rightful with ⟨genuine, epoch, found, own⟩
  rcases punctual with ⟨addressing, pointed⟩
  rcases Napt.translateUplink_address engine plane.coherent accepted with
    ⟨hdr, external, _, current, outer, _⟩
  rw [plane.external key addressing pointed] at current
  refine ⟨epoch, found, genuine.symm.trans own, _, outer, ?_⟩
  rw [plane.addressed key addressing epoch pointed found]
  change addressing.address external.isIpv6 = some external
  rw [address_isIpv6 current]
  exact current

theorem Carry.received (carry : Carry engine place device burden after behind events)
    (rightful : Rightful device place burden)
    (punctual : Punctual device burden) (plane : Plane device)
    (fresh : .received key item packet ∈ events) : Own device key item packet := by
  cases carry with
  | rests _ unreceived | drops _ unreceived => exact absurd fresh (unreceived key item packet)
  | points | opens | decrypts | stamps | takes | chooses => cases fresh
  | translates accepted =>
    cases mem_singleton.mp fresh
    exact translateUplink_own rightful punctual plane accepted

end Steps

/-- Every packet that a sink handed to its tunnel is its own epoch's. -/
def OwnEpochOnly (world : World (Device noise) Pc Event) : Prop :=
  ∀ key item packet, .received key item packet ∈ world.log → Own world.shared key item packet

structure Traced (world : World (Device noise) Pc Event) : Prop where
  rightful : Each (fun device place pc => Rightful device place pc.burden) world
  plane : Plane world.shared
  begun : ∀ key, world.calls.length ≤ key → world.shared.epochs.get key = none
  own : OwnEpochOnly world

def Pc.isPunctual (device : Device noise) : Pc → Bool
  | .datagramStamp _ _ under => under = device.generation
  | .recvTranslate key _ => device.pointed.any fun entry => entry.1 = key
  | _ => true

def InTime (world : World (Device noise) Pc Event) : Action Call (Input noise) → Prop
  | .start _ => True
  | .advance place _ => (world.calls[place]?).all (Pc.isPunctual world.shared) = true

instance (world : World (Device noise) Pc Event) :
    (action : Action Call (Input noise)) → Decidable (InTime world action)
  | .start _ => isTrue trivial
  | .advance _ _ => inferInstanceAs (Decidable (_ = true))

theorem punctual_of_isPunctual (punctual : pc.isPunctual device) : Punctual device pc.burden := by
  cases pc with
  | datagramStamp => simpa [Punctual, Pc.burden, Pc.isPunctual] using punctual
  | recvTranslate key item =>
    rw [Pc.isPunctual, Option.any_eq_true] at punctual
    rcases punctual with ⟨⟨_, addressing⟩, pointed, same⟩
    cases of_decide_eq_true same
    exact ⟨addressing, pointed⟩
  | _ => trivial

theorem Traced.started (traced : Traced world) (call : Call) :
    Traced (world.started (enter call)) where
  rightful := by
    apply traced.rightful.started
    cases call with
    | beginEpoch => exact traced.begun _ (Nat.le_refl _)
    | _ => trivial
  plane := traced.plane
  begun := by
    intro key outside
    rw [World.started, length_append] at outside
    exact traced.begun key (by omega)
  own := traced.own

theorem step_traced (traced : Traced world) (inTime : InTime world action) :
    Traced (step (program engine) world action) := by
  apply step_rule
  · exact traced
  · intro call _
    exact traced.started call
  · intro place input pc outcome equal here taken
    subst equal
    simp only [InTime, here, all_some] at inTime
    have carry := next_carry taken
    have rightful := traced.rightful place pc here
    have punctual := punctual_of_isPunctual inTime
    constructor
    · apply traced.rightful.advanced (carry.own rightful punctual traced.plane)
      intro other standing different _
      exact carry.others rightful different
    · exact carry.plane rightful traced.plane
    · intro key outside
      have inside := (List.getElem?_eq_some_iff.mp here).1
      rw [World.advanced, length_set] at outside
      exact carry.get_eq_none (by omega) (traced.begun key outside)
    · intro key item packet member
      rcases mem_append.mp member with before | fresh
      · exact (traced.own key item packet before).carried carry rightful
      · exact (carry.received rightful punctual traced.plane fresh).carried carry rightful

theorem new_plane {nat : NatConfig} (engine : ChecksumEngine)
    (built : Device.new ambient conf plan options indexes nat ipv6 = .ok device)
    : Plane device ∧ ∀ key, device.epochs.get key = none := by
  rcases new_ok built with ⟨responder, _, rfl⟩
  refine ⟨⟨?_, ?_, ?_, ?_⟩, fun key => by simp [idle]⟩
  · exact Napt.run_coherent engine nat [.setOwnership responder.ownership]
  · simp [idle]
  · simp [idle]
  · simp [idle]

/-- In every interleaving in which packets are stamped and translated in time,
a tunnel carries only packets that were decrypted under its own epoch, and from
the address of that epoch. -/
theorem tunnel_carries_own_epoch {ambient : noise.Ambient}
    {conf : GatewayConf} {plan : PeerPlan} {options : ResponderOptions}
    {indexes : IndexGen} {nat : NatConfig} {ipv6 : Bool}
    {device : Device noise}
    (built : Device.new ambient conf plan options indexes nat ipv6 = .ok device)
    (schedule : List (Action Call (Input noise)))
    (inTime : Execution.Guarded (step (program engine)) InTime (start device) schedule) :
    OwnEpochOnly (run engine device schedule) := by
  rcases new_plane engine built with ⟨plane, none⟩
  have traced : Traced (run engine device schedule) := by
    apply Execution.run_history (step (program engine)) (fun _ world => Traced world)
    · refine ⟨?_, plane, fun key _ => none key, ?_⟩
      · intro place pc here
        cases here
      · intro key item packet member
        cases member
    · intro past action traced allowed
      exact step_traced traced allowed
    · exact inTime
  exact traced.own

/-! ## Turnovers that come too early -/

end Device

namespace Device.Sample

def packet : List UInt8 :=
  [0x45, 0, 0, 28, 0, 0, 0, 0, 64, protoUdp, 0, 0, 10, 67, 0, 2,
    203, 0, 113, 50] ++ u16Bytes 40001 ++ u16Bytes 53 ++ [0, 8, 0, 0]

def datagram : Action Call (Input noise) := .start (.handleDatagram Responder.Sample.visitor packet)

def receives (place key steps : Nat) : List (Action Call (Input noise)) :=
  .start (.recvPacket key) :: advances place steps

def item (stamped under : UInt64) : UplinkItem := ⟨stamped, ⟨1⟩, packet, under⟩

def translated (host : UInt8) : List UInt8 :=
  [0x45, 0, 0, 28, 0, 0, 0, 0, 64, protoUdp, 0, 0, 10, 66, 0, host,
    203, 0, 113, 50] ++ u16Bytes 40001 ++ u16Bytes 53 ++ [0, 8, 0, 0]

end Device.Sample

namespace Device

/-- One packet crosses the gateway under one epoch. -/
theorem tunnel_carries_own_epoch_crossing :
    let schedule := Sample.begins 0 1 2 ++ Sample.opens 1 1 ++
      Sample.datagram :: Sample.advances 2 3 ++ Sample.receives 3 0 5
    let world := run Responder.Sample.engine Sample.device schedule
    .received 0 (Sample.item 1 1) (Sample.translated 2) ∈ world.log ∧ OwnEpochOnly world := by
  intro schedule world
  constructor
  · decide +kernel
  · apply tunnel_carries_own_epoch Sample.built schedule
    decide +kernel

namespace Sample

/-- The second epoch begins between decrypting a packet and stamping it. -/
def stampedLate : List (Action Call (Input noise)) :=
  begins 0 1 2 ++ opens 1 1 ++ datagram :: advances 2 1 ++ begins 3 2 3 ++
    advances 2 2 ++ receives 4 3 5

/-- The second epoch begins between choosing a packet and translating it. -/
def translatedLate : List (Action Call (Input noise)) :=
  begins 0 1 2 ++ opens 1 1 ++ datagram :: advances 2 3 ++ receives 3 0 4 ++
    begins 4 2 3 ++ advances 3 1

end Sample

/-- The tunnel of the second epoch carries a packet that was decrypted under the
first, and the tunnel of the first one a packet from the address of the
second. -/
theorem tunnel_carries_other_epoch :
    let second := run Responder.Sample.engine Sample.device Sample.stampedLate
    let first := run Responder.Sample.engine Sample.device
      Sample.translatedLate
    (.received 3 (Sample.item 2 1) (Sample.translated 3) ∈ second.log ∧ ¬ OwnEpochOnly second) ∧
      .received 0 (Sample.item 1 1) (Sample.translated 3) ∈ first.log ∧ ¬ OwnEpochOnly first := by
  intro second first
  have late : .received 3 (Sample.item 2 1) (Sample.translated 3) ∈
      second.log := by decide +kernel
  have moved : .received 0 (Sample.item 1 1) (Sample.translated 3) ∈
      first.log := by decide +kernel
  refine ⟨⟨late, ?_⟩, moved, ?_⟩
  · intro own
    rcases own _ _ _ late with ⟨epoch, found, under, _⟩
    have generation : (second.shared.epochs.get 3).map Epoch.generation =
        some 2 := by decide +kernel
    rw [found] at generation
    rw [Option.some.inj generation] at under
    exact absurd under (by decide)
  · intro own
    rcases own _ _ _ moved with ⟨epoch, found, _, hdr, parsed, assigned⟩
    have source : (parseIp (Sample.translated 3)).toOption.map IpHeader.src =
        some (.v4 (.ofOctets [10, 66, 0, 3])) := by decide +kernel
    have addressing : (first.shared.epochs.get 0).map Epoch.addressing =
        some (Sample.addressing 1 2) := by decide +kernel
    rw [parsed] at source
    rw [found] at addressing
    rw [Option.some.inj addressing, IpHeader.isV6, Option.some.inj source] at assigned
    exact absurd assigned (by decide)

end Device

end WarrenSdk.Bolthole
