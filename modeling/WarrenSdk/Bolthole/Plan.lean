import WarrenSdk.Bolthole.Network

/-! # The address plan

Which addresses the gateway hands its peers, and which addresses it must never
hand out: the range that an exit assigns its sessions from. -/

namespace WarrenSdk.Bolthole

/-! ## Ranges -/

structure Ipv4Network where
  networkAddress : Ipv4Addr
  netmask : Nat
  fits : netmask ≤ 32
  noHostBits : networkAddress.bits.toNat % 2 ^ (32 - netmask) = 0
  deriving DecidableEq

structure Ipv6Network where
  networkAddress : Ipv6Addr
  netmask : Nat
  fits : netmask ≤ 128
  noHostBits : networkAddress.bits.toNat % 2 ^ (128 - netmask) = 0
  deriving DecidableEq

def Ipv4Network.contains (network : Ipv4Network) (addr : Ipv4Addr) : Bool :=
  addr.bits.toNat / 2 ^ (32 - network.netmask) =
    network.networkAddress.bits.toNat / 2 ^ (32 - network.netmask)

def Ipv6Network.contains (network : Ipv6Network) (addr : Ipv6Addr) : Bool :=
  addr.bits.toNat / 2 ^ (128 - network.netmask) =
    network.networkAddress.bits.toNat / 2 ^ (128 - network.netmask)

/-- The network as one of its family. -/
def IpNetwork.toV4 : IpNetwork → Option Ipv4Network
  | ⟨.v4 addr, netmask, fits, noHostBits⟩ => some ⟨addr, netmask, fits, noHostBits⟩
  | ⟨.v6 _, _, _, _⟩ => none

@[inherit_doc IpNetwork.toV4]
def IpNetwork.toV6 : IpNetwork → Option Ipv6Network
  | ⟨.v6 addr, netmask, fits, noHostBits⟩ => some ⟨addr, netmask, fits, noHostBits⟩
  | ⟨.v4 _, _, _, _⟩ => none

def tunnelPoolV4 : Ipv4Addr × Nat := (.ofOctets [10, 66, 0, 0], 16)

def tunnelPoolV6 : Ipv6Addr × Nat := (⟨0xfdcc000f000100000000000000000000⟩, 64)

def tunnelGatewayV4 : Ipv4Addr := .ofOctets [10, 66, 0, 1]

def tunnelGatewayV6 : Ipv6Addr := ⟨0xfdcc000f000100000000000000000001⟩

def mask32 (length : Nat) : BitVec 32 :=
  if length = 0 then 0 else BitVec.allOnes 32 <<< (32 - length)

def mask128 (length : Nat) : BitVec 128 :=
  if length = 0 then 0 else BitVec.allOnes 128 <<< (128 - length)

def inV4 (addr : Ipv4Addr) (range : Ipv4Addr × Nat) : Bool :=
  addr.bits &&& mask32 range.2 = range.1.bits &&& mask32 range.2

def inV6 (addr : Ipv6Addr) (range : Ipv6Addr × Nat) : Bool :=
  addr.bits &&& mask128 range.2 = range.1.bits &&& mask128 range.2

/-- Two ranges overlap when one contains the other's base, whichever is the
shorter. -/
def overlapsV4 (net : Ipv4Network) (other : Ipv4Addr × Nat) : Bool :=
  inV4 net.networkAddress other || inV4 other.1 (net.networkAddress, net.netmask)

@[inherit_doc overlapsV4]
def overlapsV6 (net : Ipv6Network) (other : Ipv6Addr × Nat) : Bool :=
  inV6 net.networkAddress other || inV6 other.1 (net.networkAddress, net.netmask)

def isTunnelPool : IpAddr → Bool
  | .v4 addr => inV4 addr tunnelPoolV4
  | .v6 addr => inV6 addr tunnelPoolV6

def overlapsTunnelPool : IpNetwork → Bool
  | ⟨.v4 addr, netmask, fits, noHostBits⟩ =>
    overlapsV4 ⟨addr, netmask, fits, noHostBits⟩ tunnelPoolV4
  | ⟨.v6 addr, netmask, fits, noHostBits⟩ =>
    overlapsV6 ⟨addr, netmask, fits, noHostBits⟩ tunnelPoolV6

def isTunnelGateway (addr : IpAddr) : Bool :=
  addr = .v4 tunnelGatewayV4 || addr = .v6 tunnelGatewayV6

/-! ## Ranges as blocks -/

/-- The address lies in a range exactly when it agrees with the base above the
host bits. -/
theorem inV4_iff (length : Nat) (addr base : Ipv4Addr) :
    inV4 addr (base, length) ↔ SameBlock (32 - length) addr.bits.toNat base.bits.toNat := by
  rw [inV4, decide_eq_true_iff]
  exact SameBlock.masked_iff addr.bits base.bits

@[inherit_doc inV4_iff]
theorem inV6_iff (length : Nat) (addr base : Ipv6Addr) :
    inV6 addr (base, length) ↔ SameBlock (128 - length) addr.bits.toNat base.bits.toNat := by
  rw [inV6, decide_eq_true_iff]
  exact SameBlock.masked_iff addr.bits base.bits

/-- A network that does not meet the tunnel pool contains no address of it. -/
theorem isTunnelPool_eq_false (clear : overlapsTunnelPool network = false)
    (covers : network.contains addr) : isTunnelPool addr = false := by
  rcases (network.contains_iff addr).mp covers with ⟨family, inside⟩
  apply Bool.eq_false_iff.mpr
  intro pooled
  apply Bool.eq_false_iff.mp clear
  rcases network with ⟨base, netmask, fits, noHostBits⟩
  cases base with
  | v4 base =>
    cases addr with
    | v6 addr => cases family
    | v4 addr =>
      have shared := (SameBlock.meet_iff _ _ _ _).mp
        ⟨addr.bits.toNat, inside, (inV4_iff _ addr _).mp pooled⟩
      rw [overlapsTunnelPool, overlapsV4, Bool.or_eq_true]
      exact shared.symm.imp (inV4_iff _ _ _).mpr (inV4_iff _ _ _).mpr
  | v6 base =>
    cases addr with
    | v4 addr => cases family
    | v6 addr =>
      have shared := (SameBlock.meet_iff _ _ _ _).mp
        ⟨addr.bits.toNat, inside, (inV6_iff _ addr _).mp pooled⟩
      rw [overlapsTunnelPool, overlapsV6, Bool.or_eq_true]
      exact shared.symm.imp (inV6_iff _ _ _).mpr (inV6_iff _ _ _).mpr

/-! ## The plan -/

inductive PlanError
  | tunnelPoolOverlap
  | wrongFamily
  | subnetTooSmall
  | indexOutOfRange
  deriving DecidableEq

structure PeerPlan where
  v4 : Ipv4Network
  v6 : Ipv6Network
  roomy : v4.netmask ≤ 30
  clearV4 : overlapsV4 v4 tunnelPoolV4 = false
  clearV6 : overlapsV6 v6 tunnelPoolV6 = false
  deriving DecidableEq

namespace PeerPlan

def new (v4 v6 : IpNetwork) : Except PlanError PeerPlan :=
  match v4.toV4, v6.toV6 with
  | some v4, some v6 =>
    if roomy : v4.netmask ≤ 30 then
      if clearV4 : overlapsV4 v4 tunnelPoolV4 = false then
        if clearV6 : overlapsV6 v6 tunnelPoolV6 = false then
          .ok { v4, v6, roomy, clearV4, clearV6 }
        else .error .tunnelPoolOverlap
      else .error .tunnelPoolOverlap
    else .error .subnetTooSmall
  | _, _ => .error .wrongFamily

def default : PeerPlan where
  v4 := ⟨.ofOctets [10, 67, 0, 0], 24, by decide, by decide⟩
  v6 := ⟨⟨0xfd776172726500000000000000000000⟩, 64, by decide, by decide⟩
  roomy := by decide
  clearV4 := by decide
  clearV6 := by decide

/-- The gateway's own address inside a peer subnet. -/
def gatewayV4 (plan : PeerPlan) : Ipv4Addr := ⟨plan.v4.networkAddress.bits ||| 1⟩

@[inherit_doc gatewayV4]
def gatewayV6 (plan : PeerPlan) : Ipv6Addr := ⟨plan.v6.networkAddress.bits ||| 1⟩

def contains (plan : PeerPlan) : IpAddr → Bool
  | .v4 addr => plan.v4.contains addr
  | .v6 addr => plan.v6.contains addr

def isGateway (plan : PeerPlan) (addr : IpAddr) : Bool :=
  addr = .v4 plan.gatewayV4 || addr = .v6 plan.gatewayV6

/-! ## Peer numbers -/

/-- The addresses that a peer of this number is given. Only the IPv4 subnet
bounds the number. -/
def addressFor (plan : PeerPlan) (index : UInt32) : Except PlanError (Ipv4Addr × Ipv6Addr) :=
  let hostBits := 32 - plan.v4.netmask
  let last := if 32 ≤ hostBits then 2 ^ 32 - 1 else 2 ^ hostBits - 1
  if index.toNat < 2 ∨ last ≤ index.toNat then .error .indexOutOfRange
  else
    .ok (⟨plan.v4.networkAddress.bits ||| BitVec.ofNat 32 index.toNat⟩,
      ⟨plan.v6.networkAddress.bits ||| BitVec.ofNat 128 index.toNat⟩)

/-- What the two addresses of a peer have to be. -/
structure Places (plan : PeerPlan) (pair : Ipv4Addr × Ipv6Addr) : Prop where
  insideV4 : plan.v4.contains pair.1 = true
  insideV6 : plan.v6.contains pair.2 = true
  hostV4 : pair.1 ≠ plan.v4.networkAddress ∧ pair.1 ≠ plan.gatewayV4
  hostV6 : pair.2 ≠ plan.v6.networkAddress ∧ pair.2 ≠ plan.gatewayV6
  outside : isTunnelPool (.v4 pair.1) = false ∧ isTunnelPool (.v6 pair.2) = false

/-- Any two peers are told apart and placed in their subnets. -/
def NumbersPeers (plan : PeerPlan) : Prop :=
  ∀ index other pair otherPair, index ≠ other →
    plan.addressFor index = .ok pair → plan.addressFor other = .ok otherPair →
    pair.1 ≠ otherPair.1 ∧ pair.2 ≠ otherPair.2 ∧ plan.Places pair ∧ plan.Places otherPair

variable {plan : PeerPlan} {base : BitVec width}

theorem addressFor_eq_ok : plan.addressFor index = .ok pair ↔
      2 ≤ index.toNat ∧ index.toNat < 2 ^ (32 - plan.v4.netmask) - 1 ∧
      pair = (⟨plan.v4.networkAddress.bits ||| BitVec.ofNat 32 index.toNat⟩,
        ⟨plan.v6.networkAddress.bits ||| BitVec.ofNat 128 index.toNat⟩) := by
  have last : (if 32 ≤ 32 - plan.v4.netmask then 2 ^ 32 - 1
      else 2 ^ (32 - plan.v4.netmask) - 1) = 2 ^ (32 - plan.v4.netmask) - 1 := by
    split
    · have whole : 32 - plan.v4.netmask = 32 := by omega
      rw [whole]
    · rfl
  simp only [addressFor, last]
  split
  · refine ⟨nofun, ?_⟩
    rintro ⟨lower, upper, _⟩
    omega
  · rw [Except.ok.injEq]
    refine ⟨fun same => ⟨by omega, by omega, same.symm⟩, ?_⟩
    rintro ⟨_, _, same⟩
    exact same.symm

section

variable (fits : host ≤ width) (aligned : base.toNat % 2 ^ host = 0)

include fits aligned

/-- A number that the host bits of a subnet hold is added to its base. -/
theorem toNat_or_number (small : number < 2 ^ host) :
    (base ||| BitVec.ofNat width number).toNat = base.toNat + number := by
  have bound : number < 2 ^ width :=
    Nat.lt_of_lt_of_le small (Nat.pow_le_pow_right (by decide) fits)
  rw [BitVec.toNat_or, BitVec.toNat_ofNat, Nat.mod_eq_of_lt bound,
    (SameBlock.or_small aligned small).1]

theorem number_placed (lower : 2 ≤ number) (small : number < 2 ^ host) :
    SameBlock host (base ||| BitVec.ofNat width number).toNat base.toNat ∧
      base ||| BitVec.ofNat width number ≠ base ∧
      base ||| BitVec.ofNat width number ≠ base ||| BitVec.ofNat width 1 := by
  have added := toNat_or_number fits aligned small
  have gateway := toNat_or_number fits aligned (by omega : 1 < 2 ^ host)
  refine ⟨?_, ?_, ?_⟩
  · rw [added]
    exact (SameBlock.or_small aligned small).2
  · intro same
    rw [same] at added
    omega
  · intro same
    rw [same] at added
    omega

theorem number_injective (small : number < 2 ^ host)
    (otherSmall : other < 2 ^ host) (same : base ||| BitVec.ofNat width number =
      base ||| BitVec.ofNat width other) : number = other := by
  have added := toNat_or_number fits aligned small
  rw [same, toNat_or_number fits aligned otherSmall] at added
  omega

end

theorem places_of_small (lower : 2 ≤ number) (smallV4 : number < 2 ^ (32 - plan.v4.netmask))
    (smallV6 : number < 2 ^ (128 - plan.v6.netmask)) : plan.Places
      (⟨plan.v4.networkAddress.bits ||| BitVec.ofNat 32 number⟩,
        ⟨plan.v6.networkAddress.bits ||| BitVec.ofNat 128 number⟩) := by
  rcases number_placed (Nat.sub_le _ _) plan.v4.noHostBits lower smallV4 with
    ⟨insideV4, hostV4, selfV4⟩
  rcases number_placed (Nat.sub_le _ _) plan.v6.noHostBits lower smallV6 with
    ⟨insideV6, hostV6, selfV6⟩
  have clearV4 : overlapsTunnelPool ⟨.v4 plan.v4.networkAddress,
    plan.v4.netmask, plan.v4.fits, plan.v4.noHostBits⟩ = false := plan.clearV4
  have clearV6 : overlapsTunnelPool ⟨.v6 plan.v6.networkAddress,
    plan.v6.netmask, plan.v6.fits, plan.v6.noHostBits⟩ = false := plan.clearV6
  exact {
    insideV4 := decide_eq_true insideV4
    insideV6 := decide_eq_true insideV6
    hostV4 := ⟨fun same => hostV4 (congrArg Ipv4Addr.bits same),
      fun same => selfV4 (congrArg Ipv4Addr.bits same)⟩
    hostV6 := ⟨fun same => hostV6 (congrArg Ipv6Addr.bits same),
      fun same => selfV6 (congrArg Ipv6Addr.bits same)⟩
    outside := ⟨ isTunnelPool_eq_false clearV4 ((IpNetwork.contains_iff _ _).mpr ⟨rfl, insideV4⟩),
      isTunnelPool_eq_false clearV6 ((IpNetwork.contains_iff _ _).mpr ⟨rfl, insideV6⟩)⟩ }

/-- The number that sets a bit above the IPv6 subnet leaves the subnet, or it
names the network itself. -/
theorem not_places_high (high : 128 - plan.v6.netmask ≤ power) (bounded : power < 128) :
    ¬ plan.Places (addr, ⟨plan.v6.networkAddress.bits ||| BitVec.ofNat 128 (2 ^ power)⟩) := by
  intro placed
  have bound : 2 ^ power < 2 ^ 128 := Nat.pow_lt_pow_right (by decide) bounded
  have inside := of_decide_eq_true placed.insideV6
  rw [BitVec.toNat_or, BitVec.toNat_ofNat, Nat.mod_eq_of_lt bound] at inside
  apply placed.hostV6.1
  apply congrArg Ipv6Addr.mk
  apply BitVec.eq_of_toNat_eq
  rw [BitVec.toNat_or, BitVec.toNat_ofNat, Nat.mod_eq_of_lt bound]
  exact SameBlock.or_high high inside

/-- Peer numbers are told apart and placed exactly if the IPv6 subnet has as
many host bits as the IPv4 one, or there is only one number. -/
theorem numbersPeers_iff (plan : PeerPlan) :
    plan.NumbersPeers ↔
      plan.v6.netmask ≤ plan.v4.netmask + 96 ∨ plan.v4.netmask = 30 := by
  have roomy := plan.roomy
  constructor
  · intro sound
    by_contra narrow
    -- The first number past the IPv6 subnet, and the one behind it.
    obtain ⟨power, lower, high, below⟩ : ∃ power, 1 ≤ power ∧
        128 - plan.v6.netmask ≤ power ∧ power < 32 - plan.v4.netmask := by
      refine ⟨max 1 (128 - plan.v6.netmask), ?_⟩
      omega
    have least : 2 ^ 1 ≤ 2 ^ power := Nat.pow_le_pow_right (by decide) lower
    have twice : 2 * 2 ^ power ≤ 2 ^ (32 - plan.v4.netmask) := by
      rw [← Nat.pow_succ']
      exact Nat.pow_le_pow_right (by decide) below
    have wide : 2 ^ 3 ≤ 2 ^ (32 - plan.v4.netmask) :=
      Nat.pow_le_pow_right (by decide) (by omega)
    have whole : 2 ^ (32 - plan.v4.netmask) ≤ UInt32.size :=
      show _ ≤ 2 ^ 32 from Nat.pow_le_pow_right (by decide) (by omega)
    have first : (UInt32.ofNat (2 ^ power)).toNat = 2 ^ power :=
      UInt32.toNat_ofNat_of_lt' (by omega)
    have second : (UInt32.ofNat (2 ^ power + 1)).toNat = 2 ^ power + 1 :=
      UInt32.toNat_ofNat_of_lt' (by omega)
    have differ : UInt32.ofNat (2 ^ power) ≠ UInt32.ofNat (2 ^ power + 1) := by
      intro same
      rw [same, second] at first
      omega
    have placed := (sound _ _ _ _ differ
      (addressFor_eq_ok.mpr ⟨by omega, by omega, rfl⟩)
      (addressFor_eq_ok.mpr ⟨by omega, by omega, rfl⟩)).2.2.1
    rw [first] at placed
    exact not_places_high high (by omega) placed
  · rintro wide index other pair otherPair differ accepted otherAccepted
    rcases addressFor_eq_ok.mp accepted with ⟨lower, upper, rfl⟩
    rcases addressFor_eq_ok.mp otherAccepted with
      ⟨otherLower, otherUpper, rfl⟩
    have distinct : index.toNat ≠ other.toNat :=
      fun same => differ (UInt32.toNat.inj same)
    have room : 32 - plan.v4.netmask ≤ 128 - plan.v6.netmask := by
      rcases wide with wide | single
      · omega
      · rw [single] at upper otherUpper
        omega
    have larger : 2 ^ (32 - plan.v4.netmask) ≤ 2 ^ (128 - plan.v6.netmask) :=
      Nat.pow_le_pow_right (by decide) room
    refine ⟨?_, ?_, places_of_small lower (by omega) (by omega),
      places_of_small otherLower (by omega) (by omega)⟩
    · intro same
      exact distinct (number_injective (Nat.sub_le _ _) plan.v4.noHostBits
        (by omega) (by omega) (congrArg Ipv4Addr.bits same))
    · intro same
      exact distinct (number_injective (Nat.sub_le _ _) plan.v6.noHostBits
        (by omega) (by omega) (congrArg Ipv6Addr.bits same))

/-- Four peers of the default IPv4 subnet do not fit a /126. -/
theorem fourth_number_outside :
    let v4 : IpNetwork := ⟨.v4 (.ofOctets [10, 67, 0, 0]), 24, by decide,
      by decide⟩
    let v6 : IpNetwork := ⟨.v6 ⟨0xfd000000000000000000000000000000⟩, 126,
      by decide, by decide⟩
    (match PeerPlan.new v4 v6 with
    | .error _ => false
    | .ok plan =>
      match plan.addressFor 2, plan.addressFor 4 with
      | .ok _, .ok pair => !plan.v6.contains pair.2
      | _, _ => false) = true := by
  decide +kernel

end PeerPlan

end WarrenSdk.Bolthole
