import WarrenSdk.Bolthole.Peer
import WarrenSdk.Bolthole.Plan

/-! # The gateway configuration

A configuration in memory and the rules that it has to keep before a responder
takes it: the rules of its own and the ones that need the address plan. -/

namespace WarrenSdk.Bolthole

inductive ConfError
  | syntaxError
  | key (refusal : KeyError)
  | label (refusal : LabelError)
  | network
  | missingPrivateKey
  | missingPublicKey
  | missingAllowedIps
  | overlappingAllowedIps
  | tunnelPoolAllowedIps
  | gatewayAddressAllowedIps
  | duplicatePeerKey
  | duplicateLabel
  | tooManyPeers
  deriving DecidableEq

structure PeerConf where
  label : PeerLabel
  «public» : PeerPublicKey
  psk : Option PresharedKey
  allowed : List IpNetwork
  deriving DecidableEq

structure GatewayConf where
  key : GatewayKey
  peers : List PeerConf
  deriving DecidableEq

def overlaps (left right : IpNetwork) : Bool :=
  left.contains right.address || right.contains left.address

def checkNetwork (network : IpNetwork) : Except ConfError Unit :=
  if overlapsTunnelPool network then .error .tunnelPoolAllowedIps else .ok ()

def checkAllowed (peer : PeerConf) : Except ConfError Unit :=
  if peer.allowed = [] then .error .missingAllowedIps
  else peer.allowed.forM checkNetwork

def checkPair (peer other : PeerConf) : Except ConfError Unit :=
  if other.public = peer.public then .error .duplicatePeerKey
  else if other.label = peer.label then .error .duplicateLabel
  else if peer.allowed.any fun network =>
      other.allowed.any fun candidate => overlaps candidate network then
    .error .overlappingAllowedIps
  else .ok ()

def checkPairs : List PeerConf → Except ConfError Unit
  | [] => .ok ()
  | peer :: rest => do
    rest.forM (checkPair peer)
    checkPairs rest

def checkPeers (peers : List PeerConf) : Except ConfError Unit := do
  peers.forM checkAllowed
  checkPairs peers

namespace GatewayConf

/-- The rules that hold whatever the plan is. -/
def validate (conf : GatewayConf) : Except ConfError Unit := checkPeers conf.peers

/-- The rules that need the address plan. -/
def checkAgainst (conf : GatewayConf) (plan : PeerPlan) : Except ConfError Unit :=
  conf.peers.forM fun peer =>
    peer.allowed.forM fun network =>
      if network.contains (.v4 plan.gatewayV4) || network.contains (.v6 plan.gatewayV6) then
        .error .gatewayAddressAllowedIps
      else .ok ()

end GatewayConf

/-! ## What an accepted configuration satisfies -/

theorem forM_eq_ok_iff (check : Item → Except Refusal Unit) (items : List Item) :
    items.forM check = .ok () ↔ ∀ item ∈ items, check item = .ok () := by
  induction items with
  | nil => simp [pure, Except.pure]
  | cons item items induction =>
    have first : (item :: items).forM check = (check item >>= fun _ => items.forM check) := rfl
    rw [first, List.forall_mem_cons, ← induction]
    cases check item <;> simp [bind, Except.bind]

structure Distinct (peer other : PeerConf) : Prop where
  keys : other.public ≠ peer.public
  labels : other.label ≠ peer.label
  networks : ∀ network ∈ peer.allowed, ∀ candidate ∈ other.allowed,
    overlaps candidate network = false

theorem checkPair_ok_iff (peer other : PeerConf) :
    checkPair peer other = .ok () ↔ Distinct peer other := by
  constructor
  · intro accepted
    simp only [checkPair] at accepted
    split_ifs at accepted with keys labels networks
    exact ⟨keys, labels, by simpa using networks⟩
  · rintro ⟨keys, labels, networks⟩
    rw [checkPair, if_neg keys, if_neg labels, if_neg (by simpa using networks)]

theorem checkPairs_ok_iff (peers : List PeerConf) :
    checkPairs peers = .ok () ↔ peers.Pairwise Distinct := by
  induction peers with
  | nil => simp [checkPairs]
  | cons peer rest induction =>
    rw [checkPairs, List.pairwise_cons, ← induction]
    simp only [← checkPair_ok_iff, ← forM_eq_ok_iff]
    cases rest.forM (checkPair peer) <;> simp [bind, Except.bind]

theorem checkPeers_ok_iff (peers : List PeerConf) : checkPeers peers = .ok () ↔
      (∀ peer ∈ peers, checkAllowed peer = .ok ()) ∧ peers.Pairwise Distinct := by
  rw [checkPeers, ← forM_eq_ok_iff, ← checkPairs_ok_iff]
  cases peers.forM checkAllowed <;> simp [bind, Except.bind]

variable {conf : GatewayConf}

/-- A configuration that passes its own rules declares peers that are pairwise
distinct. -/
theorem GatewayConf.distinct_of_validate (valid : conf.validate = .ok ()) :
    conf.peers.Pairwise Distinct :=
  ((checkPeers_ok_iff _).mp valid).2

/-- The overlap test finds every shared address, whatever the lengths. -/
theorem overlaps_iff (left right : IpNetwork) :
    overlaps left right ↔ ∃ addr, left.contains addr ∧ right.contains addr := by
  rw [overlaps, Bool.or_eq_true]
  constructor
  · intro contained
    rcases contained with inLeft | inRight
    · exact ⟨right.address, inLeft, by simp [IpNetwork.contains]⟩
    · exact ⟨left.address, by simp [IpNetwork.contains], inRight⟩
  · intro shared
    rcases shared with ⟨addr, inLeft, inRight⟩
    rcases (left.contains_iff addr).mp inLeft with ⟨leftFamily, leftBlock⟩
    rcases (right.contains_iff addr).mp inRight with ⟨rightFamily, rightBlock⟩
    have family := leftFamily.symm.trans rightFamily
    rw [IpNetwork.contains_iff, IpNetwork.contains_iff]
    have nested := (SameBlock.meet_iff _ _ _ _).mp ⟨addr.toBits, leftBlock, rightBlock⟩
    exact nested.imp (⟨family.symm, ·⟩) (⟨family, ·⟩)

theorem checkAllowed_ok (accepted : checkAllowed peer = .ok ()) :
    peer.allowed ≠ [] ∧ ∀ network ∈ peer.allowed, overlapsTunnelPool network = false := by
  rw [checkAllowed] at accepted
  split_ifs at accepted with missing
  constructor
  · exact missing
  · intro network member
    have clear := (forM_eq_ok_iff _ _).mp accepted network member
    rw [checkNetwork] at clear
    split_ifs at clear with overlapping
    simpa using overlapping

/-- A configuration that passes its own rules hands out nothing of the tunnel
pool. -/
theorem GatewayConf.clear_of_validate (valid : conf.validate = .ok ())
    (member : peer ∈ conf.peers) :
    peer.allowed ≠ [] ∧ ∀ network ∈ peer.allowed, overlapsTunnelPool network = false := by
  apply checkAllowed_ok
  exact ((checkPeers_ok_iff _).mp valid).1 peer member

/-- A configuration that fits the plan hands out no address of the gateway. -/
theorem GatewayConf.foreign_of_checkAgainst
    (planned : conf.checkAgainst plan = .ok ()) (member : peer ∈ conf.peers)
    (listed : network ∈ peer.allowed) (covers : network.contains addr) :
    plan.isGateway addr = false := by
  have allowed := (forM_eq_ok_iff _ _).mp
    ((forM_eq_ok_iff _ _).mp planned peer member) network listed
  split_ifs at allowed with claimed
  apply Bool.eq_false_iff.mpr
  intro gateway
  rw [PeerPlan.isGateway, Bool.or_eq_true, decide_eq_true_eq, decide_eq_true_eq] at gateway
  apply claimed
  rw [Bool.or_eq_true]
  rcases gateway with rfl | rfl
  · exact .inl covers
  · exact .inr covers

theorem overlaps_self (network : IpNetwork) : overlaps network network := by
  simp [overlaps, IpNetwork.contains]

end WarrenSdk.Bolthole
