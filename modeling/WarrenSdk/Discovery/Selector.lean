import WarrenSdk.Bolthole.Address
import WarrenSdk.Foundation.WeightedChoice
import WarrenSdk.Net.Http.Message

/-! # Selecting an exit

A relay is drawn by its weight, or by its weight scaled down by the round-trip
time. -/

namespace WarrenSdk.Discovery

open Bolthole List WeightedChoice

structure Location where
  countryCode : List UInt8
  city : List UInt8
  deriving DecidableEq

/-- What the selection reads of a relay. -/
structure Relay where
  endpointId : List UInt8
  addrs : List SocketAddr
  location : Location
  weight : UInt64
  active : Bool
  ipv6Egress : Bool := false
  portForward : Option Bool := none
  deriving DecidableEq

def Relay.hasIpv4 (relay : Relay) : Bool := relay.addrs.any fun addr => !addr.ip.isIpv6

def Relay.hasIpv6 (relay : Relay) : Bool := relay.addrs.any fun addr => addr.ip.isIpv6

inductive LocationConstraint
  | any
  | country (countryCode : List UInt8)
  | city (countryCode city : List UInt8)

inductive IpAvailability
  | both
  | ipv4Only
  | ipv6Only

structure ExitQuery where
  location : LocationConstraint := .any
  ipAvailability : IpAvailability := .both
  requireIpv6Egress : Bool := false
  requirePortForward : Bool := false

def eqIgnoreAsciiCase (left right : List UInt8) : Bool := Http.lowercase left = Http.lowercase right

def locationMatches (constraint : LocationConstraint) (relay : Relay) : Bool :=
  match constraint with
  | .any => true
  | .country countryCode => eqIgnoreAsciiCase relay.location.countryCode countryCode
  | .city countryCode city =>
    eqIgnoreAsciiCase relay.location.countryCode countryCode &&
      eqIgnoreAsciiCase relay.location.city city

def ipMatches (ip : IpAvailability) (relay : Relay) : Bool :=
  match ip with
  | .both => relay.hasIpv4 || relay.hasIpv6
  | .ipv4Only => relay.hasIpv4
  | .ipv6Only => relay.hasIpv6

def ExitQuery.accepts (query : ExitQuery) (relay : Relay) : Bool :=
  if !relay.active then false
  else if !locationMatches query.location relay then false
  else if !ipMatches query.ipAvailability relay then false
  else if query.requireIpv6Egress && !relay.ipv6Egress then false
  else if query.requirePortForward && relay.portForward ≠ some true then false
  else true

/-! ## The draw -/

inductive SelectorError
  | noRelayMatch
  deriving DecidableEq

/-- A reference to a relay: what it is, and its place in the list. -/
abbrev Entry := Relay × Nat

def u64Max : Nat := 2 ^ 64 - 1

/-- The relay that a roll picks; none is a panic. -/
def weightedPickScored (candidates : List (Entry × Nat)) (roll : Nat) : Option Entry :=
  if saturatingTotal u64Max candidates = 0 then candidates.head?.map Prod.fst
  else
    match scan candidates roll with
    | .hit entry => some entry
    | .underflow => none
    | .miss => candidates.getLast?.map Prod.fst

def candidates (relays : List Relay) (query : ExitQuery) : List Entry :=
  relays.zipIdx.filter fun entry => 0 < entry.1.weight && query.accepts entry.1

def scored (score : Relay → Nat) (relays : List Relay) (query : ExitQuery) : List (Entry × Nat) :=
  (candidates relays query).map fun entry => (entry, score entry.1)

/-- Both selections, with the score that they draw by. The generator is asked for
a number below the total and answers with `roll`. -/
def selectScored (score : Relay → Nat) (relays : List Relay) (query : ExitQuery)
    (roll : Nat) : Except SelectorError (Option Entry) :=
  if (candidates relays query).isEmpty then .error .noRelayMatch
  else .ok (weightedPickScored (scored score relays query) roll)

def total (score : Relay → Nat) (relays : List Relay) (query : ExitQuery) : Nat :=
  saturatingTotal u64Max (scored score relays query)

def Relay.share (relay : Relay) : Nat := relay.weight.toNat

def selectWithRng : List Relay → ExitQuery → Nat → Except SelectorError (Option Entry) :=
  selectScored Relay.share

/-! ## Proximity -/

def rttReferenceMs : Nat := 50
def neutralRttMs : UInt32 := 60

/-- The weight times 50 / (50 + rtt), rounded half away from zero, clamped to the
word and at least one. -/
def proximityScore (weight : Nat) (rttMs : UInt32) : Nat :=
  if weight = 0 then 0
  else
    let divisor := rttReferenceMs + rttMs.toNat
    let scaled := (2 * (weight * rttReferenceMs) + divisor) / (2 * divisor)
    let asU64 :=
      if 2 ^ 64 ≤ scaled then u64Max else if scaled < 1 then 1 else scaled
    max asU64 1

/-- The samples that are fresh at a time, by endpoint. -/
structure RttCache where
  freshRttMs : List UInt8 → UInt64 → Option UInt32

def effectiveRttMs (cache : RttCache) (endpointId : List UInt8) (now : UInt64) :
    UInt32 :=
  (cache.freshRttMs endpointId now).getD neutralRttMs

def Relay.proximity (cache : RttCache) (now : UInt64) (relay : Relay) : Nat :=
  proximityScore relay.share (effectiveRttMs cache relay.endpointId now)

def selectByProximityWithRng (relays : List Relay) (query : ExitQuery)
    (cache : RttCache) (now : UInt64) (roll : Nat) : Except SelectorError (Option Entry) :=
  selectScored (Relay.proximity cache now) relays query roll

/-! ## What the rolls pick -/

section

theorem mem_candidates : entry ∈ candidates relays query ↔ relays[entry.2]? = some entry.1 ∧
      0 < entry.1.weight ∧ query.accepts entry.1 := by
  rw [candidates, mem_filter, mem_zipIdx_iff_getElem?, Bool.and_eq_true, decide_eq_true_eq]

theorem scored_distinct (score : Relay → Nat) (relays : List Relay)
    (query : ExitQuery) : ((scored score relays query).map Prod.fst).Nodup := by
  have same : (scored score relays query).map Prod.fst = candidates relays query := by
    simp [scored, Function.comp_def]
  rw [same]
  apply Nodup.filter
  apply Nodup.of_map Prod.snd
  rw [zipIdx_map_snd]
  exact nodup_range'

theorem total_eq (score : Relay → Nat) (relays : List Relay) (query : ExitQuery) :
    total score relays query = min (weightSum (scored score relays query)) u64Max :=
  saturatingTotal_eq _ _

theorem select_hit {roll : Nat} (below : roll < total score relays query) :
    ∃ entry ∈ candidates relays query, scan (scored score relays query) roll = .hit entry ∧
        selectScored score relays query roll = .ok (some entry) := by
  have inside := below
  rw [total_eq] at inside
  rcases scan_hits (by omega : roll < weightSum (scored score relays query)) with
    ⟨pair, member, _, hit⟩
  rcases mem_map.mp member with ⟨entry, listed, rfl⟩
  refine ⟨entry, listed, hit, ?_⟩
  have some : ¬ (candidates relays query).isEmpty := by
    rw [List.isEmpty_iff]
    exact ne_nil_of_mem listed
  rw [selectScored, if_neg some, weightedPickScored, if_neg, hit]
  exact Nat.ne_of_gt (Nat.zero_lt_of_lt below)

/-- An entry is picked by as many rolls as it scores. -/
theorem countP_select (bounded : weightSum (scored score relays query) < 2 ^ 64)
    (listed : entry ∈ candidates relays query) : (range (total score relays query)).countP
      (fun roll => selectScored score relays query roll = .ok (some entry)) = score entry.1 := by
  have whole : total score relays query = weightSum (scored score relays query) := by
    rw [total_eq, u64Max]
    omega
  rw [← countP_scan (scored_distinct score relays query)
    (mem_map.mpr ⟨entry, listed, rfl⟩), ← whole]
  apply countP_congr
  intro roll inside
  rcases select_hit (mem_range.mp inside) with ⟨other, _, hit, picked⟩
  simp [hit, picked]

theorem total_pos (positive : ∀ entry ∈ candidates relays query, 0 < score entry.1)
    (listed : entry ∈ candidates relays query) : 0 < total score relays query := by
  have member : score entry.1 ∈ (scored score relays query).map Prod.snd :=
    mem_map.mpr ⟨_, mem_map.mpr ⟨entry, listed, rfl⟩, rfl⟩
  have least := le_sum_of_mem member
  have some := positive entry listed
  rw [total_eq, weightSum, u64Max]
  omega

end

theorem share_pos {relays : List Relay} {query : ExitQuery} :
    ∀ entry ∈ candidates relays query, 0 < entry.1.share := by
  intro entry listed
  exact UInt64.lt_iff_toNat_lt.mp (mem_candidates.mp listed).2.1

/-- Every relay that can be picked is picked by as many rolls as it weighs. -/
theorem selectWithRng_exact (relays : List Relay) (query : ExitQuery) :
    (weightSum (scored Relay.share relays query) < 2 ^ 64 → total Relay.share relays query =
        weightSum (scored Relay.share relays query) ∧
      ∀ entry ∈ candidates relays query, (range (total Relay.share relays query)).countP
          (fun roll => selectWithRng relays query roll = .ok (some entry)) = entry.1.weight.toNat) ∧
    (candidates relays query = [] →
      ∀ roll, selectWithRng relays query roll = .error .noRelayMatch) ∧
    (candidates relays query ≠ [] → 0 < total Relay.share relays query) ∧
    ∀ roll < total Relay.share relays query, ∃ entry : Entry,
      scan (scored Relay.share relays query) roll = .hit entry ∧
      selectWithRng relays query roll = .ok (some entry) ∧
      relays[entry.2]? = some entry.1 ∧ 0 < entry.1.weight ∧ query.accepts entry.1 := by
  refine ⟨?_, ?_, ?_, ?_⟩
  · intro bounded
    constructor
    · rw [total_eq, u64Max]
      omega
    · exact fun entry listed => countP_select bounded listed
  · intro empty roll
    simp [selectWithRng, selectScored, empty]
  · intro some
    rcases exists_mem_of_ne_nil _ some with ⟨entry, listed⟩
    exact total_pos share_pos listed
  · intro roll below
    rcases select_hit below with ⟨entry, listed, hit, picked⟩
    exact ⟨entry, hit, picked, mem_candidates.mp listed⟩

/-! ## Without measurements -/

/-- The part of the possible rolls that pick an entry. -/
def chance (pick : Nat → Except SelectorError (Option Entry)) (total : Nat) (entry : Entry) : ℚ :=
  (range total).countP (fun roll => pick roll = .ok (some entry)) / total

theorem neutral_le {weight : Nat} (positive : 0 < weight) :
    0 < proximityScore weight neutralRttMs ∧ proximityScore weight neutralRttMs ≤ weight := by
  have neutral : neutralRttMs.toNat = 60 := rfl
  rw [proximityScore, if_neg (Nat.ne_of_gt positive)]
  simp only [rttReferenceMs, neutral, u64Max]
  split
  · omega
  · split <;> omega

section

theorem weightSum_scored (score : Relay → Nat) : weightSum (scored score relays query) =
      ((candidates relays query).map fun entry => score entry.1).sum := by
  simp [weightSum, scored, Function.comp_def]

/-- Two scores give every entry the same chance exactly if they are
proportional. -/
theorem chance_eq_iff (firstPos : ∀ entry ∈ candidates relays query, 0 < first entry.1)
    (secondPos : ∀ entry ∈ candidates relays query, 0 < second entry.1)
    (firstSum : weightSum (scored first relays query) < 2 ^ 64)
    (secondSum : weightSum (scored second relays query) < 2 ^ 64) :
    (∀ entry ∈ candidates relays query,
      chance (selectScored first relays query) (total first relays query) entry =
        chance (selectScored second relays query) (total second relays query) entry) ↔
      ∀ left ∈ candidates relays query, ∀ right ∈ candidates relays query,
        first left.1 * second right.1 = first right.1 * second left.1 := by
  have firstTotal : total first relays query = weightSum (scored first relays query) := by
    rw [total_eq, u64Max]
    omega
  have secondTotal : total second relays query = weightSum (scored second relays query) := by
    rw [total_eq, u64Max]
    omega
  -- In whole numbers: the shares of one entry, each times the other's total.
  have shares : ∀ entry ∈ candidates relays query,
      (chance (selectScored first relays query) (total first relays query) entry =
        chance (selectScored second relays query) (total second relays query) entry ↔
      first entry.1 * weightSum (scored second relays query) =
        second entry.1 * weightSum (scored first relays query)) := by
    intro entry listed
    have firstNe : (total first relays query : ℚ) ≠ 0 :=
      Nat.cast_ne_zero.mpr (Nat.ne_of_gt (total_pos firstPos listed))
    have secondNe : (total second relays query : ℚ) ≠ 0 :=
      Nat.cast_ne_zero.mpr (Nat.ne_of_gt (total_pos secondPos listed))
    rw [chance, chance, countP_select firstSum listed,
      countP_select secondSum listed, div_eq_div_iff firstNe secondNe,
      firstTotal, secondTotal]
    exact_mod_cast Iff.rfl
  constructor
  · intro equal left leftListed right rightListed
    have leftShare := (shares left leftListed).mp (equal left leftListed)
    have rightShare := (shares right rightListed).mp (equal right rightListed)
    have positive := total_pos secondPos leftListed
    rw [secondTotal] at positive
    apply Nat.eq_of_mul_eq_mul_right positive
    calc first left.1 * second right.1 * weightSum (scored second relays query)
        = second right.1 * (first left.1 * weightSum (scored second relays query)) := by ring
      _ = second left.1 * (second right.1 * weightSum (scored first relays query)) := by
          rw [leftShare]
          ring
      _ = first right.1 * second left.1 * weightSum (scored second relays query) := by
          rw [← rightShare]
          ring
  · intro proportional entry listed
    rw [shares entry listed, weightSum_scored, weightSum_scored,
      ← sum_map_mul_left, ← sum_map_mul_left]
    congr 1
    apply map_congr_left
    intro other member
    rw [proportional entry listed other member, Nat.mul_comm]

end

/-- Without a fresh sample the chances are those of the weights exactly if the
rounded scores are proportional to the weights. -/
theorem unmeasured_chances_iff (relays : List Relay) (query : ExitQuery)
    (cache : RttCache) (now : UInt64)
    (bounded : weightSum (scored Relay.share relays query) < 2 ^ 64)
    (unmeasured : ∀ entry ∈ candidates relays query,
      cache.freshRttMs entry.1.endpointId now = none) :
    (∀ entry ∈ candidates relays query, chance (selectByProximityWithRng relays query cache now)
          (total (Relay.proximity cache now) relays query) entry =
        chance (selectWithRng relays query) (total Relay.share relays query) entry) ↔
      ∀ left ∈ candidates relays query, ∀ right ∈ candidates relays query,
        proximityScore left.1.weight.toNat neutralRttMs *
            right.1.weight.toNat =
          proximityScore right.1.weight.toNat neutralRttMs *
            left.1.weight.toNat := by
  have neutral : ∀ entry ∈ candidates relays query, entry.1.proximity cache now =
        proximityScore entry.1.share neutralRttMs := by
    intro entry listed
    rw [Relay.proximity, effectiveRttMs, unmeasured entry listed, Option.getD_none]
  have sum : weightSum (scored (Relay.proximity cache now) relays query) ≤
      weightSum (scored Relay.share relays query) := by
    rw [weightSum_scored, weightSum_scored]
    apply List.sum_le_sum
    intro entry listed
    rw [neutral entry listed]
    exact (neutral_le (share_pos entry listed)).2
  have positive : ∀ entry ∈ candidates relays query, 0 < entry.1.proximity cache now := by
    intro entry listed
    rw [neutral entry listed]
    exact (neutral_le (share_pos entry listed)).1
  refine (chance_eq_iff positive share_pos (Nat.lt_of_le_of_lt sum bounded) bounded).trans ⟨?_, ?_⟩
  · intro proportional left leftListed right rightListed
    have here := proportional left leftListed right rightListed
    rwa [neutral left leftListed, neutral right rightListed] at here
  · intro proportional left leftListed right rightListed
    rw [neutral left leftListed, neutral right rightListed]
    exact proportional left leftListed right rightListed

namespace Sample

def relay (weight : UInt64) : Relay where
  endpointId := []
  addrs := [⟨.v4 ⟨0⟩, 443⟩]
  location := ⟨[], []⟩
  weight
  active := true

def equals : List Relay := [relay 3, relay 3]

def unprobed : RttCache := ⟨fun _ _ => none⟩

end Sample

/-- Equal weights keep their chances. -/
theorem unmeasured_chances_iff_equal :
    chance (selectByProximityWithRng Sample.equals {} Sample.unprobed 0)
        (total (Relay.proximity Sample.unprobed 0) Sample.equals {}) (Sample.relay 3, 0) =
      chance (selectWithRng Sample.equals {})
        (total Relay.share Sample.equals {}) (Sample.relay 3, 0) :=
  (unmeasured_chances_iff Sample.equals {} Sample.unprobed 0
    (by decide) (by decide)).mpr (by decide) _ (by decide)

/-- A relay of twice the weight is picked by half of the rolls, in place of two
thirds. -/
theorem double_weight_evened :
    let relays := [Sample.relay 1, Sample.relay 2]
    (range (total Relay.share relays {})).countP
        (fun roll => selectWithRng relays {} roll = .ok (some (Sample.relay 2, 1)))
      = 2 ∧ total Relay.share relays {} = 3 ∧
    (range (total (Relay.proximity Sample.unprobed 0) relays {})).countP
        (fun roll => selectByProximityWithRng relays {} Sample.unprobed 0 roll =
          .ok (some (Sample.relay 2, 1)))
      = 1 ∧ total (Relay.proximity Sample.unprobed 0) relays {} = 2 := by
  decide

end WarrenSdk.Discovery
