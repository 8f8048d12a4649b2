import WarrenSdk.Bolthole.Plan

/-! # The complement of a list of networks

What is left of the address space is a list of prefixes. Cutting a network out
of a larger prefix leaves the prefixes that end in the other bit, one for every
length between the two. -/

namespace WarrenSdk.Bolthole

open List

/-- What is left of one prefix. -/
def subtractOne {width : Nat} (mask : Nat → BitVec width) (base : BitVec width)
    (length : Nat) (net : BitVec width × Nat) : List (BitVec width × Nat) :=
  if length < net.2 ∨ base &&& mask net.2 ≠ net.1 then
    if length ≤ net.2 ∧ net.1 &&& mask length = base &&& mask length then []
    else [net]
  else
    (List.range' (net.2 + 1) (length - net.2)).map fun length =>
      ((base &&& mask length) ^^^ (BitVec.ofNat width 1 <<< (width - length)), length)

def subtract32 (networks : List (BitVec 32 × Nat)) (base : BitVec 32)
    (length : Nat) : List (BitVec 32 × Nat) :=
  networks.flatMap (subtractOne mask32 base length)

def subtract128 (networks : List (BitVec 128 × Nat)) (base : BitVec 128)
    (length : Nat) : List (BitVec 128 × Nat) :=
  networks.flatMap (subtractOne mask128 base length)

/-- A network, unless its address has bits behind the mask. -/
def IpNetwork.new (addr : IpAddr) (netmask : Nat) : Option IpNetwork :=
  if valid : netmask ≤ IpAddr.bitWidth addr.isIpv6 ∧
      addr.toBits % 2 ^ (IpAddr.bitWidth addr.isIpv6 - netmask) = 0 then
    some ⟨addr, netmask, valid.1, valid.2⟩
  else none

/-- What is left of both address spaces. -/
def remaining (exclude : List IpNetwork) : List (BitVec 32 × Nat) × List (BitVec 128 × Nat) :=
  exclude.foldl (fun left network =>
    match network.address with
    | .v4 addr => (subtract32 left.1 addr.bits network.netmask, left.2)
    | .v6 addr => (left.1, subtract128 left.2 addr.bits network.netmask))
    ([(0, 0)], [(0, 0)])

def sorted {width : Nat} (networks : List (BitVec width × Nat)) : List (BitVec width × Nat) :=
  networks.mergeSort fun left right => left.1 < right.1 || (left.1 = right.1 && left.2 ≤ right.2)

def complement (exclude : List IpNetwork) : List IpNetwork :=
  (sorted (remaining exclude).1).filterMap (fun net => IpNetwork.new (.v4 ⟨net.1⟩) net.2) ++
    (sorted (remaining exclude).2).filterMap (fun net => IpNetwork.new (.v6 ⟨net.1⟩) net.2)

example : (complement [⟨.v4 ⟨0x80000000⟩, 1, by decide, by decide⟩]).length =
    2 := by
  decide +kernel

/-! ## Prefixes that are left -/

section Prefixes

variable {length : Nat} {networks : List (BitVec width × Nat)}

def Covers (net : BitVec width × Nat) (number : Nat) : Prop :=
  SameBlock (width - net.2) number net.1.toNat

def Disjoint (left right : BitVec width × Nat) : Prop :=
  ∀ number, Covers left number → ¬ Covers right number

structure Aligned (net : BitVec width × Nat) : Prop where
  fits : net.2 ≤ width
  noHostBits : net.1.toNat % 2 ^ (width - net.2) = 0

/-- Prefixes that cover some numbers, each of them once. -/
structure Tiles (networks : List (BitVec width × Nat)) (numbers : Nat → Prop) : Prop where
  aligned : ∀ net ∈ networks, Aligned net
  disjoint : networks.Pairwise Disjoint
  covers : ∀ number, (∃ net ∈ networks, Covers net number) ↔ numbers number

theorem masked_eq_iff (aligned : Aligned net) :
    base &&& SameBlock.mask width net.2 = net.1 ↔ Covers net base.toNat := by
  have whole : net.1 &&& SameBlock.mask width net.2 = net.1 := by
    apply BitVec.eq_of_toNat_eq
    exact SameBlock.eq_of_aligned (SameBlock.masked_aligned _)
      aligned.noHostBits (SameBlock.masked_same _ _)
  rw [Covers, ← SameBlock.masked_iff, whole]

/-- Cutting a network out of one prefix. -/
theorem subtractOne_tiles (aligned : Aligned net) (fits : length ≤ width) :
    Tiles (subtractOne (SameBlock.mask width) base length net) fun number =>
      Covers net number ∧ ¬ SameBlock (width - length) number base.toNat := by
  unfold subtractOne
  split
  · rename_i apart
    split
    · rename_i inside
      rw [SameBlock.masked_iff] at inside
      refine ⟨by simp, .nil, ?_⟩
      intro number
      refine iff_of_false (by simp) ?_
      rintro ⟨covers, outside⟩
      exact outside ((covers.coarser (by omega)).trans inside.2)
    · rename_i outside
      rw [SameBlock.masked_iff] at outside
      refine ⟨by simpa using aligned, pairwise_singleton _ _, ?_⟩
      intro number
      simp only [mem_singleton, exists_eq_left]
      refine ⟨fun covers => ⟨covers, ?_⟩, And.left⟩
      intro inside
      rcases apart with shorter | apart
      · exact outside ⟨by omega, (covers.coarser (by omega)).symm.trans inside⟩
      · rw [ne_eq, masked_eq_iff aligned] at apart
        by_cases shorter : length < net.2
        · exact outside ⟨by omega, (covers.coarser (by omega)).symm.trans inside⟩
        · exact apart ((inside.coarser (by omega)).symm.trans covers)
  · rename_i within
    rw [not_or, not_not, masked_eq_iff aligned] at within
    have ordered := Nat.not_lt.mp within.1
    have siblings : ∀ other, other ∈ List.range' (net.2 + 1) (length - net.2) →
        net.2 < other ∧ other ≤ length ∧ Aligned (SameBlock.sibling base other, other) ∧
        ∀ number, Covers (SameBlock.sibling base other, other) number ↔
          SameBlock (width - other + 1) number base.toNat ∧
            ¬ SameBlock (width - other) number base.toNat := by
      intro other member
      rw [mem_range'_1] at member
      have spec := SameBlock.sibling_spec base (show 0 < other by omega) (by omega)
      exact ⟨by omega, by omega, ⟨by dsimp only; omega, spec.1⟩, spec.2⟩
    change Tiles ((List.range' (net.2 + 1) (length - net.2)).map fun other =>
      (SameBlock.sibling base other, other)) _
    refine ⟨?_, ?_, ?_⟩
    · intro piece member
      rcases mem_map.mp member with ⟨other, inRange, rfl⟩
      exact (siblings other inRange).2.2.1
    · rw [pairwise_map]
      apply (pairwise_lt_range' 1).imp_of_mem
      intro left right leftIn rightIn before number leaves agrees
      rcases ((siblings left leftIn).2.2.2 number).mp leaves with ⟨_, leaves⟩
      rcases ((siblings right rightIn).2.2.2 number).mp agrees with ⟨agrees, _⟩
      have inside := (siblings right rightIn).2.1
      exact leaves (agrees.coarser (by omega))
    · intro number
      have same : Covers net number ↔ SameBlock (width - net.2) number base.toNat :=
        ⟨fun covers => covers.trans within.2.symm, fun agrees => agrees.trans within.2⟩
      rw [same, ← SameBlock.leaves_iff ordered fits]
      constructor
      · rintro ⟨piece, member, covers⟩
        rcases mem_map.mp member with ⟨other, inRange, rfl⟩
        have spec := siblings other inRange
        exact ⟨other, spec.1, spec.2.1, (spec.2.2.2 number).mp covers⟩
      · rintro ⟨other, lower, upper, leaves⟩
        have inRange : other ∈ List.range' (net.2 + 1) (length - net.2) := by
          rw [mem_range'_1]
          omega
        exact ⟨_, mem_map.mpr ⟨other, inRange, rfl⟩,
          ((siblings other inRange).2.2.2 number).mpr leaves⟩

theorem Tiles.congr (tiles : Tiles networks numbers)
    (same : ∀ number, numbers number ↔ others number) : Tiles networks others :=
  ⟨tiles.aligned, tiles.disjoint, fun number => (tiles.covers number).trans (same number)⟩

theorem Tiles.subtract (tiles : Tiles networks numbers) (fits : length ≤ width) :
    Tiles (networks.flatMap (subtractOne (SameBlock.mask width) base length))
      fun number => numbers number ∧ ¬ SameBlock (width - length) number base.toNat := by
  have pieces : ∀ net ∈ networks, Tiles (subtractOne (SameBlock.mask width) base length net) _ :=
    fun net member => subtractOne_tiles (tiles.aligned net member) fits
  refine ⟨?_, ?_, ?_⟩
  · intro piece member
    rcases mem_flatMap.mp member with ⟨net, listed, member⟩
    exact (pieces net listed).aligned piece member
  · rw [pairwise_flatMap]
    refine ⟨fun net member => (pieces net member).disjoint, ?_⟩
    apply tiles.disjoint.imp_of_mem
    intro left right leftIn rightIn apart piece ofLeft other ofRight number covers otherCovers
    exact apart number (((pieces left leftIn).covers number).mp ⟨piece, ofLeft, covers⟩).1
      (((pieces right rightIn).covers number).mp ⟨other, ofRight, otherCovers⟩).1
  · intro number
    rw [← tiles.covers]
    constructor
    · rintro ⟨piece, member, covers⟩
      rcases mem_flatMap.mp member with ⟨net, listed, member⟩
      rcases ((pieces net listed).covers number).mp ⟨piece, member, covers⟩ with ⟨whole, outside⟩
      exact ⟨⟨net, listed, whole⟩, outside⟩
    · rintro ⟨⟨net, listed, whole⟩, outside⟩
      rcases ((pieces net listed).covers number).mpr ⟨whole, outside⟩ with ⟨piece, member, covers⟩
      exact ⟨piece, mem_flatMap.mpr ⟨net, listed, member⟩, covers⟩

theorem tiles_whole : Tiles [((0 : BitVec width), 0)] (· < 2 ^ width) where
  aligned := by
    intro net member
    rw [mem_singleton.mp member]
    exact ⟨Nat.zero_le _, by simp⟩
  disjoint := pairwise_singleton _ _
  covers := by
    intro number
    simp [Covers, SameBlock, Nat.div_eq_zero_iff]

end Prefixes

/-! ## The complement -/

/-- A network of a family has the number. -/
def Has (v6 : Bool) (net : IpNetwork) (number : Nat) : Prop :=
  net.address.isIpv6 = v6 ∧ SameBlock net.hostBits number net.address.toBits

theorem spared_snoc : (number < bound ∧ ∀ net ∈ past ++ [network], ¬ Has v6 net number) ↔
      (number < bound ∧ ∀ net ∈ past, ¬ Has v6 net number) ∧ ¬ Has v6 network number := by
  simp only [forall_mem_append, forall_mem_singleton, and_assoc]

/-- What is left of the two spaces tiles what no network of the list has. -/
theorem remaining_tiles (exclude : List IpNetwork) :
    Tiles (remaining exclude).1 (fun number => number < 2 ^ 32 ∧
      ∀ net ∈ exclude, ¬ Has false net number) ∧
    Tiles (remaining exclude).2 (fun number => number < 2 ^ 128 ∧
      ∀ net ∈ exclude, ¬ Has true net number) := by
  induction exclude using List.reverseRecOn with
  | nil => simpa [remaining] using ⟨tiles_whole, tiles_whole⟩
  | append_singleton past network induction =>
    rcases network with ⟨addr, netmask, fits, noHostBits⟩
    rw [remaining, foldl_concat, ← remaining]
    simp only [spared_snoc]
    cases addr with
    | v4 addr =>
      have cut : Tiles (subtract32 (remaining past).1 addr.bits netmask) _ :=
        induction.1.subtract fits
      refine ⟨cut.congr fun number => and_congr_right fun _ => not_congr ?_,
        induction.2.congr fun number => ?_⟩
      · exact ⟨fun same => ⟨rfl, same⟩, And.right⟩
      · exact ⟨fun spared => ⟨spared, fun has => by cases has.1⟩, And.left⟩
    | v6 addr =>
      have cut : Tiles (subtract128 (remaining past).2 addr.bits netmask) _ :=
        induction.2.subtract fits
      refine ⟨induction.1.congr fun number => ?_,
        cut.congr fun number => and_congr_right fun _ => not_congr ?_⟩
      · exact ⟨fun spared => ⟨spared, fun has => by cases has.1⟩, And.left⟩
      · exact ⟨fun same => ⟨rfl, same⟩, And.right⟩

section Families

variable {make : BitVec width → IpAddr}

/-- No aligned prefix is dropped. -/
theorem new_of_aligned (aligned : Aligned net) (family : (make net.1).isIpv6 = v6)
    (spelled : (make net.1).toBits = net.1.toNat) (wide : IpAddr.bitWidth v6 = width) :
    ∃ network, IpNetwork.new (make net.1) net.2 = some network ∧
      ∀ addr, network.contains addr ↔ addr.isIpv6 = v6 ∧ Covers net addr.toBits := by
  have valid : net.2 ≤ IpAddr.bitWidth (make net.1).isIpv6 ∧ (make net.1).toBits %
      2 ^ (IpAddr.bitWidth (make net.1).isIpv6 - net.2) = 0 := by
    rw [family, wide, spelled]
    exact ⟨aligned.fits, aligned.noHostBits⟩
  refine ⟨_, dif_pos valid, ?_⟩
  intro addr
  rw [IpNetwork.contains_iff]
  simp only [IpNetwork.hostBits, family, spelled, wide, Covers]

theorem networks_of_tiles (tiles : Tiles networks numbers)
    (family : ∀ bits, (make bits).isIpv6 = v6) (spelled : ∀ bits, (make bits).toBits = bits.toNat)
    (wide : IpAddr.bitWidth v6 = width) :
    let found := (sorted networks).filterMap fun net => IpNetwork.new (make net.1) net.2
    found.length = networks.length ∧
    found.Pairwise (fun left right => ∀ addr,
      left.contains addr = true → ¬ right.contains addr = true) ∧
    ∀ addr, (∃ net ∈ found, net.contains addr = true) ↔ addr.isIpv6 = v6 ∧ numbers addr.toBits := by
  have order : (sorted networks).Perm networks := mergeSort_perm _ _
  have valid : ∀ net ∈ sorted networks, _ := fun net member =>
    new_of_aligned (tiles.aligned net (order.mem_iff.mp member)) (family net.1) (spelled net.1) wide
  dsimp only
  refine ⟨?_, ?_, ?_⟩
  · rw [← order.length_eq, filterMap_length_eq_length]
    intro net member
    rcases valid net member with ⟨network, made, _⟩
    rw [made]
    rfl
  · rw [pairwise_filterMap]
    have disjoint : (sorted networks).Pairwise Disjoint := by
      refine (order.pairwise_iff ?_).mpr tiles.disjoint
      intro left right apart number covers others
      exact apart number others covers
    apply disjoint.imp_of_mem
    intro left right leftIn rightIn apart net made other otherMade addr inside otherInside
    rcases valid left leftIn with ⟨_, found, covers⟩
    cases made.symm.trans found
    rcases valid right rightIn with ⟨_, found, otherCovers⟩
    cases otherMade.symm.trans found
    exact apart addr.toBits ((covers addr).mp inside).2 ((otherCovers addr).mp otherInside).2
  · intro addr
    rw [← tiles.covers]
    constructor
    · rintro ⟨network, member, inside⟩
      rcases mem_filterMap.mp member with ⟨net, listed, made⟩
      rcases valid net listed with ⟨_, found, covers⟩
      cases made.symm.trans found
      rcases (covers addr).mp inside with ⟨same, covered⟩
      exact ⟨same, net, order.mem_iff.mp listed, covered⟩
    · rintro ⟨same, net, listed, covered⟩
      have listed := order.mem_iff.mpr listed
      rcases valid net listed with ⟨network, made, covers⟩
      exact ⟨network, mem_filterMap.mpr ⟨net, listed, made⟩, (covers addr).mpr ⟨same, covered⟩⟩

end Families

/-- The complement has exactly the addresses of no excluded network, each in
one network, and none of its networks is dropped for its host bits. -/
theorem complement_exact (exclude : List IpNetwork) :
    (∀ addr, (∃ net ∈ complement exclude, net.contains addr = true) ↔
      ∀ net ∈ exclude, net.contains addr = false) ∧
    (complement exclude).Pairwise (fun left right => ∀ addr,
      left.contains addr = true → ¬ right.contains addr = true) ∧
    (complement exclude).length = (remaining exclude).1.length + (remaining exclude).2.length := by
  rcases remaining_tiles exclude with ⟨four, six⟩
  rcases networks_of_tiles four (fun bits => Eq.refl (IpAddr.v4 ⟨bits⟩).isIpv6)
    (fun _ => rfl) rfl with ⟨fourLength, fourApart, fourHas⟩
  rcases networks_of_tiles six (fun bits => Eq.refl (IpAddr.v6 ⟨bits⟩).isIpv6)
    (fun _ => rfl) rfl with ⟨sixLength, sixApart, sixHas⟩
  have spared : ∀ addr : IpAddr, (∀ net ∈ exclude, net.contains addr = false) ↔
        ∀ net ∈ exclude, ¬ Has addr.isIpv6 net addr.toBits := by
    intro addr
    apply forall₂_congr
    intro net _
    rw [← Bool.not_eq_true, IpNetwork.contains_iff, Has, eq_comm]
  refine ⟨?_, ?_, ?_⟩
  · intro addr
    rw [spared, complement]
    simp only [mem_append, or_and_right, exists_or, fourHas, sixHas]
    cases addr with
    | v4 addr | v6 addr => simp [IpAddr.isIpv6, IpAddr.toBits, addr.bits.isLt]
  · rw [complement, pairwise_append]
    refine ⟨fourApart, sixApart, ?_⟩
    intro left leftIn right rightIn addr inside otherInside
    have v4 := ((fourHas addr).mp ⟨left, leftIn, inside⟩).1
    have v6 := ((sixHas addr).mp ⟨right, rightIn, otherInside⟩).1
    cases v4.symm.trans v6
  · rw [complement, length_append, fourLength, sixLength]

end WarrenSdk.Bolthole
