import Mathlib
import WarrenSdk.Foundation.Execution

/-! # Bonded sinks

A bond stripes packets over its members. What it offers is fixed when it is made;
what a member carries is the member's own and may change. -/

namespace WarrenSdk.Net.Bond

open List

open Execution (run Guarded)

structure BondedPacketSink where
  /-- What each member carries now. -/
  members : List Nat
  next : Nat
  maxPayload : Nat

/-- The bond of the members, unless there are none. -/
def BondedPacketSink.new (members : List Nat) : Option BondedPacketSink :=
  members.min?.map fun maxPayload => ⟨members, 0, maxPayload⟩

inductive Action where
  /-- A member comes to carry packets of this length. -/
  | budget (member maxPayload : Nat)
  | sendPacket

def step (bond : BondedPacketSink) : Action → BondedPacketSink
  | .budget member maxPayload =>
    { bond with members := bond.members.set member maxPayload }
  | .sendPacket => { bond with next := (bond.next + 1) % 2 ^ 64 }

/-- What the member carries that the next packet is striped to. -/
def striped (bond : BondedPacketSink) : Option Nat := bond.members[bond.next % bond.members.length]?

/-- The bond offers no more than any member carries, and what it offers fits the
member that it is striped to. -/
def Carried (bond : BondedPacketSink) : Prop :=
  (∀ carried ∈ bond.members, bond.maxPayload ≤ carried) ∧
    ∃ carried ∈ striped bond, ∀ length ≤ bond.maxPayload, length ≤ carried

/-- No member of the bond comes to carry less than the bond offers. -/
def Kept (bond : BondedPacketSink) : Action → Prop
  | .budget member maxPayload => member < bond.members.length → bond.maxPayload ≤ maxPayload
  | .sendPacket => True

theorem carried_iff (some : bond.members ≠ []) :
    Carried bond ↔ ∀ carried ∈ bond.members, bond.maxPayload ≤ carried := by
  constructor
  · exact And.left
  · intro offered
    have inside : bond.next % bond.members.length < bond.members.length :=
      Nat.mod_lt _ (length_pos_iff.mpr some)
    refine ⟨offered, _, List.getElem?_eq_getElem inside, ?_⟩
    intro length fits
    exact Nat.le_trans fits (offered _ (getElem_mem inside))

theorem step_nonempty (action : Action) (some : bond.members ≠ []) :
    (step bond action).members ≠ [] := by
  cases action with
  | budget member maxPayload => simpa [step] using some
  | sendPacket => exact some

theorem step_carried_iff (action : Action) (some : bond.members ≠ []) (carried : Carried bond) :
    Carried (step bond action) ↔ Kept bond action := by
  have offered := (carried_iff some).mp carried
  rw [carried_iff (step_nonempty action some)]
  cases action with
  | sendPacket => exact iff_of_true offered trivial
  | budget member maxPayload =>
    constructor
    · intro now inside
      exact now _ (mem_set inside maxPayload)
    · intro kept other mem
      rcases mem_or_eq_of_mem_set mem with old | rfl
      · exact offered other old
      · by_cases inside : member < bond.members.length
        · exact kept inside
        · rw [step, set_eq_of_length_le (Nat.le_of_not_lt inside)] at mem
          exact offered other mem

/-- A bond offers what its members carry at every moment exactly if no member
comes to carry less than the least that they carried when the bond was made. -/
theorem bond_carried_iff (members : List Nat) (bond : BondedPacketSink)
    (actions : List Action) (bonded : BondedPacketSink.new members = some bond) :
    (∀ past later, actions = past ++ later → Carried (run step bond past)) ↔
      Guarded step Kept bond actions := by
  rcases Option.map_eq_some_iff.mp bonded with ⟨least, minimum, rfl⟩
  have least := List.min?_eq_some_iff.mp minimum
  have nonempty : members ≠ [] := ne_nil_of_mem least.1
  apply Execution.everywhere_iff step (fun _ => True)
    (fun bond => bond.members ≠ []) Carried nonempty ((carried_iff nonempty).mpr least.2)
  · exact fun _ action _ => step_nonempty action
  · intro bond action _ some carried
    exact step_carried_iff action some carried
  · exact fun _ _ => trivial

theorem bond_carried_iff_pair : (∀ past later, [Action.budget 1 1400, .sendPacket] = past ++ later →
        Carried (run step ⟨[1280, 1350], 0, 1280⟩ past)) ↔
      Guarded step Kept ⟨[1280, 1350], 0, 1280⟩ [.budget 1 1400, .sendPacket] :=
  bond_carried_iff [1280, 1350] _ _ rfl

/-- After a member's path has shrunk the bond still offers the old length, and the
next packet goes to that member. -/
theorem bond_offers_too_much : (BondedPacketSink.new [1280, 1280]).map (fun bond =>
        let later := run step bond [.sendPacket, .budget 1 1200]
        (later.maxPayload, striped later)) =
      some (1280, some 1200) := by
  decide

end WarrenSdk.Net.Bond
