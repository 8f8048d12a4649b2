import WarrenSdk.Bolthole.Ports
import WarrenSdk.Foundation.Execution

/-! # Runs of a port allocator

The free list and the slots stay inverse to each other through every sequence
of calls, and a port that was handed out comes back only by a release. -/

namespace WarrenSdk.Bolthole.PortAllocator

open Execution List

inductive Call
  | alloc (preferred : Option UInt16) (draw : Nat)
  | reserve (port : UInt16)
  | unreserve (port : UInt16)
  | release (port : UInt16)

def call (allocator : PortAllocator) : Call → PortAllocator
  | .alloc preferred draw => (allocator.alloc preferred draw).2
  | .reserve port => (allocator.reserve port).2
  | .unreserve port => (allocator.unreserve port).2
  | .release port => allocator.release port

section

variable {allocator : PortAllocator}

/-- What a call makes of the free and the reserved ports. -/
theorem call_becomes (valid : allocator.Valid) (action : Call) :
    ∃ free reserved, allocator.Becomes (allocator.call action) free reserved ∧
      ∀ port, action ≠ .release port → port ∉ allocator.free →
        allocator.isReserved port = false → ¬ free port ∧ ¬ reserved port := by
  cases action with
  | alloc preferred draw =>
    rcases alloc_spec valid preferred draw with ⟨_, refused⟩ | ⟨port, after, taken, _, becomes⟩
    · rw [call, refused]
      exact ⟨_, _, valid.unchanged (fun _ => .rfl) fun _ => .rfl, by simp_all⟩
    · rw [call, taken]
      exact ⟨_, _, becomes, by simp_all⟩
  | reserve port =>
    rcases reserve_spec valid port with ⟨_, refusal, refused⟩ | ⟨member, after, done, becomes⟩
    · rw [call, refused]
      exact ⟨_, _, valid.unchanged (fun _ => .rfl) fun _ => .rfl, by simp_all⟩
    · rw [call, done]
      refine ⟨_, _, becomes, ?_⟩
      rintro other - taken notReserved
      refine ⟨fun kept => taken kept.1, ?_⟩
      rintro (reserved | rfl)
      · rw [notReserved] at reserved
        cases reserved
      · exact taken member
  | unreserve port =>
    refine ⟨_, _, (unreserve_spec valid port).2, ?_⟩
    rintro other - taken notReserved
    constructor
    · rintro (free | ⟨rfl, reserved⟩)
      · exact taken free
      · rw [notReserved] at reserved
        cases reserved
    · rw [notReserved]
      exact fun reserved => Bool.noConfusion reserved.1
  | release port =>
    refine ⟨_, _, release_spec valid port, ?_⟩
    intro other different taken notReserved
    constructor
    · rintro (free | ⟨rfl, _⟩)
      · exact taken free
      · exact different rfl
    · rw [notReserved]
      exact Bool.noConfusion

/-- The allocator is a valid one for the ports of the range. -/
def Spans (range : PortRange) (keeps : Bool) (allocator : PortAllocator) : Prop :=
  allocator.Valid ∧ ∀ port, allocator.contains port = true ↔
    range.first ≤ port ∧ port ≤ range.last ∧ (keeps && isControl port) = false

theorem build_spans (range : PortRange) (keeps : Bool) : Spans range keeps (build range keeps) := by
  refine ⟨build_valid range keeps, ?_⟩
  intro port
  rw [← build_free_iff_contains, build, mem_filter, mem_toList, Bool.not_eq_true',
    ← UInt16.le_iff_toNat_le, ← UInt16.le_iff_toNat_le, and_assoc]

theorem spans_run (range : PortRange) (keeps : Bool) (calls : List Call) :
    Spans range keeps (run call (build range keeps) calls) := by
  apply run_invariant call (Spans range keeps) (build_spans range keeps)
  intro allocator action spans
  rcases call_becomes spans.1 action with ⟨_, _, becomes, _⟩
  exact ⟨becomes.valid, fun port => by rw [becomes.contains, spans.2]⟩

/-- The slots are the positions in the free list. -/
theorem Valid.slot_iff (valid : allocator.Valid) {index : Nat}
    (found : allocator.index port = some index) (position : Nat) :
    allocator.slot[index]? = some position ↔
      allocator.free[position]? = some port ∨ position = taken ∧ port ∉ allocator.free := by
  have free := valid.mem_free_iff found
  constructor
  · intro here
    rw [here, Option.getD_some] at free
    by_cases empty : position = taken
    · exact .inr ⟨empty, fun member => free.mp member empty⟩
    · rcases valid.slotted index position here empty with ⟨other, placed, same⟩
      rw [index_injective found same]
      exact .inl placed
  · rintro (placed | ⟨rfl, absent⟩)
    · rcases valid.listed position port placed with ⟨other, same, slot⟩
      rw [found] at same
      cases same
      exact slot
    · have present := List.getElem?_eq_getElem (index_some found).2.1
      rw [present, Option.getD_some] at free
      rw [present, not_not.mp fun filled => absent (free.mpr filled)]

theorem alloc_some (valid : allocator.Valid)
    (given : (allocator.alloc preferred draw).1 = some port) :
    port ∈ allocator.free ∧ (allocator.call (.alloc preferred draw)).Valid ∧
      port ∉ (allocator.call (.alloc preferred draw)).free ∧
      (allocator.call (.alloc preferred draw)).isReserved port = false := by
  rw [call]
  rcases alloc_spec valid preferred draw with ⟨_, refused⟩ | ⟨other, after, taken, member, becomes⟩
  · rw [refused] at given
    cases given
  · rw [taken] at given ⊢
    cases given
    refine ⟨member, becomes.valid, ?_, ?_⟩
    · exact fun again => ((becomes.free port).mp again).2 rfl
    · rw [← Bool.not_eq_true, becomes.reserved]
      exact fun marked => valid.not_mem_free_of_isReserved marked member

theorem alloc_preferred (valid : allocator.Valid) (member : port ∈ allocator.free)
    (draw : Nat) : (allocator.alloc (some port) draw).1 = some port := by
  have contained := valid.contains_of_mem_free member
  rcases Option.isSome_iff_exists.mp contained with ⟨index, found⟩
  have notTaken := (valid.mem_free_iff found).mp member
  have present := List.getElem?_eq_getElem (index_some found).2.1
  rw [present, Option.getD_some] at notTaken
  rcases take_spec valid found member with ⟨after, taken, _⟩
  simp only [alloc, Option.bind_some, found, present, if_neg notTaken, taken]

theorem release_ignored (valid : allocator.Valid)
    (ignored : port ∈ allocator.free ∨ allocator.isReserved port ∨
      allocator.contains port = false) :
    allocator.release port = allocator := by
  rw [release]
  split
  · rfl
  · next index found =>
    rw [valid.mem_free_iff found, isReserved_eq found] at ignored
    simp only [contains, found, Option.isSome_some, Bool.true_eq_false, or_false] at ignored
    split
    · rfl
    · next notReserved => rw [if_pos (ignored.resolve_right notReserved)]

/-- A port that was handed out stays out of the space until it is released. -/
theorem held_run (valid : allocator.Valid) (taken : port ∉ allocator.free)
    (notReserved : allocator.isReserved port = false) (between : List Call)
    (held : .release port ∉ between) : port ∉ (run call allocator between).free := by
  induction between generalizing allocator with
  | nil => exact taken
  | cons action between induction =>
    rw [mem_cons, not_or] at held
    rcases call_becomes valid action with ⟨free, reserved, becomes, keeps⟩
    have out := keeps port (Ne.symm held.1) taken notReserved
    apply induction becomes.valid _ _ held.2
    · exact fun member => out.1 ((becomes.free port).mp member)
    · rw [← Bool.not_eq_true]
      exact fun marked => out.2 ((becomes.reserved port).mp marked)

end

/-- The representation of an allocator, and what its calls answer, after every
sequence of calls. -/
theorem allocator_exact (range : PortRange) (keeps : Bool) (calls : List Call) :
    let allocator := run call (build range keeps) calls
    allocator.free.Nodup ∧
    (∀ port index, allocator.index port = some index → ∀ position : Nat,
      allocator.slot[index]? = some position ↔ allocator.free[position]? = some port ∨
          position = taken ∧ port ∉ allocator.free) ∧
    (∀ index position : Nat, allocator.slot[index]? = some position →
      position ≠ taken → ∃ port, allocator.free[position]? = some port ∧
        allocator.index port = some index) ∧
    (∀ port ∈ allocator.free, allocator.isReserved port = false) ∧
    (∀ preferred draw, ((allocator.alloc preferred draw).1 = none ↔ allocator.free = []) ∧
      (∀ port, preferred = some port → port ∈ allocator.free →
        (allocator.alloc preferred draw).1 = some port) ∧
      ∀ port, (allocator.alloc preferred draw).1 = some port →
        port ∈ allocator.free ∧ allocator.isReserved port = false ∧
        range.first ≤ port ∧ port ≤ range.last ∧ (keeps && isControl port) = false ∧
        ∀ past earlier drawn between, calls = past ++ .alloc earlier drawn :: between →
          ((run call (build range keeps) past).alloc earlier drawn).1 = some port →
          .release port ∈ between) ∧
    ∀ port, port ∈ allocator.free ∨ allocator.isReserved port = true ∨
      ¬ (range.first ≤ port ∧ port ≤ range.last ∧ (keeps && isControl port) = false) →
      allocator.release port = allocator := by
  intro allocator
  rcases spans_run range keeps calls with ⟨valid, contains⟩
  have pinned : ∀ port ∈ allocator.free, allocator.isReserved port = false := by
    intro port member
    rw [← Bool.not_eq_true]
    exact fun marked => valid.not_mem_free_of_isReserved marked member
  refine ⟨valid.nodup, fun port index found => valid.slot_iff found, valid.slotted, pinned, ?_, ?_⟩
  · intro preferred draw
    refine ⟨?_, ?_, ?_⟩
    · rcases alloc_spec valid preferred draw with
        ⟨empty, refused⟩ | ⟨other, after, taken, member, _⟩
      · exact iff_of_true (congrArg Prod.fst refused) empty
      · rw [taken]
        exact iff_of_false nofun (ne_nil_of_mem member)
    · rintro port rfl member
      exact alloc_preferred valid member draw
    · intro port given
      have member := (alloc_some valid given).1
      rcases (contains port).mp (valid.contains_of_mem_free member) with ⟨first, last, outside⟩
      refine ⟨member, pinned port member, first, last, outside, ?_⟩
      intro past earlier drawn between split before
      by_contra held
      rcases alloc_some (spans_run range keeps past).1 before with ⟨_, after, taken, notReserved⟩
      apply held_run after taken notReserved between held
      simpa [allocator, split, run] using member
  · intro port ignored
    apply release_ignored valid
    rwa [← contains, Bool.not_eq_true] at ignored

end WarrenSdk.Bolthole.PortAllocator
