import Mathlib.Algebra.Group.Nat.Defs
import Mathlib.Data.List.Nodup
import WarrenSdk.Foundation.Vec

/-! # The external port space

The free list of one contiguous range of external ports or identifiers. A port
finds its place in the free list through `slot`, and every place in the free
list is the slot of the port that it holds; `Valid` is that correspondence, and
each operation is described by what it does to the free and the reserved
ports. -/

namespace WarrenSdk.Bolthole

open List

inductive CoreError where
  | portOutsidePool
  | portInUse
  | portAlreadyReserved
  | targetNotOwned
  deriving Repr, DecidableEq

def dynamicPoolStart : UInt16 := 32768
def dynamicPoolEnd : UInt16 := 60999
def controlRangeStart : UInt16 := 61000
def controlRangeEnd : UInt16 := 61999

/-- Marks a port that is not in the free list: the largest 32-bit word. -/
def taken : Nat := 2 ^ 32 - 1

def isControl (port : UInt16) : Bool := controlRangeStart ≤ port && port ≤ controlRangeEnd

/-- An inclusive range of ports, empty when it ends before it starts. -/
structure PortRange where
  first : UInt16
  last : UInt16
  deriving Repr, DecidableEq

def PortRange.toList (range : PortRange) : List UInt16 :=
  (List.range' range.first.toNat (range.last.toNat + 1 - range.first.toNat)).map UInt16.ofNat

def slotOf (position : Nat) : Nat :=
  if position < 2 ^ 32 then position else taken

structure PortAllocator where
  base : UInt16
  free : List UInt16
  /-- Per port: its position in `free`, or `taken`. -/
  slot : List Nat
  reserved : List Bool
  capacity : Nat
  /-- A port space keeps the control range out, an identifier space does
  not. -/
  keepsControlRange : Bool
  deriving Repr, DecidableEq

namespace PortAllocator

def build (range : PortRange) (keepsControlRange : Bool) : PortAllocator :=
  let span := range.toList.length
  let free := range.toList.filter fun port =>
    !(keepsControlRange && isControl port)
  let slot := free.zipIdx.foldl
    (fun slot (port, position) =>
      slot.set (port.toNat - range.first.toNat) (slotOf position))
    (List.replicate span taken)
  { base := range.first
    free
    slot
    reserved := List.replicate span false
    capacity := free.length
    keepsControlRange }

def new (range : PortRange) : PortAllocator := build range false

def ports (range : PortRange) : PortAllocator := build range true

def dynamicPool : PortAllocator := ports ⟨dynamicPoolStart, dynamicPoolEnd⟩

def identifiers : PortAllocator := new ⟨1, 65535⟩

def available (allocator : PortAllocator) : Nat := allocator.free.length

def index (allocator : PortAllocator) (port : UInt16) : Option Nat :=
  if allocator.keepsControlRange && isControl port then none
  else if port < allocator.base then none
  else
    let offset := port.toNat - allocator.base.toNat
    if offset < allocator.slot.length then some offset else none

def contains (allocator : PortAllocator) (port : UInt16) : Bool := (allocator.index port).isSome

def isReserved (allocator : PortAllocator) (port : UInt16) : Bool :=
  ((allocator.index port).bind fun index => allocator.reserved[index]?).getD false

def take (allocator : PortAllocator) (index : Nat) : Option UInt16 × PortAllocator :=
  match allocator.slot[index]? with
  | none => (none, allocator)
  | some position =>
    match allocator.free[position]? with
    | none => (none, allocator)
    | some port =>
      let allocator := { allocator with
        free := swapRemove allocator.free position }
      match allocator.free[position]? with
      | none => (some port, { allocator with slot := allocator.slot.set index taken })
      | some moved =>
        match allocator.index moved with
        | none => (none, allocator)
        | some movedIndex =>
          (some port, { allocator with
            slot := (allocator.slot.set movedIndex (slotOf position)).set index taken })

/-- Draw a free port: the random source answers with `draw`, and the uniform
pick below a bound is the remainder by it. -/
def allocDraw (allocator : PortAllocator) (draw : Nat) : Option UInt16 × PortAllocator :=
  if allocator.free.isEmpty then (none, allocator)
  else
    match allocator.free[draw % allocator.free.length]? with
    | none => (none, allocator)
    | some port =>
      match allocator.index port with
      | none => (none, allocator)
      | some index => allocator.take index

def alloc (allocator : PortAllocator) (preferred : Option UInt16)
    (draw : Nat) : Option UInt16 × PortAllocator :=
  match preferred.bind allocator.index with
  | none => allocator.allocDraw draw
  | some index =>
    match allocator.slot[index]? with
    | none => (none, allocator)
    | some position =>
      if position = taken then allocator.allocDraw draw
      else allocator.take index

def reserve (allocator : PortAllocator) (port : UInt16) : Except CoreError Unit × PortAllocator :=
  match allocator.index port with
  | none => (.error .portOutsidePool, allocator)
  | some index =>
    if allocator.reserved[index]?.getD false then
      (.error .portAlreadyReserved, allocator)
    else if allocator.slot[index]?.getD taken = taken then
      (.error .portInUse, allocator)
    else
      match allocator.take index with
      | (none, allocator) => (.error .portInUse, allocator)
      | (some _, allocator) =>
        (.ok (), { allocator with
          reserved := allocator.reserved.set index true })

def pushFree (allocator : PortAllocator) (index : Nat) (port : UInt16) :
    PortAllocator :=
  { allocator with
    free := allocator.free ++ [port]
    slot := allocator.slot.set index (slotOf allocator.free.length) }

def unreserve (allocator : PortAllocator) (port : UInt16) : Bool × PortAllocator :=
  match allocator.index port with
  | none => (false, allocator)
  | some index =>
    if !(allocator.reserved[index]?.getD false) then (false, allocator)
    else
      (true, { allocator with
        reserved := allocator.reserved.set index false }.pushFree index port)

/-- Return a port a flow held. A pinned port stays pinned, and a free one is
left alone. -/
def release (allocator : PortAllocator) (port : UInt16) : PortAllocator :=
  match allocator.index port with
  | none => allocator
  | some index =>
    if allocator.reserved[index]?.getD false then allocator
    else if allocator.slot[index]?.getD taken ≠ taken then allocator
    else allocator.pushFree index port

/-! ## Positions in the space -/

theorem index_congr {before after : PortAllocator} (base : after.base = before.base)
    (length : after.slot.length = before.slot.length)
    (keeps : after.keepsControlRange = before.keepsControlRange)
    (port : UInt16) : after.index port = before.index port := by
  simp only [index, base, length, keeps]

variable {allocator : PortAllocator}

theorem index_some {index : Nat} (found : allocator.index port = some index) :
    port.toNat = allocator.base.toNat + index ∧ index < allocator.slot.length ∧
      (allocator.keepsControlRange && isControl port) = false := by
  unfold PortAllocator.index at found
  split at found
  · exact absurd found (by simp)
  · rename_i kept
    split at found
    · exact absurd found (by simp)
    · rename_i notBelow
      dsimp only at found
      split at found
      · have offset := Option.some.inj found
        rw [UInt16.lt_iff_toNat_lt] at notBelow
        exact ⟨by omega, by omega, by simpa using kept⟩
      · exact absurd found (by simp)

theorem index_of_bounds {index : Nat} (position : port.toNat = allocator.base.toNat + index)
    (inside : index < allocator.slot.length)
    (outside : (allocator.keepsControlRange && isControl port) = false) :
    allocator.index port = some index := by
  have notBelow : ¬ port < allocator.base := by
    rw [UInt16.lt_iff_toNat_lt]
    omega
  have offset : port.toNat - allocator.base.toNat = index := by omega
  simp [PortAllocator.index, outside, notBelow, offset, inside]

theorem index_injective {other : UInt16} {index : Nat} (found : allocator.index port = some index)
    (foundOther : allocator.index other = some index) : port = other := by
  apply UInt16.toNat_inj.mp
  rw [(index_some found).1, (index_some foundOther).1]

theorem isReserved_eq
    {index : Nat} (found : allocator.index port = some index) :
    allocator.isReserved port = allocator.reserved[index]?.getD false := by
  simp [isReserved, found]

theorem contains_of_isControl (keeps : allocator.keepsControlRange)
    (control : isControl port) : allocator.contains port = false := by
  simp [contains, index, keeps, control]

/-! ## The correspondence of slots and free ports -/

/-- The free list and the slots describe each other, and a reserved port is
not free. -/
structure Valid (allocator : PortAllocator) : Prop where
  sizes : allocator.reserved.length = allocator.slot.length
  listed : ∀ (position : Nat) port, allocator.free[position]? = some port →
    ∃ index, allocator.index port = some index ∧ allocator.slot[index]? = some position
  slotted : ∀ index position : Nat, allocator.slot[index]? = some position → position ≠ taken →
    ∃ port, allocator.free[position]? = some port ∧ allocator.index port = some index
  pinned : ∀ index : Nat, allocator.reserved[index]?.getD false = true →
    allocator.slot[index]? = some taken

namespace Valid

theorem nodup (valid : allocator.Valid) : allocator.free.Nodup := by
  rw [nodup_iff_getElem?_ne_getElem?]
  intro first second before inside equal
  have present := List.getElem?_eq_getElem inside
  rcases valid.listed second _ present with ⟨index, found, slot⟩
  rcases valid.listed first _ (equal.trans present) with ⟨other, foundOther, slotOther⟩
  rw [found] at foundOther
  cases foundOther
  rw [slot] at slotOther
  have same := Option.some.inj slotOther
  omega

theorem length_free_le (valid : allocator.Valid) : allocator.free.length ≤ 2 ^ 16 := by
  have distinct : (allocator.free.map UInt16.toNat).Nodup :=
    valid.nodup.map fun _ _ => UInt16.toNat_inj.mp
  have below : allocator.free.map UInt16.toNat ⊆ List.range (2 ^ 16) := by
    intro number member
    rcases mem_map.mp member with ⟨port, _, rfl⟩
    exact mem_range.mpr port.toNat_lt
  simpa using distinct.length_le_of_subset below

variable (valid : allocator.Valid)

include valid

theorem position_lt (present : allocator.free[position]? = some port) : position < 2 ^ 16 := by
  have inside := (List.getElem?_eq_some_iff.mp present).1
  exact Nat.lt_of_lt_of_le inside valid.length_free_le

theorem ne_taken_of_lt (inside : position < allocator.free.length) : position ≠ taken := by
  have bound := valid.length_free_le
  rw [taken]
  omega

theorem slot_injective {index : Nat} (placed : allocator.free[position]? = some port)
    (slot : allocator.slot[index]? = some position)
    (slotOther : allocator.slot[other]? = some position) : index = other := by
  have notTaken := valid.ne_taken_of_lt (List.getElem?_eq_some_iff.mp placed).1
  rcases valid.slotted index position slot notTaken with ⟨_, placedFirst, found⟩
  rcases valid.slotted other position slotOther notTaken with ⟨_, placedSecond, foundOther⟩
  rw [placedFirst] at placedSecond
  cases placedSecond
  rw [found] at foundOther
  exact Option.some.inj foundOther

/-- A port is free exactly when its slot is not marked as taken. -/
theorem mem_free_iff {index : Nat} (found : allocator.index port = some index) :
    port ∈ allocator.free ↔ allocator.slot[index]?.getD taken ≠ taken := by
  have inside := (index_some found).2.1
  have present := List.getElem?_eq_getElem inside
  constructor
  · intro member
    rcases mem_iff_getElem?.mp member with ⟨position, placed⟩
    rcases valid.listed position port placed with ⟨other, foundOther, slot⟩
    rw [found] at foundOther
    cases foundOther
    have small := valid.position_lt placed
    rw [slot, Option.getD_some, taken]
    omega
  · intro notTaken
    rw [present, Option.getD_some] at notTaken
    rcases valid.slotted index _ present notTaken with ⟨other, placed, foundOther⟩
    rw [index_injective found foundOther]
    exact mem_of_getElem? placed

theorem contains_of_mem_free (member : port ∈ allocator.free) : allocator.contains port := by
  rcases mem_iff_getElem?.mp member with ⟨position, placed⟩
  rcases valid.listed position port placed with ⟨index, found, _⟩
  simp [contains, found]

theorem not_mem_free_of_isReserved (isReserved : allocator.isReserved port) :
    port ∉ allocator.free := by
  intro member
  rcases mem_iff_getElem?.mp member with ⟨position, placed⟩
  rcases valid.listed position port placed with ⟨index, found, slot⟩
  rw [isReserved_eq found] at isReserved
  rw [valid.pinned index isReserved] at slot
  have small := valid.position_lt placed
  have same := Option.some.inj slot
  rw [taken] at same
  omega

end Valid

/-! ## What each operation does -/

/-- The space is unchanged, and these are its free and reserved ports now. -/
structure Becomes (before after : PortAllocator) (free reserved : UInt16 → Prop) : Prop where
  valid : after.Valid
  keepsControlRange : after.keepsControlRange = before.keepsControlRange
  contains : ∀ port, after.contains port = before.contains port
  free : ∀ port, port ∈ after.free ↔ free port
  reserved : ∀ port, after.isReserved port = true ↔ reserved port

theorem Valid.unchanged (valid : allocator.Valid)
    {free reserved : UInt16 → Prop}
    (sameFree : ∀ port, port ∈ allocator.free ↔ free port)
    (sameReserved : ∀ port, allocator.isReserved port ↔ reserved port) :
    allocator.Becomes allocator free reserved :=
  ⟨valid, rfl, fun _ => rfl, sameFree, sameReserved⟩

theorem slotOf_eq (small : position < 2 ^ 32) : slotOf position = position := if_pos small

section Take

variable {after : PortAllocator} {index : Nat}

/-- The allocator after its free port at `position` is taken out: the last free
port has moved into the gap, and its slot follows it. -/
structure TakenAt (allocator : PortAllocator) (index position : Nat)
    (after : PortAllocator) : Prop where
  base : after.base = allocator.base
  keeps : after.keepsControlRange = allocator.keepsControlRange
  reserved : after.reserved = allocator.reserved
  free : after.free = swapRemove allocator.free position
  length : after.slot.length = allocator.slot.length
  slot : ∀ other : Nat, after.slot[other]? =
    if other = index then some taken
    else if allocator.slot[other]? = some (allocator.free.length - 1) then
      some position
    else allocator.slot[other]?

theorem take_taken (valid : allocator.Valid) (found : allocator.index port = some index)
    (placed : allocator.free[position]? = some port)
    (slot : allocator.slot[index]? = some position) :
    ∃ after, allocator.take index = (some port, after) ∧
      allocator.TakenAt index position after := by
  have inside := (List.getElem?_eq_some_iff.mp placed).1
  have insideSlot := (index_some found).2.1
  have gap := getElem?_swapRemove inside position
  rw [if_pos rfl] at gap
  unfold take
  simp only [slot, placed]
  by_cases isLast : allocator.free.length ≤ position + 1
  · rw [if_pos isLast] at gap
    simp only [gap]
    refine ⟨_, rfl, rfl, rfl, rfl, rfl, by simp, ?_⟩
    intro other
    have last : position = allocator.free.length - 1 := by omega
    rw [List.getElem?_set]
    by_cases here : other = index
    · simp [here, insideSlot]
    · rw [if_neg (Ne.symm here), if_neg here]
      split
      · rename_i equal
        rw [equal, last]
      · rfl
  · rw [if_neg isLast] at gap
    have lastInside : allocator.free.length - 1 < allocator.free.length := by omega
    have lastPlaced := List.getElem?_eq_getElem lastInside
    rcases valid.listed _ _ lastPlaced with ⟨moved, movedFound, movedSlot⟩
    have small := valid.position_lt placed
    have movedInside := (index_some movedFound).2.1
    have movedAfter : ({ allocator with
        free := swapRemove allocator.free position } : PortAllocator).index
          allocator.free[allocator.free.length - 1] = some moved :=
      (index_congr rfl rfl rfl _).trans movedFound
    simp only [gap, lastPlaced, movedAfter]
    refine ⟨_, rfl, rfl, rfl, rfl, rfl, by simp, ?_⟩
    intro other
    rw [slotOf_eq (by omega), List.getElem?_set, List.getElem?_set, length_set]
    by_cases here : other = index
    · simp [here, insideSlot]
    · rw [if_neg (Ne.symm here), if_neg here]
      by_cases isMoved : moved = other
      · subst other
        rw [if_pos rfl, if_pos movedInside, if_pos movedSlot]
      · rw [if_neg isMoved, if_neg]
        intro equal
        exact isMoved (valid.slot_injective lastPlaced movedSlot equal)

section

variable (taken : allocator.TakenAt index position after)

include taken

theorem TakenAt.index_eq (other : UInt16) : after.index other = allocator.index other :=
  index_congr taken.base taken.length taken.keeps other

theorem TakenAt.getElem?_free (placed : allocator.free[position]? = some port) (other : Nat) :
    after.free[other]? =
      if allocator.free.length ≤ other + 1 then none
      else if other = position then
        allocator.free[allocator.free.length - 1]?
      else allocator.free[other]? := by
  rw [taken.free]
  exact getElem?_swapRemove (List.getElem?_eq_some_iff.mp placed).1 other

theorem TakenAt.valid (valid : allocator.Valid) (found : allocator.index port = some index)
    (placed : allocator.free[position]? = some port)
    (slot : allocator.slot[index]? = some position) : after.Valid := by
  have getFree := taken.getElem?_free placed
  refine ⟨?_, ?_, ?_, ?_⟩
  · rw [taken.reserved, taken.length, valid.sizes]
  · intro place other placedOther
    rw [getFree] at placedOther
    split at placedOther
    · exact absurd placedOther (by simp)
    · split at placedOther
      · rename_i here
        rcases valid.listed _ _ placedOther with ⟨moved, movedFound, movedSlot⟩
        refine ⟨moved, (taken.index_eq other).trans movedFound, ?_⟩
        rw [taken.slot, if_neg, if_pos movedSlot, here]
        rintro rfl
        rw [slot] at movedSlot
        have same := Option.some.inj movedSlot
        omega
      · rename_i elsewhere
        rcases valid.listed _ _ placedOther with ⟨kept, keptFound, keptSlot⟩
        refine ⟨kept, (taken.index_eq other).trans keptFound, ?_⟩
        rw [taken.slot, if_neg, keptSlot, if_neg]
        · intro equal
          have same := Option.some.inj equal
          omega
        · rintro rfl
          rw [slot] at keptSlot
          exact elsewhere (Option.some.inj keptSlot).symm
  · intro kept place keptSlot notTaken
    rw [taken.slot] at keptSlot
    split at keptSlot
    · exact absurd (Option.some.inj keptSlot).symm notTaken
    · rename_i notIndex
      have notPosition : allocator.slot[kept]? ≠ some position := by
        intro equal
        exact notIndex (valid.slot_injective placed equal slot)
      have bound := (List.getElem?_eq_some_iff.mp placed).1
      split at keptSlot
      · rename_i wasLast
        cases keptSlot
        rcases valid.slotted kept _ wasLast (valid.ne_taken_of_lt (by omega)) with
          ⟨last, lastPlaced, lastFound⟩
        refine ⟨last, ?_, (taken.index_eq last).trans lastFound⟩
        rw [getFree, if_neg, if_pos rfl, lastPlaced]
        intro isLast
        have same : allocator.free.length - 1 = position := by omega
        rw [same] at wasLast
        exact notPosition wasLast
      · rename_i notLast
        rcases valid.slotted kept place keptSlot notTaken with ⟨other, otherPlaced, otherFound⟩
        have otherBound := (List.getElem?_eq_some_iff.mp otherPlaced).1
        refine ⟨other, ?_, (taken.index_eq other).trans otherFound⟩
        rw [getFree, if_neg, if_neg, otherPlaced]
        · rintro rfl
          exact notPosition keptSlot
        · intro isLast
          have same : place = allocator.free.length - 1 := by omega
          rw [same] at keptSlot
          exact notLast keptSlot
  · intro marked isMarked
    rw [taken.reserved] at isMarked
    have markedSlot := valid.pinned marked isMarked
    rw [taken.slot, markedSlot]
    split
    · rfl
    · rw [if_neg]
      intro equal
      have bound := (List.getElem?_eq_some_iff.mp placed).1
      have inside : allocator.free.length - 1 < allocator.free.length := by omega
      exact valid.ne_taken_of_lt inside (Option.some.inj equal).symm

end

/-- Taking a free port out removes it, and nothing else, from the free
ports. -/
theorem take_spec (valid : allocator.Valid)
    (found : allocator.index port = some index) (member : port ∈ allocator.free) :
    ∃ after, allocator.take index = (some port, after) ∧ allocator.Becomes after
        (fun other => other ∈ allocator.free ∧ other ≠ port)
        (fun other => allocator.isReserved other) ∧
      after.index = allocator.index ∧ after.reserved = allocator.reserved := by
  rcases mem_iff_getElem?.mp member with ⟨position, placed⟩
  rcases valid.listed position port placed with ⟨other, foundOther, slot⟩
  rw [found] at foundOther
  cases foundOther
  rcases take_taken valid found placed slot with ⟨after, taken, takenAt⟩
  have afterValid := takenAt.valid valid found placed slot
  have sameIndex : after.index = allocator.index := funext takenAt.index_eq
  refine ⟨after, taken, ⟨afterValid, takenAt.keeps, ?_, ?_, ?_⟩, sameIndex, takenAt.reserved⟩
  · intro other
    rw [contains, contains, sameIndex]
  · intro other
    rw [takenAt.free]
    constructor
    · intro kept
      refine ⟨mem_of_mem_swapRemove placed kept, ?_⟩
      rintro rfl
      exact not_mem_swapRemove placed valid.nodup kept
    · rintro ⟨kept, different⟩
      exact mem_swapRemove_of_ne placed kept different
  · intro other
    rw [isReserved, isReserved, sameIndex, takenAt.reserved]

/-- The draw fails exactly when nothing is free. -/
theorem allocDraw_spec (valid : allocator.Valid) (draw : Nat) :
    (allocator.free = [] ∧ allocator.allocDraw draw = (none, allocator)) ∨
    ∃ port after, allocator.allocDraw draw = (some port, after) ∧ port ∈ allocator.free ∧
      allocator.Becomes after (fun other => other ∈ allocator.free ∧ other ≠ port)
        (fun other => allocator.isReserved other) := by
  by_cases empty : allocator.free = []
  · exact .inl ⟨empty, by simp [allocDraw, empty]⟩
  · right
    have positive := List.length_pos_iff.mpr empty
    have placed := List.getElem?_eq_getElem (Nat.mod_lt draw positive)
    rcases valid.listed _ _ placed with ⟨index, found, _⟩
    have member := mem_of_getElem? placed
    rcases take_spec valid found member with ⟨after, taken, becomes, _⟩
    refine ⟨_, after, ?_, member, becomes⟩
    simp only [allocDraw, placed, found, taken, List.isEmpty_iff, empty, if_false]

/-- Allocation hands out a port that was free, and fails only when nothing
is. -/
theorem alloc_spec (valid : allocator.Valid) (preferred : Option UInt16) (draw : Nat) :
    (allocator.free = [] ∧ allocator.alloc preferred draw = (none, allocator)) ∨
    ∃ port after, allocator.alloc preferred draw = (some port, after) ∧ port ∈ allocator.free ∧
      allocator.Becomes after (fun other => other ∈ allocator.free ∧ other ≠ port)
        (fun other => allocator.isReserved other) := by
  unfold alloc
  cases wanted : preferred.bind allocator.index with
  | none => exact allocDraw_spec valid draw
  | some index =>
    rcases Option.bind_eq_some_iff.mp wanted with ⟨port, _, found⟩
    have present := List.getElem?_eq_getElem (index_some found).2.1
    simp only [present]
    split
    · exact allocDraw_spec valid draw
    · rename_i notTaken
      have member : port ∈ allocator.free := by
        rw [valid.mem_free_iff found, present]
        exact notTaken
      rcases take_spec valid found member with ⟨after, taken, becomes, _⟩
      exact .inr ⟨port, after, taken, member, becomes⟩

end Take

section Reserve

variable {index : Nat}

section

variable (valid : allocator.Valid) (found : allocator.index port = some index)

include valid found

theorem Valid.slot_eq_taken (notFree : port ∉ allocator.free) :
    allocator.slot[index]? = some taken := by
  have present := List.getElem?_eq_getElem (index_some found).2.1
  rw [valid.mem_free_iff found, not_not, present, Option.getD_some] at notFree
  rw [present, notFree]

theorem Valid.setReserved (flag : Bool) (notFree : flag → port ∉ allocator.free) : allocator.Becomes
      { allocator with reserved := allocator.reserved.set index flag }
      (fun other => other ∈ allocator.free)
      (fun other => if other = port then flag = true
        else allocator.isReserved other = true) := by
  have inside : index < allocator.reserved.length := by
    rw [valid.sizes]
    exact (index_some found).2.1
  refine ⟨⟨by simp [valid.sizes], valid.listed, valid.slotted, ?_⟩, rfl,
    fun _ => rfl, fun _ => Iff.rfl, ?_⟩
  · intro marked isMarked
    simp only [List.getElem?_set] at isMarked
    split at isMarked
    · subst marked
      exact valid.slot_eq_taken found (notFree isMarked)
    · exact valid.pinned marked isMarked
  · intro other
    cases foundOther : allocator.index other with
    | none =>
      have different : other ≠ port := by
        rintro rfl
        simp [found] at foundOther
      have foundAfter : ({ allocator with
          reserved := allocator.reserved.set index flag } :
            PortAllocator).index other = none := foundOther
      simp [isReserved, foundAfter, foundOther, different]
    | some otherIndex =>
      have foundAfter : ({ allocator with
          reserved := allocator.reserved.set index flag } :
            PortAllocator).index other = some otherIndex := foundOther
      rw [isReserved_eq foundAfter, isReserved_eq foundOther]
      simp only [List.getElem?_set]
      by_cases here : index = otherIndex
      · subst otherIndex
        rw [if_pos rfl, if_pos inside, if_pos (index_injective foundOther found)]
        simp
      · rw [if_neg here, if_neg]
        rintro rfl
        rw [found] at foundOther
        exact here (Option.some.inj foundOther)

theorem Valid.pushFree (notFree : port ∉ allocator.free)
    (notReserved : allocator.isReserved port = false) :
    allocator.Becomes (allocator.pushFree index port)
      (fun other => other ∈ allocator.free ∨ other = port)
      (fun other => allocator.isReserved other) := by
  have inside := (index_some found).2.1
  have slotEq : slotOf allocator.free.length = allocator.free.length := by
    have bound := valid.length_free_le
    exact slotOf_eq (by omega)
  have sameIndex : (allocator.pushFree index port).index = allocator.index :=
    funext (index_congr rfl (by simp [PortAllocator.pushFree]) rfl)
  have slotAfter : ∀ other : Nat, (allocator.pushFree index port).slot[other]? =
        if index = other then some allocator.free.length
        else allocator.slot[other]? := by
    intro other
    simp only [PortAllocator.pushFree, List.getElem?_set, slotEq]
    by_cases here : index = other
    · simp [inside]
    · simp [here]
  have freeAfter : ∀ position : Nat, (allocator.pushFree index port).free[position]? =
        if position = allocator.free.length then some port
        else allocator.free[position]? := by
    intro position
    simp only [PortAllocator.pushFree]
    by_cases here : position = allocator.free.length
    · simp [here]
    · rw [if_neg here, List.getElem?_append]
      split
      · rfl
      · rw [List.getElem?_eq_none (by simp; omega), List.getElem?_eq_none (by omega)]
  refine ⟨⟨by simp [PortAllocator.pushFree, valid.sizes], ?_, ?_, ?_⟩, rfl, ?_, ?_, ?_⟩
  · intro position other placed
    rw [freeAfter] at placed
    rw [sameIndex]
    split at placed
    · rename_i here
      cases placed
      exact ⟨index, found, by rw [slotAfter, if_pos rfl, here]⟩
    · rcases valid.listed position other placed with ⟨kept, keptFound, slot⟩
      refine ⟨kept, keptFound, ?_⟩
      rw [slotAfter, if_neg, slot]
      rintro rfl
      rw [index_injective found keptFound] at notFree
      exact notFree (mem_of_getElem? placed)
  · intro kept position slot notTaken
    rw [slotAfter] at slot
    rw [sameIndex]
    split at slot
    · subst kept
      cases slot
      exact ⟨port, by rw [freeAfter, if_pos rfl], found⟩
    · rcases valid.slotted kept position slot notTaken with
        ⟨other, placed, otherFound⟩
      have bound := (List.getElem?_eq_some_iff.mp placed).1
      refine ⟨other, ?_, otherFound⟩
      rw [freeAfter, if_neg (by omega), placed]
  · intro marked isMarked
    have wasPinned := valid.pinned marked isMarked
    rw [slotAfter, if_neg, wasPinned]
    rintro rfl
    rw [isReserved_eq found] at notReserved
    exact absurd (notReserved.symm.trans isMarked) (by simp)
  · intro other
    rw [contains, contains, sameIndex]
  · intro other
    simp [PortAllocator.pushFree]
  · intro other
    rw [isReserved, isReserved, sameIndex]
    rfl

end

/-- A port can be pinned exactly when it is free. -/
theorem reserve_spec (valid : allocator.Valid) (port : UInt16) : (port ∉ allocator.free ∧ ∃ refusal,
      allocator.reserve port = (.error refusal, allocator)) ∨
    (port ∈ allocator.free ∧ ∃ after, allocator.reserve port = (.ok (), after) ∧
      allocator.Becomes after (fun other => other ∈ allocator.free ∧ other ≠ port)
        (fun other => allocator.isReserved other ∨ other = port)) := by
  unfold reserve
  cases found : allocator.index port with
  | none =>
    refine .inl ⟨fun member => ?_, _, rfl⟩
    have contained := valid.contains_of_mem_free member
    simp [contains, found] at contained
  | some index =>
    dsimp only
    split
    · rename_i marked
      rw [← isReserved_eq found] at marked
      exact .inl ⟨valid.not_mem_free_of_isReserved marked, _, rfl⟩
    · split
      · rename_i isTaken
        refine .inl ⟨fun member => ?_, _, rfl⟩
        exact (valid.mem_free_iff found).mp member isTaken
      · rename_i notTaken
        have member := (valid.mem_free_iff found).mpr notTaken
        rcases take_spec valid found member with ⟨after, takes, becomes, sameIndex, _⟩
        have afterFound : after.index port = some index := by rw [sameIndex, found]
        have notFree : port ∉ after.free := by simp [becomes.free]
        have marks := becomes.valid.setReserved afterFound true fun _ => notFree
        refine .inr ⟨member, _, by rw [takes], marks.valid,
          marks.keepsControlRange.trans becomes.keepsControlRange, ?_, ?_, ?_⟩
        · intro other
          rw [marks.contains, becomes.contains]
        · intro other
          rw [marks.free, becomes.free]
        · intro other
          rw [marks.reserved]
          by_cases here : other = port
          · simp [here]
          · simp [here, becomes.reserved]

/-- Lifting a pin frees the port; a port that is not pinned is left alone. -/
theorem unreserve_spec (valid : allocator.Valid) (port : UInt16) :
    (allocator.unreserve port).1 = allocator.isReserved port ∧
    allocator.Becomes (allocator.unreserve port).2
      (fun other => other ∈ allocator.free ∨ (other = port ∧ allocator.isReserved port))
      (fun other => allocator.isReserved other ∧ other ≠ port) := by
  unfold unreserve
  cases found : allocator.index port with
  | none =>
    have notReserved : allocator.isReserved port = false := by simp [isReserved, found]
    refine ⟨notReserved.symm, valid.unchanged (by simp [notReserved]) ?_⟩
    intro other
    constructor
    · intro marked
      refine ⟨marked, ?_⟩
      rintro rfl
      simp [notReserved] at marked
    · exact fun both => both.1
  | some index =>
    dsimp only
    rw [← isReserved_eq found]
    cases marked : allocator.isReserved port with
    | false =>
      refine ⟨rfl, valid.unchanged (by simp) ?_⟩
      intro other
      constructor
      · intro isMarked
        refine ⟨isMarked, ?_⟩
        rintro rfl
        simp [marked] at isMarked
      · exact fun both => both.1
    | true =>
      have notFree := valid.not_mem_free_of_isReserved marked
      have clears := valid.setReserved found false (by simp)
      have pushes := clears.valid.pushFree found notFree (by
          have cleared := clears.reserved port
          simpa using cleared)
      refine ⟨rfl, pushes.valid, rfl, ?_, ?_, ?_⟩
      · intro other
        exact (pushes.contains other).trans (clears.contains other)
      · intro other
        refine (pushes.free other).trans ?_
        simp
      · intro other
        refine (pushes.reserved other).trans ((clears.reserved other).trans ?_)
        by_cases here : other = port
        · simp [here]
        · simp [here]

/-- A released port is free afterwards if it is one of this space's own and
not pinned; nothing else changes. -/
theorem release_spec (valid : allocator.Valid) (port : UInt16) :
    allocator.Becomes (allocator.release port) (fun other => other ∈ allocator.free ∨
        (other = port ∧ allocator.contains port ∧ allocator.isReserved port = false))
      (fun other => allocator.isReserved other) := by
  unfold release
  cases found : allocator.index port with
  | none =>
    have outside : allocator.contains port = false := by simp [contains, found]
    exact valid.unchanged (by simp [outside]) fun _ => Iff.rfl
  | some index =>
    dsimp only
    rw [← isReserved_eq found]
    cases marked : allocator.isReserved port with
    | true => exact valid.unchanged (by simp) fun _ => Iff.rfl
    | false =>
      have inSpace : allocator.contains port = true := by simp [contains, found]
      simp only [Bool.false_eq_true, if_false]
      split
      · rename_i notTaken
        have member := (valid.mem_free_iff found).mpr notTaken
        refine valid.unchanged ?_ fun _ => Iff.rfl
        intro other
        constructor
        · exact .inl
        · rintro (kept | ⟨rfl, _⟩)
          · exact kept
          · exact member
      · rename_i isTaken
        have notFree : port ∉ allocator.free := by
          rw [valid.mem_free_iff found]
          exact isTaken
        have pushes := valid.pushFree found notFree marked
        refine ⟨pushes.valid, rfl, pushes.contains, ?_, pushes.reserved⟩
        intro other
        rw [pushes.free]
        simp [inSpace]

end Reserve

section Build

variable (range : PortRange) (keepsControlRange : Bool)

theorem mem_toList {range : PortRange} :
    port ∈ range.toList ↔ range.first.toNat ≤ port.toNat ∧ port.toNat ≤ range.last.toNat := by
  rw [PortRange.toList, mem_map]
  constructor
  · rintro ⟨number, member, rfl⟩
    have bounds := mem_range'_1.mp member
    have last := range.last.toNat_lt
    rw [UInt16.toNat_ofNat_of_lt' (by simp [UInt16.size]; omega)]
    omega
  · intro bounds
    refine ⟨port.toNat, mem_range'_1.mpr (by omega), ?_⟩
    exact UInt16.ofNat_toNat

theorem nodup_toList : range.toList.Nodup := by
  refine List.Nodup.map_on ?_ nodup_range'
  intro first firstMember second secondMember equal
  have firstBounds := mem_range'_1.mp firstMember
  have secondBounds := mem_range'_1.mp secondMember
  have last := range.last.toNat_lt
  have same := congrArg UInt16.toNat equal
  rwa [UInt16.toNat_ofNat_of_lt' (by simp [UInt16.size]; omega),
    UInt16.toNat_ofNat_of_lt' (by simp [UInt16.size]; omega)] at same

theorem length_toList : range.toList.length = range.last.toNat + 1 - range.first.toNat := by
  rw [PortRange.toList, length_map, length_range']

theorem length_build_slot : (build range keepsControlRange).slot.length = range.toList.length := by
  simp only [build]
  rw [length_foldl_set]
  exact length_replicate

theorem mem_build_free {port : UInt16} :
    port ∈ (build range keepsControlRange).free ↔
      (build range keepsControlRange).index port = some (port.toNat - range.first.toNat) := by
  have member : port ∈ (build range keepsControlRange).free ↔
      port ∈ range.toList ∧ (keepsControlRange && isControl port) = false := by
    simp only [build, mem_filter, Bool.not_eq_true']
  have length := length_build_slot range keepsControlRange
  rw [length_toList] at length
  rw [member, mem_toList]
  constructor
  · rintro ⟨⟨low, high⟩, outside⟩
    refine index_of_bounds ?_ (by omega) outside
    show port.toNat = range.first.toNat + (port.toNat - range.first.toNat)
    omega
  · intro found
    rcases index_some found with ⟨position, inside, outside⟩
    have low : port.toNat = range.first.toNat + (port.toNat - range.first.toNat) := position
    exact ⟨⟨by omega, by omega⟩, outside⟩

theorem nodup_build_offsets :
    ((build range keepsControlRange).free.zipIdx.map
      fun entry => entry.1.toNat - range.first.toNat).Nodup := by
  have offsets : ((build range keepsControlRange).free.zipIdx.map
      fun entry => entry.1.toNat - range.first.toNat) =
      (build range keepsControlRange).free.map
        fun port => port.toNat - range.first.toNat := by
    conv_rhs => rw [← zipIdx_map_fst 0 (build range keepsControlRange).free]
    rw [map_map]
    rfl
  rw [offsets]
  refine List.Nodup.map_on ?_ ((nodup_toList range).filter _)
  intro port member other otherMember equal
  have bounds := mem_toList.mp (mem_filter.mp member).1
  have otherBounds := mem_toList.mp (mem_filter.mp otherMember).1
  exact UInt16.toNat_inj.mp (by omega)

theorem build_slot_of_free {position : Nat}
    (placed : (build range keepsControlRange).free[position]? = some port) :
    (build range keepsControlRange).slot[port.toNat - range.first.toNat]? =
      some (slotOf position) := by
  have inside := (index_some ((mem_build_free range keepsControlRange).mp
    (mem_of_getElem? placed))).2.1
  rw [length_build_slot] at inside
  have listed : (port, position) ∈ (build range keepsControlRange).free.zipIdx :=
    mk_mem_zipIdx_iff_getElem?.mpr placed
  exact getElem?_foldl_set_of_mem
    (fun entry : UInt16 × Nat => entry.1.toNat - range.first.toNat)
    (fun entry => slotOf entry.2) _ _
    (nodup_build_offsets range keepsControlRange) listed (by simpa using inside)

theorem build_slot_of_not_free {index : Nat}
    (inside : index < range.toList.length)
    (apart : ∀ port ∈ (build range keepsControlRange).free,
      port.toNat - range.first.toNat ≠ index) :
    (build range keepsControlRange).slot[index]? = some taken := by
  have untouched := getElem?_foldl_set_of_ne
    (fun entry : UInt16 × Nat => entry.1.toNat - range.first.toNat)
    (fun entry => slotOf entry.2)
    (build range keepsControlRange).free.zipIdx
    (List.replicate range.toList.length taken) index
    (fun entry member => apart entry.1 (fst_mem_of_mem_zipIdx member))
  exact untouched.trans (by simp [inside])

theorem length_build_free : (build range keepsControlRange).free.length ≤ 2 ^ 16 := by
  have filtered : (build range keepsControlRange).free.length ≤
      range.toList.length := length_filter_le _ _
  have last := range.last.toNat_lt
  rw [length_toList] at filtered
  omega

theorem build_valid : (build range keepsControlRange).Valid := by
  have small := length_build_free range keepsControlRange
  refine ⟨?_, ?_, ?_, ?_⟩
  · rw [length_build_slot]
    exact length_replicate
  · intro position port placed
    have bound := (List.getElem?_eq_some_iff.mp placed).1
    refine ⟨_, (mem_build_free range keepsControlRange).mp (mem_of_getElem? placed), ?_⟩
    rw [build_slot_of_free range keepsControlRange placed, slotOf_eq (by omega)]
  · intro index position slot notTaken
    have inside := (List.getElem?_eq_some_iff.mp slot).1
    rw [length_build_slot] at inside
    by_cases held : ∃ port ∈ (build range keepsControlRange).free,
        port.toNat - range.first.toNat = index
    · rcases held with ⟨port, member, rfl⟩
      rcases mem_iff_getElem?.mp member with ⟨place, placed⟩
      have bound := (List.getElem?_eq_some_iff.mp placed).1
      rw [build_slot_of_free range keepsControlRange placed, slotOf_eq (by omega)] at slot
      cases slot
      exact ⟨port, placed, (mem_build_free range keepsControlRange).mp member⟩
    · have apart : ∀ port ∈ (build range keepsControlRange).free,
          port.toNat - range.first.toNat ≠ index := by
        intro port member equal
        exact held ⟨port, member, equal⟩
      rw [build_slot_of_not_free range keepsControlRange inside apart] at slot
      exact absurd (Option.some.inj slot).symm notTaken
  · intro index marked
    simp only [build, List.getElem?_replicate] at marked
    split at marked
    · exact absurd marked (by simp)
    · exact absurd marked (by simp)

theorem build_free_iff_contains {port : UInt16} :
    port ∈ (build range keepsControlRange).free ↔
      (build range keepsControlRange).contains port := by
  constructor
  · exact (build_valid range keepsControlRange).contains_of_mem_free
  · intro inSpace
    rcases Option.isSome_iff_exists.mp inSpace with ⟨index, found⟩
    rw [mem_build_free, found, (index_some found).1]
    simp [build]

theorem build_not_reserved (port : UInt16) :
    (build range keepsControlRange).isReserved port = false := by
  cases found : (build range keepsControlRange).index port with
  | none => simp [isReserved, found]
  | some index =>
    have inside := (index_some found).2.1
    rw [length_build_slot] at inside
    rw [isReserved_eq found]
    simp [build, inside]

end Build

end PortAllocator

end WarrenSdk.Bolthole
