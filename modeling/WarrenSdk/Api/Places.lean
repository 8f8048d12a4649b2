import WarrenSdk.Api.TokenManager

/-! # The places of the port slots

What the table of places makes of a slot: a change moves one slot, to a place
that no other slot has, so that different slots always have different places. -/

namespace WarrenSdk.Api

namespace Assigned

def Apart (assigned : Assigned) : Prop :=
  ∀ slot other place, assigned.places.get slot = some place →
    assigned.places.get other = some place → slot = other

/-- At most one slot has been moved, to a place that no other slot has. -/
structure Moves (before : Assigned) (slot : Nat) (after : Assigned) : Prop where
  others : ∀ other, other ≠ slot → after.places.get other = before.places.get other
  free : ∀ place, after.places.get slot = some place → before.places.get slot = some place ∨
      ∀ other, other ≠ slot → before.places.get other ≠ some place

theorem Moves.apart (moves : Moves before slot after) (apart : before.Apart) :
    after.Apart := by
  -- A slot that shares a place with the moved slot is the moved slot.
  have moved : ∀ other place, after.places.get slot = some place →
      after.places.get other = some place → other = slot := by
    intro other place there beside
    by_contra different
    rw [moves.others other different] at beside
    rcases moves.free place there with kept | free
    · exact different (apart other slot place beside kept)
    · exact free other different beside
  intro left right place there beside
  by_cases first : left = slot
  · subst first
    exact (moved right place there beside).symm
  · by_cases second : right = slot
    · subst second
      exact moved left place beside there
    · rw [moves.others left first] at there
      rw [moves.others right second] at beside
      exact apart left right place there beside

variable (assigned : Assigned)

theorem moves_refl (slot : Nat) : Moves assigned slot assigned :=
  ⟨fun _ _ => rfl, fun _ there => .inl there⟩

@[simp] theorem enter_places (epoch : UInt64) :
    (assigned.enter epoch).places = assigned.places := by
  rw [enter]
  split <;> rfl

variable {assigned} in
theorem Moves.of_enter {epoch : UInt64} (moves : Moves (assigned.enter epoch) slot after) :
    Moves assigned slot after := by
  have others := moves.others
  have free := moves.free
  rw [enter_places] at others free
  exact ⟨others, free⟩

theorem isHeld_eq_false :
    assigned.isHeld place = false ↔ ∀ slot, assigned.places.get slot ≠ some place := by
  rw [isHeld, List.any_eq_false]
  constructor
  · intro none slot there
    exact none (slot, place) (HashMap.mem_toList.mpr there) (by simp)
  · rintro none ⟨slot, other⟩ listed same
    have equal : other = place := by simpa using same
    exact none slot (equal ▸ HashMap.mem_toList.mp listed)

theorem insert_moves (refused : Finset Nat) (free : assigned.isHeld place = false) :
    Moves assigned slot { assigned with
      places := assigned.places.insert slot place, refused } := by
  constructor
  · intro other different
    simp [different]
  · intro chosen there
    have same : place = chosen := by simpa using there
    subst same
    exact .inr fun other _ => assigned.isHeld_eq_false.mp free other

theorem assign_moves (slot stock : Nat) : Moves assigned slot (assigned.assign slot stock).2 := by
  rw [assign]
  split
  · rename_i place found
    apply assigned.insert_moves
    have untried := List.find?_some found
    simp only [Bool.and_eq_true, Bool.not_eq_true'] at untried
    exact untried.1
  · split
    · exact assigned.moves_refl slot
    · rename_i place found
      apply assigned.insert_moves
      have unheld := List.find?_some found
      simpa using unheld

theorem remove_moves (slot : Nat) (refused : Finset Nat) : Moves assigned slot { assigned with
      places := assigned.places.remove slot, refused } := by
  constructor
  · intro other different
    simp [different]
  · intro place there
    simp at there

theorem placeOf_moves (slot stock : Nat) : Moves assigned slot (assigned.placeOf slot stock).2 := by
  rw [placeOf]
  split
  · exact assigned.moves_refl slot
  · split
    · exact assigned.assign_moves slot stock
    · split
      · exact assigned.moves_refl slot
      · -- The place behind the batch is given up before another is chosen.
        have removed := assigned.remove_moves slot assigned.refused
        have chosen := assign_moves
          { assigned with places := assigned.places.remove slot } slot stock
        constructor
        · intro other different
          rw [chosen.others other different, removed.others other different]
        · intro place there
          rcases chosen.free place there with kept | free
          · simp at kept
          · refine .inr fun other different => ?_
            rw [← removed.others other different]
            exact free other different

theorem placeOf_keeps (there : assigned.places.get slot = some place)
    (fits : stock = 0 ∨ place < stock) : (assigned.placeOf slot stock).2 = assigned := by
  rw [placeOf, there]
  split
  · rfl
  · rename_i stocked
    have inside : place < stock := fits.resolve_left stocked
    simp [inside]

end Assigned

namespace TokenManager

inductive Assigning (shared : Shared format) : Pc format → Assigned → Prop
  | same (pc : Pc format) : Assigning shared pc shared.assigned
  | presents (slot : Nat) (epoch : UInt64) (stock : Nat) :
      Assigning shared (.slotPlace slot epoch stock)
        ((shared.assigned.enter epoch).placeOf slot stock).2
  | enters (slot : Nat) (presented : List UInt8) (epoch : UInt64) :
      Assigning shared (.refused slot presented epoch) (shared.assigned.enter epoch)
  | refuses (slot : Nat) (presented : List UInt8) (epoch : UInt64)
      (chosen : Nat) (there : shared.assigned.places.get slot = some chosen)
      (still : stillPresented shared epoch chosen presented = true) :
      Assigning shared (.refused slot presented epoch)
        ((shared.assigned.enter epoch).refuse slot chosen)
  | frees (slot : Nat) : Assigning shared (.freeing slot) (shared.assigned.release slot)

theorem next_assigning (taken : next manager shared place pc answers = some outcome) :
    Assigning shared pc outcome.shared.assigned := by
  cases area : pc.area with
  | assigned =>
    cases pc with
    | slotPlace slot epoch stock =>
      cases taken
      exact .presents slot epoch stock
    | refused slot presented epoch =>
      cases taken
      dsimp only
      cases there : (shared.assigned.enter epoch).places.get slot with
      | none => exact .enters slot presented epoch
      | some chosen =>
        by_cases still : stillPresented shared epoch chosen presented = true
        · simp only [if_pos still]
          rw [Assigned.enter_places] at there
          exact .refuses slot presented epoch chosen there still
        · simp only [if_neg still]
          exact .enters slot presented epoch
    | freeing slot =>
      cases taken
      exact .frees slot
    | _ => cases area
  | _ =>
    rw [(next_framed taken).assigned (by simp [area])]
    exact .same pc

theorem Assigning.moves {assigned : Assigned} (assigning : Assigning shared pc assigned) :
    assigned.places = shared.assigned.places ∨
      ∃ slot, pc.slot = some slot ∧ shared.assigned.Moves slot assigned := by
  cases assigning with
  | same => exact .inl rfl
  | presents slot epoch stock =>
    exact .inr ⟨slot, rfl, (Assigned.placeOf_moves _ slot stock).of_enter⟩
  | enters slot presented epoch => exact .inl (Assigned.enter_places _ _)
  | refuses slot presented epoch chosen =>
    exact .inr ⟨slot, rfl, (Assigned.remove_moves _ slot _).of_enter⟩
  | frees slot => exact .inr ⟨slot, rfl, Assigned.remove_moves _ slot _⟩

theorem Assigning.apart (assigning : Assigning shared pc assigned) (apart : shared.assigned.Apart) :
    assigned.Apart := by
  rcases assigning.moves with same | ⟨slot, _, moves⟩
  · rw [Assigned.Apart, same]
    exact apart
  · exact moves.apart apart

end TokenManager

/-- The place is given up: it was refused, or the batch does not have it. -/
def Pc.GivesUp (shared : Shared format) (place : Nat) : Pc format → Prop
  | .refused _ presented epoch => TokenManager.stillPresented shared epoch place presented = true
  | .slotPlace _ _ stock => 0 < stock ∧ stock ≤ place
  | _ => False

namespace TokenManager

theorem Assigning.keeps (assigning : Assigning shared pc assigned)
    (there : shared.assigned.places.get slot = some place) : assigned.places.get slot = some place ∨
      (pc.slot = some slot ∧ pc.GivesUp shared place) ∨ pc = .freeing slot := by
  by_cases own : pc.slot = some slot
  · cases assigning with
    | same => exact .inl there
    | presents slot epoch stock =>
      cases own
      by_cases fits : stock = 0 ∨ place < stock
      · rw [Assigned.placeOf_keeps _ (by simpa using there) fits]
        simpa using .inl there
      · exact .inr (.inl ⟨rfl, by omega, by omega⟩)
    | enters slot presented epoch =>
      rw [Assigned.enter_places]
      exact .inl there
    | refuses slot presented epoch chosen found still =>
      cases own
      rw [there] at found
      cases found
      exact .inr (.inl ⟨rfl, still⟩)
    | frees slot =>
      cases own
      exact .inr (.inr rfl)
  · left
    rcases assigning.moves with same | ⟨other, its, moves⟩
    · rw [same]
      exact there
    · have different : slot ≠ other := by
        intro equal
        rw [← equal] at its
        exact own its
      rw [moves.others slot different]
      exact there

end TokenManager

end WarrenSdk.Api
