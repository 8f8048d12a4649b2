import Mathlib.Data.List.Nodup
import Mathlib.Tactic.Common

/-! # Arenas

Slots that are filled, emptied and filled again, each named by its place. A new
value takes the first empty slot, so the name of a value that is gone may come
back as the name of another. -/

namespace WarrenSdk

open List

abbrev Arena (Value : Type u) : Type u := List (Option Value)

namespace Arena

variable {Value : Type u}

def empty : Arena Value := ([] : List (Option Value))

def get : Arena Value → Nat → Option Value
  | [], _ => none
  | slot :: _, 0 => slot
  | _ :: rest, handle + 1 => get rest handle

/-- Put a value into the first empty slot, or behind the last one. -/
def add : Arena Value → Value → Nat × Arena Value
  | [], value => (0, [some value])
  | none :: rest, value => (0, some value :: rest)
  | some kept :: rest, value => ((add rest value).1 + 1, some kept :: (add rest value).2)

def set : Arena Value → Nat → Value → Arena Value
  | [], _, _ => []
  | slot :: rest, 0, value => slot.map (fun _ => value) :: rest
  | slot :: rest, handle + 1, value => slot :: set rest handle value

def remove : Arena Value → Nat → Arena Value
  | [], _ => []
  | _ :: rest, 0 => none :: rest
  | slot :: rest, handle + 1 => slot :: remove rest handle

example : (((empty.add 'a').2.add 'b').2.remove 0).add 'c' = (0, [some 'c', some 'b']) := rfl

@[simp] theorem get_empty (handle : Nat) : (empty : Arena Value).get handle = none := rfl

variable (arena : Arena Value)

@[simp] theorem get_add_fresh (value : Value) : arena.get (arena.add value).1 = none := by
  induction arena with
  | nil => rfl
  | cons slot rest induction =>
    cases slot with
    | none => rfl
    | some kept => exact induction

theorem get_add (value : Value) (handle : Nat) : (arena.add value).2.get handle =
      if handle = (arena.add value).1 then some value
      else arena.get handle := by
  induction arena generalizing handle with
  | nil => cases handle <;> rfl
  | cons slot rest induction =>
    cases slot with
    | none => cases handle <;> rfl
    | some kept =>
      cases handle with
      | zero => rfl
      | succ handle =>
        rw [add, get, induction handle]
        simp only [Nat.add_right_cancel_iff]
        rfl

theorem get_set (place : Nat) (value : Value) (handle : Nat) : (arena.set place value).get handle =
      if handle = place then (arena.get place).map fun _ => value
      else arena.get handle := by
  induction arena generalizing place handle with
  | nil => exact (ite_self none).symm
  | cons slot rest induction =>
    cases place with
    | zero => cases handle <;> rfl
    | succ place =>
      cases handle with
      | zero => rfl
      | succ handle =>
        rw [set, get, induction place handle]
        simp only [Nat.add_right_cancel_iff]
        rfl

theorem get_remove (place handle : Nat) :
    (arena.remove place).get handle = if handle = place then none else arena.get handle := by
  induction arena generalizing place handle with
  | nil => exact (ite_self none).symm
  | cons slot rest induction =>
    cases place with
    | zero => cases handle <;> rfl
    | succ place =>
      cases handle with
      | zero => rfl
      | succ handle =>
        rw [remove, get, induction place handle]
        simp only [Nat.add_right_cancel_iff]
        rfl

/-! ## Owners

Every filled slot has one owner, who knows what kind of value is in it. -/

section Owners

variable {Kind : Type v} (kind : Value → Kind)

def kindAt (arena : Arena Value) (handle : Nat) : Option Kind := (arena.get handle).map kind

/-- The slots of `holders` are the filled ones, each once and with its kind. -/
structure HeldBy (arena : Arena Value) (holders : List (Nat × Kind)) : Prop where
  nodup : holders.Nodup
  exact : ∀ handle k, (handle, k) ∈ holders ↔ arena.kindAt kind handle = some k

namespace HeldBy

variable {kind} {arena : Arena Value} {holders others : List (Nat × Kind)}

theorem empty : (Arena.empty : Arena Value).HeldBy kind [] where
  nodup := nodup_nil
  exact handle k := by simp [kindAt]

section

variable (held : arena.HeldBy kind holders)

include held

theorem perm (permuted : holders.Perm others) : arena.HeldBy kind others where
  nodup := permuted.nodup_iff.mp held.nodup
  exact handle k := by rw [← permuted.mem_iff, held.exact]

theorem present {handle : Nat} {k : Kind} (member : (handle, k) ∈ holders) :
    ∃ value, arena.get handle = some value ∧ kind value = k :=
  Option.map_eq_some_iff.mp ((held.exact handle k).mp member)

/-- A slot has one owner, whatever its kind. -/
theorem handles_nodup : (holders.map Prod.fst).Nodup := by
  refine List.Nodup.map_on ?_ held.nodup
  intro first here second there same
  rcases first with ⟨handle, k⟩
  rcases second with ⟨other, l⟩
  simp only at same
  subst other
  have kinds := ((held.exact handle k).mp here).symm.trans ((held.exact handle l).mp there)
  cases kinds
  rfl

theorem add (value : Value) : (arena.add value).2.HeldBy kind
      (((arena.add value).1, kind value) :: holders) where
  nodup := by
    refine nodup_cons.mpr ⟨?_, held.nodup⟩
    intro member
    have filled := (held.exact _ _).mp member
    simp [kindAt] at filled
  exact handle k := by
    rw [kindAt, get_add, mem_cons, held.exact, kindAt, Prod.mk.injEq]
    by_cases here : handle = (arena.add value).1
    · subst handle
      simp [eq_comm]
    · simp [here]

end

theorem remove {handle : Nat} {k : Kind} (held : arena.HeldBy kind ((handle, k) :: holders)) :
    (arena.remove handle).HeldBy kind holders where
  nodup := (nodup_cons.mp held.nodup).2
  exact other l := by
    rw [kindAt, get_remove]
    by_cases here : other = handle
    · subst other
      have unique := (nodup_cons.mp held.handles_nodup).1
      simp only [if_true, Option.map_none, reduceCtorEq, iff_false]
      intro member
      exact unique (mem_map.mpr ⟨_, member, rfl⟩)
    · rw [if_neg here]
      have exactly := held.exact other l
      simpa [here, kindAt] using exactly

/-- Whatever leaves the kinds in the slots alone leaves the owners alone. -/
theorem of_kindAt (held : arena.HeldBy kind holders) {after : Arena Value}
    (same : ∀ handle, after.kindAt kind handle = arena.kindAt kind handle) :
    after.HeldBy kind holders where
  nodup := held.nodup
  exact handle k := by rw [held.exact, same]

end HeldBy

theorem kindAt_set {arena : Arena Value} {place : Nat} {value : Value}
    (same : ∀ old, arena.get place = some old → kind value = kind old) (handle : Nat) :
    (arena.set place value).kindAt kind handle = arena.kindAt kind handle := by
  rw [kindAt, get_set, kindAt]
  split
  · rename_i here
    subst handle
    cases found : arena.get place with
    | none => rfl
    | some old => simp [same old found]
  · rfl

end Owners

end Arena

/-! ## Walks over owners

A walk visits items in their order; each edits the store and itself. -/

section Walks

variable {Store : Type u} {Item : Type v} (visit : Store → Item → Store × Item)

def walk : Store → List Item → Store × List Item
  | store, [] => (store, [])
  | store, item :: rest =>
    ((walk (visit store item).1 rest).1, (visit store item).2 :: (walk (visit store item).1 rest).2)

theorem walk_leaves {Part : Type w} (part : Store → Part) {items : List Item}
    (leaves : ∀ store, ∀ item ∈ items, part (visit store item).1 = part store) (store : Store) :
    part (walk visit store items).1 = part store := by
  induction items generalizing store with
  | nil => rfl
  | cons item rest induction =>
    have head := leaves store item mem_cons_self
    have tail := induction (fun store item member => leaves store item (mem_cons_of_mem _ member))
      (visit store item).1
    exact tail.trans head

/-- A walk over items that own separate parts of the store does to each item
and to its part what a visit to it alone would have done. -/
theorem walk_apart {Part : Type w} (own : Item → Store → Part) (apart : Item → Item → Prop)
    (leaves : ∀ store item other, apart item other →
      own other (visit store item).1 = own other store)
    (depends : ∀ store other item, own item store = own item other →
      own item (visit store item).1 = own item (visit other item).1 ∧
        (visit store item).2 = (visit other item).2)
    {items : List Item} (separate : items.Pairwise apart)
    (symmetric : ∀ item other, apart item other → apart other item)
    (store : Store) :
    (walk visit store items).2 = items.map (fun item => (visit store item).2) ∧
      ∀ item ∈ items, own item (walk visit store items).1 = own item (visit store item).1 := by
  induction items generalizing store with
  | nil => exact ⟨rfl, nofun⟩
  | cons item rest induction =>
    rcases pairwise_cons.mp separate with ⟨fromHead, separateRest⟩
    rcases induction separateRest (visit store item).1 with ⟨edited, owned⟩
    constructor
    · simp only [walk, edited, map_cons]
      congr 1
      apply map_congr_left
      intro other member
      exact (depends _ _ _ (leaves store item other (fromHead other member))).2
    · intro other member
      rcases mem_cons.mp member with rfl | later
      · rw [walk]
        apply walk_leaves visit (own other)
        intro store item member
        exact leaves store item other (symmetric _ _ (fromHead item member))
      · rw [walk, owned other later]
        exact (depends _ _ _ (leaves store item other (fromHead other later))).1

end Walks

end WarrenSdk
