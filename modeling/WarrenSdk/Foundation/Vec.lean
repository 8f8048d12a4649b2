import Mathlib.Tactic.Common

/-! # Growable arrays

Constant-time removal from a growable array: the last element takes the place
of the removed one. -/

namespace WarrenSdk

open List

variable {α : Type u}

/-- Remove the element at `position` and move the last one into its place. -/
def swapRemove (items : List α) (position : Nat) : List α :=
  match items.getLast? with
  | none => items
  | some last => (items.set position last).dropLast

example : swapRemove [1, 2, 3, 4] 1 = [1, 4, 3] := rfl

variable {items : List α} {position : Nat}

theorem getElem?_swapRemove (inside : position < items.length) (index : Nat) :
    (swapRemove items position)[index]? =
      if items.length ≤ index + 1 then none
      else if index = position then items[items.length - 1]?
      else items[index]? := by
  have nonempty : items ≠ [] := by
    intro empty
    simp [empty] at inside
  have last := List.getLast?_eq_getElem? (l := items)
  rw [swapRemove, List.getLast?_eq_some_getLast nonempty]
  simp only
  rw [List.getElem?_dropLast, length_set]
  by_cases beyond : items.length ≤ index + 1
  · rw [if_neg (by omega), if_pos beyond]
  · rw [if_pos (by omega), if_neg beyond, List.getElem?_set]
    by_cases here : index = position
    · subst index
      rw [if_pos rfl, if_pos inside, if_pos rfl, ← last, List.getLast?_eq_some_getLast nonempty]
    · rw [if_neg (Ne.symm here), if_neg here]

theorem swapRemove_perm (found : items[position]? = some item) :
    (item :: swapRemove items position).Perm items := by
  rcases List.getElem?_eq_some_iff.mp found with ⟨inside, equal⟩
  have split : items = items.take position ++ item :: items.drop (position + 1) := by
    rw [← equal, ← drop_eq_getElem_cons inside, take_append_drop]
  have length : (items.take position).length = position := by
    rw [length_take]
    omega
  generalize items.take position = front at split length
  generalize items.drop (position + 1) = rest at split
  subst items position
  rcases eq_nil_or_concat rest with rfl | ⟨middle, last, rfl⟩
  · have removed : swapRemove (front ++ [item]) front.length = front := by simp [swapRemove]
    rw [removed]
    exact (perm_append_singleton item front).symm
  · have removed : swapRemove (front ++ item :: middle.concat last)
        front.length = front ++ last :: middle := by
      have ends : (front ++ item :: middle.concat last).getLast? = some last := by
        simp [List.getLast?_append, List.getLast?_cons]
      rw [swapRemove, ends]
      simp [dropLast_cons_of_ne_nil]
    rw [removed, concat_eq_append]
    have moved : (last :: middle).Perm (middle ++ [last]) :=
      (perm_append_singleton last middle).symm
    exact perm_middle.symm.trans ((moved.cons item).append_left front)

theorem mem_of_mem_swapRemove (found : items[position]? = some item)
    (member : other ∈ swapRemove items position) : other ∈ items :=
  (swapRemove_perm found).subset (mem_cons_of_mem item member)

theorem mem_swapRemove_of_ne (found : items[position]? = some item)
    (member : other ∈ items) (different : other ≠ item) : other ∈ swapRemove items position := by
  rcases mem_cons.mp ((swapRemove_perm found).symm.subset member) with equal | kept
  · exact absurd equal different
  · exact kept

theorem not_mem_swapRemove (found : items[position]? = some item) (nodup : items.Nodup) :
    item ∉ swapRemove items position :=
  (nodup_cons.mp ((swapRemove_perm found).nodup_iff.mpr nodup)).1

/-! ## Filling an array entry by entry -/

variable {β : Type v} (position : β → Nat) (value : β → α)

theorem length_foldl_set (entries : List β) (items : List α) : (entries.foldl (fun items entry =>
      items.set (position entry) (value entry)) items).length =
      items.length := by
  induction entries generalizing items with
  | nil => rfl
  | cons entry entries induction => rw [foldl_cons, induction, length_set]

theorem getElem?_foldl_set_of_ne (entries : List β) (items : List α)
    (index : Nat) (apart : ∀ entry ∈ entries, position entry ≠ index) :
    (entries.foldl (fun items entry =>
      items.set (position entry) (value entry)) items)[index]? =
      items[index]? := by
  induction entries generalizing items with
  | nil => rfl
  | cons entry entries induction =>
    rw [foldl_cons, induction _ fun other member =>
      apart other (mem_cons_of_mem _ member),
      List.getElem?_set_ne (apart entry mem_cons_self)]

theorem getElem?_foldl_set_of_mem (entries : List β) (items : List α)
    (distinct : (entries.map position).Nodup) (member : entry ∈ entries)
    (inside : position entry < items.length) : (entries.foldl (fun items entry =>
      items.set (position entry) (value entry)) items)[position entry]? =
      some (value entry) := by
  induction entries generalizing items with
  | nil => exact absurd member (by simp)
  | cons head entries induction =>
    rw [map_cons, nodup_cons] at distinct
    rcases mem_cons.mp member with rfl | later
    · rw [foldl_cons, getElem?_foldl_set_of_ne]
      · exact List.getElem?_set_self inside
      · intro other otherMember equal
        exact distinct.1 (mem_map.mpr ⟨other, otherMember, equal⟩)
    · exact induction _ distinct.2 later (by simpa using inside)

end WarrenSdk
