import Mathlib

/-! # Weighted choice

A roll below the sum of the weights is spent on one item after the other. Each
item is hit by as many rolls as it weighs. -/

namespace WarrenSdk.WeightedChoice

open List

/-- How a scan ends. -/
inductive Scan (Item : Type u)
  | hit (item : Item)
  | underflow
  | miss
  deriving DecidableEq

def checkedSub (left right : Nat) : Option Nat :=
  if right ≤ left then some (left - right) else none

def scan {Item : Type u} : List (Item × Nat) → Nat → Scan Item
  | [], _ => .miss
  | (item, weight) :: rest, roll =>
    if roll < weight then .hit item
    else
      match checkedSub roll weight with
      | none => .underflow
      | some roll => scan rest roll

def weightSum {Item : Type u} (weighted : List (Item × Nat)) : Nat := (weighted.map Prod.snd).sum

/-- The sum of the weights, which stops at the limit. -/
def saturatingTotal {Item : Type u} (limit : Nat) (weighted : List (Item × Nat)) :
    Nat :=
  weighted.foldl (fun total entry => min (total + entry.2) limit) 0

theorem saturatingTotal_eq {Item : Type u} (limit : Nat) (weighted : List (Item × Nat)) :
    saturatingTotal limit weighted = min (weightSum weighted) limit := by
  have general : ∀ total ≤ limit,
      weighted.foldl (fun total entry => min (total + entry.2) limit) total =
        min (total + weightSum weighted) limit := by
    induction weighted with
    | nil =>
      intro total small
      simp [weightSum, small]
    | cons entry rest induction =>
      intro total small
      rw [foldl_cons, induction _ (Nat.min_le_right _ _)]
      simp only [weightSum, map_cons, sum_cons]
      omega
  have start := general 0 (Nat.zero_le _)
  rwa [Nat.zero_add] at start

section

variable {Item : Type u} {weighted rest : List (Item × Nat)} {item head : Item}
  {weight roll : Nat}

theorem scan_below (below : roll < weight) : scan ((item, weight) :: rest) roll = .hit item := by
  rw [scan, if_pos below]

theorem scan_above (roll : Nat) :
    scan ((item, weight) :: rest) (weight + roll) = scan rest roll := by
  rw [scan, if_neg (by omega), checkedSub, if_pos (by omega)]
  simp

/-- A roll below the sum hits an item that weighs something. -/
theorem scan_hits (below : roll < weightSum weighted) :
    ∃ entry ∈ weighted, 0 < entry.2 ∧ scan weighted roll = .hit entry.1 := by
  induction weighted generalizing roll with
  | nil => exact absurd below (Nat.not_lt_zero _)
  | cons entry rest induction =>
    rcases Nat.lt_or_ge roll entry.2 with here | above
    · exact ⟨entry, mem_cons_self, by omega, scan_below here⟩
    · rcases Nat.exists_eq_add_of_le above with ⟨left, rfl⟩
      rw [weightSum, map_cons, sum_cons] at below
      rcases induction (Nat.lt_of_add_lt_add_left below) with ⟨other, member, positive, hit⟩
      exact ⟨other, mem_cons_of_mem _ member, positive, (scan_above left).trans hit⟩

variable [DecidableEq Item]

/-- An item is hit by as many rolls as it weighs. -/
theorem countP_scan (distinct : (weighted.map Prod.fst).Nodup)
    (member : (item, weight) ∈ weighted) : (range (weightSum weighted)).countP
      (fun roll => scan weighted roll = .hit item) = weight := by
  induction weighted with
  | nil => exact absurd member not_mem_nil
  | cons entry rest induction =>
    rcases entry with ⟨head, first⟩
    rw [map_cons, nodup_cons] at distinct
    rw [weightSum, map_cons, sum_cons, range_add, countP_append, countP_map]
    have front : ∀ roll ∈ range first, scan ((head, first) :: rest) roll = .hit head :=
      fun roll below => scan_below (mem_range.mp below)
    simp only [Function.comp_def, scan_above]
    rcases mem_cons.mp member with same | later
    · cases same
      have absent : (range (rest.map Prod.snd).sum).countP
          (fun roll => scan rest roll = .hit item) = 0 := by
        rw [countP_eq_zero]
        intro roll below hit
        rcases scan_hits (mem_range.mp below) with ⟨other, listed, _, found⟩
        rw [found, decide_eq_true_eq] at hit
        cases hit
        exact distinct.1 (mem_map.mpr ⟨other, listed, rfl⟩)
      have all := countP_eq_length.mpr fun roll below => decide_eq_true (front roll below)
      rw [absent, all, length_range, Nat.add_zero]
    · have different : head ≠ item := by
        rintro rfl
        exact distinct.1 (mem_map.mpr ⟨_, later, rfl⟩)
      have none : (range first).countP
          (fun roll => scan ((head, first) :: rest) roll = .hit item) = 0 := by
        rw [countP_eq_zero]
        intro roll below hit
        rw [front roll below, decide_eq_true_eq] at hit
        cases hit
        exact different rfl
      rw [none, Nat.zero_add]
      exact induction distinct.2 later

end

end WarrenSdk.WeightedChoice
