import Mathlib.Data.List.AList
import Mathlib.Data.List.Induction
import Mathlib.Data.List.Sort
import Mathlib.Tactic.Common

/-! # Hash maps

A hash map is an association list without repeated keys. Everything but
iteration is determined by `get`; iteration visits every entry once, in an
order that the caller supplies as a rank on the keys, because a hash map
promises none. -/

namespace WarrenSdk

open List

def HashMap (Key : Type u) (Value : Type v) : Type (max u v) := AList fun _ : Key => Value

namespace HashMap

variable {Key : Type u} {Value : Type v} [DecidableEq Key]

def empty : HashMap Key Value := (∅ : AList fun _ : Key => Value)

def get (map : HashMap Key Value) (key : Key) : Option Value := AList.lookup key map

def insert (map : HashMap Key Value) (key : Key) (value : Value) : HashMap Key Value :=
  AList.insert key value map

def remove (map : HashMap Key Value) (key : Key) : HashMap Key Value := AList.erase key map

/-- Edit the value under a key in place; an absent key stays absent. -/
def modify (map : HashMap Key Value) (key : Key) (edit : Value → Value) : HashMap Key Value :=
  match map.get key with
  | some value => map.insert key (edit value)
  | none => map

def ofList (entries : List (Key × Value)) : HashMap Key Value :=
  entries.foldl (fun map entry => map.insert entry.1 entry.2) empty

@[simp] theorem get_empty (key : Key) : (empty : HashMap Key Value).get key = none :=
  AList.lookup_empty key

@[simp] theorem get_insert (map : HashMap Key Value) (key : Key) (value : Value) (other : Key) :
    (map.insert key value).get other = if other = key then some value else map.get other := by
  by_cases equal : other = key
  · subst other
    rw [if_pos rfl]
    exact AList.lookup_insert map
  · rw [if_neg equal]
    exact AList.lookup_insert_ne equal

/-- Two maps have the same lookups if they have the same entries in some
order. -/
theorem get_eq_iff (left right : HashMap Key Value) : (∀ key, left.get key = right.get key) ↔
      (AList.entries left).Perm (AList.entries right) := by
  constructor
  · intro same
    apply lookup_ext left.nodupKeys right.nodupKeys
    intro key value
    exact iff_of_eq (congrArg (value ∈ ·) (same key))
  · intro permuted key
    exact AList.perm_lookup permuted

@[simp] theorem get_remove (map : HashMap Key Value) (key other : Key) :
    (map.remove key).get other = if other = key then none else map.get other := by
  by_cases equal : other = key
  · subst other
    rw [if_pos rfl]
    exact AList.lookup_erase key map
  · rw [if_neg equal]
    exact AList.lookup_erase_ne equal

@[simp] theorem get_modify (map : HashMap Key Value) (key : Key)
    (edit : Value → Value) (other : Key) : (map.modify key edit).get other =
      if other = key then (map.get key).map edit else map.get other := by
  unfold modify
  by_cases equal : other = key
  · subst other
    split <;> simp_all
  · split <;> simp [equal]

/-! ## Maps from lists -/

theorem ofList_concat (entries : List (Key × Value)) (entry : Key × Value) :
    ofList (entries ++ [entry]) = (ofList entries).insert entry.1 entry.2 := by
  simp [ofList]

variable {entries : List (Key × Value)} {key : Key} {value : Value}
    {map : HashMap Key Value}

/-- A map made from a list knows only the entries of the list. -/
theorem mem_of_get_ofList (found : (ofList entries).get key = some value) :
    (key, value) ∈ entries := by
  induction entries using List.reverseRecOn with
  | nil => simp [ofList] at found
  | append_singleton entries entry induction =>
    rw [ofList_concat, get_insert] at found
    split at found
    · rename_i equal
      cases found
      simp [equal]
    · exact mem_append_left _ (induction found)

/-- A map made from a list knows every key of the list. -/
theorem get_ofList_eq_none : (ofList entries).get key = none ↔ key ∉ entries.map Prod.fst := by
  induction entries using List.reverseRecOn with
  | nil => simp [ofList]
  | append_singleton entries entry induction =>
    rw [ofList_concat, get_insert]
    by_cases equal : key = entry.1
    · simp [equal]
    · simp only [if_neg equal, induction]
      simp [equal]

/-- Where every key has one value, a map made from a list knows exactly its
entries. -/
theorem get_ofList (functional : ∀ other, (key, other) ∈ entries → other = value) :
    (ofList entries).get key = some value ↔ (key, value) ∈ entries := by
  constructor
  · exact mem_of_get_ofList
  · intro member
    cases found : (ofList entries).get key with
    | none => exact absurd (mem_map.mpr ⟨_, member, rfl⟩) (get_ofList_eq_none.mp found)
    | some other => rw [functional other (mem_of_get_ofList found)]

/-! ## Iteration -/

def toList (map : HashMap Key Value) : List (Key × Value) :=
  map.entries.map fun entry => (entry.1, entry.2)

def size (map : HashMap Key Value) : Nat := map.toList.length

omit [DecidableEq Key] in
theorem size_eq_keys (map : HashMap Key Value) : map.size = (AList.keys map).length := by
  simp [size, toList, AList.keys, List.keys]

theorem size_remove_le (map : HashMap Key Value) (key : Key) :
    (map.remove key).size ≤ map.size := by
  have keys : AList.keys (map.remove key) = (AList.keys map).erase key := AList.keys_erase key map
  rw [size_eq_keys, size_eq_keys, keys]
  exact length_erase_le

theorem size_insert_le (map : HashMap Key Value) (key : Key) (value : Value) :
    (map.insert key value).size ≤ map.size + 1 := by
  have keys : AList.keys (map.insert key value) = key :: (AList.keys map).erase key :=
    AList.keys_insert map
  rw [size_eq_keys, size_eq_keys, keys, length_cons]
  exact Nat.succ_le_succ length_erase_le

/-- The entries in the order a rank on the keys imposes. -/
def iter (map : HashMap Key Value) (rank : Key → Nat) : List (Key × Value) :=
  map.toList.insertionSort fun left right => rank left.1 ≤ rank right.1

theorem mem_toList : (key, value) ∈ map.toList ↔ map.get key = some value := by
  have characterized := AList.mem_lookup_iff (a := key) (b := value) (s := map)
  rw [get, ← Option.mem_def, characterized, toList, mem_map]
  constructor
  · rintro ⟨entry, member, equal⟩
    cases equal
    exact member
  · intro member
    exact ⟨_, member, rfl⟩

def retain (map : HashMap Key Value) (keep : Key → Value → Bool) : HashMap Key Value :=
  ofList (map.toList.filter fun entry => keep entry.1 entry.2)

theorem get_of_retain (found : (map.retain keep).get key = some value) :
    map.get key = some value ∧ keep key value = true := by
  rcases mem_filter.mp (mem_of_get_ofList found) with ⟨listed, passes⟩
  exact ⟨mem_toList.mp listed, passes⟩

theorem mem_iter : (key, value) ∈ map.iter rank ↔ map.get key = some value := by
  rw [iter, (perm_insertionSort _ _).mem_iff, mem_toList]

omit [DecidableEq Key] in
theorem toList_keys_nodup (map : HashMap Key Value) : (map.toList.map Prod.fst).Nodup := by
  have nodup := AList.keys_nodup map
  simpa [toList, AList.keys, List.keys, Function.comp_def] using nodup

/-- A duplicate-free list of keys in use is no longer than the map. -/
theorem length_le_of_present {keys : List Key} (nodup : keys.Nodup)
    (present : ∀ key ∈ keys, ∃ value, map.get key = some value) :
    keys.length ≤ map.toList.length := by
  have listed : keys ⊆ map.toList.map Prod.fst := by
    intro key member
    rcases present key member with ⟨value, found⟩
    exact mem_map.mpr ⟨(key, value), mem_toList.mpr found, rfl⟩
  simpa using nodup.length_le_of_subset listed

/-- A duplicate-free list of exactly the keys whose entries satisfy a test
counts those entries. -/
theorem length_filter_toList (map : HashMap Key Value)
    (test : Key × Value → Bool) (keys : List Key) (nodup : keys.Nodup)
    (members : ∀ key, key ∈ keys ↔ ∃ value, map.get key = some value ∧ test (key, value) = true) :
    (map.toList.filter test).length = keys.length := by
  have selectedNodup : ((map.toList.filter test).map Prod.fst).Nodup :=
    map.toList_keys_nodup.sublist (filter_sublist.map Prod.fst)
  have sameMembers : ∀ key, key ∈ (map.toList.filter test).map Prod.fst ↔ key ∈ keys := by
    intro key
    rw [members key]
    constructor
    · intro member
      rcases mem_map.mp member with ⟨⟨_, value⟩, selected, rfl⟩
      rcases mem_filter.mp selected with ⟨listed, passes⟩
      exact ⟨value, mem_toList.mp listed, passes⟩
    · rintro ⟨value, present, passes⟩
      exact mem_map.mpr ⟨(key, value), mem_filter.mpr ⟨mem_toList.mpr present, passes⟩, rfl⟩
  have permuted := (perm_ext_iff_of_nodup selectedNodup nodup).mpr sameMembers
  simpa using permuted.length_eq

end HashMap

end WarrenSdk
