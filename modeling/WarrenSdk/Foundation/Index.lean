import WarrenSdk.Foundation.HashMap

/-! # Indexes of a table

A table assigns records to identifiers. An index of it finds the identifier of
a record by a key that the record determines. -/

namespace WarrenSdk

open HashMap

variable {Id : Type u} {Key : Type v} {Record : Type w} [DecidableEq Id] [DecidableEq Key]

/-- Every record is found under its own key, and no other key is known. -/
def Indexes (index : HashMap Key Id) (table : Id → Option Record) (key : Record → Key) : Prop :=
  ∀ wanted id, index.get wanted = some id ↔ ∃ record, table id = some record ∧ key record = wanted

namespace Indexes

variable {index : HashMap Key Id} {table after : Id → Option Record}
  {key : Record → Key} {id other : Id} {record otherRecord : Record}

omit [DecidableEq Id] in
theorem empty (absent : ∀ id, table id = none) : Indexes HashMap.empty table key := by
  intro wanted id
  simp [absent]

omit [DecidableEq Id] in
/-- An index built from the entries of a table whose records share no key. -/
theorem ofList {entries : List (Id × Record)}
    (members : ∀ id record, (id, record) ∈ entries ↔ table id = some record)
    (apart : ∀ id other record otherRecord, table id = some record →
      table other = some otherRecord → key record = key otherRecord → id = other) :
    Indexes (HashMap.ofList (entries.map fun entry => (key entry.2, entry.1))) table key := by
  have listed : ∀ wanted id, (wanted, id) ∈ entries.map (fun entry => (key entry.2, entry.1)) ↔
        ∃ record, table id = some record ∧ key record = wanted := by
    intro wanted id
    constructor
    · intro member
      rcases List.mem_map.mp member with ⟨⟨_, record⟩, entry, equal⟩
      cases equal
      exact ⟨record, (members _ _).mp entry, rfl⟩
    · intro found
      rcases found with ⟨record, present, sameKey⟩
      exact List.mem_map.mpr ⟨(id, record), (members _ _).mpr present, by simp [sameKey]⟩
  intro wanted id
  by_cases present : ∃ record, table id = some record ∧ key record = wanted
  · rw [get_ofList, listed]
    intro other member
    rcases present with ⟨record, here, rfl⟩
    rcases (listed _ _).mp member with ⟨otherRecord, there, sameKey⟩
    exact apart other id otherRecord record there here sameKey
  · apply iff_of_false
    · intro found
      exact present ((listed _ _).mp (mem_of_get_ofList found))
    · exact present

omit [DecidableEq Id] in
theorem get (indexes : Indexes index table key)
    (present : table id = some record) : index.get (key record) = some id :=
  (indexes _ id).mpr ⟨record, present, rfl⟩

omit [DecidableEq Id] in
theorem unique (indexes : Indexes index table key) (present : table id = some record)
    (otherPresent : table other = some otherRecord)
    (sameKey : key record = key otherRecord) : id = other := by
  have found := indexes.get present
  rw [sameKey, indexes.get otherPresent] at found
  exact (Option.some.inj found).symm

omit [DecidableEq Id] in
theorem ne_of_unused (indexes : Indexes index table key)
    (unused : index.get wanted = none) (present : table id = some record) :
    key record ≠ wanted := by
  rintro rfl
  rw [indexes.get present] at unused
  exact absurd unused (by simp)

omit [DecidableEq Id] in
theorem unused (indexes : Indexes index table key)
    (others : ∀ id record, table id = some record → key record ≠ wanted) :
    index.get wanted = none := by
  cases found : index.get wanted with
  | none => rfl
  | some id =>
    rcases (indexes wanted id).mp found with ⟨record, present, sameKey⟩
    exact absurd sameKey (others id record present)

theorem remove (indexes : Indexes index table key) (present : table id = some record)
    (removed : ∀ other, after other = if other = id then none else table other) :
    Indexes (index.remove (key record)) after key := by
  intro wanted other
  rw [get_remove, removed]
  by_cases here : other = id
  · subst other
    rw [if_pos rfl]
    constructor
    · intro found
      split at found
      · exact absurd found (by simp)
      · rename_i different
        rcases (indexes wanted id).mp found with ⟨same, again, rfl⟩
        rw [present] at again
        exact absurd (by rw [Option.some.inj again]) different
    · rintro ⟨_, absent, _⟩
      exact absurd absent (by simp)
  · rw [if_neg here, ← indexes wanted other]
    split
    · rename_i sameKey
      rw [sameKey, indexes.get present]
      simp [Ne.symm here]
    · exact Iff.rfl

theorem insert (indexes : Indexes index table key) (absent : table id = none)
    (unused : index.get (key record) = none)
    (inserted : ∀ other, after other = if other = id then some record else table other) :
    Indexes (index.insert (key record) id) after key := by
  intro wanted other
  rw [get_insert, inserted]
  by_cases here : other = id
  · subst other
    rw [if_pos rfl]
    constructor
    · intro found
      split at found
      · rename_i sameKey
        exact ⟨record, rfl, sameKey.symm⟩
      · rcases (indexes wanted id).mp found with ⟨_, present, _⟩
        rw [absent] at present
        exact absurd present (by simp)
    · rintro ⟨same, present, rfl⟩
      rw [Option.some.inj present, if_pos rfl]
  · rw [if_neg here, ← indexes wanted other]
    split
    · rename_i sameKey
      rw [sameKey, unused]
      simp [Ne.symm here]
    · exact Iff.rfl

theorem update (indexes : Indexes index table key) (present : table id = some record)
    (sameKey : key otherRecord = key record)
    (updated : ∀ other, after other = if other = id then some otherRecord else table other) :
    Indexes index after key := by
  intro wanted other
  rw [indexes wanted other, updated]
  by_cases here : other = id
  · subst other
    rw [if_pos rfl, present]
    simp [sameKey]
  · rw [if_neg here]

end Indexes

end WarrenSdk
