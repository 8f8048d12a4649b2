import WarrenSdk.Bolthole.Napt.Steps
import WarrenSdk.Foundation.LinkedOrder

/-! # The recency lists

The links of the dynamic mappings form one doubly linked list per peer and
protocol, from the least to the most recently used. Here the links are read
against the order that they represent: what unlinking and linking do to it, and
that they touch no other list. -/

namespace WarrenSdk.Bolthole.Napt

open List Option

def olderOf (nat : Napt) (id : MappingId) : Option MappingId :=
  (nat.mappings.get id).bind Mapping.older

def newerOf (nat : Napt) (id : MappingId) : Option MappingId :=
  (nat.mappings.get id).bind Mapping.newer

/-- A mapping is its entry in the table and its two links. -/
theorem get_eq_of_links {before after : Napt} {id : MappingId}
    (table : after.table id = before.table id) (older : after.olderOf id = before.olderOf id)
    (newer : after.newerOf id = before.newerOf id) :
    after.mappings.get id = before.mappings.get id := by
  simp only [Napt.table, olderOf, newerOf] at table older newer
  cases beforeFound : before.mappings.get id with
  | none =>
    rw [beforeFound] at table
    exact map_eq_none_iff.mp table
  | some mapping =>
    rw [beforeFound] at table older newer
    rcases map_eq_some_iff.mp table with ⟨other, afterFound, same⟩
    rw [afterFound] at older newer ⊢
    simp only [bind_some] at older newer
    rcases mapping with ⟨_, _, _, _, _, _, _, _, _⟩
    rcases other with ⟨_, _, _, _, _, _, _, _, _⟩
    simp only [Mapping.unlinked, Mapping.mk.injEq] at same older newer ⊢
    simp [same, older, newer]

/-! ## What relinking does to the links -/

section Links

variable {nat : Napt} {id : MappingId}

/-- An edit of one mapping, seen through one of its links. -/
theorem bind_modifyMapping (nat : Napt) (id other : MappingId)
    (edit : Mapping → Mapping) (link : Mapping → Option MappingId) :
    ((nat.modifyMapping id edit).mappings.get other).bind link =
      if other = id then (nat.mappings.get id).bind (link ∘ edit)
      else (nat.mappings.get other).bind link := by
  rw [modifyMapping, HashMap.get_modify]
  split
  · exact bind_map
  · rfl

@[simp] theorem olderOf_clearLinks (nat : Napt) (id other : MappingId) :
    (nat.clearLinks id).olderOf other = if other = id then none else nat.olderOf other := by
  rw [olderOf, clearLinks, bind_modifyMapping]
  cases nat.mappings.get id <;> rfl

@[simp] theorem newerOf_clearLinks (nat : Napt) (id other : MappingId) :
    (nat.clearLinks id).newerOf other = if other = id then none else nat.newerOf other := by
  rw [newerOf, clearLinks, bind_modifyMapping]
  cases nat.mappings.get id <;> rfl

theorem olderOf_setOlder (present : nat.table id ≠ none)
    (older : Option MappingId) (other : MappingId) : (nat.setOlder id older).olderOf other =
      if other = id then older else nat.olderOf other := by
  rcases ne_none_iff_exists'.mp present with ⟨_, found⟩
  rcases get_of_table found with ⟨mapping, linked, _⟩
  rw [olderOf, setOlder, bind_modifyMapping, linked]
  rfl

@[simp] theorem newerOf_setOlder (nat : Napt) (id : MappingId)
    (older : Option MappingId) (other : MappingId) :
    (nat.setOlder id older).newerOf other = nat.newerOf other := by
  rw [newerOf, setOlder, bind_modifyMapping]
  split
  · subst other
    rfl
  · rfl

theorem newerOf_setNewer (present : nat.table id ≠ none)
    (newer : Option MappingId) (other : MappingId) : (nat.setNewer id newer).newerOf other =
      if other = id then newer else nat.newerOf other := by
  rcases ne_none_iff_exists'.mp present with ⟨_, found⟩
  rcases get_of_table found with ⟨mapping, linked, _⟩
  rw [newerOf, setNewer, bind_modifyMapping, linked]
  rfl

variable (nat : Napt) (id : MappingId)

@[simp] theorem olderOf_setNewer (newer : Option MappingId) (other : MappingId) :
    (nat.setNewer id newer).olderOf other = nat.olderOf other := by
  rw [olderOf, setNewer, bind_modifyMapping]
  split
  · subst other
    rfl
  · rfl

variable (key : PeerId × MapProto) (ends : MappingId × MappingId)

@[simp] theorem olderOf_setEnds : (nat.setEnds key ends).olderOf = nat.olderOf := rfl

@[simp] theorem newerOf_setEnds : (nat.setEnds key ends).newerOf = nat.newerOf := rfl

@[simp] theorem table_clearLinks :
    (nat.clearLinks id).table = nat.table := (Relinked.clearLinks nat id).table

@[simp] theorem table_setOlder (older : Option MappingId) :
    (nat.setOlder id older).table = nat.table :=
  (Relinked.setOlder nat id older).table

@[simp] theorem table_setNewer (newer : Option MappingId) :
    (nat.setNewer id newer).table = nat.table :=
  (Relinked.setNewer nat id newer).table

@[simp] theorem table_setEnds : (nat.setEnds key ends).table = nat.table := rfl

@[simp] theorem recency_setEnds (other : PeerId × MapProto) (ends : MappingId × MappingId) :
    (nat.setEnds key ends).recency.get other =
      if other = key then some ends else nat.recency.get other :=
  HashMap.get_insert _ _ _ _

@[simp] theorem recency_clearLinks : (nat.clearLinks id).recency = nat.recency := rfl

@[simp] theorem recency_setOlder (older : Option MappingId) :
    (nat.setOlder id older).recency = nat.recency := rfl

@[simp] theorem recency_setNewer (newer : Option MappingId) :
    (nat.setNewer id newer).recency = nat.recency := rfl

end Links

/-! ## The order behind the links -/

def listEnds (order : List MappingId) : Option (MappingId × MappingId) :=
  order.head?.bind fun oldest => order.getLast?.map fun newest => (oldest, newest)

/-- The links and the ends of every list are those of `order`, and its members
are dynamic mappings of the right peer and protocol. -/
structure Ordered (nat : Napt) (order : PeerId × MapProto → List MappingId) : Prop where
  linked : ∀ key, LinkedOrder nat.olderOf nat.newerOf (order key)
  sound : ∀ key id, id ∈ order key → ∃ mapping, nat.table id = some mapping ∧
    mapping.pinned = false ∧ mapping.recencyKey = key
  ends : ∀ key, nat.recency.get key = listEnds (order key)

def Complete (nat : Napt) (order : PeerId × MapProto → List MappingId) :
    Prop :=
  ∀ id mapping, nat.table id = some mapping → mapping.pinned = false → id ∈ order mapping.recencyKey

namespace Ordered

variable {nat : Napt} {id : MappingId}

section

variable (ordered : nat.Ordered order)

include ordered

theorem key_unique (member : id ∈ order key) (otherMember : id ∈ order other) : key = other := by
  rcases ordered.sound key id member with ⟨mapping, present, _, rfl⟩
  rcases ordered.sound other id otherMember with ⟨same, again, _, rfl⟩
  rw [present] at again
  rw [Option.some.inj again]

theorem table_ne_none (member : id ∈ order key) : nat.table id ≠ none := by
  rcases ordered.sound key id member with ⟨mapping, present, _⟩
  simp [present]

/-- What keeps the records and changes the list of one key only. -/
theorem update {after : Napt} (table : after.table = nat.table)
    (linked : LinkedOrder after.olderOf after.newerOf list)
    (frame : ∀ other ≠ key, ∀ node ∈ order other,
      after.olderOf node = nat.olderOf node ∧ after.newerOf node = nat.newerOf node)
    (sound : ∀ node ∈ list, ∃ mapping, nat.table node = some mapping ∧
      mapping.pinned = false ∧ mapping.recencyKey = key)
    (recency : ∀ other, after.recency.get other =
      if other = key then listEnds list else nat.recency.get other) :
    after.Ordered (Function.update order key list) := by
  refine ⟨?_, ?_, ?_⟩
  · intro other
    by_cases here : other = key
    · subst other
      rw [Function.update_self]
      exact linked
    · rw [Function.update_of_ne here]
      exact (ordered.linked other).congr (fun node member => (frame other here node member).1)
        (fun node member => (frame other here node member).2)
  · intro other node member
    rw [table]
    by_cases here : other = key
    · subst other
      rw [Function.update_self] at member
      exact sound node member
    · rw [Function.update_of_ne here] at member
      exact ordered.sound other node member
  · intro other
    rw [recency]
    by_cases here : other = key
    · subst other
      rw [if_pos rfl, Function.update_self]
    · rw [if_neg here, Function.update_of_ne here]
      exact ordered.ends other

variable (place : order key = front ++ id :: rest)

include place

/-- `unlink` joins the neighbours, or moves the end of the list. -/
theorem unlink_eq : nat.unlink id =
      match front.getLast?, rest.head? with
      | none, none =>
        { nat.clearLinks id with recency := nat.recency.remove key }
      | none, some newer =>
        ((nat.clearLinks id).setEnds key (newer, rest.getLast?.getD newer)).setOlder newer none
      | some older, none =>
        ((nat.clearLinks id).setNewer older none).setEnds key (front.head?.getD older, older)
      | some older, some newer =>
        ((nat.clearLinks id).setNewer older (some newer)).setOlder newer (some older) := by
  have member : id ∈ order key := by simp [place]
  rcases ordered.sound key id member with ⟨_, inTable, dynamic, sameKey⟩
  rcases get_of_table inTable with ⟨mapping, present, rfl⟩
  have links := (ordered.linked key).neighbours front id rest place
  have olderLink : mapping.older = front.getLast? := by
    rw [← links.1, olderOf, present]
    rfl
  have newerLink : mapping.newer = rest.head? := by
    rw [← links.2, newerOf, present]
    rfl
  have ends := ordered.ends key
  have recencyKey : mapping.recencyKey = key := sameKey
  have notPinned : mapping.pinned = false := dynamic
  rw [place] at ends
  unfold unlink
  simp only [present, notPinned, recencyKey, recency_clearLinks, ends, olderLink, newerLink]
  rcases eq_nil_or_concat front with rfl | ⟨older, last, rfl⟩
  · cases rest with
    | nil => rfl
    | cons first later => simp [listEnds, unlinkNewer, List.getLast?_cons]
  · cases rest with
    | nil => simp [unlinkNewer, ends, listEnds]
    | cons first later => simp [unlinkNewer]

theorem neighbour_present (member : other ∈ front ++ id :: rest) : nat.table other ≠ none :=
  ordered.table_ne_none (place ▸ member)

theorem olderOf_unlink (other : MappingId) : (nat.unlink id).olderOf other =
      if rest.head? = some other then front.getLast?
      else if other = id then none else nat.olderOf other := by
  rw [ordered.unlink_eq place]
  cases first : rest.head? with
  | none =>
    cases last : front.getLast? with
    | none => exact olderOf_clearLinks nat id other
    | some older => simp
  | some newer =>
    have present := ordered.neighbour_present place
      (mem_append_right _ (mem_cons_of_mem _ (mem_of_head? first)))
    cases last : front.getLast? with
    | none | some =>
      simp only
      rw [olderOf_setOlder (by simpa using present)]
      simp [eq_comm]

theorem newerOf_unlink (other : MappingId) : (nat.unlink id).newerOf other =
      if front.getLast? = some other then rest.head?
      else if other = id then none else nat.newerOf other := by
  rw [ordered.unlink_eq place]
  cases last : front.getLast? with
  | none =>
    cases first : rest.head? with
    | none => exact newerOf_clearLinks nat id other
    | some newer => simp
  | some older =>
    have present := ordered.neighbour_present place (mem_append_left _ (mem_of_getLast? last))
    cases first : rest.head? with
    | none =>
      simp only [newerOf_setEnds]
      rw [newerOf_setNewer (by simpa using present)]
      simp [eq_comm]
    | some newer =>
      simp only [newerOf_setOlder]
      rw [newerOf_setNewer (by simpa using present)]
      simp [eq_comm]

theorem recency_unlink (other : PeerId × MapProto) : (nat.unlink id).recency.get other =
      if other = key then listEnds (front ++ rest)
      else nat.recency.get other := by
  have ends := ordered.ends key
  rw [place] at ends
  rw [ordered.unlink_eq place]
  by_cases here : other = key
  · subst other
    rw [if_pos rfl]
    rcases eq_nil_or_concat front with rfl | ⟨older, last, rfl⟩
    · cases rest with
      | nil => simp [listEnds]
      | cons first later => simp [listEnds, List.getLast?_cons]
    · cases rest with
      | nil => simp [listEnds]
      | cons first later =>
        simp only [concat_eq_append, List.getLast?_append,
          List.getLast?_singleton, some_or, List.head?_cons,
          recency_setOlder, recency_setNewer, recency_clearLinks, ends]
        simp [listEnds]
  · rw [if_neg here]
    split
    · simp [here]
    · simp [here]
    · simp [here]
    · simp

/-- Unlinking leaves every mapping outside the list as it was. -/
theorem unlink_frame (outside : other ∉ order key) :
    (nat.unlink id).olderOf other = nat.olderOf other ∧
      (nat.unlink id).newerOf other = nat.newerOf other := by
  rw [place] at outside
  have notNode : other ≠ id := by
    rintro rfl
    exact outside (by simp)
  have notFirst : rest.head? ≠ some other := by
    intro first
    exact outside (mem_append_right _ (mem_cons_of_mem _ (mem_of_head? first)))
  have notLast : front.getLast? ≠ some other := by
    intro last
    exact outside (mem_append_left _ (mem_of_getLast? last))
  rw [ordered.olderOf_unlink place, ordered.newerOf_unlink place,
    if_neg notFirst, if_neg notLast, if_neg notNode, if_neg notNode]
  exact ⟨rfl, rfl⟩

theorem unlink : (nat.unlink id).Ordered (Function.update order key (front ++ rest)) := by
  have linked := ordered.linked key
  rw [place] at linked
  have links := linked.neighbours front id rest rfl
  have nodup := linked.nodup
  rw [nodup_middle, nodup_cons] at nodup
  have notNode : ∀ node ∈ front ++ rest, node ≠ id := by
    rintro node member rfl
    exact nodup.1 member
  refine ordered.update (unlink_relinked nat id).table (linked.unlink ?_ ?_) ?_ ?_
    (ordered.recency_unlink place)
  · intro node member
    rw [ordered.olderOf_unlink place, links.1, links.2, if_neg (notNode node member)]
  · intro node member
    rw [ordered.newerOf_unlink place, links.1, links.2, if_neg (notNode node member)]
  · intro other different node member
    exact ordered.unlink_frame place fun inKey => different (ordered.key_unique member inKey)
  · intro node member
    refine ordered.sound key node ?_
    rw [place]
    simp only [mem_append, mem_cons] at member ⊢
    tauto

end

section Link

variable (ordered : nat.Ordered order) (present : nat.table id = some mapping)
    (dynamic : mapping.pinned = false) (sameKey : mapping.recencyKey = key)

include ordered present dynamic sameKey

/-- `linkNewest` links behind the newest mapping of the list. -/
theorem linkNewest_eq : nat.linkNewest id =
      match (order key).getLast? with
      | some previous =>
        (((nat.setEnds key ((order key).head?.getD id, id)).setNewer previous
          (some id)).setOlder id (some previous)).setNewer id none
      | none => (nat.setEnds key (id, id)).clearLinks id := by
  rcases get_of_table present with ⟨linked, found, rfl⟩
  have recencyKey : linked.recencyKey = key := sameKey
  have notPinned : linked.pinned = false := dynamic
  have ends := ordered.ends key
  unfold Napt.linkNewest
  simp only [found, notPinned, recencyKey, ends]
  generalize order key = list
  cases list with
  | nil => rfl
  | cons first later =>
    cases last : (first :: later).getLast? with
    | none => simp at last
    | some previous => simp [listEnds, last]

theorem olderOf_linkNewest (other : MappingId) : (nat.linkNewest id).olderOf other =
      if other = id then (order key).getLast? else nat.olderOf other := by
  rw [ordered.linkNewest_eq present dynamic sameKey]
  cases last : (order key).getLast? with
  | none => simp
  | some previous =>
    simp only [olderOf_setNewer]
    rw [olderOf_setOlder (by simp [present])]
    simp

theorem newerOf_linkNewest (other : MappingId) : (nat.linkNewest id).newerOf other =
      if other = id then none
      else if (order key).getLast? = some other then some id
      else nat.newerOf other := by
  rw [ordered.linkNewest_eq present dynamic sameKey]
  cases last : (order key).getLast? with
  | none => simp
  | some previous =>
    have there := ordered.table_ne_none (mem_of_getLast? last)
    simp only
    rw [newerOf_setNewer (by simp [present]), newerOf_setOlder,
      newerOf_setNewer (by simpa using there)]
    simp [eq_comm]

theorem recency_linkNewest (other : PeerId × MapProto) : (nat.linkNewest id).recency.get other =
      if other = key then listEnds (order key ++ [id])
      else nat.recency.get other := by
  rw [ordered.linkNewest_eq present dynamic sameKey]
  generalize order key = list
  cases last : list.getLast? with
  | none =>
    have empty : list = [] := List.getLast?_eq_none_iff.mp last
    simp [empty, listEnds]
  | some previous =>
    cases list with
    | nil => simp at last
    | cons first later => simp [listEnds, List.getLast?_cons]

/-- Linking leaves every mapping outside the list, and not being linked, as it
was. -/
theorem linkNewest_frame (outside : other ∉ order key) (different : other ≠ id) :
    (nat.linkNewest id).olderOf other = nat.olderOf other ∧
      (nat.linkNewest id).newerOf other = nat.newerOf other := by
  have notLast : (order key).getLast? ≠ some other := by
    intro last
    exact outside (mem_of_getLast? last)
  rw [ordered.olderOf_linkNewest present dynamic sameKey,
    ordered.newerOf_linkNewest present dynamic sameKey, if_neg different,
    if_neg different, if_neg notLast]
  exact ⟨rfl, rfl⟩

theorem linkNewest (fresh : id ∉ order key) :
    (nat.linkNewest id).Ordered (Function.update order key (order key ++ [id])) := by
  refine ordered.update (linkNewest_relinked nat id).table
    ((ordered.linked key).append fresh ?_ ?_ ?_ ?_) ?_ ?_
    (ordered.recency_linkNewest present dynamic sameKey)
  · rw [ordered.olderOf_linkNewest present dynamic sameKey, if_pos rfl]
  · rw [ordered.newerOf_linkNewest present dynamic sameKey, if_pos rfl]
  · intro node member
    rw [ordered.olderOf_linkNewest present dynamic sameKey, if_neg]
    rintro rfl
    exact fresh member
  · intro node member
    rw [ordered.newerOf_linkNewest present dynamic sameKey, if_neg]
    rintro rfl
    exact fresh member
  · intro other different node member
    refine ordered.linkNewest_frame present dynamic sameKey ?_ ?_
    · intro inKey
      exact different (ordered.key_unique member inKey)
    · rintro rfl
      rcases ordered.sound other node member with ⟨same, again, _, otherKey⟩
      rw [present] at again
      rw [← Option.some.inj again, sameKey] at otherKey
      exact different otherKey.symm
  · intro node member
    rcases mem_append.mp member with old | new
    · exact ordered.sound key node old
    · rw [mem_singleton.mp new]
      exact ⟨mapping, present, dynamic, sameKey⟩

end Link

/-- Unlinking a mapping and linking it again moves it to the recent end. -/
theorem relink (ordered : nat.Ordered order) (place : order key = front ++ id :: rest) :
    ((nat.unlink id).linkNewest id).Ordered
      (Function.update order key (front ++ rest ++ [id])) := by
  have member : id ∈ order key := by simp [place]
  rcases ordered.sound key id member with ⟨mapping, present, dynamic, sameKey⟩
  have unlinked := ordered.unlink place
  have stillPresent := (congrFun (unlink_relinked nat id).table id).trans present
  have nodup := (ordered.linked key).nodup
  rw [place, nodup_middle, nodup_cons] at nodup
  have fresh : id ∉ Function.update order key (front ++ rest) key := by
    rw [Function.update_self]
    exact nodup.1
  have relinked := unlinked.linkNewest stillPresent dynamic sameKey fresh
  rw [Function.update_self, Function.update_idem] at relinked
  exact relinked

theorem congr {before after : Napt} (ordered : before.Ordered order)
    (links : ∀ key id, id ∈ order key →
      after.olderOf id = before.olderOf id ∧ after.newerOf id = before.newerOf id)
    (recency : after.recency = before.recency) (sound : ∀ key id, id ∈ order key → ∃ mapping,
      after.table id = some mapping ∧ mapping.pinned = false ∧
        mapping.recencyKey = key) : after.Ordered order := by
  refine ⟨?_, sound, ?_⟩
  · intro key
    exact (ordered.linked key).congr (fun node member => (links key node member).1)
      (fun node member => (links key node member).2)
  · intro key
    rw [recency]
    exact ordered.ends key

end Ordered

end WarrenSdk.Bolthole.Napt
