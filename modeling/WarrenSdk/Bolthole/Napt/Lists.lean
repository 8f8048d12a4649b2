import WarrenSdk.Bolthole.Napt.Recency

/-! # Lists and counts

The recency lists of a reachable table hold exactly its dynamic mappings, so
the count that the cap is checked against is the length of a list, and the
victim of an eviction is always one of the peer's own. What an operation does
for one peer leaves the records and the lists of every other peer alone. -/

namespace WarrenSdk.Bolthole.Napt

open List HashMap Option

/-- The lists hold exactly the dynamic mappings, and the counts are their
lengths. -/
structure Listed (nat : Napt) (order : PeerId × MapProto → List MappingId) : Prop where
  ordered : nat.Ordered order
  complete : nat.Complete order
  counts : ∀ key, (nat.peerCounts.get key).getD 0 = (order key).length

/-- What belongs to other peers is the same, links included. -/
structure KeepsOthers (peer : PeerId) (before after : Napt) : Prop where
  mappings : ∀ id mapping, before.mappings.get id = some mapping →
    mapping.owner ≠ peer → after.mappings.get id = some mapping
  recency : ∀ key, key.1 ≠ peer → after.recency.get key = before.recency.get key

namespace KeepsOthers

variable {after : Napt}

theorem refl (peer : PeerId) (nat : Napt) : KeepsOthers peer nat nat :=
  ⟨fun _ _ present _ => present, fun _ _ => rfl⟩

theorem trans (left : KeepsOthers peer first second)
    (right : KeepsOthers peer second third) : KeepsOthers peer first third := by
  refine ⟨?_, ?_⟩
  · intro id mapping present other
    exact right.mappings id mapping (left.mappings id mapping present other) other
  · intro key other
    rw [right.recency key other, left.recency key other]

theorem of_eq (mappings : after.mappings = before.mappings)
    (recency : after.recency = before.recency) : KeepsOthers peer before after := by
  refine ⟨?_, ?_⟩
  · rw [mappings]
    exact fun _ _ present _ => present
  · rw [recency]
    exact fun _ _ => rfl

theorem of_links (ordered : before.Ordered order) (owner : key.1 = peer)
    (relinked : Relinked before after) (links : ∀ id mapping, before.table id = some mapping →
      mapping.owner ≠ peer → id ∉ order key → after.olderOf id = before.olderOf id ∧
        after.newerOf id = before.newerOf id) (recency : ∀ other, other ≠ key →
      after.recency.get other = before.recency.get other) :
    KeepsOthers peer before after := by
  refine ⟨?_, ?_⟩
  · intro id mapping present other
    have outside : id ∉ order key := by
      intro member
      rcases ordered.sound key id member with ⟨same, again, _, rfl⟩
      rw [table_of_get present] at again
      rw [← Option.some.inj again] at owner
      exact other owner
    have same := links id _ (table_of_get present) other outside
    rw [get_eq_of_links (congrFun relinked.table id) same.1 same.2]
    exact present
  · intro other notPeer
    refine recency other ?_
    rintro rfl
    exact notPeer owner

end KeepsOthers

namespace Ordered

variable {id : MappingId}

theorem unlink_keepsOthers (ordered : nat.Ordered order) (place : order key = front ++ id :: rest) :
    KeepsOthers key.1 nat (nat.unlink id) := by
  refine KeepsOthers.of_links ordered rfl (unlink_relinked nat id) ?_ ?_
  · intro other _ _ _ outside
    exact ordered.unlink_frame place outside
  · intro other different
    rw [ordered.recency_unlink place, if_neg different]

theorem linkNewest_keepsOthers (ordered : nat.Ordered order)
    (present : nat.table id = some mapping) (dynamic : mapping.pinned = false)
    (sameKey : mapping.recencyKey = key) : KeepsOthers key.1 nat (nat.linkNewest id) := by
  refine KeepsOthers.of_links ordered rfl (linkNewest_relinked nat id) ?_ ?_
  · intro other otherMapping otherPresent notPeer outside
    refine ordered.linkNewest_frame present dynamic sameKey outside ?_
    rintro rfl
    rw [present] at otherPresent
    rw [← Option.some.inj otherPresent, ← sameKey] at notPeer
    exact notPeer rfl
  · intro other different
    rw [ordered.recency_linkNewest present dynamic sameKey, if_neg different]

theorem relink_keepsOthers (ordered : nat.Ordered order) (place : order key = front ++ id :: rest) :
    KeepsOthers key.1 nat ((nat.unlink id).linkNewest id) := by
  have member : id ∈ order key := by simp [place]
  rcases ordered.sound key id member with ⟨mapping, present, dynamic, sameKey⟩
  have stillPresent := (congrFun (unlink_relinked nat id).table id).trans present
  exact (ordered.unlink_keepsOthers place).trans
    ((ordered.unlink place).linkNewest_keepsOthers stillPresent dynamic sameKey)

end Ordered

/-- The mappings and the lists after a removal are those after the unlinking,
without the mapping itself. -/
theorem get_removeMapping (nat : Napt) (id other : MappingId) :
    (nat.removeMapping id).mappings.get other =
      if other = id then none else (nat.unlink id).mappings.get other := by
  unfold removeMapping
  dsimp only
  cases found : (nat.unlink id).mappings.get id with
  | none =>
    simp only
    split
    · rename_i here
      rw [here, found]
    · rfl
  | some mapping =>
    simp only
    split
    · exact get_remove _ _ _
    · exact get_remove _ _ _

theorem recency_removeMapping (nat : Napt) (id : MappingId) :
    (nat.removeMapping id).recency = (nat.unlink id).recency := by
  unfold removeMapping
  dsimp only
  cases (nat.unlink id).mappings.get id with
  | none => rfl
  | some mapping =>
    simp only
    split
    · rfl
    · rfl

theorem unlink_pinned {nat : Napt} {id : MappingId}
    (present : nat.table id = some mapping) (pinned : mapping.pinned) : nat.unlink id = nat := by
  rcases get_of_table present with ⟨linked, found, rfl⟩
  have isPinned : linked.pinned = true := pinned
  simp [unlink, found, isPinned]

variable {before after : Napt}

theorem links_of_get {id : MappingId} (same : after.mappings.get id = before.mappings.get id) :
    after.olderOf id = before.olderOf id ∧ after.newerOf id = before.newerOf id := by
  rw [olderOf, olderOf, newerOf, newerOf, same]
  exact ⟨rfl, rfl⟩

namespace Listed

variable {nat : Napt} {id : MappingId}

theorem new (config : NatConfig) : (Napt.new config).Listed fun _ => [] := by
  refine ⟨⟨fun _ => LinkedOrder.nil, ?_, ?_⟩, ?_, ?_⟩
  · intro key id member
    exact absurd member (by simp)
  · intro key
    exact get_empty key
  · intro id mapping present
    simp [table_new] at present
  · intro key
    simp [Napt.new]

section

variable (listed : nat.Listed order)

include listed

theorem place (present : nat.table id = some mapping) (dynamic : mapping.pinned = false) :
    ∃ front rest, order mapping.recencyKey = front ++ id :: rest :=
  append_of_mem (listed.complete id mapping present dynamic)

/-- The mapping that an eviction would take is a dynamic one of that peer and
protocol. -/
theorem oldestOf (oldest : nat.oldestOf peer proto = some id) :
    ∃ mapping, nat.table id = some mapping ∧ mapping.pinned = false ∧
      mapping.recencyKey = (peer, proto) := by
  rcases map_eq_some_iff.mp oldest with ⟨ends, found, rfl⟩
  rw [listed.ordered.ends] at found
  rcases bind_eq_some_iff.mp found with ⟨first, head, rest⟩
  rcases map_eq_some_iff.mp rest with ⟨last, _, rfl⟩
  exact listed.ordered.sound _ _ (mem_of_mem_head? head)

variable (present : nat.table id = some mapping)

include present

/-- Removing a dynamic mapping takes it out of its list. -/
theorem remove_dynamic (dynamic : mapping.pinned = false)
    (place : order mapping.recencyKey = front ++ id :: rest) : (nat.removeMapping id).Listed
      (Function.update order mapping.recencyKey (front ++ rest)) := by
  have removed := removeMapping_removed present
  have ordered := listed.ordered.unlink place
  have nodup := (listed.ordered.linked mapping.recencyKey).nodup
  rw [place, nodup_middle, nodup_cons] at nodup
  have gone : ∀ {key other}, other ∈ Function.update order mapping.recencyKey
      (front ++ rest) key → other ≠ id := by
    rintro key other member rfl
    by_cases here : key = mapping.recencyKey
    · rw [here, Function.update_self] at member
      exact nodup.1 member
    · rw [Function.update_of_ne here] at member
      refine here (listed.ordered.key_unique member ?_)
      simp [place]
  refine ⟨?_, ?_, ?_⟩
  · refine ordered.congr ?_ (recency_removeMapping nat id) ?_
    · intro key other member
      refine links_of_get ?_
      rw [get_removeMapping, if_neg (gone member)]
    · intro key other member
      rcases ordered.sound key other member with ⟨same, again, rest⟩
      refine ⟨same, ?_, rest⟩
      rw [removed.table, if_neg (gone member),
        ← congrFun (unlink_relinked nat id).table other]
      exact again
  · intro other otherMapping otherPresent otherDynamic
    rcases removed.kept otherPresent with ⟨different, wasPresent⟩
    have member := listed.complete other otherMapping wasPresent otherDynamic
    by_cases here : otherMapping.recencyKey = mapping.recencyKey
    · rw [here] at member ⊢
      rw [Function.update_self]
      rw [place] at member
      simp only [mem_append, mem_cons] at member ⊢
      tauto
    · rw [Function.update_of_ne here]
      exact member
  · intro key
    have count := listed.counts key
    rw [removed.peerCounts]
    by_cases here : key = mapping.recencyKey
    · subst key
      rw [if_pos ⟨dynamic, rfl⟩, Function.update_self]
      rw [place, length_append, length_cons] at count
      rw [length_append]
      cases stored : nat.peerCounts.get mapping.recencyKey with
      | none => simp [stored] at count
      | some value =>
        simp only [stored, getD_some] at count
        simp only [map_some, getD_some]
        omega
    · rw [if_neg (fun both => here both.2), Function.update_of_ne here]
      exact count

/-- Removing a forward leaves the lists alone. -/
theorem remove_pinned (pinned : mapping.pinned) : (nat.removeMapping id).Listed order := by
  have removed := removeMapping_removed present
  have unlinked := unlink_pinned present pinned
  have gone : ∀ {key other}, other ∈ order key → other ≠ id := by
    rintro key other member rfl
    rcases listed.ordered.sound key other member with ⟨same, again, dynamic, _⟩
    rw [present] at again
    rw [← Option.some.inj again, pinned] at dynamic
    exact absurd dynamic (by simp)
  refine ⟨?_, ?_, ?_⟩
  · refine listed.ordered.congr ?_ ?_ ?_
    · intro key other member
      refine links_of_get ?_
      rw [get_removeMapping, if_neg (gone member), unlinked]
    · rw [recency_removeMapping, unlinked]
    · intro key other member
      rw [removed.table, if_neg (gone member)]
      exact listed.ordered.sound key other member
  · intro other otherMapping otherPresent otherDynamic
    exact listed.complete other otherMapping (removed.kept otherPresent).2 otherDynamic
  · intro key
    rw [removed.peerCounts, if_neg (by simp [pinned])]
    exact listed.counts key

theorem remove : ∃ after, (nat.removeMapping id).Listed after := by
  cases kind : mapping.pinned with
  | true => exact ⟨order, listed.remove_pinned present kind⟩
  | false =>
    rcases listed.place present kind with ⟨front, rest, place⟩
    exact ⟨_, listed.remove_dynamic present kind place⟩

theorem remove_keepsOthers : KeepsOthers mapping.owner nat (nat.removeMapping id) := by
  have detached : KeepsOthers mapping.owner nat (nat.unlink id) := by
    cases kind : mapping.pinned with
    | true =>
      rw [unlink_pinned present kind]
      exact .refl _ _
    | false =>
      rcases listed.place present kind with ⟨front, rest, place⟩
      exact listed.ordered.unlink_keepsOthers place
  refine ⟨?_, ?_⟩
  · intro other otherMapping otherPresent notOwner
    have different : other ≠ id := by
      rintro rfl
      rw [table_of_get otherPresent] at present
      rw [← Option.some.inj present] at notOwner
      exact notOwner rfl
    rw [get_removeMapping, if_neg different]
    exact detached.mappings other otherMapping otherPresent notOwner
  · rw [recency_removeMapping]
    exact detached.recency

end

theorem get_insertMapping (nat : Napt) (mapping : Mapping) (other : MappingId) :
    (nat.insertMapping mapping).2.mappings.get other =
      if other = ⟨nat.nextId⟩ then some mapping
      else nat.mappings.get other :=
  get_insert _ _ _ _

theorem ne_next (listed : nat.Listed order)
    (unused : nat.table ⟨nat.nextId⟩ = none) (member : id ∈ order key) : id ≠ ⟨nat.nextId⟩ := by
  rintro rfl
  exact listed.ordered.table_ne_none member unused

/-- The lists do not know of a mapping that was only inserted. -/
theorem insert_ordered (listed : nat.Listed order)
    (unused : nat.table ⟨nat.nextId⟩ = none) (mapping : Mapping) :
    (nat.insertMapping mapping).2.Ordered order := by
  refine listed.ordered.congr ?_ rfl ?_
  · intro key other member
    refine links_of_get ?_
    rw [get_insertMapping, if_neg (listed.ne_next unused member)]
  · intro key other member
    have same : (nat.insertMapping mapping).2.table other = nat.table other := by
      rw [table, table, get_insertMapping, if_neg (listed.ne_next unused member)]
    rw [same]
    exact listed.ordered.sound key other member

theorem insert_keepsOthers (unused : nat.table ⟨nat.nextId⟩ = none)
    (peer : PeerId) (mapping : Mapping) : KeepsOthers peer nat (nat.insertMapping mapping).2 := by
  refine ⟨?_, fun _ _ => rfl⟩
  intro other otherMapping present _
  have different : other ≠ ⟨nat.nextId⟩ := by
    rintro rfl
    rw [table_eq_none.mp unused] at present
    exact absurd present (by simp)
  rw [get_insertMapping, if_neg different]
  exact present

theorem pin (listed : nat.Listed order) (unused : nat.table ⟨nat.nextId⟩ = none)
    (pinned : mapping.pinned) : (nat.insertMapping mapping).2.Listed order := by
  have inserted := insertMapping_inserted nat pinned
  refine ⟨listed.insert_ordered unused mapping, ?_, ?_⟩
  · intro other otherMapping present dynamic
    rw [inserted.table] at present
    split at present
    · cases present
      rw [Mapping.unlinked_pinned, pinned] at dynamic
      exact absurd dynamic (by simp)
    · exact listed.complete other otherMapping present dynamic
  · intro key
    rw [inserted.peerCounts, if_neg (by simp [pinned])]
    exact listed.counts key

section Open

variable {externalPort : UInt16}

/-- A new mapping becomes the newest of its list, and leaves those of other peers. -/
theorem opened (listed : nat.Listed order) (unused : nat.table ⟨nat.nextId⟩ = none) :
    (nat.openMapping peer proto internal externalPort now).2.Listed
        (Function.update order (peer, proto) (order (peer, proto) ++ [⟨nat.nextId⟩])) ∧
      KeepsOthers peer nat (nat.openMapping peer proto internal externalPort now).2 := by
  have inserted := openMapping_inserted nat peer proto internal externalPort now
  have base := listed.insert_ordered unused (dynamicMapping peer proto internal externalPort now)
  have present : (nat.insertMapping (dynamicMapping peer proto internal
      externalPort now)).2.table ⟨nat.nextId⟩ =
      some (dynamicMapping peer proto internal externalPort now).unlinked := by
    rw [table, get_insertMapping, if_pos rfl]
    rfl
  have fresh : (⟨nat.nextId⟩ : MappingId) ∉ order (peer, proto) := by
    intro member
    exact listed.ne_next unused member rfl
  have linked : KeepsOthers peer _ _ := base.linkNewest_keepsOthers present rfl rfl
  refine ⟨⟨?_, ?_, ?_⟩,
    (insert_keepsOthers unused peer _).trans (linked.trans (KeepsOthers.of_eq rfl rfl))⟩
  · exact (base.linkNewest present rfl rfl fresh).congr (fun _ _ _ => ⟨rfl, rfl⟩) rfl
      (base.linkNewest present rfl rfl fresh).sound
  · intro other otherMapping otherPresent dynamic
    rw [inserted.table] at otherPresent
    split at otherPresent
    · rename_i here
      cases otherPresent
      have key : (dynamicMapping peer proto internal externalPort
          now).unlinked.recencyKey = (peer, proto) := rfl
      rw [key, Function.update_self, here]
      exact mem_append_right _ (mem_singleton.mpr rfl)
    · have member := listed.complete other otherMapping otherPresent dynamic
      by_cases here : otherMapping.recencyKey = (peer, proto)
      · rw [here] at member ⊢
        rw [Function.update_self]
        exact mem_append_left _ member
      · rw [Function.update_of_ne here]
        exact member
  · intro key
    have count := listed.counts key
    rw [inserted.peerCounts]
    by_cases here : key = (peer, proto)
    · subst key
      rw [if_pos ⟨rfl, rfl⟩, Function.update_self, length_append, count]
      rfl
    · rw [if_neg (fun both => here both.2), Function.update_of_ne here]
      exact count

end Open

/-- Without one of its members, a list is what stands around it. -/
theorem filter_ne_place (nodup : (front ++ id :: rest).Nodup) :
    (front ++ id :: rest).filter (fun other => other ≠ id) = front ++ rest := by
  rw [nodup_middle, nodup_cons] at nodup
  have others : ∀ other ∈ front ++ rest, decide (other ≠ id) = true := by
    rintro other member
    rw [decide_eq_true_eq]
    rintro rfl
    exact nodup.1 member
  have kept := filter_eq_self.mpr others
  simpa using kept

/-- The lists after a mapping was used: a dynamic one is the newest of its
list. -/
def used (order : PeerId × MapProto → List MappingId) (id : MappingId)
    (mapping : Mapping) : PeerId × MapProto → List MappingId :=
  if mapping.pinned then order
  else Function.update order mapping.recencyKey
    ((order mapping.recencyKey).filter (fun other => other ≠ id) ++ [id])

section

variable (listed : nat.Listed order) (found : nat.mappings.get id = some mapping)

include listed found

/-- Using what is the newest of its list, or in none, changes no list. -/
theorem used_newest (stays : mapping.pinned ∨ mapping.newer = none) :
    used order id mapping = order := by
  unfold used
  split
  · rfl
  · rename_i unpinned
    have dynamic : mapping.pinned = false := by simpa using unpinned
    rcases listed.place (table_of_get found) dynamic with ⟨front, rest, place⟩
    rw [Mapping.unlinked_recencyKey] at place
    have linked := listed.ordered.linked mapping.recencyKey
    have newest : rest = [] := by
      have newer := (linked.neighbours front id rest place).2
      have noNewer : nat.newerOf id = none := by
        rw [newerOf, found]
        exact stays.resolve_left unpinned
      rw [noNewer] at newer
      exact List.head?_eq_none_iff.mp newer.symm
    subst newest
    have nodup := linked.nodup
    rw [place] at nodup
    rw [Function.update_eq_self_iff, place, filter_ne_place nodup, append_nil]

theorem touch_used : (nat.touchRecency id).Listed (used order id mapping) ∧
    KeepsOthers mapping.owner nat (nat.touchRecency id) := by
  unfold touchRecency
  simp only [found]
  split
  · rename_i stays
    rw [Bool.or_eq_true, isNone_iff_eq_none] at stays
    rw [listed.used_newest found stays]
    exact ⟨listed, .refl _ _⟩
  · rename_i moves
    have dynamic : mapping.pinned = false := by
      cases kind : mapping.pinned with
      | true => simp [kind] at moves
      | false => rfl
    rcases listed.place (table_of_get found) dynamic with ⟨front, rest, place⟩
    rw [Mapping.unlinked_recencyKey] at place
    have nodup := (listed.ordered.linked mapping.recencyKey).nodup
    rw [place] at nodup
    have moved : used order id mapping = Function.update order
        mapping.recencyKey (front ++ rest ++ [id]) := by
      rw [used, dynamic, place, filter_ne_place nodup]
      rfl
    have relinked := (unlink_relinked nat id).trans (linkNewest_relinked (nat.unlink id) id)
    rw [moved]
    refine ⟨⟨listed.ordered.relink place, ?_, ?_⟩, listed.ordered.relink_keepsOthers place⟩
    · intro other otherMapping otherPresent otherDynamic
      rw [relinked.table] at otherPresent
      have member := listed.complete other otherMapping otherPresent otherDynamic
      by_cases here : otherMapping.recencyKey = mapping.recencyKey
      · rw [here] at member ⊢
        rw [place] at member
        rw [Function.update_self]
        simp only [mem_append, mem_cons, not_mem_nil] at member ⊢
        tauto
      · rw [Function.update_of_ne here]
        exact member
    · intro key
      have sameCounts : ((nat.unlink id).linkNewest id).peerCounts =
          nat.peerCounts := by
        rw [relinked.rest]
      rw [sameCounts, listed.counts key]
      by_cases here : key = mapping.recencyKey
      · subst key
        rw [place, Function.update_self]
        simp only [length_append, length_cons, length_nil]
        omega
      · rw [Function.update_of_ne here]

/-- What a packet leaves of a mapping keeps its links, so the lists stay. -/
theorem store (same : mapping.SameIdentity observed) (older : observed.older = mapping.older)
    (newer : observed.newer = mapping.newer) :
    (nat.modifyMapping id fun _ => observed).Listed order := by
  have storedGet : ∀ other, (nat.modifyMapping id fun _ => observed).mappings.get other =
        if other = id then some observed else nat.mappings.get other := by
    intro other
    simp only [modifyMapping, get_modify, found]
    rfl
  refine ⟨listed.ordered.congr ?_ rfl ?_, ?_, listed.counts⟩
  · intro key other _
    rw [olderOf, olderOf, newerOf, newerOf, storedGet]
    split
    · rename_i here
      subst other
      simp [found, older, newer]
    · exact ⟨rfl, rfl⟩
  · intro key other member
    rcases listed.ordered.sound key other member with ⟨old, was, dynamic, isKey⟩
    rw [table, storedGet]
    split
    · rename_i here
      subst other
      rw [table_of_get found] at was
      cases was
      exact ⟨_, rfl, same.pinned.trans dynamic, same.recencyKey.trans isKey⟩
    · exact ⟨old, was, dynamic, isKey⟩
  · intro other otherMapping present dynamic
    rw [table, storedGet] at present
    split at present
    · rename_i here
      subst other
      cases present
      have key : observed.unlinked.recencyKey = mapping.unlinked.recencyKey := same.recencyKey
      rw [key]
      exact listed.complete id _ (table_of_get found) (same.pinned.symm.trans dynamic)
    · exact listed.complete other otherMapping present dynamic

end

theorem get_modifyMapping (found : nat.mappings.get id = some mapping) (observed : Mapping) :
    (nat.modifyMapping id fun _ => observed).mappings.get id = some observed := by
  simp only [modifyMapping, get_modify, found]
  rfl

theorem store_keepsOthers (found : nat.mappings.get id = some mapping) (observed : Mapping) :
    KeepsOthers mapping.owner nat (nat.modifyMapping id fun _ => observed) := by
  refine ⟨?_, fun _ _ => rfl⟩
  intro other otherMapping present notOwner
  have different : other ≠ id := by
    rintro rfl
    rw [found] at present
    rw [← Option.some.inj present] at notOwner
    exact notOwner rfl
  simp only [modifyMapping, get_modify, if_neg different]
  exact present

/-- A packet on a mapping uses it, and leaves those of other peers. -/
theorem record_used {uplink : Bool} (listed : nat.Listed order)
    (found : nat.mappings.get id = some mapping) :
    let after := nat.record id (mapping.observe cap addr port flags now uplink) now
    after.Listed (used order id mapping) ∧ KeepsOthers mapping.owner nat after := by
  have same := mapping.observe_sameIdentity cap addr port flags now uplink
  have links := mapping.observe_links cap addr port flags now uplink
  have stored := listed.store found same links.1 links.2
  have present := get_modifyMapping found (mapping.observe cap addr port flags now uplink).1
  have sameUse : used order id (mapping.observe cap addr port flags now uplink).1 =
      used order id mapping := by
    rw [used, used, same.pinned, same.recencyKey]
  rcases stored.touch_used present with ⟨touched, others⟩
  rw [sameUse] at touched
  rw [same.owner] at others
  have keeps := (store_keepsOthers found _).trans others
  unfold Napt.record
  dsimp only
  split
  · exact ⟨⟨touched.ordered.congr (fun _ _ _ => ⟨rfl, rfl⟩) rfl touched.ordered.sound,
      touched.complete, touched.counts⟩, keeps.trans (KeepsOthers.of_eq rfl rfl)⟩
  · exact ⟨touched, keeps⟩

end Listed

theorem Edit.listed (edit : Edit before after) (coherent : before.Coherent)
    (listed : before.Listed order) : ∃ order, after.Listed order := by
  cases edit with
  | ambient same =>
    refine ⟨order, ?_⟩
    rw [same.rest]
    exact ⟨listed.ordered.congr (fun _ _ _ => ⟨rfl, rfl⟩) rfl
      listed.ordered.sound, listed.complete, listed.counts⟩
  | repool =>
    exact ⟨order, listed.ordered.congr (fun _ _ _ => ⟨rfl, rfl⟩) rfl
      listed.ordered.sound, listed.complete, listed.counts⟩
  | remove present => exact listed.remove present
  | pin => exact ⟨order, listed.pin coherent.table_next rfl⟩
  | opened => exact ⟨_, (listed.opened coherent.table_next).1⟩
  | record found => exact ⟨_, (listed.record_used found).1⟩

theorem Edits.listed (edits : Edits before after) (coherent : before.Coherent)
    (listed : ∃ order, before.Listed order) : ∃ order, after.Listed order := by
  induction edits with
  | refl => exact listed
  | tail edits edit induction =>
    rcases induction with ⟨order, middle⟩
    exact edit.listed (Edits.coherent edits coherent) middle

theorem Configured.listed (configured : Configured before after)
    (listed : ∃ order, before.Listed order) : ∃ order, after.Listed order := by
  rcases listed with ⟨order, listed⟩
  refine ⟨order, ?_⟩
  rw [configured.rest]
  exact ⟨listed.ordered.congr (fun _ _ _ => ⟨rfl, rfl⟩) rfl
    listed.ordered.sound, listed.complete, listed.counts⟩

theorem run_listed (engine : ChecksumEngine) (config : NatConfig)
    (ops : List Op) : ∃ order, (run engine config ops).Listed order := by
  have both := Execution.run_invariant (step engine)
    (fun nat => nat.Coherent ∧ ∃ order, nat.Listed order)
    ⟨Coherent.new config, _, Listed.new config⟩ (fun nat op ⟨coherent, listed⟩ => by
      rcases step_edits engine coherent op with ⟨edited, edits, configured⟩
      exact ⟨configured.coherent (edits.coherent coherent),
        configured.listed (edits.listed coherent listed)⟩) ops
  exact both.2

/-- The lists count the dynamic mappings of their peer and protocol. -/
theorem Listed.length_eq {nat : Napt} (listed : nat.Listed order)
    (peer : PeerId) (proto : MapProto) :
    (nat.mappings.toList.filter fun entry => entry.2.owner = peer &&
      entry.2.proto = proto && !entry.2.pinned).length = (order (peer, proto)).length := by
  refine length_filter_toList _ _ _ (listed.ordered.linked (peer, proto)).nodup ?_
  intro id
  constructor
  · intro member
    rcases listed.ordered.sound _ id member with ⟨_, present, dynamic, key⟩
    rcases get_of_table present with ⟨mapping, found, rfl⟩
    rw [Mapping.unlinked_recencyKey, Mapping.recencyKey] at key
    refine ⟨mapping, found, ?_⟩
    rw [Mapping.unlinked_pinned] at dynamic
    simp only [Prod.mk.injEq] at key
    simp [dynamic, key]
  · rintro ⟨mapping, found, test⟩
    simp only [Bool.and_eq_true, decide_eq_true_eq, Bool.not_eq_true'] at test
    have member := listed.complete id _ (table_of_get found) test.2
    rw [Mapping.unlinked_recencyKey, Mapping.recencyKey, test.1.1, test.1.2] at member
    exact member

/-- What an index says of a mapping does not depend on its links. -/
theorem exists_table {nat : Napt} {id : MappingId} {keyOf : Mapping → Key} :
    (∃ mapping, nat.table id = some mapping ∧ keyOf mapping = key) ↔
      ∃ mapping, nat.mappings.get id = some mapping ∧ key = keyOf mapping.unlinked := by
  constructor
  · rintro ⟨_, present, rfl⟩
    rcases get_of_table present with ⟨mapping, found, rfl⟩
    exact ⟨mapping, found, rfl⟩
  · rintro ⟨mapping, found, rfl⟩
    exact ⟨_, table_of_get found, rfl⟩

/-- After every sequence of operations each index finds exactly the mappings,
each under its own key, and each count is the number of dynamic mappings that
the peer holds of the protocol. -/
theorem run_indexes_exact (engine : ChecksumEngine) (config : NatConfig) (ops : List Op) :
    let nat := run engine config ops
    (∀ key id, nat.outbound.get key = some id ↔ ∃ mapping, nat.mappings.get id = some mapping ∧
        key = (mapping.proto, mapping.internal.ip, mapping.internal.port)) ∧
    (∀ key id, nat.inbound.get key = some id ↔ ∃ mapping, nat.mappings.get id = some mapping ∧
        key = (mapping.proto, mapping.internal.isIpv6, mapping.externalPort)) ∧
    (∀ id other mapping otherMapping, nat.mappings.get id = some mapping →
      nat.mappings.get other = some otherMapping → mapping.proto = otherMapping.proto →
      mapping.internal = otherMapping.internal ∨
        (mapping.internal.isIpv6 = otherMapping.internal.isIpv6 ∧
          mapping.externalPort = otherMapping.externalPort) →
      id = other) ∧
    ∀ peer proto, (nat.peerCounts.get (peer, proto)).getD 0 =
      (nat.mappings.toList.filter fun entry => entry.2.owner = peer &&
        entry.2.proto = proto && !entry.2.pinned).length := by
  have coherent := run_coherent engine config ops
  rcases run_listed engine config ops with ⟨order, listed⟩
  refine ⟨?_, ?_, ?_, ?_⟩
  · exact fun key id => (coherent.outbound key id).trans exists_table
  · exact fun key id => (coherent.inbound key id).trans exists_table
  · intro id other mapping otherMapping found otherFound proto shared
    rcases shared with internal | ⟨family, port⟩
    · refine coherent.outbound.unique (table_of_get found) (table_of_get otherFound) ?_
      simp [Mapping.outboundKey, proto, internal]
    · refine coherent.inbound.unique (table_of_get found) (table_of_get otherFound) ?_
      simp [Mapping.inboundKey, proto, family, port]
  · intro peer proto
    rw [listed.counts, listed.length_eq]

end WarrenSdk.Bolthole.Napt
