import WarrenSdk.Bolthole.Napt.Table

/-! # What the table operations change

Seen without its recency links, the table is a partial function from
identifiers to mappings. Relinking leaves it alone; the other operations change
it at one identifier. Each effect below is stated once, together with the fields
that it leaves as they were. -/

namespace WarrenSdk.Bolthole

open HashMap Option

@[simps]
def Mapping.unlinked (mapping : Mapping) : Mapping :=
  { mapping with older := none, newer := none }

@[simp] theorem Mapping.unlinked_outboundKey (mapping : Mapping) :
    mapping.unlinked.outboundKey = mapping.outboundKey := rfl

@[simp] theorem Mapping.unlinked_inboundKey (mapping : Mapping) :
    mapping.unlinked.inboundKey = mapping.inboundKey := rfl

@[simp] theorem Mapping.unlinked_recencyKey (mapping : Mapping) :
    mapping.unlinked.recencyKey = mapping.recencyKey := rfl

/-- What identifies a mapping to the indexes, the lists and the ports. -/
structure Mapping.SameIdentity (mapping other : Mapping) : Prop where
  owner : other.owner = mapping.owner
  proto : other.proto = mapping.proto
  internal : other.internal = mapping.internal
  externalPort : other.externalPort = mapping.externalPort
  pinned : other.pinned = mapping.pinned

namespace Mapping.SameIdentity

variable {mapping : Mapping}

theorem symm (same : mapping.SameIdentity other) : other.SameIdentity mapping :=
  ⟨same.owner.symm, same.proto.symm, same.internal.symm, same.externalPort.symm, same.pinned.symm⟩

theorem trans (left : mapping.SameIdentity other)
    (right : other.SameIdentity third) : mapping.SameIdentity third :=
  ⟨right.owner.trans left.owner, right.proto.trans left.proto,
    right.internal.trans left.internal,
    right.externalPort.trans left.externalPort,
    right.pinned.trans left.pinned⟩

theorem outboundKey (same : mapping.SameIdentity other) :
    other.outboundKey = mapping.outboundKey := by
  simp [Mapping.outboundKey, same.proto, same.internal]

theorem inboundKey (same : mapping.SameIdentity other) : other.inboundKey = mapping.inboundKey := by
  simp [Mapping.inboundKey, same.proto, same.internal, same.externalPort]

theorem recencyKey (same : mapping.SameIdentity other) : other.recencyKey = mapping.recencyKey := by
  simp [Mapping.recencyKey, same.owner, same.proto]

end Mapping.SameIdentity

theorem Mapping.observe_sameIdentity (mapping : Mapping) (cap : Nat)
    (addr : IpAddr) (port : UInt16) (flags : UInt8) (now : Instant) (uplink : Bool) :
    mapping.SameIdentity (mapping.observe cap addr port flags now uplink).1 := by
  unfold Mapping.observe
  split
  · split
    · exact ⟨rfl, rfl, rfl, rfl, rfl⟩
    · exact ⟨rfl, rfl, rfl, rfl, rfl⟩
  · exact ⟨rfl, rfl, rfl, rfl, rfl⟩

theorem Mapping.SameIdentity.of_observe {mapping : Mapping} (marked : observed =
      (mapping.observe cap addr port flags now uplink).1) :
    mapping.SameIdentity observed :=
  marked ▸ mapping.observe_sameIdentity cap addr port flags now uplink

theorem Mapping.observe_links (mapping : Mapping) (cap : Nat)
    (addr : IpAddr) (port : UInt16) (flags : UInt8) (now : Instant) (uplink : Bool) :
    (mapping.observe cap addr port flags now uplink).1.older = mapping.older ∧
      (mapping.observe cap addr port flags now uplink).1.newer =
        mapping.newer := by
  unfold Mapping.observe
  split
  · split
    · exact ⟨rfl, rfl⟩
    · exact ⟨rfl, rfl⟩
  · exact ⟨rfl, rfl⟩

namespace Napt

def table (nat : Napt) (id : MappingId) : Option Mapping :=
  (nat.mappings.get id).map Mapping.unlinked

variable {nat : Napt} {id : MappingId}

theorem table_eq_none : nat.table id = none ↔ nat.mappings.get id = none := map_eq_none_iff

theorem table_of_get (present : nat.mappings.get id = some mapping) :
    nat.table id = some mapping.unlinked := by
  simp [table, present]

theorem get_of_table (present : nat.table id = some mapping) :
    ∃ linked, nat.mappings.get id = some linked ∧ linked.unlinked = mapping :=
  map_eq_some_iff.mp present

theorem table_modifyMapping (nat : Napt) (id : MappingId)
    (edit : Mapping → Mapping) (other : MappingId) : (nat.modifyMapping id edit).table other =
      if other = id then (nat.mappings.get id).map fun mapping => (edit mapping).unlinked
      else nat.table other := by
  simp only [table, modifyMapping, get_modify]
  split
  · rw [map_map]
    rfl
  · rfl

/-! ## Relinking -/

/-- Only links between mappings, and the ends of the lists, differ. -/
structure Relinked (before after : Napt) : Prop where
  table : after.table = before.table
  rest : after = { before with
    mappings := after.mappings
    recency := after.recency }

namespace Relinked

theorem refl (nat : Napt) : Relinked nat nat := ⟨rfl, rfl⟩

theorem trans (left : Relinked first second) (right : Relinked second third) :
    Relinked first third := by
  refine ⟨right.table.trans left.table, ?_⟩
  rw [right.rest, left.rest]

section

variable (nat : Napt) (id : MappingId)

theorem modifyMapping (edit : Mapping → Mapping)
    (links : ∀ mapping, (edit mapping).unlinked = mapping.unlinked) :
    Relinked nat (nat.modifyMapping id edit) := by
  refine ⟨?_, rfl⟩
  funext other
  rw [table_modifyMapping]
  split
  · rename_i here
    subst other
    simp [Napt.table, links]
  · rfl

theorem clearLinks : Relinked nat (nat.clearLinks id) := modifyMapping nat id _ fun _ => rfl

theorem setOlder (older : Option MappingId) : Relinked nat (nat.setOlder id older) :=
  modifyMapping nat id _ fun _ => rfl

theorem setNewer (newer : Option MappingId) : Relinked nat (nat.setNewer id newer) :=
  modifyMapping nat id _ fun _ => rfl

end

theorem recency (nat : Napt) (recency : HashMap (PeerId × MapProto) (MappingId × MappingId)) :
    Relinked nat { nat with recency } :=
  ⟨rfl, rfl⟩

end Relinked

theorem unlinkNewer_relinked (nat : Napt) (key : PeerId × MapProto)
    (older newer : Option MappingId) : Relinked nat (nat.unlinkNewer key older newer) := by
  unfold unlinkNewer
  split
  · exact Relinked.setOlder nat _ _
  · split
    · exact Relinked.recency nat _
    · exact .refl nat

theorem unlink_relinked (nat : Napt) (id : MappingId) : Relinked nat (nat.unlink id) := by
  unfold unlink
  split
  · exact .refl nat
  · split
    · exact .refl nat
    · refine (Relinked.clearLinks nat id).trans ?_
      dsimp only
      split
      · exact (Relinked.setNewer _ _ _).trans (unlinkNewer_relinked _ _ _ _)
      · split
        · exact (Relinked.recency _ _).trans (unlinkNewer_relinked _ _ _ _)
        · exact Relinked.recency _ _
        · exact unlinkNewer_relinked _ _ _ _

theorem linkNewest_relinked (nat : Napt) (id : MappingId) : Relinked nat (nat.linkNewest id) := by
  unfold linkNewest
  split
  · exact .refl nat
  · split
    · exact .refl nat
    · dsimp only
      split
      · exact (((Relinked.recency _ _).trans (Relinked.setNewer _ _ _)).trans
          (Relinked.setOlder _ _ _)).trans (Relinked.setNewer _ _ _)
      · exact (Relinked.recency _ _).trans (Relinked.clearLinks _ _)

theorem touchRecency_relinked (nat : Napt) (id : MappingId) :
    Relinked nat (nat.touchRecency id) := by
  unfold touchRecency
  split
  · exact .refl nat
  · split
    · exact .refl nat
    · exact (unlink_relinked nat id).trans (linkNewest_relinked _ id)

/-! ## Removing -/

/-- One mapping is gone from the table and from both indexes, and what it held
has been given back. -/
structure Removed (before : Napt) (id : MappingId) (mapping : Mapping) (after : Napt) : Prop where
  table : ∀ other, after.table other =
    if other = id then none else before.table other
  rest : after = { before with
    mappings := after.mappings
    recency := after.recency
    outbound := before.outbound.remove mapping.outboundKey
    inbound := before.inbound.remove mapping.inboundKey
    ports := after.ports
    peerCounts := after.peerCounts }
  ports : ∀ v6 proto, after.ports v6 proto =
    if mapping.pinned = false ∧ v6 = mapping.internal.isIpv6 ∧ proto = mapping.proto then
      (before.ports v6 proto).release mapping.externalPort
    else before.ports v6 proto
  peerCounts : ∀ key, after.peerCounts.get key =
    if mapping.pinned = false ∧ key = mapping.recencyKey then
      (before.peerCounts.get key).map fun count => count - 1
    else before.peerCounts.get key

namespace Removed

variable (removed : Removed before id mapping after)

include removed

theorem nextId : after.nextId = before.nextId := by rw [removed.rest]

theorem outbound : after.outbound = before.outbound.remove mapping.outboundKey := by
  rw [removed.rest]

theorem inbound : after.inbound = before.inbound.remove mapping.inboundKey := by rw [removed.rest]

theorem kept (present : after.table other = some otherMapping) :
    other ≠ id ∧ before.table other = some otherMapping := by
  rw [removed.table] at present
  split at present
  · exact absurd present (by simp)
  · rename_i different
    exact ⟨different, present⟩

end Removed

theorem removeMapping_absent (absent : nat.table id = none) : nat.removeMapping id = nat := by
  have noMapping := table_eq_none.mp absent
  simp [removeMapping, unlink, noMapping]

theorem removeMapping_removed (present : nat.table id = some mapping) :
    Removed nat id mapping (nat.removeMapping id) := by
  have relinked := unlink_relinked nat id
  have stillPresent := (congrFun relinked.table id).trans present
  rcases get_of_table stillPresent with ⟨linked, found, rfl⟩
  have restUnlink := relinked.rest
  unfold removeMapping
  simp only [found]
  generalize nat.unlink id = detached at relinked found restUnlink ⊢
  have tableAfter : ∀ other, (Option.map Mapping.unlinked
      (if other = id then none else detached.mappings.get other)) =
      if other = id then none else nat.table other := by
    intro other
    split
    · rfl
    · exact congrFun relinked.table other
  cases pinned : linked.pinned with
  | true =>
    rw [if_pos rfl]
    refine ⟨?_, ?_, ?_, ?_⟩
    · intro other
      rw [← tableAfter other]
      simp [table]
    · rw [restUnlink]
      rfl
    · intro v6 proto
      rw [restUnlink]
      simp [pinned]
    · intro key
      rw [restUnlink]
      simp [pinned]
  | false =>
    rw [if_neg (by simp)]
    refine ⟨?_, ?_, ?_, ?_⟩
    · intro other
      rw [← tableAfter other]
      simp [table, giveBack, setAllocator]
    · rw [restUnlink]
      rfl
    · intro v6 proto
      rw [restUnlink]
      simp only [giveBack, setAllocator, Mapping.unlinked_pinned, pinned,
        Mapping.unlinked_internal, Mapping.unlinked_proto, true_and, Mapping.unlinked_externalPort]
      split
      · rename_i here
        rw [here.1, here.2]
      · rfl
    · intro key
      rw [restUnlink]
      simp only [giveBack, get_modify, Mapping.unlinked_pinned,
        pinned, Mapping.unlinked_recencyKey, true_and]
      split
      · rename_i here
        rw [here]
      · rfl

/-! ## Inserting -/

/-- A mapping stands under the next identifier and under its two keys. -/
structure Inserted (before : Napt) (mapping : Mapping) (after : Napt) : Prop where
  table : ∀ other, after.table other =
    if other = ⟨before.nextId⟩ then some mapping.unlinked
    else before.table other
  rest : after = { before with
    mappings := after.mappings
    recency := after.recency
    nextId := before.nextId + 1
    outbound := before.outbound.insert mapping.outboundKey ⟨before.nextId⟩
    inbound := before.inbound.insert mapping.inboundKey ⟨before.nextId⟩
    peerCounts := after.peerCounts
    expiry := after.expiry }
  peerCounts : ∀ key, (after.peerCounts.get key).getD 0 =
    if mapping.pinned = false ∧ key = mapping.recencyKey then
      (before.peerCounts.get key).getD 0 + 1
    else (before.peerCounts.get key).getD 0

namespace Inserted

variable (inserted : Inserted before mapping after)

include inserted

theorem present : after.table ⟨before.nextId⟩ = some mapping.unlinked :=
  (inserted.table _).trans (if_pos rfl)

theorem nextId : after.nextId = before.nextId + 1 := by rw [inserted.rest]

theorem outbound : after.outbound = before.outbound.insert mapping.outboundKey ⟨before.nextId⟩ := by
  rw [inserted.rest]

theorem inbound : after.inbound = before.inbound.insert mapping.inboundKey ⟨before.nextId⟩ := by
  rw [inserted.rest]

theorem ports : after.ports = before.ports := by rw [inserted.rest]

end Inserted

theorem insertMapping_inserted (nat : Napt) (pinned : mapping.pinned) :
    Inserted nat mapping (nat.insertMapping mapping).2 := by
  refine ⟨?_, rfl, ?_⟩
  · intro other
    simp only [table, insertMapping, get_insert]
    split
    · rfl
    · rfl
  · intro key
    simp [insertMapping, pinned]

theorem openMapping_inserted (nat : Napt) (peer : PeerId) (proto : MapProto)
    (internal : SocketAddr) (externalPort : UInt16) (now : Instant) :
    Inserted nat (dynamicMapping peer proto internal externalPort now)
      (nat.openMapping peer proto internal externalPort now).2 := by
  have relinked := linkNewest_relinked (nat.insertMapping
    (dynamicMapping peer proto internal externalPort now)).2
    (nat.insertMapping (dynamicMapping peer proto internal externalPort now)).1
  have rest := relinked.rest
  refine ⟨?_, ?_, ?_⟩
  · intro other
    have linked : (nat.openMapping peer proto internal externalPort now).2.table
        other = _ := congrFun relinked.table other
    rw [linked]
    simp only [table, insertMapping, get_insert]
    split
    · rfl
    · rfl
  · simp only [openMapping]
    rw [rest]
    rfl
  · intro key
    have counts : (nat.openMapping peer proto internal externalPort
        now).2.peerCounts = nat.peerCounts.insert (peer, proto)
          ((nat.peerCounts.get (peer, proto)).getD 0 + 1) := by
      simp only [openMapping]
      rw [rest]
      rfl
    rw [counts, get_insert]
    by_cases here : key = (peer, proto)
    · subst key
      simp [dynamicMapping, Mapping.recencyKey]
    · simp [dynamicMapping, Mapping.recencyKey, here]

/-! ## Recording -/

/-- One mapping holds what a packet left of it. -/
structure Recorded (before : Napt) (id : MappingId) (observed : Mapping) (after : Napt) : Prop where
  table : ∀ other, after.table other =
    if other = id then some observed.unlinked else before.table other
  rest : after = { before with
    mappings := after.mappings
    recency := after.recency
    expiry := after.expiry }

namespace Recorded

variable (recorded : Recorded before id observed after)

include recorded

theorem nextId : after.nextId = before.nextId := by rw [recorded.rest]

theorem outbound : after.outbound = before.outbound := by rw [recorded.rest]

theorem inbound : after.inbound = before.inbound := by rw [recorded.rest]

theorem ports : after.ports = before.ports := by rw [recorded.rest]

end Recorded

theorem record_recorded (present : nat.table id = some mapping)
    (observed : Mapping × Bool) (now : Instant) :
    Recorded nat id observed.1 (nat.record id observed now) := by
  have relinked := touchRecency_relinked (nat.modifyMapping id fun _ => observed.1) id
  have rest := relinked.rest
  rcases get_of_table present with ⟨linked, found, _⟩
  have tableAfter : ∀ other, ((nat.modifyMapping id
      fun _ => observed.1).touchRecency id).table other =
      if other = id then some observed.1.unlinked else nat.table other := by
    intro other
    rw [relinked.table, table_modifyMapping, found]
    rfl
  unfold record
  split
  · exact ⟨tableAfter, by rw [rest]; rfl⟩
  · exact ⟨tableAfter, by rw [rest]; rfl⟩

end Napt

end WarrenSdk.Bolthole
