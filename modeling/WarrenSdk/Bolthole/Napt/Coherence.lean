import Mathlib.Logic.Relation
import WarrenSdk.Bolthole.Napt.Effects
import WarrenSdk.Bolthole.Napt.Translate
import WarrenSdk.Foundation.Index

/-! # Coherence of the table, the indexes and the ports

Every operation is a sequence of a few edits, and each edit keeps the two
indexes exactly the views of the table that they should be. A port that a
mapping holds is never in the free list, which is what makes the key of a newly
opened mapping unused. -/

namespace WarrenSdk.Bolthole.Napt

/-- Both indexes are views of the table, identifiers are not reused, and no
port in use is free. -/
structure Coherent (nat : Napt) : Prop where
  fresh : ∀ id mapping, nat.table id = some mapping → id.value < nat.nextId
  outbound : Indexes nat.outbound nat.table Mapping.outboundKey
  inbound : Indexes nat.inbound nat.table Mapping.inboundKey
  valid : ∀ v6 proto, (nat.ports v6 proto).Valid
  held : ∀ id mapping, nat.table id = some mapping →
    mapping.externalPort ∉ (nat.ports mapping.internal.isIpv6 mapping.proto).free

theorem table_new (config : NatConfig) (id : MappingId) : (new config).table id = none := by
  simp [table, new]

namespace Coherent

variable {nat before after : Napt}

theorem new (config : NatConfig) : (Napt.new config).Coherent := by
  refine ⟨?_, ?_, ?_, ?_, ?_⟩
  · intro id mapping present
    simp [table_new] at present
  · exact Indexes.empty (table_new config)
  · exact Indexes.empty (table_new config)
  · intro v6 proto
    cases proto with
    | tcp | udp | icmp => exact PortAllocator.build_valid _ _
  · intro id mapping present
    simp [table_new] at present

variable {id : MappingId}

theorem outbound_get (coherent : nat.Coherent) (found : nat.mappings.get id = some mapping) :
    nat.outbound.get mapping.outboundKey = some id :=
  (coherent.outbound _ id).mpr ⟨_, table_of_get found, rfl⟩

theorem inbound_get (coherent : nat.Coherent) (found : nat.mappings.get id = some mapping) :
    nat.inbound.get mapping.inboundKey = some id :=
  (coherent.inbound _ id).mpr ⟨_, table_of_get found, rfl⟩

theorem inbound_of_free (coherent : nat.Coherent) {v6 : Bool}
    (free : port ∈ (nat.ports v6 proto).free) : nat.inbound.get (proto, v6, port) = none := by
  cases found : nat.inbound.get (proto, v6, port) with
  | none => rfl
  | some id =>
    rcases (coherent.inbound _ _).mp found with ⟨mapping, present, key⟩
    cases key
    exact absurd free (coherent.held id mapping present)

theorem table_next (coherent : nat.Coherent) : nat.table ⟨nat.nextId⟩ = none := by
  cases found : nat.table ⟨nat.nextId⟩ with
  | none => rfl
  | some mapping =>
    have below := coherent.fresh _ _ found
    simp at below

variable (coherent : before.Coherent)

include coherent

theorem congr (table : after.table = before.table) (nextId : after.nextId = before.nextId)
    (outbound : after.outbound = before.outbound) (inbound : after.inbound = before.inbound)
    (ports : after.ports = before.ports) : after.Coherent := by
  refine ⟨?_, ?_, ?_, ?_, ?_⟩
  · rw [table, nextId]
    exact coherent.fresh
  · rw [table, outbound]
    exact coherent.outbound
  · rw [table, inbound]
    exact coherent.inbound
  · rw [ports]
    exact coherent.valid
  · rw [table, ports]
    exact coherent.held

theorem removed (present : before.table id = some mapping)
    (removed : Removed before id mapping after) : after.Coherent := by
  refine ⟨?_, ?_, ?_, ?_, ?_⟩
  · intro other otherMapping otherPresent
    rw [removed.nextId]
    exact coherent.fresh _ _ (removed.kept otherPresent).2
  · rw [removed.outbound]
    exact coherent.outbound.remove present removed.table
  · rw [removed.inbound]
    exact coherent.inbound.remove present removed.table
  · intro v6 proto
    rw [removed.ports]
    split
    · exact (PortAllocator.release_spec (coherent.valid v6 proto) _).valid
    · exact coherent.valid v6 proto
  · intro other otherMapping otherPresent
    rcases removed.kept otherPresent with ⟨different, wasPresent⟩
    have notFree := coherent.held other otherMapping wasPresent
    rw [removed.ports]
    split
    · rename_i here
      rw [(PortAllocator.release_spec (coherent.valid _ _) _).free]
      rintro (stillFree | ⟨samePort, _⟩)
      · exact notFree stillFree
      · refine different (coherent.inbound.unique wasPresent present ?_)
        rw [Mapping.inboundKey, Mapping.inboundKey, here.2.1, here.2.2, samePort]
    · exact notFree

theorem inserted (outboundUnused : before.outbound.get mapping.outboundKey = none)
    (inboundUnused : before.inbound.get mapping.inboundKey = none) (notFree : mapping.externalPort ∉
      (before.ports mapping.internal.isIpv6 mapping.proto).free)
    (inserted : Inserted before mapping after) : after.Coherent := by
  refine ⟨?_, ?_, ?_, ?_, ?_⟩
  · intro other otherMapping present
    rw [inserted.nextId]
    rw [inserted.table] at present
    split at present
    · rename_i here
      rw [here]
      exact Nat.lt_succ_self _
    · exact Nat.lt_succ_of_lt (coherent.fresh _ _ present)
  · rw [← Mapping.unlinked_outboundKey] at outboundUnused
    have indexed := coherent.outbound.insert coherent.table_next outboundUnused inserted.table
    rw [inserted.outbound]
    exact indexed
  · rw [← Mapping.unlinked_inboundKey] at inboundUnused
    have indexed := coherent.inbound.insert coherent.table_next inboundUnused inserted.table
    rw [inserted.inbound]
    exact indexed
  · rw [inserted.ports]
    exact coherent.valid
  · intro other otherMapping present
    rw [inserted.ports]
    rw [inserted.table] at present
    split at present
    · cases present
      exact notFree
    · exact coherent.held _ _ present

theorem recorded (present : before.table id = some mapping) (same : mapping.SameIdentity observed)
    (recorded : Recorded before id observed after) : after.Coherent := by
  refine ⟨?_, ?_, ?_, ?_, ?_⟩
  · intro other otherMapping otherPresent
    rw [recorded.nextId]
    rw [recorded.table] at otherPresent
    split at otherPresent
    · rename_i here
      subst other
      exact coherent.fresh _ _ present
    · exact coherent.fresh _ _ otherPresent
  · rw [recorded.outbound]
    have sameKey : observed.unlinked.outboundKey = mapping.outboundKey := same.outboundKey
    exact coherent.outbound.update present sameKey recorded.table
  · rw [recorded.inbound]
    have sameKey : observed.unlinked.inboundKey = mapping.inboundKey := same.inboundKey
    exact coherent.inbound.update present sameKey recorded.table
  · rw [recorded.ports]
    exact coherent.valid
  · intro other otherMapping otherPresent
    rw [recorded.ports]
    rw [recorded.table] at otherPresent
    split at otherPresent
    · cases otherPresent
      have held := coherent.held _ _ present
      rw [← same.internal, ← same.proto, ← same.externalPort] at held
      exact held
    · exact coherent.held _ _ otherPresent

/-- A change of the port spaces that frees no port in use. -/
theorem repooled {ports : Bool → MapProto → PortAllocator}
    (valid : ∀ v6 proto, (ports v6 proto).Valid)
    (free : ∀ v6 proto port, port ∈ (ports v6 proto).free → port ∈ (before.ports v6 proto).free ∨
      before.inbound.get (proto, v6, port) = none) :
    Coherent { before with ports } := by
  refine ⟨coherent.fresh, coherent.outbound, coherent.inbound, valid, ?_⟩
  intro id mapping present isFree
  rcases free _ _ _ isFree with wasFree | unused
  · exact coherent.held id mapping present wasFree
  · exact coherent.inbound.ne_of_unused unused present rfl

end Coherent

/-! ## Edits -/

/-- Everything but the expiry heap and the counters is unchanged. -/
structure SameTable (before after : Napt) : Prop where
  rest : after = { before with
    expiry := after.expiry
    counters := after.counters }

/-- Everything but the ownership view and the epoch is unchanged. -/
structure Configured (before after : Napt) : Prop where
  rest : after = { before with
    ownership := after.ownership
    exit := after.exit
    epoch := after.epoch
    v4 := after.v4
    v6 := after.v6 }

theorem Configured.coherent (configured : Configured before after) (coherent : before.Coherent) :
    after.Coherent := by
  have rest := configured.rest
  exact coherent.congr (by rw [rest]; rfl) (by rw [rest]) (by rw [rest])
    (by rw [rest]) (by rw [rest])

/-- What the callers set: nothing that a packet does changes it. -/
structure Settings where
  config : NatConfig
  ownership : Ownership
  exit : Option ExitId
  v4 : Option Ipv4Addr
  v6 : Option Ipv6Addr

def settings (nat : Napt) : Settings := ⟨nat.config, nat.ownership, nat.exit, nat.v4, nat.v6⟩

/-- One of the few ways in which an operation changes the state. -/
inductive Edit (before : Napt) : Napt → Prop where
  /-- The table and what belongs to it stay. -/
  | ambient {after : Napt} (same : SameTable before after) : Edit before after
  /-- Ports are taken or given back, none that is in use. -/
  | repool {ports : Bool → MapProto → PortAllocator} (valid : ∀ v6 proto, (ports v6 proto).Valid)
      (contains : ∀ v6 proto port, (ports v6 proto).contains port =
        (before.ports v6 proto).contains port)
      (free : ∀ v6 proto port, port ∈ (ports v6 proto).free → port ∈ (before.ports v6 proto).free ∨
        before.inbound.get (proto, v6, port) = none) :
      Edit before { before with ports }
  /-- A mapping goes. -/
  | remove {id : MappingId} {mapping : Mapping} (present : before.table id = some mapping) :
      Edit before (before.removeMapping id)
  /-- A forward is pinned under keys that are not in use. -/
  | pin {dnat : StaticDnat} {owner : PeerId} {now : Instant} (outbound : before.outbound.get
        (pinnedMapping dnat owner now).outboundKey = none)
      (inbound : before.inbound.get (pinnedMapping dnat owner now).inboundKey = none)
      (notFree : dnat.externalPort ∉ (before.ports dnat.target.isIpv6 dnat.proto).free) :
      Edit before (before.insertMapping (pinnedMapping dnat owner now)).2
  /-- A dynamic mapping is opened under keys that are not in use. -/
  | opened {peer : PeerId} {proto : MapProto} {internal : SocketAddr}
      {externalPort : UInt16} {now : Instant}
      (outbound : before.outbound.get (dynamicMapping peer proto internal
        externalPort now).outboundKey = none)
      (inbound : before.inbound.get (dynamicMapping peer proto internal
        externalPort now).inboundKey = none)
      (notFree : externalPort ∉ (before.ports internal.isIpv6 proto).free) :
      Edit before (before.openMapping peer proto internal externalPort now).2
  /-- A packet leaves its mark on a mapping. -/
  | record {id : MappingId} {mapping : Mapping} {cap : Nat} {addr : IpAddr}
      {port : UInt16} {flags : UInt8} {now : Instant} {uplink : Bool}
      (present : before.mappings.get id = some mapping) :
      Edit before (before.record id (mapping.observe cap addr port flags now uplink) now)

theorem Edit.coherent (edit : Edit before after) (coherent : before.Coherent) :
    after.Coherent := by
  cases edit with
  | ambient same =>
    have rest := same.rest
    exact coherent.congr (by rw [rest]; rfl) (by rw [rest]) (by rw [rest])
      (by rw [rest]) (by rw [rest])
  | repool valid _ free => exact coherent.repooled valid free
  | remove present => exact coherent.removed present (removeMapping_removed present)
  | pin outbound inbound notFree =>
    exact coherent.inserted outbound inbound notFree (insertMapping_inserted before rfl)
  | opened outbound inbound notFree =>
    exact coherent.inserted outbound inbound notFree (openMapping_inserted before _ _ _ _ _)
  | record present =>
    rename_i mapping cap addr port flags now uplink
    have same := mapping.observe_sameIdentity cap addr port flags now uplink
    exact coherent.recorded (table_of_get present)
      ⟨same.owner, same.proto, same.internal, same.externalPort, same.pinned⟩
      (record_recorded (table_of_get present) _ now)

/-- What an operation does is a sequence of edits. -/
abbrev Edits : Napt → Napt → Prop := Relation.ReflTransGen Edit

theorem Edit.settings (edit : Edit before after) : after.settings = before.settings := by
  cases edit with
  | ambient same =>
    rw [same.rest]
    rfl
  | repool | pin => rfl
  | remove present =>
    rw [(removeMapping_removed present).rest]
    rfl
  | opened =>
    rw [(openMapping_inserted before _ _ _ _ _).rest]
    rfl
  | record present =>
    rw [(record_recorded (table_of_get present) _ _).rest]
    rfl

theorem Edit.contains (edit : Edit before after) (coherent : before.Coherent)
    (v6 : Bool) (proto : MapProto) (port : UInt16) :
    (after.ports v6 proto).contains port = (before.ports v6 proto).contains port := by
  cases edit with
  | ambient same => rw [same.rest]
  | repool _ contains _ => exact contains v6 proto port
  | remove present =>
    rw [(removeMapping_removed present).ports]
    split
    · exact (PortAllocator.release_spec (coherent.valid v6 proto) _).contains port
    · rfl
  | pin => rfl
  | opened => rw [(openMapping_inserted before _ _ _ _ _).ports]
  | record present => rw [(record_recorded (table_of_get present) _ _).ports]

theorem Edit.nextId_le (edit : Edit before after) : before.nextId ≤ after.nextId := by
  cases edit with
  | ambient same => rw [same.rest]
  | repool => exact Nat.le_refl _
  | remove present => rw [(removeMapping_removed present).nextId]
  | pin => exact Nat.le_succ _
  | opened =>
    rw [(openMapping_inserted before _ _ _ _ _).nextId]
    exact Nat.le_succ _
  | record present => rw [(record_recorded (table_of_get present) _ _).nextId]

variable (edits : Edits before after)

include edits

theorem Edits.coherent (coherent : before.Coherent) : after.Coherent := by
  induction edits with
  | refl => exact coherent
  | tail _ edit induction => exact edit.coherent induction

theorem Edits.settings : after.settings = before.settings := by
  induction edits with
  | refl => rfl
  | tail _ edit induction => exact edit.settings.trans induction

theorem Edits.contains (coherent : before.Coherent) (v6 : Bool) (proto : MapProto) (port : UInt16) :
    (after.ports v6 proto).contains port = (before.ports v6 proto).contains port := by
  induction edits with
  | refl => rfl
  | tail edits edit induction => rw [edit.contains (Edits.coherent edits coherent), induction]

theorem Edits.nextId_le : before.nextId ≤ after.nextId := by
  induction edits with
  | refl => exact Nat.le_refl _
  | tail _ edit induction => exact Nat.le_trans induction edit.nextId_le

end WarrenSdk.Bolthole.Napt
