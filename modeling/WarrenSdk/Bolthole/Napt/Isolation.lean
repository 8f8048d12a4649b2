import WarrenSdk.Bolthole.Napt.Lists

/-! # Isolation of the peers

An uplink packet of one peer, whatever becomes of it, leaves every mapping of
every other peer exactly as it was, in the same place of the same eviction
order and under the same keys. -/

namespace WarrenSdk.Bolthole.Napt

variable {nat : Napt}

/-- A peer's mappings of a protocol in the order in which it would lose them,
read by following the links from the oldest one. -/
def evictionOrder (nat : Napt) (key : PeerId × MapProto) : List MappingId :=
  walkNewer nat.newerOf nat.mappingCount ((nat.recency.get key).map Prod.fst)

/-- Following the links reads an order back whose mappings are all there. -/
theorem evictionOrder_eq (linked : LinkedOrder nat.olderOf nat.newerOf order)
    (ends : nat.recency.get key = listEnds order)
    (present : ∀ id ∈ order, ∃ mapping, nat.mappings.get id = some mapping) :
    nat.evictionOrder key = order := by
  have first : (nat.recency.get key).map Prod.fst = order.head? := by
    rw [ends]
    cases order with
    | nil => rfl
    | cons oldest later => simp [listEnds, List.getLast?_cons]
  rw [evictionOrder, first]
  exact linked.walkNewer_eq (HashMap.length_le_of_present linked.nodup present)

/-- In every run the links of a peer's mappings of a protocol mirror each other,
and following them reads each of its dynamic mappings once, and no others. -/
theorem evictionOrder_exact (engine : ChecksumEngine) (config : NatConfig)
    (ops : List Op) (key : PeerId × MapProto) :
    let nat := run engine config ops
    LinkedOrder nat.olderOf nat.newerOf (nat.evictionOrder key) ∧
      ∀ id, id ∈ nat.evictionOrder key ↔ ∃ mapping, nat.table id = some mapping ∧
        mapping.pinned = false ∧ mapping.recencyKey = key := by
  intro nat
  rcases run_listed engine config ops with ⟨order, listed⟩
  have linked := listed.ordered.linked key
  have read : nat.evictionOrder key = order key := by
    apply evictionOrder_eq linked (listed.ordered.ends key)
    intro id member
    rcases listed.ordered.sound key id member with ⟨_, present, _⟩
    rcases get_of_table present with ⟨mapping, found, _⟩
    exact ⟨mapping, found⟩
  rw [read]
  refine ⟨linked, fun id => ⟨listed.ordered.sound key id, ?_⟩⟩
  rintro ⟨mapping, present, dynamic, rfl⟩
  exact listed.complete id mapping present dynamic

/-- What is kept of other peers includes the order of their mappings. -/
theorem KeepsOthers.evictionOrder_eq (keeps : KeepsOthers peer before after)
    (listed : before.Listed order) (other : key.1 ≠ peer) :
    after.evictionOrder key = before.evictionOrder key := by
  have linked := listed.ordered.linked key
  have ends := listed.ordered.ends key
  have found : ∀ id ∈ order key, ∃ mapping,
      before.mappings.get id = some mapping ∧ after.mappings.get id = some mapping := by
    intro id member
    rcases listed.ordered.sound key id member with ⟨_, present, _, sameKey⟩
    rcases get_of_table present with ⟨mapping, found, rfl⟩
    refine ⟨mapping, found, keeps.mappings id mapping found ?_⟩
    rw [← sameKey] at other
    exact other
  have links : ∀ id ∈ order key, after.olderOf id = before.olderOf id ∧
      after.newerOf id = before.newerOf id := by
    intro id member
    rcases found id member with ⟨mapping, wasThere, isThere⟩
    exact links_of_get (isThere.trans wasThere.symm)
  have beforeOrder := Napt.evictionOrder_eq linked ends fun id member =>
    (found id member).imp fun _ both => both.1
  have afterOrder := Napt.evictionOrder_eq (linked.congr (fun id member => (links id member).1)
      (fun id member => (links id member).2))
    ((keeps.recency key other).trans ends)
    fun id member => (found id member).imp fun _ both => both.2
  rw [beforeOrder, afterOrder]

/-! ## The uplink -/

theorem Room.keepsOthers (listed : nat.Listed order)
    (room : Room nat peer proto after) : KeepsOthers peer nat after := by
  rcases room with rfl | ⟨victim, oldest, _, _, rfl⟩
  · exact .refl _ _
  · rcases listed.oldestOf oldest with ⟨mapping, present, _, key⟩
    have keeps := listed.remove_keepsOthers present
    have owner : mapping.owner = peer := congrArg Prod.fst key
    rw [owner] at keeps
    exact keeps

theorem UplinkMapping.keepsOthers (coherent : nat.Coherent) (listed : nat.Listed order)
    (cases : UplinkMapping nat peer proto internal now outcome after) :
    KeepsOthers peer nat after := by
  cases cases with
  | known | refused => exact .refl _ _
  | exhausted room empty => exact (room.keepsOthers listed).trans (KeepsOthers.of_eq rfl rfl)
  | created unused room free taken =>
    rename_i roomy externalPort allocator
    have roomyCoherent := room.edits.coherent coherent
    have allocate := allocate_edit roomyCoherent taken
    rcases room.edits.listed coherent ⟨order, listed⟩ with ⟨roomyOrder, roomyListed⟩
    rcases allocate.listed roomyCoherent roomyListed with ⟨allocatedOrder, allocatedListed⟩
    have allocated : KeepsOthers peer roomy (roomy.setAllocator proto internal.isIpv6 allocator) :=
      KeepsOthers.of_eq rfl rfl
    exact ((room.keepsOthers listed).trans allocated).trans
      (allocatedListed.opened (allocate.coherent roomyCoherent).table_next).2

theorem touchUplink_keepsOthers {id : MappingId} (listed : nat.Listed order)
    (found : nat.mappings.get id = some mapping) (remote : IpAddr)
    (port : UInt16) (flags : UInt8) (now : Instant) :
    KeepsOthers mapping.owner nat (nat.touchUplink id remote port flags now) := by
  unfold touchUplink
  simp only [found]
  exact (listed.record_used found).2

theorem uplinkFlow_keepsOthers (engine : ChecksumEngine)
    (coherent : nat.Coherent) (listed : nat.Listed order) (peer : PeerId)
    (pkt : List UInt8) (hdr : IpHeader) (external : IpAddr) (proto : MapProto)
    (port remotePort : UInt16) (flags : UInt8) (now : Instant) (draw : Nat) :
    KeepsOthers peer nat (nat.uplinkFlow engine peer pkt hdr external proto port
      remotePort flags now draw).2.2 := by
  rcases mappingForUplink_cases coherent peer proto ⟨hdr.src, port⟩ now draw
    with ⟨outcome, after, equal, cases⟩
  have keeps := cases.keepsOthers coherent listed
  cases outcome with
  | error refusal =>
    simp only [uplinkFlow, equal]
    exact keeps
  | ok id =>
    rcases cases.owned coherent with ⟨mapping, found, owner, _⟩
    rcases (cases.edits coherent).listed coherent ⟨order, listed⟩ with ⟨afterOrder, afterListed⟩
    have touched := touchUplink_keepsOthers afterListed found hdr.dst remotePort flags now
    rw [owner] at touched
    rw [uplinkFlow_state engine equal]
    exact keeps.trans touched

theorem translateUplink_keepsOthers (engine : ChecksumEngine)
    (coherent : nat.Coherent) (listed : nat.Listed order) (peer : PeerId)
    (pkt : List UInt8) (now : Instant) (draw : Nat) :
    KeepsOthers peer nat (nat.translateUplink engine peer pkt now draw).2.2 := by
  have uplinked : KeepsOthers peer nat (nat.uplink engine peer pkt now draw).2.2 := by
    unfold uplink
    split
    · exact .refl _ _
    · split
      · exact .refl _ _
      · split
        · exact .refl _ _
        · split
          · exact .refl _ _
          · exact uplinkFlow_keepsOthers engine coherent listed _ _ _ _ _ _ _ _ _ _
          · exact uplinkFlow_keepsOthers engine coherent listed _ _ _ _ _ _ _ _ _ _
          · exact .refl _ _
  exact uplinked.trans (KeepsOthers.of_eq rfl rfl)

/-- An uplink packet of one peer, accepted or refused, leaves the mappings of
all others unchanged: every field of each record, its place in the eviction
order, and both index entries. -/
theorem translateUplink_isolates (engine : ChecksumEngine) (config : NatConfig)
    (ops : List Op) (peer : PeerId) (pkt : List UInt8) (now : Instant)
    (draw : Nat) (id : MappingId) (mapping : Mapping)
    (present : (run engine config ops).mappings.get id = some mapping)
    (other : mapping.owner ≠ peer) :
    let nat := run engine config ops
    let after := (nat.translateUplink engine peer pkt now draw).2.2
    after.mappings.get id = some mapping ∧ after.evictionOrder mapping.recencyKey =
        nat.evictionOrder mapping.recencyKey ∧
      after.outbound.get mapping.outboundKey = some id ∧
      after.inbound.get mapping.inboundKey = some id := by
  have coherent := run_coherent engine config ops
  rcases run_listed engine config ops with ⟨order, listed⟩
  have keeps := translateUplink_keepsOthers engine coherent listed peer pkt now draw
  have afterCoherent := (translateUplink_edits engine coherent peer pkt now draw).coherent coherent
  have stillPresent := keeps.mappings id mapping present other
  exact ⟨stillPresent, keeps.evictionOrder_eq listed other, afterCoherent.outbound_get stillPresent,
    afterCoherent.inbound_get stillPresent⟩

/-- The second peer using the same source port does not disturb the first. -/
theorem translateUplink_isolates_first :
    let nat := run Sample.engine Sample.config (Sample.start ++ [Sample.ask])
    let after := (nat.translateUplink Sample.engine Sample.second
      (Sample.udp 2 50 40001 53) 20 0).2.2
    nat.mappings.get ⟨1⟩ = some Sample.mapping ∧ after.mappings.get ⟨1⟩ = some Sample.mapping :=
  ⟨by decide +kernel, (translateUplink_isolates Sample.engine Sample.config
      (Sample.start ++ [Sample.ask]) Sample.second (Sample.udp 2 50 40001 53) 20
      0 ⟨1⟩ Sample.mapping (by decide +kernel) (by decide)).1⟩

end WarrenSdk.Bolthole.Napt
