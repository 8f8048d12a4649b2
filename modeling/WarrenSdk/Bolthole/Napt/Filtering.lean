import WarrenSdk.Bolthole.Napt.Changes

/-! # Filtering

A dynamic mapping lets a packet from the tunnel in only when its owner wrote to
that remote before, from that endpoint, and the mapping has been there ever
since. The invariant ties every remote that a mapping tracks to the packet that
put it there. -/

namespace WarrenSdk.Bolthole.Napt

variable (engine : ChecksumEngine) (config : NatConfig)

def Alive (id : MappingId) (mapping : Mapping) (nat : Napt) : Prop :=
  nat.outbound.get mapping.outboundKey = some id ∧ ∃ current, nat.mappings.get id = some current ∧
      mapping.SameIdentity current

theorem Alive.of_table (coherent : nat.Coherent) {id : MappingId}
    (present : nat.table id = some mapping) : Alive id mapping nat := by
  refine ⟨coherent.outbound.get present, ?_⟩
  rcases get_of_table present with ⟨current, found, rfl⟩
  exact ⟨current, found, rfl, rfl, rfl, rfl, rfl⟩

theorem Alive.congr {id : MappingId} (same : mapping.SameIdentity other)
    (alive : Alive id mapping nat) : Alive id other nat := by
  rcases alive with ⟨found, current, present, identity⟩
  rw [← same.outboundKey] at found
  exact ⟨found, current, present, same.symm.trans identity⟩

/-- The owner of a mapping wrote to a remote from the mapping's endpoint, while
it owned that address, and the mapping has been there since. -/
def Asked (past : List Op) (id : MappingId) (mapping : Mapping)
    (addr : IpAddr) (port : UInt16) : Prop :=
  ∃ before after pkt now draw hdr flow,
    past = before ++ .translateUplink mapping.owner pkt now draw :: after ∧
    readFlow pkt .source = some (hdr, flow) ∧ flow.proto = mapping.proto ∧
    mapping.internal = ⟨hdr.src, flow.port⟩ ∧
    (run engine config before).ownership.ownerOf mapping.internal.ip = some mapping.owner ∧
    hdr.dst = addr ∧ flow.remotePort = port ∧ Execution.HoldsSince (step engine) (new config)
      (before ++ [.translateUplink mapping.owner pkt now draw]) after (Alive id mapping)

variable {engine config} {id : MappingId}

theorem Asked.now {pkt : List UInt8} {now : Instant}
    (read : readFlow pkt .source = some (hdr, flow))
    (owner : (run engine config past).ownership.ownerOf hdr.src = some peer)
    (owned : mapping.owner = peer) (key : mapping.outboundKey = (flow.proto, hdr.src, flow.port))
    (present : (run engine config (past ++
      [.translateUplink peer pkt now draw])).table id = some mapping) :
    Asked engine config (past ++ [.translateUplink peer pkt now draw]) id
      mapping hdr.dst flow.remotePort := by
  subst peer
  simp only [Mapping.outboundKey, Prod.mk.injEq] at key
  have alive := Alive.of_table (run_coherent engine config _) present
  refine ⟨past, [], pkt, now, draw, hdr, flow, rfl, read, key.1.symm,
    SocketAddr.ext key.2.1 key.2.2, ?_, rfl, rfl, Execution.HoldsSince.start _ alive⟩
  rw [key.2.1]
  exact owner

theorem Asked.congr (asked : Asked engine config past id mapping addr port)
    (same : mapping.SameIdentity other) : Asked engine config past id other addr port := by
  rcases asked with ⟨before, after, pkt, now, draw, hdr, flow, split, read,
    proto, internal, owner, dst, remotePort, since⟩
  refine ⟨before, after, pkt, now, draw, hdr, flow, ?_, read,
    proto.trans same.proto.symm, same.internal.trans internal, ?_, dst, remotePort, ?_⟩
  · rw [same.owner]
    exact split
  · rw [same.internal, same.owner]
    exact owner
  · rw [same.owner]
    intro middle rest equal
    exact (since middle rest equal).congr same

/-- What was asked stays asked while the mapping stays. -/
theorem Asked.extend (asked : Asked engine config past id mapping addr port)
    (present : (run engine config (past ++ [op])).table id = some mapping) :
    Asked engine config (past ++ [op]) id mapping addr port := by
  have alive := Alive.of_table (run_coherent engine config _) present
  rcases asked with ⟨before, after, pkt, now, draw, hdr, flow, rfl, read, proto,
    internal, owner, dst, remotePort, since⟩
  refine ⟨before, after ++ [op], pkt, now, draw, hdr, flow, by simp, read,
    proto, internal, owner, dst, remotePort, Execution.HoldsSince.extend _ since ?_⟩
  simpa [run] using alive

/-- Every remote that a dynamic mapping tracks was asked. -/
def Solicited (engine : ChecksumEngine) (config : NatConfig) (past : List Op) (nat : Napt) : Prop :=
  ∀ id mapping addr port, nat.table id = some mapping →
    mapping.pinned = false → mapping.Tracks addr port →
    Asked engine config past id mapping addr port

/-- A packet adds only the remote it was sent to, and the filter adds none. -/
theorem Solicited.next (op : Op)
    (solicited : Solicited engine config past (run engine config past)) :
    Solicited engine config (past ++ [op]) (run engine config (past ++ [op])) := by
  intro id mapping addr port present dynamic tracks
  have change := step_change engine (run_sound engine config past) op id
  have extend : ∀ earlier : Mapping, earlier.SameIdentity mapping →
      (run engine config past).table id = some earlier → earlier.Tracks addr port →
      Asked engine config (past ++ [op]) id mapping addr port :=
    fun earlier same was tracked =>
      ((solicited id earlier addr port was (same.pinned.symm.trans dynamic)
        tracked).congr same).extend present
  rw [← run_snoc, present] at change
  generalize before : (run engine config past).table id = entry at change
  cases change with
  | same => exact extend mapping ⟨rfl, rfl, rfl, rfl, rfl⟩ before tracks
  | opened read owner next known marked =>
    have same := Mapping.SameIdentity.of_observe marked
    rw [marked] at tracks
    rcases Mapping.tracks_of_observe tracks with ⟨_, member, _⟩ | ⟨rfl, rfl⟩
    · exact absurd member (by simp [dynamicMapping])
    · exact Asked.now read owner same.owner same.outboundKey present
  | sent read owner owned key marked =>
    have same := Mapping.SameIdentity.of_observe marked
    rw [marked] at tracks
    rcases Mapping.tracks_of_observe tracks with tracked | ⟨rfl, rfl⟩
    · exact extend _ same before tracked
    · exact Asked.now read owner (same.owner.trans owned) (same.outboundKey.trans key) present
  | received read key admitted marked =>
    have same := Mapping.SameIdentity.of_observe marked
    rw [same.pinned] at dynamic
    have tracked := admitted.resolve_right (by simp [dynamic])
    rw [marked] at tracks
    rcases Mapping.tracks_of_observe tracks with earlier | ⟨rfl, rfl⟩
    · exact extend _ same before earlier
    · exact extend _ same before tracked
  | pinned => exact absurd dynamic (by simp [pinnedMapping])

theorem run_solicited (engine : ChecksumEngine) (config : NatConfig) (ops : List Op) :
    Solicited engine config ops (run engine config ops) := by
  induction ops using List.reverseRecOn with
  | nil =>
    intro id mapping addr port present
    exact absurd present (by simp [run, table_new])
  | append_singleton past op induction => exact induction.next op

/-- A flow packet from the tunnel that is accepted goes to the mapping its port
leads to; unless that is a pinned forward, the mapping's owner asked for the
packet: it wrote to exactly that remote from exactly that endpoint while it
owned the address, and the mapping has not been removed since. -/
theorem translateDownlink_solicited (engine : ChecksumEngine)
    (config : NatConfig) (past : List Op) (pkt : List UInt8) (now : Instant)
    (hdr : IpHeader) (flow : FlowPacket) (result : Translated)
    (read : readFlow pkt .destination = some (hdr, flow))
    (accepted : ((run engine config past).translateDownlink engine pkt now).1 = .ok result) :
    ∃ id mapping, (run engine config past).inbound.get (flow.proto, hdr.isV6, flow.port) = some id ∧
      (run engine config past).mappings.get id = some mapping ∧
      result = ⟨mapping.owner, mapping.internal.ip⟩ ∧
      rewriteEndpoint engine pkt hdr .destination mapping.internal.ip (some mapping.internal.port) =
          .ok ((run engine config past).translateDownlink engine pkt now).2.1 ∧
      mapping.proto = flow.proto ∧ (mapping.pinned = false →
        Asked engine config past id mapping hdr.src flow.remotePort) := by
  rcases translateDownlink_delivered engine read accepted with
    ⟨id, mapping, _, found, present, admitted, delivered, rewritten⟩
  have coherent := run_coherent engine config past
  rcases (coherent.inbound _ _).mp found with ⟨_, again, key⟩
  rw [table_of_get present] at again
  cases again
  refine ⟨id, mapping, found, present, delivered, rewritten,
    congrArg Prod.fst key, ?_⟩
  intro dynamic
  have tracks : mapping.unlinked.Tracks hdr.src flow.remotePort :=
    Mapping.tracks_iff.mpr (admitted.resolve_right (by simp [dynamic]))
  have asked := run_solicited engine config past id mapping.unlinked hdr.src
    flow.remotePort (table_of_get present) dynamic tracks
  exact asked.congr ⟨rfl, rfl, rfl, rfl, rfl⟩

/-- The answer that the first peer asked for. -/
theorem translateDownlink_solicited_answer : ∃ id mapping, mapping.owner = Sample.first ∧
      Asked Sample.engine Sample.config (Sample.start ++ [Sample.ask]) id
        mapping (.v4 (Sample.host 50)) 53 := by
  rcases translateDownlink_solicited Sample.engine Sample.config
    (Sample.start ++ [Sample.ask]) (Sample.udp 50 99 53 40001) 20
    ⟨.v4 (Sample.host 50), .v4 (Sample.host 99), protoUdp, 20, 28⟩
    ⟨.udp, 40001, 53, 0⟩ ⟨Sample.first, .v4 (Sample.host 1)⟩
    (by decide +kernel) (by decide +kernel) with
    ⟨id, mapping, found, present, delivered, _, _, asked⟩
  have first : id = ⟨1⟩ := by
    have indexed : (run Sample.engine Sample.config
        (Sample.start ++ [Sample.ask])).inbound.get (.udp, false, 40001) = some ⟨1⟩ := by
      decide +kernel
    exact Option.some.inj (found.symm.trans indexed)
  have isSample : mapping = Sample.mapping := by
    have stored : (run Sample.engine Sample.config
        (Sample.start ++ [Sample.ask])).mappings.get ⟨1⟩ = some Sample.mapping := by
      decide +kernel
    rw [first] at present
    exact Option.some.inj (present.symm.trans stored)
  exact ⟨id, mapping, (congrArg Translated.peer delivered).symm, asked (by rw [isSample]; rfl)⟩

end WarrenSdk.Bolthole.Napt
