import WarrenSdk.Bolthole.Napt.Changes

/-! # Out and back

A packet goes out through a mapping, and a reply to where it came from finds its
way back through the same mapping as long as the mapping tracks the remote. A
mapping tracks a bounded number of remotes; a packet to one more makes it forget
another, and with it the way back. -/

namespace WarrenSdk.Bolthole.Napt

variable (engine : ChecksumEngine) {nat : Napt} {id : MappingId}

def Admits (mapping : Mapping) (addr : IpAddr) (port : UInt16) : Prop :=
  mapping.Tracks addr port ∨ mapping.pinned = true

/-- A mapping that is there at the end of a run was there all along. -/
theorem run_sameIdentity (sound : nat.Sound)
    (present : nat.table id = some mapping) (later : List Op) :
    id.value < (Execution.run (step engine) nat later).nextId ∧
    (Execution.run (step engine) nat later).Sound ∧
    ∀ kept, (Execution.run (step engine) nat later).table id = some kept →
      mapping.SameIdentity kept := by
  induction later using List.reverseRecOn with
  | nil =>
    refine ⟨sound.coherent.fresh id mapping present, sound, ?_⟩
    intro kept same
    cases present.symm.trans same
    exact ⟨rfl, rfl, rfl, rfl, rfl⟩
  | append_singleton past op induction =>
    rcases induction with ⟨used, pastSound, holds⟩
    rw [Execution.run_snoc]
    refine ⟨Nat.lt_of_lt_of_le used (step_nextId_le engine pastSound op),
      pastSound.step engine op, ?_⟩
    intro kept still
    cases was : (Execution.run (step engine) nat past).table id with
    | none =>
      rw [step_absent engine pastSound op used was] at still
      cases still
    | some earlier => exact (holds earlier was).trans (step_sameIdentity engine pastSound was still)

/-- After an accepted packet its mapping is there, belongs to the sender's
endpoint and lets the remote in. -/
theorem translateUplink_admits (sound : nat.Sound) (read : readFlow pkt .source = some (hdr, flow))
    (accepted : (nat.translateUplink engine peer pkt now draw).1 = .ok ()) : ∃ id mapping external,
      (nat.translateUplink engine peer pkt now draw).2.2.table id = some mapping ∧
      mapping.owner = peer ∧ mapping.proto = flow.proto ∧ mapping.internal = ⟨hdr.src, flow.port⟩ ∧
      Admits mapping hdr.dst flow.remotePort ∧ nat.external hdr.isV6 = some external ∧
      rewriteEndpoint engine pkt hdr .source external (some mapping.externalPort) =
          .ok (nat.translateUplink engine peer pkt now draw).2.1 := by
  rcases translateUplink_sent engine sound.coherent read accepted with
    ⟨id, linked, after, external, mapped, found, current, rewritten, table⟩
  rcases mapped.owned sound.coherent with ⟨_, again, owner, proto, internal⟩
  cases found.symm.trans again
  have touched := table_touchUplink found hdr.dst flow.remotePort flow.flags now id
  rw [if_pos rfl] at touched
  have same := linked.unlinked.observe_sameIdentity
    after.config.remotesPerMapping hdr.dst flow.remotePort flow.flags now true
  refine ⟨id, _, external, (congrFun table id).trans touched,
    same.owner.trans owner, same.proto.trans proto,
    same.internal.trans internal, .inl Mapping.observe_tracks, current, ?_⟩
  rw [same.externalPort]
  exact rewritten

/-- While a mapping lives, every packet from its endpoint leaves from its
port. -/
theorem translateUplink_port (sound : nat.Sound) (present : nat.table id = some mapping)
    (read : readFlow pkt .source = some (hdr, flow))
    (endpoint : mapping.outboundKey = (flow.proto, hdr.src, flow.port))
    (accepted : (nat.translateUplink engine peer pkt now draw).1 = .ok ()) :
    ∃ external, nat.external hdr.isV6 = some external ∧
      rewriteEndpoint engine pkt hdr .source external (some mapping.externalPort) =
          .ok (nat.translateUplink engine peer pkt now draw).2.1 := by
  rcases translateUplink_sent engine sound.coherent read accepted with
    ⟨used, linked, after, external, mapped, found, current, rewritten, _⟩
  refine ⟨external, current, ?_⟩
  have indexed := sound.coherent.outbound.get present
  rw [endpoint] at indexed
  cases mapped with
  | known usedFound usedPresent owner =>
    cases usedFound.symm.trans indexed
    cases found.symm.trans usedPresent
    cases present.symm.trans (table_of_get found)
    exact rewritten
  | created unused => exact absurd (unused.symm.trans indexed) (by simp)

/-- A reply from the remote to the external endpoint of a mapping that lets it
in is delivered to the mapping's endpoint, and nothing else of it changes. -/
theorem translateDownlink_returns (sound : nat.Sound) (present : nat.table id = some mapping)
    (read : readFlow pkt .destination = some (hdr, flow)) (complete : hdr.CompleteTransport pkt)
    (current : nat.external hdr.isV6 = some hdr.dst)
    (key : mapping.inboundKey = (flow.proto, hdr.isV6, flow.port))
    (admits : Admits mapping hdr.src flow.remotePort) : (nat.translateDownlink engine pkt now).1 =
        .ok ⟨mapping.owner, mapping.internal.ip⟩ ∧
      Rewritten pkt hdr .destination mapping.internal.ip (some mapping.internal.port)
        (nat.translateDownlink engine pkt now).2.1 := by
  rcases get_of_table present with ⟨linked, found, rfl⟩
  have bounds := parse_bounds (readFlow_some read).1
  have family : linked.internal.ip.isIpv6 = hdr.isV6 := congrArg (fun key => key.2.1) key
  rcases rewriteEndpoint_succeeds engine .destination
    (some linked.internal.port) bounds family complete with ⟨out, rewritten⟩
  have indexed := sound.coherent.inbound.get present
  rw [key] at indexed
  rcases translateDownlink_accepts engine read current indexed found
    (admits.imp Mapping.tracks_iff.mp fun pinned => pinned) rewritten with
    ⟨accepted, output⟩
  refine ⟨accepted, ?_⟩
  rw [output]
  exact rewriteEndpoint_ok bounds rewritten

/-- An accepted flow packet leaves from the current address and a port, changed
in its source endpoint and the checksums only. While its mapping lives, every
packet from the same endpoint leaves from the same port. The mapping lets the
remote in; while it still does, a complete packet that the remote sends to where the
first one came from, with the address unchanged, is delivered to the sender's
endpoint, changed in its destination endpoint and the checksums only. -/
theorem out_and_back (engine : ChecksumEngine) (config : NatConfig)
    (past later : List Op) (peer : PeerId) (pkt : List UInt8) (now : Instant)
    (draw : Nat) (hdr : IpHeader) (flow : FlowPacket) (id : MappingId)
    (read : readFlow pkt .source = some (hdr, flow))
    (accepted : ((run engine config past).translateUplink engine peer pkt now draw).1 = .ok ())
    (used : (run engine config (past ++ [.translateUplink peer pkt now draw])).outbound.get
        (flow.proto, hdr.src, flow.port) = some id)
    (lives : (run engine config
      (past ++ .translateUplink peer pkt now draw :: later)).mappings.get id ≠ none) :
    let sent := ((run engine config past).translateUplink engine peer pkt now
      draw).2.1
    let nat := run engine config
      (past ++ .translateUplink peer pkt now draw :: later)
    ∃ external externalPort, (run engine config past).external hdr.isV6 = some external ∧
      readFlow sent .source = some (hdr.withAddress .source external,
        { flow with port := externalPort }) ∧
      Bytes.EditedWithin (endpointWindows hdr .source (some externalPort)) pkt sent ∧
      (∀ otherPeer otherPkt otherNow otherDraw otherHdr otherFlow,
        readFlow otherPkt .source = some (otherHdr, otherFlow) →
        otherFlow.proto = flow.proto → otherHdr.src = hdr.src → otherFlow.port = flow.port →
        let other := nat.translateUplink engine otherPeer otherPkt otherNow
          otherDraw
        other.1 = .ok () →
        ∃ otherExternal, readFlow other.2.1 .source =
          some (otherHdr.withAddress .source otherExternal,
            { otherFlow with port := externalPort })) ∧
      (∀ mapping ∈ (run engine config
          (past ++ [.translateUplink peer pkt now draw])).mappings.get id,
        Admits mapping hdr.dst flow.remotePort) ∧
      ((∀ mapping ∈ nat.mappings.get id, Admits mapping hdr.dst flow.remotePort) →
        nat.external hdr.isV6 = some external → ∀ reply replyNow replyHdr replyFlow,
          readFlow reply .destination = some (replyHdr, replyFlow) →
          replyHdr.CompleteTransport reply → replyFlow.proto = flow.proto → replyHdr.src = hdr.dst →
          replyFlow.remotePort = flow.remotePort →
          replyHdr.dst = external → replyFlow.port = externalPort →
          let back := nat.translateDownlink engine reply replyNow
          back.1 = .ok ⟨peer, hdr.src⟩ ∧
          readFlow back.2.1 .destination = some (replyHdr.withAddress .destination hdr.src,
              { replyFlow with port := flow.port }) ∧
          Bytes.EditedWithin (endpointWindows replyHdr .destination (some flow.port)) reply
            back.2.1) := by
  intro sent nat
  have sound := run_sound engine config past
  rcases translateUplink_admits engine sound read accepted with
    ⟨usedId, mapping, external, present, owner, proto, internal, admits, current, rewritten⟩
  have parsed := (readFlow_some read).1
  have bounds := parse_bounds parsed
  have leaves := rewriteEndpoint_ok bounds rewritten
  -- The mapping that the endpoint leads to is the one that the packet used.
  have middle : run engine config (past ++ [.translateUplink peer pkt now draw]) =
      ((run engine config past).translateUplink engine peer pkt now
        draw).2.2 := run_snoc engine config past _
  have middleSound := run_sound engine config (past ++ [.translateUplink peer pkt now draw])
  have outboundKey : mapping.outboundKey = (flow.proto, hdr.src, flow.port) := by
    rw [Mapping.outboundKey, proto, internal]
  rw [← middle] at present
  have indexed := middleSound.coherent.outbound.get present
  rw [outboundKey] at indexed
  cases used.symm.trans indexed
  have whole : nat = Execution.run (step engine) (run engine config
      (past ++ [.translateUplink peer pkt now draw])) later := by
    rw [run, ← Execution.run_append]
    simp [nat, run]
  rcases run_sameIdentity engine middleSound present later with ⟨_, _, holds⟩
  rw [← whole] at holds
  have natSound := run_sound engine config (past ++ .translateUplink peer pkt now draw :: later)
  cases still : nat.table id with
  | none => exact absurd (table_eq_none.mp still) lives
  | some kept =>
    have same := holds kept still
    refine ⟨external, mapping.externalPort, current, leaves.flow_eq read, leaves.edits, ?_, ?_, ?_⟩
    · intro otherPeer otherPkt otherNow otherDraw otherHdr otherFlow otherRead
        sameProto sameAddr samePort other otherAccepted
      have endpoint : kept.outboundKey = (otherFlow.proto, otherHdr.src, otherFlow.port) := by
        rw [same.outboundKey, outboundKey, sameProto, sameAddr, samePort]
      rcases translateUplink_port engine natSound still otherRead endpoint
        otherAccepted with ⟨otherExternal, _, otherRewritten⟩
      have otherLeaves := rewriteEndpoint_ok
        (parse_bounds (readFlow_some otherRead).1) otherRewritten
      rw [same.externalPort] at otherLeaves
      exact ⟨otherExternal, otherLeaves.flow_eq otherRead⟩
    · intro linked found
      cases present.symm.trans (table_of_get found)
      exact admits
    · intro admitsStill unchanged reply replyNow replyHdr replyFlow replyRead
        complete sameProto sameAddr sameRemotePort toAddr toPort back
      have sameFamily : replyHdr.isV6 = hdr.isV6 :=
        (congrArg IpAddr.isIpv6 sameAddr).trans bounds.family
      have key : kept.inboundKey = (replyFlow.proto, replyHdr.isV6, replyFlow.port) := by
        rw [same.inboundKey, Mapping.inboundKey, proto, internal, sameProto, toPort, sameFamily]
        rfl
      have keptInternal := same.internal.trans internal
      rcases get_of_table still with ⟨linked, found, rfl⟩
      rcases translateDownlink_returns engine natSound still replyRead complete
        (by rw [sameFamily, toAddr]; exact unchanged) key
        (by rw [sameAddr, sameRemotePort]; exact admitsStill linked found) with
        ⟨delivered, returned⟩
      rw [keptInternal] at delivered returned
      rw [same.owner, owner] at delivered
      exact ⟨delivered, returned.flow_eq replyRead, returned.edits⟩

/-- The first peer's question goes out. -/
theorem out_and_back_ask : ∃ external externalPort,
      (run Sample.engine Sample.config Sample.start).external false = some external ∧
      readFlow ((run Sample.engine Sample.config Sample.start).translateUplink
        Sample.engine Sample.first (Sample.udp 1 50 40001 53) 10 0).2.1 .source = some
          (⟨external, .v4 (Sample.host 50), protoUdp, 20, 28⟩, ⟨.udp, externalPort, 53, 0⟩) := by
  rcases out_and_back Sample.engine Sample.config Sample.start [] Sample.first
    (Sample.udp 1 50 40001 53) 10 0 ⟨.v4 (Sample.host 1), .v4 (Sample.host 50), protoUdp, 20, 28⟩
    ⟨.udp, 40001, 53, 0⟩ ⟨1⟩ (by decide +kernel) (by decide +kernel)
    (by decide +kernel) (by decide +kernel) with
    ⟨external, externalPort, current, sent, _⟩
  exact ⟨external, externalPort, current, sent⟩

def Sample.crowd : List Op :=
  (List.range 64).map fun number =>
    .translateUplink first (udp 1 (100 + number) 40001 53) (20 + number) 0

/-- After the crowd the mapping is still there and the address unchanged, but
the answer to the first question is refused. -/
theorem answer_refused :
    let nat := run Sample.engine Sample.config
      (Sample.start ++ Sample.ask :: Sample.crowd)
    (nat.mappings.get ⟨1⟩).isSome = true ∧
    nat.external false = some (.v4 (Sample.host 99)) ∧
    (nat.translateDownlink Sample.engine (Sample.udp 50 99 53 40001) 200).1 =
      .error .noMapping := by
  decide +kernel

end WarrenSdk.Bolthole.Napt
