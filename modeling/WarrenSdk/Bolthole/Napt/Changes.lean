import WarrenSdk.Bolthole.Napt.Lifecycle
import WarrenSdk.Bolthole.Napt.Lists
import WarrenSdk.Bolthole.Napt.Remotes

/-! # What one operation does to one mapping

Read at one identifier, an operation leaves the table alone, opens or pins a
mapping, marks it with a packet or removes it, each for a reason that can be
read off the state before the operation. Everything that holds over whole runs
follows from these changes. -/

namespace WarrenSdk.Bolthole

/-- What a packet does to a mapping does not depend on its links. -/
theorem Mapping.observe_unlinked (mapping : Mapping) (cap : Nat)
    (addr : IpAddr) (port : UInt16) (flags : UInt8) (now : Instant) (uplink : Bool) :
    (mapping.observe cap addr port flags now uplink).1.unlinked =
      (mapping.unlinked.observe cap addr port flags now uplink).1 := by
  have sameIndex : mapping.unlinked.remoteIndex addr port = mapping.remoteIndex addr port := rfl
  unfold Mapping.observe
  rw [sameIndex]
  split
  · simp only [Mapping.unlinked_remotes]
    split
    · rfl
    · rfl
  · rfl

namespace Napt

variable (engine : ChecksumEngine) {nat : Napt}

structure Sound (nat : Napt) : Prop where
  coherent : nat.Coherent
  listed : ∃ order, nat.Listed order

theorem Sound.step (sound : nat.Sound) (op : Op) : (nat.step engine op).Sound := by
  rcases step_edits engine sound.coherent op with ⟨edited, edits, configured⟩
  exact ⟨configured.coherent (edits.coherent sound.coherent),
    configured.listed (edits.listed sound.coherent sound.listed)⟩

theorem run_sound (config : NatConfig) (ops : List Op) : (run engine config ops).Sound :=
  ⟨run_coherent engine config ops, run_listed engine config ops⟩

inductive Ends (nat : Napt) (id : MappingId) (mapping : Mapping) : Op → Prop where
  | epoch {rank : MappingId → Nat} {epoch : EpochId} {v4 : Ipv4Addr}
      {v6 : Option Ipv6Addr} (dynamic : mapping.pinned = false)
      (changes : nat.ChangesFamily epoch v4 v6 mapping.internal.isIpv6 = true) :
      Ends nat id mapping (.setExternal rank epoch v4 v6)
  | displaced {dnat : StaticDnat} {now : Instant}
      (accepted : nat.Accepts dnat) (displaces : Displaces dnat mapping = true) :
      Ends nat id mapping (.addStatic dnat now)
  | unpinned {proto : MapProto} {externalPort : UInt16} {v6 : Bool} (pinned : mapping.pinned = true)
      (key : mapping.inboundKey = (proto, v6, externalPort)) :
      Ends nat id mapping (.removeStatic proto externalPort v6)
  | flushed {rank : MappingId → Nat} {peer : PeerId}
      (dynamic : mapping.pinned = false) (owner : mapping.owner = peer) :
      Ends nat id mapping (.flushPeer rank peer)
  | swept {now : Instant} (due : nat.Due now id mapping) : Ends nat id mapping (.sweep now)
  | evicted {peer : PeerId} {pkt : List UInt8} {now : Instant} {draw : Nat}
      (dynamic : mapping.pinned = false) (owner : mapping.owner = peer) :
      Ends nat id mapping (.translateUplink peer pkt now draw)

/-- What an operation does to the table at one identifier. -/
inductive Change (nat : Napt) (id : MappingId) : Op → Option Mapping → Option Mapping → Prop where
  | same {op : Op} {entry : Option Mapping} : Change nat id op entry entry
  | removed {op : Op} {mapping : Mapping} (ends : Ends nat id mapping op) :
      Change nat id op (some mapping) none
  /-- A peer's packet opens a mapping on a port of the pool. -/
  | opened {peer : PeerId} {pkt : List UInt8} {now : Instant} {draw : Nat}
      {hdr : IpHeader} {flow : FlowPacket} {externalPort : UInt16}
      {observed : Mapping}
      (read : readFlow pkt .source = some (hdr, flow))
      (owner : nat.ownership.ownerOf hdr.src = some peer)
      (next : id = ⟨nat.nextId⟩)
      (known : (nat.ports hdr.src.isIpv6 flow.proto).contains externalPort = true)
      (marked : observed = ((dynamicMapping peer flow.proto
        ⟨hdr.src, flow.port⟩ externalPort now).observe
        nat.config.remotesPerMapping hdr.dst flow.remotePort flow.flags now true).1) :
      Change nat id (.translateUplink peer pkt now draw) none (some observed)
  /-- A peer's packet goes out through its mapping. -/
  | sent {peer : PeerId} {pkt : List UInt8} {now : Instant} {draw : Nat}
      {hdr : IpHeader} {flow : FlowPacket} {mapping observed : Mapping}
      (read : readFlow pkt .source = some (hdr, flow))
      (owner : nat.ownership.ownerOf hdr.src = some peer)
      (owned : mapping.owner = peer)
      (key : mapping.outboundKey = (flow.proto, hdr.src, flow.port))
      (marked : observed = (mapping.observe nat.config.remotesPerMapping hdr.dst
        flow.remotePort flow.flags now true).1) :
      Change nat id (.translateUplink peer pkt now draw) (some mapping) (some observed)
  /-- A packet from the tunnel passes the mapping's filter. -/
  | received {pkt : List UInt8} {now : Instant} {hdr : IpHeader}
      {flow : FlowPacket} {mapping observed : Mapping}
      (read : readFlow pkt .destination = some (hdr, flow))
      (key : mapping.inboundKey = (flow.proto, hdr.isV6, flow.port))
      (admitted : mapping.Tracks hdr.src flow.remotePort ∨ mapping.pinned = true)
      (marked : observed = (mapping.observe nat.config.remotesPerMapping hdr.src
        flow.remotePort flow.flags now false).1) :
      Change nat id (.translateDownlink pkt now) (some mapping) (some observed)
  | pinned {dnat : StaticDnat} {now : Instant} {owner : PeerId} (accepted : nat.Accepts dnat)
      (owned : nat.ownership.ownerOf dnat.target.ip = some owner) (next : id = ⟨nat.nextId⟩) :
      Change nat id (.addStatic dnat now) none (some (pinnedMapping dnat owner now))

variable {id : MappingId}

theorem Change.of_filter
    (ends : ∀ mapping, entry = some mapping → test mapping = false → Ends nat id mapping op) :
    Change nat id op entry (entry.filter test) := by
  cases entry with
  | none => exact .same
  | some mapping =>
    rw [Option.filter_some]
    cases passes : test mapping with
    | true => exact .same
    | false => exact .removed (ends mapping rfl passes)

/-! ## Packets -/

theorem Room.table (listed : nat.Listed order) (room : Room nat peer proto after) (id : MappingId) :
    after.table id = nat.table id ∨ (after.table id = none ∧
      ∃ mapping, nat.table id = some mapping ∧ mapping.pinned = false ∧ mapping.owner = peer) := by
  rcases room with rfl | ⟨victim, oldest, _, _, rfl⟩
  · exact .inl rfl
  · rw [table_removeMapping]
    by_cases here : id = victim
    · subst id
      right
      rcases listed.oldestOf oldest with ⟨mapping, present, dynamic, key⟩
      exact ⟨if_pos rfl, mapping, present, dynamic, congrArg Prod.fst key⟩
    · exact .inl (if_neg here)

theorem table_touchUplink (found : nat.mappings.get id = some mapping)
    (remote : IpAddr) (port : UInt16) (flags : UInt8) (now : Instant) (other : MappingId) :
    (nat.touchUplink id remote port flags now).table other =
      if other = id then some (mapping.unlinked.observe
        nat.config.remotesPerMapping remote port flags now true).1
      else nat.table other := by
  simp only [touchUplink, found]
  rw [(record_recorded (table_of_get found) _ now).table, Mapping.observe_unlinked]

variable (sound : nat.Sound)

include sound

theorem Room.change (room : Room nat peer proto roomy) (id : MappingId)
    (pkt : List UInt8) (now : Instant) (draw : Nat) :
    Change nat id (.translateUplink peer pkt now draw) (nat.table id) (roomy.table id) := by
  rcases sound.listed with ⟨order, listed⟩
  rcases room.table listed id with same | ⟨gone, mapping, was, dynamic, owner⟩
  · rw [same]
    exact .same
  · rw [gone, was]
    exact .removed (.evicted dynamic owner)

theorem UplinkMapping.change (read : readFlow pkt .source = some (hdr, flow))
    (owner : nat.ownership.ownerOf hdr.src = some peer)
    (mapped : UplinkMapping nat peer flow.proto ⟨hdr.src, flow.port⟩ now
      (.ok used) after) (id : MappingId) :
    Change nat id (.translateUplink peer pkt now draw) (nat.table id)
      ((after.touchUplink used hdr.dst flow.remotePort flow.flags now).table id) := by
  have config : after.config = nat.config :=
    congrArg Settings.config (mapped.edits sound.coherent).settings
  cases mapped with
  | known found present owned =>
    rename_i mapping
    rw [table_touchUplink present]
    split
    · rename_i here
      subst id
      rcases (sound.coherent.outbound _ _).mp found with ⟨same, again, key⟩
      rw [table_of_get present] at again ⊢
      cases again
      exact .sent read owner owned key rfl
    · exact .same
  | created unused room free taken =>
    rename_i roomy externalPort allocator
    have inserted := openMapping_inserted (roomy.setAllocator flow.proto
      (SocketAddr.isIpv6 ⟨hdr.src, flow.port⟩) allocator) peer flow.proto
      ⟨hdr.src, flow.port⟩ externalPort now
    have roomyCoherent := room.edits.coherent sound.coherent
    have nextId : roomy.nextId = nat.nextId := by
      rcases room with rfl | ⟨victim, _, _, _, rfl⟩
      · rfl
      · exact nextId_removeMapping nat victim
    have opened := inserted.present
    have keptNext : (roomy.setAllocator flow.proto
      (SocketAddr.isIpv6 ⟨hdr.src, flow.port⟩) allocator).nextId =
      nat.nextId := nextId
    rw [keptNext] at opened
    rw [nextId]
    rcases get_of_table opened with ⟨mapping, present, unlinked⟩
    rw [table_touchUplink present, unlinked]
    split
    · rename_i here
      subst id
      have known := (room.edits.contains sound.coherent _ _ _).symm.trans
        ((roomyCoherent.valid _ _).contains_of_mem_free free)
      rw [config, sound.coherent.table_next]
      exact .opened read owner rfl known rfl
    · rename_i elsewhere
      rw [inserted.table, keptNext, if_neg elsewhere]
      exact room.change sound id pkt now draw

theorem translateUplink_change (peer : PeerId) (pkt : List UInt8)
    (now : Instant) (draw : Nat) (id : MappingId) :
    Change nat id (.translateUplink peer pkt now draw) (nat.table id)
      ((nat.translateUplink engine peer pkt now draw).2.2.table id) := by
  have counted : (nat.translateUplink engine peer pkt now draw).2.2.table id =
    (nat.uplink engine peer pkt now draw).2.2.table id := rfl
  have outcome := uplink_case engine nat peer pkt now draw
  rw [counted]
  generalize nat.uplink engine peer pkt now draw = result at outcome ⊢
  cases outcome with
  | refused | icmpError => exact .same
  | flow read current owner =>
    rename_i hdr flow external
    have outcome := uplinkFlow_case engine sound.coherent peer pkt hdr external flow now draw
    generalize nat.uplinkFlow engine peer pkt hdr external flow.proto
      flow.port flow.remotePort flow.flags now draw = result at outcome ⊢
    cases outcome with
    | refused mapped =>
      cases mapped with
      | refused => exact .same
      | exhausted room empty => exact room.change sound id pkt now draw
    | unwritable mapped => exact mapped.change sound read owner id
    | sent mapped => exact mapped.change sound read owner id

theorem record_change (read : readFlow pkt .destination = some (hdr, flow))
    (found : nat.inbound.get (flow.proto, hdr.isV6, flow.port) = some used)
    (present : nat.mappings.get used = some mapping)
    (admitted : (mapping.remoteIndex hdr.src flow.remotePort).isSome ∨
      mapping.pinned) (id : MappingId) :
    Change nat id (.translateDownlink pkt now) (nat.table id)
      ((nat.record used (mapping.observe nat.config.remotesPerMapping hdr.src
        flow.remotePort flow.flags now false) now).table id) := by
  rw [(record_recorded (table_of_get present) _ now).table, Mapping.observe_unlinked]
  split
  · rename_i here
    subst id
    rcases (sound.coherent.inbound _ _).mp found with ⟨same, again, key⟩
    rw [table_of_get present] at again ⊢
    cases again
    exact .received read key (admitted.imp Mapping.tracks_iff.mpr fun pinned => pinned) rfl
  · exact .same

theorem translateDownlink_change (pkt : List UInt8) (now : Instant) (id : MappingId) :
    Change nat id (.translateDownlink pkt now) (nat.table id)
      ((nat.translateDownlink engine pkt now).2.2.table id) := by
  have counted : (nat.translateDownlink engine pkt now).2.2.table id =
    (nat.downlink engine pkt now).2.2.table id := rfl
  have outcome := downlink_case engine nat pkt now
  rw [counted]
  generalize nat.downlink engine pkt now = result at outcome ⊢
  cases outcome with
  | refused | icmpError => exact .same
  | flow read current =>
    rename_i hdr flow
    have outcome := downlinkFlow_case engine nat pkt hdr flow now
    generalize nat.downlinkFlow engine pkt hdr flow.proto flow.port
      flow.remotePort flow.flags now = result at outcome ⊢
    cases outcome with
    | refused => exact .same
    | unwritable found present admitted => exact record_change sound read found present admitted id
    | delivered found present admitted => exact record_change sound read found present admitted id

/-! ## Every operation -/

theorem addStatic_change (dnat : StaticDnat) (now : Instant) (id : MappingId) :
    Change nat id (.addStatic dnat now) (nat.table id) ((nat.addStatic dnat now).2.table id) := by
  rcases addStatic_cases sound.coherent dnat now with
    ⟨_, refusal, equal⟩ | ⟨accepted, owner, reserved, owned, isReserved, equal⟩
  · rw [equal]
    exact .same
  · rw [equal, table_addStatic sound.coherent isReserved]
    split
    · rename_i here
      rw [here, sound.coherent.table_next]
      exact .pinned accepted owned rfl
    · refine Change.of_filter ?_
      intro mapping _ displaced
      exact .displaced accepted (by simpa using displaced)

theorem step_change (op : Op) (id : MappingId) :
    Change nat id op (nat.table id) ((nat.step engine op).table id) := by
  cases op with
  | setOwnership ownership => exact .same
  | setExternal rank epoch v4 v6 =>
    rw [step, table_setExternal]
    refine Change.of_filter ?_
    intro mapping _ fails
    simp only [Bool.or_eq_false_iff, Bool.not_eq_false'] at fails
    exact .epoch fails.1 fails.2
  | addStatic dnat now => exact addStatic_change sound dnat now id
  | removeStatic proto externalPort v6 =>
    rw [step, table_removeStatic sound.coherent]
    refine Change.of_filter ?_
    intro mapping _ fails
    simp only [Bool.not_eq_false', Bool.and_eq_true, decide_eq_true_eq] at fails
    exact .unpinned fails.1 fails.2
  | flushPeer rank peer =>
    rw [step, table_flushPeer]
    refine Change.of_filter ?_
    intro mapping _ fails
    simp only [Bool.not_eq_false', Bool.and_eq_true, decide_eq_true_eq, Bool.not_eq_true'] at fails
    exact .flushed fails.2 fails.1
  | sweep now =>
    rcases table_sweep nat now id with same | ⟨gone, mapping, was, due⟩
    · rw [step, same]
      exact .same
    · rw [step, gone, was]
      exact .removed (.swept due)
  | translateUplink peer pkt now draw =>
    exact translateUplink_change engine sound peer pkt now draw id
  | translateDownlink pkt now => exact translateDownlink_change engine sound pkt now id

/-- A mapping that is still there is the same mapping. -/
theorem step_sameIdentity (present : nat.table id = some mapping)
    (still : (nat.step engine op).table id = some kept) : mapping.SameIdentity kept := by
  have change := step_change engine sound op id
  rw [present, still] at change
  cases change with
  | same => exact ⟨rfl, rfl, rfl, rfl, rfl⟩
  | sent read owner owned key marked | received read key admitted marked =>
    exact Mapping.SameIdentity.of_observe marked

/-- A mapping that an operation does not end is still there. -/
theorem step_keeps (present : nat.table id = some mapping) (lasts : ¬ Ends nat id mapping op) :
    ∃ kept, (nat.step engine op).table id = some kept ∧ mapping.SameIdentity kept := by
  cases still : (nat.step engine op).table id with
  | none =>
    have change := step_change engine sound op id
    rw [present, still] at change
    cases change with
    | removed ends => exact absurd ends lasts
  | some kept => exact ⟨kept, rfl, step_sameIdentity engine sound present still⟩

/-- A removed mapping does not come back. -/
theorem step_absent (op : Op) (used : id.value < nat.nextId) (absent : nat.table id = none) :
    (nat.step engine op).table id = none := by
  have change := step_change engine sound op id
  rw [absent] at change
  cases after : (nat.step engine op).table id with
  | none => rfl
  | some mapping =>
    rw [after] at change
    have fresh : id = ⟨nat.nextId⟩ := by
      cases change with
      | opened _ _ next | pinned _ _ next => exact next
    rw [fresh] at used
    exact absurd used (Nat.lt_irrefl _)

theorem step_nextId_le (op : Op) : nat.nextId ≤ (nat.step engine op).nextId := by
  rcases step_edits engine sound.coherent op with ⟨edited, edits, configured⟩
  rw [configured.rest]
  exact edits.nextId_le

theorem run_absent (used : id.value < nat.nextId) (absent : nat.table id = none)
    (later : List Op) : (Execution.run (step engine) nat later).table id = none := by
  induction later generalizing nat with
  | nil => exact absent
  | cons op later induction =>
    exact induction (sound.step engine op)
      (Nat.lt_of_lt_of_le used (step_nextId_le engine sound op))
      (step_absent engine sound op used absent)

omit sound in
/-- The life of a mapping: it keeps its owner, its endpoint and its external
port until an operation ends it, and then its identifier is never used again. -/
theorem mapping_lives_once (config : NatConfig) (past later : List Op) (id : MappingId) :
    (run engine config past).table id = none ∨
    ∃ mapping, (run engine config past).table id = some mapping ∧
      ∃ kept, mapping.SameIdentity kept ∧
        ((run engine config (past ++ later)).table id = some kept ∨
          ∃ front op rest, later = front ++ op :: rest ∧
            Ends (run engine config (past ++ front)) id kept op ∧
            ∀ more, (run engine config (past ++ front ++ op :: more)).table id = none) := by
  cases present : (run engine config past).table id with
  | none => exact .inl rfl
  | some mapping =>
    refine .inr ⟨mapping, rfl, ?_⟩
    induction later using List.reverseRecOn with
    | nil =>
      refine ⟨mapping, ⟨rfl, rfl, rfl, rfl, rfl⟩, .inl ?_⟩
      rw [List.append_nil, present]
    | append_singleton front op induction =>
      rcases induction with ⟨kept, same, still | ⟨front, first, rest, rfl, ended⟩⟩
      · have sound := run_sound engine config (past ++ front)
        cases after : ((run engine config (past ++ front)).step engine op).table id with
        | some later =>
          have stays := step_sameIdentity engine sound still after
          refine ⟨later, same.trans stays, .inl ?_⟩
          rw [← List.append_assoc, run_snoc, after]
        | none =>
          have change := step_change engine sound op id
          rw [still, after] at change
          cases change with
          | removed ends =>
            refine ⟨kept, same, .inr ⟨front, op, [], rfl, ends, ?_⟩⟩
            intro more
            rw [run, Execution.run_append]
            have used := sound.coherent.fresh id kept still
            exact run_absent engine (sound.step engine op)
              (Nat.lt_of_lt_of_le used (step_nextId_le engine sound op)) after more
      · exact ⟨kept, same, .inr ⟨front, first, rest ++ [op], by simp, ended⟩⟩

end Napt

end WarrenSdk.Bolthole
