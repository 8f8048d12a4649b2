import WarrenSdk.Bolthole.Napt.Coherence
import WarrenSdk.Foundation.Execution

/-! # Operations as edits

Each operation of the translator, read as the edits it is made of. Coherence of
every reachable state is the first consequence. -/

namespace WarrenSdk.Bolthole.Napt

open Execution

variable {nat : Napt}

/-! ## Removing -/

theorem removeMapping_edits (nat : Napt) (id : MappingId) : Edits nat (nat.removeMapping id) := by
  cases present : nat.table id with
  | none => rw [removeMapping_absent present]
  | some mapping => exact .single (.remove present)

theorem removeFound_edits (nat : Napt) (found : Option MappingId) :
    Edits nat (nat.removeFound found) := by
  cases found with
  | none => exact .refl
  | some id => exact removeMapping_edits nat id

theorem foldl_removeMapping_edits (nat : Napt) (ids : List MappingId) :
    Edits nat (ids.foldl removeMapping nat) := by
  induction ids generalizing nat with
  | nil => exact .refl
  | cons id ids induction => exact (removeMapping_edits nat id).trans (induction _)

theorem flushWhere_edits (nat : Napt) (rank : MappingId → Nat)
    (doomed : Mapping → Bool) : Edits nat (nat.flushWhere rank doomed) :=
  foldl_removeMapping_edits nat _

theorem flushForEpoch_edits (nat : Napt) (rank : MappingId → Nat)
    (epoch : EpochId) (v4 : Ipv4Addr) (v6 : Option Ipv6Addr) :
    Edits nat (nat.flushForEpoch rank epoch v4 v6) := by
  have flushed : ∀ (nat : Napt) (changed : Bool) (family : Bool),
      Edits nat (if changed then nat.flushFamily rank family else nat) := by
    intro nat changed family
    cases changed with
    | true =>
      rw [if_pos rfl]
      exact flushWhere_edits nat rank _
    | false => exact .refl
  exact (flushed _ _ false).trans (flushed _ _ true)

/-! ## Sweeping -/

theorem sweepEntry_edits (nat : Napt) (id : MappingId) (now : Instant) :
    Edits nat (nat.sweepEntry id now).2 := by
  unfold sweepEntry
  split
  · exact .refl
  · dsimp only
    split
    · exact .single (.ambient ⟨rfl⟩)
    · exact removeMapping_edits nat id

theorem sweepLoop_edits (now : Instant) (fuel removed : Nat) (nat : Napt) :
    Edits nat (sweepLoop now fuel removed nat).2 := by
  induction fuel generalizing removed nat with
  | zero => exact .refl
  | succ fuel induction =>
    unfold sweepLoop
    split
    · exact .refl
    · split
      · exact .refl
      · rename_i deadline id rest _ _
        have popped : Edit nat { nat with expiry := rest } := .ambient ⟨rfl⟩
        exact ((Relation.ReflTransGen.single popped).trans
          (sweepEntry_edits _ id now)).trans (induction _ _)

/-! ## Forwards -/

variable {v6 : Bool}

theorem setAllocator_edit (coherent : nat.Coherent) (valid : allocator.Valid)
    (contains : ∀ port, allocator.contains port = (nat.ports v6 proto).contains port)
    (free : ∀ port ∈ allocator.free, port ∈ (nat.ports v6 proto).free ∨
      nat.inbound.get (proto, v6, port) = none) :
    Edit nat (nat.setAllocator proto v6 allocator) := by
  refine .repool ?_ ?_ ?_
  · intro family kind
    split
    · exact valid
    · exact coherent.valid family kind
  · intro family kind port
    split
    · rename_i here
      rw [here.1, here.2]
      exact contains port
    · rfl
  · intro family kind port isFree
    split at isFree
    · rename_i here
      rw [here.1, here.2]
      exact free port isFree
    · exact .inl isFree

theorem allocate_edit (coherent : nat.Coherent) (taken : (nat.ports v6 proto).Becomes allocator
      (fun other => other ∈ (nat.ports v6 proto).free ∧ other ≠ port) reserved) :
    Edit nat (nat.setAllocator proto v6 allocator) :=
  setAllocator_edit coherent taken.valid taken.contains
    fun other isFree => .inl ((taken.free other).mp isFree).1

/-- A port that the allocator can hand out neither now nor after a release. -/
def Unavailable (allocator : PortAllocator) (port : UInt16) : Prop :=
  allocator.isReserved port = true ∨ allocator.contains port = false

theorem Unavailable.not_free (unavailable : Unavailable allocator port) (valid : allocator.Valid) :
    port ∉ allocator.free := by
  rcases unavailable with reserved | outside
  · exact valid.not_mem_free_of_isReserved reserved
  · intro free
    rw [valid.contains_of_mem_free free] at outside
    exact absurd outside (by simp)

theorem Unavailable.of_removed {id : MappingId}
    (unavailable : Unavailable (before.ports v6 proto) port)
    (coherent : before.Coherent) (removed : Removed before id mapping after) :
    Unavailable (after.ports v6 proto) port := by
  rw [removed.ports]
  split
  · have released := PortAllocator.release_spec (coherent.valid v6 proto) mapping.externalPort
    rcases unavailable with reserved | outside
    · exact .inl ((released.reserved port).mpr reserved)
    · exact .inr ((released.contains port).trans outside)
  · exact unavailable

theorem Unavailable.of_removeFound (unavailable : Unavailable (nat.ports v6 proto) port)
    (coherent : nat.Coherent) (found : Option MappingId) :
    Unavailable ((nat.removeFound found).ports v6 proto) port := by
  cases found with
  | none => exact unavailable
  | some id =>
    cases present : nat.table id with
    | none =>
      rw [removeFound, removeMapping_absent present]
      exact unavailable
    | some mapping => exact unavailable.of_removed coherent (removeMapping_removed present)

theorem setAllocator_self (nat : Napt) (proto : MapProto) (v6 : Bool) :
    nat.setAllocator proto v6 (nat.ports v6 proto) = nat := by
  have same : (fun family kind => if family = v6 ∧ kind = proto then
      nat.ports v6 proto else nat.ports family kind) = nat.ports := by
    funext family kind
    split
    · rename_i here
      rw [here.1, here.2]
    · rfl
  simp only [setAllocator, same]

/-- The port of a forward is free, or not one the allocator could hand out. -/
def PortFits (nat : Napt) (dnat : StaticDnat) : Prop :=
  (nat.ports dnat.target.isIpv6 dnat.proto).contains dnat.externalPort = true →
    dnat.externalPort ∈ (nat.ports dnat.target.isIpv6 dnat.proto).free

/-- The port of a forward is reserved if the allocator knows it, and every
other port is as it was. -/
structure Reserved (before : Napt) (dnat : StaticDnat) (after : Napt) : Prop where
  rest : after = { before with ports := after.ports }
  edits : Edits before after
  free : ∀ v6 proto port, port ∈ (after.ports v6 proto).free ↔ port ∈ (before.ports v6 proto).free ∧
      (proto, v6, port) ≠ (dnat.proto, dnat.target.isIpv6, dnat.externalPort)
  reserved : ∀ v6 proto port, (after.ports v6 proto).isReserved port = true ↔
    (before.ports v6 proto).isReserved port = true ∨ (before.ports v6 proto).contains port = true ∧
      (proto, v6, port) = (dnat.proto, dnat.target.isIpv6, dnat.externalPort)

theorem Reserved.unavailable (coherent : before.Coherent) (reserved : Reserved before dnat after) :
    Unavailable (after.ports dnat.target.isIpv6 dnat.proto)
      dnat.externalPort := by
  have contains := reserved.edits.contains coherent dnat.target.isIpv6 dnat.proto dnat.externalPort
  cases known : (before.ports dnat.target.isIpv6 dnat.proto).contains dnat.externalPort with
  | true => exact .inl ((reserved.reserved _ _ _).mpr (.inr ⟨known, rfl⟩))
  | false => exact .inr (contains.trans known)

theorem reserveForward_spec (coherent : nat.Coherent) (dnat : StaticDnat) :
    (¬ nat.PortFits dnat ∧ ∃ refusal, nat.reserveForward dnat = (.error refusal, nat)) ∨
    (nat.PortFits dnat ∧ ∃ after, nat.reserveForward dnat = (.ok (), after) ∧
      Reserved nat dnat after) := by
  have valid := coherent.valid dnat.target.isIpv6 dnat.proto
  unfold reserveForward PortFits
  dsimp only
  split
  · rename_i known
    rcases PortAllocator.reserve_spec valid dnat.externalPort with
      ⟨notFree, refusal, refused⟩ | ⟨free, allocator, reserved, becomes⟩
    · rw [refused]
      exact .inl ⟨fun fits => notFree (fits known), refusal, by simp only [setAllocator_self]⟩
    · rw [reserved]
      refine .inr ⟨fun _ => free, _, rfl, rfl, ?_, ?_, ?_⟩
      · exact .single (allocate_edit coherent becomes)
      · intro v6 proto port
        simp only [setAllocator]
        split
        · rename_i here
          rw [becomes.free, here.1, here.2]
          simp
        · rename_i elsewhere
          simp only [ne_eq, Prod.mk.injEq]
          tauto
      · intro v6 proto port
        simp only [setAllocator]
        split
        · rename_i here
          rw [becomes.reserved, here.1, here.2]
          simp only [Prod.mk.injEq, true_and]
          constructor
          · rintro (was | rfl)
            · exact .inl was
            · exact .inr ⟨known, rfl⟩
          · rintro (was | ⟨_, rfl⟩)
            · exact .inl was
            · exact .inr rfl
        · rename_i elsewhere
          simp only [Prod.mk.injEq]
          tauto
  · rename_i unknown
    refine .inr ⟨fun known => absurd known unknown, _, rfl, rfl, .refl, ?_, ?_⟩
    · intro v6 proto port
      constructor
      · intro isFree
        refine ⟨isFree, fun equal => unknown ?_⟩
        cases equal
        exact valid.contains_of_mem_free isFree
      · exact fun both => both.1
    · intro v6 proto port
      constructor
      · exact .inl
      · rintro (was | ⟨known, equal⟩)
        · exact was
        · cases equal
          exact absurd known unknown

theorem removeFound_outbound (coherent : nat.Coherent) (key : MapProto × IpAddr × UInt16) :
    (nat.removeFound (nat.outbound.get key)).outbound.get key = none := by
  cases found : nat.outbound.get key with
  | none => exact found
  | some id =>
    rcases (coherent.outbound key id).mp found with ⟨mapping, present, rfl⟩
    rw [removeFound, (removeMapping_removed present).outbound]
    simp

theorem removeFound_inbound (coherent : nat.Coherent) (key : MapProto × Bool × UInt16) :
    (nat.removeFound (nat.inbound.get key)).inbound.get key = none := by
  cases found : nat.inbound.get key with
  | none => exact found
  | some id =>
    rcases (coherent.inbound key id).mp found with ⟨mapping, present, rfl⟩
    rw [removeFound, (removeMapping_removed present).inbound]
    simp

theorem removeFound_keeps_unused (unused : nat.outbound.get key = none) (found : Option MappingId) :
    (nat.removeFound found).outbound.get key = none := by
  cases found with
  | none => exact unused
  | some id =>
    cases present : nat.table id with
    | none =>
      rw [removeFound, removeMapping_absent present]
      exact unused
    | some mapping =>
      rw [removeFound, (removeMapping_removed present).outbound,
        HashMap.get_remove, unused, ite_self]

theorem installForward_edits (coherent : nat.Coherent) (dnat : StaticDnat)
    (owner : PeerId) (now : Instant)
    (unavailable : Unavailable (nat.ports dnat.target.isIpv6 dnat.proto) dnat.externalPort) :
    Edits nat (nat.installForward dnat owner now).2 := by
  unfold installForward
  dsimp only
  have first := removeFound_edits nat
    (nat.outbound.get dnat.outboundKey)
  have firstUnused := removeFound_outbound coherent dnat.outboundKey
  have firstUnavailable := unavailable.of_removeFound coherent
    (nat.outbound.get dnat.outboundKey)
  have firstCoherent := first.coherent coherent
  generalize nat.removeFound (nat.outbound.get dnat.outboundKey) =
      cleared at first firstUnused firstUnavailable firstCoherent ⊢
  have second := removeFound_edits cleared
    (cleared.inbound.get dnat.inboundKey)
  have secondUnavailable := firstUnavailable.of_removeFound firstCoherent
    (cleared.inbound.get dnat.inboundKey)
  have secondCoherent := second.coherent firstCoherent
  refine (first.trans second).tail (.pin ?_ ?_ ?_)
  · exact removeFound_keeps_unused firstUnused _
  · exact removeFound_inbound firstCoherent _
  · exact secondUnavailable.not_free (secondCoherent.valid _ _)

theorem addStatic_edits (coherent : nat.Coherent) (dnat : StaticDnat)
    (now : Instant) : Edits nat (nat.addStatic dnat now).2 := by
  unfold addStatic
  split
  · exact .refl
  · rename_i owner _
    rcases reserveForward_spec coherent dnat with ⟨_, refusal, equal⟩ | ⟨_, after, equal, reserved⟩
    · rw [equal]
    · rw [equal]
      exact reserved.edits.trans (installForward_edits
        (reserved.edits.coherent coherent) dnat owner now (reserved.unavailable coherent))

theorem removeStatic_edits (coherent : nat.Coherent) (proto : MapProto)
    (externalPort : UInt16) (v6 : Bool) : Edits nat (nat.removeStatic proto externalPort v6).2 := by
  unfold removeStatic
  split
  · exact .refl
  · rename_i id found
    split
    · exact .refl
    · rcases (coherent.inbound _ id).mp found with ⟨mapping, present, key⟩
      have removed := removeMapping_removed present
      have edits := removeMapping_edits nat id
      have afterCoherent := edits.coherent coherent
      have unreserved := (PortAllocator.unreserve_spec
        (afterCoherent.valid v6 proto) externalPort).2
      refine edits.tail (setAllocator_edit afterCoherent unreserved.valid unreserved.contains ?_)
      intro port free
      rw [unreserved.free] at free
      rcases free with kept | ⟨rfl, _⟩
      · exact .inl kept
      · right
        rw [removed.inbound, key]
        simp

/-! ## Packets -/

/-- The room that a peer at its cap gets is the removal of its own oldest
mapping; everyone else gets it for free. -/
def Room (nat : Napt) (peer : PeerId) (proto : MapProto) (after : Napt) :
    Prop :=
  after = nat ∨ ∃ victim, nat.oldestOf peer proto = some victim ∧ proto ≠ .tcp ∧
    nat.config.cap proto ≤ (nat.peerCounts.get (peer, proto)).getD 0 ∧
    after = nat.removeMapping victim

theorem Room.edits (room : Room nat peer proto after) : Edits nat after := by
  rcases room with rfl | ⟨victim, _, _, _, rfl⟩
  · exact .refl
  · exact removeMapping_edits nat victim

theorem makeRoom_cases (nat : Napt) (peer : PeerId) (proto : MapProto) :
    nat.makeRoom peer proto = (.error .peerCap, nat) ∨
      ∃ after, nat.makeRoom peer proto = (.ok (), after) ∧ Room nat peer proto after := by
  unfold makeRoom
  split
  · rename_i full
    split
    · exact .inl rfl
    · rename_i notTcp
      split
      · exact .inl rfl
      · rename_i victim oldest
        exact .inr ⟨_, rfl, .inr ⟨victim, oldest, notTcp, full, rfl⟩⟩
  · exact .inr ⟨_, rfl, .inl rfl⟩

inductive UplinkMapping (nat : Napt) (peer : PeerId) (proto : MapProto)
    (internal : SocketAddr) (now : Instant) : Except NatDrop MappingId → Napt → Prop where
  /-- The peer's own mapping of that endpoint. -/
  | known {id : MappingId} {mapping : Mapping}
      (found : nat.outbound.get (proto, internal.ip, internal.port) = some id)
      (present : nat.mappings.get id = some mapping) (owner : mapping.owner = peer) :
      UplinkMapping nat peer proto internal now (.ok id) nat
  | refused {refusal : NatDrop} : UplinkMapping nat peer proto internal now (.error refusal) nat
  /-- Room was made, but no port is left. -/
  | exhausted {roomy : Napt} (room : Room nat peer proto roomy)
      (empty : (roomy.ports internal.isIpv6 proto).free = []) :
      UplinkMapping nat peer proto internal now (.error .portExhausted)
        (roomy.setAllocator proto internal.isIpv6 (roomy.ports internal.isIpv6 proto))
  | created {roomy : Napt} {externalPort : UInt16} {allocator : PortAllocator}
      (unused : nat.outbound.get (proto, internal.ip, internal.port) = none)
      (room : Room nat peer proto roomy)
      (free : externalPort ∈ (roomy.ports internal.isIpv6 proto).free)
      (taken : (roomy.ports internal.isIpv6 proto).Becomes allocator
        (fun port => port ∈ (roomy.ports internal.isIpv6 proto).free ∧ port ≠ externalPort)
        (fun port => (roomy.ports internal.isIpv6 proto).isReserved port = true)) :
      UplinkMapping nat peer proto internal now (.ok ⟨roomy.nextId⟩)
        ((roomy.setAllocator proto internal.isIpv6 allocator).openMapping peer
          proto internal externalPort now).2

theorem mappingForUplink_cases (coherent : nat.Coherent) (peer : PeerId)
    (proto : MapProto) (internal : SocketAddr) (now : Instant) (draw : Nat) : ∃ outcome after,
      nat.mappingForUplink peer proto internal now draw = (outcome, after) ∧
      UplinkMapping nat peer proto internal now outcome after := by
  unfold mappingForUplink
  split
  · rename_i id found
    split
    · exact ⟨_, _, rfl, .refused⟩
    · rename_i mapping present
      split
      · exact ⟨_, _, rfl, .refused⟩
      · rename_i owner
        exact ⟨_, _, rfl, .known found present (by simpa using owner)⟩
  · rename_i unused
    unfold createMapping
    rcases makeRoom_cases nat peer proto with refused | ⟨roomy, made, room⟩
    · rw [refused]
      exact ⟨_, _, rfl, .refused⟩
    · rw [made]
      have roomyCoherent := room.edits.coherent coherent
      rcases PortAllocator.alloc_spec
          (roomyCoherent.valid internal.isIpv6 proto) (some internal.port) draw with
        ⟨empty, failed⟩ | ⟨externalPort, allocator, allocated, free, taken⟩
      · simp only [failed]
        exact ⟨_, _, rfl, .exhausted room empty⟩
      · simp only [allocated]
        refine ⟨_, _, ?_, .created unused room free taken⟩
        rfl

theorem Room.keeps_unused (room : Room nat peer proto after)
    (unused : nat.outbound.get key = none) : after.outbound.get key = none := by
  rcases room with rfl | ⟨victim, _, _, _, rfl⟩
  · exact unused
  · exact removeFound_keeps_unused unused (some victim)

theorem UplinkMapping.edits (coherent : nat.Coherent)
    (cases : UplinkMapping nat peer proto internal now outcome after) : Edits nat after := by
  cases cases with
  | known | refused => exact .refl
  | exhausted room empty =>
    have roomyCoherent := room.edits.coherent coherent
    exact room.edits.tail (setAllocator_edit roomyCoherent
      (roomyCoherent.valid _ _) (fun _ => rfl) fun _ free => .inl free)
  | created unused room free taken =>
    rename_i roomy externalPort allocator
    have roomyCoherent := room.edits.coherent coherent
    refine (room.edits.tail (allocate_edit roomyCoherent taken)).tail (.opened ?_ ?_ ?_)
    · exact room.keeps_unused unused
    · exact roomyCoherent.inbound_of_free free
    · simp only [setAllocator, and_self, if_true]
      rw [taken.free]
      exact fun isFree => isFree.2 rfl

/-- The mapping an uplink packet gets is the peer's own, and of the packet's
endpoint. -/
theorem UplinkMapping.owned {id : MappingId} (coherent : nat.Coherent)
    (cases : UplinkMapping nat peer proto internal now (.ok id) after) :
    ∃ mapping, after.mappings.get id = some mapping ∧ mapping.owner = peer ∧
      mapping.proto = proto ∧ mapping.internal = internal := by
  cases cases with
  | known found present owner =>
    rename_i mapping
    rcases (coherent.outbound _ _).mp found with ⟨same, again, key⟩
    rw [table_of_get present] at again
    cases again
    simp only [Mapping.outboundKey, Prod.mk.injEq] at key
    exact ⟨mapping, present, owner, key.1, SocketAddr.ext key.2.1 key.2.2⟩
  | created unused room free taken =>
    rename_i roomy externalPort allocator
    have inserted := openMapping_inserted
      (roomy.setAllocator proto internal.isIpv6 allocator) peer proto internal
      externalPort now
    rcases get_of_table inserted.present with ⟨mapping, found, same⟩
    exact ⟨mapping, found, congrArg Mapping.owner same,
      congrArg Mapping.proto same, congrArg Mapping.internal same⟩

theorem touchUplink_edits (nat : Napt) (id : MappingId) (remote : IpAddr)
    (port : UInt16) (flags : UInt8) (now : Instant) :
    Edits nat (nat.touchUplink id remote port flags now) := by
  unfold touchUplink
  split
  · exact .refl
  · rename_i present
    exact .single (.record present)

theorem acceptDownlink_edits (nat : Napt) (id : MappingId) (remote : IpAddr)
    (port : UInt16) (flags : UInt8) (now : Instant) :
    Edits nat (nat.acceptDownlink id remote port flags now).2 := by
  unfold acceptDownlink
  split
  · exact .refl
  · rename_i present
    split
    · exact .refl
    · exact .single (.record present)

section Translation

variable (engine : ChecksumEngine)

/-- The state after a flow packet of the uplink that found its mapping. -/
theorem uplinkFlow_state {id : MappingId}
    (equal : nat.mappingForUplink peer proto ⟨hdr.src, port⟩ now draw =
      (.ok id, after)) (pkt : List UInt8) (external : IpAddr)
    (remotePort : UInt16) (flags : UInt8) :
    (nat.uplinkFlow engine peer pkt hdr external proto port remotePort flags
      now draw).2.2 = after.touchUplink id hdr.dst remotePort flags now := by
  simp only [uplinkFlow, equal]
  split
  · rfl
  · split
    · rfl
    · rfl

theorem uplinkFlow_edits (coherent : nat.Coherent) (peer : PeerId)
    (pkt : List UInt8) (hdr : IpHeader) (external : IpAddr) (proto : MapProto)
    (port remotePort : UInt16) (flags : UInt8) (now : Instant) (draw : Nat) :
    Edits nat (nat.uplinkFlow engine peer pkt hdr external proto port remotePort
      flags now draw).2.2 := by
  rcases mappingForUplink_cases coherent peer proto ⟨hdr.src, port⟩ now draw
    with ⟨outcome, after, equal, cases⟩
  cases outcome with
  | error refusal =>
    simp only [uplinkFlow, equal]
    exact cases.edits coherent
  | ok id =>
    rw [uplinkFlow_state engine equal]
    exact (cases.edits coherent).trans (touchUplink_edits after id hdr.dst remotePort flags now)

theorem uplink_edits (coherent : nat.Coherent) (peer : PeerId)
    (pkt : List UInt8) (now : Instant) (draw : Nat) :
    Edits nat (nat.uplink engine peer pkt now draw).2.2 := by
  unfold uplink
  split
  · exact .refl
  · split
    · exact .refl
    · split
      · exact .refl
      · split
        · exact .refl
        · exact uplinkFlow_edits engine coherent peer pkt _ _ _ _ _ _ now draw
        · exact uplinkFlow_edits engine coherent peer pkt _ _ _ _ _ _ now draw
        · exact .refl

theorem downlinkFlow_edits (nat : Napt) (pkt : List UInt8) (hdr : IpHeader)
    (proto : MapProto) (port remotePort : UInt16) (flags : UInt8) (now : Instant) :
    Edits nat (nat.downlinkFlow engine pkt hdr proto port remotePort flags now).2.2 := by
  unfold downlinkFlow
  split
  · exact .refl
  · rename_i id _
    have edits := acceptDownlink_edits nat id hdr.src remotePort flags now
    split
    · rename_i equal
      rw [equal] at edits
      exact edits
    · rename_i equal
      rw [equal] at edits
      split
      · exact edits
      · exact edits

theorem downlink_edits (nat : Napt) (pkt : List UInt8) (now : Instant) :
    Edits nat (nat.downlink engine pkt now).2.2 := by
  unfold downlink
  split
  · exact .refl
  · split
    · exact .refl
    · split
      · exact .refl
      · split
        · exact .refl
        · exact downlinkFlow_edits engine nat pkt _ _ _ _ _ now
        · exact downlinkFlow_edits engine nat pkt _ _ _ _ _ now
        · exact .refl

theorem translateUplink_edits (coherent : nat.Coherent) (peer : PeerId)
    (pkt : List UInt8) (now : Instant) (draw : Nat) :
    Edits nat (nat.translateUplink engine peer pkt now draw).2.2 :=
  (uplink_edits engine coherent peer pkt now draw).tail (.ambient ⟨rfl⟩)

/-- Every operation is a sequence of edits, except that two of them also set
what the callers decide. -/
theorem step_edits (coherent : nat.Coherent) (op : Op) :
    ∃ edited, Edits nat edited ∧ Configured edited (nat.step engine op) := by
  have unset : ∀ {after : Napt}, Edits nat after →
      ∃ edited, Edits nat edited ∧ Configured edited after :=
    fun edits => ⟨_, edits, ⟨rfl⟩⟩
  cases op with
  | setOwnership ownership => exact ⟨nat, .refl, ⟨rfl⟩⟩
  | setExternal rank epoch v4 v6 => exact ⟨_, flushForEpoch_edits nat rank epoch v4 v6, ⟨rfl⟩⟩
  | addStatic dnat now => exact unset (addStatic_edits coherent dnat now)
  | removeStatic proto externalPort v6 =>
    exact unset (removeStatic_edits coherent proto externalPort v6)
  | flushPeer rank peer =>
    exact unset (flushWhere_edits nat rank fun mapping => mapping.owner = peer && !mapping.pinned)
  | sweep now => exact unset (sweepLoop_edits now _ _ nat)
  | translateUplink peer pkt now draw =>
    exact unset (translateUplink_edits engine coherent peer pkt now draw)
  | translateDownlink pkt now =>
    exact unset ((downlink_edits engine nat pkt now).tail (.ambient ⟨rfl⟩))

theorem step_coherent (coherent : nat.Coherent) (op : Op) : (nat.step engine op).Coherent := by
  rcases step_edits engine coherent op with ⟨edited, edits, configured⟩
  exact configured.coherent (edits.coherent coherent)

def run (config : NatConfig) (ops : List Op) : Napt := Execution.run (step engine) (new config) ops

theorem run_snoc (config : NatConfig) (past : List Op) (op : Op) :
    run engine config (past ++ [op]) = (run engine config past).step engine op :=
  Execution.run_snoc (step engine) (new config) past op

theorem run_coherent (config : NatConfig) (ops : List Op) : (run engine config ops).Coherent :=
  run_invariant (step engine) Coherent (Coherent.new config)
    (fun _ op coherent => step_coherent engine coherent op) ops

/-- What a port space consists of stays as it was configured. -/
theorem run_contains (config : NatConfig) (ops : List Op) (v6 : Bool)
    (proto : MapProto) (port : UInt16) : ((run engine config ops).ports v6 proto).contains port =
      ((new config).ports v6 proto).contains port := by
  have both := run_invariant (step engine)
    (fun nat => nat.Coherent ∧ (nat.ports v6 proto).contains port =
      ((new config).ports v6 proto).contains port)
    ⟨Coherent.new config, rfl⟩ (fun nat op ⟨coherent, same⟩ => by
      rcases step_edits engine coherent op with ⟨edited, edits, configured⟩
      refine ⟨configured.coherent (edits.coherent coherent), ?_⟩
      rw [configured.rest, ← same, ← edits.contains coherent]) ops
  exact both.2

end Translation

/-! ## A small gateway

Two peers and a pool of four ports, for concrete instances of the results about
runs. -/

namespace Sample

/-- A checksum engine that leaves every checksum alone. -/
def engine : ChecksumEngine where
  incrementalChecksumUpdate := fun checksum _ _ => checksum
  internetChecksum := fun _ _ => 0
  icmpv6PseudoSum := fun _ _ _ => 0

def config : NatConfig := { pool := ⟨40000, 40003⟩ }

def host (number : Nat) : Ipv4Addr := ⟨BitVec.ofNat 32 (0x0a000000 + number)⟩

def udp (source destination : Nat) (sourcePort destinationPort : UInt16) : List UInt8 :=
  [0x45, 0, 0, 28, 0, 0, 0, 0, 64, protoUdp, 0, 0] ++
    (host source).octets ++ (host destination).octets ++
    u16Bytes sourcePort ++ u16Bytes destinationPort ++ [0, 8, 0, 0]

def tcp (source destination : Nat) (sourcePort destinationPort : UInt16)
    (flags : UInt8) : List UInt8 :=
  [0x45, 0, 0, 40, 0, 0, 0, 0, 64, protoTcp, 0, 0] ++
    (host source).octets ++ (host destination).octets ++
    u16Bytes sourcePort ++ u16Bytes destinationPort ++
    [0, 0, 0, 0, 0, 0, 0, 0, 0x50, flags, 0, 0, 0, 0, 0, 0]

def exit : ExitId := ⟨List.replicate 16 1, by decide⟩

def first : PeerId := ⟨1⟩
def second : PeerId := ⟨2⟩

def ownership : Ownership :=
  (Ownership.new.insertAddr (.v4 (host 1)) first).insertAddr (.v4 (host 2)) second

def start : List Op :=
  [.setOwnership ownership, .setExternal MappingId.value ⟨exit, 0⟩ (host 99) none]

def ask : Op := .translateUplink first (udp 1 50 40001 53) 10 0

def forward : StaticDnat := ⟨.tcp, 40002, ⟨.v4 (host 1), 80⟩⟩

def reset : Op := .translateDownlink (tcp 50 99 1234 40002 tcpRst) 20

def mapping : Mapping where
  owner := first
  proto := .udp
  internal := ⟨.v4 (host 1), 40001⟩
  externalPort := 40001
  remotes := [⟨.v4 (host 50), 53, .udpOneWay, false, false, 10⟩]
  lastSeen := 10
  pinned := false
  older := none
  newer := none

end Sample

end WarrenSdk.Bolthole.Napt
