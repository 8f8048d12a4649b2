import WarrenSdk.Bolthole.Napt.Changes

/-! # Where every port is

A port of a port space is free and unheld, held by a dynamic mapping, or
reserved and held by a forward. Each edit of the table moves one port between
these states. Two paths lose a port instead: a forward that replaces another of
the same target, and a sweep that takes a forward. Both leave the old port
reserved for nobody. -/

namespace WarrenSdk.Bolthole.Napt

open List HashMap Option

/-- A port of one protocol and family. -/
abbrev PortKey := MapProto × Bool × UInt16

/-- Whether a mapping holds a port and, if so, whether it is pinned. -/
def holder (nat : Napt) (key : PortKey) : Option Bool :=
  ((nat.inbound.get key).bind nat.table).map Mapping.pinned

def isFree (nat : Napt) (key : PortKey) : Bool := key.2.2 ∈ (nat.ports key.2.1 key.1).free

def isReserved (nat : Napt) (key : PortKey) : Bool := (nat.ports key.2.1 key.1).isReserved key.2.2

def inSpace (nat : Napt) (key : PortKey) : Bool := (nat.ports key.2.1 key.1).contains key.2.2

/-- What the allocator and the table say about a port: whether it is free,
whether it is reserved, and who holds it. -/
def portView (nat : Napt) (key : PortKey) : Bool × Bool × Option Bool :=
  (nat.isFree key, nat.isReserved key, nat.holder key)

inductive PortState where
  | free
  | dynamic
  | pinned
  deriving DecidableEq

def PortState.view : PortState → Bool × Bool × Option Bool
  | .free => (true, false, none)
  | .dynamic => (false, false, some false)
  | .pinned => (false, true, some true)

def Settled (nat : Napt) (key : PortKey) : Prop :=
  nat.inSpace key = true → ∃ state : PortState, nat.portView key = state.view

variable {nat before after : Napt} {id : MappingId}

theorem Settled.congr (settled : before.Settled key)
    (space : after.inSpace key = before.inSpace key)
    (same : after.portView key = before.portView key) : after.Settled key := by
  intro inside
  rw [same]
  exact settled (space.symm.trans inside)

/-- Who holds a settled port decides its state. -/
theorem Settled.state (settled : nat.Settled key) (inside : nat.inSpace key) :
    nat.isFree key = (nat.holder key).isNone ∧
      nat.isReserved key = (nat.holder key == some true) := by
  rcases settled inside with ⟨state, view⟩
  cases state <;> simp only [portView, PortState.view, Prod.mk.injEq] at view <;> simp [view]

theorem holder_inboundKey (coherent : nat.Coherent) (present : nat.table id = some mapping) :
    nat.holder mapping.inboundKey = some mapping.pinned := by
  rw [holder, coherent.inbound.get present, bind_some, present, map_some]

theorem holder_of_unused (unused : nat.inbound.get key = none) : nat.holder key = none := by
  rw [holder, unused]
  rfl

/-! ## Removing -/

theorem Removed.holder_eq (coherent : before.Coherent) (present : before.table id = some mapping)
    (removed : Removed before id mapping after) (key : PortKey) :
    after.holder key = if key = mapping.inboundKey then none else before.holder key := by
  rw [holder, removed.inbound, get_remove]
  by_cases here : key = mapping.inboundKey
  · rw [if_pos here, if_pos here]
    rfl
  · rw [if_neg here, if_neg here, holder]
    cases found : before.inbound.get key with
    | none => rfl
    | some other =>
      have different : other ≠ id := by
        rintro rfl
        rcases (coherent.inbound key other).mp found with ⟨_, again, rfl⟩
        rw [present] at again
        cases again
        exact here rfl
      rw [bind_some, bind_some, removed.table, if_neg different]

/-- A removed mapping frees its port, unless it is a forward or the port is
reserved. -/
theorem Removed.pools (coherent : before.Coherent)
    (removed : Removed before id mapping after) (key : PortKey) :
    after.inSpace key = before.inSpace key ∧ after.isReserved key = before.isReserved key ∧
      after.isFree key = (before.isFree key ||
        (!mapping.pinned && key = mapping.inboundKey && before.inSpace key &&
          !before.isReserved key)) := by
  rcases key with ⟨proto, v6, port⟩
  have released := PortAllocator.release_spec (coherent.valid v6 proto) mapping.externalPort
  have ports := removed.ports v6 proto
  simp only [inSpace, isReserved, isFree, ports]
  split
  · rename_i here
    rcases here with ⟨dynamic, rfl, rfl⟩
    refine ⟨released.contains port, Bool.eq_iff_iff.mpr (released.reserved port), ?_⟩
    rw [Bool.eq_iff_iff]
    simp only [decide_eq_true_eq, released.free, Bool.or_eq_true,
      Bool.and_eq_true, Bool.not_eq_true', dynamic, Mapping.inboundKey, Prod.mk.injEq, true_and]
    constructor
    · rintro (free | ⟨rfl, rest⟩)
      · exact .inl free
      · exact .inr ⟨⟨rfl, rest.1⟩, rest.2⟩
    · rintro (free | ⟨⟨rfl, inside⟩, notReserved⟩)
      · exact .inl free
      · exact .inr ⟨rfl, inside, notReserved⟩
  · rename_i elsewhere
    refine ⟨rfl, rfl, ?_⟩
    have kept : (!mapping.pinned &&
        decide ((proto, v6, port) = mapping.inboundKey)) = false := by
      rw [Bool.eq_false_iff]
      intro both
      simp only [Bool.and_eq_true, Bool.not_eq_true', decide_eq_true_eq,
        Mapping.inboundKey, Prod.mk.injEq] at both
      exact elsewhere ⟨both.1, both.2.2.1, both.2.1⟩
    rw [kept]
    simp

theorem Removed.portView_eq (coherent : before.Coherent) (present : before.table id = some mapping)
    (removed : Removed before id mapping after) (different : key ≠ mapping.inboundKey) :
    after.portView key = before.portView key := by
  have held := removed.holder_eq coherent present key
  rcases removed.pools coherent key with ⟨_, reserved, free⟩
  simp [portView, held, reserved, free, different]

/-- Removing a mapping settles its port, unless the mapping is a forward on a
port of the space. -/
theorem Settled.removed (settled : before.Settled key)
    (coherent : before.Coherent) (present : before.table id = some mapping)
    (removed : Removed before id mapping after)
    (harmless : key = mapping.inboundKey → mapping.pinned → before.inSpace key = false) :
    after.Settled key := by
  rcases removed.pools coherent key with ⟨space, reserved, free⟩
  by_cases here : key = mapping.inboundKey
  · subst key
    intro inside
    rw [space] at inside
    have dynamic : mapping.pinned = false := by
      cases pinned : mapping.pinned with
      | false => rfl
      | true => exact absurd (inside.symm.trans (harmless rfl pinned)) (by simp)
    have held := removed.holder_eq coherent present mapping.inboundKey
    have wasHeld := holder_inboundKey coherent present
    have was := settled.state inside
    rw [wasHeld] at was
    refine ⟨.free, ?_⟩
    simp [portView, PortState.view, held, reserved, free, was, dynamic, inside]
  · exact settled.congr space (removed.portView_eq coherent present here)

theorem Settled.removeMapping (settled : nat.Settled key) (coherent : nat.Coherent) (id : MappingId)
    (harmless : ∀ mapping, nat.table id = some mapping → key = mapping.inboundKey → mapping.pinned →
      nat.inSpace key = false) :
    (nat.removeMapping id).Settled key := by
  cases present : nat.table id with
  | none =>
    rw [removeMapping_absent present]
    exact settled
  | some mapping =>
    exact settled.removed coherent present (removeMapping_removed present)
      (harmless mapping present)

/-! ## Inserting and recording -/

theorem Inserted.holder_eq (coherent : before.Coherent)
    (inserted : Inserted before mapping after) (key : PortKey) : after.holder key =
      if key = mapping.inboundKey then some mapping.pinned
      else before.holder key := by
  rw [holder, inserted.inbound, get_insert]
  by_cases here : key = mapping.inboundKey
  · rw [if_pos here, if_pos here, bind_some, inserted.present]
    rfl
  · rw [if_neg here, if_neg here, holder]
    cases found : before.inbound.get key with
    | none => rfl
    | some other =>
      have different : other ≠ ⟨before.nextId⟩ := by
        rintro rfl
        rcases (coherent.inbound key _).mp found with ⟨_, used, _⟩
        rw [coherent.table_next] at used
        cases used
      rw [bind_some, bind_some, inserted.table, if_neg different]

theorem Inserted.portView_eq (coherent : before.Coherent)
    (inserted : Inserted before mapping after) (key : PortKey) :
    after.portView key = (before.isFree key, before.isReserved key,
      if key = mapping.inboundKey then some mapping.pinned
      else before.holder key) := by
  rw [portView, inserted.holder_eq coherent key, isFree, isReserved, inserted.ports]
  rfl

theorem Settled.inserted (settled : before.Settled key)
    (coherent : before.Coherent) (inserted : Inserted before mapping after)
    (different : key ≠ mapping.inboundKey) : after.Settled key := by
  refine settled.congr (by rw [inSpace, inserted.ports]; rfl) ?_
  rw [inserted.portView_eq coherent, if_neg different]
  rfl

theorem Settled.recorded (settled : before.Settled key) (present : before.table id = some mapping)
    (same : mapping.SameIdentity observed)
    (recorded : Recorded before id observed after) : after.Settled key := by
  have held : after.holder key = before.holder key := by
    rw [holder, holder, recorded.inbound]
    cases before.inbound.get key with
    | none => rfl
    | some other =>
      rw [bind_some, bind_some, recorded.table]
      split
      · rename_i here
        rw [here, present, map_some, map_some]
        exact congrArg some same.pinned
      · rfl
  refine settled.congr (by rw [inSpace, recorded.ports]; rfl) ?_
  rw [portView, held, isFree, isReserved, recorded.ports]
  rfl

/-! ## Allocating -/

theorem port_ne_of_key_ne {proto : MapProto} {v6 : Bool} {port : UInt16}
    (different : key ≠ (proto, v6, port))
    (pool : key.2.1 = v6 ∧ key.1 = proto) : key.2.2 ≠ port := by
  rintro rfl
  exact different (by rw [← pool.1, ← pool.2])

theorem setAllocator_pools {v6 : Bool}
    (becomes : (nat.ports v6 proto).Becomes allocator free reserved) (key : PortKey) :
    (nat.setAllocator proto v6 allocator).inSpace key = nat.inSpace key ∧
    ((nat.setAllocator proto v6 allocator).isFree key ↔
      if key.2.1 = v6 ∧ key.1 = proto then free key.2.2
      else nat.isFree key) ∧
    ((nat.setAllocator proto v6 allocator).isReserved key ↔
      if key.2.1 = v6 ∧ key.1 = proto then reserved key.2.2
      else nat.isReserved key) := by
  by_cases here : key.2.1 = v6 ∧ key.1 = proto
  · have same : (nat.setAllocator proto v6 allocator).ports key.2.1 key.1 =
        allocator := if_pos here
    rw [if_pos here, if_pos here, inSpace, isFree, isReserved, same,
      decide_eq_true_eq, inSpace, here.1, here.2]
    exact ⟨becomes.contains _, becomes.free _, becomes.reserved _⟩
  · have same : (nat.setAllocator proto v6 allocator).ports key.2.1 key.1 =
        nat.ports key.2.1 key.1 := if_neg here
    rw [if_neg here, if_neg here, inSpace, isFree, isReserved, same]
    exact ⟨rfl, Iff.rfl, Iff.rfl⟩

theorem Settled.opened {internal : SocketAddr} {externalPort : UInt16}
    (settled : nat.Settled key) (coherent : nat.Coherent)
    (allocated : (nat.setAllocator proto internal.isIpv6 allocator).Coherent)
    (free : externalPort ∈ (nat.ports internal.isIpv6 proto).free)
    (becomes : (nat.ports internal.isIpv6 proto).Becomes allocator
      (fun port => port ∈ (nat.ports internal.isIpv6 proto).free ∧ port ≠ externalPort)
      (fun port => (nat.ports internal.isIpv6 proto).isReserved port)) :
    ((nat.setAllocator proto internal.isIpv6 allocator).openMapping peer proto
      internal externalPort now).2.Settled key := by
  have inserted := openMapping_inserted (nat.setAllocator proto internal.isIpv6
    allocator) peer proto internal externalPort now
  rcases setAllocator_pools becomes key with ⟨space, freeNow, reservedNow⟩
  have reserved : (nat.setAllocator proto internal.isIpv6
      allocator).isReserved key = nat.isReserved key := by
    rw [Bool.eq_iff_iff, reservedNow]
    split
    · rename_i here
      rw [isReserved, here.1, here.2]
    · exact Iff.rfl
  by_cases here : key = (proto, internal.isIpv6, externalPort)
  · subst key
    have inside : nat.inSpace (proto, internal.isIpv6, externalPort) = true :=
      (coherent.valid _ _).contains_of_mem_free free
    have was := settled.state inside
    rw [holder_of_unused (coherent.inbound_of_free free)] at was
    have self : (dynamicMapping peer proto internal externalPort
      now).inboundKey = (proto, internal.isIpv6, externalPort) := rfl
    have notFree : (nat.setAllocator proto internal.isIpv6 allocator).isFree
        (proto, internal.isIpv6, externalPort) = false := by
      rw [Bool.eq_false_iff, ne_eq, freeNow]
      simp
    refine fun _ => ⟨.dynamic, ?_⟩
    rw [inserted.portView_eq allocated, if_pos self.symm, reserved, was.2, notFree]
    rfl
  · have stays : (nat.setAllocator proto internal.isIpv6 allocator).Settled
        key := by
      refine settled.congr space ?_
      have sameFree : (nat.setAllocator proto internal.isIpv6
          allocator).isFree key = nat.isFree key := by
        rw [Bool.eq_iff_iff, freeNow]
        split
        · rename_i pool
          simp [isFree, pool, port_ne_of_key_ne here pool]
        · exact Iff.rfl
      rw [portView, sameFree, reserved]
      rfl
    exact stays.inserted allocated inserted here

/-! ## Operations -/

def Conserved (nat : Napt) : Prop := ∀ key, nat.Settled key

theorem Conserved.new (config : NatConfig) : (Napt.new config).Conserved := by
  have built : ∀ range keeps (key : PortKey), (Napt.new config).ports key.2.1 key.1 =
        PortAllocator.build range keeps → (Napt.new config).Settled key := by
    intro range keeps key ports inside
    refine ⟨.free, ?_⟩
    rw [inSpace, ports] at inside
    have free : (Napt.new config).isFree key = true := by
      rw [isFree, ports, decide_eq_true_eq]
      exact (PortAllocator.build_free_iff_contains range keeps).mpr inside
    have reserved : (Napt.new config).isReserved key = false := by
      rw [isReserved, ports]
      exact PortAllocator.build_not_reserved range keeps _
    rw [portView, free, reserved, holder_of_unused (get_empty key)]
    rfl
  intro key
  cases proto : key.1 with
  | tcp | udp => exact built config.pool true key (by rw [proto]; rfl)
  | icmp => exact built ⟨1, 65535⟩ false key (by rw [proto]; rfl)

/-- A port is kept from the moment its forward goes: no accepted forward
replaces one for the same target on a port of the space, and no sweep finds a
due entry of the heap for such a forward a day after its last packet. -/
def KeepsPorts (nat : Napt) : Op → Prop
  | .addStatic dnat _ => nat.Accepts dnat → ∀ id mapping,
    nat.mappings.get id = some mapping → mapping.pinned = true →
    mapping.outboundKey = (dnat.proto, dnat.target.ip, dnat.target.port) →
    nat.inSpace mapping.inboundKey = false
  | .sweep now => ∀ id mapping deadline,
    nat.mappings.get id = some mapping → mapping.pinned = true →
    nat.inSpace mapping.inboundKey = true → (deadline, id) ∈ nat.expiry →
    deadline ≤ now → now < mapping.lastSeen + Duration.fromSecs 86400
  | _ => True

section

variable (conserved : nat.Conserved)

include conserved

theorem Conserved.foldl_removeMapping {ids : List MappingId} (coherent : nat.Coherent)
    (dynamic : ∀ id ∈ ids, ∀ mapping, nat.table id = some mapping → mapping.pinned = false) :
    (ids.foldl removeMapping nat).Conserved := by
  induction ids generalizing nat with
  | nil => exact conserved
  | cons id ids induction =>
    refine induction ?_ ((removeMapping_edits nat id).coherent coherent) ?_
    · intro key
      refine (conserved key).removeMapping coherent id ?_
      intro mapping present _ pinned
      rw [dynamic id mem_cons_self mapping present] at pinned
      cases pinned
    · intro other member mapping present
      rw [table_removeMapping] at present
      split at present
      · cases present
      · exact dynamic other (mem_cons_of_mem _ member) mapping present

theorem Conserved.flushWhere {rank : MappingId → Nat} (coherent : nat.Coherent)
    (dynamic : ∀ mapping, doomed mapping → mapping.pinned = false) :
    (nat.flushWhere rank doomed).Conserved := by
  refine conserved.foldl_removeMapping coherent ?_
  intro id member mapping present
  rcases mem_map.mp member with ⟨⟨_, linked⟩, selected, rfl⟩
  rcases mem_filter.mp selected with ⟨listed, test⟩
  rw [table_of_get (mem_iter.mp listed)] at present
  cases present
  exact dynamic linked test

theorem Conserved.flushForEpoch {epoch : EpochId} {v4 : Ipv4Addr}
    {v6 : Option Ipv6Addr} (coherent : nat.Coherent) :
    (nat.flushForEpoch rank epoch v4 v6).Conserved := by
  have flushed : ∀ (nat : Napt) (changed family : Bool), nat.Conserved → nat.Coherent →
      (if changed then nat.flushFamily rank family else nat).Conserved ∧
      (if changed then nat.flushFamily rank family else nat).Coherent := by
    intro nat changed family conserved coherent
    cases changed with
    | false => exact ⟨conserved, coherent⟩
    | true =>
      rw [if_pos rfl]
      refine ⟨conserved.flushWhere coherent ?_, (flushWhere_edits nat rank _).coherent coherent⟩
      intro mapping test
      simp only [Bool.and_eq_true, Bool.not_eq_true'] at test
      exact test.2
  refine (flushed _ _ true ?_ ?_).1
  · exact (flushed nat _ false conserved coherent).1
  · exact (flushed nat _ false conserved coherent).2

/-! ### Packets -/

theorem Conserved.record {uplink : Bool} (present : nat.mappings.get id = some mapping) :
    (nat.record id (mapping.observe cap addr port flags now uplink) now).Conserved := by
  intro key
  have same := mapping.observe_sameIdentity cap addr port flags now uplink
  exact (conserved key).recorded (table_of_get present)
    ⟨same.owner, same.proto, same.internal, same.externalPort, same.pinned⟩
    (record_recorded (table_of_get present) _ now)

theorem Conserved.touchUplink (id : MappingId) :
    (nat.touchUplink id remote port flags now).Conserved := by
  unfold Napt.touchUplink
  split
  · exact conserved
  · rename_i present
    exact conserved.record present

theorem Conserved.room (sound : nat.Sound) (room : Room nat peer proto roomy) :
    roomy.Conserved := by
  rcases room with rfl | ⟨victim, oldest, _, _, rfl⟩
  · exact conserved
  · rcases sound.listed with ⟨order, listed⟩
    rcases listed.oldestOf oldest with ⟨own, present, dynamic, _⟩
    intro key
    refine (conserved key).removeMapping sound.coherent victim ?_
    intro mapping again _ pinned
    rw [present] at again
    cases again
    rw [dynamic] at pinned
    cases pinned

theorem Conserved.uplinkMapping {outcome : Except NatDrop MappingId} (sound : nat.Sound)
    (mapped : UplinkMapping nat peer proto internal now outcome after) :
    after.Conserved := by
  cases mapped with
  | known | refused => exact conserved
  | exhausted room empty =>
    rw [setAllocator_self]
    exact conserved.room sound room
  | created unused room free taken =>
    have roomyCoherent := room.edits.coherent sound.coherent
    intro key
    exact (conserved.room sound room key).opened roomyCoherent
      ((allocate_edit roomyCoherent taken).coherent roomyCoherent) free taken

end

variable (engine : ChecksumEngine)

theorem Conserved.translateUplink (conserved : nat.Conserved)
    (sound : nat.Sound) (peer : PeerId) (pkt : List UInt8) (now : Instant) (draw : Nat) :
    (nat.translateUplink engine peer pkt now draw).2.2.Conserved := by
  suffices uplinked : (nat.uplink engine peer pkt now draw).2.2.Conserved from
    fun key => uplinked key
  have outcome := uplink_case engine nat peer pkt now draw
  generalize nat.uplink engine peer pkt now draw = result at outcome ⊢
  cases outcome with
  | refused | icmpError => exact conserved
  | flow read current owner =>
    rename_i hdr flow external
    have outcome := uplinkFlow_case engine sound.coherent peer pkt hdr external flow now draw
    generalize nat.uplinkFlow engine peer pkt hdr external flow.proto
      flow.port flow.remotePort flow.flags now draw = result at outcome ⊢
    cases outcome with
    | refused mapped => exact conserved.uplinkMapping sound mapped
    | unwritable mapped => exact (conserved.uplinkMapping sound mapped).touchUplink _
    | sent mapped => exact (conserved.uplinkMapping sound mapped).touchUplink _

theorem Conserved.translateDownlink (conserved : nat.Conserved) (pkt : List UInt8) (now : Instant) :
    (nat.translateDownlink engine pkt now).2.2.Conserved := by
  suffices downlinked : (nat.downlink engine pkt now).2.2.Conserved from
    fun key => downlinked key
  have outcome := downlink_case engine nat pkt now
  generalize nat.downlink engine pkt now = result at outcome ⊢
  cases outcome with
  | refused | icmpError => exact conserved
  | flow read current =>
    rename_i hdr flow
    have outcome := downlinkFlow_case engine nat pkt hdr flow now
    generalize nat.downlinkFlow engine pkt hdr flow.proto flow.port
      flow.remotePort flow.flags now = result at outcome ⊢
    cases outcome with
    | refused => exact conserved
    | unwritable found present => exact conserved.record present
    | delivered found present => exact conserved.record present

/-! ### Sweeping -/

/-- A sweep gives back the ports it takes when no due mapping is a forward on a
port of the space. -/
theorem Conserved.sweepLoop (fuel removed : Nat) (conserved : nat.Conserved)
    (coherent : nat.Coherent) (harmless : ∀ id mapping, nat.table id = some mapping →
      nat.Due now id mapping → mapping.pinned → nat.inSpace mapping.inboundKey = false) :
    (Napt.sweepLoop now fuel removed nat).2.Conserved := by
  induction fuel generalizing removed nat with
  | zero => exact conserved
  | succ fuel induction =>
    unfold Napt.sweepLoop
    split
    · exact conserved
    · rename_i deadline id rest heap
      split
      · exact conserved
      · rename_i notLater
        have isDue : deadline ≤ now := Nat.not_lt.mp notLater
        have popped : Napt.Coherent { nat with expiry := rest } :=
          coherent.congr rfl rfl rfl rfl rfl
        have edits := sweepEntry_edits { nat with expiry := rest } id now
        have round : (sweepEntry { nat with expiry := rest } id now).2.Conserved := by
          rcases sweepEntry_cases { nat with expiry := rest } id now with
            same | ⟨real, _, pushed⟩ | ⟨mapping, present, passed, gone⟩
          · rw [same]
            exact conserved
          · rw [pushed]
            exact conserved
          · rw [gone]
            intro key
            have settled : Napt.Settled { nat with expiry := rest } key := conserved key
            refine settled.removeMapping popped id ?_
            rintro other again rfl pinned
            rw [present] at again
            cases again
            refine harmless id mapping present ?_ pinned
            refine ⟨passed, deadline, isDue, ?_⟩
            rw [heap]
            exact mem_cons_self
        refine induction _ round (edits.coherent popped) ?_
        intro other mapping present due pinned
        rcases Due.of_sweepEntry heap present due with ⟨was, wasDue⟩
        have space := edits.contains popped mapping.internal.isIpv6
          mapping.proto mapping.externalPort
        exact space.trans (harmless other mapping was wasDue pinned)

theorem Conserved.sweep (conserved : nat.Conserved) (coherent : nat.Coherent)
    (keeps : nat.KeepsPorts (.sweep now)) : (nat.sweep now).2.Conserved := by
  refine conserved.sweepLoop _ _ coherent ?_
  rintro id mapping present ⟨passed, deadline, isDue, queued⟩ pinned
  rcases get_of_table present with ⟨linked, found, rfl⟩
  rw [Bool.eq_false_iff]
  intro inside
  have early := keeps id linked deadline found pinned inside queued isDue
  rw [deadlineOf, if_pos pinned] at passed
  exact absurd early (Nat.not_lt.mpr passed)

/-! ### Forwards -/

theorem setAllocator_unreserve (coherent : nat.Coherent) (proto : MapProto)
    (v6 : Bool) (externalPort : UInt16) (key : PortKey) :
    let unreserved := nat.setAllocator proto v6
      ((nat.ports v6 proto).unreserve externalPort).2
    unreserved.inSpace key = nat.inSpace key ∧
    unreserved.portView key =
      if key = (proto, v6, externalPort) then
        (nat.isFree key || nat.isReserved key, false, nat.holder key)
      else nat.portView key := by
  have becomes := (PortAllocator.unreserve_spec (coherent.valid v6 proto) externalPort).2
  rcases setAllocator_pools becomes key with ⟨space, free, reserved⟩
  refine ⟨space, ?_⟩
  have view : ∀ isFree isReserved : Bool, (Napt.isFree (nat.setAllocator proto v6
        ((nat.ports v6 proto).unreserve externalPort).2) key = true ↔ isFree = true) →
      (Napt.isReserved (nat.setAllocator proto v6
        ((nat.ports v6 proto).unreserve externalPort).2) key = true ↔ isReserved = true) →
      (nat.setAllocator proto v6 ((nat.ports v6 proto).unreserve externalPort).2).portView key =
        (isFree, isReserved, nat.holder key) := by
    intro isFree isReserved sameFree sameReserved
    rw [portView, Bool.eq_iff_iff.mpr sameFree, Bool.eq_iff_iff.mpr sameReserved]
    rfl
  split
  · subst key
    refine view _ _ (free.trans ?_) (reserved.trans ?_)
    · simp [Napt.isFree, Napt.isReserved]
    · simp
  · rename_i different
    refine view _ _ (free.trans ?_) (reserved.trans ?_)
    · split
      · rename_i pool
        simp [Napt.isFree, pool, port_ne_of_key_ne different pool]
      · rfl
    · split
      · rename_i pool
        simp [Napt.isReserved, pool, port_ne_of_key_ne different pool]
      · rfl

theorem Conserved.removeStatic (conserved : nat.Conserved)
    (coherent : nat.Coherent) (proto : MapProto) (externalPort : UInt16) (v6 : Bool) :
    (nat.removeStatic proto externalPort v6).2.Conserved := by
  unfold Napt.removeStatic
  split
  · exact conserved
  · rename_i id found
    split
    · exact conserved
    · rename_i isPinned
      rcases (coherent.inbound _ id).mp found with ⟨mapping, present, isKey⟩
      have pinned : mapping.pinned = true := by
        rcases get_of_table present with ⟨linked, stored, rfl⟩
        simpa [stored] using isPinned
      have removed := removeMapping_removed present
      intro key
      rcases setAllocator_unreserve
        ((removeMapping_edits nat id).coherent coherent) proto v6 externalPort
        key with ⟨space, view⟩
      rcases removed.pools coherent key with ⟨removedSpace, reserved, free⟩
      by_cases here : key = (proto, v6, externalPort)
      · intro inside
        rw [space, removedSpace] at inside
        have wasHeld := holder_inboundKey coherent present
        have held := removed.holder_eq coherent present key
        have was := (conserved key).state inside
        rw [isKey, ← here, pinned] at wasHeld
        rw [isKey, if_pos here] at held
        rw [wasHeld] at was
        refine ⟨.free, ?_⟩
        rw [view, if_pos here, held, reserved, was.2]
        simp [PortState.view]
      · refine Settled.congr ((conserved key).removed coherent present removed ?_)
          space (view.trans (if_neg here))
        rintro rfl
        exact absurd isKey here

theorem Reserved.portView_eq (coherent : before.Coherent)
    (reserved : Reserved before dnat after) (key : PortKey) :
    after.inSpace key = before.inSpace key ∧ after.portView key =
      if key = dnat.inboundKey then
        (false, before.isReserved key || before.inSpace key, before.holder key)
      else before.portView key := by
  refine ⟨reserved.edits.contains coherent _ _ _, ?_⟩
  have held : after.holder key = before.holder key := by
    rw [reserved.rest]
    rfl
  have free := reserved.free key.2.1 key.1 key.2.2
  have marked := reserved.reserved key.2.1 key.1 key.2.2
  rw [portView, held]
  split
  · rename_i here
    have notFree : after.isFree key = false := by
      rw [Bool.eq_false_iff, ne_eq, isFree, decide_eq_true_eq, free]
      exact fun both => both.2 here
    have isMarked : after.isReserved key = (before.isReserved key || before.inSpace key) := by
      rw [Bool.eq_iff_iff, Bool.or_eq_true]
      refine marked.trans (or_congr Iff.rfl ?_)
      exact ⟨fun both => both.1, fun inside => ⟨inside, here⟩⟩
    rw [notFree, isMarked]
  · rename_i different
    have sameFree : after.isFree key = before.isFree key := by
      rw [Bool.eq_iff_iff, isFree, isFree, decide_eq_true_eq, decide_eq_true_eq, free]
      exact ⟨fun both => both.1, fun wasFree => ⟨wasFree, different⟩⟩
    have sameReserved : after.isReserved key = before.isReserved key := by
      rw [Bool.eq_iff_iff]
      refine marked.trans ⟨?_, .inl⟩
      rintro (was | ⟨_, here⟩)
      · exact was
      · exact absurd here different
    rw [sameFree, sameReserved]
    rfl

theorem Settled.removeFound (settled : nat.Settled key)
    (coherent : nat.Coherent) (found : Option MappingId)
    (harmless : ∀ id mapping, found = some id → nat.table id = some mapping →
      key = mapping.inboundKey → mapping.pinned → nat.inSpace key = false) :
    (nat.removeFound found).Settled key := by
  cases found with
  | none => exact settled
  | some id => exact settled.removeMapping coherent id fun mapping => harmless id mapping rfl

/-- Removing a mapping is not noticed at a port that nobody holds. -/
theorem portView_removeFound (coherent : nat.Coherent)
    (found : Option MappingId) (unheld : nat.holder key = none) :
    (nat.removeFound found).portView key = nat.portView key := by
  cases found with
  | none => rfl
  | some id =>
    cases present : nat.table id with
    | none => rw [Napt.removeFound, removeMapping_absent present]
    | some mapping =>
      refine (removeMapping_removed present).portView_eq coherent present ?_
      rintro rfl
      rw [holder_inboundKey coherent present] at unheld
      cases unheld

theorem Settled.installForward (settled : nat.Settled key) (coherent : nat.Coherent)
    (different : key ≠ dnat.inboundKey)
    (harmless : ∀ id mapping, nat.outbound.get dnat.outboundKey = some id →
      nat.table id = some mapping → key = mapping.inboundKey →
      mapping.pinned → nat.inSpace key = false) (owner : PeerId) (now : Instant)
    : (nat.installForward dnat owner now).2.Settled key := by
  have first := settled.removeFound coherent _ harmless
  have firstCoherent := (removeFound_edits nat (nat.outbound.get
    dnat.outboundKey)).coherent coherent
  unfold Napt.installForward
  generalize nat.removeFound (nat.outbound.get dnat.outboundKey) = cleared at first firstCoherent ⊢
  have second := first.removeFound firstCoherent (cleared.inbound.get dnat.inboundKey) (by
      intro id mapping found present here
      rcases (firstCoherent.inbound _ id).mp found with ⟨_, again, isKey⟩
      rw [present] at again
      cases again
      exact absurd (here.trans isKey) different)
  have secondCoherent := (removeFound_edits cleared (cleared.inbound.get
    dnat.inboundKey)).coherent firstCoherent
  exact second.inserted secondCoherent (insertMapping_inserted _ rfl) different

theorem portView_installForward (coherent : nat.Coherent)
    (unheld : nat.holder dnat.inboundKey = none)
    (owner : PeerId) (now : Instant) : (nat.installForward dnat owner now).2.portView
        dnat.inboundKey =
      (nat.isFree dnat.inboundKey,
        nat.isReserved dnat.inboundKey, some true) := by
  have first := portView_removeFound coherent (nat.outbound.get dnat.outboundKey) unheld
  have firstCoherent := (removeFound_edits nat (nat.outbound.get
    dnat.outboundKey)).coherent coherent
  unfold Napt.installForward
  dsimp only
  generalize nat.removeFound (nat.outbound.get dnat.outboundKey) = cleared at first firstCoherent ⊢
  have stillUnheld := (congrArg (fun view => view.2.2) first).trans unheld
  have second := (portView_removeFound firstCoherent (cleared.inbound.get
    dnat.inboundKey) stillUnheld).trans
    first
  have secondCoherent := (removeFound_edits cleared (cleared.inbound.get
    dnat.inboundKey)).coherent firstCoherent
  generalize cleared.removeFound (cleared.inbound.get
    dnat.inboundKey) = emptied at second secondCoherent ⊢
  have inserted : Inserted emptied (pinnedMapping dnat owner now) _ :=
    insertMapping_inserted emptied rfl
  have self : (pinnedMapping dnat owner now).inboundKey = dnat.inboundKey := rfl
  rw [inserted.portView_eq secondCoherent, if_pos self.symm]
  simp only [portView, Prod.mk.injEq] at second
  rw [second.1, second.2.1]
  rfl

/-- An accepted forward takes its port from free to reserved and held. -/
theorem Conserved.addStatic (conserved : nat.Conserved)
    (coherent : nat.Coherent) (keeps : nat.KeepsPorts (.addStatic dnat now)) :
    (nat.addStatic dnat now).2.Conserved := by
  rcases addStatic_cases coherent dnat now with
    ⟨_, refusal, equal⟩ | ⟨accepted, owner, reserved, _, isReserved, equal⟩
  · rw [equal]
    exact conserved
  rw [equal]
  intro key
  have reservedCoherent := isReserved.edits.coherent coherent
  have sameTable : reserved.table = nat.table := by
    rw [isReserved.rest]
    rfl
  have sameOutbound : reserved.outbound = nat.outbound := by rw [isReserved.rest]
  rcases isReserved.portView_eq coherent key with ⟨space, view⟩
  by_cases here : key = dnat.inboundKey
  · have finalSpace : (reserved.installForward dnat owner now).2.inSpace key = nat.inSpace key :=
      ((installForward_edits reservedCoherent dnat owner now
        (isReserved.unavailable coherent)).contains reservedCoherent _ _ _).trans space
    intro inside
    rw [finalSpace] at inside
    subst key
    have wasFree := accepted.2 inside
    have unheld := holder_of_unused (coherent.inbound_of_free wasFree)
    rw [if_pos rfl, unheld, inside, Bool.or_true, portView] at view
    simp only [Prod.mk.injEq] at view
    refine ⟨.pinned, ?_⟩
    rw [portView_installForward reservedCoherent view.2.2, view.1, view.2.1]
    rfl
  · rw [if_neg here] at view
    refine ((conserved key).congr space view).installForward reservedCoherent here ?_ owner now
    intro id mapping found present isKey pinned
    rw [sameTable] at present
    rw [sameOutbound] at found
    rcases (coherent.outbound _ id).mp found with ⟨_, again, outboundKey⟩
    rw [present] at again
    cases again
    rcases get_of_table present with ⟨linked, stored, rfl⟩
    rw [space, isKey]
    exact keeps accepted id linked stored pinned outboundKey

/-! ## Runs -/

theorem Conserved.step (conserved : nat.Conserved) (sound : nat.Sound) (keeps : nat.KeepsPorts op) :
    (nat.step engine op).Conserved := by
  cases op with
  | setOwnership ownership => exact conserved
  | setExternal rank epoch v4 v6 => exact fun key => conserved.flushForEpoch sound.coherent key
  | addStatic dnat now => exact conserved.addStatic sound.coherent keeps
  | removeStatic proto externalPort v6 =>
    exact conserved.removeStatic sound.coherent proto externalPort v6
  | flushPeer rank peer =>
    refine conserved.flushWhere sound.coherent ?_
    intro mapping test
    simp only [Bool.and_eq_true, Bool.not_eq_true'] at test
    exact test.2
  | sweep now => exact conserved.sweep sound.coherent keeps
  | translateUplink peer pkt now draw =>
    exact conserved.translateUplink engine sound peer pkt now draw
  | translateDownlink pkt now => exact conserved.translateDownlink engine pkt now

def Holds (nat : Napt) (id : MappingId) (key : PortKey) (pinned : Bool) : Prop :=
  ∃ mapping, nat.mappings.get id = some mapping ∧
    (mapping.proto, mapping.internal.isIpv6, mapping.externalPort) = key ∧ mapping.pinned = pinned

theorem Holds.inbound (coherent : nat.Coherent)
    (holds : nat.Holds id key pinned) : nat.inbound.get key = some id := by
  rcases holds with ⟨mapping, present, rfl, _⟩
  exact coherent.inbound_get present

theorem Holds.holder (coherent : nat.Coherent) (holds : nat.Holds id key pinned)
    : nat.holder key = some pinned := by
  rcases holds with ⟨mapping, present, rfl, rfl⟩
  have held := holder_inboundKey coherent (table_of_get present)
  exact held

/-- Whoever holds a port is the only one, and of the one kind. -/
theorem holds_of_holder (coherent : nat.Coherent) (held : nat.holder key = some pinned) :
    (∃! id, nat.Holds id key pinned) ∧ ∀ id, ¬ nat.Holds id key (!pinned) := by
  rcases map_eq_some_iff.mp held with ⟨mapping, found, isPinned⟩
  rcases bind_eq_some_iff.mp found with ⟨id, indexed, present⟩
  rcases (coherent.inbound key id).mp indexed with ⟨_, again, rfl⟩
  rw [present] at again
  cases again
  rcases get_of_table present with ⟨linked, stored, rfl⟩
  refine ⟨⟨id, ⟨linked, stored, rfl, isPinned⟩, ?_⟩, ?_⟩
  · intro other holds
    exact Option.some.inj ((holds.inbound coherent).symm.trans indexed)
  · intro other holds
    have both := Option.some.inj ((holds.holder coherent).symm.trans held)
    cases pinned <;> cases both

theorem run_conserved (config : NatConfig) (ops : List Op)
    (guarded : Execution.Guarded (step engine) KeepsPorts (new config) ops) :
    (run engine config ops).Conserved :=
  (Execution.run_history (step engine) (fun _ nat => nat.Sound ∧ nat.Conserved)
    ⟨run_sound engine config [], Conserved.new config⟩
    (fun _ op holds keeps => ⟨holds.1.step engine op,
      holds.2.step engine holds.1 keeps⟩) ops guarded).2

/-- Every port that was configured is free and unheld, or held by exactly one
dynamic mapping, or reserved and held by exactly one forward, as long as no
forward is replaced by target or swept. -/
theorem run_ports_conserved (engine : ChecksumEngine) (config : NatConfig) (ops : List Op)
    (guarded : Execution.Guarded (step engine) KeepsPorts (new config) ops)
    (proto : MapProto) (v6 : Bool) (port : UInt16)
    (configured : ((new config).ports v6 proto).contains port = true) :
    let nat := run engine config ops
    let allocator := nat.ports v6 proto
    let key := (proto, v6, port)
    (port ∈ allocator.free ∧ allocator.isReserved port = false ∧
      ∀ id pinned, ¬ nat.Holds id key pinned) ∨
    (port ∉ allocator.free ∧ allocator.isReserved port = false ∧
      (∃! id, nat.Holds id key false) ∧ ∀ id, ¬ nat.Holds id key true) ∨
    (port ∉ allocator.free ∧ allocator.isReserved port = true ∧
      (∃! id, nat.Holds id key true) ∧ ∀ id, ¬ nat.Holds id key false) := by
  intro nat allocator key
  have coherent := run_coherent engine config ops
  have inside : nat.inSpace key = true :=
    (run_contains engine config ops v6 proto port).trans configured
  rcases run_conserved engine config ops guarded key inside with ⟨state, view⟩
  cases state with
  | free =>
    simp only [portView, PortState.view, Prod.mk.injEq] at view
    refine .inl ⟨of_decide_eq_true view.1, view.2.1, ?_⟩
    intro id pinned holds
    exact absurd (view.2.2.symm.trans (holds.holder coherent)) (by simp)
  | dynamic =>
    simp only [portView, PortState.view, Prod.mk.injEq] at view
    exact .inr (.inl ⟨of_decide_eq_false view.1, view.2.1, holds_of_holder coherent view.2.2⟩)
  | pinned =>
    simp only [portView, PortState.view, Prod.mk.injEq] at view
    exact .inr (.inr ⟨of_decide_eq_false view.1, view.2.1, holds_of_holder coherent view.2.2⟩)

/-- The first forward of a gateway keeps its port. -/
theorem run_ports_conserved_forward :
    let nat := run Sample.engine Sample.config
      (Sample.start ++ [.addStatic Sample.forward 10])
    ((new Sample.config).ports false .tcp).contains 40002 = true ∧
    ∃! id, nat.Holds id (.tcp, false, 40002) true := by
  have configured : ((new Sample.config).ports false .tcp).contains 40002 = true := by
    decide +kernel
  refine ⟨configured, ?_⟩
  have reserved : ((run Sample.engine Sample.config
      (Sample.start ++ [.addStatic Sample.forward 10])).ports false
      .tcp).isReserved 40002 = true := by
    decide +kernel
  rcases run_ports_conserved Sample.engine Sample.config
    (Sample.start ++ [.addStatic Sample.forward 10]) (by
      refine Execution.Guarded.cons _ trivial ?_
      refine Execution.Guarded.cons _ trivial ?_
      refine Execution.Guarded.cons _ ?_ (Execution.Guarded.nil _ _)
      intro _ id mapping present
      cases present)
    .tcp false 40002 configured with free | dynamic | pinned
  · exact absurd (free.2.1.symm.trans reserved) (by simp)
  · exact absurd (dynamic.2.1.symm.trans reserved) (by simp)
  · exact pinned.2.2.1

/-- A second forward for the same target leaves the port of the first one
reserved, held by nobody and beyond the reach of a removal. -/
theorem run_loses_port :
    let nat := run Sample.engine Sample.config (Sample.start ++
      [.addStatic Sample.forward 10, .addStatic { Sample.forward with externalPort := 40003 } 11])
    ((new Sample.config).ports false .tcp).contains 40002 = true ∧
    40002 ∉ (nat.ports false .tcp).free ∧
    (nat.ports false .tcp).isReserved 40002 = true ∧
    nat.inbound.get (.tcp, false, 40002) = none ∧
    (nat.removeStatic .tcp 40002 false).1 = false := by
  decide +kernel

end WarrenSdk.Bolthole.Napt
