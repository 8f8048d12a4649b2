import WarrenSdk.Bolthole.Napt.Packets

/-! # Where mappings come from and where they go

The table after an operation in terms of the table before it. Removal is a
filter on the table, forwards and flows are the only sources of mappings, and
the packet that reaches a mapping is the only thing that changes one. -/

namespace WarrenSdk.Bolthole.Napt

open List Option

variable {nat : Napt}

/-! ## Removing is filtering -/

theorem table_removeMapping (nat : Napt) (id other : MappingId) :
    (nat.removeMapping id).table other = if other = id then none else nat.table other := by
  cases present : nat.table id with
  | none =>
    rw [removeMapping_absent present]
    split
    · rename_i here
      rw [here, present]
    · rfl
  | some mapping => exact (removeMapping_removed present).table other

theorem table_foldl_removeMapping (nat : Napt) (ids : List MappingId) (other : MappingId) :
    (ids.foldl removeMapping nat).table other =
      if other ∈ ids then none else nat.table other := by
  induction ids generalizing nat with
  | nil => simp
  | cons id ids induction =>
    rw [foldl_cons, induction, table_removeMapping]
    by_cases here : other = id
    · simp [here]
    · simp [here]

theorem table_flushWhere (nat : Napt) (rank : MappingId → Nat)
    (linkless : ∀ mapping, doomed mapping.unlinked = doomed mapping) (other : MappingId) :
    (nat.flushWhere rank doomed).table other =
      (nat.table other).filter fun mapping => !doomed mapping := by
  rw [flushWhere, table_foldl_removeMapping]
  cases found : nat.mappings.get other with
  | none =>
    rw [table_eq_none.mpr found]
    simp
  | some mapping =>
    have member : other ∈ ((nat.mappings.iter rank).filter fun entry =>
        doomed entry.2).map Prod.fst ↔ doomed mapping = true := by
      rw [List.mem_map]
      constructor
      · rintro ⟨⟨_, same⟩, selected, rfl⟩
        rcases mem_filter.mp selected with ⟨listed, test⟩
        rw [HashMap.mem_iter.mp listed] at found
        rw [← Option.some.inj found]
        exact test
      · intro test
        exact ⟨(other, mapping), mem_filter.mpr ⟨HashMap.mem_iter.mpr found, test⟩, rfl⟩
    rw [table_of_get found]
    by_cases test : doomed mapping = true
    · rw [if_pos (member.mpr test)]
      simp [filter_some, linkless, test]
    · rw [if_neg (mt member.mp test)]
      simp [filter_some, linkless, test]

theorem table_flushFamily (nat : Napt) (rank : MappingId → Nat) (v6 : Bool) (other : MappingId) :
    (nat.flushFamily rank v6).table other = (nat.table other).filter fun mapping =>
        !(mapping.internal.isIpv6 = v6 && !mapping.pinned) :=
  nat.table_flushWhere rank (fun _ => rfl) other

theorem table_flushPeer (nat : Napt) (rank : MappingId → Nat) (peer : PeerId) (other : MappingId) :
    (nat.flushPeer rank peer).table other = (nat.table other).filter fun mapping =>
        !(mapping.owner = peer && !mapping.pinned) :=
  nat.table_flushWhere rank (fun _ => rfl) other

def ChangesFamily (nat : Napt) (epoch : EpochId) (v4 : Ipv4Addr)
    (v6 : Option Ipv6Addr) (family : Bool) : Bool :=
  !(nat.exit = some epoch.exit && (if family then nat.v6 = v6 else nat.v4 = some v4))

/-- An epoch keeps the forwards, and the flows of a family that it does not
change. -/
theorem table_setExternal (nat : Napt) (rank : MappingId → Nat)
    (epoch : EpochId) (v4 : Ipv4Addr) (v6 : Option Ipv6Addr) (other : MappingId) :
    (nat.setExternal rank epoch v4 v6).table other =
      (nat.table other).filter fun mapping => mapping.pinned ||
        !nat.ChangesFamily epoch v4 v6 mapping.internal.isIpv6 := by
  have flushed : ∀ (nat : Napt) (changed : Bool) (family : Bool),
      (if changed then nat.flushFamily rank family else nat).table other =
        (nat.table other).filter fun mapping => mapping.pinned ||
          !(mapping.internal.isIpv6 = family && changed) := by
    intro nat changed family
    cases changed with
    | false =>
      rw [if_neg (by simp)]
      cases nat.table other with
      | none => rfl
      | some mapping => simp [Option.filter_some]
    | true =>
      rw [if_pos rfl, table_flushFamily]
      congr 1
      funext mapping
      cases mapping.pinned with
      | true | false => simp
  have first := flushWhere_edits nat rank fun mapping =>
    mapping.internal.isIpv6 = false && !mapping.pinned
  have keepsV6 : ∀ changed : Bool,
      (if changed then nat.flushFamily rank false else nat).v6 = nat.v6 := by
    intro changed
    cases changed with
    | true => exact congrArg Settings.v6 first.settings
    | false => rfl
  have unfolded : (nat.setExternal rank epoch v4 v6).table other =
      (nat.flushForEpoch rank epoch v4 v6).table other := rfl
  rw [unfolded, flushForEpoch, keepsV6, flushed, flushed, Option.filter_filter]
  congr 1
  funext mapping
  simp only [ChangesFamily]
  cases mapping.pinned with
  | true => simp
  | false =>
    cases mapping.internal.isIpv6 with
    | true | false => simp

/-- Removing what an index finds under a key removes the mapping with that
key. -/
theorem table_removeFound [DecidableEq Key]
    (indexes : Indexes index nat.table key) (wanted : Key) (other : MappingId) :
    (nat.removeFound (index.get wanted)).table other =
      (nat.table other).filter fun mapping => key mapping ≠ wanted := by
  cases present : nat.table other with
  | none =>
    cases index.get wanted with
    | none => exact present
    | some id => simp [removeFound, table_removeMapping, present]
  | some mapping =>
    rw [filter_some]
    by_cases here : key mapping = wanted
    · subst wanted
      rw [indexes.get present]
      simp [removeFound, table_removeMapping]
    · cases found : index.get wanted with
      | none => simp [removeFound, present, here]
      | some id =>
        have different : other ≠ id := by
          rintro rfl
          rcases (indexes wanted other).mp found with ⟨same, again, rfl⟩
          rw [present] at again
          exact here (by rw [Option.some.inj again])
        simp [removeFound, table_removeMapping, present, here, different]

/-- Removing a forward removes the pinned mapping that holds the port. -/
theorem table_removeStatic (coherent : nat.Coherent) (proto : MapProto)
    (externalPort : UInt16) (v6 : Bool) (other : MappingId) :
    (nat.removeStatic proto externalPort v6).2.table other = (nat.table other).filter fun mapping =>
        !(mapping.pinned && mapping.inboundKey = (proto, v6, externalPort)) := by
  have keep : ∀ test : Mapping → Bool,
      (∀ mapping, nat.table other = some mapping → test mapping = true) →
      nat.table other = (nat.table other).filter test := by
    intro test passes
    cases present : nat.table other with
    | none => rfl
    | some mapping => rw [filter_some, if_pos (passes mapping present)]
  unfold removeStatic
  split
  · rename_i unused
    refine keep _ ?_
    intro mapping present
    have differs := coherent.inbound.ne_of_unused unused present
    simp [differs]
  · rename_i id found
    rcases (coherent.inbound _ id).mp found with ⟨_, present, key⟩
    rcases get_of_table present with ⟨mapping, stored, rfl⟩
    rw [Mapping.unlinked_inboundKey] at key
    simp only [stored, any_some]
    cases pinned : mapping.pinned with
    | false =>
      simp only [Bool.not_false, if_true]
      refine keep _ ?_
      intro otherMapping otherPresent
      by_cases sameKey : otherMapping.inboundKey = (proto, v6, externalPort)
      · have same : other = id := coherent.inbound.unique otherPresent present
          (sameKey.trans key.symm)
        subst other
        rw [present] at otherPresent
        cases otherPresent
        simp [pinned]
      · simp [sameKey]
    | true =>
      simp only [Bool.not_true, Bool.false_eq_true, if_false]
      have filtered := table_removeFound coherent.inbound (proto, v6, externalPort) other
      rw [found] at filtered
      refine Eq.trans (b := (nat.removeMapping id).table other) rfl ?_
      refine filtered.trans ?_
      cases otherPresent : nat.table other with
      | none => rfl
      | some otherMapping =>
        rw [filter_some, filter_some]
        by_cases sameKey : otherMapping.inboundKey = (proto, v6, externalPort)
        · have same : other = id := coherent.inbound.unique otherPresent
            present (sameKey.trans key.symm)
          subst other
          rw [present] at otherPresent
          cases otherPresent
          simp [sameKey, pinned]
        · simp [sameKey]

/-! ## Forwards -/

/-- A forward is accepted: its target has an owner, and its port fits. -/
def Accepts (nat : Napt) (dnat : StaticDnat) : Prop :=
  nat.ownership.ownerOf dnat.target.ip ≠ none ∧ nat.PortFits dnat

def Displaces (dnat : StaticDnat) (mapping : Mapping) : Bool :=
  mapping.outboundKey = (dnat.proto, dnat.target.ip, dnat.target.port) ||
    mapping.inboundKey = (dnat.proto, dnat.target.isIpv6, dnat.externalPort)

theorem nextId_removeMapping (nat : Napt) (id : MappingId) :
    (nat.removeMapping id).nextId = nat.nextId := by
  cases present : nat.table id with
  | none => rw [removeMapping_absent present]
  | some mapping => exact (removeMapping_removed present).nextId

theorem nextId_removeFound (nat : Napt) (found : Option MappingId) :
    (nat.removeFound found).nextId = nat.nextId := by
  cases found with
  | none => rfl
  | some id => exact nextId_removeMapping nat id

theorem table_installForward (coherent : nat.Coherent) (dnat : StaticDnat)
    (owner : PeerId) (now : Instant) : (nat.installForward dnat owner now).1 = ⟨nat.nextId⟩ ∧
    ∀ other, (nat.installForward dnat owner now).2.table other =
      if other = ⟨nat.nextId⟩ then some (pinnedMapping dnat owner now)
      else (nat.table other).filter fun mapping => !Displaces dnat mapping := by
  have firstCoherent := (removeFound_edits nat (nat.outbound.get
    dnat.outboundKey)).coherent coherent
  have firstTable := table_removeFound coherent.outbound dnat.outboundKey
  have firstNext := nextId_removeFound nat
    (nat.outbound.get dnat.outboundKey)
  unfold installForward
  dsimp only
  generalize nat.removeFound (nat.outbound.get dnat.outboundKey) = cleared at firstCoherent firstTable firstNext ⊢
  have secondTable := table_removeFound firstCoherent.inbound dnat.inboundKey
  have secondNext := (nextId_removeFound cleared (cleared.inbound.get
    dnat.inboundKey)).trans firstNext
  generalize cleared.removeFound (cleared.inbound.get dnat.inboundKey) = emptied at secondTable secondNext ⊢
  have inserted : Inserted emptied (pinnedMapping dnat owner now) _ :=
    insertMapping_inserted emptied rfl
  refine ⟨by rw [← secondNext]; rfl, ?_⟩
  intro other
  rw [inserted.table, secondNext, secondTable, firstTable, Option.filter_filter]
  split
  · rfl
  · congr 1
    funext mapping
    simp [Displaces]

/-- A forward is refused and changes nothing, or is accepted and stands under
the next identifier. -/
theorem addStatic_cases (coherent : nat.Coherent) (dnat : StaticDnat) (now : Instant) :
    (¬ nat.Accepts dnat ∧ ∃ refusal, nat.addStatic dnat now = (.error refusal, nat)) ∨
    (nat.Accepts dnat ∧ ∃ owner reserved, nat.ownership.ownerOf dnat.target.ip = some owner ∧
      Reserved nat dnat reserved ∧ nat.addStatic dnat now = (.ok ⟨nat.nextId⟩,
        (reserved.installForward dnat owner now).2)) := by
  unfold addStatic Accepts
  cases owned : nat.ownership.ownerOf dnat.target.ip with
  | none => exact .inl ⟨fun both => both.1 rfl, _, rfl⟩
  | some owner =>
    rcases reserveForward_spec coherent dnat with
      ⟨unfit, refusal, equal⟩ | ⟨fits, after, equal, reserved⟩
    · simp only [equal]
      exact .inl ⟨fun both => unfit both.2, _, rfl⟩
    · simp only [equal]
      have next : (after.installForward dnat owner now).1 = ⟨nat.nextId⟩ := by
        rw [(table_installForward (reserved.edits.coherent coherent) dnat
          owner now).1, reserved.rest]
      rw [next]
      exact .inr ⟨⟨by simp, fits⟩, owner, after, rfl, reserved, rfl⟩

theorem table_addStatic (coherent : nat.Coherent)
    (isReserved : Reserved nat dnat reserved) (owner : PeerId) (now : Instant) (other : MappingId) :
    (reserved.installForward dnat owner now).2.table other =
      if other = ⟨nat.nextId⟩ then some (pinnedMapping dnat owner now)
      else (nat.table other).filter fun mapping => !Displaces dnat mapping := by
  have sameTable : reserved.table = nat.table := by
    rw [isReserved.rest]
    rfl
  have sameNext : reserved.nextId = nat.nextId := by rw [isReserved.rest]
  rw [(table_installForward (isReserved.edits.coherent coherent) dnat owner
    now).2, sameTable, sameNext]

/-! ## Expiry -/

/-- The heap holds a due entry for the mapping, and its own deadline has
passed. -/
def Due (nat : Napt) (now : Instant) (id : MappingId) (mapping : Mapping) :
    Prop :=
  nat.deadlineOf mapping ≤ now ∧ ∃ deadline, deadline ≤ now ∧ (deadline, id) ∈ nat.expiry

/-- One round of the sweep drops a stale entry, queues the real deadline, or
removes a mapping whose deadline has passed. -/
theorem sweepEntry_cases (nat : Napt) (id : MappingId) (now : Instant) :
    (nat.sweepEntry id now).2 = nat ∨
    (∃ real, now < real ∧ (nat.sweepEntry id now).2 = nat.pushExpiry real id) ∨
    ∃ mapping, nat.table id = some mapping ∧ nat.deadlineOf mapping ≤ now ∧
      (nat.sweepEntry id now).2 = nat.removeMapping id := by
  unfold sweepEntry
  split
  · exact .inl rfl
  · rename_i mapping found
    dsimp only
    split
    · rename_i later
      exact .inr (.inl ⟨_, later, rfl⟩)
    · rename_i passed
      exact .inr (.inr ⟨_, table_of_get found, Nat.not_lt.mp passed, rfl⟩)

theorem expiry_removeMapping (nat : Napt) (id : MappingId) :
    (nat.removeMapping id).expiry = nat.expiry := by
  cases present : nat.table id with
  | none => rw [removeMapping_absent present]
  | some mapping => rw [(removeMapping_removed present).rest]

/-- A round of the sweep adds no due entry. -/
theorem mem_expiry_sweepEntry {id : MappingId} (due : deadline ≤ now)
    (member : (deadline, other) ∈ (nat.sweepEntry id now).2.expiry) :
    (deadline, other) ∈ nat.expiry := by
  rcases sweepEntry_cases nat id now with same | ⟨real, later, pushed⟩ | ⟨_, _, _, removed⟩
  · rwa [same] at member
  · rw [pushed, pushExpiry, mem_orderedInsert] at member
    rcases member with new | old
    · cases new
      exact absurd due (Nat.not_le.mpr later)
    · exact old
  · rwa [removed, expiry_removeMapping] at member

theorem table_sweepEntry (nat : Napt) (id : MappingId) (now : Instant) (other : MappingId) :
    (nat.sweepEntry id now).2.table other = nat.table other ∨
    ((nat.sweepEntry id now).2.table other = none ∧ other = id ∧
      ∃ mapping, nat.table other = some mapping ∧ nat.deadlineOf mapping ≤ now) := by
  rcases sweepEntry_cases nat id now with
    same | ⟨real, later, pushed⟩ | ⟨mapping, present, passed, removed⟩
  · exact .inl (by rw [same])
  · exact .inl (by rw [pushed]; rfl)
  · rw [removed, table_removeMapping]
    by_cases here : other = id
    · subst other
      exact .inr ⟨if_pos rfl, rfl, mapping, present, passed⟩
    · exact .inl (if_neg here)

theorem deadlineOf_congr {before after : Napt}
    (config : after.config = before.config) (mapping : Mapping) :
    after.deadlineOf mapping = before.deadlineOf mapping := by
  simp only [deadlineOf, config]

theorem Due.of_sweepEntry {rest : List (Instant × MappingId)}
    {deadline now : Instant} {id : MappingId}
    (heap : nat.expiry = (deadline, id) :: rest)
    (present : (sweepEntry { nat with expiry := rest } id now).2.table other = some mapping)
    (due : (sweepEntry { nat with expiry := rest } id now).2.Due now other mapping) :
    nat.table other = some mapping ∧ nat.Due now other mapping := by
  have config := congrArg Settings.config
    (sweepEntry_edits { nat with expiry := rest } id now).settings
  rcases due with ⟨passed, earlier, isDue, member⟩
  refine ⟨?_, (deadlineOf_congr config mapping).symm.le.trans passed, earlier, isDue, ?_⟩
  · rcases table_sweepEntry { nat with expiry := rest } id now other with
      same | ⟨gone, _⟩
    · exact same.symm.trans present
    · rw [gone] at present
      cases present
  · rw [heap]
    exact mem_cons_of_mem _ (mem_expiry_sweepEntry isDue member)

/-- The sweep removes only what is due. -/
theorem table_sweepLoop (now : Instant) (fuel removed : Nat) (nat : Napt) (other : MappingId) :
    (sweepLoop now fuel removed nat).2.table other = nat.table other ∨
    ((sweepLoop now fuel removed nat).2.table other = none ∧
      ∃ mapping, nat.table other = some mapping ∧ nat.Due now other mapping) := by
  induction fuel generalizing removed nat with
  | zero => exact .inl rfl
  | succ fuel induction =>
    unfold sweepLoop
    split
    · exact .inl rfl
    · rename_i deadline id rest heap
      split
      · exact .inl rfl
      · rename_i notLater
        have isDue : deadline ≤ now := Nat.not_lt.mp notLater
        dsimp only
        rcases induction (removed + _) _ with kept | ⟨gone, mapping, was, due⟩
        · rw [kept]
          rcases table_sweepEntry { nat with expiry := rest } id now other
            with same | ⟨gone, rfl, mapping, present, passed⟩
          · exact .inl same
          · refine .inr ⟨gone, mapping, present, passed, deadline, isDue, ?_⟩
            rw [heap]
            exact mem_cons_self
        · exact .inr ⟨gone, mapping, Due.of_sweepEntry heap was due⟩

theorem table_sweep (nat : Napt) (now : Instant) (other : MappingId) :
    (nat.sweep now).2.table other = nat.table other ∨ ((nat.sweep now).2.table other = none ∧
      ∃ mapping, nat.table other = some mapping ∧ nat.Due now other mapping) :=
  table_sweepLoop now _ _ nat other

theorem length_due_sweepEntry (nat : Napt) (id : MappingId) (now : Instant) :
    ((nat.sweepEntry id now).2.expiry.filter fun entry =>
      entry.1 ≤ now).length ≤
      (nat.expiry.filter fun entry => entry.1 ≤ now).length := by
  rcases sweepEntry_cases nat id now with same | ⟨real, later, pushed⟩ | ⟨_, _, _, removed⟩
  · rw [same]
  · have permuted := ((perm_orderedInsert dueBefore (real, id)
      nat.expiry).filter fun entry => entry.1 ≤ now).length_eq
    rw [pushed, pushExpiry, permuted, filter_cons_of_neg (by simpa using later)]
  · rw [removed, expiry_removeMapping]

/-- The rounds that the heap's length allows are enough: the sweep stops at an
entry that is not due yet, or at an empty heap. -/
theorem sweepLoop_drains (now : Instant) (fuel removed : Nat) (nat : Napt)
    (enough : (nat.expiry.filter fun entry => entry.1 ≤ now).length ≤ fuel) :
    ∀ entry ∈ (sweepLoop now fuel removed nat).2.expiry.head?, now < entry.1 := by
  induction fuel generalizing removed nat with
  | zero =>
    intro entry first
    have nothingDue : nat.expiry.filter (fun entry => entry.1 ≤ now) = [] :=
      length_eq_zero_iff.mp (Nat.le_zero.mp enough)
    have notDue := filter_eq_nil_iff.mp nothingDue entry (mem_of_mem_head? first)
    simpa using notDue
  | succ fuel induction =>
    unfold sweepLoop
    split
    · rename_i empty
      intro entry first
      rw [empty] at first
      exact absurd first (by simp)
    · rename_i deadline id rest heap
      split
      · rename_i later
        intro entry first
        rw [heap] at first
        cases first
        exact later
      · rename_i notLater
        have isDue : deadline ≤ now := Nat.not_lt.mp notLater
        refine induction _ _ ?_
        rw [heap, filter_cons_of_pos (by simpa using isDue), length_cons] at enough
        exact Nat.le_trans (length_due_sweepEntry _ id now) (Nat.le_of_succ_le_succ enough)

theorem sweep_drains (nat : Napt) (now : Instant) : (nat.sweep now).2.expiry.head? = none ∨
      ∃ entry, (nat.sweep now).2.expiry.head? = some entry ∧ now < entry.1 := by
  cases first : (nat.sweep now).2.expiry.head? with
  | none => exact .inl rfl
  | some entry =>
    refine .inr ⟨entry, rfl, ?_⟩
    exact sweepLoop_drains now _ _ nat (length_filter_le _ _) entry first

end WarrenSdk.Bolthole.Napt
