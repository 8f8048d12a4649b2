import WarrenSdk.Bolthole.Napt.Changes

/-! # Epochs

When the exit or the address of a family changes, the dynamic mappings of the
family go, so every one that is there was opened under the address that is
current now. Packets are translated onto that address only, and forwards stay
through every epoch. -/

namespace WarrenSdk.Bolthole.Napt

variable (engine : ChecksumEngine) (config : NatConfig)

def assigned (family : Bool) (ops : List Op) : Option IpAddr :=
  ops.foldl (fun current op =>
    match op with
    | .setExternal _ _ v4 v6 =>
      if family then v6.map IpAddr.v6 else some (.v4 v4)
    | _ => current) none

/-- An operation leaves the exit and the address of a family as they are. -/
def KeepsFamily (family : Bool) (nat : Napt) : Op → Prop
  | .setExternal _ epoch v4 v6 => nat.ChangesFamily epoch v4 v6 family = false
  | _ => True

/-- A packet opened the mapping, which has been there since, and no operation
since then changed the exit or the address of the family. -/
def OpenedThisEpoch (past : List Op) (id : MappingId) (family : Bool) : Prop :=
  ∃ before peer pkt now draw after, past = before ++ .translateUplink peer pkt now draw :: after ∧
    (run engine config before).mappings.get id = none ∧
    Execution.HoldsSince (step engine) (new config)
      (before ++ [.translateUplink peer pkt now draw]) after
      (fun nat => (nat.mappings.get id).isSome) ∧
    Execution.Guarded (step engine) (KeepsFamily family)
      (run engine config (before ++ [.translateUplink peer pkt now draw])) after

variable {engine config} {id : MappingId}

variable {nat : Napt}

theorem get_isSome_of_table (present : nat.table id = some mapping) :
    (nat.mappings.get id).isSome := by
  rcases get_of_table present with ⟨linked, found, _⟩
  rw [found]
  rfl

theorem OpenedThisEpoch.extend (opened : OpenedThisEpoch engine config past id family)
    (present : ((run engine config (past ++ [op])).mappings.get id).isSome)
    (keeps : KeepsFamily family (run engine config past) op) :
    OpenedThisEpoch engine config (past ++ [op]) id family := by
  rcases opened with ⟨before, peer, pkt, now, draw, after, rfl, absent, since, guarded⟩
  refine ⟨before, peer, pkt, now, draw, after ++ [op], by simp, absent, ?_, ?_⟩
  · refine Execution.HoldsSince.extend _ since ?_
    simpa [run] using present
  · refine Execution.Guarded.snoc _ guarded ?_
    rw [run, ← Execution.run_append]
    simpa [run] using keeps

/-- A dynamic mapping that is still there after an operation belongs to a
family that the operation keeps. -/
theorem keepsFamily_of_present (present : (nat.step engine op).table id = some mapping)
    (dynamic : mapping.pinned = false) : KeepsFamily mapping.internal.isIpv6 nat op := by
  cases op with
  | setExternal rank epoch v4 v6 =>
    rw [step, table_setExternal, Option.filter_eq_some_iff] at present
    have kept := present.2
    rw [dynamic] at kept
    simpa [KeepsFamily] using kept
  | _ => trivial

theorem run_openedThisEpoch (engine : ChecksumEngine) (config : NatConfig) (ops : List Op) :
    ∀ id mapping, (run engine config ops).table id = some mapping → mapping.pinned = false →
      OpenedThisEpoch engine config ops id mapping.internal.isIpv6 := by
  induction ops using List.reverseRecOn with
  | nil =>
    intro id mapping present
    exact absurd present (by simp [run, table_new])
  | append_singleton past op induction =>
    intro id mapping present dynamic
    have change := step_change engine (run_sound engine config past) op id
    rw [← run_snoc, present] at change
    have stays := get_isSome_of_table present
    have keeps : KeepsFamily mapping.internal.isIpv6 (run engine config past) op := by
      rw [run_snoc] at present
      exact keepsFamily_of_present present dynamic
    -- A mapping that was there before only has to outlast the operation.
    have extend : ∀ earlier : Mapping, earlier.SameIdentity mapping →
        (run engine config past).table id = some earlier →
        OpenedThisEpoch engine config (past ++ [op]) id
          mapping.internal.isIpv6 := by
      intro earlier same was
      have opened := induction id earlier was (same.pinned.symm.trans dynamic)
      rw [← same.internal] at opened
      exact opened.extend stays keeps
    generalize before : (run engine config past).table id = entry at change
    cases change with
    | same => exact extend mapping ⟨rfl, rfl, rfl, rfl, rfl⟩ before
    | opened read owner next known marked =>
      exact ⟨past, _, _, _, _, [], rfl, table_eq_none.mp before,
        Execution.HoldsSince.start _ stays, Execution.Guarded.nil _ _⟩
    | sent read owner owned key marked | received read key admitted marked =>
      exact extend _ (Mapping.SameIdentity.of_observe marked) before
    | pinned => exact absurd dynamic (by simp [pinnedMapping])

/-! ## The current address -/

theorem Edits.external (edits : Edits before after) (family : Bool) :
    after.external family = before.external family := by
  have v4 : after.v4 = before.v4 := congrArg Settings.v4 edits.settings
  have v6 : after.v6 = before.v6 := congrArg Settings.v6 edits.settings
  simp only [Napt.external, v4, v6]

theorem step_external (engine : ChecksumEngine) (coherent : nat.Coherent)
    (op : Op) (family : Bool) : (nat.step engine op).external family =
      match op with
      | .setExternal _ _ v4 v6 =>
        if family then v6.map IpAddr.v6 else some (.v4 v4)
      | _ => nat.external family := by
  cases op with
  | setExternal rank epoch v4 v6 => cases family <;> rfl
  | setOwnership ownership => rfl
  | addStatic dnat now => exact (addStatic_edits coherent dnat now).external family
  | removeStatic proto externalPort v6 =>
    exact (removeStatic_edits coherent proto externalPort v6).external family
  | flushPeer rank peer => exact (flushWhere_edits _ rank _).external family
  | sweep now => exact (sweepLoop_edits now _ _ _).external family
  | translateUplink peer pkt now draw =>
    exact (translateUplink_edits engine coherent peer pkt now draw).external family
  | translateDownlink pkt now => exact (downlink_edits engine _ pkt now).external family

/-- The external addresses are those that the last epoch assigned. -/
theorem run_external (engine : ChecksumEngine) (config : NatConfig)
    (ops : List Op) (family : Bool) :
    (run engine config ops).external family = assigned family ops := by
  induction ops using List.reverseRecOn with
  | nil => cases family <;> rfl
  | append_singleton past op induction =>
    rw [run_snoc, step_external engine (run_coherent engine config past),
      assigned, List.foldl_append, ← assigned, induction]
    cases op <;> rfl

theorem setExternal_keeps_pinned (present : nat.mappings.get id = some mapping)
    (pinned : mapping.pinned) (rank : MappingId → Nat) (epoch : EpochId)
    (v4 : Ipv4Addr) (v6 : Option Ipv6Addr) :
    ∃ kept, (nat.setExternal rank epoch v4 v6).mappings.get id = some kept ∧
      kept.unlinked = mapping.unlinked := by
  refine get_of_table ?_
  rw [table_setExternal, table_of_get present, Option.filter_some, if_pos]
  simp [pinned]

/-- In every reachable state a dynamic mapping was opened after the last
operation that changed the exit or its family's address, accepted packets leave
from and come to the address that the last epoch assigned, the quotes of ICMP
errors included, and forwards outlast every epoch. -/
theorem run_epoch_hygiene (engine : ChecksumEngine) (config : NatConfig) (ops : List Op) :
    let nat := run engine config ops
    (∀ id mapping, nat.mappings.get id = some mapping → mapping.pinned = false →
      OpenedThisEpoch engine config ops id mapping.internal.isIpv6) ∧
    (∀ peer pkt now draw,
      let sent := nat.translateUplink engine peer pkt now draw
      sent.1 = .ok () →
      ∃ hdr external, parseIp pkt = .ok hdr ∧ assigned hdr.isV6 ops = some external ∧
        parseIp sent.2.1 = .ok (hdr.withAddress .source external) ∧
        ∀ quote, readTransport pkt hdr = .ok .icmpError → parseErrorQuote pkt hdr = .ok quote →
          Bytes.slice sent.2.1 (quote.innerOffset + addressOffset quote.inner.isV6 .destination)
            (IpAddr.width quote.inner.isV6) = external.octets) ∧
    (∀ pkt now result, (nat.translateDownlink engine pkt now).1 = .ok result →
      ∃ hdr, parseIp pkt = .ok hdr ∧ assigned hdr.isV6 ops = some hdr.dst ∧
        ∀ quote, readTransport pkt hdr = .ok .icmpError →
          parseErrorQuote pkt hdr = .ok quote → quote.inner.src = hdr.dst) ∧
    ∀ rank epoch v4 v6 id mapping, nat.mappings.get id = some mapping → mapping.pinned = true →
      ∃ kept, (nat.setExternal rank epoch v4 v6).mappings.get id = some kept ∧
        kept.unlinked = mapping.unlinked := by
  refine ⟨?_, ?_, ?_, ?_⟩
  · intro id mapping present dynamic
    exact run_openedThisEpoch engine config ops id mapping.unlinked (table_of_get present) dynamic
  · intro peer pkt now draw sent accepted
    rcases translateUplink_address engine (run_coherent engine config ops)
      accepted with ⟨hdr, external, parsed, current, outer, quotes⟩
    rw [run_external] at current
    exact ⟨hdr, external, parsed, current, outer, quotes⟩
  · intro pkt now result accepted
    rcases translateDownlink_address engine accepted with ⟨hdr, parsed, current, quotes⟩
    rw [run_external] at current
    exact ⟨hdr, parsed, current, quotes⟩
  · intro rank epoch v4 v6 id mapping present pinned
    exact setExternal_keeps_pinned present pinned rank epoch v4 v6

end WarrenSdk.Bolthole.Napt
