import WarrenSdk.Bolthole.Responder.Tables

/-! # Exact reloads

A reload either changes nothing or leaves exactly the peers of the new
configuration. The argument follows the reload: the removal of the peers that
are gone, and then the walk over the configuration, whose invariant says what
has been settled and what is still as it was. -/

namespace WarrenSdk.Bolthole.Responder

open List

/-! ## Drawing indexes -/

variable {byLabel : HashMap PeerLabel PeerId} {indexes : IndexGen} {id : PeerId}

theorem drawFresh_known (known : byLabel.get peer.label = some id) :
    drawFresh byLabel (peer :: rest) indexes = drawFresh byLabel rest indexes := by
  simp [drawFresh, known]

/-- A peer whose label is new draws one index, and the rest draw behind it. -/
theorem drawFresh_new (unknown : byLabel.get peer.label = none)
    (drawn : drawFresh byLabel (peer :: rest) indexes = .ok (fresh, final)) :
    ∃ index others, indexes.next.1 = some index ∧ fresh = index :: others ∧
      drawFresh byLabel rest indexes.next.2 = .ok (others, final) := by
  rcases next : indexes.next with ⟨index, after⟩
  cases index with
  | none => simp [drawFresh, unknown, next] at drawn
  | some index =>
    cases others : drawFresh byLabel rest after with
    | error refusal => simp [drawFresh, unknown, next, others, bind, Except.bind] at drawn
    | ok pair =>
      simp only [drawFresh, unknown, next, others, bind, Except.bind, pure,
        Except.pure, Option.isSome_none, Bool.false_eq_true, if_false,
        Except.ok.injEq, Prod.mk.injEq] at drawn
      exact ⟨index, pair.1, rfl, drawn.1.symm, by rw [← drawn.2]⟩

theorem drawFresh_spent {peers : List PeerConf}
    (drawn : drawFresh byLabel peers indexes = .ok (fresh, final))
    (spent : indexes.Spent index) : final.Spent index := by
  induction peers generalizing indexes fresh with
  | nil =>
    cases drawn
    exact spent
  | cons peer rest induction =>
    cases known : byLabel.get peer.label with
    | some id =>
      rw [drawFresh_known known] at drawn
      exact induction drawn spent
    | none =>
      rcases drawFresh_new known drawn with ⟨_, _, _, _, others⟩
      exact induction others spent.next

/-! ## Removing the peers that are gone -/

variable (responder : Responder noise)

theorem removePeer_peers (entry : PeerId × PeerLabel) (id : PeerId) :
    (responder.removePeer entry).peers[id]? =
      if id = entry.1 then none else responder.peers[id]? := by
  simp only [removePeer, Std.TreeMap.getElem?_erase]
  by_cases same : id = entry.1
  · simp [same]
  · rw [if_neg (by simpa using Ne.symm same), if_neg same]

theorem removePeer_confOf (entry : PeerId × PeerLabel) (id : PeerId) :
    (responder.removePeer entry).confOf id =
      if id = entry.1 then none else responder.confOf id := by
  rw [confOf, removePeer_peers]
  split <;> rfl

theorem removePeers_peers (entries : List (PeerId × PeerLabel))
    (responder : Responder noise) (id : PeerId) : (entries.foldl removePeer responder).peers[id]? =
      if id ∈ entries.map Prod.fst then none else responder.peers[id]? := by
  induction entries generalizing responder with
  | nil => simp
  | cons entry entries induction =>
    rw [foldl_cons, induction, removePeer_peers, map_cons]
    simp only [mem_cons]
    by_cases same : id = entry.1
    · simp [same]
    · simp only [same, if_false, false_or]

variable {responder : Responder noise}

/-- Removing peers under their own labels keeps the labels exact. -/
theorem removePeers_labels {entries : List (PeerId × PeerLabel)}
    (labels : Indexes responder.byLabel responder.confOf PeerConf.label)
    (nodup : (entries.map Prod.fst).Nodup) (present : ∀ entry ∈ entries, ∃ conf,
      responder.confOf entry.1 = some conf ∧ conf.label = entry.2) :
    Indexes (entries.foldl removePeer responder).byLabel
      (entries.foldl removePeer responder).confOf PeerConf.label := by
  induction entries generalizing responder with
  | nil => exact labels
  | cons entry entries induction =>
    have parts := nodup_cons.mp nodup
    rcases present entry (by simp) with ⟨conf, here, sameLabel⟩
    apply induction _ parts.2
    · intro later member
      rcases present later (by simp [member]) with ⟨laterConf, there, label⟩
      refine ⟨laterConf, ?_, label⟩
      rw [removePeer_confOf, if_neg, there]
      intro same
      exact parts.1 (same ▸ mem_map.mpr ⟨later, member, rfl⟩)
    · have removed := labels.remove here (responder.removePeer_confOf entry)
      rw [sameLabel] at removed
      exact removed

theorem mem_gone : (id, label) ∈ responder.gone conf ↔
      ∃ peer, responder.peers[id]? = some peer ∧ peer.label = label ∧
        label ∉ conf.peers.map PeerConf.label := by
  have wanted : ∀ label, (HashMap.get (HashMap.ofList (conf.peers.map
      fun peer => (peer.label, peer))) label).isNone = true ↔
      label ∉ conf.peers.map PeerConf.label := by
    intro label
    rw [Option.isNone_iff_eq_none, HashMap.get_ofList_eq_none, List.map_map]
    rfl
  simp only [gone, List.mem_map, List.mem_filter, wanted, Prod.exists, Prod.mk.injEq, mem_peers]
  constructor
  · intro member
    rcases member with ⟨_, peer, ⟨present, unwanted⟩, rfl, rfl⟩
    exact ⟨peer, present, rfl, by simpa using unwanted⟩
  · intro found
    rcases found with ⟨peer, present, rfl, unwanted⟩
    exact ⟨id, peer, ⟨present, by simpa using unwanted⟩, rfl, rfl⟩

theorem gone_nodup (conf : GatewayConf) : ((responder.gone conf).map Prod.fst).Nodup := by
  have keys : (responder.peers.toList.map Prod.fst).Nodup := by
    rw [nodup_iff_pairwise_ne, pairwise_map]
    apply Std.TreeMap.distinct_keys_toList.imp
    intro left right different same
    exact different (by simp [same])
  have kept : ((responder.gone conf).map Prod.fst).Sublist
      (responder.peers.toList.map Prod.fst) := by
    simp only [gone, List.map_map]
    exact List.filter_sublist.map Prod.fst
  exact List.Nodup.sublist kept keys

theorem pruned_peers : (responder.pruned conf indexes).peers[id]? = some peer ↔
      responder.peers[id]? = some peer ∧ peer.label ∈ conf.peers.map PeerConf.label := by
  have removed : id ∈ (responder.gone conf).map Prod.fst ↔
      ∃ peer, responder.peers[id]? = some peer ∧ peer.label ∉ conf.peers.map PeerConf.label := by
    simp only [List.mem_map, Prod.exists, exists_and_right, exists_eq_right, mem_gone]
    constructor
    · intro found
      rcases found with ⟨_, peer, present, rfl, unwanted⟩
      exact ⟨peer, present, unwanted⟩
    · intro found
      rcases found with ⟨peer, present, unwanted⟩
      exact ⟨peer.label, peer, present, rfl, unwanted⟩
  rw [pruned, removePeers_peers]
  split
  · rename_i member
    rcases removed.mp member with ⟨other, present, unwanted⟩
    rw [present]
    constructor
    · intro absurdity
      cases absurdity
    · intro found
      cases found.1
      exact absurd found.2 unwanted
  · rename_i kept
    constructor
    · intro present
      refine ⟨present, ?_⟩
      by_contra unwanted
      exact kept (removed.mpr ⟨peer, present, unwanted⟩)
    · intro found
      exact found.1

theorem pruned_confOf : (responder.pruned conf indexes).confOf id = some peerConf ↔
      responder.confOf id = some peerConf ∧ peerConf.label ∈ conf.peers.map PeerConf.label := by
  simp only [confOf_eq_some, pruned_peers]
  constructor
  · intro found
    rcases found with ⟨peer, ⟨present, wanted⟩, rfl⟩
    exact ⟨⟨peer, present, rfl⟩, wanted⟩
  · intro found
    rcases found with ⟨⟨peer, present, rfl⟩, wanted⟩
    exact ⟨peer, ⟨present, wanted⟩, rfl⟩

theorem pruned_labels (conf : GatewayConf) (indexes : IndexGen)
    (labels : Indexes responder.byLabel responder.confOf PeerConf.label) :
    Indexes (responder.pruned conf indexes).byLabel
      (responder.pruned conf indexes).confOf PeerConf.label := by
  have start : Indexes { responder with indexes }.byLabel
      (Responder.confOf { responder with indexes }) PeerConf.label := labels
  apply removePeers_labels start (responder.gone_nodup conf)
  intro entry member
  rcases mem_gone.mp member with ⟨peer, present, label, _⟩
  exact ⟨peer.conf, confOf_eq_some.mpr ⟨peer, present, rfl⟩, label⟩

theorem pruned_get (indexes : IndexGen)
    (labels : Indexes responder.byLabel responder.confOf PeerConf.label)
    (wanted : label ∈ conf.peers.map PeerConf.label) :
    (responder.pruned conf indexes).byLabel.get label = responder.byLabel.get label := by
  apply Option.ext
  intro id
  rw [pruned_labels conf indexes labels label id, labels label id]
  simp only [pruned_confOf]
  constructor
  · intro found
    rcases found with ⟨peerConf, ⟨present, _⟩, same⟩
    exact ⟨peerConf, present, same⟩
  · intro found
    rcases found with ⟨peerConf, present, same⟩
    exact ⟨peerConf, ⟨present, same ▸ wanted⟩, same⟩

/-! ## The walk over the configuration -/

theorem rekeyPeer_peers (ambient : noise.Ambient) (conf : PeerConf)
    (here : responder.peers[id]? = some old) (other : PeerId) :
    (responder.rekeyPeer ambient id conf).peers[other]? =
      if other = id then
        some (old.rekeyed conf (responder.buildTunn ambient conf id.index))
      else responder.peers[other]? := by
  simp only [rekeyPeer, Std.TreeMap.getElem?_modify]
  by_cases same : other = id
  · subst other
    simp [here]
  · rw [if_neg (by simpa using Ne.symm same), if_neg same]

theorem rekeyPeer_confOf (ambient : noise.Ambient) {conf : PeerConf}
    (here : responder.peers[id]? = some old) (label : old.label = conf.label) (other : PeerId) :
    (responder.rekeyPeer ambient id conf).confOf other =
      if other = id then some conf else responder.confOf other := by
  rw [confOf, rekeyPeer_peers ambient conf here]
  split
  · rw [Option.map_some, Peer.conf_rekeyed label]
  · rfl

/-- Where the peer that a reload leaves for a part of the configuration comes
from: one that is unchanged is the peer that was there, one that changed is that
peer under the new material, and one that is new carries an index that was never
drawn before. -/
inductive Origin (before : Responder noise) (ambient : noise.Ambient)
    (conf : PeerConf) (id : PeerId) : Peer noise → Prop
  | kept {old : Peer noise} (present : before.peers[id]? = some old)
      (label : old.label = conf.label) (same : old.sameMaterial conf = true) :
      Origin before ambient conf id old
  | rekeyed {old : Peer noise} (present : before.peers[id]? = some old)
      (label : old.label = conf.label) (changed : old.sameMaterial conf = false) :
      Origin before ambient conf id (old.rekeyed conf (before.buildTunn ambient conf id.index))
  | added {peer : Peer noise} (unknown : before.byLabel.get conf.label = none)
      (unspent : ¬ before.indexes.Spent id.index) : Origin before ambient conf id peer

def Settled (before : Responder noise) (ambient : noise.Ambient)
    (after : Responder noise) (conf : PeerConf) : Prop :=
  ∃ id peer, after.peers[id]? = some peer ∧ peer.conf = conf ∧ Origin before ambient conf id peer

/-- One index is left for each peer that is still to be added, and none that is
left was ever carried. -/
def Draws (before : Responder noise) (final : IndexGen) (rest : List PeerConf)
    (state : Reloading noise) : Prop :=
  ∃ indexes, drawFresh before.byLabel rest indexes = .ok (state.fresh, final) ∧
    (∀ index, before.indexes.Spent index → indexes.Spent index) ∧
    ∀ id conf, state.responder.confOf id = some conf → indexes.Spent id.index

/-- A reload between two peers of its configuration: what is done is settled,
what is still to do is as it was, and its indexes are drawn. -/
structure Underway (before : Responder noise) (ambient : noise.Ambient)
    (final : IndexGen) (done rest : List PeerConf) (state : Reloading noise) : Prop where
  distinct : (done ++ rest).Pairwise Distinct
  key : state.responder.key = before.key
  limiter : state.responder.limiter = before.limiter
  indexes : state.responder.indexes = final
  labels : Indexes state.responder.byLabel state.responder.confOf PeerConf.label
  draws : Draws before final rest state
  pending : ∀ conf ∈ rest, state.responder.byLabel.get conf.label = before.byLabel.get conf.label ∧
      ∀ id, before.byLabel.get conf.label = some id → state.responder.peers[id]? = before.peers[id]?
  covered : ∀ id conf, state.responder.confOf id = some conf →
    conf ∈ done ∨ ∃ next ∈ rest, next.label = conf.label
  settled : ∀ conf ∈ done, Settled before ambient state.responder conf

/-- One round of the walk changes at most one peer, the one that it settles. -/
structure Round (before : Responder noise) (ambient : noise.Ambient)
    (conf : PeerConf) (state after : Reloading noise) (id : PeerId) (peer : Peer noise) : Prop where
  others : ∀ other, other ≠ id → after.responder.peers[other]? = state.responder.peers[other]?
  here : after.responder.peers[id]? = some peer
  carries : peer.conf = conf
  origin : Origin before ambient conf id peer
  labels : Indexes after.responder.byLabel after.responder.confOf PeerConf.label
  lookups : ∀ label, label ≠ conf.label →
    after.responder.byLabel.get label = state.responder.byLabel.get label
  replaces : ∀ old, state.responder.confOf id = some old → old.label = conf.label
  key : after.responder.key = state.responder.key
  limiter : after.responder.limiter = state.responder.limiter
  indexes : after.responder.indexes = state.responder.indexes

namespace Round

variable {state after : Reloading noise}

theorem confOf (round : Round before ambient conf state after id peer) (other : PeerId) :
    after.responder.confOf other =
      if other = id then some conf else state.responder.confOf other := by
  split
  · rename_i same
    subst other
    exact confOf_eq_some.mpr ⟨peer, round.here, round.carries⟩
  · rename_i different
    rw [Responder.confOf, Responder.confOf, round.others other different]

/-- What was settled before the round stays settled: it carries another
label. -/
theorem settled (round : Round before ambient conf state after id peer)
    (distinct : Distinct earlier conf) (settled : Settled before ambient state.responder earlier) :
    Settled before ambient after.responder earlier := by
  rcases settled with ⟨other, otherPeer, present, carries, origin⟩
  refine ⟨other, otherPeer, ?_, carries, origin⟩
  rw [round.others other _, present]
  intro same
  subst other
  have label := round.replaces earlier (confOf_eq_some.mpr ⟨otherPeer, present, carries⟩)
  exact distinct.labels label.symm

variable (labels : Indexes state.responder.byLabel state.responder.confOf PeerConf.label)

include labels

theorem kept (present : before.peers[id]? = some old) (here : state.responder.peers[id]? = some old)
    (label : old.label = conf.label) (same : old.sameMaterial conf) (report : ReloadReport) :
    Round before ambient conf state { state with report } id old where
  others _ _ := rfl
  here := here
  carries := Peer.conf_of_sameMaterial label same
  origin := .kept present label same
  labels := labels
  lookups _ _ := rfl
  replaces := by
    intro conf carried
    rcases confOf_eq_some.mp carried with ⟨peer, again, rfl⟩
    rw [here] at again
    cases again
    exact label
  key := rfl
  limiter := rfl
  indexes := rfl

theorem rekeyed (key : state.responder.key = before.key)
    (limiter : state.responder.limiter = before.limiter) {old : Peer noise}
    (present : before.peers[id]? = some old) (here : state.responder.peers[id]? = some old)
    (label : old.label = conf.label) (changed : old.sameMaterial conf = false)
    (report : ReloadReport) : Round before ambient conf state { state with
        responder := state.responder.rekeyPeer ambient id conf, report } id
      (old.rekeyed conf (before.buildTunn ambient conf id.index)) := by
  have tunn : state.responder.buildTunn ambient conf id.index =
      before.buildTunn ambient conf id.index := by
    rw [buildTunn, buildTunn, key, limiter]
  have edited := rekeyPeer_peers ambient conf here
  rw [tunn] at edited
  have hereConf : state.responder.confOf id = some old.conf := confOf_eq_some.mpr ⟨old, here, rfl⟩
  exact {
    others := by
      intro other different
      exact (edited other).trans (if_neg different)
    here := (edited id).trans (if_pos rfl)
    carries := Peer.conf_rekeyed label _
    origin := .rekeyed present label changed
    labels := labels.update hereConf label.symm (rekeyPeer_confOf ambient here label)
    lookups := fun _ _ => rfl
    replaces := by
      intro conf carried
      rw [hereConf] at carried
      cases carried
      exact label
    key := rfl
    limiter := rfl
    indexes := rfl }

theorem added (absent : state.responder.confOf ⟨index⟩ = none)
    (unused : state.responder.byLabel.get conf.label = none)
    (unknown : before.byLabel.get conf.label = none)
    (unspent : ¬ before.indexes.Spent index) (fresh : List UInt32) (report : ReloadReport) :
    Round before ambient conf state {
        responder := state.responder.insertPeerAt ambient conf index
        fresh, report } ⟨index⟩
      (.added conf (state.responder.buildTunn ambient conf index)) where
  others := by
    intro other different
    exact (insertPeerAt_peers _ _ _ _ other).trans (if_neg different)
  here := (insertPeerAt_peers _ _ _ _ _).trans (if_pos rfl)
  carries := rfl
  origin := .added unknown unspent
  labels := labels.insert absent unused (insertPeerAt_confOf _ _ _ _)
  lookups := by
    intro label different
    simp [insertPeerAt, different]
  replaces := by
    intro old carried
    rw [absent] at carried
    cases carried
  key := rfl
  limiter := rfl
  indexes := rfl

end Round

namespace Underway

variable {state after : Reloading noise}

section

variable (underway : Underway before ambient final done (conf :: rest) state)

include underway

theorem distinct_done : ∀ earlier ∈ done, Distinct earlier conf := by
  intro earlier member
  exact (pairwise_append.mp underway.distinct).2.2 earlier member conf (by simp)

theorem distinct_rest : ∀ later ∈ rest, Distinct conf later := by
  have tail := (pairwise_append.mp underway.distinct).2.1
  exact (pairwise_cons.mp tail).1

/-- A round that settles the next peer of the configuration takes the walk on,
given the indexes that are left behind it. -/
theorem next (round : Round before ambient conf state after id peer)
    (draws : Draws before final rest after) :
    Underway before ambient final (done ++ [conf]) rest after where
  distinct := by simpa using underway.distinct
  key := round.key.trans underway.key
  limiter := round.limiter.trans underway.limiter
  indexes := round.indexes.trans underway.indexes
  labels := round.labels
  draws := draws
  pending := by
    intro later member
    have otherLabel := (underway.distinct_rest later member).labels
    have pending := underway.pending later (by simp [member])
    rw [round.lookups later.label otherLabel]
    refine ⟨pending.1, ?_⟩
    intro other found
    rw [round.others other, pending.2 other found]
    intro same
    subst other
    rw [← pending.1] at found
    rcases (underway.labels later.label id).mp found with ⟨old, present, label⟩
    exact otherLabel (label.symm.trans (round.replaces old present))
  covered := by
    intro other otherConf present
    by_cases same : other = id
    · rw [round.confOf, if_pos same] at present
      cases present
      simp
    · have kept := present
      rw [round.confOf, if_neg same] at kept
      rcases underway.covered other otherConf kept with earlier | ⟨later, member, label⟩
      · exact .inl (mem_append_left _ earlier)
      · rcases mem_cons.mp member with rfl | member
        · have here := round.confOf id
          rw [if_pos rfl] at here
          exact absurd (round.labels.unique present here label.symm) same
        · exact .inr ⟨later, member, label⟩
  settled := by
    intro earlier member
    rcases mem_append.mp member with earlierMember | last
    · exact round.settled (underway.distinct_done earlier earlierMember)
        (underway.settled earlier earlierMember)
    · rw [mem_singleton.mp last]
      exact ⟨id, peer, round.here, round.carries, round.origin⟩

end

theorem step_known (sound : Sound before)
    (underway : Underway before ambient final done (conf :: rest) state)
    (known : state.responder.byLabel.get conf.label = some id) :
    ∃ after, applyPeer ambient state conf = .ok after ∧
      Underway before ambient final (done ++ [conf]) rest after := by
  have pending := underway.pending conf (by simp)
  have knownBefore : before.byLabel.get conf.label = some id := by rw [← pending.1, known]
  rcases (sound.views.labels conf.label id).mp knownBefore with ⟨oldConf, carried, label⟩
  rcases confOf_eq_some.mp carried with ⟨old, present, rfl⟩
  have here : state.responder.peers[id]? = some old := by rw [pending.2 id knownBefore, present]
  have hereConf := confOf_eq_some.mpr ⟨old, here, rfl⟩
  rcases underway.draws with ⟨indexes, drawn, grown, spent⟩
  rw [drawFresh_known knownBefore] at drawn
  cases same : old.sameMaterial conf with
  | true =>
    have round : Round before ambient conf state _ id old :=
      .kept underway.labels present here label same
        { state.report with unchanged := state.report.unchanged + 1 }
    exact ⟨_, by simp [applyPeer, known, here, same],
      underway.next round ⟨indexes, drawn, grown, spent⟩⟩
  | false =>
    have round : Round before ambient conf state _ id _ :=
      .rekeyed underway.labels underway.key underway.limiter present here label
        same { state.report with
          rebuilt := state.report.rebuilt ++ [conf.label] }
    refine ⟨_, by simp [applyPeer, known, here, same],
      underway.next round ⟨indexes, drawn, grown, ?_⟩⟩
    intro other otherConf otherCarried
    rw [round.confOf] at otherCarried
    split at otherCarried
    · rename_i equal
      subst other
      exact spent id _ hereConf
    · exact spent other otherConf otherCarried

theorem step_new (underway : Underway before ambient final done (conf :: rest) state)
    (unused : state.responder.byLabel.get conf.label = none) :
    ∃ after, applyPeer ambient state conf = .ok after ∧
      Underway before ambient final (done ++ [conf]) rest after := by
  have pending := underway.pending conf (by simp)
  have unknown : before.byLabel.get conf.label = none := by rw [← pending.1, unused]
  rcases underway.draws with ⟨indexes, drawn, grown, spent⟩
  rcases drawFresh_new unknown drawn with ⟨index, others, drawnIndex, fresh, left⟩
  have new := IndexGen.next_fresh drawnIndex
  have absent : state.responder.confOf ⟨index⟩ = none := by
    cases carried : state.responder.confOf ⟨index⟩ with
    | none => rfl
    | some other => exact absurd (spent _ other carried) new.1
  have round : Round before ambient conf state _ ⟨index⟩ _ :=
    .added underway.labels absent unused unknown (fun earlier => new.1 (grown index earlier)) others
      { state.report with added := state.report.added ++ [conf.label] }
  refine ⟨_, by simp [applyPeer, unused, fresh], underway.next round
    ⟨indexes.next.2, left, fun index earlier => (grown index earlier).next, ?_⟩⟩
  intro other otherConf otherCarried
  rw [round.confOf] at otherCarried
  split at otherCarried
  · rename_i equal
    subst other
    exact new.2
  · exact (spent other otherConf otherCarried).next

theorem step (sound : Sound before)
    (underway : Underway before ambient final done (conf :: rest) state) :
    ∃ after, applyPeer ambient state conf = .ok after ∧
      Underway before ambient final (done ++ [conf]) rest after := by
  cases known : state.responder.byLabel.get conf.label with
  | some id => exact underway.step_known sound known
  | none => exact underway.step_new known

variable {peers : List PeerConf}

variable (underway : Underway before ambient final peers [] state)

include underway

/-- Behind the walk exactly the peers of the configuration are live. -/
theorem confOf_iff (peerConf : PeerConf) :
    (∃ id, state.responder.confOf id = some peerConf) ↔ peerConf ∈ peers := by
  constructor
  · intro carried
    rcases carried with ⟨id, carried⟩
    rcases underway.covered id peerConf carried with member | ⟨_, nothing, _⟩
    · exact member
    · cases nothing
  · intro member
    rcases underway.settled peerConf member with ⟨id, peer, present, carries, _⟩
    exact ⟨id, confOf_eq_some.mpr ⟨peer, present, carries⟩⟩

theorem apart : Apart state.responder := by
  apply apart_of_members (by simpa using underway.distinct) underway.labels
  intro id peerConf carried
  exact (underway.confOf_iff peerConf).mp ⟨id, carried⟩

theorem sound : Sound state.responder.rebuildLookups.rebuildRoutes where
  views := {
    labels := rebuildLookups_labels underway.apart
    keys := rebuildLookups_keys underway.apart
    routes := by
      have apart : Apart state.responder.rebuildLookups := underway.apart
      exact rebuildRoutes_routes apart }
  spent := by
    rcases underway.draws with ⟨indexes, drawn, _, spent⟩
    have last : indexes = final := by
      simp only [drawFresh, Except.ok.injEq, Prod.mk.injEq] at drawn
      exact drawn.2
    have kept : state.responder.rebuildLookups.rebuildRoutes.indexes = final := underway.indexes
    rw [kept, ← last]
    exact spent

end Underway

/-! ## Reloads -/

theorem planReload_ok (planned : responder.planReload conf = .ok (fresh, indexes)) :
    conf.validate = .ok () ∧ conf.checkAgainst responder.plan = .ok () ∧
      drawFresh responder.byLabel conf.peers responder.indexes = .ok (fresh, indexes) := by
  rw [planReload] at planned
  cases valid : conf.validate with
  | error refusal => simp [valid, bind, Except.bind] at planned
  | ok _ =>
    cases checked : conf.checkAgainst responder.plan with
    | error refusal => simp [valid, checked, bind, Except.bind] at planned
    | ok _ =>
      simp only [valid, checked, bind, Except.bind] at planned
      exact ⟨rfl, rfl, planned⟩

/-- Before the walk everything is still to do. -/
theorem Sound.startReload (sound : Sound responder) (ambient : noise.Ambient)
    (planned : responder.planReload conf = .ok (fresh, indexes)) :
    Underway responder ambient indexes [] conf.peers
      (responder.startReload conf fresh indexes) where
  distinct := GatewayConf.distinct_of_validate (planReload_ok planned).1
  key := removePeers_field Responder.key (fun _ _ => rfl) _ _
  limiter := removePeers_field Responder.limiter (fun _ _ => rfl) _ _
  indexes := removePeers_field Responder.indexes (fun _ _ => rfl) _ _
  labels := pruned_labels conf indexes sound.views.labels
  draws := by
    refine ⟨responder.indexes, (planReload_ok planned).2.2, fun _ spent => spent, ?_⟩
    intro id peerConf carried
    exact sound.spent id peerConf (pruned_confOf.mp carried).1
  pending := by
    intro next member
    have wanted : next.label ∈ conf.peers.map PeerConf.label := mem_map.mpr ⟨next, member, rfl⟩
    refine ⟨pruned_get indexes sound.views.labels wanted, ?_⟩
    intro id found
    rcases (sound.views.labels next.label id).mp found with ⟨peerConf, carried, label⟩
    rcases confOf_eq_some.mp carried with ⟨peer, present, rfl⟩
    rw [present]
    apply pruned_peers.mpr
    refine ⟨present, ?_⟩
    rw [← Peer.conf_label, label]
    exact wanted
  covered := by
    intro id peerConf carried
    rcases mem_map.mp (pruned_confOf.mp carried).2 with ⟨next, member, label⟩
    exact .inr ⟨next, member, label⟩
  settled := by simp

/-- A reload is refused and changes nothing, or it walks the whole
configuration. -/
theorem reload_cases (sound : Sound responder) (ambient : noise.Ambient) (conf : GatewayConf) :
    (∃ refusal, responder.reload ambient conf = (.refused refusal, responder)) ∨
    ∃ fresh indexes state, responder.planReload conf = .ok (fresh, indexes) ∧
      Underway responder ambient indexes conf.peers [] state ∧ responder.reload ambient conf =
        (.ok state.report, state.responder.rebuildLookups.rebuildRoutes) := by
  cases planned : responder.planReload conf with
  | error refusal =>
    refine .inl ⟨refusal, ?_⟩
    rw [reload, planned]
  | ok drawn =>
    rcases drawn with ⟨fresh, indexes⟩
    have walk := Execution.walk_total (applyPeer ambient) (Underway responder ambient indexes)
      (fun _ _ _ _ underway => underway.step sound) (sound.startReload ambient planned)
    rcases walk with ⟨state, walked, underway⟩
    refine .inr ⟨fresh, indexes, state, rfl, underway, ?_⟩
    rw [reload, planned]
    simp only [walked]

end WarrenSdk.Bolthole.Responder
