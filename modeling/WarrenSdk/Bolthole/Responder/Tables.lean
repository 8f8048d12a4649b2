import Mathlib.Data.List.Pairwise
import WarrenSdk.Bolthole.Responder.Traffic
import WarrenSdk.Foundation.Index

/-! # The tables of the responder

The lookups by label and by key and the routes are views of the live peers, and
every identifier that a peer carries was drawn from the index sequence. Both are
established when a responder is built and traffic keeps them. -/

namespace WarrenSdk.Bolthole

open List

theorem overlaps_comm (left right : IpNetwork) : overlaps left right = overlaps right left :=
  Bool.or_comm _ _

instance : Std.Symm Distinct where
  symm peer other distinct := {
    keys := Ne.symm distinct.keys
    labels := Ne.symm distinct.labels
    networks := by
      intro network member candidate candidateMember
      rw [overlaps_comm]
      exact distinct.networks candidate candidateMember network member }

namespace Responder

def confOf (responder : Responder noise) (id : PeerId) : Option PeerConf :=
  responder.peers[id]?.map Peer.conf

variable {responder after : Responder noise} {peers : List PeerConf}

theorem confOf_eq_some {id : PeerId} : responder.confOf id = some conf ↔
      ∃ peer, responder.peers[id]? = some peer ∧ peer.conf = conf := by
  simp [confOf]

/-- The tables are exactly the views of the live peers. -/
structure Views (responder : Responder noise) : Prop where
  labels : Indexes responder.byLabel responder.confOf PeerConf.label
  keys : Indexes responder.byPubkey responder.confOf PeerConf.public
  routes : ∀ network id, responder.routes.exactMatch network = some id ↔
    ∃ conf, responder.confOf id = some conf ∧ network ∈ conf.allowed

/-- The tables are views, and no live peer carries an identifier that is still
to be drawn. -/
structure Sound (responder : Responder noise) : Prop where
  views : Views responder
  spent : ∀ id conf, responder.confOf id = some conf → responder.indexes.Spent id.index

/-! ## Peers that are apart -/

/-- No two live peers could be confused. -/
def Apart (responder : Responder noise) : Prop :=
  ∀ id other conf otherConf, responder.confOf id = some conf →
    responder.confOf other = some otherConf → id ≠ other → Distinct conf otherConf

/-- Peers of an accepted configuration that are found by their labels are
apart. -/
theorem apart_of_members (distinct : peers.Pairwise Distinct)
    (labels : Indexes responder.byLabel responder.confOf PeerConf.label)
    (members : ∀ id conf, responder.confOf id = some conf → conf ∈ peers) : Apart responder := by
  intro id other conf otherConf here there different
  apply distinct.forall (members id conf here) (members other otherConf there)
  intro same
  exact different (labels.unique here there (congrArg PeerConf.label same))

/-! ## Rebuilding the tables -/

theorem mem_peers {id : PeerId} :
    (id, peer) ∈ responder.peers.toList ↔ responder.peers[id]? = some peer :=
  Std.TreeMap.mem_toList_iff_getElem?_eq_some

def confEntries (responder : Responder noise) : List (PeerId × PeerConf) :=
  responder.peers.toList.map fun entry => (entry.1, entry.2.conf)

theorem mem_confEntries (responder : Responder noise) (id : PeerId) (conf : PeerConf) :
    (id, conf) ∈ responder.confEntries ↔ responder.confOf id = some conf := by
  rw [confOf_eq_some, confEntries, mem_map]
  constructor
  · intro member
    rcases member with ⟨⟨_, peer⟩, entry, equal⟩
    cases equal
    exact ⟨peer, mem_peers.mp entry, rfl⟩
  · intro found
    rcases found with ⟨peer, present, rfl⟩
    exact ⟨(id, peer), mem_peers.mpr present, rfl⟩

/-- A field that tells distinct peers apart finds them. -/
theorem indexes_of_apart [DecidableEq Key] (apart : Apart responder) (field : PeerConf → Key)
    (tells : ∀ conf other, Distinct conf other → field other ≠ field conf) :
    Indexes (HashMap.ofList (responder.confEntries.map fun entry =>
      (field entry.2, entry.1))) responder.confOf field := by
  apply Indexes.ofList responder.mem_confEntries
  intro id other conf otherConf here there same
  by_contra different
  exact tells conf otherConf (apart id other conf otherConf here there different) same.symm

theorem rebuildLookups_labels (apart : Apart responder) :
    Indexes responder.rebuildLookups.byLabel responder.confOf
      PeerConf.label := by
  have built := indexes_of_apart apart PeerConf.label fun _ _ distinct => distinct.labels
  simpa [confEntries, rebuildLookups, Function.comp_def] using built

theorem rebuildLookups_keys (apart : Apart responder) :
    Indexes responder.rebuildLookups.byPubkey responder.confOf
      PeerConf.public := by
  have built := indexes_of_apart apart PeerConf.public fun _ _ distinct => distinct.keys
  simpa [confEntries, rebuildLookups, Function.comp_def] using built

def claims (responder : Responder noise) : List (IpNetwork × PeerId) :=
  responder.confEntries.flatMap fun entry => entry.2.allowed.map fun network => (network, entry.1)

theorem mem_claims (responder : Responder noise) (network : IpNetwork) (id : PeerId) :
    (network, id) ∈ responder.claims ↔
      ∃ conf, responder.confOf id = some conf ∧ network ∈ conf.allowed := by
  simp only [claims, mem_flatMap, mem_map, Prod.exists, Prod.mk.injEq]
  constructor
  · intro member
    rcases member with ⟨_, conf, entry, _, listed, rfl, rfl⟩
    exact ⟨conf, (responder.mem_confEntries _ _).mp entry, listed⟩
  · intro found
    rcases found with ⟨conf, present, listed⟩
    exact ⟨id, conf, (responder.mem_confEntries _ _).mpr present, network, listed, rfl, rfl⟩

theorem rebuildRoutes_entries (responder : Responder noise) :
    responder.rebuildRoutes.routes.entries = HashMap.ofList responder.claims := by
  have claimed : ∀ (networks : List IpNetwork) (id : PeerId) (routes : IpNetworkTable PeerId),
      (networks.foldl (fun routes network => routes.insert network id) routes).entries =
      networks.foldl (fun map network => map.insert network id)
        routes.entries := by
    intro networks id routes
    exact (foldl_hom IpNetworkTable.entries fun _ _ => rfl).symm
  rw [HashMap.ofList, claims, confEntries, foldl_flatMap, foldl_map]
  simp only [foldl_map]
  exact (foldl_hom IpNetworkTable.entries
    fun routes entry => (claimed entry.2.allowed entry.1 routes).symm).symm

theorem rebuildRoutes_routes (apart : Apart responder) (network : IpNetwork) (id : PeerId) :
    responder.rebuildRoutes.routes.exactMatch network = some id ↔
      ∃ conf, responder.confOf id = some conf ∧ network ∈ conf.allowed := by
  rw [IpNetworkTable.exactMatch, rebuildRoutes_entries, ← mem_claims]
  constructor
  · exact HashMap.mem_of_get_ofList
  · intro member
    apply (HashMap.get_ofList _).mpr member
    intro other otherMember
    rcases (responder.mem_claims _ _).mp member with ⟨conf, here, listed⟩
    rcases (responder.mem_claims _ _).mp otherMember with ⟨otherConf, there, otherListed⟩
    by_contra different
    have clear := (apart other id otherConf conf there here different).networks
      network otherListed network listed
    rw [overlaps_self] at clear
    cases clear

/-! ## Traffic -/

theorem Traffic.confOf (traffic : Traffic before after) : after.confOf = before.confOf :=
  funext traffic.peers

theorem Sound.traffic (sound : Sound before) (traffic : Traffic before after) : Sound after where
  views := {
    labels := by
      rw [traffic.byLabel, traffic.confOf]
      exact sound.views.labels
    keys := by
      rw [traffic.byPubkey, traffic.confOf]
      exact sound.views.keys
    routes := by
      rw [traffic.routes, traffic.confOf]
      exact sound.views.routes }
  spent := by
    rw [traffic.indexes, traffic.confOf]
    exact sound.spent

/-! ## Building a responder -/

theorem insertPeerAt_peers (responder : Responder noise)
    (ambient : noise.Ambient) (conf : PeerConf) (index : UInt32) (other : PeerId) :
    (responder.insertPeerAt ambient conf index).peers[other]? =
      if other = ⟨index⟩ then
        some (.added conf (responder.buildTunn ambient conf index))
      else responder.peers[other]? := by
  simp only [insertPeerAt, Std.TreeMap.getElem?_insert]
  by_cases same : other = ⟨index⟩
  · simp [same]
  · rw [if_neg (by simpa using Ne.symm same), if_neg same]

theorem insertPeerAt_confOf (responder : Responder noise)
    (ambient : noise.Ambient) (conf : PeerConf) (index : UInt32) (other : PeerId) :
    (responder.insertPeerAt ambient conf index).confOf other =
      if other = ⟨index⟩ then some conf else responder.confOf other := by
  rw [confOf, insertPeerAt_peers]
  split <;> rfl

structure Filled (inserted : List PeerConf) (responder : Responder noise) : Prop where
  labels : Indexes responder.byLabel responder.confOf PeerConf.label
  keys : Indexes responder.byPubkey responder.confOf PeerConf.public
  members : ∀ id conf, responder.confOf id = some conf → conf ∈ inserted
  spent : ∀ id conf, responder.confOf id = some conf → responder.indexes.Spent id.index

theorem Filled.insertPeer (filled : Filled inserted responder)
    (distinct : ∀ peer ∈ inserted, Distinct peer conf)
    (done : insertPeer ambient responder conf = .ok after) : Filled (inserted ++ [conf]) after := by
  rcases drawn : responder.indexes.next with ⟨index, indexes⟩
  rw [Responder.insertPeer, drawn] at done
  cases index with
  | none => cases done
  | some index =>
    cases done
    have drawnIndex : responder.indexes.next.1 = some index := by rw [drawn]
    have fresh := IndexGen.next_fresh drawnIndex
    have absent : responder.confOf ⟨index⟩ = none := by
      cases present : responder.confOf ⟨index⟩ with
      | none => rfl
      | some other => exact absurd (filled.spent _ other present) fresh.1
    have inserts := fun other =>
      insertPeerAt_confOf { responder with indexes } ambient conf index other
    rw [drawn] at fresh
    constructor
    · apply filled.labels.insert absent _ inserts
      apply filled.labels.unused
      intro id other present
      exact Ne.symm (distinct other (filled.members id other present)).labels
    · apply filled.keys.insert absent _ inserts
      apply filled.keys.unused
      intro id other present
      exact Ne.symm (distinct other (filled.members id other present)).keys
    · intro id other present
      rw [inserts] at present
      split at present
      · cases present
        simp
      · exact mem_append_left _ (filled.members id other present)
    · intro id other present
      rw [inserts] at present
      split at present
      · rename_i here
        subst id
        exact fresh.2
      · have kept := (filled.spent id other present).next
        rw [drawn] at kept
        exact kept

/-- Peers that are inserted one after the other fill the tables. -/
theorem filled_of_inserts (distinct : peers.Pairwise Distinct) (start : Filled [] empty)
    (inserted : peers.foldlM (insertPeer ambient) empty = .ok filled) : Filled peers filled := by
  have reached := Execution.walk_invariant (insertPeer ambient)
    (fun past responder => past.Pairwise Distinct → Filled past responder) (by
      intro past conf responder after holds done pairwise
      have parts := pairwise_append.mp pairwise
      apply (holds parts.1).insertPeer _ done
      intro peer member
      exact parts.2.2 peer member conf (by simp))
    (fun _ => start) inserted
  exact reached distinct

theorem vacant_confOf (ambient : noise.Ambient) (conf : GatewayConf)
    (plan : PeerPlan) (options : ResponderOptions) (indexes : IndexGen) (id : PeerId) :
    (vacant ambient conf plan options indexes).confOf id = none := by
  simp [confOf, vacant]

theorem vacant_filled (ambient : noise.Ambient) (conf : GatewayConf)
    (plan : PeerPlan) (options : ResponderOptions) (indexes : IndexGen) :
    Filled [] (vacant ambient conf plan options indexes) where
  labels := Indexes.empty (vacant_confOf _ _ _ _ _)
  keys := Indexes.empty (vacant_confOf _ _ _ _ _)
  members := by simp [vacant_confOf]
  spent := by simp [vacant_confOf]

theorem Filled.sound (filled : Filled peers responder) (distinct : peers.Pairwise Distinct) :
    Sound responder.rebuildRoutes where
  views := {
    labels := filled.labels
    keys := filled.keys
    routes := rebuildRoutes_routes (apart_of_members distinct filled.labels filled.members) }
  spent := filled.spent

/-- A responder is built over an accepted configuration, by inserting its peers
one after the other. -/
theorem withIndexes_ok {plan : PeerPlan} {indexes : IndexGen}
    (built : withIndexes ambient conf plan options indexes = .ok responder) :
    conf.validate = .ok () ∧ conf.checkAgainst plan = .ok () ∧
      ∃ filled, conf.peers.foldlM (insertPeer ambient)
          (vacant ambient conf plan options indexes) = .ok filled ∧
        responder = filled.rebuildRoutes := by
  rw [withIndexes] at built
  cases valid : conf.validate with
  | error refusal => simp [valid, bind, Except.bind] at built
  | ok _ =>
    cases planned : conf.checkAgainst plan with
    | error refusal => simp [valid, planned, bind, Except.bind] at built
    | ok _ =>
      cases inserted : conf.peers.foldlM (insertPeer ambient)
          (vacant ambient conf plan options indexes) with
      | error refusal => simp [valid, planned, inserted, bind, Except.bind] at built
      | ok filled =>
        simp only [valid, planned, inserted, bind, Except.bind, pure,
          Except.pure, Except.ok.injEq] at built
        exact ⟨rfl, rfl, filled, rfl, built.symm⟩

/-- A responder that is built over a configuration is sound. -/
theorem withIndexes_sound {plan : PeerPlan} {indexes : IndexGen}
    (built : withIndexes ambient conf plan options indexes = .ok responder) : Sound responder := by
  rcases withIndexes_ok built with ⟨valid, _, filled, inserted, rfl⟩
  have distinct := GatewayConf.distinct_of_validate valid
  exact (filled_of_inserts distinct (vacant_filled _ _ _ _ _) inserted).sound distinct

end Responder

end WarrenSdk.Bolthole
