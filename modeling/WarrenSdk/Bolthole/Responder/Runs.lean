import WarrenSdk.Bolthole.Responder.Exact

/-! # Reloads in a run

The tables of a responder are sound in every state that a sequence of
operations reaches, and an index that is spent stays spent. So every reload of
every run is exact, and no peer is ever added under an identifier that a peer
has carried before. -/

namespace WarrenSdk.Bolthole.Responder

open List Execution

/-! ## Sound states -/

variable {responder : Responder noise}

theorem reload_sound (sound : Sound responder) (ambient : noise.Ambient) (conf : GatewayConf) :
    Sound (responder.reload ambient conf).2 := by
  rcases reload_cases sound ambient conf with
    ⟨refusal, outcome⟩ | ⟨fresh, indexes, state, _, underway, outcome⟩
  · rw [outcome]
    exact sound
  · rw [outcome]
    exact underway.sound

theorem step_sound (engine : ChecksumEngine) (responder : Responder noise)
    (op : Op noise) (sound : Sound responder) : Sound (responder.step engine op) := by
  cases operator : op.isOperator with
  | false => exact sound.traffic (step_traffic engine responder operator)
  | true =>
    cases op with
    | setGate | setIpv6 => exact ⟨{ sound.views with }, sound.spent⟩
    | reload ambient conf => exact reload_sound sound ambient conf
    | _ => cases operator

theorem run_sound (engine : ChecksumEngine) (sound : Sound responder) (ops : List (Op noise)) :
    Sound (run engine responder ops) :=
  run_invariant (step engine) Sound sound (step_sound engine) ops

/-! ## Spent indexes stay spent -/

theorem reload_spent (ambient : noise.Ambient) (conf : GatewayConf)
    (spent : responder.indexes.Spent index) :
    (responder.reload ambient conf).2.indexes.Spent index := by
  rcases reload_field indexes (fun _ _ => rfl) applyPeer_indexes (fun _ => rfl)
    responder ambient conf with same | ⟨fresh, indexes, planned, same⟩
  · rw [same]
    exact spent
  · rw [same]
    exact drawFresh_spent (planReload_ok planned).2.2 spent

theorem step_spent (engine : ChecksumEngine) (responder : Responder noise)
    (op : Op noise) (spent : responder.indexes.Spent index) :
    (responder.step engine op).indexes.Spent index := by
  cases operator : op.isOperator with
  | false =>
    rw [(step_traffic engine responder operator).indexes]
    exact spent
  | true =>
    cases op with
    | setGate | setIpv6 => exact spent
    | reload ambient conf => exact reload_spent ambient conf spent
    | _ => cases operator

def Carried (engine : ChecksumEngine) (start : Responder noise)
    (past : List (Op noise)) (id : PeerId) : Prop :=
  ∃ earlier later, past = earlier ++ later ∧ (run engine start earlier).peers[id]? ≠ none

theorem Carried.spent (sound : Sound start) {id : PeerId} (carried : Carried engine start past id) :
    (run engine start past).indexes.Spent id.index := by
  rcases carried with ⟨earlier, later, rfl, present⟩
  rcases Option.ne_none_iff_exists'.mp present with ⟨peer, present⟩
  have spent := (run_sound engine sound earlier).spent id peer.conf
    (confOf_eq_some.mpr ⟨peer, present, rfl⟩)
  rw [run, run_append]
  exact run_invariant (step engine) (fun responder => responder.indexes.Spent id.index) spent
    (step_spent engine) later

/-! ## Exactness -/

/-- What a reload that succeeds leaves: exactly the peers of the configuration,
tables that are their views, the peers whose material is unchanged as they were,
the ones that changed with only their identifier and their counters, and new
ones under identifiers that were not in use. -/
structure Exact (used : PeerId → Prop) (before : Responder noise)
    (ambient : noise.Ambient) (conf : GatewayConf) (after : Responder noise) : Prop where
  confs : after.peerConfs.Perm conf.peers
  views : Views after
  unchanged : ∀ (id : PeerId) (old : Peer noise),
    before.peers[id]? = some old → ∀ next ∈ conf.peers,
    next.label = old.label → old.sameMaterial next = true →
    after.peers[id]? = some old
  changed : ∀ (id : PeerId) (old : Peer noise), before.peers[id]? = some old → ∀ next ∈ conf.peers,
    next.label = old.label → old.sameMaterial next = false →
    after.peers[id]? = some (old.rekeyed next (before.buildTunn ambient next id.index))
  added : ∀ next ∈ conf.peers, (∀ (id : PeerId) (old : Peer noise), before.peers[id]? = some old →
      old.label ≠ next.label) →
    ∃ id peer, after.peers[id]? = some peer ∧ peer.conf = next ∧ ¬ used id

/-- The peers of a responder whose labels are exact have no configuration in
common. -/
theorem peerConfs_nodup (labels : Indexes responder.byLabel responder.confOf PeerConf.label) :
    responder.peerConfs.Nodup := by
  rw [peerConfs, nodup_iff_pairwise_ne, pairwise_map]
  apply Std.TreeMap.distinct_keys_toList.imp_of_mem
  intro left right leftMember rightMember different same
  apply different
  have here : responder.confOf left.1 = some left.2.conf :=
    confOf_eq_some.mpr ⟨left.2, mem_peers.mp leftMember, rfl⟩
  have there : responder.confOf right.1 = some right.2.conf :=
    confOf_eq_some.mpr ⟨right.2, mem_peers.mp rightMember, rfl⟩
  have equal := labels.unique here there (congrArg PeerConf.label same)
  simp [equal]

theorem mem_peerConfs : conf ∈ responder.peerConfs ↔ ∃ id, responder.confOf id = some conf := by
  simp only [peerConfs, mem_map, Prod.exists, mem_peers, confOf_eq_some]

/-- The peer that a known label leads to is where it was, unchanged or under
the new material. -/
theorem Origin.of_present {next : PeerConf} {id : PeerId}
    (labels : Indexes before.byLabel before.confOf PeerConf.label)
    (present : before.peers[id]? = some old) (label : next.label = old.label)
    (origin : Origin before ambient next place peer) :
    place = id ∧ peer = if old.sameMaterial next then old
      else old.rekeyed next (before.buildTunn ambient next id.index) := by
  have carried : before.confOf id = some old.conf := confOf_eq_some.mpr ⟨old, present, rfl⟩
  have located : ∀ other otherPeer, before.peers[other]? = some otherPeer →
      otherPeer.label = next.label → other = id ∧ otherPeer = old := by
    intro other otherPeer otherPresent otherLabel
    have same := labels.unique (confOf_eq_some.mpr ⟨otherPeer, otherPresent, rfl⟩) carried
      (otherLabel.trans label)
    subst other
    rw [present] at otherPresent
    exact ⟨rfl, (Option.some.inj otherPresent).symm⟩
  cases origin with
  | kept otherPresent otherLabel same =>
    rcases located _ _ otherPresent otherLabel with ⟨rfl, rfl⟩
    exact ⟨rfl, by rw [if_pos same]⟩
  | rekeyed otherPresent otherLabel changed =>
    rcases located _ _ otherPresent otherLabel with ⟨rfl, rfl⟩
    exact ⟨rfl, by rw [if_neg (by simp [changed])]⟩
  | added unknown unspent =>
    rw [label, ← Peer.conf_label, labels.get carried] at unknown
    cases unknown

/-- A walk over the whole configuration is exact. -/
theorem Underway.exact {conf : GatewayConf} {state : Reloading noise} (sound : Sound before)
    (underway : Underway before ambient final conf.peers [] state) :
    Exact (fun id => before.indexes.Spent id.index) before ambient conf
      state.responder.rebuildLookups.rebuildRoutes := by
  have known : ∀ (id : PeerId) (old : Peer noise),
      before.peers[id]? = some old → ∀ next ∈ conf.peers, next.label = old.label →
      state.responder.peers[id]? = some (if old.sameMaterial next then old
        else old.rekeyed next (before.buildTunn ambient next id.index)) := by
    intro id old present next member label
    rcases underway.settled next member with ⟨place, peer, there, _, origin⟩
    rcases origin.of_present sound.views.labels present label with ⟨rfl, rfl⟩
    exact there
  constructor
  · have pairwise : conf.peers.Pairwise Distinct := by simpa using underway.distinct
    have nodup : conf.peers.Nodup :=
      pairwise.imp fun distinct same => distinct.labels (by rw [same])
    apply (perm_ext_iff_of_nodup (peerConfs_nodup underway.sound.views.labels) nodup).mpr
    intro next
    rw [mem_peerConfs]
    exact underway.confOf_iff next
  · exact underway.sound.views
  · intro id old present next member label same
    have there := known id old present next member label
    rw [if_pos same] at there
    exact there
  · intro id old present next member label changed
    have there := known id old present next member label
    rw [if_neg (by simp [changed])] at there
    exact there
  · intro next member new
    rcases underway.settled next member with ⟨id, peer, there, carries, origin⟩
    cases origin with
    | kept present label | rekeyed present label => exact absurd label (new _ _ present)
    | added unknown unspent => exact ⟨id, peer, there, carries, unspent⟩

theorem Exact.mono {after : Responder noise} (applied : Exact used before ambient conf after)
    (includes : ∀ id, carried id → used id) : Exact carried before ambient conf after where
  confs := applied.confs
  views := applied.views
  unchanged := applied.unchanged
  changed := applied.changed
  added := by
    intro next member new
    rcases applied.added next member new with ⟨id, peer, there, carries, unused⟩
    exact ⟨id, peer, there, carries, fun before => unused (includes id before)⟩

/-- In every state that a responder reaches, a reload does not panic, changes
nothing if it is refused, and is exact if it succeeds. -/
theorem reload_atomic_exact (engine : ChecksumEngine)
    {opening : noise.Ambient} {initial : GatewayConf} {plan : PeerPlan}
    {options : ResponderOptions} {indexes : IndexGen}
    {start : Responder noise}
    (built : withIndexes opening initial plan options indexes = .ok start)
    (past : List (Op noise)) (ambient : noise.Ambient) (conf : GatewayConf) :
    ((run engine start past).reload ambient conf).1 ≠ .panicked ∧ (∀ refusal,
        ((run engine start past).reload ambient conf).1 = .refused refusal →
        ((run engine start past).reload ambient conf).2 = run engine start past) ∧
      ∀ report, ((run engine start past).reload ambient conf).1 = .ok report →
        Exact (Carried engine start past) (run engine start past) ambient conf
          ((run engine start past).reload ambient conf).2 := by
  have startSound := withIndexes_sound built
  have sound := run_sound engine startSound past
  rcases reload_cases sound ambient conf with
    ⟨refusal, outcome⟩ | ⟨_, _, state, _, underway, outcome⟩
  · rw [outcome]
    exact ⟨by simp, fun _ _ => rfl, by simp⟩
  · rw [outcome]
    refine ⟨by simp, by simp, fun _ _ => ?_⟩
    exact (underway.exact sound).mono fun _ carried => carried.spent startSound

/-- A reload that keeps one peer, puts another under a new key and gives its
old key to a third. -/
theorem reload_atomic_exact_swap :
    ((run Sample.engine Sample.start Sample.past).reload () Sample.next).1 = .ok Sample.report ∧
      Exact (Carried Sample.engine Sample.start Sample.past)
        (run Sample.engine Sample.start Sample.past) () Sample.next
        ((run Sample.engine Sample.start Sample.past).reload () Sample.next).2 :=
  have done : ((run Sample.engine Sample.start Sample.past).reload ()
      Sample.next).1 = .ok Sample.report := by decide +kernel
  ⟨done, (reload_atomic_exact Sample.engine Sample.built Sample.past () Sample.next).2.2 _ done⟩

end WarrenSdk.Bolthole.Responder
