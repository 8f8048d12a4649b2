import WarrenSdk.Bolthole.Responder.Runs

/-! # Who owns an address

The peers' allowed networks, the routes of the responder and the view that the
translator is handed say the same about every address, in every state that a
responder reaches. An accepted configuration gives no address to two peers, and
none of the tunnel pool or of the gateway to any. -/

namespace WarrenSdk.Bolthole

open List

theorem Ownership.table_foldl_insert (networks : List IpNetwork) (id : PeerId)
    (ownership : Ownership) : (networks.foldl (fun ownership network => ownership.insert network id)
      ownership).table = networks.foldl (fun table network => table.insert network id)
        ownership.table := by
  induction networks generalizing ownership with
  | nil => rfl
  | cons network networks induction => exact induction _

namespace Responder

def ownership (responder : Responder noise) : Ownership :=
  responder.peers.toList.foldl (fun ownership entry =>
    entry.2.allowed.foldl (fun ownership network =>
      ownership.insert network entry.1) ownership) .new

/-- The translator is handed the routes that a rebuild would give. -/
theorem ownership_table (responder : Responder noise) :
    responder.ownership.table = responder.rebuildRoutes.routes := by
  have walked : ∀ (entries : List (PeerId × Peer noise)) (ownership : Ownership),
      (entries.foldl (fun ownership entry =>
        entry.2.allowed.foldl (fun ownership network =>
          ownership.insert network entry.1) ownership) ownership).table =
      entries.foldl (fun routes entry =>
        entry.2.allowed.foldl (fun routes network =>
          routes.insert network entry.1) routes) ownership.table := by
    intro entries
    induction entries with
    | nil => exact fun _ => rfl
    | cons entry entries induction =>
      intro ownership
      rw [foldl_cons, induction, Ownership.table_foldl_insert]
      rfl
  exact walked responder.peers.toList .new

/-! ## Lookups in a table of claims -/

theorem owns_iff {peer : Peer noise} :
    peer.owns addr ↔ ∃ network ∈ peer.allowed, network.contains addr := by
  simp [Peer.owns]

variable {responder : Responder noise}

/-- Peers that are apart have no address in common. -/
theorem Apart.eq_of_owns (apart : Apart responder) {id : PeerId}
    (here : responder.confOf id = some conf) (there : responder.confOf other = some otherConf)
    (listed : network ∈ conf.allowed) (otherListed : otherNetwork ∈ otherConf.allowed)
    (covers : network.contains addr) (otherCovers : otherNetwork.contains addr) : id = other := by
  by_contra different
  have clear := (apart id other conf otherConf here there different).networks
    network listed otherNetwork otherListed
  rw [(overlaps_iff _ _).mpr ⟨addr, otherCovers, covers⟩] at clear
  cases clear

/-- A prefix table that holds exactly the claims of the live peers resolves an
address to the peer that owns it. -/
theorem longestMatch_iff_owns (apart : Apart responder)
    {table : IpNetworkTable PeerId}
    (claimed : ∀ network id, table.exactMatch network = some id ↔
      ∃ conf, responder.confOf id = some conf ∧ network ∈ conf.allowed)
    (addr : IpAddr) (id : PeerId) :
    (table.longestMatch addr).map Prod.snd = some id ↔
      ∃ peer, responder.peers[id]? = some peer ∧ peer.owns addr := by
  rw [IpNetworkTable.longestMatch_owner]
  · constructor
    · intro covered
      rcases covered with ⟨network, found, covers⟩
      rcases (claimed network id).mp found with ⟨conf, carried, listed⟩
      rcases confOf_eq_some.mp carried with ⟨peer, present, rfl⟩
      exact ⟨peer, present, owns_iff.mpr ⟨network, listed, covers⟩⟩
    · intro owned
      rcases owned with ⟨peer, present, owns⟩
      rcases owns_iff.mp owns with ⟨network, listed, covers⟩
      have carried : responder.confOf id = some peer.conf := confOf_eq_some.mpr ⟨peer, present, rfl⟩
      exact ⟨network, (claimed network id).mpr ⟨_, carried, listed⟩, covers⟩
  · intro network owner other otherOwner found covers otherFound otherCovers
    rcases (claimed network owner).mp found with ⟨conf, here, listed⟩
    rcases (claimed other otherOwner).mp otherFound with ⟨otherConf, there, otherListed⟩
    exact apart.eq_of_owns here there listed otherListed covers otherCovers

/-! ## The configuration in force -/

/-- The configuration that a responder serves is accepted, and the peers of it
are the live ones. -/
structure Serves (plan : PeerPlan) (conf : GatewayConf) (responder : Responder noise) : Prop where
  samePlan : responder.plan = plan
  valid : conf.validate = .ok ()
  planned : conf.checkAgainst plan = .ok ()
  peers : ∀ peer, (∃ id, responder.confOf id = some peer) ↔ peer ∈ conf.peers

/-- The configuration that an operation leaves in force: a reload that succeeds
replaces it. -/
def nextConf (responder : Responder noise) (conf : GatewayConf) : Op noise → GatewayConf
  | .reload ambient next =>
    match (responder.reload ambient next).1 with
    | .ok _ => next
    | .refused _ | .panicked => conf
  | _ => conf

def inForce (engine : ChecksumEngine) (responder : Responder noise)
    (conf : GatewayConf) : List (Op noise) → GatewayConf
  | [] => conf
  | op :: ops => inForce engine (responder.step engine op) (responder.nextConf conf op) ops

theorem applyPeer_plan (ambient : noise.Ambient) (state : Reloading noise) (conf : PeerConf) :
    (reached (applyPeer ambient state conf)).plan = state.responder.plan := by
  unfold applyPeer
  dsimp only
  split
  · split <;> rfl
  · split <;> rfl

theorem reload_plan (responder : Responder noise) (ambient : noise.Ambient) (conf : GatewayConf) :
    (responder.reload ambient conf).2.plan = responder.plan := by
  rcases reload_field Responder.plan (fun _ _ => rfl) applyPeer_plan
    (fun _ => rfl) responder ambient conf with same | ⟨_, _, _, same⟩
  · exact same
  · exact same

variable {plan : PeerPlan} {indexes : IndexGen}

theorem Serves.step (serves : Serves plan conf responder)
    (engine : ChecksumEngine) (sound : Sound responder) (op : Op noise) :
    Serves plan (responder.nextConf conf op) (responder.step engine op) := by
  cases operator : op.isOperator with
  | false =>
    have traffic := step_traffic engine responder operator
    have same : responder.nextConf conf op = conf := by
      cases op with
      | reload => cases operator
      | _ => rfl
    rw [same]
    exact {
      samePlan := traffic.plan.trans serves.samePlan
      valid := serves.valid
      planned := serves.planned
      peers := by
        rw [traffic.confOf]
        exact serves.peers }
  | true =>
    cases op with
    | setGate | setIpv6 => exact { serves with }
    | reload ambient next =>
      have plan := reload_plan responder ambient next
      rcases reload_cases sound ambient next with
        ⟨refusal, outcome⟩ | ⟨_, _, state, drawn, underway, outcome⟩
      · simpa [nextConf, Responder.step, apply, outcome] using serves
      · have checked := planReload_ok drawn
        rw [outcome] at plan
        simp only [nextConf, Responder.step, apply, outcome, Prod.map]
        exact {
          samePlan := plan.trans serves.samePlan
          valid := checked.1
          planned := serves.samePlan ▸ checked.2.1
          peers := underway.confOf_iff }
    | _ => cases operator

theorem Serves.run (serves : Serves plan conf responder)
    (engine : ChecksumEngine) (sound : Sound responder) (ops : List (Op noise)) :
    Serves plan (inForce engine responder conf ops) (run engine responder ops) := by
  induction ops generalizing responder conf with
  | nil => exact serves
  | cons op ops induction =>
    exact induction (serves.step engine sound op) (step_sound engine responder op sound)

theorem inserts_present {peers : List PeerConf}
    (distinct : peers.Pairwise Distinct) (start : Filled [] empty)
    (inserted : peers.foldlM (insertPeer ambient) empty = .ok filled) :
    ∀ peer ∈ peers, ∃ id, filled.confOf id = some peer := by
  have reached := Execution.walk_invariant (insertPeer ambient)
    (fun past responder => past.Pairwise Distinct → Filled past responder ∧
      ∀ peer ∈ past, ∃ id, responder.confOf id = some peer)
    (by
      intro past conf responder after holds done pairwise
      have parts := pairwise_append.mp pairwise
      rcases holds parts.1 with ⟨filling, live⟩
      have next := filling.insertPeer (fun peer member => parts.2.2 peer member conf (by simp)) done
      refine ⟨next, fun peer member => ?_⟩
      rcases drawn : responder.indexes.next with ⟨index, indexes⟩
      rw [insertPeer, drawn] at done
      cases index with
      | none => cases done
      | some index =>
        cases done
        have drawnIndex : responder.indexes.next.1 = some index := by rw [drawn]
        have fresh := IndexGen.next_fresh drawnIndex
        rcases mem_append.mp member with old | new
        · rcases live peer old with ⟨id, carried⟩
          refine ⟨id, ?_⟩
          rw [insertPeerAt_confOf, if_neg]
          · exact carried
          · intro same
            subst same
            exact fresh.1 (filling.spent _ peer carried)
        · rw [mem_singleton] at new
          subst new
          exact ⟨⟨index⟩, by rw [insertPeerAt_confOf, if_pos rfl]⟩)
    (fun _ => ⟨start, by simp⟩) inserted
  exact (reached distinct).2

def setup (responder : Responder noise) : PeerPlan × Gate × V6State :=
  (responder.plan, responder.gate, responder.v6)

theorem insertPeer_setup {conf : PeerConf} {after : Responder noise}
    (done : insertPeer ambient responder conf = .ok after) : after.setup = responder.setup := by
  rw [insertPeer] at done
  split at done
  · cases done
  · cases done
    rfl

theorem inserts_setup {peers : List PeerConf}
    (inserted : peers.foldlM (insertPeer ambient) empty = .ok filled) :
    filled.setup = empty.setup := by
  induction peers generalizing empty with
  | nil =>
    cases inserted
    rfl
  | cons peer peers induction =>
    rw [foldlM_cons] at inserted
    cases done : insertPeer ambient empty peer with
    | error refusal => simp [done, bind, Except.bind] at inserted
    | ok next =>
      rw [done] at inserted
      exact (induction inserted).trans (insertPeer_setup done)

/-- A responder is built for its plan, with its gate closed. -/
theorem withIndexes_setup (built : withIndexes ambient conf plan options indexes = .ok responder) :
    responder.setup = (plan, {}, .available) := by
  rcases withIndexes_ok built with ⟨_, _, filled, inserted, rfl⟩
  exact inserts_setup inserted

/-- A responder serves the configuration that it is built over. -/
theorem withIndexes_serves (built : withIndexes ambient conf plan options indexes = .ok responder) :
    Serves plan conf responder := by
  rcases withIndexes_ok built with ⟨valid, planned, filled, inserted, rfl⟩
  have distinct := GatewayConf.distinct_of_validate valid
  have empty := vacant_filled ambient conf plan options indexes
  constructor
  · exact congrArg Prod.fst (inserts_setup inserted)
  · exact valid
  · exact planned
  · intro peer
    constructor
    · intro live
      rcases live with ⟨id, carried⟩
      exact (filled_of_inserts distinct empty inserted).members id peer carried
    · exact inserts_present distinct empty inserted peer

/-! ## Agreement -/

/-- The allowed networks, the routes and the translator's view name the same
owner of every address, for exactly the peers of the configuration. -/
structure Agrees (plan : PeerPlan) (conf : GatewayConf) (responder : Responder noise) : Prop where
  peers : responder.peerConfs.Perm conf.peers
  routed : ∀ addr id, (∃ peer, responder.peers[id]? = some peer ∧ peer.owns addr = true) ↔
      (responder.routes.longestMatch addr).map Prod.snd = some id
  translated : ∀ addr id, (responder.routes.longestMatch addr).map Prod.snd = some id ↔
      responder.ownership.ownerOf addr = some id
  single : ∀ addr (id other : PeerId) (peer otherPeer : Peer noise),
    responder.peers[id]? = some peer → peer.owns addr = true →
    responder.peers[other]? = some otherPeer → otherPeer.owns addr = true → id = other
  outside : ∀ addr (id : PeerId) (peer : Peer noise),
    responder.peers[id]? = some peer → peer.owns addr = true →
    isTunnelPool addr = false ∧ plan.isGateway addr = false

theorem Serves.apart (serves : Serves plan conf responder) (sound : Sound responder) :
    Apart responder := by
  apply apart_of_members (GatewayConf.distinct_of_validate serves.valid) sound.views.labels
  intro id peer carried
  exact (serves.peers peer).mp ⟨id, carried⟩

theorem Serves.agrees (serves : Serves plan conf responder) (sound : Sound responder) :
    Agrees plan conf responder := by
  have apart := serves.apart sound
  have routed := longestMatch_iff_owns apart sound.views.routes
  have translated := longestMatch_iff_owns apart (rebuildRoutes_routes apart)
  have distinct := GatewayConf.distinct_of_validate serves.valid
  constructor
  · apply (perm_ext_iff_of_nodup (peerConfs_nodup sound.views.labels)
      (distinct.imp fun apart same => apart.labels (by rw [same]))).mpr
    intro peer
    exact mem_peerConfs.trans (serves.peers peer)
  · intro addr id
    exact (routed addr id).symm
  · intro addr id
    rw [routed, Ownership.ownerOf, ownership_table, translated]
  · intro addr id other peer otherPeer here owns there otherOwns
    have found := (routed addr id).mpr ⟨peer, here, owns⟩
    have otherFound := (routed addr other).mpr ⟨otherPeer, there, otherOwns⟩
    exact Option.some.inj (found.symm.trans otherFound)
  · intro addr id peer here owns
    rcases owns_iff.mp owns with ⟨network, listed, covers⟩
    have member : peer.conf ∈ conf.peers :=
      (serves.peers _).mp ⟨id, confOf_eq_some.mpr ⟨peer, here, rfl⟩⟩
    constructor
    · exact isTunnelPool_eq_false
        ((GatewayConf.clear_of_validate serves.valid member).2 network listed) covers
    · exact GatewayConf.foreign_of_checkAgainst serves.planned member listed covers

/-- In every state that a responder reaches, the three views of ownership
agree for the configuration in force, which is an accepted one. -/
theorem ownership_views_agree (engine : ChecksumEngine)
    {opening : noise.Ambient} {initial : GatewayConf} {plan : PeerPlan}
    {options : ResponderOptions} {indexes : IndexGen}
    {start : Responder noise}
    (built : withIndexes opening initial plan options indexes = .ok start)
    (past : List (Op noise)) :
    (inForce engine start initial past).validate = .ok () ∧
      (inForce engine start initial past).checkAgainst plan = .ok () ∧
      Agrees plan (inForce engine start initial past) (run engine start past) := by
  have sound := withIndexes_sound built
  have serves := (withIndexes_serves built).run engine sound past
  exact ⟨serves.valid, serves.planned, serves.agrees (run_sound engine sound past)⟩

/-- A laptop, a phone under a new key and a tablet, behind a reload. -/
theorem ownership_views_agree_reloaded : inForce Sample.engine Sample.start Sample.initial
        [.reload () Sample.next] = Sample.next ∧
      Agrees .default Sample.next (run Sample.engine Sample.start [.reload () Sample.next]) :=
  have replaced : inForce Sample.engine Sample.start Sample.initial
      [.reload () Sample.next] = Sample.next := by decide +kernel
  ⟨replaced, by
    have agrees := (ownership_views_agree Sample.engine Sample.built [.reload () Sample.next]).2.2
    rw [replaced] at agrees
    exact agrees⟩

end Responder

end WarrenSdk.Bolthole
