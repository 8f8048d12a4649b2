import WarrenSdk.Bolthole.Responder.Datagrams
import WarrenSdk.Foundation.Execution

/-! # Reloads and runs

A reload applies a new configuration: it draws every index that it will need
before it changes anything, drops the peers that are gone, and then walks the
configuration, rebuilding the peers that changed and adding the new ones. With
it the operations of the responder are complete. -/

namespace WarrenSdk.Bolthole

structure ReloadReport where
  added : List PeerLabel := []
  removed : List PeerLabel := []
  rebuilt : List PeerLabel := []
  unchanged : Nat := 0
  deriving DecidableEq

/-- How a reload ends. It panics when it is out of the indexes that it drew. -/
inductive Reloaded
  | ok (report : ReloadReport)
  | refused (refusal : ConfError)
  | panicked
  deriving DecidableEq

inductive UnknownPeer
  | unknownPeer
  deriving DecidableEq

/-- A peer under new material: its sessions and its endpoint are gone, its
counters stay. -/
def Peer.rekeyed {noise : Noise} (peer : Peer noise) (conf : PeerConf)
    (tunn : noise.Tunn) : Peer noise :=
  { peer with
    «public» := conf.public
    psk := conf.psk
    allowed := conf.allowed
    tunn
    endpoint := none
    lastDrop := none }

theorem Peer.conf_rekeyed {peer : Peer noise} {conf : PeerConf}
    (label : peer.label = conf.label) (tunn : noise.Tunn) :
    (peer.rekeyed conf tunn).conf = conf := by
  cases conf
  simpa [Peer.conf, Peer.rekeyed] using label

namespace Responder

def drawFresh (byLabel : HashMap PeerLabel PeerId) :
    List PeerConf → IndexGen → Except ConfError (List UInt32 × IndexGen)
  | [], indexes => .ok ([], indexes)
  | peer :: rest, indexes =>
    if (byLabel.get peer.label).isSome then drawFresh byLabel rest indexes
    else
      match indexes.next with
      | (none, _) => .error .tooManyPeers
      | (some index, indexes) => do
        let (fresh, indexes) ← drawFresh byLabel rest indexes
        return (index :: fresh, indexes)

def gone (responder : Responder noise) (conf : GatewayConf) : List (PeerId × PeerLabel) :=
  let wanted : HashMap PeerLabel PeerConf := .ofList (conf.peers.map fun peer => (peer.label, peer))
  (responder.peers.toList.filter fun entry =>
    (wanted.get entry.2.label).isNone).map fun entry => (entry.1, entry.2.label)

def removePeer (responder : Responder noise) (entry : PeerId × PeerLabel) : Responder noise :=
  { responder with
    peers := responder.peers.erase entry.1
    byLabel := responder.byLabel.remove entry.2 }

def pruned (responder : Responder noise) (conf : GatewayConf)
    (indexes : IndexGen) : Responder noise :=
  (responder.gone conf).foldl removePeer { responder with indexes }

/-- A reload under way: the responder, the indexes that are left and what has
changed so far. -/
structure Reloading (noise : Noise) where
  responder : Responder noise
  fresh : List UInt32
  report : ReloadReport

def rekeyPeer (responder : Responder noise) (ambient : noise.Ambient)
    (id : PeerId) (conf : PeerConf) : Responder noise :=
  let tunn := responder.buildTunn ambient conf id.index
  { responder with
    peers := responder.peers.modify id fun live => live.rekeyed conf tunn }

/-- One peer of the new configuration. A reload that panics here stops with the
responder as it is. -/
def applyPeer (ambient : noise.Ambient) (state : Reloading noise)
    (conf : PeerConf) : Except (Responder noise) (Reloading noise) :=
  let { responder, fresh, report } := state
  match responder.byLabel.get conf.label with
  | some id =>
    if responder.peers[id]?.any fun live => live.sameMaterial conf then
      .ok { state with
        report := { report with unchanged := report.unchanged + 1 } }
    else
      .ok { state with
        responder := responder.rekeyPeer ambient id conf
        report := { report with rebuilt := report.rebuilt ++ [conf.label] } }
  | none =>
    match fresh with
    | [] => .error responder
    | index :: fresh =>
      .ok {
        responder := responder.insertPeerAt ambient conf index
        fresh
        report := { report with added := report.added ++ [conf.label] } }

/-- Everything that can refuse a reload, and the indexes that it will need. -/
def planReload (responder : Responder noise) (conf : GatewayConf) :
    Except ConfError (List UInt32 × IndexGen) := do
  conf.validate
  conf.checkAgainst responder.plan
  drawFresh responder.byLabel conf.peers responder.indexes

def startReload (responder : Responder noise) (conf : GatewayConf)
    (fresh : List UInt32) (indexes : IndexGen) : Reloading noise where
  responder := responder.pruned conf indexes
  fresh := fresh
  report := { removed := (responder.gone conf).map Prod.snd }

def reload (responder : Responder noise) (ambient : noise.Ambient)
    (conf : GatewayConf) : Reloaded × Responder noise :=
  match responder.planReload conf with
  | .error refusal => (.refused refusal, responder)
  | .ok (fresh, indexes) =>
    match conf.peers.foldlM (applyPeer ambient)
      (responder.startReload conf fresh indexes) with
    | .error responder => (.panicked, responder)
    | .ok state => (.ok state.report, state.responder.rebuildLookups.rebuildRoutes)

/-! ## What a reload leaves alone -/

section Fields

variable {Field : Type} (field : Responder noise → Field)

theorem removePeers_field
    (kept : ∀ responder entry, field (removePeer responder entry) = field responder)
    (responder : Responder noise) (entries : List (PeerId × PeerLabel)) :
    field (entries.foldl removePeer responder) = field responder := by
  induction entries generalizing responder with
  | nil => rfl
  | cons entry entries induction =>
    exact (induction (responder.removePeer entry)).trans (kept responder entry)

def reached : Except (Responder noise) (Reloading noise) → Responder noise
  | .ok state => state.responder
  | .error responder => responder

theorem applyPeers_field (kept : ∀ ambient state conf,
      field (reached (applyPeer ambient state conf)) = field state.responder)
    (ambient : noise.Ambient) (confs : List PeerConf) (state : Reloading noise) :
    field (reached (confs.foldlM (applyPeer ambient) state)) = field state.responder := by
  induction confs generalizing state with
  | nil => rfl
  | cons conf confs induction =>
    have first := kept ambient state conf
    rw [List.foldlM_cons]
    cases outcome : applyPeer ambient state conf with
    | error responder =>
      rw [outcome] at first
      exact first
    | ok next =>
      rw [outcome] at first
      exact (induction next).trans first

/-- A field that no step of a reload touches is, whatever the outcome, as the
draw of the indexes left it. -/
theorem reload_field
    (removes : ∀ responder entry, field (removePeer responder entry) = field responder)
    (applies : ∀ ambient state conf,
      field (reached (applyPeer ambient state conf)) = field state.responder)
    (rebuilds : ∀ responder : Responder noise,
      field responder.rebuildLookups.rebuildRoutes = field responder)
    (responder : Responder noise) (ambient : noise.Ambient) (conf : GatewayConf) :
    field (responder.reload ambient conf).2 = field responder ∨
      ∃ fresh indexes, responder.planReload conf = .ok (fresh, indexes) ∧
        field (responder.reload ambient conf).2 = field { responder with indexes } := by
  cases plan : responder.planReload conf with
  | error refusal =>
    apply Or.inl
    rw [reload, plan]
  | ok drawn =>
    rcases drawn with ⟨fresh, indexes⟩
    refine .inr ⟨fresh, indexes, rfl, ?_⟩
    have walked := applyPeers_field field applies ambient conf.peers
      (responder.startReload conf fresh indexes)
    rw [startReload, pruned, removePeers_field field removes] at walked
    rw [← walked, reload, plan]
    simp only [startReload, pruned]
    split
    all_goals
      rename_i outcome
      rw [outcome]
    · rfl
    · exact rebuilds _

end Fields

theorem applyPeer_gate (ambient : noise.Ambient) (state : Reloading noise) (conf : PeerConf) :
    (reached (applyPeer ambient state conf)).gate = state.responder.gate := by
  unfold applyPeer
  dsimp only
  split
  · split <;> rfl
  · split <;> rfl

theorem applyPeer_indexes (ambient : noise.Ambient) (state : Reloading noise) (conf : PeerConf) :
    (reached (applyPeer ambient state conf)).indexes =
      state.responder.indexes := by
  unfold applyPeer
  dsimp only
  split
  · split <;> rfl
  · split <;> rfl

theorem reload_gate (responder : Responder noise) (ambient : noise.Ambient) (conf : GatewayConf) :
    (responder.reload ambient conf).2.gate = responder.gate := by
  rcases reload_field gate (fun _ _ => rfl) applyPeer_gate (fun _ => rfl)
    responder ambient conf with same | ⟨_, _, _, same⟩
  · exact same
  · exact same

def resetPeer (responder : Responder noise) (ambient : noise.Ambient)
    (label : PeerLabel) : Except UnknownPeer Unit × Responder noise :=
  match responder.byLabel.get label with
  | none => (.error .unknownPeer, responder)
  | some id =>
    let responder := responder.rebuild ambient id
    (.ok (), { responder with
      peers := responder.peers.modify id fun peer =>
        { peer with lastDrop := none } })

/-! ## Runs -/

/-- The operations of the responder, each with what the protocol library reads
beside its own state while it runs. -/
inductive Op (noise : Noise)
  | handleDatagram (ambient : noise.Ambient) (src : SocketAddr)
      (datagram : List UInt8) (now : Instant) (scratch : List UInt8)
  | flush (ambient : noise.Ambient) (peer : PeerId) (scratch : List UInt8)
  | encapsulateTo (ambient : noise.Ambient) (dst : IpAddr) (packet scratch : List UInt8)
  | sendToPeer (ambient : noise.Ambient) (peer : PeerId) (packet scratch : List UInt8)
  | tick (ambient : noise.Ambient) (now : Instant) (wall : SystemTime) (scratch : List UInt8)
  | setGate («open» : Bool) (generation : UInt64)
  | setIpv6 (state : V6State)
  | reload (ambient : noise.Ambient) (conf : GatewayConf)
  | resetPeer (ambient : noise.Ambient) (label : PeerLabel)

inductive Output
  | inbound (inbound : Inbound)
  | flushed (bytes : Option (List UInt8))
  | encapsulated (result : Except RouteError Encapsulated)
  | ticked (out : List (SocketAddr × List UInt8))
  | reloaded (result : Reloaded)
  | reset (result : Except UnknownPeer Unit)
  | nothing

def apply (engine : ChecksumEngine) (responder : Responder noise) :
    Op noise → Output × Responder noise
  | .handleDatagram ambient src datagram now scratch =>
    (responder.handleDatagram engine ambient src datagram now scratch).map .inbound id
  | .flush ambient peer scratch => (responder.flush ambient peer scratch).map .flushed id
  | .encapsulateTo ambient dst packet scratch =>
    (responder.encapsulateTo ambient dst packet scratch).map .encapsulated id
  | .sendToPeer ambient peer packet scratch =>
    (responder.sendToPeer ambient peer packet scratch).map .encapsulated id
  | .tick ambient now wall scratch => (responder.tick ambient now wall scratch).map .ticked id
  | .setGate «open» generation => (.nothing, responder.setGate «open» generation)
  | .setIpv6 state => (.nothing, responder.setIpv6 state)
  | .reload ambient conf => (responder.reload ambient conf).map .reloaded id
  | .resetPeer ambient label => (responder.resetPeer ambient label).map .reset id

def step (engine : ChecksumEngine) (responder : Responder noise)
    (op : Op noise) : Responder noise :=
  (responder.apply engine op).2

def run (engine : ChecksumEngine) (responder : Responder noise)
    (ops : List (Op noise)) : Responder noise :=
  Execution.run (step engine) responder ops

end Responder

/-! ## A small world

A protocol library that never keeps quiet: an empty datagram is answered with a
cookie, any other one is data for the first peer, and every call on a tunnel
writes to the network. A tunnel is the number of calls on it. -/

namespace Responder.Sample

def noise : Noise where
  Tunn := Nat
  RateLimiter := Unit
  Init := PeerPublicKey
  Ambient := Unit
  newLimiter _ _ _ := ()
  resetCount _ _ := ()
  verifyPacket _ _ _ datagram :=
    (if datagram = [] then .error (.writeToNetwork [3])
      else .ok (.packetData 0x100), ())
  parseHandshakeAnon _ init := some init
  newTunn _ _ _ _ _ _ := 0
  decapsulate _ _ calls _ _ scratch := ⟨.writeToNetwork [2], 2 :: scratch, calls + 1, ()⟩
  encapsulate _ _ calls _ scratch := ⟨.writeToNetwork [4], 4 :: scratch, calls + 1, ()⟩
  updateTimers _ _ calls scratch := ⟨.writeToNetwork [1], 1 :: scratch, calls + 1, ()⟩
  dstAddress _ := none

def engine : ChecksumEngine where
  incrementalChecksumUpdate checksum _ _ := checksum
  internetChecksum _ _ := 0
  icmpv6PseudoSum _ _ _ := 0

def key (value : UInt8) : PeerPublicKey := ⟨Vector.replicate 32 value⟩

def peer (label : PeerLabel) (value host : UInt8) : PeerConf where
  label := label
  «public» := key value
  psk := none
  allowed := [.single (.v4 (.ofOctets [10, 67, 0, host]))]

theorem usable_laptop : "laptop" = "" ∨ usableLabel "laptop" := by decide

def laptop : PeerLabel := ⟨"laptop", usable_laptop⟩
def phone : PeerLabel := ⟨"phone", by decide⟩
def tablet : PeerLabel := ⟨"tablet", by decide⟩

def conf (peers : List PeerConf) : GatewayConf where
  key := ⟨Vector.replicate 32 0, key 0⟩
  peers := peers

def initial : GatewayConf := conf [peer laptop 1 2, peer phone 2 3]

def next : GatewayConf := conf [peer tablet 2 4, peer phone 3 3, peer laptop 1 2]

def report : ReloadReport where
  added := [tablet]
  rebuilt := [phone]
  unchanged := 1

def opened : Except ConfError (Responder noise) :=
  withIndexes () initial .default {} (.fromSeed 2 0)

def start : Responder noise := opened.toOption.getD (vacant () initial .default {} (.fromSeed 2 0))

theorem built : opened = .ok start := by
  have accepted : opened.isOk = true := by decide +kernel
  unfold start
  cases outcome : opened with
  | error refusal =>
    rw [outcome] at accepted
    cases accepted
  | ok responder => rfl

def visitor : SocketAddr := ⟨.v4 (.ofOctets [203, 0, 113, 9]), 51820⟩

/-- A datagram that opens the first peer's tunnel, behind a gate that is opened
and closed. -/
def past : List (Op noise) :=
  [.setGate true 1, .handleDatagram () visitor [4] 0 [], .setGate false 2]

end Responder.Sample

end WarrenSdk.Bolthole
