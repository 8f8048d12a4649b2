import WarrenSdk.Bolthole.Responder.Reload

/-! # What traffic leaves alone

Datagrams, packets and timers change sessions, endpoints and counters. They
leave the gate, the plan, the lookups and the identity of every peer as they
are. -/

namespace WarrenSdk.Bolthole.Responder

def standing (responder : Responder noise) :=
  (responder.gate, responder.plan, responder.indexes, responder.byLabel,
    responder.byPubkey, responder.routes)

/-- The part of a responder that only its operator changes is the same. -/
structure Traffic (before after : Responder noise) : Prop where
  gate : after.gate = before.gate
  plan : after.plan = before.plan
  indexes : after.indexes = before.indexes
  byLabel : after.byLabel = before.byLabel
  byPubkey : after.byPubkey = before.byPubkey
  routes : after.routes = before.routes
  peers : ∀ id : PeerId, after.peers[id]?.map Peer.conf = before.peers[id]?.map Peer.conf

namespace Traffic

theorem of_standing {after : Responder noise} (same : after.standing = before.standing)
    (peers : ∀ id : PeerId, after.peers[id]?.map Peer.conf =
      before.peers[id]?.map Peer.conf) : Traffic before after := by
  simp only [standing, Prod.mk.injEq] at same
  rcases same with ⟨gate, plan, indexes, byLabel, byPubkey, routes⟩
  exact ⟨gate, plan, indexes, byLabel, byPubkey, routes, peers⟩

theorem still {after : Responder noise} (same : after.standing = before.standing)
    (peers : after.peers = before.peers) : Traffic before after :=
  .of_standing same fun id => by rw [peers]

theorem refl (responder : Responder noise) : Traffic responder responder := .still rfl rfl

theorem trans (earlier : Traffic first second) (later : Traffic second third) :
    Traffic first third where
  gate := later.gate.trans earlier.gate
  plan := later.plan.trans earlier.plan
  indexes := later.indexes.trans earlier.indexes
  byLabel := later.byLabel.trans earlier.byLabel
  byPubkey := later.byPubkey.trans earlier.byPubkey
  routes := later.routes.trans earlier.routes
  peers id := (later.peers id).trans (earlier.peers id)

theorem foldl (view : State → Responder noise) (visit : State → Item → State)
    (each : ∀ state item, Traffic (view state) (view (visit state item)))
    (items : List Item) (state : State) :
    Traffic (view state) (view (items.foldl visit state)) := by
  induction items generalizing state with
  | nil => exact refl _
  | cons item items induction => exact (each state item).trans (induction _)

end Traffic

/-! ## Edits of one peer -/

/-- An edit that keeps a peer's identity keeps everyone's. -/
theorem modify_conf (peers : Std.TreeMap PeerId (Peer noise)) (id : PeerId)
    (keeps : ∀ peer, (edit peer).conf = peer.conf) (other : PeerId) :
    (peers.modify id edit)[other]?.map Peer.conf = peers[other]?.map Peer.conf := by
  rw [Std.TreeMap.getElem?_modify]
  by_cases same : id = other
  · subst other
    simp [Option.map_map, Function.comp_def, keeps]
  · simp [same]

section

variable (responder : Responder noise)

include responder

theorem note_traffic (reason : DropReason) : Traffic responder (responder.note reason) :=
  .still rfl rfl

theorem noteFor_traffic (peer : PeerId) (reason : DropReason) :
    Traffic responder (responder.noteFor peer reason) :=
  .of_standing rfl (modify_conf _ _ fun _ => rfl)

variable (id : PeerId)

theorem settle_traffic (reaction : Reaction noise.Tunn noise.RateLimiter) :
    Traffic responder (responder.settle id reaction) :=
  .of_standing rfl (modify_conf _ _ fun _ => rfl)

theorem setEndpoint_traffic (endpoint : Option SocketAddr) :
    Traffic responder (responder.setEndpoint id endpoint) :=
  .of_standing rfl (modify_conf _ _ fun _ => rfl)

theorem countSent_traffic (bytes : Nat) : Traffic responder (responder.countSent id bytes) :=
  .of_standing rfl (modify_conf _ _ fun _ => rfl)

theorem countReceived_traffic (bytes : Nat) :
    Traffic responder (responder.countReceived id bytes) :=
  .of_standing rfl (modify_conf _ _ fun _ => rfl)

theorem countHandshake_traffic (src : SocketAddr) :
    Traffic responder (responder.countHandshake id src) :=
  .of_standing rfl (modify_conf _ _ fun _ => rfl)

theorem countDeferred_traffic : Traffic responder (responder.countDeferred id) :=
  .of_standing rfl (modify_conf _ _ fun _ => rfl)

theorem rebuild_traffic (ambient : noise.Ambient) (id : PeerId) :
    Traffic responder (responder.rebuild ambient id) := by
  unfold rebuild
  split
  · exact .refl _
  · exact .of_standing rfl (modify_conf _ _ fun _ => rfl)

/-! ## Datagrams -/

theorem decapsulate_traffic (ambient : noise.Ambient) (id : PeerId)
    (src : SocketAddr) (datagram scratch : List UInt8) :
    Traffic responder (responder.decapsulate ambient id src datagram scratch).2.2 := by
  unfold decapsulate
  split
  · exact .refl _
  · exact settle_traffic _ _ _

theorem encapsulateInto_traffic (ambient : noise.Ambient) (id : PeerId)
    (packet scratch : List UInt8) :
    Traffic responder (responder.encapsulateInto ambient id packet scratch).2.2 := by
  unfold encapsulateInto
  split
  · exact .refl _
  · dsimp only
    split
    · split
      · exact (settle_traffic _ _ _).trans (countSent_traffic _ _ _)
      · exact settle_traffic _ _ _
    · exact settle_traffic _ _ _

theorem noteAnswer_traffic (reason : Answer) : Traffic responder (responder.noteAnswer reason) := by
  unfold noteAnswer
  split
  · exact note_traffic _ _
  · exact .refl _

theorem sendAnswer_traffic (ambient : noise.Ambient) (id : PeerId) (packet scratch : List UInt8) :
    Traffic responder (responder.sendAnswer ambient id packet scratch).2 := by
  have sealed := encapsulateInto_traffic responder ambient id packet scratch
  unfold sendAnswer
  split
  all_goals
    rename_i equal
    rw [equal] at sealed
    exact { sealed with }

end

section

variable (engine : ChecksumEngine) (responder : Responder noise)
    (ambient : noise.Ambient) (id : PeerId)

include engine responder ambient id

theorem answerPacket_traffic (reason : Answer) (packet scratch : List UInt8) (now : Instant) :
    Traffic responder (responder.answerPacket engine ambient id reason packet scratch now).2 := by
  apply (noteAnswer_traffic responder reason).trans
  unfold answerPacket
  dsimp only
  split
  · exact .still rfl rfl
  · split
    · exact .still rfl rfl
    · exact { sendAnswer_traffic _ _ _ _ _ with }

theorem deliver_traffic (len : Nat) (now : Instant) (scratch : List UInt8) :
    Traffic responder (responder.deliver engine ambient id len now scratch).2 := by
  unfold deliver
  dsimp only
  split
  · exact .still rfl rfl
  · exact .still rfl rfl
  · exact answerPacket_traffic _ _ _ _ _ _ _ _
  · exact noteFor_traffic _ _ _

theorem demuxTunnel_traffic (len : Nat) (inner : IpAddr) (now : Instant) (scratch : List UInt8) :
    Traffic responder (responder.demuxTunnel engine ambient id len inner now scratch).2 := by
  unfold demuxTunnel
  split
  · exact note_traffic _ _
  · split_ifs
    · exact noteFor_traffic _ _ _
    · exact noteFor_traffic _ _ _
    · exact noteFor_traffic _ _ _
    · exact (countReceived_traffic _ _ _).trans (deliver_traffic _ _ _ _ _ _ _)

end

theorem roam_traffic (responder : Responder noise) (id : PeerId)
    (src : SocketAddr) (kind : UInt8) (outcome : Outcome) :
    Traffic responder (responder.roam id src kind outcome) := by
  unfold roam
  split
  · exact setEndpoint_traffic _ _ _
  · exact .refl _

theorem demuxNetwork_traffic (responder : Responder noise) (id : PeerId)
    (len : Nat) (scratch : List UInt8) :
    Traffic responder (responder.demuxNetwork id len scratch).2 := by
  unfold demuxNetwork
  split
  · exact noteFor_traffic _ _ _
  · exact .still rfl rfl

theorem demux_traffic (engine : ChecksumEngine) (responder : Responder noise)
    (ambient : noise.Ambient) (src : SocketAddr) (datagram : List UInt8)
    (receiverIdx : UInt32) (kind : UInt8) (now : Instant) (scratch : List UInt8) :
    Traffic responder (responder.demux engine ambient src datagram receiverIdx
      kind now scratch).2 := by
  unfold demux
  dsimp only
  split
  · exact note_traffic _ _
  · apply (decapsulate_traffic responder ambient ⟨receiverIdx >>> 8⟩ src datagram scratch).trans
    generalize responder.decapsulate ambient ⟨receiverIdx >>> 8⟩ src datagram scratch = opened
    rcases opened with ⟨outcome, scratch, responder⟩
    apply (roam_traffic responder ⟨receiverIdx >>> 8⟩ src kind outcome).trans
    cases outcome with
    | failed reason => exact noteFor_traffic _ _ _
    | done => exact .refl _
    | network len out => exact demuxNetwork_traffic _ _ _ _
    | tunnel len inner => exact demuxTunnel_traffic _ _ _ _ _ _ _ _

theorem initiation_traffic (responder : Responder noise)
    (ambient : noise.Ambient) (src : SocketAddr) (datagram : List UInt8)
    (init : noise.Init) (now : Instant) (scratch : List UInt8) :
    Traffic responder (responder.initiation ambient src datagram init now scratch).2 := by
  unfold initiation
  dsimp only
  split
  · exact .still rfl rfl
  · split
    · exact .still rfl rfl
    · split
      · exact .still rfl rfl
      · split
        · exact .still rfl rfl
        · rename_i id _
          have opened := decapsulate_traffic { responder with
            perSource := (responder.perSource.admits src.ip now).2 } ambient id
            src datagram scratch
          split
          all_goals
            rename_i equal
            rw [equal] at opened
          · split
            · exact { opened.trans (countHandshake_traffic _ id src) with }
            · exact { opened with }
          · exact { opened.trans (noteFor_traffic _ id _) with }
          · exact { opened.trans (noteFor_traffic _ id _) with }
          · exact { opened.trans (noteFor_traffic _ id _) with }

theorem handleDatagram_traffic (engine : ChecksumEngine)
    (responder : Responder noise) (ambient : noise.Ambient) (src : SocketAddr)
    (datagram : List UInt8) (now : Instant) (scratch : List UInt8) :
    Traffic responder (responder.handleDatagram engine ambient src datagram now scratch).2 := by
  unfold handleDatagram
  dsimp only
  split
  · exact .still rfl rfl
  · split
    · exact .still rfl rfl
    · exact .still rfl rfl
    · exact { initiation_traffic _ _ _ _ _ _ _ with }
    · exact { demux_traffic _ _ _ _ _ _ _ _ _ with }
    · exact { demux_traffic _ _ _ _ _ _ _ _ _ with }
    · exact { demux_traffic _ _ _ _ _ _ _ _ _ with }

/-! ## Packets for a peer -/

section

variable (responder : Responder noise) (ambient : noise.Ambient)

include responder ambient

theorem flush_traffic (peer : PeerId) (scratch : List UInt8) :
    Traffic responder (responder.flush ambient peer scratch).2 := by
  unfold flush
  split
  · exact .refl _
  · split
    · exact .refl _
    · dsimp only
      split
      · exact settle_traffic _ _ _
      · exact settle_traffic _ _ _

theorem sendToPeer_traffic (peer : PeerId) (packet scratch : List UInt8) :
    Traffic responder (responder.sendToPeer ambient peer packet scratch).2 := by
  unfold sendToPeer
  split
  · exact .refl _
  · split
    · exact .refl _
    · rename_i entry _
      apply (settle_traffic responder peer (noise.encapsulate ambient
        responder.limiter entry.tunn packet scratch)).trans
      dsimp only
      split
      · split
        · split
          · exact countSent_traffic _ _ _
          · exact (countSent_traffic _ _ _).trans (.still rfl rfl)
        · split
          · exact (countDeferred_traffic _ _).trans (.still rfl rfl)
          · exact (countDeferred_traffic _ _).trans (.still rfl rfl)
      · exact (countDeferred_traffic _ _).trans (.still rfl rfl)
      · exact .refl _

theorem encapsulateTo_traffic (dst : IpAddr) (packet scratch : List UInt8) :
    Traffic responder (responder.encapsulateTo ambient dst packet scratch).2 := by
  unfold encapsulateTo
  split
  · exact note_traffic _ _
  · exact sendToPeer_traffic _ _ _ _ _

/-! ## Timers -/

theorem resetCount_traffic (now : Instant) :
    Traffic responder (responder.resetCount ambient now) := by
  unfold resetCount
  split
  · exact .still rfl rfl
  · exact .refl _

end

theorem resetStale_traffic (ambient : noise.Ambient) (responder : Responder noise) (id : PeerId) :
    Traffic responder (resetStale ambient responder id) :=
  { rebuild_traffic responder ambient id with }

theorem detectClockJump_traffic (responder : Responder noise)
    (ambient : noise.Ambient) (wall : SystemTime) :
    Traffic responder (responder.detectClockJump ambient wall) := by
  unfold detectClockJump
  dsimp only
  split
  · exact .still rfl rfl
  · have walked := Traffic.foldl (fun responder => responder)
      (resetStale ambient) (resetStale_traffic ambient)
      ((responder.peers.toList.filter fun entry => entry.2.endpoint.isSome).map Prod.fst)
      { responder with lastWall := some wall }
    exact { walked with }

theorem tickPeer_traffic (ambient : noise.Ambient) («open» : Bool)
    (state : TickState noise) (id : PeerId) :
    Traffic state.responder (tickPeer ambient «open» state id).responder := by
  unfold tickPeer
  split
  · exact .refl _
  · split
    · exact .refl _
    · dsimp only
      split
      · exact settle_traffic _ _ _
      · exact (settle_traffic _ _ _).trans (setEndpoint_traffic _ _ _)
      · exact settle_traffic _ _ _

theorem tick_traffic (responder : Responder noise) (ambient : noise.Ambient)
    (now : Instant) (wall : SystemTime) (scratch : List UInt8) :
    Traffic responder (responder.tick ambient now wall scratch).2 := by
  apply (resetCount_traffic responder ambient now).trans
  apply (detectClockJump_traffic _ ambient wall).trans
  unfold tick
  generalize (responder.resetCount ambient now).detectClockJump ambient wall = responder
  exact Traffic.foldl TickState.responder _
    (tickPeer_traffic ambient responder.gate.open) responder.peers.keys
    { responder, scratch, out := [] }

theorem resetPeer_traffic (responder : Responder noise)
    (ambient : noise.Ambient) (label : PeerLabel) :
    Traffic responder (responder.resetPeer ambient label).2 := by
  unfold resetPeer
  split
  · exact .refl _
  · apply (rebuild_traffic responder ambient _).trans
    exact .of_standing rfl (modify_conf _ _ fun _ => rfl)

/-! ## Operations -/

def Op.isOperator : Op noise → Bool
  | .setGate _ _ | .setIpv6 _ | .reload _ _ => true
  | _ => false

/-- Every other operation is traffic. -/
theorem step_traffic (engine : ChecksumEngine) (responder : Responder noise)
    (traffic : op.isOperator = false) : Traffic responder (responder.step engine op) := by
  cases op with
  | handleDatagram => exact handleDatagram_traffic _ _ _ _ _ _ _
  | flush => exact flush_traffic _ _ _ _
  | encapsulateTo => exact encapsulateTo_traffic _ _ _ _ _
  | sendToPeer => exact sendToPeer_traffic _ _ _ _ _
  | tick => exact tick_traffic _ _ _ _ _
  | resetPeer => exact resetPeer_traffic _ _ _
  | setGate | setIpv6 | reload => cases traffic

end WarrenSdk.Bolthole.Responder
