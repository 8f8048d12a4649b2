import WarrenSdk.Bolthole.Responder.Traffic

/-! # The gate

While the gate is closed nothing leaves the responder, whatever the protocol
library does, but the cookie replies of the limiter itself. Only the operator
moves the gate. -/

namespace WarrenSdk.Bolthole.Responder

/-! ## The gate moves by hand -/

def lastGate (initial : Gate) (ops : List (Op noise)) : Gate :=
  ops.foldl (fun gate op =>
    match op with
    | .setGate «open» generation => { «open», generation }
    | _ => gate) initial

variable (engine : ChecksumEngine)

theorem step_gate (responder : Responder noise) (op : Op noise) :
    (responder.step engine op).gate = lastGate responder.gate [op] := by
  cases op with
  | setGate | setIpv6 => rfl
  | reload ambient conf => exact reload_gate responder ambient conf
  | _ => exact (step_traffic engine responder rfl).gate

/-- The gate of a run is the one that was last set. -/
theorem run_gate (responder : Responder noise) (ops : List (Op noise)) :
    (run engine responder ops).gate = lastGate responder.gate ops := by
  induction ops generalizing responder with
  | nil => rfl
  | cons op ops induction =>
    have later := induction (responder.step engine op)
    rw [step_gate] at later
    exact later

/-! ## What an operation emits -/

def Output.toPeers : Output → List (List UInt8)
  | .inbound (.reply bytes) => [bytes]
  | .flushed (some bytes) => [bytes]
  | .encapsulated (.ok (.sent _ bytes)) => [bytes]
  | .encapsulated (.ok (.deferred (some (_, bytes)))) => [bytes]
  | .ticked out => out.map Prod.snd
  | _ => []

def Output.handedOn : Output → Option (List UInt8)
  | .inbound (.uplink _ packet) => some packet
  | .inbound (.loopback _ packet) => some packet
  | _ => none

def VerifierReply (responder : Responder noise) (op : Op noise) (bytes : List UInt8) : Prop :=
  match op with
  | .handleDatagram ambient src datagram _ _ =>
    (noise.verifyPacket ambient responder.limiter src.ip datagram).1 =
      .error (.writeToNetwork bytes)
  | _ => False

def Quiet : Inbound → Prop
  | .dropped _ | .consumed => True
  | _ => False

variable {responder : Responder noise}

section

variable (closed : responder.gate.open = false)

include closed

theorem demuxTunnel_quiet (ambient : noise.Ambient) (id : PeerId) (len : Nat)
    (inner : IpAddr) (now : Instant) (scratch : List UInt8) :
    Quiet (responder.demuxTunnel engine ambient id len inner now scratch).1 := by
  unfold demuxTunnel
  split
  · trivial
  · rw [if_pos closed]
    split
    · trivial
    · trivial

theorem demuxNetwork_quiet (id : PeerId) (len : Nat) (scratch : List UInt8) :
    Quiet (responder.demuxNetwork id len scratch).1 := by
  unfold demuxNetwork
  rw [if_pos closed]
  trivial

section

variable (ambient : noise.Ambient) (src : SocketAddr) (datagram : List UInt8)

include ambient src datagram

theorem demux_quiet (receiverIdx : UInt32) (kind : UInt8) (now : Instant) (scratch : List UInt8) :
    Quiet (responder.demux engine ambient src datagram receiverIdx kind now scratch).1 := by
  unfold demux
  dsimp only
  split
  · trivial
  · have opened := decapsulate_traffic responder ambient ⟨receiverIdx >>> 8⟩ src datagram scratch
    generalize responder.decapsulate ambient ⟨receiverIdx >>> 8⟩ src datagram
      scratch = reached at opened ⊢
    rcases reached with ⟨outcome, scratch, after⟩
    have roamed := opened.trans (roam_traffic after ⟨receiverIdx >>> 8⟩ src kind outcome)
    rw [← roamed.gate] at closed
    cases outcome with
    | failed | done => trivial
    | network len out => exact demuxNetwork_quiet closed _ _ _
    | tunnel len inner => exact demuxTunnel_quiet _ closed _ _ _ _ _ _

theorem initiation_quiet (init : noise.Init) (now : Instant) (scratch : List UInt8) :
    Quiet (responder.initiation ambient src datagram init now scratch).1 := by
  unfold initiation
  rw [if_pos closed]
  trivial

/-- A closed gate answers a datagram with what the limiter wrote, or not at
all. -/
theorem handleDatagram_closed (now : Instant) (scratch : List UInt8) :
    Quiet (responder.handleDatagram engine ambient src datagram now scratch).1 ∨ ∃ cookie,
        (noise.verifyPacket ambient responder.limiter src.ip datagram).1 =
          .error (.writeToNetwork cookie) ∧
        (responder.handleDatagram engine ambient src datagram now scratch).1 = .reply cookie := by
  unfold handleDatagram
  dsimp only
  split
  · exact .inl trivial
  · cases verified : (noise.verifyPacket ambient responder.limiter src.ip datagram).1 with
    | error result =>
      cases result with
      | writeToNetwork cookie => exact .inr ⟨cookie, rfl, rfl⟩
      | done | err | writeToTunnelV4 | writeToTunnelV6 => exact .inl trivial
    | ok packet =>
      apply Or.inl
      cases packet with
      | handshakeInit init =>
        apply initiation_quiet
        exact closed
      | handshakeResponse | packetCookieReply | packetData =>
        apply demux_quiet
        exact closed

end

theorem sendToPeer_closed (ambient : noise.Ambient) (peer : PeerId) (packet scratch : List UInt8) :
    (responder.sendToPeer ambient peer packet scratch).1 = .error .gateClosed := by
  rw [sendToPeer, if_pos closed]

theorem encapsulateTo_closed (ambient : noise.Ambient) (dst : IpAddr)
    (packet scratch : List UInt8) :
    ∃ refusal, (responder.encapsulateTo ambient dst packet scratch).1 = .error refusal := by
  unfold encapsulateTo
  split
  · exact ⟨_, rfl⟩
  · exact ⟨_, sendToPeer_closed closed _ _ _ _⟩

end

theorem tickPeer_closed (ambient : noise.Ambient) (state : TickState noise)
    (id : PeerId) : (tickPeer ambient false state id).out = state.out := by
  unfold tickPeer
  split
  · rfl
  · split
    · rfl
    · dsimp only
      split <;> rfl

theorem tickPeers_closed (ambient : noise.Ambient) (ids : List PeerId) (state : TickState noise) :
    (ids.foldl (tickPeer ambient false) state).out = state.out := by
  induction ids generalizing state with
  | nil => rfl
  | cons id ids induction => exact (induction _).trans (tickPeer_closed ambient state id)

theorem tick_closed (closed : responder.gate.open = false)
    (ambient : noise.Ambient) (now : Instant) (wall : SystemTime) (scratch : List UInt8) :
    (responder.tick ambient now wall scratch).1 = [] := by
  have kept := (resetCount_traffic responder ambient now).trans
    (detectClockJump_traffic _ ambient wall)
  unfold tick
  generalize (responder.resetCount ambient now).detectClockJump ambient wall = responder at kept ⊢
  dsimp only
  rw [kept.gate, closed]
  exact tickPeers_closed ambient _ _

/-! ## Silence -/

/-- For every protocol library and after every sequence of operations, while
the gate is closed an operation sends a peer nothing but what the limiter itself
answered the datagram with, and hands no decrypted packet on. -/
theorem closed_gate_silent (engine : ChecksumEngine)
    (responder : Responder noise) (past : List (Op noise)) (op : Op noise)
    (closed : (run engine responder past).gate.open = false) :
    ((run engine responder past).apply engine op).1.handedOn = none ∧
      ∀ bytes ∈ ((run engine responder past).apply engine op).1.toPeers,
        VerifierReply (run engine responder past) op bytes := by
  generalize run engine responder past = responder at closed ⊢
  cases op with
  | handleDatagram ambient src datagram now scratch =>
    have answer := handleDatagram_closed engine closed ambient src datagram now scratch
    simp only [apply, Prod.map]
    generalize (responder.handleDatagram engine ambient src datagram now
      scratch).1 = inbound at answer ⊢
    rcases answer with quiet | ⟨cookie, verified, rfl⟩
    · cases inbound with
      | dropped reason => simp [Output.handedOn, Output.toPeers]
      | consumed => simp [Output.handedOn, Output.toPeers]
      | uplink peer packet => cases quiet
      | reply bytes => cases quiet
      | loopback owner packet => cases quiet
    · simpa [Output.handedOn, Output.toPeers, VerifierReply] using verified
  | flush ambient peer scratch => simp [apply, flush, closed, Output.handedOn, Output.toPeers]
  | encapsulateTo ambient dst packet scratch =>
    rcases encapsulateTo_closed closed ambient dst packet scratch with ⟨refusal, refused⟩
    simp [apply, refused, Output.handedOn, Output.toPeers]
  | sendToPeer ambient peer packet scratch =>
    simp [apply, sendToPeer_closed closed, Output.handedOn, Output.toPeers]
  | tick ambient now wall scratch =>
    simp [apply, tick_closed closed, Output.handedOn, Output.toPeers]
  | setGate | setIpv6 | reload | resetPeer => simp [apply, Output.handedOn, Output.toPeers]

/-- The cookie that a stranger still gets, and that nothing else is sent. -/
theorem closed_gate_silent_cookie : (run Sample.engine Sample.start Sample.past).gate.open = false ∧
      ((run Sample.engine Sample.start Sample.past).apply Sample.engine
        (.handleDatagram () Sample.visitor [] 0 [])).1.toPeers = [[3]] ∧
      ∀ bytes ∈ ((run Sample.engine Sample.start Sample.past).apply
          Sample.engine (.handleDatagram () Sample.visitor [] 0 [])).1.toPeers,
        VerifierReply (run Sample.engine Sample.start Sample.past)
          (.handleDatagram () Sample.visitor [] 0 []) bytes :=
  have closed : (run Sample.engine Sample.start Sample.past).gate.open =
      false := by decide +kernel
  ⟨closed, by decide +kernel,
    (closed_gate_silent Sample.engine Sample.start Sample.past _ closed).2⟩

end WarrenSdk.Bolthole.Responder
