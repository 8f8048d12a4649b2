import WarrenSdk.Net.Netstack.Ownership
import WarrenSdk.Net.Netstack.Writing

/-! # Closing what the application has left

A socket is closed by a pass that has taken up the shutdown of the application
and has handed over everything. The engine learns of nothing but that shutdown:
a stream that is dropped without one leaves its socket open. -/

namespace WarrenSdk.Net.Netstack

open Bolthole List HashMap

namespace Session

def writer (session : Session) : Writer Tcp.Socket where
  link := session.link
  out := session.conn.out
  socket := session.socket

variable (session : Session)

theorem pushed_unclosed : (session.writer.pushed tcpOutlet).2.unclosed = session.socket.unclosed :=
  Outgoing.push_invariant tcpOutlet (fun socket => socket.unclosed = session.socket.unclosed)
    (fun _ _ _ _ sent same => (Tcp.Socket.unclosed_sendSlice sent).trans same)
    _ _ rfl

/-- A pass leaves the socket closed if it was, or if the shutdown is taken up
and everything handed over while the socket can send. -/
theorem pass_closes_iff : session.ingestWrites.pumpSocket.socket.unclosed = false ↔
      session.socket.unclosed = false ∨ (session.writer.pushed tcpOutlet).1.wantClose ∧
          (session.writer.pushed tcpOutlet).1.pendingOut = [] ∧
          (session.writer.pushed tcpOutlet).2.canSend := by
  have pushed := session.pushed_unclosed
  change ((session.writer.pushed tcpOutlet).1.finish tcpOutlet
    (session.writer.pushed tcpOutlet).2).2.unclosed = false ↔ _
  rcases Writer.finish_cases tcpOutlet (session.writer.pushed tcpOutlet).1
    (session.writer.pushed tcpOutlet).2 with ⟨closes, same⟩ | ⟨idle, same⟩
  · rw [same]
    constructor
    · intro _
      exact .inr closes
    · intro _
      exact Tcp.Socket.unclosed_close _
  · rw [same]
    simp only
    rw [pushed]
    constructor
    · exact .inl
    · intro either
      rcases either with before | closes
      · exact before
      · exact absurd closes idle

end Session

namespace Engine

variable {engine : Engine}

/-! ## A turn of the loop -/

def serveWriters (engine : Engine) : Engine := engine.ingestWrites.pumpUdp.pumpSockets

theorem tcp_pumpFlow {sockets : SocketSet}
    (found : SocketSet.tcp sockets handle = some socket) (flow : UdpFlow) :
    SocketSet.tcp (pumpFlow sockets flow).1 handle = some socket := by
  rw [pumpFlow]
  split
  · exact found
  · rename_i udp here
    rw [SocketSet.tcp_eq_some] at found ⊢
    rw [SocketSet.udp_eq_some] at here
    have different : handle ≠ flow.handle := by
      rintro rfl
      rw [found] at here
      cases here
    rw [Arena.get_set, if_neg different]
    exact found

section

variable (owned : engine.Owned) (found : SocketSet.tcp engine.sockets handle = some socket)

include owned found

theorem tcp_removeFlow (place : Nat) :
    SocketSet.tcp (engine.removeFlow place).sockets handle = some socket := by
  rw [removeFlow]
  split
  · exact found
  · rename_i flow here
    have holder : (flow.handle, .udp) ∈ [] ++ engine.holders :=
      mem_append_right _ (mem_append_right _ (mem_map.mpr ⟨flow, mem_of_getElem? here, rfl⟩))
    rw [SocketSet.tcp_eq_some] at found ⊢
    have different : handle ≠ flow.handle := by
      rintro rfl
      rcases owned.sockets.present holder with ⟨value, same, kind⟩
      rw [found] at same
      cases same
      cases kind
    simp only [freePort, removeSocket, Arena.get_remove, if_neg different]
    exact found

theorem tcp_removeFlows (places : List Nat) :
    SocketSet.tcp (places.foldl removeFlow engine).sockets handle = some socket := by
  induction places generalizing engine with
  | nil => exact found
  | cons place places induction =>
    exact induction (owned.removeFlow place) (tcp_removeFlow owned found place)

theorem tcp_pumpUdp : SocketSet.tcp engine.pumpUdp.sockets handle = some socket := by
  have walked : SocketSet.tcp
      (walk pumpFlow engine.sockets engine.udpFlows).1 handle = some socket := by
    generalize engine.sockets = sockets at found
    induction engine.udpFlows generalizing sockets with
    | nil => exact found
    | cons flow flows induction => exact induction _ (tcp_pumpFlow found flow)
  exact tcp_removeFlows owned.pumpFlows walked _

end

theorem sessionOf_pumpUdp (owned : engine.Owned) (here : engine.sessionOf conn = some session) :
    engine.pumpUdp.sessionOf conn = some session := by
  rw [sessionOf_eq_some] at here ⊢
  rw [(pumpUdp_peers engine).links]
  exact ⟨here.1, tcp_pumpUdp owned here.2.1, here.2.2⟩

theorem sessionOf_serveWriters (owned : engine.Owned)
    (member : conn ∈ engine.conns) (here : engine.sessionOf conn = some session) :
    session.ingestWrites.pumpSocket.conn ∈ engine.serveWriters.conns ∧
      engine.serveWriters.sessionOf session.ingestWrites.pumpSocket.conn =
        some session.ingestWrites.pumpSocket := by
  have taken := sessionOf_eachConn proper_ingest owned member here
  have between := owned.ingestWrites.pumpUdp
  apply sessionOf_eachConn proper_pump between
  · rw [(pumpUdp_peers engine.ingestWrites).conns]
    exact taken.1
  · exact sessionOf_pumpUdp owned.ingestWrites taken.2

end Engine

namespace Session

def Quiet (session : Session) : Prop :=
  session.conn.out.pendingOut.flatten = [] ∧ queuedBytes session.link.fromApp = []

/-- When a pass leaves the socket closed: it was, or the pass reaches the
shutdown and no empty write, and the socket has room for more than all that
waits. -/
def Released (session : Session) : Prop :=
  let out := session.conn.out
  let reaches := Reaches out.pendingOutLen session.link.fromApp
  session.socket.unclosed = false ∨ (out.wantClose = true ∨ reaches .shutdown) ∧
      out.Solid ∧ ¬reaches (.data []) ∧ session.socket.maySend = true ∧
      session.socket.tx.length + out.pendingOut.flatten.length +
        (queuedBytes session.link.fromApp).length < session.socket.capacity

/-- Bytes go from the pending chunks to the send buffer. -/
theorem push_buffered (rounds : Nat) (out : Outgoing) (socket : Tcp.Socket) :
    let after := out.push tcpOutlet rounds socket
    after.2.maySend = socket.maySend ∧ after.2.capacity = socket.capacity ∧
      after.2.tx.length + after.1.pendingOut.flatten.length =
        socket.tx.length + out.pendingOut.flatten.length := by
  induction rounds generalizing out socket with
  | zero => exact ⟨rfl, rfl, rfl⟩
  | succ rounds induction =>
    rw [Outgoing.push]
    split
    · split
      · exact ⟨rfl, rfl, rfl⟩
      · rename_i chunk rest pending
        split
        · exact ⟨rfl, rfl, rfl⟩
        · rename_i sent
          rcases Tcp.Socket.sendSlice_eq_some sent with ⟨_, _, rfl⟩
          simp [Tcp.Socket.maySend]
        · rename_i size after sent
          have fits := tcpOutlet.accepts sent
          rcases Tcp.Socket.sendSlice_eq_some sent with ⟨_, _, rfl⟩
          rcases induction (out.accepted chunk rest (size + 1)) _ with ⟨may, capacity, total⟩
          refine ⟨may, capacity, total.trans ?_⟩
          rw [Outgoing.flatten_accepted, pending]
          simp only [length_append, length_take, length_drop, flatten_cons]
          omega
    · exact ⟨rfl, rfl, rfl⟩

theorem released_iff (session : Session) (quiet : session.ingestWrites.pumpSocket.Quiet) :
    session.ingestWrites.pumpSocket.socket.unclosed = false ↔
      session.Released := by
  have pushed : session.writer.taken.1.Pushed (session.writer.pushed tcpOutlet).1 :=
    Outgoing.push_spec tcpOutlet _ _ _
  rcases push_buffered (session.writer.taken.1.pendingOut.flatten.length + 1)
    session.writer.taken.1 session.socket with ⟨may, capacity, total⟩
  change (session.writer.pushed tcpOutlet).2.maySend = _ at may
  change (session.writer.pushed tcpOutlet).2.capacity = _ at capacity
  change (session.writer.pushed tcpOutlet).2.tx.length +
    (session.writer.pushed tcpOutlet).1.pendingOut.flatten.length = _ at total
  rcases session.conn.out.ingest_spec session.link.fromApp with ⟨taken, split, spec, reached⟩
  change session.conn.out.Ingested taken session.writer.taken.1 at spec
  rcases quiet with ⟨handed, unqueued⟩
  change queuedBytes (session.conn.out.ingest session.link.fromApp).2 = [] at unqueued
  rw [show session.ingestWrites.pumpSocket.conn.out.pendingOut =
    (session.writer.pushed tcpOutlet).1.pendingOut from
      Writer.pass_pendingOut tcpOutlet session.writer] at handed
  -- With no byte left, a chunk that is still pending is an empty one.
  have empty : (session.writer.pushed tcpOutlet).1.pendingOut = [] ↔
      (session.writer.pushed tcpOutlet).1.Solid := by
    refine ⟨fun nothing => ?_, fun solid => solid.eq_nil handed⟩
    simp [Outgoing.Solid, nothing]
  have all : queuedBytes session.link.fromApp = queuedBytes taken := by
    rw [split, queuedBytes_append, unqueued, append_nil]
  rw [handed, spec.chunks, ← all, length_append] at total
  have sends : (session.writer.pushed tcpOutlet).2.canSend = true ↔ session.socket.maySend = true ∧
      session.socket.tx.length + session.conn.out.pendingOut.flatten.length +
        (queuedBytes session.link.fromApp).length < session.socket.capacity := by
    rw [Tcp.Socket.canSend, may, capacity, Bool.and_eq_true, decide_eq_true_eq,
      Nat.add_assoc, ← total]
    rfl
  rw [pass_closes_iff, Released, pushed.wants, spec.wants, empty, pushed.solid,
    spec.solid, reached, reached, sends, and_assoc]

end Session

namespace Engine

/-- In every run and for every connection whose stream was dropped, a turn that
leaves no byte of it leaves the socket closed exactly if the connection is
released. -/
theorem abandoned_closed_iff (dnsServer : Ipv4Addr) (tcpBufferBytes : Nat)
    (seed : UInt16) (actions : List Action) (conn : Conn) (session : Session)
    (member : conn ∈ ((spawn dnsServer tcpBufferBytes seed).run actions).conns)
    (here : ((spawn dnsServer tcpBufferBytes seed).run actions).sessionOf conn = some session) :
    let after := session.ingestWrites.pumpSocket
    ((spawn dnsServer tcpBufferBytes seed).run actions).serveWriters.sessionOf
        after.conn = some after ∧
      (session.link.hasStream = false → after.Quiet →
        (after.socket.unclosed = false ↔ session.Released)) := by
  have owned := owned_run dnsServer tcpBufferBytes seed actions
  refine ⟨(sessionOf_serveWriters owned member here).2, ?_⟩
  intro _ quiet
  exact session.released_iff quiet

end Engine

/-! ## Samples -/

namespace Sample

/-- A connect that succeeds; its stream is number 0 on handle 0. -/
def connected : List Engine.Action :=
  [.openTcp 7 true 0, .ingestWrites, .pumpUdp, .pumpSockets,
    .poll [.segment 0 .synAcked], .drainSockets 1]

def engine : Engine := .spawn ⟨10#32⟩ 64 0

def conn : Conn where
  id := 0
  handle := 0
  localPort := 49152
  deadline := connectTimeout
  connect := none

def abandoned (shut : Bool) : Session where
  conn := conn
  socket := { state := .established, capacity := 64, opened := true }
  link := { holder := .nobody, shut, fromApp := if shut then [.shutdown] else [] }

end Sample

/-- A stream that was shut down and dropped is closed by the next turn. -/
theorem Engine.abandoned_closed_sample : (Sample.abandoned true).ingestWrites.pumpSocket.Quiet ∧
      (Sample.abandoned true).ingestWrites.pumpSocket.socket.unclosed =
        false := by
  have closes := (Engine.abandoned_closed_iff ⟨10#32⟩ 64 0
    (Sample.connected ++ [.shutdown 0, .dropStream 0]) Sample.conn
    (Sample.abandoned true) (by decide +kernel) (by decide +kernel)).2
  have quiet : (Sample.abandoned true).ingestWrites.pumpSocket.Quiet := by constructor <;> decide
  refine ⟨quiet, (closes (by decide) quiet).mpr (.inr ?_)⟩
  refine ⟨.inr ⟨[], [], rfl, by decide⟩, fun _ member => absurd member not_mem_nil,
    ?_, by decide, by decide⟩
  rintro ⟨front, back, queued, _⟩
  have member : .data [] ∈ (Sample.abandoned true).link.fromApp := by
    rw [queued]
    exact mem_append_right _ mem_cons_self
  exact absurd member (by decide)

namespace Sample

def idle : Engine :=
  { engine with
    sockets := [some (.tcp (abandoned false).socket)]
    conns := [conn]
    links := HashMap.empty.insert 0 (abandoned false).link
    usedPorts := {49152}
    nextConnId := 1
    nextPort := 49153
    log := [.replied 7 (.stream 0)] }

theorem run_idle : engine.run (connected ++ [.dropStream 0]) = idle := rfl

def turn (now : Instant) : List Engine.Action :=
  [.ingestWrites, .pumpUdp, .pumpSockets, .poll [], .drainSockets now,
    .acceptListeners now, .drainResolvers now, .retransmitResolvers now, .drainUdp]

theorem step_idle (member : action ∈ turn now) : idle.step action = idle := by
  simp only [turn, mem_cons, not_mem_nil, or_false] at member
  rcases member with rfl | rfl | rfl | rfl | rfl | rfl | rfl | rfl | rfl <;> rfl

theorem turns_idle (actions : List Engine.Action)
    (quiet : ∀ action ∈ actions, ∃ now, action ∈ turn now) : idle.run actions = idle := by
  induction actions with
  | nil => rfl
  | cons action actions induction =>
    rcases quiet action mem_cons_self with ⟨now, member⟩
    have later := induction fun other member => quiet other (mem_cons_of_mem _ member)
    calc idle.run (action :: actions)
      _ = (idle.step action).run actions := rfl
      _ = idle.run actions := by rw [step_idle member]
      _ = idle := later

end Sample

/-- A stream that was dropped without a shutdown stays open, with its port,
however many turns follow and however late. -/
theorem Engine.abandoned_open : ((Sample.abandoned false).link.hasStream = false ∧
      (Sample.abandoned false).ingestWrites.pumpSocket.Quiet ∧
      (Sample.abandoned false).ingestWrites.pumpSocket.socket.unclosed = true) ∧
    ∀ times : List Instant,
      let after := (Sample.engine.run (Sample.connected ++ [.dropStream 0])).run
        (times.map Sample.turn).flatten
      after.sessionOf Sample.conn = some (Sample.abandoned false) ∧
        (49152 : UInt16) ∈ after.usedPorts := by
  refine ⟨⟨rfl, ⟨rfl, rfl⟩, rfl⟩, ?_⟩
  intro times after
  have idle : after = Sample.idle := by
    have quiet : ∀ action ∈ (times.map Sample.turn).flatten, ∃ now, action ∈ Sample.turn now := by
      intro action member
      rcases mem_flatten.mp member with ⟨turn, source, inside⟩
      rcases mem_map.mp source with ⟨now, _, rfl⟩
      exact ⟨now, inside⟩
    change (Sample.engine.run _).run _ = _
    rw [Sample.run_idle]
    exact Sample.turns_idle _ quiet
  rw [idle]
  exact ⟨rfl, Finset.mem_singleton_self _⟩

end WarrenSdk.Net.Netstack
