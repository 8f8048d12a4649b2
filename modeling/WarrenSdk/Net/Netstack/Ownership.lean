import WarrenSdk.Net.Netstack.Engine
import WarrenSdk.Net.Netstack.Reading

/-! # Who owns the sockets

Every socket of the engine is held by one connection, waiting place of a
listener, lookup or flow. So what one of them does to its socket leaves the
others alone, and a stage of the loop acts on each connection by itself. -/

namespace WarrenSdk.Net.Netstack

open Bolthole List HashMap

inductive SocketKind
  | tcp
  | udp
  deriving DecidableEq

def Socket.kind : Socket → SocketKind
  | .tcp _ => .tcp
  | .udp _ => .udp

namespace SocketSet

theorem tcp_eq_some : SocketSet.tcp sockets handle = some socket ↔
      Arena.get sockets handle = some (.tcp socket) := by
  rw [SocketSet.tcp]
  split
  · simp_all
  · simp_all

theorem udp_eq_some : SocketSet.udp sockets handle = some socket ↔
      Arena.get sockets handle = some (.udp socket) := by
  rw [SocketSet.udp]
  split
  · simp_all
  · simp_all

theorem kindAt_set_tcp {after : Tcp.Socket}
    (found : SocketSet.tcp sockets handle = some socket) (other : Nat) :
    (Arena.set sockets handle (.tcp after)).kindAt Socket.kind other =
      Arena.kindAt Socket.kind sockets other := by
  apply Arena.kindAt_set
  intro old here
  rw [tcp_eq_some.mp found] at here
  cases here
  rfl

theorem kindAt_set_udp {after : UdpSocket}
    (found : SocketSet.udp sockets handle = some socket) (other : Nat) :
    (Arena.set sockets handle (.udp after)).kindAt Socket.kind other =
      Arena.kindAt Socket.kind sockets other := by
  apply Arena.kindAt_set
  intro old here
  rw [udp_eq_some.mp found] at here
  cases here
  rfl

end SocketSet

theorem kindAt_deliver (sockets : SocketSet) (delivery : Delivery) (handle : Nat) :
    Arena.kindAt Socket.kind (deliver sockets delivery) handle =
      Arena.kindAt Socket.kind sockets handle := by
  cases delivery with
  | segment place arrival =>
    simp only [deliver]
    split
    · rename_i found
      exact SocketSet.kindAt_set_tcp found handle
    · rfl
  | datagram place datagram =>
    simp only [deliver]
    split
    · rename_i found
      split
      · exact SocketSet.kindAt_set_udp found handle
      · rfl
    · rfl
  | dispatched place =>
    simp only [deliver]
    split
    · rename_i found
      exact SocketSet.kindAt_set_udp found handle
    · rfl

namespace Engine

def connHolders (conns : List Conn) : List (Nat × SocketKind) :=
  conns.map fun conn => (conn.handle, .tcp)

def listenerHolders (listeners : List Listener) : List (Nat × SocketKind) :=
  listeners.flatMap fun listener => listener.pending.map fun handle => (handle, .tcp)

def resolverHolders (resolvers : List PendingResolve) : List (Nat × SocketKind) :=
  resolvers.map fun lookup => (lookup.handle, .udp)

def flowHolders (flows : List UdpFlow) : List (Nat × SocketKind) :=
  flows.map fun flow => (flow.handle, .udp)

def holders (engine : Engine) : List (Nat × SocketKind) :=
  connHolders engine.conns ++ listenerHolders engine.listeners ++
    resolverHolders engine.resolvers ++ flowHolders engine.udpFlows

/-- Every socket is held once, but for some spare ones that nobody holds; every
connection has its own number and its ends of two channels. -/
structure Spare (engine : Engine) (spares : List (Nat × SocketKind)) : Prop where
  sockets : Arena.HeldBy Socket.kind engine.sockets (spares ++ engine.holders)
  ids : (engine.conns.map Conn.id).Nodup
  fresh : ∀ conn ∈ engine.conns, conn.id < engine.nextConnId
  linked : ∀ conn ∈ engine.conns, ∃ link,
    engine.links.get conn.id = some link ∧ link.engineEnd = true

abbrev Owned (engine : Engine) : Prop := engine.Spare []

theorem Owned.spawn (dnsServer : Ipv4Addr) (tcpBufferBytes : Nat)
    (seed : UInt16) : (Engine.spawn dnsServer tcpBufferBytes seed).Owned where
  sockets := Arena.HeldBy.empty
  ids := nodup_nil
  fresh := fun _ member => absurd member not_mem_nil
  linked := fun _ member => absurd member not_mem_nil

section Steps

variable {engine : Engine}

variable {Item : Type} {sockets : SocketSet} {listeners : List Listener}

theorem Spare.note (spare : engine.Spare spares) (event : Event) :
    (engine.note event).Spare spares :=
  ⟨spare.sockets, spare.ids, spare.fresh, spare.linked⟩

theorem Spare.freePort (spare : engine.Spare spares) (port : UInt16) :
    (engine.freePort port).Spare spares :=
  ⟨spare.sockets, spare.ids, spare.fresh, spare.linked⟩

theorem Owned.session (owned : engine.Owned) (member : conn ∈ engine.conns) :
    ∃ socket link, SocketSet.tcp engine.sockets conn.handle = some socket ∧
      engine.links.get conn.id = some link ∧ link.engineEnd ∧
      engine.sessionOf conn = some { conn, socket, link } := by
  have holder : (conn.handle, .tcp) ∈ engine.holders := by
    simp only [holders, append_assoc]
    exact mem_append_left _ (mem_map.mpr ⟨conn, member, rfl⟩)
  rcases owned.sockets.present holder with ⟨value, found, kind⟩
  rcases owned.linked conn member with ⟨link, linked, alive⟩
  cases value with
  | udp socket => cases kind
  | tcp socket =>
    have tcp := SocketSet.tcp_eq_some.mpr found
    exact ⟨socket, link, tcp, linked, alive, by simp [sessionOf, tcp, linked]⟩

/-! ## Ports -/

theorem allocPortFrom_eq (tries : Nat) (engine : Engine) :
    ∃ nextPort usedPorts, (allocPortFrom tries engine).2 =
      { engine with nextPort, usedPorts } := by
  induction tries generalizing engine with
  | zero => exact ⟨_, _, rfl⟩
  | succ tries induction =>
    rw [allocPortFrom]
    simp only
    split
    · rcases induction { engine with nextPort := portAfter engine.nextPort }
        with ⟨nextPort, usedPorts, same⟩
      exact ⟨nextPort, usedPorts, same⟩
    · exact ⟨_, _, rfl⟩

theorem allocPort_eq (engine : Engine) :
    ∃ nextPort usedPorts, (allocPort engine).2 = { engine with nextPort, usedPorts } := by
  rw [allocPort]
  exact allocPortFrom_eq ephemeralPorts engine

/-! ## Taking and giving back a socket -/

section Spares

theorem Spare.add (spare : engine.Spare spares) (socket : Socket) :
    Spare { engine with sockets := (Arena.add engine.sockets socket).2 }
      (((Arena.add engine.sockets socket).1, socket.kind) :: spares) :=
  ⟨spare.sockets.add socket, spare.ids, spare.fresh, spare.linked⟩

theorem Spare.ports (spare : engine.Spare spares) : (allocPort engine).2.Spare spares := by
  rcases allocPort_eq engine with ⟨nextPort, usedPorts, same⟩
  rw [same]
  exact ⟨spare.sockets, spare.ids, spare.fresh, spare.linked⟩

theorem Spare.remove (spare : engine.Spare ((handle, kind) :: spares)) :
    (engine.removeSocket handle).Spare spares :=
  ⟨spare.sockets.remove, spare.ids, spare.fresh, spare.linked⟩

theorem Spare.set (spare : engine.Spare ((handle, kind) :: spares))
    (socket : Socket) (same : socket.kind = kind) :
    Spare { engine with sockets := Arena.set engine.sockets handle socket }
      ((handle, kind) :: spares) := by
  refine ⟨?_, spare.ids, spare.fresh, spare.linked⟩
  apply spare.sockets.of_kindAt
  intro other
  apply Arena.kindAt_set
  intro old found
  have filled := (spare.sockets.exact handle kind).mp mem_cons_self
  rw [Arena.kindAt, found] at filled
  exact same.trans (Option.some.inj filled).symm

/-- A spare socket becomes that of a new connection. -/
theorem Spare.track (spare : engine.Spare ((handle, .tcp) :: spares))
    (localPort : UInt16) (deadline : Instant) (connect : Option Nat) (holder : Holder) :
    (engine.track handle localPort deadline connect holder).Spare spares where
  sockets := by
    apply spare.sockets.perm
    rw [perm_iff_count]
    intro holder
    simp only [holders, Engine.track, connHolders, map_append,
      map_cons, map_nil, cons_append, count_append, count_cons, count_nil]
    omega
  ids := by
    simp only [Engine.track, map_append, map_cons, map_nil]
    rw [nodup_append]
    refine ⟨spare.ids, nodup_singleton _, ?_⟩
    intro id member other here same
    rcases mem_map.mp member with ⟨conn, known, rfl⟩
    rw [mem_singleton.mp here] at same
    exact absurd same (Nat.ne_of_lt (spare.fresh conn known))
  fresh := by
    intro conn member
    simp only [Engine.track] at member ⊢
    rcases mem_append.mp member with older | new
    · exact Nat.lt_succ_of_lt (spare.fresh conn older)
    · rw [mem_singleton.mp new]
      exact Nat.lt_succ_self _
  linked := by
    intro conn member
    simp only [Engine.track, get_insert] at member ⊢
    rcases mem_append.mp member with older | new
    · rw [if_neg (Nat.ne_of_lt (spare.fresh conn older))]
      exact spare.linked conn older
    · rw [mem_singleton.mp new, if_pos rfl]
      exact ⟨_, rfl, rfl⟩

end Spares

theorem Spare.openOn (spare : allocated.2.Spare [(handle, .tcp)])
    (request : Nat) (routable : Bool) (now : Instant) :
    (Engine.openOn request routable now handle allocated).Owned := by
  rcases allocated with ⟨port, after⟩
  cases port with
  | none => exact spare.remove.note _
  | some port =>
    rw [Engine.openOn]
    split
    · exact (spare.set (.tcp _) rfl).track _ _ _ _
    · exact (spare.remove.freePort port).note _

theorem Owned.openTcp (owned : engine.Owned) (request : Nat) (routable : Bool)
    (now : Instant) : (engine.openTcp request routable now).Owned :=
  (owned.add _).ports.openOn request routable now

/-! ## Lookups and flows -/

theorem Spare.resolve (spare : engine.Spare [(handle, .udp)])
    {lookup : PendingResolve} (held : lookup.handle = handle) :
    Owned { engine with resolvers := engine.resolvers ++ [lookup] } where
  sockets := by
    apply spare.sockets.perm
    rw [perm_iff_count]
    intro holder
    simp only [holders, resolverHolders, map_append, map_cons,
      map_nil, cons_append, nil_append, count_append, count_cons, count_nil, held]
    omega
  ids := spare.ids
  fresh := spare.fresh
  linked := spare.linked

theorem Spare.flow (spare : engine.Spare [(handle, .udp)]) {flow : UdpFlow}
    (held : flow.handle = handle) :
    Owned { engine with udpFlows := engine.udpFlows ++ [flow] } where
  sockets := by
    apply spare.sockets.perm
    rw [perm_iff_count]
    intro holder
    simp only [holders, flowHolders, map_append, map_cons,
      map_nil, cons_append, nil_append, count_append, count_cons, count_nil, held]
    omega
  ids := spare.ids
  fresh := spare.fresh
  linked := spare.linked

theorem Spare.resolveOn (spare : allocated.2.Spare [(handle, .udp)])
    (request : Nat) (name : List UInt8) (rtype : Dns.RecordType) (id : UInt16)
    (now : Instant) (query : List UInt8) :
    (Engine.resolveOn request name rtype id now query handle allocated).Owned := by
  rcases allocated with ⟨port, after⟩
  cases port with
  | none => exact spare.remove.note _
  | some port =>
    rw [Engine.resolveOn]
    split
    · exact (spare.remove.freePort port).note _
    · exact ((spare.set (.udp _) rfl).resolve rfl).note _

theorem Owned.startResolve (owned : engine.Owned) (request : Nat)
    (name : List UInt8) (rtype : Dns.RecordType) (id : UInt16)
    (now : Instant) : (engine.startResolve request name rtype id now).Owned := by
  rw [Engine.startResolve]
  split
  · exact owned.note _
  · split
    · exact owned.note _
    · exact (owned.add _).ports.resolveOn request name rtype id now _

theorem Spare.udpOn (spare : allocated.2.Spare [(handle, .udp)]) (request : Nat) :
    (Engine.udpOn request handle allocated).Owned := by
  rcases allocated with ⟨port, after⟩
  cases port with
  | none => exact spare.remove.note _
  | some port =>
    rw [Engine.udpOn]
    exact ((spare.set (.udp _) rfl).flow rfl).note _

theorem Owned.startUdp (owned : engine.Owned) (request : Nat) : (engine.startUdp request).Owned :=
  (owned.add _).ports.udpOn request

theorem swapRemove_map_perm (found : items[place]? = some item) (holder : Item → Nat × SocketKind) :
    (holder item :: (swapRemove items place).map holder).Perm (items.map holder) :=
  (swapRemove_perm found).map holder

theorem Owned.finishResolve (owned : engine.Owned) (now : Instant) (place : Nat) (ending : Ending) :
    (Engine.finishResolve now engine place ending).Owned := by
  rw [Engine.finishResolve]
  split
  · exact owned
  · rename_i lookup found
    have reaped : Owned { (engine.removeSocket lookup.handle).freePort
        lookup.localPort with
        resolvers := swapRemove engine.resolvers place } := by
      refine ⟨?_, owned.ids, owned.fresh, owned.linked⟩
      apply Arena.HeldBy.remove (k := .udp)
      apply owned.sockets.perm
      have out := perm_iff_count.mp (swapRemove_map_perm found fun lookup => (lookup.handle, .udp))
      rw [perm_iff_count]
      intro holder
      have here := out holder
      simp only [holders, Engine.freePort, Engine.removeSocket,
        resolverHolders, nil_append, count_append, count_cons] at here ⊢
      omega
    split
    · exact reaped.note _
    · refine Spare.note (Spare.note ?_ _) _
      split
      · exact ⟨reaped.sockets, reaped.ids, reaped.fresh, reaped.linked⟩
      · exact reaped

theorem Owned.foldl (keeps : ∀ engine item, Owned engine → (act engine item).Owned)
    (items : List Item) (owned : engine.Owned) : (items.foldl act engine).Owned := by
  induction items generalizing engine with
  | nil => exact owned
  | cons item items induction => exact induction (keeps engine item owned)

theorem Owned.drainResolvers (owned : engine.Owned) (now : Instant) :
    (engine.drainResolvers now).Owned :=
  Owned.foldl (fun _ _ owned => owned.finishResolve now _ _) _ owned

theorem Owned.removeFlow (owned : engine.Owned) (place : Nat) :
    (engine.removeFlow place).Owned := by
  rw [Engine.removeFlow]
  split
  · exact owned
  · rename_i flow found
    refine ⟨?_, owned.ids, owned.fresh, owned.linked⟩
    apply Arena.HeldBy.remove (k := .udp)
    apply owned.sockets.perm
    have out := perm_iff_count.mp (swapRemove_map_perm found fun flow => (flow.handle, .udp))
    rw [perm_iff_count]
    intro holder
    have here := out holder
    simp only [holders, Engine.freePort, Engine.removeSocket, flowHolders,
      nil_append, count_append, count_cons] at here ⊢
    omega

/-! ## Walks that keep the owners -/

theorem kindAt_walk {visit : SocketSet → Item → SocketSet × Item} (keeps : ∀ sockets item handle,
      Arena.kindAt Socket.kind (visit sockets item).1 handle =
        Arena.kindAt Socket.kind sockets handle) (sockets : SocketSet)
    (items : List Item) (handle : Nat) :
    Arena.kindAt Socket.kind (walk visit sockets items).1 handle =
      Arena.kindAt Socket.kind sockets handle :=
  walk_leaves visit (fun sockets => Arena.kindAt Socket.kind sockets handle)
    (fun sockets item _ => keeps sockets item handle) sockets

theorem walk_map {visit : Store → Item → Store × Item}
    (keeps : ∀ store item, kept (visit store item).2 = kept item)
    (store : Store) (items : List Item) : (walk visit store items).2.map kept = items.map kept := by
  induction items generalizing store with
  | nil => rfl
  | cons item items induction => rw [walk, map_cons, map_cons, keeps, induction]

theorem Owned.retransmitResolvers (owned : engine.Owned) (now : Instant) :
    (engine.retransmitResolvers now).Owned := by
  refine ⟨?_, owned.ids, owned.fresh, owned.linked⟩
  have handles : resolverHolders (engine.retransmitResolvers now).resolvers =
      resolverHolders engine.resolvers := by
    apply walk_map
    intro sockets lookup
    rw [retransmitOne]
    split <;> rfl
  have same : (engine.retransmitResolvers now).holders = engine.holders := by
    simp only [holders, handles]
    rfl
  rw [same]
  apply owned.sockets.of_kindAt
  apply kindAt_walk
  intro sockets lookup handle
  rw [retransmitOne]
  split
  · rfl
  · simp only
    split
    · rename_i socket sent
      rcases Option.bind_eq_some_iff.mp sent with ⟨before, found, _⟩
      exact SocketSet.kindAt_set_udp found handle
    · rfl

/-- A walk over the flows that keeps their sockets keeps the owners. -/
theorem Owned.flows (owned : engine.Owned)
    {visit : SocketSet → UdpFlow → SocketSet × UdpFlow}
    (kinds : ∀ sockets flow handle, Arena.kindAt Socket.kind (visit sockets flow).1 handle =
        Arena.kindAt Socket.kind sockets handle)
    (handles : ∀ sockets flow, (visit sockets flow).2.handle = flow.handle) :
    Owned { engine with
      sockets := (walk visit engine.sockets engine.udpFlows).1
      udpFlows := (walk visit engine.sockets engine.udpFlows).2 } := by
  refine ⟨?_, owned.ids, owned.fresh, owned.linked⟩
  have same : flowHolders (walk visit engine.sockets engine.udpFlows).2 =
      flowHolders engine.udpFlows := by
    apply walk_map
    intro sockets flow
    rw [handles]
  simp only [holders, same]
  exact owned.sockets.of_kindAt (kindAt_walk kinds _ _)

theorem foldl_receiveOne_handle (flow : UdpFlow) (rx : List Datagram) :
    (rx.foldl receiveOne flow).handle = flow.handle := by
  induction rx generalizing flow with
  | nil => rfl
  | cons datagram rx induction =>
    rw [foldl_cons, induction, receiveOne]
    split <;> rfl

theorem Owned.pumpFlows (owned : engine.Owned) : Owned { engine with
      sockets := (walk pumpFlow engine.sockets engine.udpFlows).1
      udpFlows := (walk pumpFlow engine.sockets engine.udpFlows).2 } := by
  apply owned.flows
  · intro sockets flow handle
    rw [pumpFlow]
    split
    · rfl
    · rename_i found
      exact SocketSet.kindAt_set_udp found handle
  · intro sockets flow
    rw [pumpFlow]
    split <;> rfl

theorem Owned.pumpUdp (owned : engine.Owned) : engine.pumpUdp.Owned :=
  Owned.foldl (fun _ _ owned => owned.removeFlow _) _ owned.pumpFlows

theorem Owned.drainUdp (owned : engine.Owned) : engine.drainUdp.Owned := by
  apply owned.flows
  · intro sockets flow handle
    rw [drainFlow]
    split
    · rfl
    · rename_i found
      exact SocketSet.kindAt_set_udp found handle
  · intro sockets flow
    rw [drainFlow]
    split
    · rfl
    · exact foldl_receiveOne_handle flow _

theorem Owned.poll (owned : engine.Owned) (batch : List Delivery) :
    Owned { engine with sockets := batch.foldl deliver engine.sockets } := by
  refine ⟨?_, owned.ids, owned.fresh, owned.linked⟩
  apply owned.sockets.of_kindAt
  intro handle
  simp only
  generalize engine.sockets = sockets
  induction batch generalizing sockets with
  | nil => rfl
  | cons delivery batch induction => rw [foldl_cons, induction, kindAt_deliver]

/-! ## One connection after the other -/

def Apart (conn other : Conn) : Prop := conn.handle ≠ other.handle ∧ conn.id ≠ other.id

theorem Owned.handles (owned : engine.Owned) : (engine.conns.map Conn.handle).Nodup := by
  have nodup := owned.sockets.handles_nodup
  simp only [holders, nil_append, append_assoc, map_append] at nodup
  have front := (nodup_append.mp nodup).1
  simpa [connHolders, Function.comp_def] using front

theorem Owned.apart (owned : engine.Owned) : engine.conns.Pairwise Apart := by
  have handles := pairwise_map.mp owned.handles
  have ids := pairwise_map.mp owned.ids
  exact handles.and ids

structure Proper (act : Session → Session × Option (Nat × Reply)) : Prop where
  id : ∀ session, (act session).1.conn.id = session.conn.id
  handle : ∀ session, (act session).1.conn.handle = session.conn.handle
  engineEnd : ∀ session, (act session).1.link.engineEnd = session.link.engineEnd

section Visits

theorem sessionOf_eq_some : engine.sessionOf conn = some session ↔ session.conn = conn ∧
        SocketSet.tcp engine.sockets conn.handle = some session.socket ∧
        engine.links.get conn.id = some session.link := by
  rw [sessionOf]
  split
  · rename_i socket link found linked
    constructor
    · intro equal
      cases equal
      exact ⟨rfl, found, linked⟩
    · intro parts
      rcases session with ⟨_, _, _⟩
      rcases parts with ⟨rfl, here, there⟩
      rw [found] at here
      rw [linked] at there
      cases here
      cases there
      rfl
  · rename_i missing
    constructor
    · intro equal
      cases equal
    · intro parts
      exact absurd parts.2.2 (missing _ _ parts.2.1)

theorem visit_of_session (here : engine.sessionOf conn = some session) : visit act engine conn =
      ({ engine with
          sockets := Arena.set engine.sockets conn.handle (.tcp (act session).1.socket)
          links := engine.links.insert conn.id (act session).1.link
          log := engine.log ++ (act session).2.toList.map fun answer =>
              .replied answer.1 answer.2 },
        (act session).1.conn) := by
  rw [visit, here]

theorem sessionOf_visit_of_apart (apart : Apart conn other) :
    (visit act engine conn).1.sessionOf other = engine.sessionOf other := by
  cases here : engine.sessionOf conn with
  | none => rw [visit, here]
  | some session =>
    rw [visit_of_session here]
    simp only [sessionOf, SocketSet.tcp, Arena.get_set, get_insert,
      if_neg (Ne.symm apart.1), if_neg (Ne.symm apart.2)]

theorem sessionOf_visit (here : engine.sessionOf conn = some session) :
    (visit act engine conn).1.sessionOf conn = some { (act session).1 with conn } := by
  rw [visit_of_session here]
  have parts := sessionOf_eq_some.mp here
  have found := SocketSet.tcp_eq_some.mp parts.2.1
  rw [sessionOf_eq_some]
  refine ⟨rfl, ?_, ?_⟩
  · rw [SocketSet.tcp_eq_some]
    simp [Arena.get_set, found]
  · simp

/-- A stage does to every connection what it would do to it alone. -/
theorem walk_visit (act : Session → Session × Option (Nat × Reply)) (owned : engine.Owned) :
    (walk (visit act) engine engine.conns).2 =
        engine.conns.map (fun conn => (visit act engine conn).2) ∧
      ∀ conn ∈ engine.conns, (walk (visit act) engine engine.conns).1.sessionOf conn =
          (visit act engine conn).1.sessionOf conn := by
  apply walk_apart (visit act) (fun conn engine => engine.sessionOf conn) Apart
  · intro store conn other apart
    exact sessionOf_visit_of_apart apart
  · intro store other conn same
    cases here : store.sessionOf conn with
    | none =>
      rw [here] at same
      rw [visit, visit, here, ← same]
      exact ⟨by rw [here, ← same], rfl⟩
    | some session =>
      rw [here] at same
      rw [sessionOf_visit here, sessionOf_visit same.symm]
      exact ⟨rfl, by rw [visit_of_session here, visit_of_session same.symm]⟩
  · exact owned.apart
  · intro conn other apart
    exact ⟨Ne.symm apart.1, Ne.symm apart.2⟩

theorem eachConn_conns (owned : engine.Owned) :
    (engine.eachConn act).conns = engine.conns.map fun conn => (visit act engine conn).2 :=
  (walk_visit act owned).1

theorem sessionOf_eachConn (proper : Proper act) (owned : engine.Owned)
    (member : conn ∈ engine.conns) (here : engine.sessionOf conn = some session) :
    (act session).1.conn ∈ (engine.eachConn act).conns ∧
      (engine.eachConn act).sessionOf (act session).1.conn = some (act session).1 := by
  constructor
  · rw [eachConn_conns owned]
    exact mem_map.mpr ⟨conn, member, by rw [visit_of_session here]⟩
  · have after := (walk_visit act owned).2 conn member
    rw [sessionOf_visit here, sessionOf_eq_some] at after
    have same := (sessionOf_eq_some.mp here).1
    rw [sessionOf_eq_some, proper.handle, proper.id, same]
    exact ⟨rfl, after.2.1, after.2.2⟩

theorem visit_names (proper : Proper act) (engine : Engine) (conn : Conn) :
    (visit act engine conn).2.id = conn.id ∧ (visit act engine conn).2.handle = conn.handle := by
  cases here : engine.sessionOf conn with
  | none =>
    rw [visit, here]
    exact ⟨rfl, rfl⟩
  | some session =>
    have same := (sessionOf_eq_some.mp here).1
    rw [visit_of_session here]
    simp only [proper.id, proper.handle, same, and_self]

structure SameFrame (before after : Engine) : Prop where
  listeners : after.listeners = before.listeners
  resolvers : after.resolvers = before.resolvers
  udpFlows : after.udpFlows = before.udpFlows
  nextConnId : after.nextConnId = before.nextConnId
  usedPorts : after.usedPorts = before.usedPorts

theorem visit_frame (engine : Engine) (conn : Conn) :
    SameFrame engine (visit act engine conn).1 := by
  cases here : engine.sessionOf conn with
  | none =>
    rw [visit, here]
    exact ⟨rfl, rfl, rfl, rfl, rfl⟩
  | some session =>
    rw [visit_of_session here]
    exact ⟨rfl, rfl, rfl, rfl, rfl⟩

theorem eachConn_frame (engine : Engine) : SameFrame engine (engine.eachConn act) where
  listeners := walk_leaves (visit act) Engine.listeners
    (fun engine conn _ => (visit_frame engine conn).listeners) engine
  resolvers := walk_leaves (visit act) Engine.resolvers
    (fun engine conn _ => (visit_frame engine conn).resolvers) engine
  udpFlows := walk_leaves (visit act) Engine.udpFlows
    (fun engine conn _ => (visit_frame engine conn).udpFlows) engine
  nextConnId := walk_leaves (visit act) Engine.nextConnId
    (fun engine conn _ => (visit_frame engine conn).nextConnId) engine
  usedPorts := walk_leaves (visit act) Engine.usedPorts
    (fun engine conn _ => (visit_frame engine conn).usedPorts) engine

theorem kindAt_eachConn (engine : Engine) (handle : Nat) :
    Arena.kindAt Socket.kind (engine.eachConn act).sockets handle =
      Arena.kindAt Socket.kind engine.sockets handle := by
  apply walk_leaves (visit act) (fun engine => Arena.kindAt Socket.kind engine.sockets handle)
  intro engine conn _
  cases here : engine.sessionOf conn with
  | none => rw [visit, here]
  | some session =>
    rw [visit_of_session here]
    exact SocketSet.kindAt_set_tcp (sessionOf_eq_some.mp here).2.1 handle

theorem Owned.eachConn (owned : engine.Owned) (proper : Proper act) :
    (engine.eachConn act).Owned := by
  have frame : SameFrame engine (engine.eachConn act) := eachConn_frame engine
  have conns : (engine.eachConn act).conns = engine.conns.map fun conn =>
      (visit act engine conn).2 := eachConn_conns owned
  have names : ∀ conn, (visit act engine conn).2.id = conn.id ∧
      (visit act engine conn).2.handle = conn.handle :=
    visit_names proper engine
  constructor
  · have same : (engine.eachConn act).holders = engine.holders := by
      simp only [holders, frame.listeners, frame.resolvers, frame.udpFlows,
        conns, connHolders, map_map, Function.comp_def, names]
    rw [same]
    exact owned.sockets.of_kindAt (kindAt_eachConn engine)
  · simp only [conns, map_map, Function.comp_def, names]
    exact owned.ids
  · intro conn member
    rw [conns] at member
    rcases mem_map.mp member with ⟨before, known, rfl⟩
    rw [(names before).1, frame.nextConnId]
    exact owned.fresh before known
  · intro conn member
    rw [conns] at member
    rcases mem_map.mp member with ⟨before, known, rfl⟩
    rcases owned.session known with ⟨socket, link, _, _, alive, here⟩
    have after := (sessionOf_eachConn proper owned known here).2
    rw [visit_of_session here]
    refine ⟨_, (sessionOf_eq_some.mp after).2.2, ?_⟩
    rw [proper.engineEnd]
    exact alive

end Visits

theorem proper_ingest : Proper fun session => (session.ingestWrites, none) where
  id := fun _ => rfl
  handle := fun _ => rfl
  engineEnd := fun _ => rfl

theorem proper_pump : Proper fun session => (session.pumpSocket, none) where
  id := fun _ => rfl
  handle := fun _ => rfl
  engineEnd := fun _ => rfl

theorem Owned.ingestWrites (owned : engine.Owned) : engine.ingestWrites.Owned :=
  owned.eachConn proper_ingest

theorem Owned.pumpSockets (owned : engine.Owned) : engine.pumpSockets.Owned :=
  owned.eachConn proper_pump

theorem perm_cons_filter {conns : List Conn} (member : conn ∈ conns)
    (nodup : (conns.map Conn.id).Nodup) :
    (conn :: conns.filter fun other => other.id ≠ conn.id).Perm conns := by
  induction conns with
  | nil => exact absurd member not_mem_nil
  | cons head rest induction =>
    rw [map_cons, nodup_cons] at nodup
    rcases mem_cons.mp member with rfl | later
    · have others : rest.filter (fun other => other.id ≠ conn.id) = rest := by
        apply filter_eq_self.mpr
        intro other known
        simp only [ne_eq, decide_not, Bool.not_eq_true', decide_eq_false_iff_not]
        intro same
        exact nodup.1 (mem_map.mpr ⟨other, known, same⟩)
      rw [filter_cons_of_neg (by simp), others]
    · have different : head.id ≠ conn.id := by
        intro same
        exact nodup.1 (mem_map.mpr ⟨conn, later, same.symm⟩)
      rw [filter_cons_of_pos (by simpa using different)]
      exact (List.Perm.swap head conn _).trans ((induction later nodup.2).cons head)

theorem Owned.reapOne (owned : engine.Owned) (member : conn ∈ engine.conns) :
    (engine.reapOne conn).Owned := by
  have kept := perm_cons_filter member owned.ids
  constructor
  · apply Arena.HeldBy.remove (k := .tcp)
    apply owned.sockets.perm
    have out := perm_iff_count.mp (kept.map fun conn => (conn.handle, SocketKind.tcp))
    rw [perm_iff_count]
    intro holder
    have here := out holder
    simp only [holders, Engine.reapOne, Engine.freePort, Engine.removeSocket,
      connHolders, map_cons, nil_append, count_append, count_cons] at here ⊢
    omega
  · exact (nodup_cons.mp ((kept.map Conn.id).nodup_iff.mpr owned.ids)).2
  · intro other later
    exact owned.fresh other (mem_of_mem_filter later)
  · intro other later
    rcases mem_filter.mp later with ⟨known, different⟩
    simp only [Engine.reapOne, get_modify]
    rw [if_neg (by simpa using different)]
    exact owned.linked other known

theorem Owned.reap {gone : List Conn} (owned : engine.Owned)
    (members : ∀ conn ∈ gone, conn ∈ engine.conns) (nodup : (gone.map Conn.id).Nodup) :
    (gone.foldl Engine.reapOne engine).Owned := by
  induction gone generalizing engine with
  | nil => exact owned
  | cons conn gone induction =>
    rw [map_cons, nodup_cons] at nodup
    apply induction (owned.reapOne (members conn mem_cons_self))
    · intro other later
      apply mem_filter.mpr
      refine ⟨members other (mem_cons_of_mem _ later), ?_⟩
      simp only [ne_eq, decide_not, Bool.not_eq_true', decide_eq_false_iff_not]
      intro same
      exact nodup.1 (mem_map.mpr ⟨other, later, same⟩)
    · exact nodup.2

theorem proper_drain (now : Instant) : Proper fun session => session.drainSocket now where
  id session := by
    simp only [Session.drainSocket, Session.answer]
    split
    · rfl
    · split
      · rfl
      · rfl
      · split <;> rfl
  handle session := by
    simp only [Session.drainSocket, Session.answer]
    split
    · rfl
    · split
      · rfl
      · rfl
      · split <;> rfl
  engineEnd session := by
    have answered := session.answer_spec now
    have moved := Session.moveReceived_spec connChannelDepth
      (session.answer now).1.socket (session.answer now).1.link
    exact moved.engineEnd.trans answered.engineEnd

theorem Owned.drainSockets (owned : engine.Owned) (now : Instant) :
    (engine.drainSockets now).Owned := by
  have drained := owned.eachConn (proper_drain now)
  apply drained.reap
  · intro conn member
    exact mem_of_mem_filter member
  · exact drained.ids.sublist (filter_sublist.map Conn.id)

/-! ## Listeners -/

theorem newListenSocket_held {after : SocketSet} {bytes : Nat}
    {holders : List (Nat × SocketKind)}
    (held : Arena.HeldBy Socket.kind sockets holders)
    (opened : newListenSocket sockets port bytes = some (handle, after)) :
    Arena.HeldBy Socket.kind after ((handle, .tcp) :: holders) := by
  rw [newListenSocket] at opened
  split at opened
  · rename_i socket listening
    cases opened
    apply (held.add _).of_kindAt
    intro other
    have found : SocketSet.tcp (Arena.add sockets (.tcp { capacity := bytes })).2
        (Arena.add sockets (.tcp { capacity := bytes })).1 = some { capacity := bytes } := by
      rw [SocketSet.tcp_eq_some, Arena.get_add, if_pos rfl]
    exact SocketSet.kindAt_set_tcp found other
  · cases opened

theorem newBacklog_held {after : SocketSet} {bytes count : Nat}
    {holders : List (Nat × SocketKind)}
    (held : Arena.HeldBy Socket.kind sockets holders)
    (opened : newBacklog port bytes count sockets = some (handles, after)) :
    Arena.HeldBy Socket.kind after (handles.map (fun handle => (handle, .tcp)) ++ holders) := by
  induction count generalizing sockets after handles holders with
  | zero =>
    cases opened
    exact held
  | succ count induction =>
    rw [newBacklog] at opened
    rcases Option.bind_eq_some_iff.mp opened with ⟨⟨handle, one⟩, first, rest⟩
    rcases Option.bind_eq_some_iff.mp rest with ⟨⟨more, all⟩, later, last⟩
    cases last
    apply (induction (newListenSocket_held held first) later).perm
    exact perm_middle

theorem Owned.startListen (owned : engine.Owned) (request : Nat)
    (port : UInt16) : (engine.startListen request port).Owned := by
  rw [Engine.startListen]
  split
  · exact owned.note _
  · rename_i pending sockets opened
    apply Spare.note
    refine ⟨?_, owned.ids, owned.fresh, owned.linked⟩
    apply (newBacklog_held owned.sockets opened).perm
    rw [perm_iff_count]
    intro holder
    simp only [holders, listenerHolders, flatMap_append,
      flatMap_cons, flatMap_nil, append_nil, nil_append, count_append]
    omega

theorem count_listenerHolders_modify (inside : place < listeners.length)
    (handle : Nat) (holder : Nat × SocketKind) :
    (listenerHolders (listeners.modify place fun listener =>
        { listener with pending := listener.pending ++ [handle] })).count holder =
      (listenerHolders listeners).count holder + [(handle, SocketKind.tcp)].count holder := by
  induction listeners generalizing place with
  | nil => exact absurd inside (Nat.not_lt_zero _)
  | cons listener rest induction =>
    cases place with
    | zero =>
      simp only [modify_zero_cons, listenerHolders, flatMap_cons,
        map_append, map_cons, map_nil, count_append]
      omega
    | succ place =>
      have later := induction (Nat.lt_of_succ_lt_succ inside)
      simp only [listenerHolders, modify_succ_cons, flatMap_cons, count_append] at later ⊢
      omega

theorem Owned.refillOne (owned : engine.Owned) (port : UInt16) : (engine.refillOne port).Owned := by
  rw [Engine.refillOne]
  split
  · exact owned
  · rename_i handle sockets opened
    split
    · exact owned
    · rename_i place found
      refine ⟨?_, owned.ids, owned.fresh, owned.linked⟩
      apply (newListenSocket_held owned.sockets opened).perm
      have inside := (List.findIdx?_eq_some_iff_getElem.mp found).1
      rw [perm_iff_count]
      intro holder
      have one := count_listenerHolders_modify inside handle holder
      simp only [holders, nil_append, count_append, count_cons, count_nil, one]
      omega

theorem heldBy_removeAll {handles : List Nat}
    {holders : List (Nat × SocketKind)}
    (held : Arena.HeldBy Socket.kind sockets
      (handles.map (fun handle => (handle, .tcp)) ++ holders)) :
    Arena.HeldBy Socket.kind (handles.foldl Arena.remove sockets) holders := by
  induction handles generalizing sockets with
  | nil => exact held
  | cons handle handles induction => exact induction held.remove

theorem count_listenerHolders_swapRemove
    (found : listeners[place]? = some listener) (holder : Nat × SocketKind) :
    (listenerHolders listeners).count holder =
      (listener.pending.map fun handle => (handle, SocketKind.tcp)).count holder +
        (listenerHolders (swapRemove listeners place)).count holder := by
  have permuted := ((swapRemove_perm found).flatMap_right fun listener =>
    listener.pending.map fun handle => (handle, .tcp)).count_eq holder
  rw [listenerHolders, ← permuted, flatMap_cons, count_append]
  rfl

theorem Owned.removeListener (owned : engine.Owned) (place : Nat) :
    (engine.removeListener place).Owned := by
  rw [Engine.removeListener]
  split
  · exact owned
  · rename_i listener found
    refine ⟨?_, owned.ids, owned.fresh, owned.linked⟩
    apply heldBy_removeAll
    apply owned.sockets.perm
    rw [perm_iff_count]
    intro holder
    have out := count_listenerHolders_swapRemove found holder
    simp only [holders, nil_append, count_append, out]
    omega

/-! ### An accept pass -/

/-- Every waiting socket meets one fate. -/
theorem count_fated (listener : Listener) (sockets : SocketSet) (handle : Nat) :
    listener.pending.count handle = (listener.fated sockets .waits).count handle +
        (listener.fated sockets .accepted).count handle +
        (listener.fated sockets .reclaimed).count handle := by
  simp only [Listener.fated]
  induction listener.pending with
  | nil => rfl
  | cons head rest induction =>
    cases met : fate sockets head <;>
      simp only [filter_cons, met, count_cons, decide_true,
        decide_false, reduceCtorEq, Bool.false_eq_true, if_true, if_false] <;>
      omega

theorem count_map_tcp (handles : List Nat) (holder : Nat × SocketKind) :
    (handles.map fun handle => (handle, SocketKind.tcp)).count holder =
      if holder.2 = .tcp then handles.count holder.1 else 0 := by
  rcases holder with ⟨handle, kind⟩
  induction handles with
  | nil => simp
  | cons head rest induction =>
    rw [map_cons, count_cons, induction, count_cons]
    cases kind <;> by_cases here : head = handle <;> simp [here]

/-- The sockets that an accept pass takes from the listeners. -/
theorem count_retained (sockets : SocketSet) (listeners : List Listener)
    (first : Nat) (holder : Nat × SocketKind) : (listenerHolders listeners).count holder =
      ((((listeners.zipIdx first).filter fun entry => entry.1.held).flatMap
          fun entry => entry.1.fated sockets .reclaimed).map
        fun handle => (handle, SocketKind.tcp)).count holder +
      ((((listeners.zipIdx first).filter fun entry => entry.1.held).flatMap
          fun entry => (entry.1.fated sockets .accepted).map fun handle => (entry.2, handle)).map
        fun entry => (entry.2, SocketKind.tcp)).count holder +
      (listenerHolders (listeners.map fun listener =>
        if listener.held then
          { listener with pending := listener.fated sockets .waits }
        else listener)).count holder := by
  induction listeners generalizing first with
  | nil => rfl
  | cons listener rest induction =>
    have later := induction (first + 1)
    have here := count_fated listener sockets holder.1
    rw [zipIdx_cons, map_cons]
    cases alive : listener.held with
    | true =>
      simp only [listenerHolders, filter_cons, alive, if_true,
        flatMap_cons, map_append, map_map, count_append,
        Function.comp_def, count_map_tcp] at later ⊢
      split
      · rename_i tcp
        simp only [tcp, if_true] at later
        omega
      · rename_i tcp
        simp only [tcp, if_false] at later
        omega
    | false =>
      simp only [listenerHolders, filter_cons, alive,
        Bool.false_eq_true, if_false, flatMap_cons, count_append] at later ⊢
      omega

/-- The sockets that are no longer waiting are spare for a moment. -/
theorem Owned.retain (owned : engine.Owned) : engine.retain.Spare
      (engine.reclaimed.map (fun handle => (handle, .tcp)) ++
        engine.accepted.map fun entry => (entry.2, .tcp)) := by
  refine ⟨?_, owned.ids, owned.fresh, owned.linked⟩
  apply owned.sockets.perm
  rw [perm_iff_count]
  intro holder
  have out := count_retained engine.sockets engine.listeners 0 holder
  simp only [holders, nil_append, count_append, out]
  simp only [Engine.retain, reclaimed, accepted, live]
  omega

theorem Spare.sweep {handles : List Nat}
    (spare : engine.Spare (handles.map (fun handle => (handle, .tcp)) ++ spares))
    : (handles.foldl Engine.removeSocket engine).Spare spares := by
  induction handles generalizing engine with
  | nil => exact spare
  | cons handle handles induction => exact induction spare.remove

theorem listenerHolders_set {after : Listener} (found : listeners[place]? = some before)
    (same : after.pending = before.pending) :
    listenerHolders (listeners.set place after) = listenerHolders listeners := by
  induction listeners generalizing place with
  | nil => cases found
  | cons listener rest induction =>
    cases place with
    | zero =>
      cases found
      simp only [listenerHolders, set_cons_zero, flatMap_cons, same]
    | succ place =>
      have later := induction found
      simp only [listenerHolders, set_cons_succ, flatMap_cons] at later ⊢
      rw [later]

theorem Spare.listener (spare : engine.Spare spares) {after : Listener}
    (found : engine.listeners[place]? = some before) (same : after.pending = before.pending) :
    Spare { engine with listeners := engine.listeners.set place after }
      spares := by
  refine ⟨?_, spare.ids, spare.fresh, spare.linked⟩
  simp only [holders, listenerHolders_set found same]
  exact spare.sockets

theorem Spare.acceptOne (spare : engine.Spare ((handle, .tcp) :: spares))
    (now : Instant) (inside : place < engine.listeners.length) :
    (Engine.acceptOne now engine place handle).Spare spares ∧
      (Engine.acceptOne now engine place handle).listeners.length =
        engine.listeners.length := by
  rw [Engine.acceptOne]
  split
  · rename_i missing
    rw [List.getElem?_eq_none_iff] at missing
    omega
  · rename_i listener found
    split
    · constructor
      · apply Spare.note
        apply Spare.listener (spare.track 0 now none .queue) found
        rfl
      · simp [Engine.note]
    · exact ⟨spare.remove.note _, rfl⟩

theorem Spare.acceptAll {entries : List (Nat × Nat)} (now : Instant)
    (spare : engine.Spare (entries.map fun entry => (entry.2, .tcp)))
    (inside : ∀ entry ∈ entries, entry.1 < engine.listeners.length) :
    (entries.foldl (fun engine entry =>
      Engine.acceptOne now engine entry.1 entry.2) engine).Owned := by
  induction entries generalizing engine with
  | nil => exact spare
  | cons entry entries induction =>
    have one := spare.acceptOne now (inside entry mem_cons_self)
    apply induction one.1
    intro other later
    rw [one.2]
    exact inside other (mem_cons_of_mem _ later)

theorem removeSockets_listeners (handles : List Nat) (engine : Engine) :
    (handles.foldl Engine.removeSocket engine).listeners =
      engine.listeners := by
  induction handles generalizing engine with
  | nil => rfl
  | cons handle handles induction =>
    rw [foldl_cons, induction]
    rfl

theorem live_inside (member : entry ∈ engine.live) :
    engine.listeners[entry.2]? = some entry.1 ∧ entry.1.held := by
  rcases mem_filter.mp member with ⟨listed, alive⟩
  exact ⟨mem_zipIdx_iff_getElem?.mp listed, alive⟩

theorem accepted_inside (member : entry ∈ engine.accepted) : entry.1 < engine.listeners.length := by
  rcases mem_flatMap.mp member with ⟨listener, live, here⟩
  rcases mem_map.mp here with ⟨handle, _, rfl⟩
  exact (List.getElem?_eq_some_iff.mp (live_inside live).1).1

section

variable (owned : engine.Owned)

include owned

theorem Owned.handOn (now : Instant) : (engine.handOn now).Owned := by
  apply owned.retain.sweep.acceptAll now
  intro entry member
  rw [removeSockets_listeners]
  simpa [Engine.retain] using accepted_inside member

theorem Owned.acceptListeners (now : Instant) : (engine.acceptListeners now).Owned := by
  apply Owned.foldl (fun _ place owned => owned.removeListener place)
  apply Owned.foldl
  · intro engine refill owned
    exact Owned.foldl (fun _ port owned => owned.refillOne port) _ owned
  · exact owned.handOn now

/-! ## Applications -/

theorem Owned.modifyLink (id : Nat) (keeps : ∀ link, (act link).engineEnd = link.engineEnd) :
    Owned { engine with links := engine.links.modify id act } := by
  refine ⟨owned.sockets, owned.ids, owned.fresh, ?_⟩
  intro conn member
  rcases owned.linked conn member with ⟨link, found, alive⟩
  simp only [get_modify]
  split
  · rename_i here
    rw [← here, found]
    exact ⟨act link, rfl, (keeps link).trans alive⟩
  · exact ⟨link, found, alive⟩

theorem Owned.onStream (id : Nat) (keeps : ∀ link, (act link).engineEnd = link.engineEnd) :
    (engine.onStream id act).Owned := by
  apply owned.modifyLink
  intro link
  split
  · exact keeps link
  · rfl

theorem Owned.handOver (id : Nat) (old new : Holder) : (engine.handOver id old new).Owned := by
  apply owned.modifyLink
  intro link
  split <;> rfl

theorem Owned.accept (place : Nat) : (engine.accept place).Owned := by
  rw [Engine.accept]
  split
  · exact owned
  · rename_i listener found
    split
    · exact owned
    · apply Owned.handOver
      apply Spare.listener owned found
      rfl

theorem Owned.dropListener (place : Nat) : (engine.dropListener place).Owned := by
  rw [Engine.dropListener]
  split
  · exact owned
  · rename_i listener found
    apply Owned.foldl (fun _ _ owned => owned.handOver _ _ _)
    apply Spare.listener owned found
    rfl

theorem Owned.onFlow (place : Nat) (keeps : ∀ flow, (act flow).handle = flow.handle) :
    (engine.onFlow place act).Owned := by
  refine ⟨?_, owned.ids, owned.fresh, owned.linked⟩
  have same : flowHolders (engine.onFlow place act).udpFlows = flowHolders engine.udpFlows := by
    simp only [Engine.onFlow, flowHolders]
    generalize engine.udpFlows = flows
    induction flows generalizing place with
    | nil => simp
    | cons flow rest induction =>
      cases place with
      | zero =>
        rw [modify_zero_cons, map_cons, map_cons]
        split <;> simp [keeps]
      | succ place => rw [modify_succ_cons, map_cons, map_cons, induction]
  have all : (engine.onFlow place act).holders = engine.holders := by
    simp only [holders, same]
    rfl
  rw [all]
  exact owned.sockets

/-- Every action keeps every socket with its owner. -/
theorem Owned.step (action : Action) : (engine.step action).Owned := by
  cases action with
  | openTcp request routable now => exact owned.openTcp request routable now
  | startResolve request name rtype id now => exact owned.startResolve request name rtype id now
  | startUdp request => exact owned.startUdp request
  | startListen request port => exact owned.startListen request port
  | ingestWrites => exact owned.ingestWrites
  | pumpUdp => exact owned.pumpUdp
  | pumpSockets => exact owned.pumpSockets
  | poll batch => exact owned.poll batch
  | drainSockets now => exact owned.drainSockets now
  | acceptListeners now => exact owned.acceptListeners now
  | drainResolvers now => exact owned.drainResolvers now
  | retransmitResolvers now => exact owned.retransmitResolvers now
  | drainUdp => exact owned.drainUdp
  | hangUp id => exact owned.handOver _ _ _
  | read id remaining => exact owned.onStream id fun link => link.pollRead_engineEnd remaining
  | write id buf => exact owned.onStream id fun link => (Session.pollWrite_holder link buf).2
  | shutdown id => exact owned.onStream id fun link => (Session.pollShutdown_holder link).2
  | dropStream id => exact owned.onStream id fun _ => rfl
  | accept place => exact owned.accept place
  | dropListener place => exact owned.dropListener place
  | sendTo place datagram =>
    apply owned.onFlow
    intro flow
    split <;> rfl
  | recvFrom place | dropFlow place => exact owned.onFlow place fun _ => rfl

/-! ## Actions that leave the connections alone -/

end

structure SamePeers (before after : Engine) : Prop where
  conns : after.conns = before.conns
  links : after.links = before.links
  nextConnId : after.nextConnId = before.nextConnId

theorem SamePeers.refl (engine : Engine) : SamePeers engine engine := ⟨rfl, rfl, rfl⟩

theorem SamePeers.trans (early : SamePeers first second) (late : SamePeers second third) :
    SamePeers first third :=
  ⟨late.conns.trans early.conns, late.links.trans early.links,
    late.nextConnId.trans early.nextConnId⟩

theorem SamePeers.foldl (keeps : ∀ engine item, SamePeers engine (act engine item))
    (items : List Item) (engine : Engine) : SamePeers engine (items.foldl act engine) := by
  induction items generalizing engine with
  | nil => exact .refl engine
  | cons item items induction => exact (keeps engine item).trans (induction (act engine item))

theorem removeFlow_peers (engine : Engine) (place : Nat) :
    SamePeers engine (engine.removeFlow place) := by
  rw [Engine.removeFlow]
  split <;> exact ⟨rfl, rfl, rfl⟩

theorem pumpUdp_peers (engine : Engine) : SamePeers engine engine.pumpUdp := by
  rw [Engine.pumpUdp]
  apply SamePeers.trans _ (SamePeers.foldl removeFlow_peers _ _)
  exact ⟨rfl, rfl, rfl⟩

theorem refillMany_peers (engine : Engine) (refill : UInt16 × Nat) :
    SamePeers engine (engine.refillMany refill) := by
  apply SamePeers.foldl
  intro engine port
  rw [refillOne]
  split
  · exact .refl engine
  · split <;> exact ⟨rfl, rfl, rfl⟩

theorem removeListener_peers (engine : Engine) (place : Nat) :
    SamePeers engine (engine.removeListener place) := by
  rw [Engine.removeListener]
  split <;> exact ⟨rfl, rfl, rfl⟩

/-- After it has handed on the waiting sockets, an accept pass has nothing to do
with connections. -/
theorem acceptListeners_peers (engine : Engine) (now : Instant) :
    SamePeers (engine.handOn now) (engine.acceptListeners now) :=
  (SamePeers.foldl refillMany_peers _ _).trans (SamePeers.foldl removeListener_peers _ _)

/-- In every run every socket has one owner. -/
theorem owned_run (dnsServer : Ipv4Addr) (tcpBufferBytes : Nat)
    (seed : UInt16) (actions : List Action) :
    ((spawn dnsServer tcpBufferBytes seed).run actions).Owned :=
  Execution.run_invariant Engine.step Owned (.spawn dnsServer tcpBufferBytes seed)
    (fun _ action owned => owned.step action) actions

/-- No socket leaks and no handle dangles: in every run the handles that the
engine keeps are those of the filled slots, each kept once and as what it is,
and every connection has a number and channels of its own. -/
theorem sockets_held_once (dnsServer : Ipv4Addr) (tcpBufferBytes : Nat)
    (seed : UInt16) (actions : List Action) :
    let engine := (spawn dnsServer tcpBufferBytes seed).run actions
    (engine.holders.map Prod.fst).Nodup ∧ (∀ handle kind, (handle, kind) ∈ engine.holders ↔
        (Arena.get engine.sockets handle).map Socket.kind = some kind) ∧
      (engine.conns.map Conn.id).Nodup ∧
      ∀ conn ∈ engine.conns, (engine.links.get conn.id).isSome := by
  have owned := owned_run dnsServer tcpBufferBytes seed actions
  refine ⟨owned.sockets.handles_nodup, owned.sockets.exact, owned.ids, ?_⟩
  intro conn member
  rcases owned.linked conn member with ⟨link, found, _⟩
  exact Option.isSome_of_eq_some found

end Steps

end Engine

end WarrenSdk.Net.Netstack
