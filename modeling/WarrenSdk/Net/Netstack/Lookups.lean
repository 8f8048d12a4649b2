import WarrenSdk.Net.Netstack.Ownership

/-! # Where the answers of lookups come from

Every address that a lookup returns goes back to one datagram that has ended a
lookup of that name and type, over the cache or at once. -/

namespace WarrenSdk.Net.Netstack

open Bolthole List

/-- An event that neither ends a lookup with a datagram nor gives an address. -/
def Event.plain : Event → Bool
  | .heard .. => false
  | .lookedUp _ _ _ (.ok _) _ => false
  | _ => true

/-- The log shows how an address was learnt: a datagram has ended a lookup of
that name and type, it repeats the id of a query that was sent for it, and the
address is its first of that type. -/
structure Backed (log : List Event) (name : List UInt8)
    (rtype : Dns.RecordType) (ip : IpAddr) (lookup : PendingResolve)
    (datagram : Datagram) (heardAt : Instant) (ttl : Nat) : Prop where
  heard : .heard lookup datagram heardAt ∈ log
  subject : lookup.name = name ∧ lookup.rtype = rtype
  asked : .queried name rtype lookup.id ∈ log
  answers : Dns.Answers datagram.1 lookup.id rtype ip ttl

/-- When an answer may be given: at once, or for as long as the cache may keep
it. -/
def Timely (now heardAt : Instant) (ttl : Nat) : Prop :=
  now = heardAt ∨ now < heardAt + min (.fromSecs ttl) dnsCacheMaxTtl

theorem Backed.mono {lookup : PendingResolve}
    (backed : Backed log name rtype ip lookup datagram heardAt ttl) (longer : log ⊆ later) :
    Backed later name rtype ip lookup datagram heardAt ttl :=
  ⟨longer backed.heard, backed.subject, longer backed.asked, backed.answers⟩

namespace Engine

variable {engine : Engine}

/-- Everything the engine knows or has told about names is backed, and the
datagrams that have ended lookups are from sources that are trusted. -/
structure Known (trusts : SocketAddr → Prop) (engine : Engine) : Prop where
  asked : ∀ lookup ∈ engine.resolvers, .queried lookup.name lookup.rtype lookup.id ∈ engine.log
  cached : ∀ name rtype ip expiry, engine.dnsCache.get (name, rtype) = some (ip, expiry) →
      ∃ lookup datagram heardAt ttl, Backed engine.log name rtype ip lookup datagram heardAt ttl ∧
          expiry = heardAt + min (.fromSecs ttl) dnsCacheMaxTtl
  told : ∀ request name rtype ip now, .lookedUp request name rtype (.ok ip) now ∈ engine.log →
      ∃ lookup datagram heardAt ttl, Backed engine.log name rtype ip lookup datagram heardAt ttl ∧
          Timely now heardAt ttl
  heard : ∀ lookup datagram now, .heard lookup datagram now ∈ engine.log → trusts datagram.2

/-! ## What is silent about names -/

/-- Nothing was learnt, asked or told about names. -/
structure Silent (before after : Engine) : Prop where
  resolvers : after.resolvers ⊆ before.resolvers
  dnsCache : after.dnsCache = before.dnsCache
  log : ∃ news, after.log = before.log ++ news ∧ ∀ event ∈ news, event.plain = true

variable {after : Engine} {lookup : PendingResolve}
  {trusts : SocketAddr → Prop}

theorem Silent.of_log (resolvers : after.resolvers = before.resolvers)
    (dnsCache : after.dnsCache = before.dnsCache) (log : after.log = before.log)
    : Silent before after :=
  ⟨resolvers ▸ Subset.refl _, dnsCache, [], by rw [log, append_nil],
    fun _ member => absurd member not_mem_nil⟩

theorem Silent.refl (engine : Engine) : Silent engine engine := .of_log rfl rfl rfl

theorem Silent.trans (early : Silent first second) (late : Silent second third) :
    Silent first third := by
  rcases early.log with ⟨older, added, quiet⟩
  rcases late.log with ⟨newer, addedLater, quietLater⟩
  refine ⟨List.Subset.trans late.resolvers early.resolvers, late.dnsCache.trans early.dnsCache,
    older ++ newer, by rw [addedLater, added, append_assoc], ?_⟩
  intro event member
  rcases mem_append.mp member with old | new
  · exact quiet event old
  · exact quietLater event new

theorem Silent.foldl {act : Engine → Item → Engine}
    (keeps : ∀ engine item, Silent engine (act engine item)) (items : List Item) (engine : Engine) :
    Silent engine (items.foldl act engine) := by
  induction items generalizing engine with
  | nil => exact .refl engine
  | cons item items induction => exact (keeps engine item).trans (induction (act engine item))

theorem Silent.of_event (resolvers : after.resolvers = before.resolvers)
    (dnsCache : after.dnsCache = before.dnsCache)
    (log : ∃ event, after.log = before.log ++ [event] ∧ event.plain = true) :
    Silent before after := by
  rcases log with ⟨event, added, quiet⟩
  refine ⟨resolvers ▸ Subset.refl _, dnsCache, [event], added, ?_⟩
  intro other member
  rw [mem_singleton.mp member]
  exact quiet

section

variable (engine : Engine)

theorem allocPort_silent (sockets : SocketSet) :
    Silent engine (allocPort { engine with sockets }).2 := by
  rcases allocPort_eq { engine with sockets } with ⟨nextPort, usedPorts, same⟩
  rw [same]
  exact .of_log rfl rfl rfl

theorem openTcp_silent (request : Nat) (routable : Bool) (now : Instant) :
    Silent engine (engine.openTcp request routable now) := by
  rw [openTcp]
  have allocated := allocPort_silent engine
    (Arena.add engine.sockets (.tcp { capacity := engine.tcpBufferBytes })).2
  revert allocated
  generalize allocPort _ = port
  intro allocated
  apply allocated.trans
  rcases port with ⟨_ | port, later⟩
  · exact .of_event rfl rfl ⟨_, rfl, rfl⟩
  · rw [openOn]
    split
    · exact .of_log rfl rfl rfl
    · exact .of_event rfl rfl ⟨_, rfl, rfl⟩

theorem startUdp_silent (request : Nat) : Silent engine (engine.startUdp request) := by
  rw [startUdp]
  have allocated := allocPort_silent engine
    (Arena.add engine.sockets (.udp { port := 0, slots := udpSlots })).2
  revert allocated
  generalize allocPort _ = port
  intro allocated
  apply allocated.trans
  rcases port with ⟨_ | port, later⟩
  · exact .of_event rfl rfl ⟨_, rfl, rfl⟩
  · exact .of_event rfl rfl ⟨_, rfl, rfl⟩

theorem startListen_silent (request : Nat) (port : UInt16) :
    Silent engine (engine.startListen request port) := by
  rw [startListen]
  split
  · exact .of_event rfl rfl ⟨_, rfl, rfl⟩
  · exact .of_event rfl rfl ⟨_, rfl, rfl⟩

theorem removeFlow_silent (place : Nat) : Silent engine (engine.removeFlow place) := by
  rw [removeFlow]
  split <;> exact .of_log rfl rfl rfl

theorem pumpUdp_silent : Silent engine engine.pumpUdp := by
  apply Silent.trans _ (Silent.foldl removeFlow_silent _ _)
  exact .of_log rfl rfl rfl

end

theorem visit_silent (act : Session → Session × Option (Nat × Reply))
    (engine : Engine) (conn : Conn) : Silent engine (visit act engine conn).1 := by
  rw [visit]
  split
  · exact .refl engine
  · refine ⟨Subset.refl _, rfl, _, rfl, ?_⟩
    intro event member
    rcases mem_map.mp member with ⟨answer, _, rfl⟩
    rfl

theorem eachConn_silent (act : Session → Session × Option (Nat × Reply))
    (engine : Engine) : Silent engine (engine.eachConn act) := by
  have walked : ∀ conns, Silent engine (walk (visit act) engine conns).1 := by
    intro conns
    induction conns generalizing engine with
    | nil => exact .refl engine
    | cons conn conns induction => exact (visit_silent act engine conn).trans (induction _)
  exact (walked engine.conns).trans (.of_log rfl rfl rfl)

theorem drainSockets_silent (engine : Engine) (now : Instant) :
    Silent engine (engine.drainSockets now) := by
  have reaped : ∀ (engine : Engine) conn, Silent engine (engine.reapOne conn) :=
    fun _ _ => .of_log rfl rfl rfl
  exact (eachConn_silent _ engine).trans (Silent.foldl reaped _ _)

theorem acceptOne_silent (now : Instant) (engine : Engine)
    (place handle : Nat) : Silent engine (acceptOne now engine place handle) := by
  rw [acceptOne]
  split
  · exact .refl engine
  · split
    · exact .of_event rfl rfl ⟨_, rfl, rfl⟩
    · exact .of_event rfl rfl ⟨_, rfl, rfl⟩

theorem refillMany_silent (engine : Engine) (refill : UInt16 × Nat) :
    Silent engine (engine.refillMany refill) := by
  apply Silent.foldl
  intro engine port
  rw [refillOne]
  split
  · exact .refl engine
  · split <;> exact .of_log rfl rfl rfl

theorem removeListener_silent (engine : Engine) (place : Nat) :
    Silent engine (engine.removeListener place) := by
  rw [removeListener]
  split <;> exact .of_log rfl rfl rfl

theorem acceptListeners_silent (engine : Engine) (now : Instant) :
    Silent engine (engine.acceptListeners now) := by
  have retained : Silent engine engine.retain := .of_log rfl rfl rfl
  have removed : ∀ (engine : Engine) handle, Silent engine (engine.removeSocket handle) :=
    fun _ _ => .of_log rfl rfl rfl
  have swept := Silent.foldl removed engine.reclaimed engine.retain
  have handed := Silent.foldl (fun (later : Engine) (entry : Nat × Nat) =>
    acceptOne_silent now later entry.1 entry.2) engine.accepted
    (engine.reclaimed.foldl removeSocket engine.retain)
  exact (((retained.trans swept).trans handed).trans (Silent.foldl refillMany_silent _ _)).trans
    (Silent.foldl removeListener_silent _ _)

theorem accept_silent (engine : Engine) (place : Nat) : Silent engine (engine.accept place) := by
  rw [accept]
  split
  · exact .refl engine
  · split <;> exact .of_log rfl rfl rfl

theorem dropListener_silent (engine : Engine) (place : Nat) :
    Silent engine (engine.dropListener place) := by
  rw [dropListener]
  split
  · exact .refl engine
  · have handed : ∀ (engine : Engine) id, Silent engine (engine.handOver id .queue .nobody) :=
      fun _ _ => .of_log rfl rfl rfl
    apply Silent.trans _ (Silent.foldl handed _ _)
    exact .of_log rfl rfl rfl

/-- What is known stays known; what is new has to be backed. -/
theorem Known.grow {before : Engine} {news : List Event} (known : before.Known trusts)
    (log : after.log = before.log ++ news)
    (asked : ∀ lookup ∈ after.resolvers, lookup ∈ before.resolvers ∨
      .queried lookup.name lookup.rtype lookup.id ∈ news)
    (cached : ∀ name rtype ip expiry, after.dnsCache.get (name, rtype) = some (ip, expiry) →
        before.dnsCache.get (name, rtype) = some (ip, expiry) ∨ ∃ lookup datagram heardAt ttl,
          Backed after.log name rtype ip lookup datagram heardAt ttl ∧
            expiry = heardAt + min (.fromSecs ttl) dnsCacheMaxTtl)
    (told : ∀ request name rtype ip now, .lookedUp request name rtype (.ok ip) now ∈ news →
        ∃ lookup datagram heardAt ttl, Backed after.log name rtype ip lookup datagram heardAt ttl ∧
            Timely now heardAt ttl)
    (heard : ∀ lookup datagram now, .heard lookup datagram now ∈ news →
      trusts datagram.2) : after.Known trusts := by
  have longer : before.log ⊆ after.log := by
    rw [log]
    exact subset_append_left _ _
  refine ⟨?_, ?_, ?_, ?_⟩
  · intro lookup member
    rcases asked lookup member with old | new
    · exact longer (known.asked lookup old)
    · rw [log]
      exact mem_append_right _ new
  · intro name rtype ip expiry found
    rcases cached name rtype ip expiry found with old | new
    · rcases known.cached name rtype ip expiry old with
        ⟨lookup, datagram, heardAt, ttl, backed, same⟩
      exact ⟨lookup, datagram, heardAt, ttl, backed.mono longer, same⟩
    · exact new
  · intro request name rtype ip now member
    rw [log] at member
    rcases mem_append.mp member with old | new
    · rcases known.told request name rtype ip now old with
        ⟨lookup, datagram, heardAt, ttl, backed, timely⟩
      exact ⟨lookup, datagram, heardAt, ttl, backed.mono longer, timely⟩
    · exact told request name rtype ip now new
  · intro lookup datagram now member
    rw [log] at member
    rcases mem_append.mp member with old | new
    · exact known.heard lookup datagram now old
    · exact heard lookup datagram now new

theorem Known.silent (known : before.Known trusts)
    (silent : Silent before after) : after.Known trusts := by
  rcases silent.log with ⟨news, added, plain⟩
  apply known.grow added
  · intro lookup member
    exact .inl (silent.resolvers member)
  · intro name rtype ip expiry found
    exact .inl (silent.dnsCache ▸ found)
  · intro request name rtype ip now new
    cases plain _ new
  · intro lookup datagram now new
    cases plain _ new

/-! ## Starting a lookup -/

theorem failResolve_silent (engine : Engine) (request : Nat)
    (name : List UInt8) (rtype : Dns.RecordType) (now : Instant) :
    Silent engine (engine.failResolve request name rtype now) :=
  .of_event rfl rfl ⟨_, rfl, rfl⟩

/-- A lookup is pending once its query has been sent. -/
theorem Known.ask (known : engine.Known trusts) (sockets : SocketSet) (lookup : PendingResolve) :
    Known trusts (Engine.note
      { engine with sockets, resolvers := engine.resolvers ++ [lookup] }
      (.queried lookup.name lookup.rtype lookup.id)) := by
  apply known.grow rfl
  · intro other member
    rcases mem_append.mp member with old | new
    · exact .inl old
    · rw [mem_singleton.mp new]
      exact .inr mem_cons_self
  · intro name rtype ip expiry found
    exact .inl found
  · intro request name rtype ip now new
    cases mem_singleton.mp new
  · intro lookup datagram now new
    cases mem_singleton.mp new

theorem Known.resolveOn (known : port.2.Known trusts) (request : Nat)
    (name : List UInt8) (rtype : Dns.RecordType) (id : UInt16) (now : Instant)
    (query : List UInt8) (handle : Nat) :
    (Engine.resolveOn request name rtype id now query handle port).Known trusts := by
  rcases port with ⟨_ | localPort, engine⟩
  · apply known.silent
    exact .of_event rfl rfl ⟨_, rfl, rfl⟩
  · rw [Engine.resolveOn]
    split
    · apply known.silent
      exact .of_event rfl rfl ⟨_, rfl, rfl⟩
    · exact known.ask _ _

theorem Known.tell (known : engine.Known trusts)
    (kept : engine.cached name rtype now = some ip) (request : Nat) :
    (engine.note (.lookedUp request name rtype (.ok ip) now)).Known trusts := by
  apply known.grow rfl
  · intro lookup member
    exact .inl member
  · intro name rtype ip expiry found
    exact .inl found
  · intro other otherName otherType address time new
    cases mem_singleton.mp new
    rw [Engine.cached] at kept
    split at kept
    · rename_i stored expiry found
      split at kept
      · rename_i fresh
        cases kept
        rcases known.cached _ _ _ _ found with ⟨lookup, datagram, heardAt, ttl, backed, same⟩
        exact ⟨lookup, datagram, heardAt, ttl,
          backed.mono (subset_append_left _ _), .inr (same ▸ fresh)⟩
      · cases kept
    · cases kept
  · intro lookup datagram now new
    cases mem_singleton.mp new

theorem Known.startResolve (known : engine.Known trusts) (request : Nat)
    (name : List UInt8) (rtype : Dns.RecordType) (id : UInt16) (now : Instant) :
    (engine.startResolve request name rtype id now).Known trusts := by
  rw [Engine.startResolve]
  split
  · rename_i ip kept
    exact known.tell kept request
  · split
    · exact known.silent (failResolve_silent engine request name rtype now)
    · apply Known.resolveOn
      exact known.silent (allocPort_silent engine _)

/-! ## Ending a lookup -/

theorem outcome_ok (ok : (lookup.outcome data now).1 = .ok ip) :
    ∃ ttl, Dns.Answers data lookup.id lookup.rtype ip ttl ∧
      ∀ address expiry, (lookup.outcome data now).2 = some (address, expiry) →
        address = ip ∧ expiry = now + min (.fromSecs ttl) dnsCacheMaxTtl := by
  rw [PendingResolve.outcome] at ok ⊢
  split at ok
  · rename_i first more ttl parsed
    cases ok
    refine ⟨ttl, Dns.answers_of_parse parsed, ?_⟩
    intro address expiry kept
    simp only at kept
    split at kept
    · cases kept
      exact ⟨rfl, rfl⟩
    · cases kept
  · cases ok
  · cases ok
  · cases ok

theorem outcome_error (failed : (lookup.outcome data now).1 = .error error) :
    (lookup.outcome data now).2 = none := by
  rw [PendingResolve.outcome] at failed ⊢
  split at failed
  · cases failed
  · rfl
  · rfl
  · rfl

/-- Making room forgets entries; none is changed. -/
theorem get_cacheDns
    (found : (engine.cacheDns name rtype ip expiry now).dnsCache.get key = some entry) :
    key = (name, rtype) ∧ entry = (ip, expiry) ∨ engine.dnsCache.get key = some entry := by
  rw [cacheDns] at found
  simp only [HashMap.get_insert] at found
  split at found
  · rename_i same
    cases found
    exact .inl ⟨same, rfl⟩
  · right
    split at found
    · split at found
      · simp at found
      · exact (HashMap.get_of_retain found).1
    · exact found

/-- A datagram ends a lookup. -/
theorem Known.learn (known : engine.Known trusts) (pending : lookup ∈ engine.resolvers)
    (datagram : Datagram) (trusted : trusts datagram.2) (now : Instant)
    (request : Nat) (fewer : after.resolvers ⊆ engine.resolvers)
    (kept : ∀ key entry, after.dnsCache.get key = some entry → key = (lookup.name, lookup.rtype) ∧
          (lookup.outcome datagram.1 now).2 = some entry ∨
        engine.dnsCache.get key = some entry)
    (log : after.log = engine.log ++ [.heard lookup datagram now,
      .lookedUp request lookup.name lookup.rtype
        (lookup.outcome datagram.1 now).1 now]) : after.Known trusts := by
  have backed : ∀ {ip ttl}, Dns.Answers datagram.1 lookup.id lookup.rtype ip ttl →
        Backed after.log lookup.name lookup.rtype ip lookup datagram now ttl := by
    intro ip ttl answers
    rw [log]
    exact ⟨mem_append_right _ mem_cons_self, ⟨rfl, rfl⟩,
      mem_append_left _ (known.asked lookup pending), answers⟩
  apply known.grow log
  · intro other member
    exact .inl (fewer member)
  · intro name rtype ip expiry found
    rcases kept _ _ found with ⟨key, stored⟩ | old
    · right
      cases key
      cases result : (lookup.outcome datagram.1 now).1 with
      | error refused =>
        rw [outcome_error result] at stored
        cases stored
      | ok address =>
        rcases outcome_ok result with ⟨ttl, answers, same⟩
        rcases same ip expiry stored with ⟨rfl, until_⟩
        exact ⟨lookup, datagram, now, ttl, backed answers, until_⟩
    · exact .inl old
  · intro other name rtype ip time new
    simp only [mem_cons, not_mem_nil, or_false, reduceCtorEq, false_or, Event.lookedUp.injEq] at new
    rcases new with ⟨rfl, rfl, rfl, result, rfl⟩
    rcases outcome_ok result.symm with ⟨ttl, answers, _⟩
    exact ⟨lookup, datagram, time, ttl, backed answers, .inl rfl⟩
  · intro other heard time new
    simp only [mem_cons, not_mem_nil, or_false, reduceCtorEq, Event.heard.injEq] at new
    rw [new.2.1]
    exact trusted

theorem Known.finishResolve (known : engine.Known trusts) (now : Instant)
    (place : Nat) (ending : Ending)
    (trusted : ∀ datagram, ending = .heard datagram → trusts datagram.2) :
    (engine.finishResolve now place ending).Known trusts := by
  rw [Engine.finishResolve]
  split
  · exact known
  · rename_i lookup found
    have fewer : swapRemove engine.resolvers place ⊆ engine.resolvers :=
      fun _ member => mem_of_mem_swapRemove found member
    cases ending with
    | late => exact known.silent ⟨fewer, rfl, _, rfl, by simp [Event.plain]⟩
    | heard datagram =>
      apply known.learn (mem_of_getElem? found) datagram (trusted datagram rfl) now lookup.request
      · simp only
        split <;> exact fewer
      · intro key entry stored
        simp only [note] at stored
        split at stored
        · rename_i ip expiry kept
          rcases get_cacheDns stored with ⟨same, rfl⟩ | old
          · exact .inl ⟨same, kept⟩
          · exact .inr old
        · exact .inr stored
      · simp only [note]
        split <;> simp [cacheDns, freePort, removeSocket]

/-! ## Every run -/

theorem retransmitOne_subject (dst : SocketAddr) (now : Instant)
    (sockets : SocketSet) (lookup : PendingResolve) :
    (retransmitOne dst now sockets lookup).2.name = lookup.name ∧
      (retransmitOne dst now sockets lookup).2.rtype = lookup.rtype ∧
      (retransmitOne dst now sockets lookup).2.id = lookup.id := by
  rw [retransmitOne]
  split <;> exact ⟨rfl, rfl, rfl⟩

theorem Known.retransmitResolvers (known : engine.Known trusts)
    (now : Instant) : (engine.retransmitResolvers now).Known trusts := by
  refine ⟨?_, known.cached, known.told, known.heard⟩
  have walked : ∀ (sockets : SocketSet) (lookups : List PendingResolve),
      (∀ lookup ∈ lookups, .queried lookup.name lookup.rtype lookup.id ∈ engine.log) →
      ∀ lookup ∈ (walk (retransmitOne engine.resolver now) sockets lookups).2,
        .queried lookup.name lookup.rtype lookup.id ∈ engine.log := by
    intro sockets lookups asked
    induction lookups generalizing sockets with
    | nil => exact asked
    | cons first lookups induction =>
      intro lookup member
      rcases mem_cons.mp member with rfl | later
      · rcases retransmitOne_subject engine.resolver now sockets first with
          ⟨name, rtype, id⟩
        rw [name, rtype, id]
        exact asked first mem_cons_self
      · exact induction _ (fun other member => asked other (mem_cons_of_mem _ member)) lookup later
  exact walked engine.sockets engine.resolvers known.asked

/-- The datagram that waits first at the socket of a pending lookup is from a
source that is trusted. -/
def Trusted (trusts : SocketAddr → Prop) (engine : Engine) : Action → Prop
  | .drainResolvers _ => ∀ lookup ∈ engine.resolvers, ∀ socket,
      SocketSet.udp engine.sockets lookup.handle = some socket →
      ∀ datagram ∈ socket.rx.head?, trusts datagram.2
  | _ => True

theorem trusted_ending (trusted : engine.Trusted trusts (.drainResolvers now))
    (pending : lookup ∈ engine.resolvers)
    (ends : lookup.ending engine.sockets now = some (.heard datagram)) : trusts datagram.2 := by
  rw [PendingResolve.ending] at ends
  split at ends
  · cases ends
  · rename_i socket found
    split at ends
    · rename_i first rest waiting
      cases ends
      exact trusted lookup pending socket found _ (by rw [waiting]; rfl)
    · split at ends <;> cases ends

theorem Known.drainResolvers (known : engine.Known trusts)
    (trusted : engine.Trusted trusts (.drainResolvers now)) :
    (engine.drainResolvers now).Known trusts := by
  have heard : ∀ entry ∈ (engine.finished now).reverse, ∀ datagram,
      entry.2 = .heard datagram → trusts datagram.2 := by
    intro entry member datagram same
    rcases mem_filterMap.mp (mem_reverse.mp member) with ⟨source, listed, ends⟩
    rcases Option.map_eq_some_iff.mp ends with ⟨ending, here, rfl⟩
    cases same
    exact trusted_ending trusted (fst_mem_of_mem_zipIdx listed) here
  rw [Engine.drainResolvers]
  generalize (engine.finished now).reverse = endings at heard
  clear trusted
  induction endings generalizing engine with
  | nil => exact known
  | cons entry endings induction =>
    rcases forall_mem_cons.mp heard with ⟨first, rest⟩
    exact induction (known.finishResolve now entry.1 entry.2 first) rest

theorem Known.step (known : engine.Known trusts) (trusted : engine.Trusted trusts action) :
    (engine.step action).Known trusts := by
  cases action with
  | openTcp request routable now => exact known.silent (openTcp_silent engine request routable now)
  | startResolve request name rtype id now => exact known.startResolve request name rtype id now
  | startUdp request => exact known.silent (startUdp_silent engine request)
  | startListen request port => exact known.silent (startListen_silent engine request port)
  | ingestWrites | pumpSockets => exact known.silent (eachConn_silent _ engine)
  | pumpUdp => exact known.silent (pumpUdp_silent engine)
  | drainSockets now => exact known.silent (drainSockets_silent engine now)
  | acceptListeners now => exact known.silent (acceptListeners_silent engine now)
  | drainResolvers now => exact known.drainResolvers trusted
  | retransmitResolvers now => exact known.retransmitResolvers now
  | accept place => exact known.silent (accept_silent engine place)
  | dropListener place => exact known.silent (dropListener_silent engine place)
  | _ => exact known.silent (.of_log rfl rfl rfl)

theorem known_run (dnsServer : Ipv4Addr) (tcpBufferBytes : Nat)
    (seed : UInt16) (actions : List Action)
    (trusted : Execution.Guarded Engine.step (Trusted trusts)
      (spawn dnsServer tcpBufferBytes seed) actions) :
    ((spawn dnsServer tcpBufferBytes seed).run actions).Known trusts := by
  refine Execution.run_history Engine.step (fun _ engine => engine.Known trusts)
    ⟨?_, ?_, ?_, ?_⟩ (fun _ _ known trusted => known.step trusted) actions trusted
  · exact fun _ member => absurd member not_mem_nil
  · intro name rtype ip expiry found
    simp [spawn] at found
  · exact fun _ _ _ _ _ member => absurd member not_mem_nil
  · exact fun _ _ _ member => absurd member not_mem_nil

/-- In every run, an address that a lookup returns is backed by a datagram and
given in time. Where only datagrams of the resolver wait first at a lookup that
is looked at, it comes from the resolver, and no one else ends a lookup. -/
theorem lookups_trusted (dnsServer : Ipv4Addr) (tcpBufferBytes : Nat)
    (seed : UInt16) (actions : List Action) :
    let log := ((spawn dnsServer tcpBufferBytes seed).run actions).log
    let resolver : SocketAddr := ⟨.v4 dnsServer, dnsPort⟩
    (∀ request name rtype ip now, .lookedUp request name rtype (.ok ip) now ∈ log →
        ∃ lookup datagram heardAt ttl, Backed log name rtype ip lookup datagram heardAt ttl ∧
            Timely now heardAt ttl) ∧
      (Execution.Guarded Engine.step (Trusted (· = resolver))
          (spawn dnsServer tcpBufferBytes seed) actions →
        (∀ request name rtype ip now, .lookedUp request name rtype (.ok ip) now ∈ log →
            ∃ lookup datagram heardAt ttl, Backed log name rtype ip lookup datagram heardAt ttl ∧
                Timely now heardAt ttl ∧ datagram.2 = resolver) ∧
          ∀ lookup datagram now, .heard lookup datagram now ∈ log → datagram.2 = resolver) := by
  intro log resolver
  constructor
  · have anyone : Execution.Guarded Engine.step (Trusted fun _ => True)
        (spawn dnsServer tcpBufferBytes seed) actions := by
      intro past action later split
      cases action <;> simp [Trusted]
    exact (known_run dnsServer tcpBufferBytes seed actions anyone).told
  · intro trusted
    have known := known_run dnsServer tcpBufferBytes seed actions trusted
    refine ⟨?_, known.heard⟩
    intro request name rtype ip now member
    rcases known.told request name rtype ip now member with
      ⟨lookup, datagram, heardAt, ttl, backed, timely⟩
    exact ⟨lookup, datagram, heardAt, ttl, backed, timely,
      known.heard lookup datagram heardAt backed.heard⟩

end Engine

/-! ## Samples -/

namespace Sample

def forged : List UInt8 :=
  [0, 5, 0x81, 0x80, 0, 0, 0, 1, 0, 0, 0, 0, 0, 0, 1, 0, 1, 0, 0, 0, 60, 0, 4, 6, 6, 6, 6]

def stranger : SocketAddr := ⟨.v4 ⟨0xC0000201#32⟩, 4444⟩

end Sample

/-- A stranger's datagram answers a lookup, and another ends one. -/
theorem Engine.stranger_answers_lookup :
    let engine := (Engine.spawn ⟨10#32⟩ 64 0).run
      [.startResolve 7 [97] .a 5 0, .startResolve 8 [98] .a 6 0,
        .poll [.datagram 0 (Sample.forged, Sample.stranger),
          .datagram 1 ([], Sample.stranger)], .drainResolvers 1]
    .lookedUp 7 [97] .a (.ok (.v4 ⟨0x06060606#32⟩)) 1 ∈ engine.log ∧
      .lookedUp 8 [98] .a (.error .connectFailed) 1 ∈ engine.log ∧
      ∃ lookup, .heard lookup (Sample.forged, Sample.stranger) 1 ∈ engine.log := by
  intro engine
  have answered : engine.log[5]? = some (.lookedUp 7 [97] .a (.ok (.v4 ⟨0x06060606#32⟩)) 1) := rfl
  have ended : engine.log[3]? = some (.lookedUp 8 [98] .a (.error .connectFailed) 1) := rfl
  have heard : ∃ lookup, engine.log[4]? =
      some (.heard lookup (Sample.forged, Sample.stranger) 1) := ⟨_, rfl⟩
  refine ⟨mem_of_getElem? answered, mem_of_getElem? ended, ?_⟩
  rcases heard with ⟨lookup, heard⟩
  exact ⟨lookup, mem_of_getElem? heard⟩

end WarrenSdk.Net.Netstack
