import WarrenSdk.Net.Netstack.Ownership

/-! # Completed handshakes

A pass of the engine looks at every connect that waits and at every listening
socket. What it makes of a handshake that is complete depends on the state that
it finds the socket in, behind all segments of the batch. -/

namespace WarrenSdk.Net.Netstack

open Bolthole List

namespace Engine

variable {engine : Engine}

def said (before after : Engine) : List Event := after.log.drop before.log.length

theorem said_of_append {after : Engine} (added : after.log = before.log ++ news)
    : said before after = news := by
  rw [said, added, drop_left]

/-! ## Connects -/

section Answers

def answers (act : Session → Session × Option (Nat × Reply)) (engine : Engine)
    (conn : Conn) : List Event :=
  match engine.sessionOf conn with
  | none => []
  | some session => (act session).2.toList.map fun answer => .replied answer.1 answer.2

theorem visit_log (engine : Engine) (conn : Conn) :
    (visit act engine conn).1.log = engine.log ++ answers act engine conn := by
  cases here : engine.sessionOf conn with
  | none => simp only [visit, answers, here, append_nil]
  | some session => simp only [visit, answers, here]

theorem walk_log {conns : List Conn} (apart : conns.Pairwise Apart) (engine : Engine) :
    (walk (visit act) engine conns).1.log = engine.log ++ conns.flatMap (answers act engine) := by
  induction conns generalizing engine with
  | nil => exact (append_nil _).symm
  | cons conn conns induction =>
    rcases pairwise_cons.mp apart with ⟨fromHead, rest⟩
    have same : conns.flatMap (answers act (visit act engine conn).1) =
        conns.flatMap (answers act engine) := by
      apply flatMap_congr
      intro other member
      rw [answers, answers, sessionOf_visit_of_apart (fromHead other member)]
    rw [walk, induction rest, visit_log, same, flatMap_cons, append_assoc]

theorem eachConn_log (owned : engine.Owned) :
    (engine.eachConn act).log = engine.log ++ engine.conns.flatMap (answers act engine) :=
  walk_log owned.apart engine

end Answers

theorem foldl_log (act : Engine → Item → Engine)
    (same : ∀ engine item, (act engine item).log = engine.log)
    (items : List Item) (engine : Engine) : (items.foldl act engine).log = engine.log := by
  induction items generalizing engine with
  | nil => rfl
  | cons item items induction => rw [foldl_cons, induction, same]

theorem drainSockets_log (owned : engine.Owned) (now : Instant) :
    said engine (engine.drainSockets now) =
      engine.conns.flatMap (answers (·.drainSocket now) engine) := by
  apply said_of_append
  rw [drainSockets, foldl_log reapOne fun _ _ => rfl]
  exact eachConn_log owned

end Engine

namespace Session

/-- A connect is answered with a stream, its own, exactly if its socket is found
established. -/
theorem drain_stream_iff {id : Nat} (session : Session) (now : Instant) :
    (session.drainSocket now).2 = some (request, .stream id) ↔ session.conn.connect = some request ∧
      session.socket.state = .established ∧ session.conn.id = id := by
  have same : (session.drainSocket now).2 = (session.answer now).2 := rfl
  rw [same, answer]
  cases session.conn.connect with
  | none => simp
  | some waiting =>
    cases session.socket.state with
    | established | closed => simp
    | _ =>
      simp only
      split <;> simp

end Session

namespace Engine

variable {engine : Engine}

theorem conn_of_id (owned : engine.Owned) (member : conn ∈ engine.conns)
    (here : other ∈ engine.conns) (same : other.id = conn.id) : other = conn :=
  inj_on_of_nodup_map owned.ids here member same

theorem mem_drain_said (owned : engine.Owned) {conn : Conn} {session : Session}
    (member : conn ∈ engine.conns) (here : engine.sessionOf conn = some session) (now : Instant)
    (request : Nat) : .replied request (.stream conn.id) ∈ said engine (engine.drainSockets now) ↔
      (session.drainSocket now).2 = some (request, .stream conn.id) := by
  rw [drainSockets_log owned now]
  constructor
  · intro replied
    rcases mem_flatMap.mp replied with ⟨other, listed, answered⟩
    rw [answers] at answered
    split at answered
    · exact absurd answered not_mem_nil
    · rename_i found there
      rcases mem_map.mp answered with ⟨⟨_, _⟩, given, equal⟩
      cases equal
      rw [Option.mem_toList] at given
      have named := ((found.drain_stream_iff now).mp given).2.2
      rw [(sessionOf_eq_some.mp there).1] at named
      rw [conn_of_id owned member listed named, here] at there
      cases there
      exact given
  · intro given
    refine mem_flatMap.mpr ⟨conn, member, ?_⟩
    rw [answers, here]
    exact mem_map.mpr ⟨_, Option.mem_toList.mpr given, rfl⟩

/-! ## Listeners -/

variable {place : Nat}

theorem fate_eq_accepted {sockets : SocketSet}
    (found : SocketSet.tcp sockets handle = some socket) :
    fate sockets handle = .accepted ↔ socket.state = .established := by
  rw [fate, found]
  cases state : socket.state <;> simp [state]

theorem mem_accepted (listed : engine.listeners[place]? = some listener)
    (waits : handle ∈ listener.pending) (found : SocketSet.tcp engine.sockets handle = some socket)
    (alive : listener.held) : (place, handle) ∈ engine.accepted ↔ socket.state = .established := by
  rw [← fate_eq_accepted found]
  constructor
  · intro member
    rcases mem_flatMap.mp member with ⟨entry, _, here⟩
    rcases mem_map.mp here with ⟨other, filtered, equal⟩
    cases equal
    exact of_decide_eq_true (mem_filter.mp filtered).2
  · intro done
    refine mem_flatMap.mpr ⟨(listener, place), ?_, ?_⟩
    · exact mem_filter.mpr ⟨mem_zipIdx_iff_getElem?.mpr listed, alive⟩
    · exact mem_map.mpr ⟨handle, mem_filter.mpr ⟨waits, decide_eq_true done⟩, rfl⟩

/-- The connection on a waiting socket is in the accept queue, or the queue had
no room for it. -/
def Queued (start : Nat) (engine : Engine) (place handle : Nat) : Prop :=
  ∃ listener, engine.listeners[place]? = some listener ∧
    ((∃ conn ∈ engine.conns, conn.handle = handle ∧ conn.id ∈ listener.queue ∧
        .accepted place handle conn.id ∈ engine.log.drop start) ∨
      .turnedAway place handle ∈ engine.log.drop start ∧ acceptChannelDepth ≤ listener.queue.length)

/-- What a pass keeps of a listener that it does not tear down. -/
structure Kept (old new : Listener) : Prop where
  port : new.port = old.port
  held : new.held = old.held
  queue : old.queue <+: new.queue
  pending : old.pending ⊆ new.pending

def Keeps (before after : Engine) : Prop :=
  ∀ (place : Nat) listener, before.listeners[place]? = some listener →
    ∃ later, after.listeners[place]? = some later ∧ Kept listener later

theorem Keeps.of_eq {before after : Engine} (same : after.listeners = before.listeners) :
    Keeps before after := by
  intro place listener found
  rw [same]
  exact ⟨listener, found, rfl, rfl, prefix_rfl, Subset.refl _⟩

theorem Keeps.trans (early : Keeps first second) (late : Keeps second third) :
    Keeps first third := by
  intro place listener found
  rcases early place listener found with ⟨middle, there, kept⟩
  rcases late place middle there with ⟨later, last, keeps⟩
  exact ⟨later, last, keeps.port.trans kept.port, keeps.held.trans kept.held,
    kept.queue.trans keeps.queue, List.Subset.trans kept.pending keeps.pending⟩

theorem Keeps.foldl {act : Engine → Item → Engine}
    (keeps : ∀ engine item, Keeps engine (act engine item)) (items : List Item) (engine : Engine) :
    Keeps engine (items.foldl act engine) := by
  induction items generalizing engine with
  | nil => exact .of_eq rfl
  | cons item items induction => exact (keeps engine item).trans (induction _)

theorem acceptOne_keeps (now : Instant) (engine : Engine)
    (place handle : Nat) : Keeps engine (acceptOne now engine place handle) := by
  rw [acceptOne]
  split
  · exact .of_eq rfl
  · rename_i listener listed
    split
    · intro other before found
      rw [note, track]
      simp only
      by_cases same : place = other
      · subst same
        rw [listed] at found
        cases found
        rw [List.getElem?_set_self (List.getElem?_eq_some_iff.mp listed).1]
        exact ⟨_, rfl, rfl, rfl, prefix_append _ _, Subset.refl _⟩
      · rw [List.getElem?_set_ne same]
        exact ⟨before, found, rfl, rfl, prefix_rfl, Subset.refl _⟩
    · exact .of_eq rfl

theorem refillOne_keeps (engine : Engine) (port : UInt16) :
    Keeps engine (engine.refillOne port) := by
  rw [refillOne]
  split
  · exact .of_eq rfl
  · split
    · exact .of_eq rfl
    · intro other listener found
      simp only [List.getElem?_modify, found]
      refine ⟨_, rfl, ?_⟩
      split
      · exact ⟨rfl, rfl, prefix_rfl, subset_append_left _ _⟩
      · exact ⟨rfl, rfl, prefix_rfl, Subset.refl _⟩

theorem refills_keep (before engine : Engine) :
    Keeps engine (before.refills.foldl refillMany engine) :=
  .foldl (fun _ _ => .foldl refillOne_keeps _ _) _ _

structure Grown (before after : Engine) (place handle : Nat) : Prop where
  conns : before.conns <+: after.conns
  log : ∃ event, after.log = before.log ++ [event] ∧ ((∃ id, event = .accepted place handle id) ∨
      event = .turnedAway place handle)

theorem acceptOne_grows (listed : engine.listeners[place]? = some listener)
    (now : Instant) (handle : Nat) :
    Grown engine (acceptOne now engine place handle) place handle := by
  rw [acceptOne, listed]
  simp only
  split
  · exact ⟨prefix_append _ _, _, rfl, .inl ⟨_, rfl⟩⟩
  · exact ⟨prefix_rfl, _, rfl, .inr rfl⟩

theorem Queued.grows {socket : Nat} {after : Engine} (queued : Queued start engine place handle)
    (long : start ≤ engine.log.length) (grown : Grown engine after other socket)
    (keeps : Keeps engine after) : Queued start after place handle := by
  rcases queued with ⟨listener, listed, outcome⟩
  rcases keeps place listener listed with ⟨later, found, kept⟩
  rcases grown.log with ⟨event, log, _⟩
  have stays : ∀ event ∈ engine.log.drop start, event ∈ after.log.drop start := by
    intro event member
    rw [log, drop_append_of_le_length long]
    exact mem_append_left _ member
  refine ⟨later, found, ?_⟩
  rcases outcome with ⟨conn, member, same, inside, noted⟩ | ⟨noted, full⟩
  · left
    exact ⟨conn, grown.conns.subset member, same, kept.queue.subset inside, stays _ noted⟩
  · right
    exact ⟨stays _ noted, full.trans kept.queue.length_le⟩

theorem acceptOne_queued (listed : engine.listeners[place]? = some listener)
    (alive : listener.held) (long : start ≤ engine.log.length) (now : Instant) (handle : Nat) :
    Queued start (acceptOne now engine place handle) place handle := by
  rw [acceptOne, listed]
  simp only [alive, Bool.true_and, decide_eq_true_eq]
  split
  · refine ⟨_, List.getElem?_set_self (List.getElem?_eq_some_iff.mp listed).1, ?_⟩
    left
    refine ⟨_, mem_append_right _ mem_cons_self, rfl, ?_, ?_⟩
    · exact mem_append_right _ mem_cons_self
    · simp only [note, track, drop_append_of_le_length long]
      exact mem_append_right _ mem_cons_self
  · rename_i full
    refine ⟨listener, listed, .inr ⟨?_, by omega⟩⟩
    simp only [note, removeSocket, drop_append_of_le_length long]
    exact mem_append_right _ mem_cons_self

/-- Every entry that is handed on ends in the queue or finds it full, and every
event is about an entry. -/
theorem acceptAll_queued {entries : List (Nat × Nat)} (start : Nat)
    (now : Instant) (long : start ≤ engine.log.length) (alive : ∀ entry ∈ entries, ∃ listener,
      engine.listeners[entry.1]? = some listener ∧ listener.held) :
    let after := entries.foldl (fun engine entry => acceptOne now engine entry.1 entry.2) engine
    (∀ entry ∈ entries, Queued start after entry.1 entry.2) ∧
      (∀ place handle, Queued start engine place handle → Queued start after place handle) ∧
      ∃ news, after.log = engine.log ++ news ∧ ∀ event ∈ news, ∃ entry ∈ entries,
          (∃ id, event = .accepted entry.1 entry.2 id) ∨ event = .turnedAway entry.1 entry.2 := by
  induction entries generalizing engine with
  | nil =>
    refine ⟨fun _ member => absurd member not_mem_nil, fun _ _ => id, [],
      (append_nil _).symm, fun _ member => absurd member not_mem_nil⟩
  | cons entry entries induction =>
    rcases alive entry mem_cons_self with ⟨listener, listed, held⟩
    have grown := acceptOne_grows listed now entry.2
    rcases grown.log with ⟨event, log, about⟩
    have longer : start ≤ (acceptOne now engine entry.1 entry.2).log.length := by
      rw [log, length_append]
      omega
    have rest := induction longer (by
      intro other member
      rcases alive other (mem_cons_of_mem _ member) with ⟨before, found, held⟩
      rcases acceptOne_keeps now engine entry.1 entry.2 other.1 before found with
        ⟨later, there, kept⟩
      exact ⟨later, there, kept.held.trans held⟩)
    rcases rest with ⟨all, keeps, news, added, sources⟩
    refine ⟨?_, ?_, event :: news, ?_, ?_⟩
    · intro other member
      rcases mem_cons.mp member with rfl | later
      · exact keeps _ _ (acceptOne_queued listed held long now _)
      · exact all other later
    · intro place handle queued
      exact keeps _ _ (queued.grows long grown (acceptOne_keeps now engine _ _))
    · rw [foldl_cons, added, log, append_assoc]
      rfl
    · intro other member
      rcases mem_cons.mp member with rfl | later
      · exact ⟨entry, mem_cons_self, about⟩
      · rcases sources other later with ⟨source, inside, named⟩
        exact ⟨source, mem_cons_of_mem _ inside, named⟩

/-- Handing on the waiting sockets, from the start of the pass. -/
theorem handOn_queued (engine : Engine) (now : Instant) : (∀ entry ∈ engine.accepted,
        Queued engine.log.length (engine.handOn now) entry.1 entry.2) ∧
      ∃ news, (engine.handOn now).log = engine.log ++ news ∧
        ∀ event ∈ news, ∃ entry ∈ engine.accepted, (∃ id, event = .accepted entry.1 entry.2 id) ∨
            event = .turnedAway entry.1 entry.2 := by
  have swept : (engine.reclaimed.foldl removeSocket engine.retain).log =
      engine.log := by
    rw [foldl_log removeSocket fun _ _ => rfl]
    rfl
  have alive : ∀ entry ∈ engine.accepted, ∃ listener,
      (engine.reclaimed.foldl removeSocket engine.retain).listeners[entry.1]? =
        some listener ∧ listener.held = true := by
    intro entry member
    rcases mem_flatMap.mp member with ⟨source, live, here⟩
    rcases mem_map.mp here with ⟨handle, _, rfl⟩
    have inside := live_inside live
    rw [removeSockets_listeners, retain, List.getElem?_map, inside.1]
    refine ⟨_, rfl, ?_⟩
    simp only [if_pos inside.2]
    exact inside.2
  have all := acceptAll_queued engine.log.length now
    (Nat.le_of_eq (congrArg List.length swept.symm)) alive
  rcases all with ⟨queued, _, news, added, sources⟩
  rw [swept] at added
  exact ⟨queued, news, added, sources⟩

def WaitsAt (engine : Engine) (place handle : Nat) : Prop :=
  ∃ listener, engine.listeners[place]? = some listener ∧ handle ∈ listener.pending

theorem WaitsAt.retain (listed : engine.listeners[place]? = some listener)
    (dropped : listener.held = false) (waits : handle ∈ listener.pending) :
    engine.retain.WaitsAt place handle := by
  refine ⟨listener, ?_, waits⟩
  simp [Engine.retain, listed, dropped]

theorem WaitsAt.keeps {after : Engine} (waits : engine.WaitsAt place handle)
    (keeps : Keeps engine after) : after.WaitsAt place handle := by
  rcases waits with ⟨listener, listed, waits⟩
  rcases keeps place listener listed with ⟨later, found, kept⟩
  exact ⟨later, found, kept.pending waits⟩

theorem get_removeAll (handles : List Nat) (sockets : SocketSet) (handle : Nat) :
    Arena.get (handles.foldl Arena.remove sockets) handle =
      if handle ∈ handles then none else Arena.get sockets handle := by
  induction handles generalizing sockets with
  | nil => simp
  | cons first handles induction =>
    rw [foldl_cons, induction, Arena.get_remove]
    by_cases same : handle = first <;> simp [same]

theorem get_removeListeners (places : List Nat) (gone : Arena.get engine.sockets handle = none) :
    Arena.get (places.foldl removeListener engine).sockets handle = none := by
  induction places generalizing engine with
  | nil => exact gone
  | cons place places induction =>
    apply induction
    rw [removeListener]
    split
    · exact gone
    · simp only [get_removeAll, gone, ite_self]

/-- The last places are torn down first, so a place still has its listener when
its turn comes. -/
theorem removeListeners_gone {places : List Nat}
    (descending : places.Pairwise (· > ·)) (member : place ∈ places)
    (waits : engine.WaitsAt place handle) :
    Arena.get (places.foldl removeListener engine).sockets handle = none := by
  induction places generalizing engine with
  | nil => exact absurd member not_mem_nil
  | cons first places induction =>
    rcases pairwise_cons.mp descending with ⟨below, rest⟩
    rcases waits with ⟨listener, listed, waits⟩
    rcases mem_cons.mp member with rfl | later
    · rw [foldl_cons]
      apply get_removeListeners
      simp only [removeListener, listed, get_removeAll, if_pos waits]
    · apply induction rest later
      have lower := below place later
      rw [removeListener]
      split
      · exact ⟨listener, listed, waits⟩
      · rename_i found here
        have inside := (List.getElem?_eq_some_iff.mp here).1
        refine ⟨listener, ?_, waits⟩
        simp only [getElem?_swapRemove inside]
        rw [if_neg (by omega), if_neg (by omega)]
        exact listed

theorem dead_descending (engine : Engine) : engine.dead.reverse.Pairwise (· > ·) := by
  rw [pairwise_reverse, dead, pairwise_map]
  apply List.Pairwise.filter
  rw [← pairwise_map, zipIdx_map_snd]
  exact pairwise_lt_range'

theorem handOn_keeps (engine : Engine) (now : Instant) : Keeps engine.retain (engine.handOn now) :=
  .trans (.of_eq (removeSockets_listeners ..))
    (.foldl (fun _ (entry : Nat × Nat) => acceptOne_keeps now _ entry.1 entry.2) _ _)

/-- Only listeners that were dropped are torn down. -/
theorem removeListeners_live {places : List Nat} (descending : places.Pairwise (· > ·))
    (dropped : ∀ place ∈ places, ∃ listener,
      engine.listeners[place]? = some listener ∧ listener.held = false)
    (member : listener ∈ engine.listeners) (alive : listener.held) :
    listener ∈ (places.foldl removeListener engine).listeners := by
  induction places generalizing engine with
  | nil => exact member
  | cons first places induction =>
    rcases pairwise_cons.mp descending with ⟨below, rest⟩
    rcases dropped first mem_cons_self with ⟨gone, found, unheld⟩
    have inside := (List.getElem?_eq_some_iff.mp found).1
    apply induction rest
    · intro place later
      rcases dropped place (mem_cons_of_mem _ later) with ⟨other, listed, dead⟩
      have lower := below place later
      refine ⟨other, ?_, dead⟩
      simp only [removeListener, found, getElem?_swapRemove inside]
      rw [if_neg (by omega), if_neg (by omega)]
      exact listed
    · simp only [removeListener, found]
      apply mem_swapRemove_of_ne found member
      rintro rfl
      rw [alive] at unheld
      cases unheld

theorem dropped_gone (listed : engine.listeners[place]? = some listener)
    (dropped : listener.held = false) (waits : handle ∈ listener.pending) (now : Instant) :
    Arena.get (engine.acceptListeners now).sockets handle = none := by
  have dead : place ∈ engine.dead.reverse := by
    rw [mem_reverse, Engine.dead]
    refine mem_map.mpr ⟨(listener, place), mem_filter.mpr ⟨?_, ?_⟩, rfl⟩
    · exact mem_zipIdx_iff_getElem?.mpr listed
    · rw [dropped]
      rfl
  apply removeListeners_gone engine.dead_descending dead
  exact (WaitsAt.retain listed dropped waits).keeps
    ((handOn_keeps engine now).trans (refills_keep engine _))

/-- What a pass owes to the connection on a waiting socket: a live listener gets
it into its queue, or has a full queue; a dropped one gives it up. -/
def HandedOn (engine : Engine) (now : Instant) (place handle : Nat) (listener : Listener) : Prop :=
  let after := engine.acceptListeners now
  if listener.held then
    ∃ later ∈ after.listeners, later.port = listener.port ∧ listener.queue <+: later.queue ∧
      ((∃ conn ∈ after.conns, conn.handle = handle ∧ conn.id ∈ later.queue ∧
          .accepted place handle conn.id ∈ said engine after) ∨
        .turnedAway place handle ∈ said engine after ∧ acceptChannelDepth ≤ later.queue.length)
  else Arena.get after.sockets handle = none

theorem acceptListeners_log (engine : Engine) (now : Instant) :
    (engine.acceptListeners now).log = (engine.handOn now).log := by
  have refilled : ∀ (engine : Engine) (port : UInt16),
      (engine.refillOne port).log = engine.log := by
    intro engine port
    rw [refillOne]
    split
    · rfl
    · split <;> rfl
  have removed : ∀ (engine : Engine) (place : Nat),
      (engine.removeListener place).log = engine.log := by
    intro engine place
    rw [removeListener]
    split <;> rfl
  rw [acceptListeners, foldl_log removeListener removed,
    foldl_log refillMany fun _ _ => foldl_log refillOne refilled _ _]

/-- What a pass has handed on outlasts the rest of the pass. -/
theorem Queued.delivered (listed : engine.listeners[place]? = some listener) (alive : listener.held)
    (queued : Queued engine.log.length (engine.handOn now) place handle) :
    engine.HandedOn now place handle listener := by
  rcases queued with ⟨middle, found, outcome⟩
  have retained : engine.retain.listeners[place]? =
      some { listener with pending := listener.fated engine.sockets .waits } := by
    simp [retain, listed, alive]
  rcases handOn_keeps engine now place _ retained with ⟨same, there, first⟩
  cases found.symm.trans there
  rcases refills_keep engine _ place middle found with ⟨later, last, second⟩
  have held : later.held := second.held.trans (first.held.trans alive)
  have stays : later ∈ (engine.acceptListeners now).listeners := by
    apply removeListeners_live engine.dead_descending _ (mem_of_getElem? last) held
    intro dead member
    rcases mem_map.mp (mem_reverse.mp member) with ⟨⟨gone, other⟩, filtered, rfl⟩
    rcases mem_filter.mp filtered with ⟨here, unheld⟩
    have dropped : engine.retain.listeners[other]? = some gone := by
      have listed := mem_zipIdx_iff_getElem?.mp here
      simp only [Bool.not_eq_true'] at unheld
      simp [retain, listed, unheld]
    rcases (handOn_keeps engine now).trans (refills_keep engine _) other gone
      dropped with ⟨still, listed, kept⟩
    exact ⟨still, listed, kept.held.trans (by simpa using unheld)⟩
  rw [HandedOn, if_pos alive]
  refine ⟨later, stays, second.port.trans first.port,
    first.queue.trans second.queue, ?_⟩
  rw [said, acceptListeners_log, (acceptListeners_peers engine now).conns]
  rcases outcome with ⟨conn, member, same, inside, noted⟩ | ⟨noted, full⟩
  · exact .inl ⟨conn, member, same, second.queue.subset inside, noted⟩
  · exact .inr ⟨noted, full.trans second.queue.length_le⟩

theorem handedOn_iff (listed : engine.listeners[place]? = some listener)
    (waits : handle ∈ listener.pending)
    (found : SocketSet.tcp engine.sockets handle = some socket) (now : Instant) :
    engine.HandedOn now place handle listener ↔ (listener.held → socket.state = .established) := by
  by_cases alive : listener.held
  · rw [← mem_accepted listed waits found alive]
    rcases handOn_queued engine now with ⟨queued, news, added, sources⟩
    constructor
    · intro outcome _
      rw [HandedOn, if_pos alive, said, acceptListeners_log, added, drop_left] at outcome
      rcases outcome with ⟨_, _, _, _, ⟨conn, _, _, _, noted⟩ | ⟨noted, _⟩⟩
      · rcases sources _ noted with ⟨entry, member, ⟨id, equal⟩ | equal⟩
        · cases equal
          exact member
        · cases equal
      · rcases sources _ noted with ⟨entry, member, ⟨id, equal⟩ | equal⟩
        · cases equal
        · cases equal
          exact member
    · intro member
      exact (queued _ (member alive)).delivered listed alive
  · rw [HandedOn, if_neg alive]
    rw [Bool.not_eq_true] at alive
    refine iff_of_true (dropped_gone listed alive waits now) ?_
    intro held
    rw [alive] at held
    cases held

/-- In every run, a pass answers a connect whose handshake is complete with its
stream, and hands on a waiting socket whose handshake is complete, exactly if it
finds the socket established. -/
theorem handshakes_delivered_iff (dnsServer : Ipv4Addr) (tcpBufferBytes : Nat)
    (seed : UInt16) (actions : List Action) (now : Instant) :
    let engine := (spawn dnsServer tcpBufferBytes seed).run actions
    (∀ conn ∈ engine.conns, ∀ session request,
      engine.sessionOf conn = some session → conn.connect = some request →
        ((session.socket.opened = true → .replied request (.stream conn.id) ∈
            said engine (engine.drainSockets now)) ↔
          (session.socket.opened = true → session.socket.state = .established))) ∧
      ∀ (place : Nat) listener handle socket,
        engine.listeners[place]? = some listener → handle ∈ listener.pending →
        SocketSet.tcp engine.sockets handle = some socket →
          ((socket.opened = true → engine.HandedOn now place handle listener) ↔
            (socket.opened = true → listener.held = true → socket.state = .established)) := by
  intro engine
  have owned : engine.Owned := owned_run dnsServer tcpBufferBytes seed actions
  constructor
  · intro conn member session request here waits
    have named := (sessionOf_eq_some.mp here).1
    rw [mem_drain_said owned member here now request, session.drain_stream_iff, named]
    simp only [waits, true_and, and_true]
  · intro place listener handle socket listed waits found
    rw [handedOn_iff listed waits found now]

end Engine

/-! ## Samples -/

namespace Sample

/-- A connect on handle 0 and a listener with handle 1 in its backlog, both
with a complete handshake; more may follow in the batch. -/
def shaken (more : List Delivery) : Engine :=
  (Engine.spawn ⟨10#32⟩ 64 0).run [.openTcp 7 true 0, .startListen 8 80,
      .poll ([.segment 0 .synAcked, .segment 1 .syn, .segment 1 .synAcked] ++ more)]

def dialling : Conn where
  id := 0
  handle := 0
  localPort := 49152
  deadline := connectTimeout
  connect := some 7

def dialled : Tcp.Socket :=
  { state := .established, capacity := 64, opened := true }

end Sample

theorem Engine.handshakes_delivered_sample : .replied 7 (.stream 0) ∈
        Engine.said (Sample.shaken []) ((Sample.shaken []).drainSockets 1) ∧
      (Sample.shaken []).HandedOn 1 0 1 ⟨80, [1, 2, 3, 4, 5, 6, 7, 8], [], true⟩ := by
  have both := Engine.handshakes_delivered_iff ⟨10#32⟩ 64 0 [.openTcp 7 true 0, .startListen 8 80,
      .poll [.segment 0 .synAcked, .segment 1 .syn, .segment 1 .synAcked]] 1
  constructor
  · exact (both.1 Sample.dialling (by decide +kernel)
      ⟨Sample.dialling, Sample.dialled, { holder := .reply true }⟩ 7
      (by decide +kernel) rfl).mpr (fun _ => rfl) rfl
  · exact (both.2 0 ⟨80, [1, 2, 3, 4, 5, 6, 7, 8], [], true⟩ 1 Sample.dialled
      (by decide +kernel) (by decide) (by decide +kernel)).mpr (fun _ _ => rfl) rfl

/-- A FIN behind the handshake: the caller is told of a timeout in the end, and
the listener never hears of the connection. -/
theorem Engine.handshake_with_fin_lost :
    let engine := Sample.shaken [.segment 0 .fin, .segment 1 .fin]
    ((SocketSet.tcp engine.sockets 0).map Tcp.Socket.opened = some true ∧
        Engine.said engine (engine.drainSockets 1) = [] ∧ Engine.said (engine.drainSockets 1)
            ((engine.drainSockets 1).drainSockets connectTimeout) =
          [.replied 7 (.failed .connectTimeout)]) ∧
      (SocketSet.tcp engine.sockets 1).map Tcp.Socket.opened = some true ∧
        ¬engine.HandedOn 1 0 1 ⟨80, [1, 2, 3, 4, 5, 6, 7, 8], [], true⟩ := by
  refine ⟨⟨by decide +kernel, rfl, rfl⟩, by decide +kernel, ?_⟩
  intro handed
  rcases handed with ⟨listener, _, _, _, ⟨conn, _, _, _, noted⟩ | ⟨noted, _⟩⟩
  · exact absurd noted not_mem_nil
  · exact absurd noted not_mem_nil

end WarrenSdk.Net.Netstack
