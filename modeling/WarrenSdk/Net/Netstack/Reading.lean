import WarrenSdk.Foundation.Execution
import WarrenSdk.Net.Netstack.Session

/-! # The read side of a connection

What the socket receives goes through the channel and the stream to the reader.
The reader, the stream, the channel and the socket together always hold what has
arrived, in order. -/

namespace WarrenSdk.Tcp.Socket

structure SameInput (before after : Socket) : Prop where
  rx : after.rx = before.rx
  arrived : after.arrived = before.arrived
  finished : after.finished = before.finished

theorem SameInput.refl (socket : Socket) : socket.SameInput socket := ⟨rfl, rfl, rfl⟩

theorem SameInput.sendSlice {socket : Socket} (same : socket.SameInput before)
    (sent : before.sendSlice data = some (size, after)) : socket.SameInput after := by
  rcases sendSlice_eq_some sent with ⟨_, _, rfl⟩
  exact ⟨same.rx, same.arrived, same.finished⟩

theorem SameInput.close {socket : Socket} (same : socket.SameInput before) :
    socket.SameInput before.close := by
  rw [Socket.close]
  split <;> exact ⟨same.rx, same.arrived, same.finished⟩

/-- An arrival adds the same bytes to the receive buffer and to the history. -/
theorem receive_adds (socket : Socket) (arrival : Arrival) :
    ∃ more, (socket.receive arrival).rx = socket.rx ++ more ∧
      (socket.receive arrival).arrived = socket.arrived ++ more := by
  cases arrival with
  | data bytes => exact ⟨socket.admitted bytes, rfl, rfl⟩
  | acked count => exact ⟨[], by simp [receive], by simp [receive]⟩
  | syn | synAcked | fin | finAcked | rst | expired =>
    refine ⟨[], ?_, ?_⟩
    all_goals
      simp only [receive, List.append_nil]
      split <;> rfl

end WarrenSdk.Tcp.Socket

namespace WarrenSdk.Net.Netstack

open Bolthole

theorem Outgoing.push_invariant {Socket : Type} {socket : Socket}
    (outlet : Outlet Socket) (holds : Socket → Prop) (sends : ∀ socket data size after,
      outlet.sendSlice socket data = some (size, after) → holds socket →
      holds after) (rounds : Nat) (out : Outgoing) (start : holds socket) :
    holds (out.push outlet rounds socket).2 := by
  induction rounds generalizing out socket with
  | zero => exact start
  | succ rounds induction =>
    rw [push]
    split
    · split
      · exact start
      · split
        · exact start
        · rename_i after sent
          exact sends _ _ _ _ sent start
        · rename_i size after sent
          exact induction _ (sends _ _ _ _ sent start)
    · exact start

theorem Outgoing.pump_invariant {Socket : Type} {socket : Socket}
    (outlet : Outlet Socket) (holds : Socket → Prop) (sends : ∀ socket data size after,
      outlet.sendSlice socket data = some (size, after) → holds socket → holds after)
    (closes : ∀ socket, holds socket → holds (outlet.close socket))
    (out : Outgoing) (start : holds socket) : holds (out.pump outlet socket).2 := by
  have pushed := push_invariant outlet holds sends (out.pendingOut.flatten.length + 1) out start
  simp only [pump, finish]
  split
  · exact closes _ pushed
  · exact pushed

namespace Link

def unread (link : Link) : List UInt8 := link.leftover.drop link.readPos ++ link.toApp.flatten

structure SameReads (before after : Link) : Prop where
  given : after.given = before.given
  leftover : after.leftover = before.leftover
  readPos : after.readPos = before.readPos
  toApp : after.toApp = before.toApp

theorem SameReads.unread {before : Link} (same : before.SameReads after) :
    after.unread = before.unread := by
  rw [Link.unread, Link.unread, same.leftover, same.readPos, same.toApp]

theorem pollWrite_reads (link : Link) (buf : List UInt8) :
    link.SameReads (link.pollWrite buf).2 := by
  simp only [pollWrite, queueOp]
  split_ifs <;> exact ⟨rfl, rfl, rfl, rfl⟩

theorem pollShutdown_reads (link : Link) : link.SameReads link.pollShutdown.2 := by
  simp only [pollShutdown, queueOp]
  split_ifs <;> exact ⟨rfl, rfl, rfl, rfl⟩

section

variable (link : Link) (remaining : Nat)

include link remaining

/-- A read moves bytes from the stream to the reader. -/
theorem fill_moves : (link.fill remaining).2.given ++ (link.fill remaining).2.unread =
      link.given ++ link.unread := by
  simp only [fill, unread, List.append_assoc]
  rw [← List.append_assoc (List.take _ _), List.length_take, List.length_drop]
  congr 2
  rw [← List.drop_drop]
  by_cases small : remaining ≤ link.leftover.length - link.readPos
  · rw [Nat.min_eq_left small, List.take_append_drop]
  · have whole : link.leftover.length - link.readPos ≤ remaining := by omega
    have past : link.leftover.drop (link.readPos + (link.leftover.length - link.readPos)) = [] :=
      List.drop_eq_nil_of_le (by omega)
    rw [Nat.min_eq_right whole, List.take_of_length_le (by simpa using whole),
      List.drop_drop, past, List.append_nil]

theorem pollRead_moves : (link.pollRead remaining).2.given ++ (link.pollRead remaining).2.unread =
      link.given ++ link.unread := by
  rw [pollRead]
  split
  · rename_i used
    split
    · rename_i chunk rest queued
      rw [fill_moves]
      simp [unread, queued, List.drop_eq_nil_of_le used]
    · split <;> rfl
  · exact link.fill_moves remaining

theorem pollRead_toApp : ∀ chunk ∈ (link.pollRead remaining).2.toApp, chunk ∈ link.toApp := by
  intro chunk member
  rw [pollRead] at member
  split at member
  · split at member
    · rename_i queued
      rw [queued]
      exact List.mem_cons_of_mem _ member
    · split at member <;> exact member
  · exact member

@[simp] theorem pollRead_engineEnd : (link.pollRead remaining).2.engineEnd = link.engineEnd := by
  rw [pollRead]
  split
  · split
    · rfl
    · split <;> rfl
  · rfl

end

/-- Nothing is read into a buffer with room only when nothing is left and
nothing more will come. -/
theorem pollRead_empty {link : Link} {remaining : Nat} (solid : ∀ chunk ∈ link.toApp, chunk ≠ [])
    (room : 0 < remaining) (nothing : (link.pollRead remaining).1 = .ready []) :
    link.engineEnd = false ∧ link.unread = [] := by
  rw [pollRead] at nothing
  split at nothing
  · rename_i used
    split at nothing
    · rename_i chunk rest queued
      have bytes := solid chunk (by simp [queued])
      simp only [fill, List.drop_zero, Poll.ready.injEq, List.take_eq_nil_iff] at nothing
      rcases nothing with zero | empty
      · omega
      · exact absurd empty bytes
    · rename_i queued
      split at nothing
      · cases nothing
      · rename_i gone
        refine ⟨by simpa using gone, ?_⟩
        simp [unread, queued, List.drop_eq_nil_of_le used]
  · rename_i left
    simp only [fill, Poll.ready.injEq, List.take_eq_nil_iff, List.drop_eq_nil_iff] at nothing
    omega

/-- A stream with nothing left and nothing to come reads as ended. -/
theorem pollRead_ended {link : Link} (gone : link.engineEnd = false)
    (empty : link.unread = []) (remaining : Nat) : (link.pollRead remaining).1 = .ready [] := by
  rw [unread, List.append_eq_nil_iff, List.drop_eq_nil_iff] at empty
  rw [pollRead, if_pos empty.1]
  cases queued : link.toApp with
  | nil => simp [gone]
  | cons chunk rest =>
    have flat := empty.2
    rw [queued, List.flatten_cons, List.append_eq_nil_iff] at flat
    simp [fill, flat.1]

end Link

namespace Session

/-! ## Where the bytes are -/

/-- What has arrived is with the reader, on its way, or in the socket. -/
structure Flow (session : Session) : Prop where
  whole : session.socket.arrived = session.link.given ++ session.link.unread ++ session.socket.rx
  solid : ∀ chunk ∈ session.link.toApp, chunk ≠ []

theorem Flow.congr {before after : Session} (flow : before.Flow)
    (socket : before.socket.SameInput after.socket)
    (link : before.link.SameReads after.link) : after.Flow where
  whole := by rw [socket.arrived, socket.rx, link.given, link.unread, flow.whole]
  solid := by
    rw [link.toApp]
    exact flow.solid

variable {session : Session} {holds : Session → Prop}

theorem Flow.receive (flow : session.Flow) (arrival : Tcp.Arrival) :
    Flow { session with socket := session.socket.receive arrival } := by
  rcases session.socket.receive_adds arrival with ⟨more, rx, arrived⟩
  refine ⟨?_, flow.solid⟩
  simp only [rx, arrived, flow.whole, List.append_assoc]

theorem Flow.read (flow : session.Flow) (remaining : Nat) :
    Flow { session with link := (session.link.pollRead remaining).2 } where
  whole := by simp only [Link.pollRead_moves, flow.whole]
  solid chunk member := flow.solid chunk (session.link.pollRead_toApp remaining chunk member)

theorem pumpSocket_input (session : Session) : session.socket.SameInput session.pumpSocket.socket :=
  Outgoing.pump_invariant tcpOutlet (session.socket.SameInput ·)
    (fun _ _ _ _ sent same => same.sendSlice sent)
    (fun _ same => same.close) session.conn.out (.refl _)

/-! ### A drain -/

structure Answered (before after : Session) : Prop where
  socket : before.socket.SameInput after.socket
  reads : before.link.SameReads after.link
  engineEnd : after.link.engineEnd = before.link.engineEnd

theorem answer_spec (session : Session) (now : Instant) :
    session.Answered (session.answer now).1 := by
  rw [answer]
  split
  · exact ⟨.refl _, ⟨rfl, rfl, rfl, rfl⟩, rfl⟩
  · split
    · exact ⟨.refl _, ⟨rfl, rfl, rfl, rfl⟩, rfl⟩
    · exact ⟨.refl _, ⟨rfl, rfl, rfl, rfl⟩, rfl⟩
    · split
      · exact ⟨⟨rfl, rfl, rfl⟩, ⟨rfl, rfl, rfl, rfl⟩, rfl⟩
      · exact ⟨.refl _, ⟨rfl, rfl, rfl, rfl⟩, rfl⟩

structure Moved (socket : Tcp.Socket) (link : Link) (after : Tcp.Socket × Link) : Prop where
  bytes : after.2.unread ++ after.1.rx = link.unread ++ socket.rx
  solid : (∀ chunk ∈ link.toApp, chunk ≠ []) → ∀ chunk ∈ after.2.toApp, chunk ≠ []
  arrived : after.1.arrived = socket.arrived
  finished : after.1.finished = socket.finished
  state : after.1.state = socket.state
  given : after.2.given = link.given
  holder : after.2.holder = link.holder
  engineEnd : after.2.engineEnd = link.engineEnd

theorem Moved.refl (socket : Tcp.Socket) (link : Link) : Moved socket link (socket, link) :=
  ⟨rfl, id, rfl, rfl, rfl, rfl, rfl, rfl⟩

theorem Moved.chunk {socket : Tcp.Socket} {link : Link} {bytes : List UInt8}
    (received : socket.recvSlice drainChunk = some (bytes, after)) (some_ : bytes ≠ [])
    (later : Moved after { link with toApp := link.toApp ++ [bytes] } last) :
    Moved socket link last := by
  rcases Tcp.Socket.recvSlice_eq_some received with ⟨rfl, rfl⟩
  refine ⟨?_, ?_, later.arrived, later.finished, later.state, later.given,
    later.holder, later.engineEnd⟩
  · rw [later.bytes]
    simp [Link.unread]
  · intro solid
    apply later.solid
    intro chunk member
    rcases List.mem_append.mp member with older | new
    · exact solid chunk older
    · rw [List.mem_singleton.mp new]
      exact some_

theorem moveReceived_spec (rounds : Nat) (socket : Tcp.Socket) (link : Link) :
    Moved socket link (moveReceived rounds socket link) := by
  induction rounds generalizing socket link with
  | zero => exact .refl socket link
  | succ rounds induction =>
    rw [moveReceived]
    split
    · rename_i ready
      simp only [Bool.and_eq_true, Tcp.Socket.canRecv_eq, Bool.not_eq_true',
        List.isEmpty_eq_false_iff] at ready
      split
      · exact .refl socket link
      · rename_i after received
        -- A drain takes at least one byte out of a buffer that has some.
        have none := (Tcp.Socket.recvSlice_eq_some received).1
        rw [eq_comm, List.take_eq_nil_iff] at none
        rcases none with zero | empty
        · exact absurd zero (by decide)
        · exact absurd empty ready.1.1
      · rename_i bytes after some_ received
        exact .chunk received some_ (induction _ _)
    · exact .refl socket link

theorem Flow.drain (flow : session.Flow) (now : Instant) : (session.drainSocket now).1.Flow := by
  have answered := session.answer_spec now
  have before := flow.congr answered.socket answered.reads
  have moved := moveReceived_spec connChannelDepth
    (session.answer now).1.socket (session.answer now).1.link
  constructor
  · simp only [drainSocket]
    rw [moved.arrived, moved.given, before.whole, List.append_assoc, List.append_assoc, moved.bytes]
  · exact moved.solid before.solid

theorem Flow.reap (flow : session.Flow) :
    session.reap.Flow := by
  rw [Session.reap]
  split
  · exact ⟨flow.whole, flow.solid⟩
  · exact flow

theorem engineStep_rule (stays : holds session)
    (acts : session.link.engineEnd → holds (act session)) : holds (session.engineStep act) := by
  rw [engineStep]
  split
  · rename_i alive
    exact acts alive
  · exact stays

theorem streamStep_rule (stays : holds session) (acts : session.link.holder = .application →
      holds { session with link := act session.link }) :
    holds (session.streamStep act) := by
  rw [streamStep]
  split
  · rename_i held
    exact acts held
  · exact stays

theorem handStep_rule (stays : holds session) (hands : session.link.holder = old →
      holds { session with link := { session.link with holder := new } }) :
    holds (session.handStep old new) := by
  rw [handStep]
  split
  · rename_i waiting
    exact hands waiting
  · exact stays

theorem Flow.step (flow : session.Flow) (action : Action) : (session.step action).Flow := by
  have same : session.link.SameReads session.link := ⟨rfl, rfl, rfl, rfl⟩
  cases action with
  | arrive arrival =>
    apply engineStep_rule flow
    intro _
    exact flow.receive arrival
  | ingestWrites =>
    apply engineStep_rule flow
    intro _
    exact flow.congr (.refl _) ⟨rfl, rfl, rfl, rfl⟩
  | pumpSocket =>
    apply engineStep_rule flow
    intro _
    exact flow.congr session.pumpSocket_input same
  | drainSocket now =>
    apply engineStep_rule flow
    intro _
    exact (flow.drain now).reap
  | hangUp | accept =>
    apply handStep_rule flow
    intro _
    exact flow.congr (.refl _) ⟨rfl, rfl, rfl, rfl⟩
  | read remaining =>
    rw [Session.step]
    apply streamStep_rule flow
    intro _
    exact flow.read remaining
  | write buf =>
    rw [Session.step]
    apply streamStep_rule flow
    intro _
    exact flow.congr (.refl _) (session.link.pollWrite_reads buf)
  | shutdown =>
    rw [Session.step]
    apply streamStep_rule flow
    intro _
    exact flow.congr (.refl _) session.link.pollShutdown_reads
  | dropStream =>
    rw [Session.step]
    apply streamStep_rule flow
    intro _
    exact flow.congr (.refl _) ⟨rfl, rfl, rfl, rfl⟩

/-! ## The end of the stream -/

/-- A connection whose stream is alive is given up only after the peer has
closed its sending side and everything was moved to the stream. -/
def Ended (session : Session) : Prop :=
  session.link.engineEnd = false → session.link.hasStream = true →
    session.socket.rx = [] ∧ session.socket.finished = true

instance (session : Session) : Decidable session.Ended := inferInstanceAs (Decidable (_ → _ → _))

theorem Ended.of_link (ended : session.Ended) {link : Link}
    (engineEnd : link.engineEnd = session.link.engineEnd)
    (hasStream : link.hasStream → session.link.hasStream) : Ended { session with link } := by
  intro gone alive
  rw [engineEnd] at gone
  exact ended gone (hasStream alive)

theorem Ended.of_alive (alive : session.link.engineEnd) :
    session.Ended := by
  intro gone
  rw [alive] at gone
  cases gone

@[simp] theorem pollWrite_holder (link : Link) (buf : List UInt8) :
    (link.pollWrite buf).2.holder = link.holder ∧
      (link.pollWrite buf).2.engineEnd = link.engineEnd := by
  simp only [Link.pollWrite, Link.queueOp]
  split_ifs <;> simp_all

@[simp] theorem pollShutdown_holder (link : Link) : link.pollShutdown.2.holder = link.holder ∧
      link.pollShutdown.2.engineEnd = link.engineEnd := by
  simp only [Link.pollShutdown, Link.queueOp]
  split_ifs <;> simp_all

/-- When a reader is told of the end in time and in full: once the peer has
closed its sending side and everything is read, the local side is closed as
well and the socket with it; and a closed socket that a stream still reads has
had the peer's end, and what it has left fits the channel. -/
def Ending (session : Session) : Action → Prop
  | .drainSocket _ =>
    (session.link.holder = .application → session.socket.finished = true →
      session.link.given = session.socket.arrived → session.socket.state = .closed) ∧
    (session.conn.connect = none → session.socket.state = .closed → session.link.hasStream = true →
      session.socket.finished = true ∧ session.socket.rx.length ≤
        (connChannelDepth - session.link.toApp.length) * drainChunk)
  | _ => True

instance (session : Session) : (action : Action) → Decidable (session.Ending action)
  | .drainSocket _ => inferInstanceAs (Decidable ((_ → _ → _ → _) ∧ (_ → _ → _ → _)))
  | .arrive _ | .ingestWrites | .pumpSocket | .hangUp | .accept | .read _
  | .write _ | .shutdown | .dropStream => isTrue trivial

/-- A drain empties a receive buffer that fits the channel. -/
theorem moveReceived_empties {socket : Tcp.Socket} {link : Link} (alive : link.hasStream = true)
    (rounds_ : connChannelDepth ≤ link.toApp.length + rounds) (fits : socket.rx.length ≤
      (connChannelDepth - link.toApp.length) * drainChunk) :
    (moveReceived rounds socket link).1.rx = [] := by
  induction rounds generalizing socket link with
  | zero =>
    have full : connChannelDepth ≤ link.toApp.length := rounds_
    rw [Nat.sub_eq_zero_of_le full, Nat.zero_mul] at fits
    exact List.eq_nil_of_length_eq_zero (Nat.le_zero.mp fits)
  | succ rounds induction =>
    rw [moveReceived]
    split
    · rename_i ready
      simp only [Bool.and_eq_true, decide_eq_true_eq] at ready
      have may : socket.mayRecv = true := (Bool.and_eq_true_iff.mp ready.1.1).1
      split
      · rename_i refused
        rw [Tcp.Socket.recvSlice, if_pos may] at refused
        cases refused
      · rename_i after received
        rcases Tcp.Socket.recvSlice_eq_some received with ⟨none, rfl⟩
        rw [eq_comm, List.take_eq_nil_iff] at none
        rw [none.resolve_left (by decide), List.drop_nil]
      · rename_i bytes after _ received
        rcases Tcp.Socket.recvSlice_eq_some received with ⟨_, rfl⟩
        apply induction
        · exact alive
        · rw [List.length_append, List.length_singleton]
          omega
        · rw [List.length_append, List.length_singleton, List.length_drop,
            Nat.sub_add_eq, Nat.sub_mul, Nat.one_mul]
          omega
    · rename_i idle
      by_cases empty : socket.rx = []
      · exact empty
      · have full : ¬link.toApp.length < connChannelDepth := by simpa [alive, empty] using idle
        rw [Nat.sub_eq_zero_of_le (Nat.not_lt.mp full), Nat.zero_mul] at fits
        exact List.eq_nil_of_length_eq_zero (Nat.le_zero.mp fits)

/-- A closed socket with a stream was not waited for. -/
theorem answer_streamed (streamed : (session.answer now).1.link.hasStream = true)
    (closed : (session.answer now).1.socket.state = .closed) :
    session.conn.connect = none ∧ (session.answer now).1 = session := by
  rw [answer] at streamed closed ⊢
  cases connect : session.conn.connect with
  | none => exact ⟨rfl, rfl⟩
  | some request =>
    simp only [connect] at streamed closed
    split at streamed
    · rename_i established
      simp [established, deliver] at closed
    · cases streamed
    · rename_i stays
      split at streamed
      · cases streamed
      · rename_i early
        simp only [if_neg early] at closed
        exact absurd closed stays

theorem drain_ended (alive : session.link.engineEnd)
    (ready : session.conn.connect = none → session.socket.state = .closed →
      session.link.hasStream = true → session.socket.finished = true ∧ session.socket.rx.length ≤
        (connChannelDepth - session.link.toApp.length) * drainChunk) :
    (session.drainSocket now).1.reap.Ended := by
  have moved := moveReceived_spec connChannelDepth
    (session.answer now).1.socket (session.answer now).1.link
  rw [reap]
  split
  · rename_i reaped
    intro _ streamed
    simp only [reapable, drainSocket, Bool.and_eq_true, decide_eq_true_eq,
      Option.isNone_iff_eq_none, moved.state] at reaped
    have alive : (session.answer now).1.link.hasStream = true := by
      simpa [Link.hasStream, drainSocket, moved.holder] using streamed
    rcases answer_streamed alive reaped.2 with ⟨connect, same⟩
    rw [same] at reaped alive moved
    rcases ready connect reaped.2 alive with ⟨finished, fits⟩
    simp only [drainSocket, same]
    exact ⟨moveReceived_empties alive (by omega) fits, moved.finished.trans finished⟩
  · apply Ended.of_alive
    exact moved.engineEnd.trans ((session.answer_spec now).engineEnd.trans alive)

theorem Ended.step (ended : session.Ended) {action : Action} (ending : session.Ending action) :
    (session.step action).Ended := by
  cases action with
  | arrive | ingestWrites | pumpSocket =>
    apply engineStep_rule ended
    intro alive
    exact .of_alive alive
  | drainSocket now =>
    apply engineStep_rule ended
    intro alive
    exact drain_ended alive ending.2
  | hangUp | accept =>
    apply handStep_rule ended
    intro waiting
    apply Ended.of_link ended
    · exact rfl
    · intro _
      simp [Link.hasStream, waiting]
  | read | write | shutdown =>
    rw [Session.step]
    apply streamStep_rule ended
    intro held
    apply Ended.of_link ended
    · simp
    · intro _
      simp [Link.hasStream, held]
  | dropStream =>
    rw [Session.step]
    apply streamStep_rule ended
    intro held
    apply Ended.of_link ended
    · exact rfl
    · intro _
      simp [Link.hasStream, held]

theorem drain_closed (now : Instant) (closed : session.socket.state = .closed) :
    (session.drainSocket now).1.reapable := by
  have moved := moveReceived_spec connChannelDepth
    (session.answer now).1.socket (session.answer now).1.link
  have ended : (session.answer now).1.conn.connect = none ∧
      (session.answer now).1.socket.state = .closed := by
    rw [answer]
    cases connect : session.conn.connect with
    | none => exact ⟨connect, closed⟩
    | some request =>
      simp only [closed]
      exact ⟨rfl, closed⟩
  simp only [reapable, drainSocket, ended.1, Tcp.Socket.isActive, moved.state, ended.2]
  rfl

/-! ## What a reader may rely on -/

structure Untouched (session : Session) : Prop where
  link : session.link = { holder := session.link.holder }
  socket : session.socket.arrived = session.socket.rx

theorem Untouched.flow (fresh : session.Untouched) :
    session.Flow := by
  constructor
  · rw [fresh.socket, fresh.link]
    rfl
  · rw [fresh.link]
    exact fun _ member => absurd member List.not_mem_nil

/-- A read of nothing means the end, and the end is told at the next drain. -/
def Truthful (session : Session) : Action → Prop
  | .read remaining =>
    session.link.holder = .application → 0 < remaining →
      (session.link.pollRead remaining).1 = .ready [] → session.socket.finished = true ∧
        session.link.given = session.socket.arrived
  | .drainSocket now =>
    session.link.holder = .application → session.socket.finished = true →
      session.link.given = session.socket.arrived → ∀ remaining,
        ((session.step (.drainSocket now)).link.pollRead remaining).1 = .ready []
  | _ => True

theorem Flow.unread_nil (flow : session.Flow) (all : session.link.given = session.socket.arrived) :
    session.link.unread = [] ∧ session.socket.rx = [] := by
  have whole := flow.whole
  rw [← all, List.append_assoc, List.self_eq_append_right, List.append_eq_nil_iff] at whole
  exact whole

theorem truthful_read (flow : session.Flow) (ended : session.Ended) (remaining : Nat) :
    session.Truthful (.read remaining) := by
  intro held room nothing
  rcases Link.pollRead_empty flow.solid room nothing with ⟨gone, empty⟩
  rcases ended gone (by simp [Link.hasStream, held]) with ⟨drained, finished⟩
  refine ⟨finished, ?_⟩
  rw [flow.whole, empty, drained, List.append_nil, List.append_nil]

theorem truthful_drain (flow : session.Flow) {now : Instant}
    (ending : session.Ending (.drainSocket now)) : session.Truthful (.drainSocket now) := by
  intro held finished all remaining
  have closed := ending.1 held finished all
  have unread := flow.unread_nil all
  rw [step, engineStep]
  split
  · have moved := moveReceived_spec connChannelDepth
      (session.answer now).1.socket (session.answer now).1.link
    have answered := session.answer_spec now
    have bytes := moved.bytes
    rw [answered.reads.unread, answered.socket.rx, unread.1, unread.2,
      List.append_nil, List.append_eq_nil_iff] at bytes
    rw [reap, if_pos (drain_closed now closed)]
    apply Link.pollRead_ended
    · rfl
    · exact bytes.1
  · rename_i gone
    exact Link.pollRead_ended (by simpa using gone) unread.1 remaining

/-- In every run of a connection the reader has a prefix of what has arrived;
where the ends meet, it is told the truth about the end of the stream. -/
theorem reads_faithful (session : Session) (fresh : session.Untouched) (actions : List Action) :
    (Execution.run step session actions).link.given <+:
        (Execution.run step session actions).socket.arrived ∧
      (Execution.Guarded step Ending session actions →
        ∀ past action later, actions = past ++ action :: later →
          (Execution.run step session past).Truthful action) := by
  have flow : ∀ actions, (Execution.run step session actions).Flow :=
    Execution.run_invariant step Flow fresh.flow (fun _ action flow => flow.step action)
  have alive : session.link.engineEnd = true := by rw [fresh.link]
  constructor
  · rw [(flow actions).whole, List.append_assoc]
    exact List.prefix_append _ _
  · intro guarded past action later split
    have ended := Execution.run_history step (fun _ session => session.Ended)
      (.of_alive alive) (fun _ _ ended ending => ended.step ending) past
      (by rw [split] at guarded; exact guarded.of_append)
    have ending := guarded past action later split
    cases action with
    | read remaining => exact truthful_read (flow past) ended remaining
    | drainSocket now => exact truthful_drain (flow past) ending
    | arrive | ingestWrites | pumpSocket | hangUp | accept | write | shutdown
      | dropStream => trivial

end Session

/-! ## Samples -/

namespace Sample

def connection : Session where
  conn := { id := 0, handle := 0, localPort := 49152, deadline := 0,
            connect := none }
  socket := { state := .established, capacity := 64, opened := true }
  link := { holder := .application }

def exchange : List Session.Action :=
  [.arrive (.data [1, 2, 3]), .drainSocket 0, .read 2, .shutdown,
    .ingestWrites, .pumpSocket, .arrive .fin, .arrive .finAcked,
    .arrive .expired, .read 5, .drainSocket 1, .read 5]

end Sample

/-- A reader whose own side is closed gets all the bytes and then the end. -/
theorem Session.reads_faithful_sample :
    (Execution.run Session.step Sample.connection Sample.exchange).link.given = [1, 2, 3] ∧
      ((Execution.run Session.step Sample.connection
          (Sample.exchange.take 11)).link.pollRead 5).1 = .ready [] ∧
      (Execution.run Session.step Sample.connection
        (Sample.exchange.take 11)).Truthful (.read 5) := by
  refine ⟨by decide, by decide, ?_⟩
  refine (Session.reads_faithful Sample.connection ⟨by decide, by decide⟩
    Sample.exchange).2 ?_ _ (.read 5) [] (by decide)
  decide

/-- The peer has closed and everything is read, but the local side is open: the
next pass does not tell the reader of the end. And where the channel is full
when the socket closes, the reader is told of an end before the last byte. -/
theorem Session.end_of_stream_untold :
    let read := Execution.run Session.step Sample.connection
      [.arrive (.data [1]), .arrive .fin, .drainSocket 0, .read 8]
    let cut := Execution.run Session.step Sample.connection
      ((List.range 32).flatMap (fun byte => [.arrive (.data [.ofNat byte]), .drainSocket 0]) ++
        [.arrive (.data [99]), .arrive .fin, .shutdown, .ingestWrites,
          .pumpSocket, .arrive .finAcked, .drainSocket 1] ++
        List.replicate 32 (.read 1))
    (read.socket.finished = true ∧ read.link.given = read.socket.arrived ∧
      ((read.step (.drainSocket 1)).link.pollRead 8).1 = .pending) ∧
    (cut.link.pollRead 1).1 = .ready [] ∧ cut.socket.arrived = cut.link.given ++ [99] := by
  decide +kernel

end WarrenSdk.Net.Netstack
