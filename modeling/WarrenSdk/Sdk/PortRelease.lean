import WarrenSdk.Net.PortForward.Forwarded

/-! # Releasing a forwarded port

The handle of a supervised forward asks the task that owns the mapping to release
it and waits for an answer. The answer says that a mapping was deleted whenever
there was one to shut down; what came of the delete is not looked at. -/

namespace WarrenSdk.Net.PortForward

open List

/-! ## Shutting down -/

/-- Stop the refresh task, which deletes the mapping if it is still running. A
renewal that is under way comes first, and its failure ends the task. -/
def Forwarded.settled (forwarded : Forwarded) (renewing : Option Bool)
    (network : Network) : Forwarded × Network :=
  match renewing with
  | none => (forwarded, network)
  | some oversized => Forwarded.renew (forwarded, network) oversized

def Forwarded.shutdown (forwarded : Forwarded) (renewing : Option Bool)
    (network : Network) : Network :=
  let state := forwarded.settled renewing network
  if state.1.stopped then state.2
  else
    (delete state.1.renewal.proto state.1.renewal.internalPort state.2).2

/-! ## Requests and their exchanges -/

variable {network : Network}

theorem exchange_about (about : network.About call request)
    (earlier : call < network.calls) (other : Request) :
    (exchangeFrame other network).2.About call request := by
  apply attempts_rule (fun later => later.About call request)
  · exact fun later about => about.send fun same => absurd same (Nat.ne_of_gt earlier)
  · exact fun later back grant about => about.serve back grant
  · exact ⟨about.sent, about.answers⟩

def Network.Acks (network : Network) (spec : MapSpec) (call : Nat) : Prop :=
  ∃ answered ∈ network.answers, answered.call = call ∧
    answered.request = deleteRequest spec.proto spec.internalPort ∧
    answered.grant.resultCode = .success

/-! ## What the environment serves -/

/-- While the client listens, the gateway serves a datagram of this exchange with
success. -/
def servedIn (call : Nat) (request : Request) : List Event → Network → Bool
  | [], _ => false
  | .serve back grant :: events, network =>
    (grant.resultCode = .success && network.sent.reverse[back]?.any (·.call = call)) ||
      servedIn call request events (network.serve back grant)
  | .receive back :: events, network =>
    !network.answers.reverse[back]?.any (responseMatches request ·.response) &&
      servedIn call request events network
  | .stray :: events, network => servedIn call request events network
  | .closed :: _, _ => false

/-- The client listens to the end of the window. -/
def Lasts (request : Request) (events : List Event) (network : Network) : Prop :=
  .closed ∉ events ∧ ∀ answered ∈ (delivered events network).1,
      responseMatches request answered.response = false

instance (request : Request) (events : List Event) (network : Network) :
    Decidable (Lasts request events network) := by
  unfold Lasts
  infer_instance

def served (call : Nat) (request : Request) : Nat → List Window → Network → Bool
  | 0, _, _ => false
  | _ + 1, [], _ => false
  | left + 1, window :: windows, network =>
    let sent := network.send call request
    window.refused.isNone && (servedIn call request window.events sent ||
        (Lasts request window.events sent &&
          served call request left windows (delivered window.events sent).2))

/-- The delete of a mapping, if it is sent now, is served with success. -/
def Network.deletes (network : Network) (spec : MapSpec) : Bool :=
  served network.calls (deleteRequest spec.proto spec.internalPort) maxAttempts
    (network.script.headD []) network.begun

def Network.Granted (network : Network) (call : Nat) : Prop :=
  ∃ answered ∈ network.answers, answered.call = call ∧ answered.grant.resultCode = .success

theorem serve_granted (network : Network) (call back : Nat) (grant : Grant) :
    (network.serve back grant).Granted call ↔ network.Granted call ∨ grant.resultCode = .success ∧
        network.sent.reverse[back]?.any (·.call = call) = true := by
  rw [Network.serve]
  cases network.sent.reverse[back]? with
  | none => simp
  | some sent =>
    simp only [Network.Granted, mem_append, mem_singleton, Option.any_some,
      decide_eq_true_eq, or_and_right, exists_or, exists_eq_left]
    rw [and_comm (a := sent.call = call)]

theorem listen_granted (call : Nat) (request : Request) (events : List Event) (network : Network) :
    (listen request events network).2.Granted call ↔
      network.Granted call ∨ servedIn call request events network = true := by
  induction events generalizing network with
  | nil => simp [listen, servedIn]
  | cons event events induction =>
    cases event with
    | serve back grant =>
      rw [listen, induction, serve_granted, servedIn, or_assoc]
      simp
    | receive back =>
      rw [listen, servedIn]
      cases network.answers.reverse[back]? with
      | none => simpa using induction network
      | some answered =>
        by_cases fits : responseMatches request answered.response
        · simp [fits]
        · simpa [fits] using induction network
    | stray => exact induction network
    | closed => simp [listen, servedIn]

theorem listen_lasts (request : Request) (events : List Event) (network : Network) :
    (listen request events network).1 = .elapsed ↔ Lasts request events network := by
  induction events generalizing network with
  | nil => simp [listen, Lasts, delivered]
  | cons event events induction =>
    cases event with
    | serve | stray =>
      rw [listen, induction]
      simp [Lasts, delivered]
    | receive back =>
      have later := induction network
      rw [listen]
      cases there : network.answers.reverse[back]? with
      | none => simpa [Lasts, delivered, there] using later
      | some answered =>
        by_cases fits : responseMatches request answered.response
        · simp [Lasts, delivered, there, fits]
        · simpa [Lasts, delivered, there, fits] using later
    | closed => simp [listen, Lasts]

theorem attempts_granted (call : Nat) (request : Request) (left : Nat)
    (windows : List Window) (network : Network) :
    (attempts call request left windows network).2.Granted call ↔
      network.Granted call ∨ served call request left windows network = true := by
  induction left generalizing windows network with
  | zero => simp [attempts, served]
  | succ left induction =>
    cases windows with
    | nil =>
      rw [attempts, induction]
      cases left <;> simp [served, Network.Granted, Network.send]
    | cons window windows =>
      have granted := listen_granted call request window.events (network.send call request)
      have lasts := listen_lasts request window.events (network.send call request)
      have after := listen_delivered request window.events (network.send call request)
      rw [attempts, served]
      cases window.refused with
      | some error => simp
      | none =>
        cases heard : listen request window.events (network.send call request) with
        | mk result later =>
          rw [heard] at granted lasts after
          change later.Granted call ↔ network.Granted call ∨ _ at granted
          cases result with
          | reply | closed => simpa [← lasts] using granted
          | elapsed =>
            subst after
            simp only [← lasts]
            rw [induction, granted]
            simp [or_assoc]

/-- A delete is acknowledged exactly if the environment serves it. -/
theorem delete_acks_iff (numbered : network.Numbered) (spec : MapSpec) :
    (delete spec.proto spec.internalPort network).2.Acks spec network.calls ↔
      network.deletes spec = true := by
  have asks := exchange_asks numbered (deleteRequest spec.proto spec.internalPort)
  have granted := attempts_granted network.calls
    (deleteRequest spec.proto spec.internalPort) maxAttempts (network.script.headD []) network.begun
  have none : ¬network.begun.Granted network.calls := by
    rintro ⟨answered, member, same, _⟩
    exact Nat.ne_of_lt (numbered.answers answered member) same
  rw [or_iff_right none] at granted
  rw [delete_exchange, Network.deletes, ← granted]
  constructor
  · rintro ⟨answered, member, same, _, success⟩
    exact ⟨answered, member, same, success⟩
  · rintro ⟨answered, member, same, success⟩
    exact ⟨answered, member, same, asks.answers answered member same, success⟩

/-- After a delete, its own exchange is the only one of those that were begun at
or after it which can have been acknowledged. -/
theorem delete_acks (numbered : network.Numbered) (spec : MapSpec) (late : network.calls ≤ call)
    (acks : (delete spec.proto spec.internalPort network).2.Acks spec call) :
    call = network.calls := by
  rcases acks with ⟨answered, member, rfl, _⟩
  rw [delete_exchange] at member
  have asks := exchange_asks numbered (deleteRequest spec.proto spec.internalPort)
  have bound := asks.numbered.answers answered member
  rw [asks.calls] at bound
  omega

end WarrenSdk.Net.PortForward

namespace WarrenSdk.Net.PortForward.Forwarded

/-- What is on the wire of a flow is numbered, and its renewals are for a real
lifetime. -/
structure Kept (forwarded : Forwarded) (network : Network) : Prop where
  numbered : network.Numbered
  real : forwarded.renewal.lifetimeSecs ≠ 0

theorem not_deleteRequest {spec : MapSpec} (real : spec.lifetimeSecs ≠ 0) :
    spec.request ≠ deleteRequest spec.proto spec.internalPort := by
  intro equal
  rw [MapSpec.request, deleteRequest] at equal
  injection equal with _ _ _ zero
  exact real zero

/-- When the shutdown comes to the delete, everything that the release has sent
is about a renewal. -/
structure Quiet (forwarded : Forwarded) (network : Network)
    (state : Forwarded × Network) : Prop where
  renewal : state.1.renewal = forwarded.renewal
  numbered : state.2.Numbered
  calls : network.calls ≤ state.2.calls
  about : ∀ call, network.calls ≤ call → call < state.2.calls →
    state.2.About call forwarded.renewal.request

variable {forwarded : Forwarded}

theorem Quiet.unsent {after : Forwarded} (same : after.renewal = forwarded.renewal)
    (numbered : network.Numbered) : Quiet forwarded network (after, network) :=
  ⟨same, numbered, Nat.le_refl _, fun _ late early => absurd early (Nat.not_lt_of_le late)⟩

theorem settled_quiet (numbered : network.Numbered) (renewing : Option Bool) :
    Quiet forwarded network (forwarded.settled renewing network) := by
  cases renewing with
  | none => exact .unsent rfl numbered
  | some oversized =>
    rw [settled, renew]
    split
    · exact .unsent rfl numbered
    · rw [mapSingleLeg_eq]
      cases oversized with
      | true => exact .unsent rfl numbered
      | false =>
        have asks := exchange_asks numbered forwarded.renewal.request
        -- The only exchange that was begun is that of the renewal.
        have about : ∀ call, network.calls ≤ call →
            call < (exchangeFrame forwarded.renewal.request network).2.calls →
            (exchangeFrame forwarded.renewal.request network).2.About call
              forwarded.renewal.request := by
          intro call late early
          rw [asks.calls] at early
          rw [show call = network.calls by omega]
          exact asks.toAbout
        have calls : network.calls ≤ (exchangeFrame forwarded.renewal.request network).2.calls := by
          rw [asks.calls]
          omega
        simp only [mapWithCredential, Bool.false_eq_true, if_false]
        cases returned : exchangeFrame forwarded.renewal.request network with
        | mk result later =>
          rw [returned] at asks about calls
          cases result with
          | error error => exact ⟨rfl, asks.numbered, calls, about⟩
          | ok answered =>
            simp only
            cases forwarded.renewal.granted answered.response with
            | error | ok => exact ⟨rfl, asks.numbered, calls, about⟩

/-- The task is running; a renewal that is under way succeeds; and then the delete
is served with success. -/
def Ready (forwarded : Forwarded) (network : Network) : Option Bool → Prop
  | none => forwarded.stopped = false ∧ network.deletes forwarded.renewal = true
  | some oversized =>
    forwarded.stopped = false ∧ ∃ mapping later,
        mapWithCredential forwarded.renewal oversized network = (.ok mapping, later) ∧
          later.deletes forwarded.renewal = true

theorem ready_iff (renewing : Option Bool) : forwarded.Ready network renewing ↔
      (forwarded.settled renewing network).1.stopped = false ∧
        (forwarded.settled renewing network).2.deletes forwarded.renewal = true := by
  cases renewing with
  | none => rfl
  | some oversized =>
    rw [Ready, settled, renew]
    cases stopped : forwarded.stopped with
    | true => simp [stopped]
    | false =>
      rw [mapSingleLeg_eq]
      rcases mapWithCredential forwarded.renewal oversized network with ⟨error | mapping, later⟩
      · simp
      · simp [stopped]

/-- A shutdown has a delete acknowledged exactly if it was ready for it. -/
theorem shutdown_acks_iff (kept : forwarded.Kept network) (renewing : Option Bool) :
    (∃ call, network.calls ≤ call ∧
        (forwarded.shutdown renewing network).Acks forwarded.renewal call) ↔
      forwarded.Ready network renewing := by
  have quiet : Quiet forwarded network (forwarded.settled renewing network) :=
    settled_quiet kept.numbered renewing
  have other := not_deleteRequest kept.real
  rw [ready_iff, ← delete_acks_iff quiet.numbered]
  simp only [shutdown, quiet.renewal]
  generalize forwarded.settled renewing network = state at quiet
  constructor
  · intro acknowledged
    rcases acknowledged with ⟨call, late, acks⟩
    cases stopped : state.1.stopped with
    | true =>
      rw [stopped, if_pos rfl] at acks
      rcases acks with ⟨answered, member, rfl, asked, _⟩
      have early := quiet.numbered.answers answered member
      have same := (quiet.about _ late early).answers answered member rfl
      exact absurd (same.symm.trans asked) other
    | false =>
      simp only [stopped, Bool.false_eq_true, if_false] at acks
      refine ⟨rfl, ?_⟩
      by_cases early : call < state.2.calls
      · have about := exchange_about (quiet.about call late early) early
          (deleteRequest forwarded.renewal.proto forwarded.renewal.internalPort)
        rw [delete_exchange] at acks
        rcases acks with ⟨answered, member, called, asked, _⟩
        have same := about.answers answered member called
        exact absurd (same.symm.trans asked) other
      · rw [← delete_acks quiet.numbered forwarded.renewal (Nat.le_of_not_lt early) acks]
        exact acks
  · rintro ⟨running, acks⟩
    refine ⟨state.2.calls, quiet.calls, ?_⟩
    simp only [running, Bool.false_eq_true, if_false]
    exact acks

end WarrenSdk.Net.PortForward.Forwarded

namespace WarrenSdk.Sdk

open Net.PortForward

inductive PortRelease
  | deleted
  | noMapping
  | timedOut
  deriving DecidableEq

/-- The rendezvous of a handle with the task that owns the mapping. -/
structure ReleaseGate where
  answered : Bool := false
  deleted : Bool := false
  deriving DecidableEq

def ReleaseGate.ack (gate : ReleaseGate) (deleted : Bool) : ReleaseGate :=
  { gate with answered := true, deleted }

def ReleaseGate.release (gate : ReleaseGate) (inTime : Bool) : PortRelease :=
  if gate.answered && inTime then
    if gate.deleted then .deleted else .noMapping
  else .timedOut

/-- A live mapping and the flow that it is kept over. -/
structure Live where
  forwarded : Forwarded
  network : Network
  kept : forwarded.Kept network

/-- The task of a supervised forward, wherever it is when the release comes. -/
structure Supervised where
  current : Option Live
  /-- The task has returned; nobody answers. -/
  ended : Bool := false

def releaseAndAck (current : Option Live) (renewing : Option Bool)
    (gate : ReleaseGate) : ReleaseGate × Option Network :=
  match current with
  | some live => (gate.ack true, some (live.forwarded.shutdown renewing live.network))
  | none => (gate.ack false, none)

def Supervised.releaseAndShutdown (supervised : Supervised)
    (renewing : Option Bool) (inTime : Bool) : PortRelease × Option Network :=
  if supervised.ended then (ReleaseGate.release {} inTime, none)
  else
    let answered := releaseAndAck supervised.current renewing {}
    (answered.1.release inTime, answered.2)

namespace Supervised

/-- The gateway has acknowledged a delete of the mapping since the release was
asked for. -/
def Acknowledged (supervised : Supervised) (after : Option Network) : Prop :=
  ∃ live ∈ supervised.current, ∃ network ∈ after, ∃ call,
    live.network.calls ≤ call ∧ network.Acks live.forwarded.renewal call

/-- For every gateway, every network and every moment of the release: what a
release reports as deleted, the gateway has acknowledged, exactly if a release
that is answered in time finds a live mapping only when it is ready for the
delete. -/
theorem deleted_acknowledged_iff (supervised : Supervised)
    (renewing : Option Bool) (inTime : Bool) :
    let outcome := supervised.releaseAndShutdown renewing inTime
    (outcome.1 = .deleted → supervised.Acknowledged outcome.2) ↔
      (supervised.ended = false → inTime = true → ∀ live ∈ supervised.current,
          live.forwarded.Ready live.network renewing) := by
  rcases supervised with ⟨current, ended⟩
  -- Only an answer in time that is about a live mapping says that it was deleted.
  cases ended with
  | true => simp [releaseAndShutdown, ReleaseGate.release]
  | false =>
    cases inTime with
    | false => simp [releaseAndShutdown, ReleaseGate.release]
    | true =>
      cases current with
      | none => simp [releaseAndShutdown, releaseAndAck, ReleaseGate.ack, ReleaseGate.release]
      | some live =>
        have acks := Forwarded.shutdown_acks_iff live.kept renewing
        simp [releaseAndShutdown, releaseAndAck, ReleaseGate.ack, ReleaseGate.release,
          Acknowledged, acks]

end Supervised

/-! ## Samples -/

namespace Sample

def live (stopped : Bool) (script : List (List Window)) : Live where
  forwarded := ⟨4000, ⟨.tcp, 80, 0, 7200⟩, stopped⟩
  network := { script }
  kept := ⟨Net.PortForward.Sample.fresh_numbered _ _, lifetime_real⟩

def forward (stopped : Bool) (script : List (List Window)) : Supervised where
  current := some (live stopped script)

def refusing : List (List Window) :=
  [[{ events := [.serve 0 ⟨.notAuthorized, 0, 0, ⟨0⟩⟩, .receive 0] }]]

def closing : List (List Window) := [[{ events := [.closed] }]]

theorem forward_unacknowledged (silent : ∀ network ∈ after, ∀ answered ∈ network.answers,
      answered.grant.resultCode ≠ .success) :
    ¬(forward stopped script).Acknowledged after := by
  rintro ⟨_, _, network, here, _, _, answered, member, _, _, success⟩
  exact silent network here answered member success

end Sample

/-- The release says that the mapping was deleted, and nobody has acknowledged
it. -/
def Supervised.Misreported (supervised : Supervised) : Prop :=
  let outcome := supervised.releaseAndShutdown none true
  outcome.1 = .deleted ∧ ¬supervised.Acknowledged outcome.2

/-- A delete that is refused, a flow that has closed and a task that has stopped
are all reported as deleted. -/
theorem Supervised.deleted_unacknowledged : (Sample.forward false Sample.refusing).Misreported ∧
      (Sample.forward false Sample.closing).Misreported ∧ (Sample.forward true []).Misreported := by
  refine ⟨⟨rfl, ?_⟩, ⟨rfl, ?_⟩, rfl, ?_⟩
  · exact Sample.forward_unacknowledged (by decide)
  · exact Sample.forward_unacknowledged (by decide)
  · exact Sample.forward_unacknowledged (by decide)

end WarrenSdk.Sdk
