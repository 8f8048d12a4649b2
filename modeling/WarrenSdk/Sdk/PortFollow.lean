import WarrenSdk.Sdk.PortRelease

/-! # Following a port across epochs

The loop that drives one forwarded port. It watches a channel that keeps only the
latest forwarder, one for each epoch and none between two of them, and lets go of
its mapping when it sees that there is none. What it does not see, it does not
let go of. -/

namespace WarrenSdk.Sdk

open Net.PortForward

/-! ## Policies, failures and outcomes -/

inductive PortFollowPolicy
  | followBestEffort
  | keepPortOrStay
  | disabled
  deriving DecidableEq

/-- The knobs that the loop decides by; its delays are times of the
environment. -/
structure PortFollowConfig where
  policy : PortFollowPolicy := .followBestEffort
  pinnedExternalPort : Option UInt16 := none
  deriving DecidableEq

inductive BanReasonCode
  | portForwardingAbuse
  | other
  deriving DecidableEq

/-- The failures of an establish, as far as the loop tells them apart. -/
inductive SdkError
  | portForward (error : PortForwardError)
  | portForwardRefused (entitlementPresented : Bool)
  | banned (reasonCode : BanReasonCode) (lapsesAtUnixSecs : Option Nat)
  | other
  deriving DecidableEq

def SdkError.isPortConflict : SdkError → Bool
  | .portForward (.gateway .suggestedPortUnavailable) => true
  | _ => false

inductive PortFollowOutcome
  | kept (port : UInt16)
  | changed (previous : Option UInt16) (port : UInt16)
  | conflictStayed (pinned : UInt16)
  | failed
  | notAuthorized (entitlementPresented : Bool)
  | banned (reasonCode : BanReasonCode) (lapsesAtUnixSecs : Option Nat)
  deriving DecidableEq

def PortFollowOutcome.fromFailure : SdkError → PortFollowOutcome
  | .portForwardRefused entitlementPresented => .notAuthorized entitlementPresented
  | .banned reasonCode lapsesAtUnixSecs => .banned reasonCode lapsesAtUnixSecs
  | _ => .failed

/-! ## The loop -/

/-- A mapping that is held, and the forwarder that it was established with. -/
structure Established (F : Type u) where
  forwarder : F
  externalPort : UInt16
  deriving DecidableEq

inductive Stage (F : Type u)
  /-- At the top, about to look at the channel. -/
  | looking
  | establishing (forwarder : F) (suggested : UInt16)
  /-- Asking for a port of the gateway's choice after a conflict. -/
  | degrading (forwarder : F) (suggested : UInt16)
  /-- Waiting for the delay of a retry, or a change. -/
  | retrying
  | waiting
  | returned
  deriving DecidableEq

structure Follower (F : Type u) where
  config : PortFollowConfig
  /-- The channel: its latest value, how often one was sent, and whether the
  sender is gone. -/
  latest : Option F
  version : Nat := 0
  closed : Bool := false
  /-- The version that the loop has seen. -/
  seen : Nat := 0
  stage : Stage F := .looking
  current : Option (Established F) := none
  sticky : Option UInt16 := none
  /-- The flag for a conflict, with the forwarder that it was met on. -/
  conflicted : Option F := none
  external : Option UInt16 := none
  outcome : Option PortFollowOutcome := none
  gate : ReleaseGate := {}
  deriving DecidableEq

inductive Action (F : Type u)
  | publish (forwarder : Option F)
  | close
  | look
  /-- The establish that is under way returns. -/
  | establish (result : Except SdkError UInt16)
  /-- The delay of a retry is over. -/
  | elapse
  /-- The channel wakes the loop. -/
  | changed
  | release

namespace Follower

variable {F : Type u}

def suggested (follower : Follower F) : UInt16 :=
  match follower.config.policy with
  | .disabled => 0
  | .keepPortOrStay => (follower.config.pinnedExternalPort.or follower.sticky).getD 0
  | .followBestEffort => follower.sticky.getD 0

def look (follower : Follower F) : Follower F :=
  let follower := { follower with seen := follower.version }
  match follower.latest with
  | some forwarder =>
    if follower.current.isNone && follower.conflicted.isNone then
      { follower with stage := .establishing forwarder follower.suggested }
    else { follower with stage := .waiting }
  | none =>
    { follower with
      conflicted := none
      external := if follower.current.isSome then none else follower.external
      current := none
      stage := .waiting }

def hold (follower : Follower F) (forwarder : F) (granted : UInt16)
    (outcome : PortFollowOutcome) : Follower F :=
  { follower with
    sticky := some granted
    outcome := some outcome
    external := some granted
    current := some ⟨forwarder, granted⟩
    stage := .waiting }

def fail (follower : Follower F) (error : SdkError) : Follower F :=
  { follower with
    outcome := some (.fromFailure error)
    stage := .retrying }

def establish (follower : Follower F) (forwarder : F) (suggested : UInt16) :
    Except SdkError UInt16 → Follower F
  | .ok granted =>
    follower.hold forwarder granted (if follower.sticky = some granted then .kept granted
        else .changed follower.sticky granted)
  | .error error =>
    if error.isPortConflict && suggested != 0 then
      if follower.config.policy = .keepPortOrStay then
        { follower with
          outcome := some (.conflictStayed suggested)
          conflicted := some forwarder
          stage := .waiting }
      else
        { follower with
          sticky := none
          stage := .degrading forwarder suggested }
    else follower.fail error

/-- The second establish, for whatever port there is, has returned. -/
def degrade (follower : Follower F) (forwarder : F) (suggested : UInt16) :
    Except SdkError UInt16 → Follower F
  | .ok granted => follower.hold forwarder granted (.changed (some suggested) granted)
  | .error error => follower.fail error

def wake (follower : Follower F) : Follower F :=
  if follower.version ≠ follower.seen then { follower with stage := .looking }
  else if follower.closed then { follower with stage := .returned, current := none }
  else follower

def release (follower : Follower F) : Follower F :=
  { follower with
    gate := follower.gate.ack follower.current.isSome
    current := none
    stage := .returned }

def step (follower : Follower F) : Action F → Follower F
  | .publish forwarder =>
    { follower with latest := forwarder, version := follower.version + 1 }
  | .close => { follower with closed := true }
  | .look =>
    match follower.stage with
    | .looking => follower.look
    | _ => follower
  | .establish result =>
    match follower.stage with
    | .establishing forwarder suggested => follower.establish forwarder suggested result
    | .degrading forwarder suggested => follower.degrade forwarder suggested result
    | _ => follower
  | .elapse =>
    match follower.stage with
    | .retrying => { follower with stage := .looking }
    | _ => follower
  | .changed =>
    match follower.stage with
    | .retrying | .waiting => follower.wake
    | _ => follower
  | .release =>
    match follower.stage with
    | .retrying | .waiting => follower.release
    | _ => follower

def spawn (config : PortFollowConfig) (latest : Option F) : Follower F :=
  { config, latest }

def run (config : PortFollowConfig) (latest : Option F) (actions : List (Action F)) : Follower F :=
  Execution.run step (spawn config latest) actions

/-! ## What the loop has to do with an epoch -/

def asking (follower : Follower F) : Option F :=
  match follower.stage with
  | .establishing forwarder _ | .degrading forwarder _ => some forwarder
  | _ => none

/-- Everything that the loop holds, asks for or remembers is of one
forwarder. -/
structure Of (follower : Follower F) (forwarder : F) : Prop where
  current : ∀ held ∈ follower.current, held.forwarder = forwarder
  asking : ∀ asked ∈ follower.asking, asked = forwarder
  conflicted : ∀ met ∈ follower.conflicted, met = forwarder

/-- The loop waits for the next change, and there was none since it looked. -/
def Settled (follower : Follower F) : Prop :=
  (follower.stage = .waiting ∨ follower.stage = .retrying) ∧ follower.seen = follower.version

/-- The port that is published is that of the mapping that is held, if there is
one. -/
def Published (follower : Follower F) : Prop :=
  follower.external = follower.current.map Established.externalPort

/-- While the loop waits, it publishes the port that it holds and no other; and if
there is a forwarder, the mapping was established with it, and a conflict that
keeps the loop from asking was met on it. -/
def Belongs (follower : Follower F) : Prop :=
  follower.Settled → follower.Published ∧ ∀ forwarder ∈ follower.latest,
    (∀ held ∈ follower.current, held.forwarder = forwarder) ∧
    ∀ met ∈ follower.conflicted, met = forwarder

/-- No forwarder is published while the loop holds, asks for or remembers
something of another. -/
def Spaced (follower : Follower F) : Action F → Prop
  | .publish (some forwarder) => follower.Of forwarder
  | _ => True

instance [DecidableEq F] (follower : Follower F) (forwarder : F) :
    Decidable (follower.Of forwarder) :=
  decidable_of_iff ((∀ held ∈ follower.current, held.forwarder = forwarder) ∧
      (∀ asked ∈ follower.asking, asked = forwarder) ∧ ∀ met ∈ follower.conflicted, met = forwarder)
    ⟨fun parts => ⟨parts.1, parts.2.1, parts.2.2⟩, fun of => ⟨of.current, of.asking, of.conflicted⟩⟩

instance [DecidableEq F] (follower : Follower F) :
    (action : Action F) → Decidable (follower.Spaced action)
  | .publish (some forwarder) => inferInstanceAs (Decidable (follower.Of forwarder))
  | .publish none | .close | .look | .establish _ | .elapse | .changed
  | .release => isTrue trivial

/-- What the loop has is of the latest forwarder, and until it returns its port is
published. -/
structure Current (follower : Follower F) : Prop where
  latest : ∀ forwarder ∈ follower.latest, follower.Of forwarder
  published : follower.stage ≠ .returned → follower.Published

variable {follower : Follower F}

theorem Current.spawn (config : PortFollowConfig) (latest : Option F) :
    (spawn config latest).Current := by
  refine ⟨?_, fun _ => rfl⟩
  intro forwarder _
  exact ⟨nofun, nofun, nofun⟩

section

variable (known : follower.Current)

include known

theorem Current.of_less {after : Follower F} (latest : after.latest = follower.latest)
    (current : ∀ held ∈ after.current, held ∈ follower.current)
    (asking : ∀ asked ∈ after.asking, asked ∈ follower.asking)
    (conflicted : ∀ met ∈ after.conflicted, met ∈ follower.conflicted)
    (published : after.stage ≠ .returned → after.Published) : after.Current := by
  refine ⟨?_, published⟩
  intro forwarder here
  rw [latest] at here
  have of := known.latest forwarder here
  exact ⟨fun held member => of.current held (current held member),
    fun asked member => of.asking asked (asking asked member),
    fun met member => of.conflicted met (conflicted met member)⟩

section

variable (published : follower.Published)

include published

theorem Current.look : follower.look.Current := by
  rw [Follower.look]
  split
  · rename_i forwarder here
    split
    · -- Only the forwarder that was just seen is asked.
      refine ⟨?_, fun _ => published⟩
      intro other there
      have of := known.latest other there
      refine ⟨of.current, ?_, of.conflicted⟩
      intro asked member
      cases member
      exact Option.some.inj (here.symm.trans there)
    · exact known.of_less rfl (fun _ member => member) nofun
        (fun _ member => member) (fun _ => published)
  · refine known.of_less rfl nofun nofun nofun fun _ => ?_
    rw [Published] at published ⊢
    cases held : follower.current with
    | none => simpa [held] using published
    | some established => rfl

omit published in
theorem Current.hold (asked : follower.asking = some forwarder)
    (granted : UInt16) (outcome : PortFollowOutcome) :
    (follower.hold forwarder granted outcome).Current := by
  constructor
  · intro other there
    have of := known.latest other there
    refine ⟨?_, nofun, of.conflicted⟩
    intro held member
    cases member
    exact of.asking forwarder asked
  · exact fun _ => rfl

theorem Current.fail (error : SdkError) : (follower.fail error).Current :=
  known.of_less rfl (fun _ member => member) nofun (fun _ member => member) (fun _ => published)

theorem Current.establish {forwarder : F} {suggested : UInt16}
    (asked : follower.asking = some forwarder) (result : Except SdkError UInt16) :
    (follower.establish forwarder suggested result).Current := by
  cases result with
  | ok granted => exact known.hold asked granted _
  | error error =>
    rw [Follower.establish]
    split
    · split
      · -- The conflict is remembered for the forwarder that was asked.
        refine ⟨?_, fun _ => published⟩
        intro other there
        have of := known.latest other there
        refine ⟨of.current, nofun, ?_⟩
        intro met member
        cases member
        exact of.asking forwarder asked
      · refine known.of_less rfl (fun _ member => member) ?_
          (fun _ member => member) (fun _ => published)
        intro again member
        cases member
        exact asked
    · exact known.fail published error

theorem Current.degrade {suggested : UInt16}
    (asked : follower.asking = some forwarder) (result : Except SdkError UInt16) :
    (follower.degrade forwarder suggested result).Current := by
  cases result with
  | ok granted => exact known.hold asked granted _
  | error error => exact known.fail published error

theorem Current.wake : follower.wake.Current := by
  rw [Follower.wake]
  split
  · exact known.of_less rfl (fun _ member => member) nofun (fun _ member => member)
      (fun _ => published)
  · split
    · exact known.of_less rfl nofun nofun (fun _ member => member) (absurd rfl)
    · exact known

end

theorem Current.release : follower.release.Current :=
  known.of_less rfl nofun nofun (fun _ member => member) (absurd rfl)

theorem Current.publish (forwarder : Option F) (spaced : follower.Spaced (.publish forwarder)) :
    (follower.step (.publish forwarder)).Current := by
  refine ⟨?_, known.published⟩
  intro latest there
  cases there
  have of : follower.Of latest := spaced
  exact ⟨of.current, of.asking, of.conflicted⟩

theorem Current.step (action : Action F) (spaced : follower.Spaced action) :
    (follower.step action).Current := by
  have running : ∀ {stage}, follower.stage = stage → stage ≠ .returned → follower.Published :=
    fun here running => known.published (here ▸ running)
  cases action with
  | publish forwarder => exact known.publish forwarder spaced
  | close =>
    exact known.of_less rfl (fun _ member => member) (fun _ member => member)
      (fun _ member => member) known.published
  | look =>
    rw [Follower.step]
    split
    · rename_i stage
      exact known.look (running stage (by simp))
    · exact known
  | establish result =>
    rw [Follower.step]
    split
    · rename_i stage
      exact known.establish (running stage (by simp)) (by rw [asking, stage]) result
    · rename_i stage
      exact known.degrade (running stage (by simp)) (by rw [asking, stage]) result
    · exact known
  | elapse =>
    rw [Follower.step]
    split
    · rename_i stage
      exact known.of_less rfl (fun _ member => member) nofun
        (fun _ member => member) (fun _ => running stage (by simp))
    · exact known
  | changed =>
    rw [Follower.step]
    split
    · rename_i stage
      exact known.wake (running stage (by simp))
    · rename_i stage
      exact known.wake (running stage (by simp))
    · exact known
  | release =>
    rw [Follower.step]
    split
    · exact known.release
    · exact known.release
    · exact known

theorem Current.belongs : follower.Belongs := by
  rintro ⟨waits, _⟩
  refine ⟨known.published (by rcases waits with stage | stage <;> simp [stage]), ?_⟩
  intro forwarder here
  have of := known.latest forwarder here
  exact ⟨of.current, of.conflicted⟩

end

/-- For every policy, every run of the channel and every outcome of the
establishes: while no forwarder is published before the loop has let go of what it
has of another, what it waits with belongs to the latest one. -/
theorem forward_current (config : PortFollowConfig) (latest : Option F) (actions : List (Action F))
    (spaced : Execution.Guarded step Spaced (spawn config latest) actions) :
    (run config latest actions).Belongs := by
  apply Current.belongs
  apply Execution.run_history step (fun _ follower => follower.Current)
    (Current.spawn config latest) _ actions spaced
  intro past action known allowed
  exact known.step action allowed

end Follower

/-! ## Samples -/

namespace Sample

def sees : List (Action Nat) := [.changed, .look]

def conflict : SdkError := .portForward (.gateway .suggestedPortUnavailable)

/-- A mapping on the first epoch; the loop sees its end before the second one
begins. -/
def rebuilt : List (Action Nat) :=
  [.look, .publish (some 1)] ++ sees ++ [.establish (.ok 4000), .publish none] ++
    sees ++ [.publish (some 2)] ++ sees ++ [.establish (.ok 4001)]

/-- The first epoch ends and the second begins before the loop is woken. -/
def overrun (result : Except SdkError UInt16) : List (Action Nat) :=
  [.look, .publish (some 1)] ++ sees ++
    [.establish result, .publish none, .publish (some 2)] ++ sees

def stale : Follower Nat := Follower.run {} none (overrun (.ok 4000))

def pinned : PortFollowConfig := ⟨.keepPortOrStay, some 4000⟩

def parked : Follower Nat := Follower.run pinned none (overrun (.error conflict))

end Sample

theorem Follower.forward_current_sample : (Follower.run {} none Sample.rebuilt).Settled ∧
      (Follower.run {} none Sample.rebuilt).current = some ⟨2, 4001⟩ ∧
      (Follower.run {} none Sample.rebuilt).Belongs :=
  ⟨⟨.inl rfl, rfl⟩, rfl, Follower.forward_current {} none Sample.rebuilt (by decide)⟩

/-- The loop waits on the second epoch with the mapping of the first; a conflict
on the first keeps a pinned port from being asked for on the second. -/
theorem Follower.epoch_overrun : (Sample.stale.Settled ∧ Sample.stale.latest = some 2 ∧
        Sample.stale.current = some ⟨1, 4000⟩ ∧ ¬Sample.stale.Belongs) ∧
      Sample.parked.Settled ∧ Sample.parked.latest = some 2 ∧
        Sample.parked.conflicted = some 1 ∧ ¬Sample.parked.Belongs := by
  refine ⟨⟨⟨.inl rfl, rfl⟩, rfl, rfl, ?_⟩, ⟨.inl rfl, rfl⟩, rfl, rfl, ?_⟩
  · intro belongs
    have stale := ((belongs ⟨.inl rfl, rfl⟩).2 2 rfl).1 ⟨1, 4000⟩ rfl
    exact absurd stale (by decide)
  · intro belongs
    have stale := ((belongs ⟨.inl rfl, rfl⟩).2 2 rfl).2 1 rfl
    exact absurd stale (by decide)

end WarrenSdk.Sdk
