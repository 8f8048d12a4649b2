import WarrenSdk.Foundation.Execution

/-! # The health of a daemon

The health endpoint answers by the state of the connection and by a flag that
says that a probe has left through the tunnel. A task follows the state through a
channel that keeps the latest state only: it clears the flag when the connection
is lost, and proves the next epoch before it sets the flag again. The state and
the flag are read at the same time, but the task follows the state from behind:
the flag can still be that of the epoch before. -/

namespace WarrenSdk.Headless

open List

inductive ConnectionState
  | connecting
  | connected
  | reconnecting
  | draining
  | failed
  deriving DecidableEq

def ConnectionState.debug : ConnectionState → String
  | .connecting => "Connecting"
  | .connected => "Connected"
  | .reconnecting => "Reconnecting"
  | .draining => "Draining"
  | .failed => "Failed"

def render (path : String) (state : ConnectionState) (egressVerified : Bool)
    (port : Option UInt16) : Nat × String :=
  if path = "/healthz" then
    if state = .connected && egressVerified then (200, "ok\n")
    else (503, state.debug ++ "\n")
  else if path = "/state" then (200, state.debug ++ "\n")
  else if path = "/port" then
    match port with
    | some port => (200, toString port ++ "\n")
    | none => (404, "no forwarded port\n")
  else (404, "not found\n")

/-! ## The tracker -/

/-- The daemons that track their egress. The gateway opens its gate with the
proof, and only for the epoch whose generation was read before the probe. -/
inductive Daemon
  | proxy
  | gateway
  deriving DecidableEq

/-- Milliseconds from which a retry is backed off. -/
def Daemon.retryMin : Daemon → Nat
  | .proxy => 250
  | .gateway => 500

def Daemon.retryMax : Nat := 5000

def Daemon.nextDelay (daemon : Daemon) : Option Nat → Nat
  | none => daemon.retryMin
  | some delay => min (delay * 2) retryMax

/-- The proof at the start of the daemon, or a later one of the tracker. -/
inductive Attempt
  | first
  | again (retryIn : Option Nat)

/-- Where the daemon's task stands. A probe that is under way knows how many
epochs had become connected when it started. -/
inductive Task
  | connecting
  | awaiting (seen : Nat)
  | loading (attempt : Attempt)
  | starting (attempt : Attempt) (generation : Option UInt64)
  | probing (attempt : Attempt) (generation : Option UInt64) (epoch : Nat)
  | opening (attempt : Attempt) (generation : UInt64) (epoch : Nat)
  | storing (epoch : Nat)
  | pausing
  | tracking (retryIn : Option Nat)
  | reading (retryIn : Option Nat)
  | clearing (retryIn : Option Nat)
  | closing
  | stopped

/-- The channel and what the task has seen of it, the device's generation and
the flag; the epochs that have become connected, and of every probe that has
succeeded the epoch it started in. -/
structure Health where
  state : ConnectionState
  version : Nat
  closed : Bool
  seen : Nat
  generation : UInt64
  egressVerified : Bool
  task : Task
  epoch : Nat
  succeeded : List Nat

inductive Action
  | publish (state : ConnectionState)
  | close
  | turnover (generation : UInt64)
  | tick (answer : Bool)

namespace Health

/-- The tracker subscribes before the connection is there. -/
def start : Health where
  state := .connecting
  version := 0
  closed := false
  seen := 0
  generation := 0
  egressVerified := false
  task := .connecting
  epoch := 0
  succeeded := []

/-- An epoch becomes connected when the state comes to it from another. -/
def publish (health : Health) (state : ConnectionState) : Health :=
  if health.closed then health
  else { health with
    state
    version := health.version + 1
    epoch := if state = .connected ∧ health.state ≠ .connected
      then health.epoch + 1 else health.epoch }

end Health

def Daemon.prove (daemon : Daemon) (attempt : Attempt) : Task :=
  match daemon with
  | .proxy => .starting attempt none
  | .gateway => .loading attempt

def Daemon.failed (daemon : Daemon) : Attempt → Task
  | .first =>
    match daemon with
    | .proxy => .stopped
    | .gateway => .pausing
  | .again retryIn => .clearing (some (daemon.nextDelay retryIn))

def Daemon.ended : Daemon → Task
  | .proxy => .stopped
  | .gateway => .closing

namespace Health

def changed (daemon : Daemon) (health : Health) (retryIn : Option Nat) :
    Health :=
  if health.version ≠ health.seen then
    { health with seen := health.version, task := .reading retryIn }
  else if health.closed then { health with task := daemon.ended }
  else health

/-- The next step of the task. The answer is the one of the probe, or whether a
timer has run out. -/
def tick (daemon : Daemon) (health : Health) (answer : Bool) : Health :=
  match health.task with
  | .connecting =>
    { health with task :=
        if health.state = .connected then daemon.prove .first
        else .awaiting health.version }
  | .awaiting seen =>
    if answer then { health with task := .stopped }
    else if health.version ≠ seen then { health with task := .connecting }
    else if health.closed then { health with task := .stopped }
    else health
  | .loading attempt =>
    { health with task := .starting attempt (some health.generation) }
  | .starting attempt generation =>
    { health with task := .probing attempt generation health.epoch }
  | .probing attempt generation epoch =>
    if answer then
      { health with
        succeeded := epoch :: health.succeeded
        task := match generation with
          | none => .storing epoch
          | some generation => .opening attempt generation epoch }
    else { health with task := daemon.failed attempt }
  | .opening attempt generation epoch =>
    { health with task :=
        if health.generation = generation then .storing epoch
        else daemon.failed attempt }
  | .storing _ => { health with egressVerified := true, task := .tracking none }
  | .pausing =>
    { health with task := if answer then .stopped else .loading .first }
  | .tracking none => health.changed daemon none
  | .tracking (some delay) =>
    if answer then { health with task := .reading (some delay) }
    else health.changed daemon (some delay)
  | .reading retryIn =>
    { health with
      seen := health.version
      task := if health.state = .connected then daemon.prove (.again retryIn)
        else .clearing none }
  | .clearing retryIn =>
    { health with egressVerified := false, task := .tracking retryIn }
  | .closing => { health with egressVerified := false, task := .stopped }
  | .stopped => health

def step (daemon : Daemon) (health : Health) : Action → Health
  | .publish state => health.publish state
  | .close => { health with closed := true }
  | .turnover generation => { health with generation }
  | .tick answer => health.tick daemon answer

def run (daemon : Daemon) (schedule : List Action) : Health :=
  Execution.run (step daemon) start schedule

/-- If the endpoint answers that the daemon is healthy, then a probe that
started in the current epoch has succeeded. -/
def Proven (health : Health) : Prop :=
  ∀ port, (render "/healthz" health.state health.egressVerified port).1 = 200 →
    health.epoch ∈ health.succeeded

/-- An epoch becomes connected with the flag cleared, and a connected epoch is
not given the proof of an earlier one. -/
def Timely (health : Health) : Action → Prop
  | .publish state => state = .connected → health.state ≠ .connected →
    health.closed = false → health.egressVerified = false
  | .tick _ =>
    match health.task with
    | .storing epoch => health.state = .connected → epoch = health.epoch
    | _ => True
  | _ => True

instance (health : Health) : (action : Action) → Decidable (Timely health action)
  | .publish _ => inferInstanceAs (Decidable (_ → _ → _ → _))
  | .tick _ =>
    match task : health.task with
    | .storing epoch =>
      decidable_of_iff (health.state = .connected → epoch = health.epoch) (by simp [Timely, task])
    | .connecting | .awaiting _ | .loading _ | .starting .. | .probing ..
    | .opening .. | .pausing | .tracking _ | .reading _ | .clearing _
    | .closing | .stopped => isTrue (by simp [Timely, task])
  | .close | .turnover _ => isTrue trivial

theorem proven_iff (health : Health) : Proven health ↔ (health.state = .connected →
      health.egressVerified → health.epoch ∈ health.succeeded) := by
  have answered : ∀ port, (render "/healthz" health.state health.egressVerified port).1 = 200 ↔
        health.state = .connected ∧ health.egressVerified = true := by
    intro port
    simp only [render, if_true]
    split <;> rename_i healthy
    · simpa using healthy
    · simpa using healthy
  simp [Proven, answered]

/-! ## Every schedule -/

end Health

def Task.proof : Task → Option Nat
  | .probing _ _ epoch | .opening _ _ epoch | .storing epoch => some epoch
  | _ => none

def Task.proved : Task → Option Nat
  | .opening _ _ epoch | .storing epoch => some epoch
  | _ => none

namespace Health

/-- No probe has succeeded that started after the one that is under way. -/
structure Dated (health : Health) : Prop where
  past : ∀ epoch ∈ health.succeeded, epoch ≤ health.epoch
  proof : ∀ started, health.task.proof = some started →
    started ≤ health.epoch ∧ ∀ epoch ∈ health.succeeded, epoch ≤ started
  proved : ∀ started, health.task.proved = some started → started ∈ health.succeeded

theorem prove_proof (daemon : Daemon) (attempt : Attempt) :
    (daemon.prove attempt).proof = none := by
  cases daemon <;> rfl

theorem failed_proof (daemon : Daemon) (attempt : Attempt) :
    (daemon.failed attempt).proof = none := by
  cases attempt with
  | first => cases daemon <;> rfl
  | again => rfl

theorem proved_of_proof {task : Task} (none_ : task.proof = none) : task.proved = none := by
  cases task <;> first | rfl | cases none_

section

variable (dated : Dated health)

include dated

theorem Dated.idle {after : Health} (epoch : after.epoch = health.epoch)
    (succeeded : after.succeeded = health.succeeded)
    (none_ : after.task.proof = none) : Dated after := by
  constructor
  · rw [epoch, succeeded]
    exact dated.past
  · rw [none_]
    exact nofun
  · rw [proved_of_proof none_]
    exact nofun

theorem publish_dated (state : ConnectionState) : Dated (health.publish state) := by
  rw [publish]
  split
  · exact dated
  · have later : health.epoch ≤
        if state = .connected ∧ health.state ≠ .connected
          then health.epoch + 1 else health.epoch := by
      split <;> omega
    constructor
    · intro epoch member
      exact Nat.le_trans (dated.past epoch member) later
    · intro started under
      have before := dated.proof started under
      exact ⟨Nat.le_trans before.1 later, before.2⟩
    · exact dated.proved

theorem changed_dated (daemon : Daemon) (retryIn : Option Nat) :
    Dated (health.changed daemon retryIn) := by
  rw [changed]
  split
  · exact dated.idle rfl rfl rfl
  · split
    · exact dated.idle rfl rfl (by cases daemon <;> rfl)
    · exact dated

theorem tick_dated (daemon : Daemon) (answer : Bool) : Dated (health.tick daemon answer) := by
  cases task : health.task with
  | connecting =>
    simp only [tick, task]
    refine dated.idle rfl rfl ?_
    dsimp only
    split
    · exact prove_proof daemon .first
    · rfl
  | awaiting seen =>
    simp only [tick, task]
    split
    · exact dated.idle rfl rfl rfl
    · split
      · exact dated.idle rfl rfl rfl
      · split
        · exact dated.idle rfl rfl rfl
        · exact dated
  | loading | storing | clearing | closing =>
    simp only [tick, task]
    exact dated.idle rfl rfl rfl
  | starting attempt generation =>
    simp only [tick, task]
    constructor
    · exact dated.past
    · intro started under
      cases under
      exact ⟨Nat.le_refl _, dated.past⟩
    · exact nofun
  | probing attempt generation epoch =>
    have under := dated.proof epoch (by rw [task]; rfl)
    simp only [tick, task]
    split
    · have newest : ∀ other ∈ epoch :: health.succeeded, other ≤ epoch := by
        intro other member
        rcases mem_cons.mp member with rfl | older
        · exact Nat.le_refl _
        · exact under.2 other older
      constructor
      · intro other member
        exact Nat.le_trans (newest other member) under.1
      · intro started proof
        have same : started = epoch := by cases generation <;> exact (Option.some.inj proof).symm
        subst same
        exact ⟨under.1, newest⟩
      · intro started proved
        have same : started = epoch := by cases generation <;> exact (Option.some.inj proved).symm
        subst same
        exact mem_cons_self
    · exact dated.idle rfl rfl (failed_proof daemon attempt)
  | opening attempt generation epoch =>
    simp only [tick, task]
    split
    · have under := dated.proof epoch (by rw [task]; rfl)
      have proved := dated.proved epoch (by rw [task]; rfl)
      constructor
      · exact dated.past
      · intro started proof
        cases proof
        exact under
      · intro started done
        cases done
        exact proved
    · exact dated.idle rfl rfl (failed_proof daemon attempt)
  | pausing =>
    simp only [tick, task]
    refine dated.idle rfl rfl ?_
    dsimp only
    split <;> rfl
  | tracking retryIn =>
    cases retryIn with
    | none =>
      simp only [tick, task]
      exact changed_dated dated daemon none
    | some delay =>
      simp only [tick, task]
      split
      · exact dated.idle rfl rfl rfl
      · exact changed_dated dated daemon (some delay)
  | reading retryIn =>
    simp only [tick, task]
    refine dated.idle rfl rfl ?_
    dsimp only
    split
    · exact prove_proof daemon _
    · rfl
  | stopped =>
    simp only [tick, task]
    exact dated

theorem step_dated (daemon : Daemon) (action : Action) : Dated (step daemon health action) := by
  cases action with
  | publish state => exact publish_dated dated state
  | close | turnover => exact ⟨dated.past, dated.proof, dated.proved⟩
  | tick answer => exact tick_dated dated daemon answer

end

theorem Proven.stays {after : Health} (proven : Proven health)
    (state : after.state = health.state) (epoch : after.epoch = health.epoch)
    (succeeded : health.succeeded ⊆ after.succeeded)
    (flag : after.egressVerified → health.egressVerified) : Proven after := by
  rw [proven_iff] at proven ⊢
  intro connected verified
  rw [epoch]
  exact succeeded (proven (state ▸ connected) (flag verified))

theorem changed_proven (proven : Proven health) (daemon : Daemon) (retryIn : Option Nat) :
    Proven (health.changed daemon retryIn) := by
  rw [changed]
  split
  · exact proven.stays rfl rfl (.refl _) id
  · split
    · exact proven.stays rfl rfl (.refl _) id
    · exact proven

section

variable (dated : Dated health) (proven : Proven health)

include dated proven

theorem publish_proven_iff (state : ConnectionState) :
    Proven (health.publish state) ↔ Timely health (.publish state) := by
  rw [publish, Timely]
  cases closed : health.closed with
  | true => simp [proven]
  | false =>
    simp only [Bool.false_eq_true, if_false, proven_iff]
    by_cases arrives : state = .connected ∧ health.state ≠ .connected
    · -- No probe has started in an epoch that becomes connected now.
      have unproven : health.epoch + 1 ∉ health.succeeded := by
        intro member
        have early := dated.past _ member
        omega
      simp [arrives, unproven]
    · rw [proven_iff] at proven
      simp only [if_neg arrives]
      constructor
      · intro _ connected other
        exact absurd ⟨connected, other⟩ arrives
      · intro _ connected verified
        apply proven _ verified
        by_contra other
        exact arrives ⟨connected, other⟩

theorem tick_proven_iff (daemon : Daemon) (answer : Bool) :
    Proven (health.tick daemon answer) ↔ Timely health (.tick answer) := by
  have kept : ∀ after : Health, after.state = health.state →
      after.epoch = health.epoch → health.succeeded ⊆ after.succeeded →
      (after.egressVerified = true → health.egressVerified = true) → (Proven after ↔ True) := by
    intro after state epoch succeeded flag
    exact iff_true_intro (proven.stays state epoch succeeded flag)
  have all := List.Subset.refl health.succeeded
  cases task : health.task with
  | storing epoch =>
    have under := dated.proof epoch (by rw [task]; rfl)
    have proved := dated.proved epoch (by rw [task]; rfl)
    simp only [tick, Timely, task, proven_iff, forall_const]
    constructor
    · intro still connected
      exact Nat.le_antisymm under.1 (under.2 _ (still connected))
    · intro current connected
      rw [← current connected]
      exact proved
  | connecting | loading | starting | opening | pausing | reading =>
    simp only [tick, Timely, task]
    exact kept _ rfl rfl all id
  | clearing | closing =>
    simp only [tick, Timely, task]
    exact kept _ rfl rfl all nofun
  | probing attempt generation epoch =>
    simp only [tick, Timely, task]
    split
    · exact kept _ rfl rfl (subset_cons_self _ _) id
    · exact kept _ rfl rfl all id
  | awaiting seen =>
    simp only [tick, Timely, task]
    split
    · exact kept _ rfl rfl all id
    · split
      · exact kept _ rfl rfl all id
      · split
        · exact kept _ rfl rfl all id
        · exact kept _ rfl rfl all id
  | tracking retryIn =>
    cases retryIn with
    | none =>
      simp only [tick, Timely, task]
      exact iff_true_intro (changed_proven proven daemon none)
    | some delay =>
      simp only [tick, Timely, task]
      split
      · exact kept _ rfl rfl all id
      · exact iff_true_intro (changed_proven proven daemon (some delay))
  | stopped =>
    simp only [tick, Timely, task]
    exact iff_true_intro proven

theorem step_proven_iff (daemon : Daemon) (action : Action) :
    Proven (step daemon health action) ↔ Timely health action := by
  cases action with
  | publish state => exact publish_proven_iff dated proven state
  | close | turnover => exact iff_true_intro proven
  | tick answer => exact tick_proven_iff dated proven daemon answer

end

theorem start_dated : Dated start := ⟨nofun, nofun, nofun⟩

theorem start_proven : Proven start := by
  rw [proven_iff]
  exact nofun

/-- In every schedule, a probe of the current epoch has succeeded whenever the
daemon answers that it is healthy, exactly if every epoch becomes connected with
the flag cleared and no connected epoch is given the proof of an earlier one. -/
theorem healthy_means_proven_iff (daemon : Daemon) (schedule : List Action) :
    (∀ past later, schedule = past ++ later → Proven (run daemon past)) ↔
      Execution.Guarded (step daemon) Timely start schedule := by
  apply Execution.everywhere_iff (step daemon) (fun _ => True) Dated Proven start_dated start_proven
  · intro health action _ dated
    exact step_dated dated daemon action
  · intro health action _ dated proven
    exact step_proven_iff dated proven daemon action
  · intro action _
    trivial

def Sample.proves : Daemon → List Action
  | .proxy => [.publish .connected, .tick false, .tick false, .tick true, .tick false]
  | .gateway => [.turnover 1, .publish .connected, .tick false, .tick false,
    .tick false, .tick true, .tick true, .tick false]

/-- The connection is lost and is back before the task looks. -/
def Sample.replaces : List Action := [.publish .reconnecting, .publish .connected]

/-- The epoch is replaced while the tracker's probe of it is under way. -/
def Sample.overtakes : List Action :=
  [.publish .reconnecting, .tick false, .tick false, .tick false,
    .publish .connected, .tick false, .tick false, .tick false,
    .publish .reconnecting, .publish .connected, .tick true, .tick false]

def Sample.reproves : List Action :=
  [.publish .reconnecting, .tick false, .tick false, .tick false,
    .publish .connected, .tick false, .tick false, .tick false, .tick true, .tick false]

theorem healthy_means_proven_reproved :
    let health := run .proxy (Sample.proves .proxy ++ Sample.reproves)
    (render "/healthz" health.state health.egressVerified none).1 = 200 ∧
      health.epoch = 2 ∧ Proven health :=
  ⟨by decide +kernel, by decide +kernel, (healthy_means_proven_iff .proxy
    (Sample.proves .proxy ++ Sample.reproves)).mpr (by decide +kernel) _ [] (append_nil _).symm⟩

/-- A daemon of either kind answers that the second epoch is healthy before any
probe of it; and the proxy gives the third epoch the proof of the second. -/
theorem replaced_epoch_healthy : (∀ daemon, ¬ Proven (run daemon
      (Sample.proves daemon ++ Sample.replaces))) ∧
      ¬ Proven (run .proxy (Sample.proves .proxy ++ Sample.overtakes)) := by
  constructor
  · intro daemon
    rw [proven_iff]
    cases daemon <;> decide +kernel
  · rw [proven_iff]
    decide +kernel

end Health

end WarrenSdk.Headless
