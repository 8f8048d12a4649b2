import WarrenSdk.Foundation.Execution
import WarrenSdk.Bolthole.Address

/-! # Watching the host's route

A watcher publishes the route of the host once a check over it was answered by a
Warren exit, and withdraws it when the route changes or a later check fails. What
it reads, hears and publishes is logged in the order in which it happens, so that
every moment between two publications is a beginning of the log. -/

namespace WarrenSdk.Sdk

open Bolthole List Execution

/-- The host's route toward the internet, when it leaves through a local tunnel
interface. -/
structure HostRoute where
  source : Ipv4Addr
  interface : { index : UInt32 // index ≠ 0 }
  name : String
  deriving DecidableEq

structure SystemExit where
  country : Option String
  city : Option String
  deriving DecidableEq

def recheckWarren : Duration := Duration.fromSecs 30

def recheckRefused : Duration := Duration.fromSecs 300

/-! ## The watcher -/

inductive RouteEvent
  | read (route : Option HostRoute)
  /-- A check over a route was answered, with a Warren exit or without. -/
  | answered (route : HostRoute) (exit : Option SystemExit)
  | showRoute (route : Option HostRoute)
  | showExit (exit : Option SystemExit)
  deriving DecidableEq

inductive RouteStage
  | resting
  /-- The verdict was taken, and a check over its route is pending. -/
  | rechecking (proven : HostRoute)
  | asking (candidate : HostRoute)
  | ended
  deriving DecidableEq

structure RouteWatcher where
  verdict : Option (HostRoute × Instant) := none
  refused : Option (HostRoute × Instant) := none
  stage : RouteStage := .resting
  log : List RouteEvent := []
  deriving DecidableEq

namespace RouteWatcher

def note (watcher : RouteWatcher) (events : List RouteEvent) : RouteWatcher :=
  { watcher with log := watcher.log ++ events }

/-- The exit is cleared after the route. -/
def withdraw (watcher : RouteWatcher) : RouteWatcher :=
  { watcher.note [.showRoute none, .showExit none] with verdict := none }

/-- A refused route waits before it is asked again. -/
def due (watcher : RouteWatcher) (candidate : HostRoute) (now : Instant) : Bool :=
  match watcher.refused with
  | none => true
  | some (route, since) => route ≠ candidate || recheckRefused ≤ now - since

def consider (watcher : RouteWatcher) (route : Option HostRoute) (now : Instant) : RouteWatcher :=
  match route with
  | none => { watcher with stage := .resting }
  | some candidate =>
    if watcher.due candidate now then
      { watcher with stage := .asking candidate }
    else { watcher with stage := .resting }

def turn (watcher : RouteWatcher) (reading : Option HostRoute) (now : Instant) : RouteWatcher :=
  let watcher := watcher.note [.read reading]
  match watcher.verdict with
  | none => watcher.consider reading now
  | some (proven, since) =>
    if reading ≠ some proven then watcher.withdraw.consider reading now
    else if recheckWarren ≤ now - since then
      { watcher with verdict := none, stage := .rechecking proven }
    else { watcher with stage := .resting }

/-- The route is read again once a check has named an exit. -/
def confirmed (watcher : RouteWatcher) (route : HostRoute)
    (exit : Option SystemExit) (reading : Option HostRoute) : Option SystemExit × RouteWatcher :=
  match exit with
  | none => (none, watcher.note [.answered route none])
  | some found =>
    (if reading = some route then some found else none,
      watcher.note [.answered route (some found), .read reading])

/-- The pending check is answered; `reading` is the route at that moment. -/
def answer (watcher : RouteWatcher) (exit : Option SystemExit)
    (reading : Option HostRoute) (now : Instant) : RouteWatcher :=
  match watcher.stage with
  | .rechecking proven =>
    match watcher.confirmed proven exit reading with
    | (some exit, watcher) =>
      { watcher.note [.showExit (some exit)] with
        verdict := some (proven, now)
        stage := .resting }
    | (none, watcher) => watcher.withdraw.consider (some proven) now
  | .asking candidate =>
    match watcher.confirmed candidate exit reading with
    | (some exit, watcher) =>
      { watcher.note [.showExit (some exit), .showRoute (some candidate)] with
        verdict := some (candidate, now)
        refused := none
        stage := .resting }
    | (none, watcher) =>
      { watcher with refused := some (candidate, now), stage := .resting }
  | .resting | .ended => watcher

inductive Action
  /-- The pause is over; `closed` says that every receiver is gone. -/
  | turn (closed : Bool) (reading : Option HostRoute) (now : Instant)
  | answer (exit : Option SystemExit) (reading : Option HostRoute) (now : Instant)
  deriving DecidableEq

def step (watcher : RouteWatcher) : Action → RouteWatcher
  | .turn closed reading now =>
    if watcher.stage = .resting then
      if closed then { watcher with stage := .ended }
      else watcher.turn reading now
    else watcher
  | .answer exit reading now => watcher.answer exit reading now

def run (actions : List Action) : RouteWatcher := Execution.run step {} actions

end RouteWatcher

/-! ## What the log says -/

structure Shown where
  route : Option HostRoute := none
  exit : Option SystemExit := none
  deriving DecidableEq

def Shown.after (shown : Shown) : RouteEvent → Shown
  | .showRoute route => { shown with route }
  | .showExit exit => { shown with exit }
  | .read _ | .answered _ _ => shown

def shownBy (log : List RouteEvent) : Shown := log.foldl Shown.after {}

/-- A check over the route was answered with an exit, the route was read after the
answer, and every reading since that one gave the route again. -/
def ProvenBy (past : List RouteEvent) (route : HostRoute) : Prop :=
  ∃ before exit between since, past = before ++ .answered route (some exit) ::
      (between ++ .read (some route) :: since) ∧
    ∀ reading, .read reading ∈ since → reading = some route

def Stands (log : List RouteEvent) : Prop := ∀ route ∈ (shownBy log).route, ProvenBy log route

/-- A route is shown when it is proven and its exit is there, and an exit is
cleared when no route is shown. -/
def Lawful (log : List RouteEvent) : Prop :=
  ∀ past event later, log = past ++ event :: later →
    match event with
    | .showRoute (some route) => ProvenBy past route ∧ (shownBy past).exit.isSome = true
    | .showExit none => (shownBy past).route = none
    | _ => True

/-- At every moment the route that is shown is proven, or its withdrawal is what
the watcher does next. -/
def Steady (log : List RouteEvent) : Prop :=
  ∀ past later, log = past ++ later → Stands past ∨ ∃ rest, later = .showRoute none :: rest

@[simp] theorem shownBy_append (past later : List RouteEvent) :
    shownBy (past ++ later) = later.foldl Shown.after (shownBy past) :=
  foldl_append

theorem ProvenBy.append (proven : ProvenBy past route)
    (same : ∀ reading, .read reading ∈ more → reading = some route) :
    ProvenBy (past ++ more) route := by
  rcases proven with ⟨before, exit, between, since, rfl, kept⟩
  refine ⟨before, exit, between, since ++ more, by simp, ?_⟩
  intro reading member
  rcases mem_append.mp member with old | new
  · exact kept reading old
  · exact same reading new

theorem ProvenBy.confirmed (past : List RouteEvent) (route : HostRoute) (exit : SystemExit) :
    ProvenBy (past ++ [.answered route (some exit), .read (some route)]) route :=
  ⟨past, exit, [], [], rfl, nofun⟩

theorem Lawful.nil : Lawful [] := by
  intro past event later equal
  cases past <;> cases equal

theorem Lawful.snoc (lawful : Lawful log) (last : match event with
      | .showRoute (some route) => ProvenBy log route ∧ (shownBy log).exit.isSome
      | .showExit none => (shownBy log).route = none
      | _ => True) : Lawful (log ++ [event]) := by
  intro past other later equal
  rcases snoc_cases equal with ⟨none, _⟩ | ⟨front, rest, rfl⟩
  · cases none
  · cases front with
    | nil =>
      cases rest
      rw [append_nil] at last
      exact last
    | cons first front =>
      cases rest
      exact lawful past other front rfl

/-- A reader that sees a route finds its exit. -/
theorem Lawful.exit_shown (lawful : Lawful log) (shown : (shownBy log).route.isSome) :
    (shownBy log).exit.isSome := by
  induction log using List.reverseRecOn with
  | nil => cases shown
  | append_singleton log event induction =>
    have earlier : Lawful log := fun past other later equal =>
      lawful past other (later ++ [event]) (by simp [equal])
    have last := lawful log event [] rfl
    rw [shownBy_append] at shown ⊢
    cases event with
    | read | answered => exact induction earlier shown
    | showRoute route =>
      cases route with
      | none => cases shown
      | some route => exact last.2
    | showExit exit =>
      cases exit with
      | none =>
        change (shownBy log).route = none at last
        change (shownBy log).route.isSome = true at shown
        rw [last] at shown
        cases shown
      | some exit => rfl

theorem Stands.of_none (hidden : (shownBy log).route = none) : Stands log := by
  intro route shown
  rw [hidden] at shown
  cases shown

theorem Steady.nil : Steady [] := by
  intro past later equal
  rw [(append_eq_nil_iff.mp equal.symm).1]
  exact .inl (.of_none rfl)

theorem Steady.snoc (steady : Steady log) (after : Stands (log ++ [event])) :
    Steady (log ++ [event]) := by
  intro past later equal
  rcases snoc_cases equal with ⟨rfl, rfl⟩ | ⟨front, rfl, rfl⟩
  · exact .inl after
  · rcases steady past front rfl with stands | ⟨rest, rfl⟩
    · exact .inl stands
    · exact .inr ⟨rest ++ [event], rfl⟩

/-- A reading that differs from what is shown is followed by the withdrawal. -/
theorem Steady.withdraw (steady : Steady log) (event : RouteEvent) :
    Steady (log ++ [event] ++ [.showRoute none]) := by
  intro past later equal
  rcases snoc_cases equal with ⟨rfl, rfl⟩ | ⟨front, rfl, same⟩
  · left
    apply Stands.of_none
    rw [shownBy_append]
    rfl
  · rcases snoc_cases same with ⟨rfl, rfl⟩ | ⟨inner, rfl, rfl⟩
    · exact .inr ⟨[], rfl⟩
    · rcases steady past inner rfl with stands | ⟨rest, rfl⟩
      · exact .inl stands
      · exact .inr ⟨rest ++ [event] ++ [.showRoute none], by simp⟩

/-! ## The watcher keeps to it -/

namespace RouteWatcher

variable {watcher : RouteWatcher}

def standing (watcher : RouteWatcher) : Option HostRoute :=
  match watcher.stage with
  | .rechecking proven => some proven
  | _ => watcher.verdict.map Prod.fst

/-- What the log of a watcher has to satisfy between its steps. -/
structure Settled (log : List RouteEvent) : Prop where
  lawful : Lawful log
  steady : Steady log
  stands : Stands log

variable {log : List RouteEvent}

theorem Settled.hear (settled : Settled log) (route : HostRoute) (exit : Option SystemExit) :
    Settled (log ++ [.answered route exit]) := by
  have stands : Stands (log ++ [.answered route exit]) := by
    intro other shown
    rw [shownBy_append] at shown
    apply (settled.stands other shown).append
    intro reading member
    cases mem_singleton.mp member
  exact ⟨settled.lawful.snoc trivial, settled.steady.snoc stands, stands⟩

theorem Settled.read (settled : Settled log)
    (agrees : ∀ route ∈ (shownBy log).route, reading = some route) :
    Settled (log ++ [.read reading]) := by
  have stands : Stands (log ++ [.read reading]) := by
    intro other shown
    rw [shownBy_append] at shown
    apply (settled.stands other shown).append
    intro again member
    cases mem_singleton.mp member
    exact agrees other shown
  exact ⟨settled.lawful.snoc trivial, settled.steady.snoc stands, stands⟩

theorem Settled.showExit (settled : Settled log) (exit : SystemExit) :
    Settled (log ++ [.showExit (some exit)]) := by
  have stands : Stands (log ++ [.showExit (some exit)]) := by
    intro other shown
    rw [shownBy_append] at shown
    apply (settled.stands other shown).append
    intro again member
    cases mem_singleton.mp member
  exact ⟨settled.lawful.snoc trivial, settled.steady.snoc stands, stands⟩

theorem Settled.showRoute (settled : Settled log) (proven : ProvenBy log route)
    (exit : (shownBy log).exit.isSome) : Settled (log ++ [.showRoute (some route)]) := by
  have stands : Stands (log ++ [.showRoute (some route)]) := by
    intro other shown
    rw [shownBy_append] at shown
    cases shown
    apply proven.append
    intro again member
    cases mem_singleton.mp member
  exact ⟨settled.lawful.snoc ⟨proven, exit⟩, settled.steady.snoc stands, stands⟩

/-- Both publications of a withdrawal, once the route is no longer shown. -/
theorem Settled.clear (lawful : Lawful log) (steady : Steady (log ++ [.showRoute none])) :
    Settled (log ++ [.showRoute none] ++ [.showExit none]) := by
  have hidden : (shownBy (log ++ [.showRoute none])).route = none := by
    rw [shownBy_append]
    rfl
  have stands : Stands (log ++ [.showRoute none] ++ [.showExit none]) := by
    apply Stands.of_none
    rw [shownBy_append]
    exact hidden
  exact ⟨(lawful.snoc trivial).snoc hidden, steady.snoc stands, stands⟩

theorem Settled.withdraw (settled : Settled log) :
    Settled (log ++ [.showRoute none] ++ [.showExit none]) := by
  apply Settled.clear settled.lawful
  apply settled.steady.snoc
  apply Stands.of_none
  rw [shownBy_append]
  rfl

/-- The withdrawal that a reading asks for. -/
theorem Settled.read_withdraw (settled : Settled log) (reading : Option HostRoute) :
    Settled (log ++ [.read reading] ++ [.showRoute none] ++ [.showExit none]) :=
  .clear (settled.lawful.snoc trivial) (settled.steady.withdraw _)

structure Sound (watcher : RouteWatcher) : Prop where
  settled : Settled watcher.log
  standing : (shownBy watcher.log).route = watcher.standing
  asking : ∀ candidate, watcher.stage = .asking candidate → watcher.verdict = none

theorem note_two (watcher : RouteWatcher) (first second : RouteEvent) :
    (watcher.note [first, second]).log = watcher.log ++ [first] ++ [second] := by
  simp [note]

theorem Sound.start : Sound {} := ⟨⟨.nil, .nil, .of_none rfl⟩, rfl, nofun⟩

theorem Sound.consider (settled : Settled watcher.log) (hidden : (shownBy watcher.log).route = none)
    (verdict : watcher.verdict = none) (route : Option HostRoute)
    (now : Instant) : (watcher.consider route now).Sound := by
  have resting : Sound { watcher with stage := .resting } := by
    refine ⟨settled, ?_, fun _ _ => verdict⟩
    rw [hidden, RouteWatcher.standing, verdict]
    rfl
  cases route with
  | none => exact resting
  | some candidate =>
    rw [RouteWatcher.consider]
    split
    · refine ⟨settled, ?_, fun _ _ => verdict⟩
      rw [hidden, RouteWatcher.standing, verdict]
      rfl
    · exact resting

theorem Sound.withdrawn (settled : Settled watcher.withdraw.log)
    (route : Option HostRoute) (now : Instant) : (watcher.withdraw.consider route now).Sound := by
  apply Sound.consider settled _ rfl
  rw [withdraw, note_two, shownBy_append, shownBy_append]
  rfl

theorem Sound.turn (sound : watcher.Sound) (resting : watcher.stage = .resting)
    (reading : Option HostRoute) (now : Instant) : (watcher.turn reading now).Sound := by
  have shown : (shownBy watcher.log).route = watcher.verdict.map Prod.fst := by
    rw [sound.standing, RouteWatcher.standing, resting]
  have kept : (shownBy (watcher.log ++ [.read reading])).route = watcher.verdict.map Prod.fst := by
    rw [shownBy_append]
    exact shown
  rw [RouteWatcher.turn]
  split
  · rename_i none
    change watcher.verdict = .none at none
    rw [none] at shown kept
    have settled : Settled (watcher.note [.read reading]).log := by
      apply sound.settled.read
      rw [shown]
      nofun
    exact Sound.consider settled kept none reading now
  · rename_i proven since some
    change watcher.verdict = .some (proven, since) at some
    rw [some] at shown kept
    split
    · apply Sound.withdrawn
      rw [withdraw, note_two]
      exact sound.settled.read_withdraw reading
    · rename_i agrees
      have agrees : reading = .some proven := Decidable.not_not.mp agrees
      have settled : Settled (watcher.log ++ [.read reading]) := by
        apply sound.settled.read
        rw [shown]
        intro route same
        cases same
        exact agrees
      split
      · exact ⟨settled, kept, nofun⟩
      · refine ⟨settled, ?_, nofun⟩
        rw [RouteWatcher.standing]
        simp only [note, some]
        exact kept

theorem Settled.confirmed (settled : Settled watcher.log)
    (shown : ∀ other ∈ (shownBy watcher.log).route, other = route) :
    Settled (watcher.log ++ [.answered route (some exit)] ++ [.read (some route)]) := by
  apply (settled.hear route exit).read
  intro other here
  rw [shownBy_append] at here
  rw [shown other here]

theorem Sound.recheck (sound : watcher.Sound)
    (stage : watcher.stage = .rechecking proven) (exit : Option SystemExit)
    (reading : Option HostRoute) (now : Instant) : (watcher.answer exit reading now).Sound := by
  have shown : (shownBy watcher.log).route = some proven := by
    rw [sound.standing, RouteWatcher.standing, stage]
  rw [answer, stage]
  simp only
  cases exit with
  | none =>
    apply Sound.withdrawn
    rw [withdraw, note_two]
    exact (sound.settled.hear proven none).withdraw
  | some found =>
    by_cases same : reading = some proven
    · subst same
      simp only [confirmed, if_true]
      have settled : Settled (watcher.log ++ [.answered proven (some found)] ++
          [.read (some proven)]) := by
        apply sound.settled.confirmed
        rw [shown]
        intro other here
        cases here
        rfl
      have logged : (watcher.note [.answered proven (some found),
          .read (some proven)]).log = watcher.log ++
            [.answered proven (some found)] ++ [.read (some proven)] :=
        watcher.note_two _ _
      refine ⟨?_, ?_, nofun⟩
      · rw [← logged] at settled
        exact settled.showExit found
      · change (shownBy ((watcher.note _).log ++ _)).route = some proven
        rw [shownBy_append, logged, shownBy_append, shownBy_append]
        exact shown
    · simp only [confirmed, if_neg same]
      apply Sound.withdrawn
      rw [withdraw, note_two, note_two]
      exact (sound.settled.hear proven found).read_withdraw reading

theorem Sound.asked (sound : watcher.Sound)
    (stage : watcher.stage = .asking candidate) (exit : Option SystemExit)
    (reading : Option HostRoute) (now : Instant) : (watcher.answer exit reading now).Sound := by
  have verdict := sound.asking candidate stage
  have shown : (shownBy watcher.log).route = none := by
    rw [sound.standing, RouteWatcher.standing, stage, verdict]
    rfl
  have rests : ∀ log, Settled log → (shownBy log).route = none → Sound { watcher with
        refused := some (candidate, now), stage := .resting, log } := by
    intro log settled hidden
    refine ⟨settled, ?_, nofun⟩
    rw [hidden, RouteWatcher.standing, verdict]
    rfl
  rw [answer, stage]
  simp only
  cases exit with
  | none =>
    apply rests _ (sound.settled.hear candidate none)
    rw [shownBy_append]
    exact shown
  | some found =>
    have logged : ∀ reading, (watcher.note [.answered candidate (some found),
        .read reading]).log = watcher.log ++
          [.answered candidate (some found)] ++ [.read reading] :=
      fun _ => watcher.note_two _ _
    have hidden : ∀ reading, (shownBy (watcher.note
        [.answered candidate (some found), .read reading]).log).route = none := by
      intro reading
      rw [logged, shownBy_append, shownBy_append]
      exact shown
    have settled : ∀ reading, Settled (watcher.note
        [.answered candidate (some found), .read reading]).log := by
      intro reading
      rw [logged]
      apply (sound.settled.hear candidate found).read
      rw [shownBy_append]
      change ∀ route ∈ (shownBy watcher.log).route, _
      rw [shown]
      nofun
    by_cases same : reading = some candidate
    · subst same
      simp only [confirmed, if_true]
      have proven : ProvenBy ((watcher.note [.answered candidate (some found),
          .read (some candidate)]).log ++ [.showExit (some found)]) candidate := by
        apply (ProvenBy.confirmed watcher.log candidate found).append
        intro again member
        cases mem_singleton.mp member
      refine ⟨?_, ?_, nofun⟩
      · rw [note_two]
        apply ((settled _).showExit found).showRoute proven
        rw [shownBy_append]
        rfl
      · rw [note_two, shownBy_append]
        rfl
    · simp only [confirmed, if_neg same]
      exact rests _ (settled reading) (hidden reading)

theorem Sound.step (sound : watcher.Sound) (action : Action) : (watcher.step action).Sound := by
  cases action with
  | turn closed reading now =>
    rw [RouteWatcher.step]
    split
    · rename_i resting
      split
      · refine ⟨sound.settled, ?_, nofun⟩
        rw [sound.standing, RouteWatcher.standing, RouteWatcher.standing, resting]
      · exact sound.turn resting reading now
    · exact sound
  | answer exit reading now =>
    change (watcher.answer exit reading now).Sound
    cases stage : watcher.stage with
    | rechecking proven => exact sound.recheck stage exit reading now
    | asking candidate => exact sound.asked stage exit reading now
    | resting | ended =>
      rw [answer, stage]
      exact sound

theorem sound_run (actions : List Action) : (run actions).Sound :=
  run_invariant step Sound .start (fun _ action sound => sound.step action) actions

/-- For every sequence of readings and answers: a route is published only when it
is proven, it stays proven at every moment until its withdrawal is the next thing
to happen, and at every moment at which a route is published its exit is. -/
theorem published_proven (actions : List Action) : (∀ past route later,
      (run actions).log = past ++ .showRoute (some route) :: later → ProvenBy past route) ∧
    ∀ past later, (run actions).log = past ++ later →
      (Stands past ∨ ∃ rest, later = .showRoute none :: rest) ∧
      ((shownBy past).route.isSome = true → (shownBy past).exit.isSome = true) := by
  have sound := sound_run actions
  constructor
  · intro past route later split
    exact (sound.settled.lawful past _ later split).1
  · intro past later split
    refine ⟨sound.settled.steady past later split, ?_⟩
    have lawful : Lawful past := by
      intro before event after equal
      exact sound.settled.lawful before event (after ++ later) (by simp [split, equal])
    exact lawful.exit_shown

end RouteWatcher

/-! ## The route of the host

The watcher reads a route that changes on its own. A turn comes when the pause is
over, whatever a check does; an answer comes when the check ends. -/

structure RoutedHost where
  route : Option HostRoute
  watcher : RouteWatcher := {}
  deriving DecidableEq

namespace RoutedHost

inductive Action
  | change (route : Option HostRoute)
  | turn (closed : Bool) (now : Instant)
  | answer (exit : Option SystemExit) (now : Instant)
  deriving DecidableEq

def step (host : RoutedHost) : Action → RoutedHost
  | .change route => { host with route }
  | .turn closed now =>
    { host with watcher := host.watcher.step (.turn closed host.route now) }
  | .answer exit now =>
    { host with watcher := host.watcher.step (.answer exit host.route now) }

def run (route : Option HostRoute) (actions : List Action) : RoutedHost :=
  Execution.run step { route } actions

def published (host : RoutedHost) : Option HostRoute := (shownBy host.watcher.log).route

/-- While the published route is not the host's, the watcher's next turn withdraws
it, with no answer in between. -/
def Prompt (host : RoutedHost) : Prop :=
  ∀ route ∈ host.published, host.route ≠ some route → host.watcher.stage ≠ .ended →
    ∀ now, (host.step (.turn false now)).published = none

/-- The route does not change away from the one that is being checked again. -/
def Spared (host : RoutedHost) : Action → Prop
  | .change route => ∀ proven, host.watcher.stage = .rechecking proven → route = some proven
  | _ => True

def Aligned (host : RoutedHost) : Prop :=
  ∀ proven, host.watcher.stage = .rechecking proven → host.route = some proven

variable {host : RoutedHost}

theorem consider_rests (watcher : RouteWatcher) (route : Option HostRoute)
    (now : Instant) (proven : HostRoute) :
    (watcher.consider route now).stage ≠ .rechecking proven := by
  cases route with
  | none => nofun
  | some candidate =>
    rw [RouteWatcher.consider]
    split <;> nofun

theorem consider_log (watcher : RouteWatcher) (route : Option HostRoute)
    (now : Instant) : (watcher.consider route now).log = watcher.log := by
  cases route with
  | none => rfl
  | some candidate =>
    rw [RouteWatcher.consider]
    split <;> rfl

/-- A turn that begins a check again has just read its route. -/
theorem turn_aligned {watcher : RouteWatcher}
    (stage : (watcher.turn reading now).stage = .rechecking proven) : reading = some proven := by
  rw [RouteWatcher.turn] at stage
  split at stage
  · exact absurd stage (consider_rests _ _ _ _)
  · split at stage
    · exact absurd stage (consider_rests _ _ _ _)
    · rename_i agrees
      split at stage
      · cases stage
        exact Decidable.not_not.mp agrees
      · cases stage

theorem answer_rests (watcher : RouteWatcher) (exit : Option SystemExit)
    (reading : Option HostRoute) (now : Instant) (proven : HostRoute) :
    (watcher.answer exit reading now).stage ≠ .rechecking proven := by
  rw [RouteWatcher.answer]
  split
  · split
    · nofun
    · exact consider_rests _ _ _ _
  · split <;> nofun
  · rename_i stage
    rw [stage]
    nofun
  · rename_i stage
    rw [stage]
    nofun

/-- The published route of a watcher that is at rest is withdrawn by the turn that
reads another one. -/
theorem turn_withdraws (sound : host.watcher.Sound)
    (resting : host.watcher.stage = .resting) {route : HostRoute}
    (shown : host.published = some route) (moved : host.route ≠ some route)
    (now : Instant) : (host.step (.turn false now)).published = none := by
  have verdict := sound.standing
  rw [RouteWatcher.standing, resting, ← published, shown] at verdict
  rcases Option.map_eq_some_iff.mp verdict.symm with ⟨⟨proven, since⟩, here, rfl⟩
  have turned : (host.step (.turn false now)).watcher =
      (host.watcher.note [.read host.route]).withdraw.consider host.route now := by
    simp only [step, RouteWatcher.step, resting, if_true, Bool.false_eq_true,
      if_false, RouteWatcher.turn]
    rw [show (host.watcher.note [.read host.route]).verdict = some (proven, since) from here]
    simp only
    rw [if_pos moved]
  rw [published, turned, consider_log, RouteWatcher.withdraw,
    RouteWatcher.note_two, shownBy_append, shownBy_append]
  rfl

/-- The watcher is prompt exactly if what it checks again is the host's route. -/
theorem prompt_iff (sound : host.watcher.Sound) : host.Prompt ↔ host.Aligned := by
  constructor
  · intro prompt proven stage
    by_contra moved
    have shown : host.published = some proven := by
      rw [published, sound.standing, RouteWatcher.standing, stage]
    have withdrawn := prompt proven shown moved (by rw [stage]; nofun) 0
    have same : host.step (.turn false 0) = host := by
      simp only [step, RouteWatcher.step, stage, reduceCtorEq, if_false]
    rw [same, shown] at withdrawn
    cases withdrawn
  · intro aligned route shown moved running now
    have standing := sound.standing
    cases stage : host.watcher.stage with
    | resting => exact turn_withdraws sound stage shown moved now
    | rechecking proven =>
      rw [RouteWatcher.standing, stage, ← published, shown] at standing
      cases standing
      exact absurd (aligned _ stage) moved
    | asking candidate =>
      have verdict := sound.asking candidate stage
      rw [RouteWatcher.standing, stage, verdict, ← published, shown] at standing
      cases standing
    | ended => exact absurd stage running

theorem aligned_step_iff (aligned : host.Aligned) (action : Action) :
    (host.step action).Aligned ↔ host.Spared action := by
  cases action with
  | change route => exact Iff.rfl
  | turn closed now =>
    refine ⟨fun _ => trivial, fun _ => ?_⟩
    intro proven stage
    change (host.watcher.step _).stage = _ at stage
    rw [RouteWatcher.step] at stage
    split at stage
    · split at stage
      · cases stage
      · exact turn_aligned stage
    · exact aligned proven stage
  | answer exit now =>
    refine ⟨fun _ => trivial, fun _ => ?_⟩
    intro proven stage
    exact absurd stage (answer_rests _ _ _ _ _)

theorem sound_step (sound : host.watcher.Sound) (action : Action) :
    (host.step action).watcher.Sound := by
  cases action with
  | change route => exact sound
  | turn closed now => exact sound.step (.turn closed host.route now)
  | answer exit now => exact sound.step (.answer exit host.route now)

/-- For every behaviour of the route and every duration of the checks: at every
moment the watcher would withdraw a route that is not the host's without waiting
for a check, exactly if the route never changes away from one that is being
checked again. -/
theorem withdrawal_prompt_iff (route : Option HostRoute) (actions : List Action) :
    (∀ past later, actions = past ++ later → (run route past).Prompt) ↔
      Execution.Guarded step Spared { route } actions := by
  apply everywhere_iff step (fun _ => True) (fun host => host.watcher.Sound) Prompt
  · exact .start
  · exact (prompt_iff .start).mpr nofun
  · intro host action _ sound
    exact sound_step sound action
  · intro host action _ sound prompt
    rw [prompt_iff (sound_step sound action)]
    exact aligned_step_iff ((prompt_iff sound).mp prompt) action
  · intro _ _
    trivial

end RoutedHost

namespace Sample

def tunnel : HostRoute := ⟨⟨0x0a42004f⟩, ⟨14, by decide⟩, "utun14"⟩

def france : SystemExit := ⟨some "FR", some "Paris"⟩

/-- The route is published; thirty seconds later it is checked again, and changes
while the check is pending. -/
def moved : RoutedHost :=
  RoutedHost.run (some tunnel) [.turn false 0, .answer (some france) 1, .turn false 30000000001,
      .change none]

end Sample

/-- However many turns pass, the route stays published until the check ends. -/
theorem RoutedHost.recheck_holds_route :
    Sample.moved.published = some Sample.tunnel ∧ Sample.moved.route = none ∧ ¬Sample.moved.Prompt ∧
      ∀ nows : List Instant, Execution.run RoutedHost.step Sample.moved
          (nows.map fun now => .turn false now) = Sample.moved := by
  refine ⟨by decide, rfl, ?_, ?_⟩
  · intro prompt
    have withdrawn := prompt Sample.tunnel (by decide) (by decide) (by decide) 0
    exact absurd withdrawn (by decide)
  · intro nows
    induction nows with
    | nil => rfl
    | cons now nows induction => exact induction

end WarrenSdk.Sdk
