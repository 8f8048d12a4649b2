import WarrenSdk.Bolthole.Device.Protocol

/-! # The gate over the epochs

What every interleaving of the calls on a device keeps: an open gate is the
current generation's, and was opened for it after it was published. A sink that
is dropped reads whether it is stale before it takes the lock, so it leaves the
gate of a later epoch alone only if none is published in between. -/

namespace WarrenSdk.Bolthole.Device

open Interleaving List

def publications (log : List Event) : List UInt64 :=
  log.filterMap fun
    | .published generation => some generation
    | _ => none

theorem publications_append (log events : List Event) :
    publications (log ++ events) = publications log ++ publications events :=
  filterMap_append

theorem publications_quiet (quiet : ∀ event ∈ events, event.isQuiet) :
    publications events = [] := by
  apply filterMap_eq_nil_iff.mpr
  intro event member
  cases event with
  | published => cases quiet _ member
  | _ => rfl

/-- The log accounts for the generation, and for a gate that is open. -/
structure Accounted (log : List Event) (view : View) : Prop where
  generation : (publications log).getLast?.getD 0 = view.generation
  opened : view.gate.open = true → ∃ earlier between,
    log = earlier ++ .opened view.gate.generation :: between ∧ publications between = []

section Moves

variable {view after : View}

theorem Accounted.unmoved (accounted : Accounted log view) (gate : after.gate = view.gate)
    (generation : after.generation = view.generation)
    (silent : publications events = []) : Accounted (log ++ events) after where
  generation := by
    rw [publications_append, silent, append_nil, generation]
    exact accounted.generation
  opened := by
    rw [gate]
    intro isOpen
    rcases accounted.opened isOpen with ⟨earlier, between, split, unpublished⟩
    refine ⟨earlier, between ++ events, ?_, ?_⟩
    · simp [split]
    · rw [publications_append, unpublished, silent]
      rfl

theorem Accounted.shut (accounted : Accounted log view) (shut : after.gate.open = false)
    (generation : after.generation = view.generation)
    (silent : publications events = []) : Accounted (log ++ events) after where
  generation := by
    rw [publications_append, silent, append_nil, generation]
    exact accounted.generation
  opened := by
    intro isOpen
    rw [shut] at isOpen
    cases isOpen

theorem Touch.accounted (touch : Touch place view stage after behind events)
    (held : Held view place stage) (accounted : Accounted log view) :
    Accounted (log ++ events) after := by
  cases touch with
  | rests quiet => exact accounted.unmoved rfl rfl (publications_quiet quiet)
  | waits | releases | asks | «matches» | differs | refuses | locks | loads |
    checks => exact accounted.unmoved rfl rfl rfl
  | begins | closes | drops => exact accounted.shut rfl rfl rfl
  | publishes =>
    constructor
    · simp [publications]
    · intro isOpen
      rw [held.2] at isOpen
      cases isOpen
  | opens =>
    constructor
    · rw [publications_append, ← accounted.generation]
      simp [publications]
    · intro _
      exact ⟨log, [], rfl, rfl⟩

end Moves

/-! ## Every interleaving -/

structure Kept (world : World (Device noise) Pc Event) : Prop where
  held : Each (fun device place pc => Held device.view place pc.stage) world
  current : Current world.shared.view
  accounted : Accounted world.log world.shared.view

theorem enter_stage (call : Call) : (enter call).stage = .outside := by cases call <;> rfl

variable {nat : NatConfig} {device : Device noise}

theorem step_kept (kept : Kept world) (action : Action Call (Input noise)) :
    Kept (step (program engine) world action) := by
  apply step_rule
  · exact kept
  · intro call _
    refine ⟨kept.held.started ?_, kept.current, kept.accounted⟩
    simp [program, enter_stage, Held]
  · intro place input pc outcome _ here taken
    have touch := next_touch taken
    have held := kept.held place pc here
    constructor
    · apply kept.held.advanced (touch.own held)
      intro other standing different _
      exact touch.others held different
    · exact touch.current held kept.current
    · exact touch.accounted held kept.accounted

theorem new_view (built : Device.new ambient conf plan options indexes nat ipv6 = .ok device)
    : device.view = ⟨{}, 0, none⟩ := by
  rcases new_ok built with ⟨responder, opened, rfl⟩
  have setup := Responder.withIndexes_setup opened
  simp only [Responder.setup, Prod.mk.injEq] at setup
  simp [view, idle, setup]

theorem run_kept (fresh : device.view = ⟨{}, 0, none⟩)
    (schedule : List (Action Call (Input noise))) : Kept (run engine device schedule) := by
  apply Execution.run_invariant
  · refine ⟨?_, ?_, ?_⟩
    · intro place pc here
      cases here
    · simp [Current, start, fresh]
    · constructor
      · simp [start, fresh, publications]
      · simp [start, fresh]
  · intro world action kept
    exact step_kept kept action

/-- In every interleaving an open gate is the current generation's, and it was
opened for that generation after the last publication: the generation's own, or
none, for a device that serves no epoch yet and counts as generation 0. -/
theorem open_gate_is_current {ambient : noise.Ambient} {conf : GatewayConf}
    {plan : PeerPlan} {options : ResponderOptions} {indexes : IndexGen}
    {nat : NatConfig} {ipv6 : Bool} {device : Device noise}
    (built : Device.new ambient conf plan options indexes nat ipv6 = .ok device)
    (schedule : List (Action Call (Input noise)))
    (isOpen : (run engine device schedule).shared.responder.gate.open = true) :
    let world := run engine device schedule
    let generation := world.shared.responder.gate.generation
    generation = world.shared.generation ∧ ∃ earlier between,
        world.log = earlier ++ .opened generation :: between ∧ publications between = [] ∧
        ((publications earlier).getLast? = some generation ∨
          publications earlier = [] ∧ generation = 0) := by
  intro world generation
  have kept : Kept world := run_kept (new_view built) schedule
  have current : generation = world.shared.generation := kept.current isOpen
  rcases kept.accounted.opened isOpen with ⟨earlier, between, split, unpublished⟩
  refine ⟨current, earlier, between, split, unpublished, ?_⟩
  have published : (publications earlier).getLast?.getD 0 = generation := by
    rw [current]
    refine Eq.trans ?_ kept.accounted.generation
    rw [split, publications_append]
    change _ = (publications earlier ++ publications between).getLast?.getD 0
    rw [unpublished, append_nil]
  cases last : (publications earlier).getLast? with
  | none =>
    rw [last] at published
    exact .inr ⟨List.getLast?_eq_none_iff.mp last, published.symm⟩
  | some found =>
    rw [last] at published
    exact .inl (congrArg some published)

/-- An epoch begins, and the gate is opened for it. -/
theorem open_gate_is_current_opened :
    let world := run Responder.Sample.engine Sample.device
      (Sample.begins 0 7 2 ++ Sample.opens 1 7)
    world.shared.responder.gate = ⟨true, 7⟩ ∧ world.shared.generation = 7 ∧ ∃ earlier between,
        world.log = earlier ++ .opened 7 :: between ∧ publications between = [] ∧
        ((publications earlier).getLast? = some 7 ∨
          publications earlier = [] ∧ (7 : UInt64) = 0) := by
  intro world
  have gate : world.shared.responder.gate = ⟨true, 7⟩ := by decide +kernel
  have isOpen : world.shared.responder.gate.open = true := by rw [gate]
  have holds := open_gate_is_current Sample.built (Sample.begins 0 7 2 ++ Sample.opens 1 7) isOpen
  simp only [world, gate] at holds
  exact ⟨gate, holds.1.symm, holds.2⟩

/-- The gate is opened before the first epoch, for generation 0, which nothing
ever publishes. -/
theorem gate_opens_unpublished :
    let world := run Responder.Sample.engine Sample.device (Sample.opens 0 0)
    world.shared.responderLock = none ∧ world.shared.responder.gate = ⟨true, 0⟩ ∧
      world.log = [.opened 0] := by
  decide +kernel

/-! ## Stale sinks -/

/-- What ends an opening of the gate for a generation: an epoch begins, the
gate is closed, or the sink of the generation is dropped. -/
def Event.ends (generation : UInt64) : Event → Bool
  | .began _ | .closed _ => true
  | .dropped other _ => other = generation
  | .published _ | .opened _ | .received .. | .sent .. => false

/-- The gate is as it was last opened, unless something ended that. -/
def Steady (log : List Event) (view : View) : Prop :=
  ∀ earlier generation between, log = earlier ++ .opened generation :: between →
    (∀ event ∈ between, event.ends generation = false) → view.gate = ⟨true, generation⟩

/-- A sink that was dropped after the gate was opened for a later generation
left it open, unless something else ended the opening. -/
def StaleSinksInert (world : World (Device noise) Pc Event) : Prop :=
  ∀ earlier later between stale shut, world.log = earlier ++ .opened later :: between →
    .dropped stale shut ∈ between → stale < later → (∀ event ∈ between, event.ends later = false) →
    world.shared.responder.gate = ⟨true, later⟩

theorem StaleSinksInert.of_steady (steady : Steady world.log world.shared.view)
    : StaleSinksInert world :=
  fun earlier later between _ _ split _ _ calm => steady earlier later between split calm

/-- A move keeps the gate as it was opened, if a sink that shuts it is still the
current one's. -/
theorem Touch.steady {view after : View} (touch : Touch place view stage after behind events)
    (held : Held view place stage) (current : Current view)
    (timely : ∀ generation, stage = .dropping generation →
      view.generation = generation) (steady : Steady log view) :
    Steady (log ++ events) after := by
  intro earlier generation between split calm
  rcases log_split split with ⟨front, before, rfl⟩ | ⟨front, before, fresh⟩
  · have gate : view.gate = ⟨true, generation⟩ :=
      steady earlier generation front before fun event member =>
        calm event (mem_append_left _ member)
    have same : generation = view.generation := by simpa [gate] using current (by rw [gate])
    cases touch with
    | rests | waits | publishes | releases | asks | «matches» | differs |
      refuses | locks | loads | checks => exact gate
    | opens =>
      rw [same]
      exact congrArg (Gate.mk true) held.2.symm
    | begins | closes => cases calm _ (mem_append_right _ (.head _))
    | drops =>
      have ended := calm _ (mem_append_right _ (.head _))
      rw [same, timely _ rfl] at ended
      simp [Event.ends] at ended
  · have member : .opened generation ∈ events := by simp [fresh]
    cases touch with
    | rests quiet => cases quiet _ member
    | opens =>
      cases mem_singleton.mp member
      rfl
    | begins | publishes | closes | drops => cases mem_singleton.mp member
    | waits | releases | asks | «matches» | differs | refuses | locks | loads |
      checks => cases member

def Pc.isTimely (generation : UInt64) : Pc → Bool
  | .dropGate _ sink => sink = generation
  | _ => true

/-- A sink that was current when it was checked is still current when it shuts
the gate. -/
def Timely (world : World (Device noise) Pc Event) : Action Call (Input noise) → Prop
  | .start _ => True
  | .advance place _ => (world.calls[place]?).all (Pc.isTimely world.shared.generation) = true

instance (world : World (Device noise) Pc Event) :
    (action : Action Call (Input noise)) → Decidable (Timely world action)
  | .start _ => isTrue trivial
  | .advance _ _ => inferInstanceAs (Decidable (_ = true))

theorem step_steady (kept : Kept world)
    (steady : Steady world.log world.shared.view) (timely : Timely world action) :
    let after := step (program engine) world action
    Steady after.log after.shared.view := by
  apply step_rule (program engine) fun after => Steady after.log after.shared.view
  · exact steady
  · intro _ _
    exact steady
  · intro place input pc outcome equal here taken
    subst equal
    apply (next_touch taken).steady (kept.held place pc here) kept.current _ steady
    intro generation dropping
    simp only [Timely, here, Option.all_some] at timely
    cases pc with
    | dropGate key sink =>
      cases dropping
      exact (of_decide_eq_true timely).symm
    | _ => cases dropping

/-- In every interleaving in which each sink that shuts the gate is still the
current one's, a stale sink leaves the gate of a later epoch alone. -/
theorem stale_sinks_inert {ambient : noise.Ambient} {conf : GatewayConf}
    {plan : PeerPlan} {options : ResponderOptions} {indexes : IndexGen}
    {nat : NatConfig} {ipv6 : Bool} {device : Device noise}
    (built : Device.new ambient conf plan options indexes nat ipv6 = .ok device)
    (schedule : List (Action Call (Input noise)))
    (timely : Execution.Guarded (step (program engine)) Timely (start device) schedule) :
    StaleSinksInert (run engine device schedule) := by
  apply StaleSinksInert.of_steady
  apply Execution.run_history (step (program engine))
    (fun _ world => Steady world.log world.shared.view)
  · intro earlier generation between split
    simp [start] at split
  · intro past action steady allowed
    exact step_steady (run_kept (new_view built) past) steady allowed
  · exact timely

def Sample.lateDrop : List (Action Call (Input Sample.noise)) :=
  Sample.begins 0 1 2 ++ Sample.begins 1 2 3 ++ Sample.opens 2 2 ++
    .start (.dropSink 0) :: Sample.advances 3 5

theorem stale_sinks_inert_dropped :
    let world := run Responder.Sample.engine Sample.device Sample.lateDrop
    world.log = [.began 1, .published 1, .began 2, .published 2, .opened 2, .dropped 1 false] ∧
      StaleSinksInert world := by
  intro world
  constructor
  · decide +kernel
  · apply stale_sinks_inert Sample.built Sample.lateDrop
    decide +kernel

/-- The sink of the first epoch finds itself current, and shuts the gate after
it was opened for the second one. -/
theorem stale_sink_shuts_gate :
    let world := run Responder.Sample.engine Sample.device
      (Sample.begins 0 1 2 ++ .start (.dropSink 0) :: Sample.advances 1 5 ++
        Sample.begins 2 2 3 ++ Sample.opens 3 2 ++ Sample.advances 1 1)
    world.log = [.began 1, .published 1, .began 2, .published 2, .opened 2, .dropped 1 true] ∧
      world.shared.generation = 2 ∧ world.shared.responder.gate = ⟨false, 1⟩ ∧
      ¬ StaleSinksInert world := by
  intro world
  have log : world.log = [.began 1, .published 1, .began 2, .published 2,
      .opened 2, .dropped 1 true] := by decide +kernel
  have gate : world.shared.responder.gate = ⟨false, 1⟩ := by decide +kernel
  refine ⟨log, by decide +kernel, gate, ?_⟩
  intro inert
  have kept := inert [.began 1, .published 1, .began 2, .published 2] 2
    [.dropped 1 true] 1 true log (by simp) (by decide) (by decide)
  rw [gate] at kept
  cases kept

end WarrenSdk.Bolthole.Device
