import WarrenSdk.Bolthole.Device.Gate
import WarrenSdk.Bolthole.Device.Turnover

/-! # Proving an epoch before its gate is opened

The daemon reads the generation, sends a query over the control plane of the
device and opens the gate for the generation it has read once the query is
answered. The generation and the control plane are published by different steps
of an epoch that begins, and they are read by different steps here. Runs of the
prover interleave with every other call on the device. -/

namespace WarrenSdk.Bolthole

open Interleaving List Option

/-- Nothing but a proof opens the gate. -/
def Device.Call.opensGate : Device.Call → Bool
  | .openGateFor _ => true
  | _ => false

namespace Proving

open Net

/-! ## The steps of the prover -/

/-- The probe: how often it is tried, the packet that carries the query of an
attempt, and the payloads that answer it. -/
structure Probe where
  attempts : Nat
  packet : (src dst : SocketAddr) → (txid : UInt16) → Option (List UInt8)
  isMatching : List UInt8 → (txid : UInt16) → Bool

def dnsPort : UInt16 := 53

def txid (attempt : Nat) : UInt16 :=
  if attempt < 2 ^ 16 then .ofNat attempt else 0xffff

/-- A proof under way: the generation that was read, and the control plane that
the queries go over. -/
structure Run where
  generation : UInt64
  clientMtu : UInt16
  key : Nat
  resolver : SocketAddr
  attempt : Nat

inductive Call
  | other (call : Device.Call) (shut : call.opensGate = false)
  | proveAndOpen (clientMtu : UInt16)

inductive Pc
  | device (pc : Device.Pc)
  | load (clientMtu : UInt16)
  | address (generation : UInt64) (clientMtu : UInt16)
  | choose (generation : UInt64) (clientMtu : UInt16) (addressing : Option EpochAddressing)
  | opening (run : Run) (pc : ControlClosing.Pc)
  | sending (run : Run) (flow : RawUdpFlow)
  | receiving (run : Run) (flow : RawUdpFlow)
  | hangUp (run : Run) (flow : RawUdpFlow) (proven : Bool)
  | budget (generation : UInt64) (clientMtu : UInt16)
  | failed

/-- A query was answered over the control plane of an epoch. -/
inductive Event
  | device (event : Device.Event)
  | proved (key : Nat)
  deriving DecidableEq

def Event.provedOver : Event → Option Nat
  | .proved key => some key
  | .device _ => none

/-- Beside what the device reads: the addressing that was last announced, and
whether a deadline has passed. -/
structure Input (noise : Noise) where
  device : Device.Input noise
  addressing : Option EpochAddressing
  expired : Bool

abbrev Stepped (noise : Noise) := Interleaving.Outcome (Device noise) Pc Event

variable {noise : Noise} (engine : ChecksumEngine) (probe : Probe)

def enter : Call → Pc
  | .other call _ => .device (Device.enter call)
  | .proveAndOpen clientMtu => .load clientMtu

def Probe.again (run : Run) : Pc :=
  if run.attempt < probe.attempts then
    .opening { run with attempt := run.attempt + 1 } .openCheck
  else .failed

def Probe.choose (device : Device noise) (generation : UInt64)
    (clientMtu : UInt16) (addressing : Option EpochAddressing) : Pc :=
  match addressing, device.control with
  | some addressing, some key =>
    probe.again {
      generation, clientMtu, key
      resolver := ⟨.v4 addressing.gateway, dnsPort⟩
      attempt := 0 }
  | _, _ => .failed

def Probe.opened (run : Run) : ControlClosing.Pc → Pc
  | .opened flow => .sending run flow
  | .refused _ => probe.again run
  | pc => .opening run pc

/-- Hand the query to the tunnel. A packet that cannot be built or does not fit
is lost; without its receiver the flow is over. -/
def Probe.send (device : Device noise) (run : Run) (flow : RawUdpFlow)
    (epoch : Epoch) : Stepped noise :=
  match probe.packet flow.local run.resolver (txid run.attempt) with
  | none => { shared := device, pc := .receiving run flow }
  | some packet =>
    if epoch.receiving then
      { shared := device.modifyEpoch run.key fun epoch => epoch.inject packet
        pc := .receiving run flow }
    else { shared := device, pc := .hangUp run flow false }

/-- Take what came for the flow; a datagram that does not answer the query is
left aside. -/
def Probe.receive (device : Device noise) (run : Run) (flow : RawUdpFlow)
    (epoch : Epoch) : Stepped noise :=
  let (received, demux) := epoch.control.demux.recvFrom flow
  let device := device.modifyEpoch run.key fun epoch =>
    { epoch with control.demux := demux }
  match received with
  | .datagram payload _ =>
    if probe.isMatching payload (txid run.attempt) then
      { shared := device
        pc := .hangUp run flow true
        events := [.proved run.key] }
    else { shared := device, pc := .receiving run flow }
  | .over => { shared := device, pc := .hangUp run flow false }
  | .waiting => { shared := device, pc := .receiving run flow }

def budgetReached (device : Device noise) (clientMtu : UInt16) : Bool :=
  device.innerBudget ≠ 0 && clientMtu.toNat ≤ device.innerBudget

def lift (stepped : Device.Stepped noise) : Stepped noise where
  shared := stepped.shared
  pc := .device stepped.pc
  events := stepped.events.map .device

def next (device : Device noise) (place : Nat) (pc : Pc)
    (input : Input noise) : Option (Stepped noise) :=
  match pc with
  | .device pc => (Device.next engine device place pc input.device).map lift
  | .load clientMtu => some { shared := device, pc := .address device.generation clientMtu }
  | .address generation clientMtu =>
    some {
      shared := device
      pc := .choose generation clientMtu input.addressing }
  | .choose generation clientMtu addressing =>
    some {
      shared := device
      pc := probe.choose device generation clientMtu addressing }
  | .opening run pc =>
    (device.epochs.get run.key).bind fun epoch =>
      (ControlClosing.next epoch.control pc).map fun outcome =>
        { shared := device.modifyEpoch run.key fun epoch =>
            { epoch with control := outcome.shared }
          pc := probe.opened run outcome.pc }
  | .sending run flow => (device.epochs.get run.key).map (probe.send device run flow)
  | .receiving run flow =>
    if input.expired then
      some { shared := device, pc := .hangUp run flow false }
    else (device.epochs.get run.key).map (probe.receive device run flow)
  | .hangUp run flow proven =>
    some {
      shared := device.modifyEpoch run.key fun epoch =>
        { epoch with control := epoch.control.dropFlow flow }
      pc := if proven then .budget run.generation run.clientMtu
        else probe.again run }
  | .budget generation clientMtu =>
    some {
      shared := device
      pc := if input.expired || budgetReached device clientMtu then
          .device (.openLock generation)
        else .budget generation clientMtu }
  | .failed => none

def program : Program (Device noise) Pc Event Call (Input noise) where
  enter := enter
  next := next engine probe

def start (device : Device noise) : World (Device noise) Pc Event where
  shared := device
  calls := []
  log := []

def run (device : Device noise) (schedule : List (Action Call (Input noise))) :
    World (Device noise) Pc Event :=
  Interleaving.run (program engine probe) (start device) schedule

/-! ## What the daemon promises -/

def Call.begins : Call → Bool
  | .other (.beginEpoch _) _ => true
  | _ => false

def Pc.isBeginning : Pc → Bool
  | .device (.beginLoad _) | .device (.beginNat ..)
  | .device (.beginLock ..) | .device (.beginBudget ..)
  | .device (.beginPublish ..) | .device (.beginUnlock ..)
  | .device (.beginQueue ..) | .device (.beginControl _) => true
  | _ => false

/-- An epoch begins when the sinks of all epochs before it have been dropped. -/
def Supervised (world : World (Device noise) Pc Event) : Action Call (Input noise) → Prop
  | .start call => call.begins = true → (∀ pc ∈ world.calls, pc.isBeginning = false) ∧
      ∀ entry ∈ world.shared.epochs.toList, entry.2.receiving = false
  | .advance _ _ => True

instance (world : World (Device noise) Pc Event) :
    (action : Action Call (Input noise)) → Decidable (Supervised world action)
  | .start _ => inferInstanceAs (Decidable (_ → _ ∧ _))
  | .advance _ _ => isTrue trivial

def Pc.isLoading : Pc → Bool
  | .device (.beginLoad _) => true
  | _ => false

/-- No epoch begins behind the last generation. -/
def Unwrapped (world : World (Device noise) Pc Event) : Action Call (Input noise) → Prop
  | .start _ => True
  | .advance place _ => (world.calls[place]?).any Pc.isLoading = true →
    world.shared.generation ≠ Device.lastGeneration

instance (world : World (Device noise) Pc Event) :
    (action : Action Call (Input noise)) → Decidable (Unwrapped world action)
  | .start _ => isTrue trivial
  | .advance _ _ => inferInstanceAs (Decidable (_ → _))

/-- A query was answered over the control plane of an epoch that was begun for
the generation. -/
def Proven (world : World (Device noise) Pc Event) (generation : UInt64) :
    Prop :=
  ∃ key epoch, world.shared.epochs.get key = some epoch ∧
    epoch.generation = generation ∧ .proved key ∈ world.log

/-! ## What a proof has to show -/

inductive Evidence
  | nothing
  | since (generation : UInt64)
  | carried (key : Nat) (generation : UInt64)
  | proved (generation : UInt64)

/-- The epoch was not begun before the generation. -/
def Carried (view : Turnovers) (key : Nat) (generation : UInt64) : Prop :=
  ∃ plane, view.planes key = some plane ∧ generation ≤ plane.generation

def Evidence.Holds (log : List Event) (view : Turnovers) : Evidence → Prop
  | .nothing => True
  | .since generation => generation ≤ view.generation
  | .carried key generation => Carried view key generation
  | .proved generation => ∃ key, .proved key ∈ log ∧ Carried view key generation

def Pc.evidence : Pc → Evidence
  | .address generation _ | .choose generation _ _ => .since generation
  | .opening run .openCheck => .since run.generation
  | .opening run _ | .sending run _ | .receiving run _
  | .hangUp run _ false => .carried run.key run.generation
  | .hangUp run _ true => .proved run.generation
  | .budget generation _ => .proved generation
  | .device pc =>
    match pc.phase with
    | .asking generation => .proved generation
    | _ => .nothing
  | .load _ | .failed => .nothing

section Evidence

variable {after : Turnovers}

theorem Carried.turn (turn : Turn place view phase after behind)
    (standing : view.Standing place phase) (carried : Carried view key generation) :
    Carried after key generation := by
  rcases carried with ⟨plane, there, above⟩
  rcases Turnovers.planes_turn turn standing there with ⟨later, now, same, _⟩
  exact ⟨later, now, by rw [same]; exact above⟩

/-- No call takes away what another one has to show. -/
theorem Evidence.Holds.turn (turn : Turn place view phase after behind)
    (standing : view.Standing place phase) {evidence : Evidence} (holds : evidence.Holds log view) :
    evidence.Holds (log ++ events) after := by
  cases evidence with
  | nothing => trivial
  | since generation => exact UInt64.le_trans holds (Turnovers.generation_turn turn standing)
  | carried key generation => exact Carried.turn turn standing holds
  | proved generation =>
    rcases holds with ⟨key, answered, carried⟩
    exact ⟨key, mem_append_left _ answered, carried.turn turn standing⟩

theorem Carried.since (fresh : view.Fresh) (carried : Carried view key generation) :
    generation ≤ view.generation := by
  rcases carried with ⟨plane, there, above⟩
  exact UInt64.le_trans above (fresh.past key plane there)

end Evidence

variable {pc : Pc} {world : World (Device noise) Pc Event}

theorem again_evidence {run : Run} (since : run.generation ≤ view.generation) :
    (probe.again run).evidence.Holds log view := by
  rw [Probe.again]
  split
  · exact since
  · trivial

/-! ## Every step -/

def Pc.stage : Pc → Device.Stage
  | .device pc => pc.stage
  | _ => .outside

def Pc.phase : Pc → Phase
  | .device pc => pc.phase.unasked
  | _ => .aside

/-- What the calls rely on and what the proofs have to show, at a place. -/
structure Sound (log : List Event) (device : Device noise) (place : Nat) (pc : Pc) : Prop where
  held : Device.Held device.view place pc.stage
  standing : device.turnovers.Standing place pc.phase
  evidence : pc.evidence.Holds log device.turnovers

/-- What a step of a call is to the gate, to the epochs and to the proofs. -/
structure Advance (log : List Event) (device : Device noise) (place : Nat)
    (pc : Pc) (stepped : Stepped noise) : Prop where
  touch : ∃ events, Device.Touch place device.view pc.stage
    stepped.shared.view stepped.pc.stage events
  turn : Turn place device.turnovers pc.phase stepped.shared.turnovers stepped.pc.phase
  evidence : stepped.pc.evidence.Holds (log ++ stepped.events) stepped.shared.turnovers

theorem again_stage (run : Run) : (probe.again run).stage = .outside := by
  rw [Probe.again]
  split <;> rfl

theorem again_phase (run : Run) : (probe.again run).phase = .aside := by
  rw [Probe.again]
  split <;> rfl

theorem Advance.calm (outside : pc.stage = .outside) (aside : pc.phase = .aside)
    (view : stepped.shared.view = device.view)
    (turnovers : stepped.shared.turnovers = device.turnovers)
    (stage : stepped.pc.stage = .outside) (phase : stepped.pc.phase = .aside)
    (evidence : stepped.pc.evidence.Holds (log ++ stepped.events)
      device.turnovers) : Advance log device place pc stepped where
  touch := by
    rw [outside, view, stage]
    exact ⟨[], .rests (by simp)⟩
  turn := by
    rw [aside, turnovers, phase]
    exact .rests
  evidence := by
    rw [turnovers]
    exact evidence

theorem Evidence.Holds.grow {view : Turnovers} {evidence : Evidence}
    (holds : evidence.Holds log view) (events : List Event) : evidence.Holds (log ++ events) view :=
  holds.turn (.rests : Turn 0 view .aside view .aside) trivial

section Steps

variable {engine probe}

theorem device_advance {pc : Device.Pc} (sound : Sound log device place (.device pc))
    (taken : next engine probe device place (.device pc) input = some outcome) :
    Advance log device place (.device pc) outcome := by
  rcases map_eq_some_iff.mp taken with ⟨stepped, inner, rfl⟩
  have turn := Device.next_turn inner
  refine ⟨⟨_, Device.next_touch inner⟩, turn.unasked, ?_⟩
  cases behind : stepped.pc.phase with
  | asking generation =>
    rw [behind] at turn
    have asked := Turnovers.asking_turn turn
    have shown := sound.evidence
    simp only [Pc.evidence, asked] at shown
    simp only [lift, Pc.evidence, behind]
    exact shown.turn turn.unasked sound.standing
  | _ =>
    simp only [lift, Pc.evidence, behind]
    trivial

theorem choose_advance {clientMtu : UInt16}
    (sound : Sound log device place (.choose generation clientMtu addressing)) :
    Advance log device place (.choose generation clientMtu addressing)
      { shared := device
        pc := probe.choose device generation clientMtu addressing } := by
  cases addressing with
  | none => exact .calm rfl rfl rfl rfl rfl rfl trivial
  | some addressing =>
    cases known : device.control with
    | none =>
      simp only [Probe.choose, known]
      exact .calm rfl rfl rfl rfl rfl rfl trivial
    | some key =>
      simp only [Probe.choose, known]
      exact .calm rfl rfl rfl rfl (again_stage probe _) (again_phase probe _)
        (again_evidence probe sound.evidence)

/-- Whether the plane is alive is read behind the generation: a plane that is
alive is not of an earlier one. -/
theorem opening_advance {run : Run} {pc : ControlClosing.Pc} (fresh : device.turnovers.Fresh)
    (sound : Sound log device place (.opening run pc))
    (taken : next engine probe device place (.opening run pc) input = some outcome) :
    Advance log device place (.opening run pc) outcome := by
  rcases bind_eq_some_iff.mp taken with ⟨epoch, there, stepped⟩
  clear taken
  rcases map_eq_some_iff.mp stepped with ⟨inner, taken, rfl⟩
  have turn := Device.control_turn there place taken
  have plane : device.turnovers.planes run.key = some epoch.plane := by
    simp [Device.turnovers, there]
  have shown := sound.evidence
  cases pc with
  | openCheck =>
    simp only [ControlClosing.next] at taken
    split at taken <;> cases taken
    · rename_i alive
      have carried : Carried device.turnovers run.key run.generation := by
        refine ⟨epoch.plane, plane, ?_⟩
        rw [fresh.alive run.key epoch.plane plane alive]
        exact shown
      exact ⟨⟨[], .rests (by simp)⟩, turn, carried.turn turn trivial⟩
    · refine ⟨⟨[], ?_⟩, ?_, ?_⟩
      · simp only [Probe.opened, again_stage]
        exact .rests (by simp)
      · simp only [Probe.opened, again_phase]
        exact turn
      · apply again_evidence
        exact UInt64.le_trans shown (Turnovers.generation_turn turn trivial)
  | openPort | openToken | openRegister | closeStop | closeFlows | delivering | dropping =>
    cases taken
    exact ⟨⟨[], .rests (by simp)⟩, turn, Carried.turn turn trivial shown⟩
  | opened | refused | closed | delivered | dropped => cases taken

theorem send_advance {run : Run} {flow : RawUdpFlow}
    (sound : Sound log device place (.sending run flow)) :
    Advance log device place (.sending run flow) (probe.send device run flow epoch) := by
  have shown := sound.evidence
  rw [Probe.send]
  split
  · exact .calm rfl rfl rfl rfl rfl rfl (shown.grow _)
  · split
    · refine .calm rfl rfl rfl (Device.turnovers_modify_same device run.key _
        fun epoch _ => ?_) rfl rfl (shown.grow _)
      rw [Epoch.inject]
      split <;> rfl
    · exact .calm rfl rfl rfl rfl rfl rfl (shown.grow _)

theorem receive_advance {run : Run} {flow : RawUdpFlow}
    (sound : Sound log device place (.receiving run flow)) :
    Advance log device place (.receiving run flow) (probe.receive device run flow epoch) := by
  have shown := sound.evidence
  rw [Probe.receive]
  generalize epoch.control.demux.recvFrom flow = result
  rcases result with ⟨received, demux⟩
  have same := Device.turnovers_modify_same device run.key
    (fun epoch => { epoch with control.demux := demux }) fun _ _ => rfl
  cases received with
  | datagram payload sender =>
    simp only
    split
    · exact .calm rfl rfl rfl same rfl rfl ⟨run.key, by simp, shown⟩
    · exact .calm rfl rfl rfl same rfl rfl (shown.grow _)
  | _ => exact .calm rfl rfl rfl same rfl rfl (shown.grow _)

theorem hangUp_advance {run : Run} {flow : RawUdpFlow} (fresh : device.turnovers.Fresh)
    (sound : Sound log device place (.hangUp run flow proven))
    (taken : next engine probe device place (.hangUp run flow proven) input = some outcome) :
    Advance log device place (.hangUp run flow proven) outcome := by
  have shown := sound.evidence
  have same := Device.turnovers_modify_same device run.key
    (fun epoch => { epoch with control := epoch.control.dropFlow flow }) fun _ _ => rfl
  cases taken
  cases proven with
  | true => exact .calm rfl rfl rfl same rfl rfl (shown.grow _)
  | false =>
    exact .calm rfl rfl rfl same (again_stage probe run)
      (again_phase probe run) (again_evidence probe (Carried.since fresh shown))

theorem next_advance {pc : Pc} (fresh : device.turnovers.Fresh) (sound : Sound log device place pc)
    (taken : next engine probe device place pc input = some outcome) :
    Advance log device place pc outcome := by
  cases pc with
  | device pc => exact device_advance sound taken
  | load clientMtu =>
    cases taken
    exact .calm rfl rfl rfl rfl rfl rfl (UInt64.le_refl _)
  | address generation clientMtu =>
    cases taken
    exact .calm rfl rfl rfl rfl rfl rfl (sound.evidence.grow _)
  | choose generation clientMtu addressing =>
    cases taken
    exact choose_advance sound
  | opening run pc => exact opening_advance fresh sound taken
  | sending run flow =>
    rcases map_eq_some_iff.mp taken with ⟨epoch, _, rfl⟩
    exact send_advance sound
  | receiving run flow =>
    rw [next] at taken
    split at taken
    · cases taken
      exact .calm rfl rfl rfl rfl rfl rfl (sound.evidence.grow _)
    · rcases map_eq_some_iff.mp taken with ⟨epoch, _, rfl⟩
      exact receive_advance sound
  | hangUp run flow proven => exact hangUp_advance fresh sound taken
  | budget generation clientMtu =>
    cases taken
    split <;> exact .calm rfl rfl rfl rfl rfl rfl (sound.evidence.grow _)
  | failed => cases taken

end Steps

/-! ## Every interleaving -/

/-- What every interleaving keeps in which epochs follow one another. -/
structure Kept (world : World (Device noise) Pc Event) : Prop where
  sound : Each (Sound world.log) world
  alone : Sole (fun pc => pc.phase.isBeginning) world
  vacant : ∀ key, world.calls.length ≤ key → world.shared.turnovers.planes key = none
  fresh : world.shared.turnovers.Fresh
  current : Device.Current world.shared.view
  proven : world.shared.responder.gate.open = true →
    (Evidence.proved world.shared.responder.gate.generation).Holds world.log world.shared.turnovers

theorem isBeginning_of_phase (waiting : pc.isBeginning = false) : pc.phase.isBeginning = false := by
  cases pc with
  | device pc =>
    cases pc with
    | beginLoad | beginNat | beginLock | beginBudget | beginPublish |
      beginUnlock | beginQueue => cases waiting
    | _ => rfl
  | _ => rfl

theorem isLoading_of_phase (loading : pc.phase = .loading) :
    pc.isLoading := by
  cases pc with
  | device pc =>
    cases pc with
    | beginLoad => rfl
    | _ => cases loading
  | _ => cases loading

theorem enter_phase (call : Call) :
    (call.begins ∧ (enter call).phase = .loading) ∨ (enter call).phase = .aside := by
  cases call with
  | proveAndOpen => exact .inr rfl
  | other call shut =>
    cases call with
    | beginEpoch => exact .inl ⟨rfl, rfl⟩
    | openGateFor => cases shut
    | _ => exact .inr rfl

theorem enter_stage (call : Call) : (enter call).stage = .outside := by
  cases call with
  | proveAndOpen => rfl
  | other call => exact Device.enter_stage call

theorem enter_evidence (call : Call) : (enter call).evidence = .nothing := by
  cases call with
  | proveAndOpen => rfl
  | other call shut =>
    cases call with
    | openGateFor => cases shut
    | _ => rfl

/-- Once the sinks are gone no control plane is alive. -/
theorem Kept.quiet (kept : Kept world)
    (closed : ∀ entry ∈ world.shared.epochs.toList, entry.2.receiving = false) :
    world.shared.turnovers.Quiet := by
  intro key plane there
  rcases map_eq_some_iff.mp there with ⟨epoch, found, rfl⟩
  have gone := closed (key, epoch) (HashMap.mem_toList.mpr found)
  exact kept.fresh.gone key epoch.plane there gone

theorem Kept.started (kept : Kept world)
    (supervised : Supervised world (.start call : Action Call (Input noise))) :
    Kept (world.started (enter call)) := by
  have entered : Sound world.log world.shared world.calls.length (enter call) := by
    refine ⟨?_, ?_, ?_⟩
    · rw [enter_stage]
      trivial
    · rcases enter_phase call with ⟨begins, phase⟩ | phase
      · rw [phase]
        exact ⟨kept.quiet (supervised begins).2, kept.vacant _ (Nat.le_refl _)⟩
      · rw [phase]
        trivial
    · rw [enter_evidence]
      trivial
  refine ⟨?_, ?_, ?_, kept.fresh, kept.current, kept.proven⟩
  · exact kept.sound.started entered
  · apply kept.alone.started
    intro entering pc member
    rcases enter_phase call with ⟨begins, _⟩ | phase
    · exact isBeginning_of_phase ((supervised begins).1 pc member)
    · rw [phase] at entering
      cases entering
  · intro key behind
    apply kept.vacant
    rw [World.started, length_append] at behind
    exact Nat.le_trans (Nat.le_add_right _ _) behind

/-- A gate that a move leaves open was open, or is opened for the generation that
was asked for. -/
theorem gate_touch {after : Device.View} (touch : Device.Touch place view stage after behind events)
    (isOpen : after.gate.open) :
    after.gate = view.gate ∨ stage = .opening after.gate.generation := by
  cases touch with
  | rests | waits | publishes | releases | asks | «matches» | differs |
    refuses | locks | loads | checks => exact .inl rfl
  | opens => exact .inr rfl
  | begins | closes | drops => cases isOpen

theorem evidence_of_opening (opening : pc.stage = .opening generation) :
    pc.evidence = .proved generation := by
  cases pc with
  | device pc =>
    cases pc with
    | openSet =>
      cases opening
      rfl
    | _ => cases opening
  | _ => cases opening

theorem Kept.advanced (kept : Kept world) {input : Input noise}
    (unwrapped : Unwrapped world (.advance place input)) (here : world.calls[place]? = some pc)
    (taken : next engine probe world.shared place pc input = some outcome) :
    Kept (world.advanced place outcome) := by
  have sound := kept.sound place pc here
  have advance := next_advance kept.fresh sound taken
  rcases advance.touch with ⟨events, touch⟩
  have turn := advance.turn
  have own : Sound (world.log ++ outcome.events) outcome.shared place
      outcome.pc := by
    refine ⟨touch.own sound.held, ?_, advance.evidence⟩
    apply Turnovers.Standing.own turn sound.standing
    intro loading
    apply unwrapped
    rw [here]
    exact isLoading_of_phase loading
  refine ⟨?_, ?_, ?_, ?_, ?_, ?_⟩
  · intro other standing there
    rcases calls_advanced there with ⟨rfl, rfl⟩ | ⟨different, there⟩
    · exact own
    · have before := kept.sound other standing there
      refine ⟨touch.others sound.held different before.held, ?_, ?_⟩
      · apply Turnovers.Standing.others turn sound.standing before.standing
        intro beginning
        cases waiting : standing.phase.isBeginning with
        | false => rfl
        | true =>
          exact absurd (kept.alone other place standing pc there here waiting beginning) different
      · exact before.evidence.turn turn sound.standing
  · exact kept.alone.advanced here (Turnovers.beginning_turn turn)
  · intro key behind
    have inside : place < world.calls.length := (List.getElem?_eq_some_iff.mp here).1
    rw [World.advanced, length_set] at behind
    exact Turnovers.planes_none_turn turn (by omega) (kept.vacant key behind)
  · exact Turnovers.fresh_turn turn sound.standing kept.fresh
  · exact touch.current sound.held kept.current
  · intro isOpen
    rcases gate_touch touch isOpen with same | opening
    · have gate : outcome.shared.responder.gate =
          world.shared.responder.gate := same
      change (Evidence.proved outcome.shared.responder.gate.generation).Holds _ _
      rw [gate]
      apply (kept.proven _).turn turn sound.standing
      rw [← gate]
      exact isOpen
    · have shown := sound.evidence
      rw [evidence_of_opening opening] at shown
      exact shown.turn turn sound.standing

theorem start_kept (built : Device.new ambient conf plan options indexes nat ipv6 =
      .ok device) : Kept (start device) := by
  have view := Device.new_view built
  have gate : device.responder.gate = {} := congrArg Device.View.gate view
  have empty : device.turnovers.planes = fun _ => none := by
    rcases Device.new_ok built with ⟨responder, _, rfl⟩
    rfl
  refine ⟨?_, ?_, ?_, ?_, ?_, ?_⟩
  · intro place pc here
    cases here
  · intro place other pc waiting here
    cases here
  · intro key _
    exact congrFun empty key
  · constructor <;>
    · intro key plane there
      rw [start, empty] at there
      cases there
  · intro isOpen
    rw [start, Device.view, gate] at isOpen
    cases isOpen
  · intro isOpen
    rw [start, gate] at isOpen
    cases isOpen

/-- In every interleaving in which an epoch begins only once the sinks before it
are gone, and none begins behind the last generation, an open gate is the gate
of an epoch over whose control plane a query was answered. -/
theorem open_gate_is_proven {ambient : noise.Ambient} {conf : GatewayConf}
    {plan : PeerPlan} {options : ResponderOptions} {indexes : IndexGen}
    {nat : NatConfig} {ipv6 : Bool} {device : Device noise}
    (built : Device.new ambient conf plan options indexes nat ipv6 = .ok device)
    (schedule : List (Action Call (Input noise)))
    (supervised : Execution.Guarded (step (program engine probe)) Supervised
      (start device) schedule)
    (unwrapped : Execution.Guarded (step (program engine probe)) Unwrapped (start device) schedule)
    (isOpen : (run engine probe device schedule).shared.responder.gate.open = true) :
    Proven (run engine probe device schedule)
      (run engine probe device schedule).shared.responder.gate.generation := by
  have kept : Kept (run engine probe device schedule) := by
    apply Execution.run_history (step (program engine probe))
      (fun _ world => Kept world) (start_kept built) _ schedule (supervised.and _ unwrapped)
    intro past action kept allowed
    apply step_rule
    · exact kept
    · intro call equal
      subst equal
      exact kept.started allowed.1
    · intro place input pc outcome equal here taken
      subst equal
      exact kept.advanced engine probe allowed.2 here taken
  rcases kept.proven isOpen with ⟨key, answered, plane, there, above⟩
  rcases map_eq_some_iff.mp there with ⟨epoch, found, rfl⟩
  refine ⟨key, epoch, found, ?_, answered⟩
  apply UInt64.le_antisymm _ above
  have current := kept.current isOpen
  have below := kept.fresh.past key epoch.plane there
  exact UInt64.le_trans below (UInt64.le_of_eq current.symm)

/-! ## Proofs that are given -/

namespace Sample

def query : Probe where
  attempts := 1
  packet _ _ _ := some [0]
  isMatching payload _ := payload = [1]

/-- The resolver's answer to the first flow of an epoch at `10.66.0.2`. -/
def answer : List UInt8 :=
  [0x45, 0, 0, 29, 0, 0, 0, 0, 64, 17, 0, 0, 10, 66, 0, 1, 10, 66, 0, 2,
    0, 53, 0xee, 0x48, 0, 9, 0, 0, 1]

def input (expired : Bool) : Input Device.Sample.noise where
  device := Device.Sample.input
  addressing := some (Device.Sample.addressing 0 2)
  expired := expired

def advances (place steps : Nat) : List (Action Call (Input Device.Sample.noise)) :=
  List.replicate steps (.advance place (input false))

def begins (place : Nat) (generation : UInt64) : List (Action Call (Input Device.Sample.noise)) :=
  .start (.other (.beginEpoch (Device.Sample.addressing generation 2)) rfl) :: advances place 8

def drops (place key : Nat) : List (Action Call (Input Device.Sample.noise)) :=
  .start (.other (.dropSink key) rfl) :: advances place 7

def answers (prover place key : Nat) : List (Action Call (Input Device.Sample.noise)) :=
  .start (.other (.sendPacket key answer) rfl) :: advances place 2 ++
    advances prover 2 ++ [.advance prover (input true)]

def proof : List (Action Call (Input Device.Sample.noise)) :=
  begins 0 7 ++ .start (.proveAndOpen 1280) :: advances 1 8 ++ answers 1 2 0 ++ advances 1 3

/-- A proof reads the last generation, is answered over the control plane of the
epoch behind it, and opens the gate of a third one. -/
def wrapped : List (Action Call (Input Device.Sample.noise)) :=
  begins 0 Device.lastGeneration ++ .start (.proveAndOpen 1280) :: advances 1 1 ++ drops 2 0 ++
    begins 3 5 ++ advances 1 7 ++ answers 1 4 3 ++ drops 5 3 ++
    begins 6 Device.lastGeneration ++ advances 1 3

end Sample

theorem open_gate_is_proven_answered :
    let world := run Responder.Sample.engine Sample.query Device.Sample.device
      Sample.proof
    world.shared.responder.gate = ⟨true, 7⟩ ∧ Proven world 7 := by
  intro world
  have gate : world.shared.responder.gate = ⟨true, 7⟩ := by decide +kernel
  have isOpen : world.shared.responder.gate.open = true := by rw [gate]
  have proven := open_gate_is_proven Responder.Sample.engine Sample.query
    Device.Sample.built Sample.proof (by decide +kernel) (by decide +kernel) isOpen
  simp only [world, gate] at proven
  exact ⟨gate, proven⟩

/-- Behind the last generation the counter repeats itself: the gate is open for
a generation none of whose epochs was proven. -/
theorem wrapped_generation_unproven :
    let world := run Responder.Sample.engine Sample.query Device.Sample.device
      Sample.wrapped
    Execution.Guarded (step (program Responder.Sample.engine Sample.query))
        Supervised (start Device.Sample.device) Sample.wrapped ∧
      world.shared.responder.gate = ⟨true, Device.lastGeneration⟩ ∧
      ¬ Proven world Device.lastGeneration := by
  intro world
  refine ⟨by decide +kernel, by decide +kernel, ?_⟩
  intro proven
  rcases proven with ⟨key, epoch, there, generation, answered⟩
  have only : world.log.filterMap Event.provedOver = [3] := by decide +kernel
  have member : key ∈ world.log.filterMap Event.provedOver := mem_filterMap.mpr ⟨_, answered, rfl⟩
  rw [only, mem_singleton] at member
  subst member
  have begun : (world.shared.epochs.get 3).map Epoch.generation = some 5 := by decide +kernel
  rw [there, map_some, generation] at begun
  cases begun

end Proving

end WarrenSdk.Bolthole
