import WarrenSdk.Bolthole.Control
import WarrenSdk.Foundation.Interleaving

/-! # Closing a control plane while flows are opened

Opening a flow reads whether the control plane is alive, draws a port and a
token and only then registers the flow; closing the plane first marks it dead
and then clears the registrations. Each of these is one step, and calls on the
clones of a control plane interleave. -/

namespace WarrenSdk.Bolthole.ControlClosing

open Net Interleaving List

inductive Call
  | openUdp
  | close
  | deliver (packet : List UInt8)
  | dropFlow (flow : RawUdpFlow)
  deriving DecidableEq

/-- Where a call stands: the step that it takes next, or how it ended. -/
inductive Pc
  | openCheck
  | openPort
  | openToken (port : UInt16)
  | openRegister (flow : RawUdpFlow)
  | opened (flow : RawUdpFlow)
  | refused (error : NetError)
  | closeStop
  | closeFlows
  | closed
  | delivering (packet : List UInt8)
  | delivered (owned : Bool)
  | dropping (flow : RawUdpFlow)
  | dropped
  deriving DecidableEq

def Pc.isOver : Pc → Bool
  | .openCheck | .openPort | .openToken _ | .openRegister _ => false
  | .closeStop | .closeFlows => false
  | _ => true

def enter : Call → Pc
  | .openUdp => .openCheck
  | .close => .closeStop
  | .deliver packet => .delivering packet
  | .dropFlow flow => .dropping flow

def flowOf (control : GatewayControl) (port : UInt16) (token : UInt64)
    (inbox : Nat) : RawUdpFlow where
  «local» := ⟨.v4 control.local, port⟩
  expectedRemote := .host (.v4 control.gateway)
  token := token
  inbox := inbox

def next (control : GatewayControl) : Pc → Option (Interleaving.Outcome GatewayControl Pc Empty)
  | .openCheck =>
    if control.alive then some { shared := control, pc := .openPort }
    else some { shared := control, pc := .refused .engineStopped }
  | .openPort =>
    let (port, control) := control.takePort
    some { shared := control, pc := .openToken port }
  | .openToken port =>
    let (token, inbox, demux) := control.demux.takeToken
    some {
      shared := { control with demux }
      pc := .openRegister (flowOf control port token inbox) }
  | .openRegister flow =>
    some {
      shared := { control with
        demux := control.demux.enroll ⟨flow.token, flow.local, flow.inbox⟩ }
      pc := .opened flow }
  | .closeStop => some { shared := control.stop, pc := .closeFlows }
  | .closeFlows => some { shared := control.closeFlows, pc := .closed }
  | .delivering packet =>
    let (owned, demux) := control.demux.deliver packet
    some { shared := { control with demux }, pc := .delivered owned }
  | .dropping flow => some { shared := control.dropFlow flow, pc := .dropped }
  | .opened _ | .refused _ | .closed | .delivered _ | .dropped => none

def program : Program GatewayControl Pc Empty Call Unit where
  enter := enter
  next control _ pc _ := next control pc

def start (control : GatewayControl) : World GatewayControl Pc Empty where
  shared := control
  calls := []
  log := []

/-- Without another call in between, opening a flow is the operation of the
control plane. -/
theorem openUdp_alone (control : GatewayControl) : run program (start control)
        [.start .openUdp, .advance 0 (), .advance 0 (), .advance 0 (), .advance 0 ()] =
      { shared := control.openUdp.2
        calls := [match control.openUdp.1 with
          | .ok flow => .opened flow
          | .error error => .refused error]
        log := [] } := by
  cases alive : control.alive with
  | false =>
    simp [run, Execution.run, step, start, World.started, World.advanced,
      program, enter, next, alive, GatewayControl.openUdp]
  | true =>
    simp [run, Execution.run, step, start, World.started, World.advanced,
      program, enter, next, alive, GatewayControl.openUdp,
      GatewayControl.takePort, RawUdpDemux.registerFromHost,
      RawUdpDemux.registerWith, RawUdpDemux.takeToken, flowOf]

/-- Without another call in between, so is closing the plane. -/
theorem close_alone (control : GatewayControl) :
    run program (start control) [.start .close, .advance 0 (), .advance 0 ()] =
      { shared := control.close
        calls := [.closed]
        log := [] } :=
  rfl

/-! ## Closed for good -/

def Pc.isClosing : Pc → Bool
  | .closeStop | .closeFlows => true
  | _ => false

def Pc.isRegistering : Pc → Bool
  | .openRegister _ => true
  | _ => false

def Closing (world : World GatewayControl Pc Empty) : Prop :=
  ∃ pc ∈ world.calls, pc.isClosing = true

/-- A flow is registered only before the registrations were cleared, or when a
call still has to clear them. -/
def Timely (world : World GatewayControl Pc Empty) : Action Call Unit → Prop
  | .start _ => True
  | .advance place _ =>
    (world.calls[place]?).any Pc.isRegistering = true → .closed ∈ world.calls → Closing world

instance (world : World GatewayControl Pc Empty) :
    (action : Action Call Unit) → Decidable (Timely world action)
  | .start _ => isTrue trivial
  | .advance _ _ => inferInstanceAs (Decidable (_ → _ → ∃ pc ∈ world.calls, _))

/-- Once a call has cleared the registrations there are none, or another call
is about to clear them. -/
def Cleared (world : World GatewayControl Pc Empty) : Prop :=
  .closed ∈ world.calls → (∀ port, world.shared.demux.flows.get port = none) ∨ Closing world

theorem deliver_flows (demux : RawUdpDemux) (packet : List UInt8) :
    (demux.deliver packet).2.flows = demux.flows := by
  rw [RawUdpDemux.deliver]
  split
  · rfl
  · split
    · rfl
    · split <;> rfl

theorem dropFlow_flows_none {demux : RawUdpDemux}
    (empty : ∀ port, demux.flows.get port = none) (flow : RawUdpFlow)
    (port : UInt16) : (demux.dropFlow flow).flows.get port = none := by
  rw [RawUdpDemux.dropFlow, empty]
  exact empty port

theorem Closing.advanced (closing : Closing world)
    (here : world.calls[place]? = some pc) (other : pc.isClosing = false) :
    Closing (world.advanced place outcome) := by
  rcases closing with ⟨closer, member, stillClosing⟩
  rcases List.getElem?_of_mem member with ⟨index, there⟩
  refine ⟨closer, ?_, stillClosing⟩
  apply mem_of_getElem? (calls_of_ne outcome there _)
  intro same
  rw [same, here] at there
  cases there
  rw [other] at stillClosing
  cases stillClosing

theorem Cleared.keeps (cleared : Cleared world)
    (here : world.calls[place]? = some pc) (other : pc.isClosing = false)
    (open_ : outcome.pc ≠ .closed) (empty : (∀ port, world.shared.demux.flows.get port = none) →
      ∀ port, outcome.shared.demux.flows.get port = none) :
    Cleared (world.advanced place outcome) := by
  intro closed
  rcases mem_or_eq_of_mem_set closed with member | equal
  · rcases cleared member with none | closing
    · exact .inl (empty none)
    · exact .inr (closing.advanced here other)
  · exact absurd equal.symm open_

theorem Cleared.advanced (cleared : Cleared world) (here : world.calls[place]? = some pc)
    (timely : Timely world (.advance place ())) (taken : next world.shared pc = some outcome) :
    Cleared (world.advanced place outcome) := by
  cases pc with
  | openCheck =>
    simp only [next] at taken
    split at taken <;> cases taken
    · exact cleared.keeps here rfl (by simp) fun empty => empty
    · exact cleared.keeps here rfl (by simp) fun empty => empty
  | openPort | openToken =>
    cases taken
    exact cleared.keeps here rfl (by simp) fun empty => empty
  | openRegister flow =>
    cases taken
    intro closed
    rcases mem_or_eq_of_mem_set closed with member | equal
    · have closing := timely (by simp [here, Pc.isRegistering]) member
      exact .inr (closing.advanced here rfl)
    · cases equal
  | closeStop =>
    cases taken
    intro _
    exact .inr ⟨.closeFlows, mem_of_getElem? (calls_of_advanced _ here), rfl⟩
  | closeFlows =>
    cases taken
    exact fun _ => .inl HashMap.get_empty
  | delivering packet =>
    cases taken
    apply cleared.keeps here rfl (by simp)
    intro empty port
    rw [← deliver_flows world.shared.demux packet] at empty
    exact empty port
  | dropping flow =>
    cases taken
    apply cleared.keeps here rfl (by simp)
    intro empty
    exact dropFlow_flows_none empty flow
  | opened | refused | closed | delivered | dropped => cases taken

theorem step_cleared (cleared : Cleared world) (timely : Timely world action) :
    Cleared (step program world action) := by
  apply step_rule
  · exact cleared
  · intro call _ closed
    simp only [World.started, mem_append, mem_singleton] at closed
    rcases closed with member | equal
    · rcases cleared member with empty | ⟨pc, there, closing⟩
      · exact .inl empty
      · exact .inr ⟨pc, mem_append_left _ there, closing⟩
    · cases call <;> cases equal
  · intro place _ pc outcome equal here taken
    subst equal
    exact cleared.advanced here timely taken

/-- In every schedule in which flows are registered in time, a control plane
that was closed and whose openings and closings are all over has no flow
registered, and no flow that it handed out waits for a datagram for ever. -/
theorem closed_plane_ends_flows (control : GatewayControl) (schedule : List (Action Call Unit))
    (timely : Execution.Guarded (step program) Timely (start control) schedule)
    (finished : ∀ pc ∈ (run program (start control) schedule).calls, pc.isOver = true)
    (closed : .closed ∈ (run program (start control) schedule).calls) (flow : RawUdpFlow) :
    let demux := (run program (start control) schedule).shared.demux
    ¬ demux.Registered flow ∧ (demux.recvFrom flow).1 ≠ .waiting := by
  have cleared : Cleared (run program (start control) schedule) :=
    Execution.run_history (step program) (fun _ world => Cleared world) (by simp [Cleared, start])
      (fun _ _ cleared allowed => step_cleared cleared allowed) schedule timely
  have settled : ¬ Closing (run program (start control) schedule) := by
    intro closing
    rcases closing with ⟨pc, member, closing⟩
    have ended := finished pc member
    cases pc with
    | closeStop | closeFlows => cases ended
    | _ => cases closing
  have empty := (cleared closed).resolve_right settled
  constructor
  · intro registered
    rw [RawUdpDemux.Registered, empty] at registered
    cases registered
  · exact RawUdpDemux.recvFrom_ends (RawUdpDemux.hasSender_eq_false empty)

/-! ## A flow that is registered too late -/

def plane : GatewayControl := .new .new (.ofOctets [10, 66, 0, 2]) (.ofOctets [10, 66, 0, 1])

def firstFlow : RawUdpFlow := flowOf plane 61000 0 0

/-- A flow is opened, and then the plane is closed. -/
theorem closed_plane_ends_flows_ended :
    let schedule : List (Action Call Unit) :=
      [.start .openUdp, .advance 0 (), .advance 0 (), .advance 0 (),
        .advance 0 (), .start .close, .advance 1 (), .advance 1 ()]
    let world := run program (start plane) schedule
    world.calls = [.opened firstFlow, .closed] ∧ ¬ world.shared.demux.Registered firstFlow ∧
      (world.shared.demux.recvFrom firstFlow).1 ≠ .waiting := by
  intro schedule world
  have ended : world.calls = [.opened firstFlow, .closed] := by decide +kernel
  refine ⟨ended, closed_plane_ends_flows plane schedule ?_ ?_ ?_ firstFlow⟩
  · decide +kernel
  · decide +kernel
  · decide +kernel

/-- Between its check and its registration the plane is closed. -/
theorem closed_plane_keeps_flow :
    let world := run program (start plane)
      [.start .openUdp, .advance 0 (), .start .close, .advance 1 (),
        .advance 1 (), .advance 0 (), .advance 0 (), .advance 0 ()]
    world.calls = [.opened firstFlow, .closed] ∧ world.shared.demux.Registered firstFlow ∧
      (world.shared.demux.recvFrom firstFlow).1 = .waiting := by
  decide +kernel

end WarrenSdk.Bolthole.ControlClosing
