import WarrenSdk.Bolthole.Ports
import WarrenSdk.Foundation.Execution
import WarrenSdk.Net.RawUdp

/-! # The control plane of an epoch

The gateway opens flows of its own inside the tunnel, on source ports of the
control range. The ports are handed out by a counter that cycles through the
range, whether or not the flow that had a port before is still alive. -/

namespace WarrenSdk.Bolthole

open Net Execution HashMap Option

inductive NetError
  | engineStopped
  deriving DecidableEq

/-- One epoch's control plane; every clone of it shares this state. -/
structure GatewayControl where
  demux : RawUdpDemux
  «local» : Ipv4Addr
  gateway : Ipv4Addr
  nextPort : UInt32
  alive : Bool

namespace GatewayControl

def new (demux : RawUdpDemux) («local» gateway : Ipv4Addr) : GatewayControl where
  demux := demux
  «local» := «local»
  gateway := gateway
  nextPort := controlRangeStart.toUInt32
  alive := true

def span : UInt32 := (controlRangeEnd - controlRangeStart).toUInt32 + 1

def portOf (raw : UInt32) : UInt16 :=
  let offset := (raw - controlRangeStart.toUInt32) % span
  controlRangeStart +
    if offset.toNat < 2 ^ 16 then offset.toUInt16 else 0

def takePort (control : GatewayControl) : UInt16 × GatewayControl :=
  (portOf control.nextPort, { control with nextPort := control.nextPort + 1 })

def stop (control : GatewayControl) : GatewayControl :=
  { control with alive := false }

def closeFlows (control : GatewayControl) : GatewayControl :=
  { control with demux := control.demux.closeAll }

def close (control : GatewayControl) : GatewayControl := control.stop.closeFlows

def openUdp (control : GatewayControl) : Except NetError RawUdpFlow × GatewayControl :=
  if control.alive then
    let (port, control) := control.takePort
    let (flow, demux) := control.demux.registerFromHost
      ⟨.v4 control.local, port⟩ (.v4 control.gateway)
    (.ok flow, { control with demux })
  else (.error .engineStopped, control)

def dropFlow (control : GatewayControl) (flow : RawUdpFlow) : GatewayControl :=
  { control with demux := control.demux.dropFlow flow }

end GatewayControl

/-! ## Sequences of flows -/

/-- A control plane and the flows that are alive, by the number that each was
opened under. -/
structure Session where
  control : GatewayControl
  opened : Nat
  live : HashMap Nat RawUdpFlow

namespace Session

inductive Op
  | openUdp
  | dropFlow (number : Nat)
  deriving DecidableEq

def new («local» gateway : Ipv4Addr) : Session where
  control := .new .new «local» gateway
  opened := 0
  live := .empty

def step (session : Session) : Op → Session
  | .openUdp =>
    match session.control.openUdp with
    | (.error _, control) => { session with control }
    | (.ok flow, control) =>
      { control
        opened := session.opened + 1
        live := session.live.insert session.opened flow }
  | .dropFlow number =>
    match session.live.get number with
    | none => session
    | some flow =>
      { session with
        control := session.control.dropFlow flow
        live := session.live.remove number }

def run (session : Session) (ops : List Op) : Session := Execution.run step session ops

/-- The flows that are alive have ports of their own, and each still has the
registration that it was opened with. -/
structure Separate (session : Session) : Prop where
  ports : ∀ number other flow otherFlow, session.live.get number = some flow →
    session.live.get other = some otherFlow →
    flow.local.port = otherFlow.local.port → number = other
  registered : ∀ number flow, session.live.get number = some flow →
    session.control.demux.Registered flow

/-- Where in the control range the counter stands for a flow: it counts the
flows modulo `2 ^ 32`, and the range has 1000 ports. -/
def turn (number : Nat) : Nat := number % 2 ^ 32 % 1000

/-- A flow is opened only when the counter has not come round to the turn of a
flow that is still alive. -/
def Unused (session : Session) : Op → Prop
  | .openUdp => ∀ number, (session.live.get number).isSome → turn number ≠ turn session.opened
  | .dropFlow _ => True

/-! ## What the counter hands out -/

theorem portOf_count (number : Nat) : GatewayControl.portOf (UInt32.ofNat (61000 + number)) =
      UInt16.ofNat (61000 + turn number) := by
  have reading : UInt32.ofNat (61000 + number) - controlRangeStart.toUInt32 =
      UInt32.ofNat number := by
    have start : controlRangeStart.toUInt32 = UInt32.ofNat 61000 := rfl
    rw [start, UInt32.ofNat_add, UInt32.add_comm, UInt32.add_sub_cancel]
  have offset : (UInt32.ofNat number % GatewayControl.span).toNat = turn number := by
    simp [GatewayControl.span, controlRangeStart, controlRangeEnd, turn]
  have small : turn number < 1000 := Nat.mod_lt _ (by decide)
  rw [GatewayControl.portOf, reading, offset, if_pos (by omega)]
  apply UInt16.toNat.inj
  rw [UInt16.toNat_add, UInt32.toNat_toUInt16, offset]
  simp [controlRangeStart]

theorem turn_eq_of_port_eq (same : UInt16.ofNat (61000 + turn number) =
      UInt16.ofNat (61000 + turn other)) : turn number = turn other := by
  have small : turn number < 1000 := Nat.mod_lt _ (by decide)
  have otherSmall : turn other < 1000 := Nat.mod_lt _ (by decide)
  have equal := congrArg UInt16.toNat same
  simp only [UInt16.toNat_ofNat'] at equal
  omega

/-- The counter has counted the flows, and every flow that is alive has the
port of its turn. -/
structure Counted (session : Session) : Prop where
  alive : session.control.alive = true
  counter : session.control.nextPort = UInt32.ofNat (61000 + session.opened)
  earlier : ∀ number flow, session.live.get number = some flow → number < session.opened
  port : ∀ number flow, session.live.get number = some flow →
    flow.local.port = UInt16.ofNat (61000 + turn number)

theorem new_counted («local» gateway : Ipv4Addr) : Counted (new «local» gateway) where
  alive := rfl
  counter := rfl
  earlier := by simp [new]
  port := by simp [new]

def nextFlow (session : Session) : RawUdpFlow where
  «local» := ⟨.v4 session.control.local, GatewayControl.portOf session.control.nextPort⟩
  expectedRemote := .host (.v4 session.control.gateway)
  token := session.control.demux.nextToken
  inbox := session.control.demux.nextInbox

variable {session : Session}

theorem step_openUdp (alive : session.control.alive) : ∃ control, session.step .openUdp =
        { control
          opened := session.opened + 1
          live := session.live.insert session.opened session.nextFlow } ∧
      control.alive = true ∧
      control.nextPort = session.control.nextPort + 1 ∧
      control.demux.flows = session.control.demux.flows.insert session.nextFlow.local.port
        ⟨session.nextFlow.token, session.nextFlow.local, session.nextFlow.inbox⟩ := by
  rw [step, GatewayControl.openUdp, if_pos alive]
  exact ⟨_, rfl, alive, rfl, rfl⟩

theorem step_counted (session : Session) (op : Op)
    (counted : Counted session) : Counted (session.step op) := by
  cases op with
  | openUdp =>
    rcases step_openUdp counted.alive with ⟨control, opened, alive, counter, _⟩
    rw [opened]
    constructor
    · exact alive
    · rw [counter, counted.counter]
      simp [UInt32.add_assoc]
    · intro number flow found
      simp only [get_insert] at found
      split at found
      · simp_all
      · exact Nat.lt_succ_of_lt (counted.earlier number flow found)
    · intro number flow found
      simp only [get_insert] at found
      split at found
      · rename_i last
        cases found
        rw [last, nextFlow, counted.counter, portOf_count]
      · exact counted.port number flow found
  | dropFlow number =>
    rw [step]
    cases present : session.live.get number with
    | none => exact counted
    | some flow =>
      have kept : ∀ other otherFlow, (session.live.remove number).get other = some otherFlow →
          session.live.get other = some otherFlow := by
        intro other otherFlow found
        rw [get_remove] at found
        split at found
        · cases found
        · exact found
      exact {
        alive := counted.alive
        counter := counted.counter
        earlier := fun other otherFlow found =>
          counted.earlier other otherFlow (kept other otherFlow found)
        port := fun other otherFlow found =>
          counted.port other otherFlow (kept other otherFlow found) }

theorem run_counted (counted : Counted session) (ops : List Op) : Counted (session.run ops) :=
  run_invariant step Counted counted step_counted ops

section

variable (separate : Separate session)

include separate

/-- Flows that are apart have turns of their own. -/
theorem Separate.turn_inj (counted : Counted session) (here : (session.live.get number).isSome)
    (there : (session.live.get other).isSome) (same : turn number = turn other)
    : number = other := by
  rcases isSome_iff_exists.mp here with ⟨flow, found⟩
  rcases isSome_iff_exists.mp there with ⟨otherFlow, otherFound⟩
  apply separate.ports number other flow otherFlow found otherFound
  rw [counted.port number flow found, counted.port other otherFlow otherFound, same]

/-! ## Flows that stay apart -/

theorem Separate.openUdp (counted : Counted session) (unused : session.Unused .openUdp) :
    Separate (session.step .openUdp) := by
  rcases step_openUdp counted.alive with ⟨control, opened, _, _, flows⟩
  have newPort : ∀ number flow, session.live.get number = some flow →
      flow.local.port ≠ session.nextFlow.local.port := by
    intro number flow found same
    apply unused number (by simp [found])
    apply turn_eq_of_port_eq
    rw [← counted.port number flow found, same, nextFlow, counted.counter, portOf_count]
  rw [opened]
  constructor
  · intro number other flow otherFlow found otherFound same
    simp only [get_insert] at found otherFound
    split at found <;> split at otherFound
    · simp_all
    · cases found
      exact absurd same.symm (newPort other otherFlow otherFound)
    · cases otherFound
      exact absurd same (newPort number flow found)
    · exact separate.ports number other flow otherFlow found otherFound same
  · intro number flow found
    rw [RawUdpDemux.Registered, flows, get_insert]
    simp only [get_insert] at found
    split at found
    · cases found
      rw [if_pos rfl]
    · rw [if_neg (newPort number flow found)]
      exact separate.registered number flow found

theorem Separate.dropFlow (number : Nat) : Separate (session.step (.dropFlow number)) := by
  rw [step]
  cases present : session.live.get number with
  | none => exact separate
  | some dropped =>
    have held := separate.registered number dropped present
    have flows : (session.control.dropFlow dropped).demux.flows =
        session.control.demux.flows.remove dropped.local.port := by
      rw [GatewayControl.dropFlow, RawUdpDemux.dropFlow, held]
      simp
    constructor
    · intro one other flow otherFlow found otherFound same
      simp only [get_remove] at found otherFound
      split at found <;> split at otherFound
      · cases found
      · cases found
      · cases otherFound
      · exact separate.ports one other flow otherFlow found otherFound same
    · intro other flow found
      simp only [get_remove] at found
      split at found
      · cases found
      · rename_i different
        rw [RawUdpDemux.Registered, flows, get_remove, if_neg]
        · exact separate.registered other flow found
        · intro same
          exact different (separate.ports other number flow dropped found present same)

theorem Separate.step (counted : Counted session) (unused : session.Unused op) :
    Separate (session.step op) := by
  cases op with
  | openUdp => exact separate.openUdp counted unused
  | dropFlow number => exact separate.dropFlow number

end

/-- A flow that is opened and stays apart from the others was opened at a turn
of its own. -/
theorem unused_of_separate (counted : Counted session)
    (after : Separate (session.step .openUdp)) : session.Unused .openUdp := by
  intro number alive same
  have afterCounted := step_counted session .openUdp counted
  rcases isSome_iff_exists.mp alive with ⟨flow, found⟩
  have earlier := counted.earlier number flow found
  rcases step_openUdp counted.alive with ⟨control, opened, _⟩
  rw [opened] at after afterCounted
  have equal := after.turn_inj afterCounted (by simp [Nat.ne_of_lt earlier, found]) (by simp) same
  omega

theorem new_separate («local» gateway : Ipv4Addr) : Separate (new «local» gateway) where
  ports := by simp [new]
  registered := by simp [new]

/-- The flows of a control plane have ports and registrations of their own
throughout a sequence of opens and drops exactly when no flow is still alive
when the counter comes round to its turn again. -/
theorem live_flows_separate («local» gateway : Ipv4Addr) (ops : List Op) :
    (∀ past later, ops = past ++ later → Separate ((new «local» gateway).run past)) ↔
      Execution.Guarded step Unused (new «local» gateway) ops := by
  have counted : ∀ past, Counted ((new «local» gateway).run past) :=
    run_counted (new_counted «local» gateway)
  constructor
  · intro separate past op later equal
    cases op with
    | dropFlow number => trivial
    | openUdp =>
      have after := separate (past ++ [.openUdp]) later (by simp [equal])
      rw [run, run_snoc] at after
      exact unused_of_separate (counted past) after
  · intro guarded past later equal
    rw [equal] at guarded
    have holds := run_history step
      (fun _ session => Separate session) (new_separate «local» gateway)
      (fun past _ separate unused => separate.step (counted past) unused) past guarded.of_append
    exact holds

/-! ## A flow that outlives a round of the counter -/

theorem run_opens (counted : Counted session) (count : Nat) :
    (session.run (List.replicate count .openUdp)).opened = session.opened + count ∧
      ∀ number, session.opened ≤ number → number < session.opened + count →
        ((session.run (List.replicate count .openUdp)).live.get number).isSome := by
  induction count with
  | zero =>
    constructor
    · rfl
    · intro number low high
      omega
  | succ count induction =>
    have before := run_counted counted (List.replicate count .openUdp)
    rcases step_openUdp before.alive with ⟨control, opened, _⟩
    rw [List.replicate_succ', run, run_snoc]
    rw [run] at induction opened
    rw [opened]
    constructor
    · simp only [induction.1, Nat.add_assoc]
    · intro number low high
      rw [get_insert, induction.1]
      split
      · rfl
      · exact induction.2 number low (by omega)

/-- A session in which the first flow is still alive when the counter has handed
out the whole range. -/
def crowded : Session :=
  (new (.ofOctets [10, 66, 0, 2]) (.ofOctets [10, 66, 0, 1])).run (List.replicate 1001 .openUdp)

theorem control_port_reused : ∃ flow other, crowded.live.get 0 = some flow ∧
      crowded.live.get 1000 = some other ∧ flow.local.port = other.local.port := by
  have start := new_counted (.ofOctets [10, 66, 0, 2]) (.ofOctets [10, 66, 0, 1])
  have counted : Counted crowded := run_counted start _
  have alive := (run_opens start 1001).2
  rcases isSome_iff_exists.mp (alive 0 (by decide) (by decide)) with ⟨flow, found⟩
  rcases isSome_iff_exists.mp (alive 1000 (by decide) (by decide)) with ⟨other, otherFound⟩
  refine ⟨flow, other, found, otherFound, ?_⟩
  rw [counted.port 0 flow found, counted.port 1000 other otherFound]
  rfl

end Session

end WarrenSdk.Bolthole
