import WarrenSdk.Net.PortForward.Lossy

/-! # Forwarded ports

A forwarded port has a handle, which says the external port that was granted when
it was opened, and a task that renews the mapping. The task of a raw forward asks
for the port that was granted; the others ask again for what they were opened
with. -/

namespace WarrenSdk.Net.PortForward

open Bolthole Netstack

def defaultMapLifetimeSecs : Nat := 7200

structure Forwarded where
  /-- What the handle says. -/
  externalPort : UInt16
  /-- What every renewal asks for. -/
  renewal : MapSpec
  /-- A renewal has failed, and the task is over. -/
  stopped : Bool := false
  deriving DecidableEq

def forwardPortWithSuggested (proto : MapProto) (internalPort : UInt16)
    (suggestedExternalPort : UInt16) (oversized : Bool) (network : Network) :
    Except PortForwardError Forwarded × Network :=
  let spec : MapSpec := ⟨proto, internalPort, suggestedExternalPort, defaultMapLifetimeSecs⟩
  let mapped := mapSingleLeg spec oversized network
  (mapped.1.map fun granted =>
    { externalPort := granted.externalPort, renewal := spec },
    mapped.2)

def forwardPort (proto : MapProto) (internalPort : UInt16) (network : Network) :
    Except PortForwardError Forwarded × Network :=
  forwardPortWithSuggested proto internalPort 0 false network

def forwardPortRaw (proto : MapProto) (internalPort : UInt16)
    (suggestedExternalPort : UInt16) (oversized : Bool) (network : Network) :
    Except PortForwardError Forwarded × Network :=
  let spec : MapSpec := ⟨proto, internalPort, suggestedExternalPort, defaultMapLifetimeSecs⟩
  let mapped := mapSingleLeg spec oversized network
  (mapped.1.map fun granted =>
    { externalPort := granted.externalPort
      renewal := { spec with suggestedExternalPort := granted.externalPort } },
    mapped.2)

inductive Opening
  | plain
  | suggested (port : UInt16) (oversized : Bool)
  | raw (port : UInt16) (oversized : Bool)
  deriving DecidableEq

def Opening.forward (opening : Opening) (proto : MapProto) (internalPort : UInt16) :
    Network → Except PortForwardError Forwarded × Network :=
  match opening with
  | .plain => forwardPort proto internalPort
  | .suggested port oversized => forwardPortWithSuggested proto internalPort port oversized
  | .raw port oversized => forwardPortRaw proto internalPort port oversized

namespace Forwarded

def renew (state : Forwarded × Network) (oversized : Bool) : Forwarded × Network :=
  if state.1.stopped then state
  else
    match mapSingleLeg state.1.renewal oversized state.2 with
    -- What is granted is not looked at.
    | (.ok _, network) => (state.1, network)
    | (.error _, network) => ({ state.1 with stopped := true }, network)

end Forwarded

/-! ## One leg -/

/-- A cycle of one leg has nothing to give back when it fails. -/
theorem mapSingleLeg_eq (spec : MapSpec) (oversized : Bool) (network : Network) :
    mapSingleLeg spec oversized network = mapWithCredential spec oversized network := by
  have leg : mapLegs spec.internalPort spec.suggestedExternalPort
      spec.lifetimeSecs oversized [spec.proto] [] network =
      match mapWithCredential spec oversized network with
      | (.ok mapping, network) => (.ok [mapping], network)
      | (.error error, network) => (.error (error, []), network) := rfl
  rw [mapSingleLeg, mapCycle, leg]
  cases mapWithCredential spec oversized network with
  | mk result after =>
    cases result with
    | error | ok => rfl

/-! ## Openings -/

theorem lifetime_real : defaultMapLifetimeSecs ≠ 0 := by decide

namespace Forwarded

/-- What a forward is once it is open: its port is mapped, and its renewals
suggest that port or none. -/
structure Opened (opened : Forwarded) (network : Network) : Prop where
  lossy : network.Lossy
  real : opened.renewal.lifetimeSecs ≠ 0
  mapped : network.mappings.get (opened.renewal.proto, opened.renewal.internalPort) =
    some opened.externalPort
  suggests : (∀ answered ∈ network.answers, answered.Strict) →
    opened.renewal.suggestedExternalPort ≠ 0 →
      opened.renewal.suggestedExternalPort = opened.externalPort

/-- In case the task, if it is running, suggests nothing, whatever the gateway
grants to it is the port of the handle. -/
def Regranted (state : Forwarded × Network) (oversized : Bool) : Prop :=
  state.1.stopped = false → state.1.renewal.suggestedExternalPort = 0 →
    ∀ port ∈ ports ((state.2.plan oversized).headD []), port = state.1.externalPort

instance (state : Forwarded × Network) (oversized : Bool) :
    Decidable (Regranted state oversized) := by
  have := @List.decidableBAll UInt16
  unfold Regranted
  infer_instance

/-- What renewals keep. -/
structure Renewed (opened : Forwarded) (start : Network) (state : Forwarded × Network) : Prop where
  lossy : state.2.Lossy
  answers : start.answers ⊆ state.2.answers
  externalPort : state.1.externalPort = opened.externalPort
  renewal : state.1.renewal = opened.renewal
  mapped : (∀ answered ∈ state.2.answers, answered.Strict) →
    state.2.mappings.get (opened.renewal.proto, opened.renewal.internalPort) =
      some opened.externalPort

theorem Renewed.renew (renewed : Renewed opened start state)
    (open_ : Opened opened start) (regranted : Regranted state oversized) :
    Renewed opened start (Forwarded.renew state oversized) := by
  rw [Forwarded.renew]
  split
  · exact renewed
  · rename_i running
    have served := map_served _ open_.real renewed.lossy oversized
    rw [mapSingleLeg_eq, renewed.renewal]
    cases returned : mapWithCredential opened.renewal oversized state.2 with
    | mk result after =>
      rw [returned] at served
      have longer : start.answers ⊆ after.answers :=
        List.Subset.trans renewed.answers served.answers
      have mapped : (∀ answered ∈ after.answers, answered.Strict) →
          after.mappings.get (opened.renewal.proto, opened.renewal.internalPort) =
            some opened.externalPort := by
        intro strict
        have kept := renewed.mapped fun answered member => strict answered (served.answers member)
        rw [served.mappings, if_pos rfl, kept]
        cases last : (ports ((state.2.plan oversized).headD [])).getLast? with
        | none => rfl
        | some port =>
          have member := List.mem_of_getLast? last
          apply congrArg some
          by_cases none : opened.renewal.suggestedExternalPort = 0
          · rw [← renewed.externalPort]
            exact regranted (Bool.eq_false_of_not_eq_true running) (renewed.renewal ▸ none) _ member
          · rw [served.strict strict none port member]
            exact open_.suggests (fun answered member => strict answered (longer member)) none
      cases result with
      | error | ok => exact ⟨served.lossy, longer, renewed.externalPort, renewed.renewal, mapped⟩

end Forwarded

end WarrenSdk.Net.PortForward
