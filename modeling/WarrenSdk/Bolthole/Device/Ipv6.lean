import WarrenSdk.Bolthole.Device.Steps

/-! # Offering IPv6

Beginning an epoch and noting a budget both set whether IPv6 is offered, the
one from the addresses that the epoch was assigned and the other from the
budget. -/

namespace WarrenSdk.Bolthole.Device

open Interleaving

/-! ## The two calls as a whole -/

def beginEpoch (device : Device noise) (rank : MappingId → Nat) (key : Nat)
    (addressing : EpochAddressing) : Device noise :=
  let generation := nextGeneration device.generation addressing
  let device := device.setExternal rank key addressing generation
  let device := (device.setGate false generation).setIpv6
    (device.ipv6StateAtBegin addressing)
  let device := (device.storeBudget 0).publish generation
  let device := (device.openQueue key addressing generation).setControl key
  device.modifyEpoch key fun epoch => { epoch with held := true }

def noteInnerBudget (device : Device noise) (budget : Nat) : Device noise :=
  (device.storeBudget budget).setIpv6 (device.v6StateFor budget)

variable {device : Device noise}

theorem locked_of_free (free : device.responderLock = none) (stepped : Stepped noise) :
    device.locked stepped = some stepped :=
  if_pos free

/-- Without another call in between, the steps of the call amount to that. -/
theorem beginEpoch_alone (free : world.shared.responderLock = none)
    (addressing : EpochAddressing) (input : Input noise) :
    (alone (program engine) world (.beginEpoch addressing) input 8).shared =
      world.shared.beginEpoch input.rank world.calls.length addressing := by
  rw [alone_eq]
  generalize world.calls.length = place
  rcases world with ⟨device, calls, log⟩
  let generation := nextGeneration device.generation addressing
  let pointed := device.setExternal input.rank place addressing generation
  let shut := ((pointed.lock place).setGate false generation).setIpv6
    (pointed.ipv6StateAtBegin addressing)
  let published := (shut.storeBudget 0).publish generation
  have unlocked : published.unlock = (((pointed.setGate false generation).setIpv6
      (pointed.ipv6StateAtBegin addressing)).storeBudget 0).publish
        generation := by
    cases device
    cases free
    rfl
  have isFree : pointed.responderLock = none := free
  have locks : (program engine).next pointed place (.beginLock addressing generation) input = some {
        shared := shut
        pc := .beginBudget addressing generation
        events := [.began generation] } :=
    locked_of_free isFree _
  change (solo (program engine) place input 8 device (.beginLoad addressing)).shared = _
  rw [solo_succ (program engine) 7 rfl, solo_succ (program engine) 6 rfl,
    solo_succ (program engine) 5 locks, solo_succ (program engine) 4 rfl,
    solo_succ (program engine) 3 rfl, solo_succ (program engine) 2 rfl]
  change (solo (program engine) place input 2 published.unlock
    (.beginQueue addressing generation)).shared = _
  rw [unlocked, solo_succ (program engine) 1 rfl, solo_succ (program engine) 0 rfl]
  rfl

theorem noteInnerBudget_alone (free : world.shared.responderLock = none)
    (budget : Nat) (input : Input noise) :
    (alone (program engine) world (.noteInnerBudget budget) input 3).shared =
      world.shared.noteInnerBudget budget := by
  rw [alone_eq]
  generalize world.calls.length = place
  let stored := world.shared.storeBudget budget
  have isFree : stored.responderLock = none := free
  have sets : (program engine).next stored place
      (.budgetSet (stored.v6StateFor budget)) input = some {
        shared := stored.setIpv6 (stored.v6StateFor budget)
        pc := .returned .done } :=
    locked_of_free isFree _
  change (solo (program engine) place input 1 stored
    (.budgetSet (stored.v6StateFor budget))).shared = _
  exact solo_succ (program engine) 0 sets

/-! ## Sequences of the calls -/

inductive Report
  | beginEpoch (addressing : EpochAddressing)
  | noteInnerBudget (budget : Nat)

def report (engine : ChecksumEngine) (world : World (Device noise) Pc Event)
    (entry : Report × Input noise) : World (Device noise) Pc Event :=
  match entry.1 with
  | .beginEpoch addressing => alone (program engine) world (.beginEpoch addressing) entry.2 8
  | .noteInnerBudget budget => alone (program engine) world (.noteInnerBudget budget) entry.2 3

def reported (engine : ChecksumEngine) (device : Device noise)
    (reports : List (Report × Input noise)) : Device noise :=
  (Execution.run (report engine) (start device) reports).shared

def currentEpoch (reports : List (Report × Input noise)) : Option EpochAddressing :=
  reports.foldl (fun current entry =>
    match entry.1 with
    | .beginEpoch addressing => some addressing
    | .noteInnerBudget _ => current) none

/-- The budget that was reported since the epoch began, 0 if none was. -/
def currentBudget (reports : List (Report × Input noise)) : Nat :=
  reports.foldl (fun _ entry =>
    match entry.1 with
    | .beginEpoch _ => 0
    | .noteInnerBudget budget => budget) 0

/-- IPv6 is requested, the current epoch has an address for it and the budget
does not rule it out. -/
def Carriable (ipv6 : Bool) (reports : List (Report × Input noise)) : Prop :=
  ipv6 = true ∧ (∃ addressing, currentEpoch reports = some addressing ∧
      addressing.ipv6Address.isSome = true) ∧
    (currentBudget reports = 0 ∨ ipv6MinMtu ≤ currentBudget reports)

structure Follows (ipv6 : Bool) (reports : List (Report × Input noise))
    (device : Device noise) : Prop where
  free : device.responderLock = none
  requested : device.ipv6Requested = ipv6
  epoch : device.nat.epoch.isSome = (currentEpoch reports).isSome
  state : device.responder.v6 =
    match reports.getLast? with
    | none => .available
    | some (.beginEpoch addressing, _) =>
      if ipv6 && addressing.ipv6Address.isSome then .available
      else .noAssignment
    | some (.noteInnerBudget budget, _) =>
      if ipv6 = false ∨ currentEpoch reports = none then .noAssignment
      else if budget ≠ 0 ∧ budget < ipv6MinMtu then .budgetTooSmall
      else .available

theorem currentEpoch_snoc (reports : List (Report × Input noise)) (entry : Report × Input noise) :
    currentEpoch (reports ++ [entry]) =
      match entry.1 with
      | .beginEpoch addressing => some addressing
      | .noteInnerBudget _ => currentEpoch reports := by
  simp [currentEpoch]

theorem currentBudget_snoc (reports : List (Report × Input noise)) (entry : Report × Input noise) :
    currentBudget (reports ++ [entry]) =
      match entry.1 with
      | .beginEpoch _ => 0
      | .noteInnerBudget budget => budget := by
  simp [currentBudget]

theorem v6StateFor_eq (device : Device noise) (budget : Nat) : device.v6StateFor budget =
      if device.ipv6Requested = false ∨ device.nat.epoch.isSome = false then
        .noAssignment
      else if budget ≠ 0 ∧ budget < ipv6MinMtu then .budgetTooSmall
      else .available := by
  rw [v6StateFor]
  cases device.ipv6Requested with
  | false => simp
  | true => cases device.nat.epoch <;> simp

theorem Follows.beginEpoch (follows : Follows ipv6 reports device)
    (addressing : EpochAddressing) (input : Input noise) (key : Nat) :
    Follows ipv6 (reports ++ [(.beginEpoch addressing, input)])
      (device.beginEpoch input.rank key addressing) where
  free := follows.free
  requested := follows.requested
  epoch := by
    rw [currentEpoch_snoc]
    rfl
  state := by
    rw [List.getLast?_concat, ← follows.requested]
    rfl

theorem Follows.noteInnerBudget (follows : Follows ipv6 reports device)
    (budget : Nat) (input : Input noise) :
    Follows ipv6 (reports ++ [(.noteInnerBudget budget, input)])
      (device.noteInnerBudget budget) where
  free := follows.free
  requested := follows.requested
  epoch := by
    rw [currentEpoch_snoc]
    exact follows.epoch
  state := by
    rw [List.getLast?_concat, currentEpoch_snoc]
    change device.v6StateFor budget = _
    rw [v6StateFor_eq, follows.requested, follows.epoch]
    simp

theorem reported_follows (fresh : Follows ipv6 [] device) (reports : List (Report × Input noise)) :
    Follows ipv6 reports (reported engine device reports) := by
  induction reports using List.reverseRecOn with
  | nil => exact fresh
  | append_singleton past entry induction =>
    rw [reported, Execution.run_snoc]
    rcases entry with ⟨call, input⟩
    cases call with
    | beginEpoch addressing =>
      rw [report, beginEpoch_alone induction.free]
      exact induction.beginEpoch addressing input _
    | noteInnerBudget budget =>
      rw [report, noteInnerBudget_alone induction.free]
      exact induction.noteInnerBudget budget input

theorem new_follows {nat : NatConfig}
    (built : Device.new ambient conf plan options indexes nat ipv6 = .ok device)
    : Follows ipv6 [] device := by
  rcases new_ok built with ⟨responder, opened, rfl⟩
  have setup := Responder.withIndexes_setup opened
  simp only [Responder.setup, Prod.mk.injEq] at setup
  exact ⟨rfl, rfl, rfl, setup.2.2⟩

/-- A budget that suffices was noted last, for an epoch without an IPv6
address. -/
def NotedUnassigned (ipv6 : Bool) (reports : List (Report × Input noise)) :
    Prop :=
  ipv6 = true ∧ ∃ budget input addressing,
    reports.getLast? = some (.noteInnerBudget budget, input) ∧ (budget = 0 ∨ ipv6MinMtu ≤ budget) ∧
    currentEpoch reports = some addressing ∧ addressing.ipv6Address = none

/-- Beginning an epoch offers IPv6 only if the epoch has an address for it. -/
theorem carriable_of_begun
    (follows : Follows ipv6 (past ++ [(.beginEpoch addressing, input)]) device)
    (offered : device.responder.v6 = .available) :
    Carriable ipv6 (past ++ [(.beginEpoch addressing, input)]) := by
  have state := follows.state
  rw [offered, List.getLast?_concat] at state
  by_cases both : (ipv6 && addressing.ipv6Address.isSome) = true
  · rw [Bool.and_eq_true] at both
    refine ⟨both.1, ⟨addressing, ?_, both.2⟩, ?_⟩
    · rw [currentEpoch_snoc]
    · rw [currentBudget_snoc]
      exact .inl rfl
  · simp [both] at state

/-- Noting a budget offers IPv6 over any epoch that the budget suffices for. -/
theorem available_noted_iff
    (follows : Follows ipv6 (past ++ [(.noteInnerBudget budget, input)]) device) :
    device.responder.v6 = .available ↔ ipv6 ∧ (∃ addressing, currentEpoch
        (past ++ [(.noteInnerBudget budget, input)]) = some addressing) ∧
      (budget = 0 ∨ ipv6MinMtu ≤ budget) := by
  rw [follows.state, List.getLast?_concat]
  generalize currentEpoch _ = current
  cases ipv6 with
  | false => simp
  | true =>
    cases current with
    | none => simp
    | some addressing =>
      have enough : (budget = 0 ∨ ipv6MinMtu ≤ budget) ↔ ¬ (budget ≠ 0 ∧ budget < ipv6MinMtu) := by
        omega
      rw [enough]
      by_cases small : budget ≠ 0 ∧ budget < ipv6MinMtu
      · simp [small]
      · simp [small]

/-- After every sequence of reports, IPv6 is offered only if it can be carried
exactly if there was a report and the last one was not a sufficient budget for
an epoch without an IPv6 address. -/
theorem ipv6_offered_only_carriable_iff {ambient : noise.Ambient}
    {conf : GatewayConf} {plan : PeerPlan} {options : ResponderOptions}
    {indexes : IndexGen} {nat : NatConfig} {ipv6 : Bool}
    {device : Device noise}
    (built : Device.new ambient conf plan options indexes nat ipv6 = .ok device)
    (reports : List (Report × Input noise)) :
    ((reported engine device reports).responder.v6 = .available → Carriable ipv6 reports) ↔
      reports ≠ [] ∧ ¬ NotedUnassigned ipv6 reports := by
  have follows : Follows ipv6 reports (reported engine device reports) :=
    reported_follows (new_follows built) reports
  rcases List.eq_nil_or_concat reports with rfl | ⟨past, ⟨call, input⟩, rfl⟩
  · -- A device starts out with IPv6 offered, before any epoch.
    constructor
    · intro only
      rcases only follows.state with ⟨_, ⟨_, current, _⟩, _⟩
      cases current
    · intro nonempty
      exact absurd rfl nonempty.1
  · rw [List.concat_eq_append] at follows ⊢
    cases call with
    | beginEpoch addressing =>
      refine iff_of_true (carriable_of_begun follows) ⟨by simp, ?_⟩
      intro noted
      rcases noted with ⟨_, _, _, _, last, _⟩
      rw [List.getLast?_concat] at last
      cases last
    | noteInnerBudget budget =>
      have offered := available_noted_iff follows
      constructor
      · intro only
        refine ⟨by simp, ?_⟩
        intro noted
        rcases noted with ⟨requested, _, _, addressing, last, enough, current, unassigned⟩
        rw [List.getLast?_concat] at last
        cases last
        rcases only (offered.mpr ⟨requested, ⟨addressing, current⟩, enough⟩)
          with ⟨_, ⟨_, same, assigned⟩, _⟩
        cases current.symm.trans same
        rw [unassigned] at assigned
        cases assigned
      · intro fine available
        rcases offered.mp available with ⟨requested, ⟨addressing, current⟩, enough⟩
        refine ⟨requested, ⟨addressing, current, ?_⟩, ?_⟩
        · cases assigned : addressing.ipv6Address with
          | some address => rfl
          | none =>
            exact absurd ⟨requested, budget, input, addressing,
              List.getLast?_concat, enough, current, assigned⟩ fine.2
        · rw [currentBudget_snoc]
          exact enough

def Sample.dual : EpochAddressing :=
  { Sample.addressing 1 2 with
    ipv6Address := some (.ofOctets (List.replicate 16 0xfd)) }

/-- The budget is noted once the epoch has an address. -/
theorem ipv6_offered_only_carriable_iff_dual :
    let reports := [(.beginEpoch Sample.dual, Sample.input),
      (.noteInnerBudget 1414, Sample.input)]
    (reported Responder.Sample.engine Sample.device reports).responder.v6 = .available ∧
      ¬ NotedUnassigned true reports ∧ Carriable true reports := by
  intro reports
  have offered : (reported Responder.Sample.engine Sample.device
      reports).responder.v6 = .available := by decide +kernel
  have fine : ¬ NotedUnassigned true reports := by
    intro noted
    rcases noted with ⟨_, _, _, addressing, _, _, current, unassigned⟩
    cases current
    cases unassigned
  exact ⟨offered, fine, (ipv6_offered_only_carriable_iff Sample.built
    reports).mpr ⟨by simp [reports], fine⟩ offered⟩

/-- An epoch without an address for IPv6 begins, and a budget is noted. -/
theorem ipv6_offered_unassigned :
    let reports := [(.beginEpoch (Sample.addressing 1 2), Sample.input),
      (.noteInnerBudget 1414, Sample.input)]
    (reported Responder.Sample.engine Sample.device reports).responder.v6 = .available ∧
      ¬ Carriable true reports := by
  intro reports
  constructor
  · decide +kernel
  · intro carriable
    rcases carriable with ⟨_, ⟨addressing, current, assigned⟩, _⟩
    cases current
    cases assigned

end WarrenSdk.Bolthole.Device
