import WarrenSdk.Net.PortForward.Lossy

/-! # Cycles of several legs

A cycle that fails deletes the legs that it was granted. What it leaves mapped is
what was mapped before it and what was granted without its hearing of it. -/

namespace WarrenSdk.Net.PortForward

open Bolthole Netstack List HashMap

variable {network : Network}

/-! ## Legs -/

/-- How far a cycle gets: the legs whose grants are heard, the legs from the
first one on whose is not, and what the exchanges meet from there. -/
structure Way where
  granted : List (MapProto × UInt16)
  missed : List MapProto
  script : List (List Window)

def progress : List MapProto → List (List Window) → Way
  | [], script => ⟨[], [], script⟩
  | leg :: legs, script =>
    match told (script.headD []) with
    | some port =>
      let later := progress legs script.tail
      { later with granted := (leg, port) :: later.granted }
    | none => ⟨[], leg :: legs, script⟩

def lastPort (granted : List (MapProto × UInt16)) (proto : MapProto) : Option UInt16 :=
  (granted.reverse.find? (·.1 = proto)).map Prod.snd

theorem lastPort_cons (leg proto : MapProto) (port : UInt16) (granted : List (MapProto × UInt16)) :
    lastPort ((leg, port) :: granted) proto =
      (lastPort granted proto).or (if leg = proto then some port else none) := by
  rw [lastPort, lastPort, reverse_cons, find?_append, Option.map_or]
  by_cases same : leg = proto <;> simp [same]

theorem lastPort_eq_none : lastPort granted proto = none ↔ proto ∉ granted.map Prod.fst := by
  simp only [lastPort, Option.map_eq_none_iff, find?_eq_none, mem_reverse, mem_map,
    decide_eq_true_eq, not_exists, not_and]

theorem lastPort_agreed (member : proto ∈ granted.map Prod.fst)
    (agreed : ∀ leg ∈ granted, leg.2 = port) : lastPort granted proto = some port := by
  cases last : lastPort granted proto with
  | none => exact absurd member (lastPort_eq_none.mp last)
  | some other =>
    rcases Option.map_eq_some_iff.mp last with ⟨leg, found, rfl⟩
    rw [agreed leg (mem_reverse.mp (mem_of_find?_eq_some found))]

theorem progress_legs (legs : List MapProto) (script : List (List Window)) :
    (progress legs script).granted.map Prod.fst ++ (progress legs script).missed = legs := by
  induction legs generalizing script with
  | nil => rfl
  | cons leg legs induction =>
    rw [progress]
    split
    · exact congrArg _ (induction script.tail)
    · rfl

/-- The port that the gateway grants last to the leg that does not hear of it. -/
def Way.unheard (way : Way) (proto : MapProto) : Option UInt16 :=
  if way.missed.head? = some proto then (ports (way.script.headD [])).getLast? else none

/-- What the loop over the legs leaves, as the script has it. -/
structure Mapped (internalPort : UInt16) (oversized : Bool) (way : Way)
    (granted : List PortMapping) (network : Network)
    (outcome : Except (PortForwardError × List PortMapping) (List PortMapping) ×
      Network) : Prop where
  lossy : outcome.2.Lossy
  answers : network.answers ⊆ outcome.2.answers
  result : ∃ all, all.map PortMapping.leg = granted.map PortMapping.leg ++ way.granted ∧
    (way.missed = [] ∧ outcome.1 = .ok all ∨
      way.missed ≠ [] ∧ (∃ error, outcome.1 = .error (error, all)) ∧
        outcome.2.plan oversized = way.script.tail)
  mapped : ∀ proto, outcome.2.mappings.get (proto, internalPort) =
    ((way.unheard proto).or (lastPort way.granted proto)).or
      (network.mappings.get (proto, internalPort))
  /-- Once a leg has a port, every further leg gets the same. -/
  strict : (∀ answered ∈ outcome.2.answers, answered.Strict) →
    ∀ first ∈ (granted.map PortMapping.leg ++ way.granted).head?,
      first.2 ≠ 0 → ∀ leg ∈ way.granted, leg.2 = first.2

theorem mapLegs_mapped (internalPort suggested : UInt16) (oversized : Bool)
    (real : lifetimeSecs ≠ 0) (legs : List MapProto)
    (granted : List PortMapping) (lossy : network.Lossy) :
    Mapped internalPort oversized (progress legs (network.plan oversized))
      granted network (mapLegs internalPort suggested lifetimeSecs oversized legs
        granted network) := by
  induction legs generalizing granted network with
  | nil =>
    exact ⟨lossy, fun _ member => member, ⟨granted, (append_nil _).symm, .inl ⟨rfl, rfl⟩⟩,
      fun _ => rfl, by rintro _ _ _ _ _ ⟨⟩⟩
  | cons leg legs induction =>
    have served := map_served
      ⟨leg, internalPort, granted.head?.elim suggested PortMapping.externalPort,
        lifetimeSecs⟩ real lossy oversized
    rw [mapLegs, progress]
    simp only
    cases returned : mapWithCredential _ oversized network with
    | mk result later =>
      rw [returned] at served
      have heard := served.told
      have mapped : ∀ proto, later.mappings.get (proto, internalPort) = (if leg = proto then
          (ports ((network.plan oversized).headD [])).getLast? else none).or
            (network.mappings.get (proto, internalPort)) := by
        intro proto
        rw [served.mappings]
        simp only [Prod.mk.injEq, and_true, eq_comm]
      cases result with
      | error error =>
        rw [Option.map_eq_none_iff.mp heard.symm]
        refine ⟨served.lossy, served.answers, ⟨granted, (append_nil _).symm, .inr
          ⟨cons_ne_nil _ _, ⟨error, rfl⟩, served.plan⟩⟩, ?_, by rintro _ _ _ _ _ ⟨⟩⟩
        intro proto
        simpa [Way.unheard, lastPort] using mapped proto
      | ok mapping =>
        rcases Option.map_eq_some_iff.mp heard.symm with ⟨port, there, equal⟩
        have last := told_last there
        have rest := induction (granted ++ [mapping]) served.lossy
        rw [served.plan] at rest
        simp only [there]
        have whole : (granted ++ [mapping]).map PortMapping.leg ++
              (progress legs (network.plan oversized).tail).granted =
            granted.map PortMapping.leg ++
              (leg, port) :: (progress legs (network.plan oversized).tail).granted := by
          rw [map_append, append_assoc, map_singleton, ← equal]
          rfl
        refine ⟨rest.lossy, fun _ member => rest.answers (served.answers member), ?_, ?_, ?_⟩
        · rw [← whole]
          exact rest.result
        · -- The grant of this leg is what the others find.
          intro proto
          rw [rest.mapped, mapped, last, lastPort_cons, ← Option.or_assoc, ← Option.or_assoc]
          rfl
        · intro strict first head nonzero
          rw [forall_mem_cons]
          refine ⟨?_, rest.strict strict first (whole ▸ head) nonzero⟩
          cases granted with
          | nil =>
            cases head
            rfl
          | cons one granted =>
            cases head
            exact served.strict (fun answered member => strict answered (rest.answers member))
              nonzero port (mem_of_getLast? last)

/-! ## Deletes -/

/-- Deletes that are served leave none of the legs, and all the others. -/
theorem get_deleteLegs (internalPort : UInt16) (granted : List PortMapping) (lossy : network.Lossy)
    (served : ∀ index < granted.length, ports (network.script[index]?.getD []) ≠ [])
    (proto : MapProto) :
    (deleteLegs internalPort granted network).mappings.get (proto, internalPort) =
      if proto ∈ granted.map PortMapping.proto then none
      else network.mappings.get (proto, internalPort) := by
  induction granted generalizing network with
  | nil => rfl
  | cons leg rest induction =>
    have decided := (exchange_lossy lossy (deleteRequest leg.proto internalPort)).1
    rw [← delete_exchange] at decided
    have later := induction (decided.lossy lossy) (by
      intro index inside
      rw [decided.script, Network.begun, getElem?_tail]
      exact served (index + 1) (Nat.succ_lt_succ inside))
    have first := served 0 (Nat.succ_pos _)
    rw [← head?_eq_getElem?, ← headD_eq_head?_getD] at first
    rcases getLast?_isSome.mpr first |> Option.isSome_iff_exists.mp with ⟨port, last⟩
    rw [ports] at last
    change (deleteLegs internalPort rest _).mappings.get _ = _
    rw [later, decided.mappings, deleteRequest, get_applied, last]
    simp only [map_cons, mem_cons, Prod.mk.injEq, and_true, Option.elim_some, if_true]
    by_cases again : proto ∈ rest.map PortMapping.proto
    · rw [if_pos again, if_pos (.inr again)]
    · by_cases same : proto = leg.proto
      · rw [if_neg again, if_pos same, if_pos (.inl same)]
      · rw [if_neg again, if_neg same, if_neg (not_or.mpr ⟨same, again⟩)]
        rfl

/-! ## The whole cycle -/

/-- The deletes of a cycle that fails are served. -/
def Way.DeletesServed (way : Way) : Prop :=
  ∀ index < way.granted.length, ports (way.script.tail[index]?.getD []) ≠ []

/-- No leg that is not granted was mapped before the cycle, or is granted without
hearing of it. -/
def Way.Clean (way : Way) (mappings : Mappings) (internalPort : UInt16) : Prop :=
  ∀ leg ∈ way.missed, leg ∉ way.granted.map Prod.fst →
    way.unheard leg = none ∧ mappings.get (leg, internalPort) = none

/-- Over every lossy network and every gateway that grants a suggestion exactly or
refuses it: a cycle that hears of a grant for every leg succeeds, and then every
leg is mapped on one port exactly if the gateway, in case it grants port zero
first, grants every leg the same port at last. Any other cycle fails, and if its
deletes are served, no leg is left mapped exactly if its way is clean. -/
theorem cycle_whole_iff (legs : List MapProto)
    (internalPort suggested : UInt16) (lifetimeSecs : Nat) (oversized : Bool)
    (network : Network) (real : lifetimeSecs ≠ 0) (lossy : network.Lossy)
    (strict : ∀ answered ∈ (mapCycle legs internalPort suggested lifetimeSecs
      oversized network).2.answers, answered.Strict) :
    let cycle := mapCycle legs internalPort suggested lifetimeSecs oversized
      network
    let way := progress legs (network.plan oversized)
    (way.missed = [] → (∃ granted, cycle.1 = .ok granted) ∧ ((∃ port, ∀ leg ∈ legs,
            cycle.2.mappings.get (leg, internalPort) = some port) ↔
          (way.granted.head?.map Prod.snd = some 0 →
            ∃ port, ∀ leg ∈ legs, lastPort way.granted leg = some port))) ∧
      (way.missed ≠ [] → (∃ error, cycle.1 = .error error) ∧ (way.DeletesServed →
            ((∀ leg ∈ legs, cycle.2.mappings.get (leg, internalPort) = none) ↔
              way.Clean network.mappings internalPort))) := by
  intro cycle way
  have mapped := mapLegs_mapped internalPort suggested oversized real legs [] lossy
  have split : way.granted.map Prod.fst ++ way.missed = legs := progress_legs legs _
  change Mapped internalPort oversized way [] network _ at mapped
  rcases mapped.result with ⟨all, listed, outcome⟩
  have cycled : cycle = mapCycle legs internalPort suggested lifetimeSecs oversized network := rfl
  change ∀ answered ∈ cycle.2.answers, _ at strict
  rw [mapCycle] at cycled
  generalize mapLegs internalPort suggested lifetimeSecs oversized legs [] network =
    looped at mapped outcome cycled
  rcases looped with ⟨result, after⟩
  have found : ∀ leg, after.mappings.get (leg, internalPort) = _ := mapped.mapped
  rcases outcome with ⟨complete, rfl⟩ | ⟨missed, ⟨error, rfl⟩, plan⟩
  · refine ⟨fun _ => ?_, fun missed => absurd complete missed⟩
    rw [cycled] at strict ⊢
    refine ⟨⟨all, rfl⟩, ?_⟩
    rw [complete, append_nil] at split
    have granted : ∀ leg ∈ legs, after.mappings.get (leg, internalPort) =
        lastPort way.granted leg := by
      intro leg member
      rw [found, Way.unheard, complete]
      cases last : lastPort way.granted leg with
      | none => exact absurd (split ▸ member) (lastPort_eq_none.mp last)
      | some port => rfl
    have same : ∀ port, (∀ leg ∈ legs, after.mappings.get (leg, internalPort) = some port) ↔
        ∀ leg ∈ legs, lastPort way.granted leg = some port :=
      fun port => forall₂_congr fun leg member => by rw [granted leg member]
    simp only [same]
    refine ⟨fun agreed _ => agreed, fun lucky => ?_⟩
    cases head : way.granted.head? with
    | none => exact ⟨0, by simp [← split, head?_eq_none_iff.mp head]⟩
    | some first =>
      by_cases zero : first.2 = 0
      · exact lucky (by rw [head, Option.map_some, zero])
      · refine ⟨first.2, fun leg member => lastPort_agreed (split ▸ member) ?_⟩
        exact mapped.strict strict first head zero
  · refine ⟨fun complete => absurd complete missed, fun _ => ?_⟩
    rw [cycled]
    refine ⟨⟨error, rfl⟩, fun served => ?_⟩
    have protos : all.map PortMapping.proto = way.granted.map Prod.fst := by
      rw [map_nil, nil_append] at listed
      rw [← listed, map_map]
      rfl
    have length : all.length = way.granted.length := by simpa using congrArg List.length protos
    have deleted := get_deleteLegs internalPort all mapped.lossy (by
      intro index inside
      rw [length] at inside
      cases oversized with
      | true =>
        rw [show way.granted = [] by cases legs <;> rfl] at inside
        exact absurd inside (Nat.not_lt_zero _)
      | false =>
        rw [show after.script = way.script.tail from plan]
        exact served index inside)
    simp only [deleted, protos, Way.Clean, ← split, mem_append]
    constructor
    · intro gone leg member absent
      have none := gone leg (.inr member)
      rwa [if_neg absent, found, lastPort_eq_none.mpr absent, Option.or_none,
        Option.or_eq_none_iff] at none
    · intro clean leg member
      split_ifs with inside
      · rfl
      · rw [found, lastPort_eq_none.mpr inside, Option.or_none, Option.or_eq_none_iff]
        exact clean leg (member.resolve_left inside) inside

/-! ## Samples -/

namespace Sample

/-- The second leg is served nine times, and every reply is lost. -/
def unheard : Network where
  script := [[served (granting 4000)], List.replicate 9 { events := [.serve 0 (granting 4000)] },
    [served ⟨.success, 0, 0, ⟨0⟩⟩]]

/-- An earlier cycle has mapped the pair; the next one is refused. -/
def refused : Network where
  mappings := (Mappings.apply .empty (.map .tcp 80 0 7200) (granting 4000)).apply
    (.map .udp 80 0 7200) (granting 4000)
  script := [[served ⟨.notAuthorized, 0, 0, ⟨0⟩⟩]]

end Sample

theorem cycle_whole_sample : ∃ port, ∀ leg ∈ [MapProto.tcp, .udp],
      (mapCycle [.tcp, .udp] 80 0 7200 false Sample.pair).2.mappings.get (leg, 80) = some port :=
  ((cycle_whole_iff [.tcp, .udp] 80 0 7200 false Sample.pair (by decide)
    (by decide) (by decide)).1 (by decide)).2.mpr fun zero => absurd zero (by decide)

/-- A leg whose replies were lost stays mapped, and so do the legs of an earlier
cycle when the first leg fails. -/
theorem half_pair_left : ((mapCycle [.tcp, .udp] 80 0 7200 false Sample.unheard).1 =
        .error .timeout ∧
      (mapCycle [.tcp, .udp] 80 0 7200 false Sample.unheard).2.mappings.get (.tcp, 80) = none ∧
      (mapCycle [.tcp, .udp] 80 0 7200 false Sample.unheard).2.mappings.get
        (.udp, 80) = some 4000) ∧
      (mapCycle [.tcp, .udp] 80 4000 7200 false Sample.refused).1 =
        .error (.gateway .notAuthorized) ∧
      (mapCycle [.tcp, .udp] 80 4000 7200 false Sample.refused).2.mappings.get
        (.udp, 80) = some 4000 := by
  decide

end WarrenSdk.Net.PortForward
