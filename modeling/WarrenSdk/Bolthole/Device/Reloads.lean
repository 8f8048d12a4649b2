import WarrenSdk.Bolthole.Device.Protocol

/-! # Reloads at the same time

A reload applies its configuration under the responder's lock, where it also
takes the view of who owns what, and hands that view to the translator under the
translator's lock. Nothing keeps two reloads in the same order in both
sections. -/

namespace WarrenSdk.Bolthole

open List

def Ownership.Same (left right : Ownership) : Prop :=
  ∀ network, left.table.exactMatch network = right.table.exactMatch network

instance (left right : Ownership) : Decidable (left.Same right) :=
  decidable_of_iff _ (HashMap.get_eq_iff left.table.entries right.table.entries).symm

namespace Device

open Interleaving

def reloads (engine : ChecksumEngine) :
    Program (Device noise) Pc Event GatewayConf (Input noise) where
  enter conf := enter (.reload conf)
  next := next engine

def Pc.viewTaken : Pc → Option Ownership
  | .reloadNat ownership _ => some ownership
  | _ => none

def Pc.isReturned : Pc → Bool
  | .returned _ => true
  | _ => false

def Settled (world : World (Device noise) Pc Event) : Prop :=
  ∀ pc ∈ world.calls, pc.isReturned = true

def OwnersAgree (device : Device noise) : Prop :=
  device.nat.ownership.Same device.responder.ownership

def viewAt (world : World (Device noise) Pc Event) (place : Nat) : Option Ownership :=
  (world.calls[place]?).bind Pc.viewTaken

/-- A step of the calls, beside the place of the reload that was the last to
take its view. -/
def taking (engine : ChecksumEngine) (state : World (Device noise) Pc Event × Option Nat)
    (action : Action GatewayConf (Input noise)) : World (Device noise) Pc Event × Option Nat :=
  let after := step (reloads engine) state.1 action
  match action with
  | .start _ => (after, state.2)
  | .advance place _ =>
    if (viewAt state.1 place).isNone && (viewAt after place).isSome then
      (after, some place)
    else (after, state.2)

/-- A view is handed over while another reload still has one to hand over, or it
is the one that was taken last. -/
def LatestLast (state : World (Device noise) Pc Event × Option Nat) :
    Action GatewayConf (Input noise) → Prop
  | .start _ => True
  | .advance place _ => (viewAt state.1 place).isSome = true → (∃ other < state.1.calls.length,
        other ≠ place ∧ (viewAt state.1 other).isSome = true) ∨
      state.2 = some place

instance (state : World (Device noise) Pc Event × Option Nat) :
    (action : Action GatewayConf (Input noise)) → Decidable (LatestLast state action)
  | .start _ => isTrue trivial
  | .advance _ _ => inferInstanceAs (Decidable (_ → _ ∨ _))

theorem taking_fst (engine : ChecksumEngine) (state : World (Device noise) Pc Event × Option Nat)
    (action : Action GatewayConf (Input noise)) :
    (taking engine state action).1 = step (reloads engine) state.1 action := by
  cases action with
  | start => rfl
  | advance place input =>
    rw [taking]
    split <;> rfl

theorem run_taking (engine : ChecksumEngine)
    (world : World (Device noise) Pc Event) (newest : Option Nat)
    (schedule : List (Action GatewayConf (Input noise))) :
    (Execution.run (taking engine) (world, newest) schedule).1 =
      Interleaving.run (reloads engine) world schedule := by
  induction schedule using List.reverseRecOn with
  | nil => rfl
  | append_singleton past action induction =>
    rw [Interleaving.run, Execution.run_snoc, Execution.run_snoc, taking_fst,
      induction]
    rfl

/-! ## The two sections of a reload -/

/-- The first section leaves the translator alone. It is refused and changes
nothing, or it takes the view of the peers that it leaves. -/
theorem next_reload (sound : Responder.Sound device.responder)
    (taken : next engine device place (.reload conf) input = some outcome) :
    Responder.Sound outcome.shared.responder ∧
      ((outcome.shared = device ∧ ∃ result, outcome.pc = .returned result) ∨
        ∃ report, outcome.pc = .reloadNat outcome.shared.responder.ownership report) := by
  rcases locked_eq_some taken with ⟨_, rfl⟩
  have after := Responder.reload_sound sound input.ambient conf
  rcases Responder.reload_cases sound input.ambient conf with
    ⟨refusal, refused⟩ | ⟨_, _, state, _, _, applied⟩
  · rw [refused] at after
    rw [reloadResponder, refused]
    exact ⟨after, .inl ⟨rfl, _, rfl⟩⟩
  · rw [applied] at after
    rw [reloadResponder, applied]
    exact ⟨after, .inr ⟨_, rfl⟩⟩

def Pc.isReload : Pc → Bool
  | .reload _ | .reloadNat .. | .returned _ => true
  | _ => false

/-- What reloads keep: the last view is that of the responder's peers, and once
no view is on its way, the owners agree. -/
structure Following (state : World (Device noise) Pc Event × Option Nat) : Prop where
  sound : Responder.Sound state.1.shared.responder
  reloading : Each (fun _ _ pc => pc.isReload = true) state.1
  newest : ∀ place ∈ state.2, ∀ view ∈ viewAt state.1 place,
    view = state.1.shared.responder.ownership
  agree : (∀ place, viewAt state.1 place = none) → OwnersAgree state.1.shared

variable {world : World (Device noise) Pc Event} {newest : Option Nat}

theorem viewAt_started (world : World (Device noise) Pc Event) (conf : GatewayConf) (place : Nat) :
    viewAt (world.started (enter (.reload conf))) place = viewAt world place := by
  rw [viewAt, viewAt, World.started, List.getElem?_append]
  split
  · rfl
  · rename_i outside
    rw [List.getElem?_eq_none (Nat.le_of_not_lt outside), List.getElem?_singleton]
    split <;> rfl

theorem viewAt_advanced (here : world.calls[place]? = some pc) (other : Nat) :
    viewAt (world.advanced place outcome) other =
      if other = place then outcome.pc.viewTaken else viewAt world other := by
  split
  · rename_i same
    rw [viewAt, same, calls_of_advanced outcome here]
    rfl
  · rename_i different
    rw [viewAt, World.advanced, List.getElem?_set_ne (Ne.symm different)]
    rfl

theorem Following.started (following : Following (world, newest)) (conf : GatewayConf) :
    Following (world.started (enter (.reload conf)), newest) where
  sound := following.sound
  reloading := following.reloading.started rfl
  newest := by
    intro place last view taken
    rw [viewAt_started] at taken
    exact following.newest place last view taken
  agree := by
    intro handed
    apply following.agree
    intro place
    rw [← viewAt_started world conf]
    exact handed place

/-- What follows once the step of a reload is known to leave the responder as it
was and no view of its own. -/
theorem Following.ended (following : Following (world, newest))
    (here : world.calls[place]? = some pc) (ended : outcome.pc = .returned result)
    (same : outcome.shared.responder = world.shared.responder)
    (agree : (∀ other, other ≠ place → viewAt world other = none) → OwnersAgree outcome.shared) :
    Following (world.advanced place outcome, newest) where
  sound := same ▸ following.sound
  reloading := following.reloading.advanced (by rw [ended]; rfl) fun _ _ _ _ kept => kept
  newest := by
    intro other last view taken
    change view = outcome.shared.responder.ownership
    rw [viewAt_advanced here, ended] at taken
    split at taken
    · cases taken
    · rw [same]
      exact following.newest other last view taken
  agree := by
    intro handed
    apply agree
    intro other different
    have none := handed other
    rwa [viewAt_advanced here, if_neg different] at none

theorem Following.advanced (following : Following (world, newest))
    (latest : LatestLast (world, newest) (.advance place input))
    (here : world.calls[place]? = some pc)
    (taken : next engine world.shared place pc input = some outcome) :
    Following (taking engine (world, newest) (.advance place input)) := by
  have reloading := following.reloading place pc here
  have before : viewAt world place = pc.viewTaken := by rw [viewAt, here]; rfl
  rw [taking]
  simp only [step_advance (reloads engine) here taken, before, viewAt_advanced here, if_true]
  cases pc with
  | reload conf =>
    rcases next_reload following.sound taken with ⟨sound, ⟨same, result, ended⟩ | ⟨report, viewed⟩⟩
    · rw [ended]
      refine following.ended here ended (by rw [same]) ?_
      intro others
      rw [same]
      apply following.agree
      intro other
      by_cases equal : other = place
      · rw [equal]
        exact before
      · exact others other equal
    · rw [viewed]
      change Following (world.advanced place outcome, some place)
      refine ⟨sound, ?_, ?_, ?_⟩
      · exact following.reloading.advanced (by rw [viewed]; rfl)
          fun _ _ _ _ kept => kept
      · intro other last view taken
        cases last
        rw [viewAt_advanced here, if_pos rfl, viewed] at taken
        cases taken
        rfl
      · intro handed
        have missing := handed place
        rw [viewAt_advanced here, if_pos rfl, viewed] at missing
        cases missing
  | reloadNat view report =>
    cases taken
    refine following.ended here rfl rfl ?_
    intro others
    rcases latest (by rw [before]; rfl) with ⟨other, _, different, holding⟩ | last
    · rw [others other different] at holding
      cases holding
    · have same := following.newest place last view before
      intro network
      rw [← same]
      rfl
  | returned => cases taken
  | _ => cases reloading

theorem Following.taking (following : Following (world, newest))
    (latest : LatestLast (world, newest) action) :
    Following (taking engine (world, newest) action) := by
  cases action with
  | start conf => exact following.started conf
  | advance place input =>
    have move := step_move (reloads engine) world (.advance place input)
    generalize reached : step (reloads engine) world (.advance place input) = after at move
    cases move with
    | stays =>
      rw [Device.taking]
      simp only [reached]
      cases viewAt world place <;> exact following
    | advances here taken => exact following.advanced latest here taken

/-! ## Every interleaving -/

theorem new_following {nat : NatConfig}
    (built : Device.new ambient conf plan options indexes nat ipv6 =
      .ok device) : Following (start device, none) := by
  rcases new_ok built with ⟨responder, opened, rfl⟩
  refine ⟨Responder.withIndexes_sound opened, ?_, ?_, ?_⟩
  · intro place pc here
    cases here
  · intro place last
    cases last
  · intro _ network
    rfl

/-- In every interleaving of reloads in which the last view on its way is the
one that was taken last, the owners agree as soon as every reload has
finished. -/
theorem settled_owners_agree {ambient : noise.Ambient} {conf : GatewayConf}
    {plan : PeerPlan} {options : ResponderOptions} {indexes : IndexGen}
    {nat : NatConfig} {ipv6 : Bool} {device : Device noise}
    (built : Device.new ambient conf plan options indexes nat ipv6 = .ok device)
    (schedule : List (Action GatewayConf (Input noise)))
    (latest : Execution.Guarded (taking engine) LatestLast (start device, none) schedule)
    (settled : Settled (Interleaving.run (reloads engine) (start device) schedule)) :
    OwnersAgree (Interleaving.run (reloads engine) (start device) schedule).shared := by
  have following : Following (Execution.run (taking engine) (start device, none) schedule) := by
    apply Execution.run_history (taking engine)
      (fun _ state => Following state) (new_following built) _ schedule latest
    exact fun past action following allowed => following.taking allowed
  have same := run_taking engine (start device) none schedule
  rw [← same] at settled ⊢
  apply following.agree
  intro place
  rw [viewAt]
  cases here : (Execution.run (taking engine) (start device, none) schedule).1.calls[place]? with
  | none => rfl
  | some pc =>
    have finished := settled pc (mem_of_getElem? here)
    cases pc with
    | returned => rfl
    | _ => cases finished

namespace Sample

/-- Two reloads apply their configurations one after the other, and hand over
their views in the order that is given. -/
def twoReloads (handing : List Nat) : List (Action GatewayConf (Input Sample.noise)) :=
  [.start Responder.Sample.initial, .start Responder.Sample.next] ++
    ([0, 1] ++ handing).map fun place => .advance place input

def reloaded (handing : List Nat) : World (Device Sample.noise) Pc Event :=
  Interleaving.run (reloads Responder.Sample.engine) (start device) (twoReloads handing)

end Sample

/-- Two overlapping reloads hand over their views in their order. -/
theorem settled_owners_agree_overlapping : Settled (Sample.reloaded [0, 1]) ∧
      OwnersAgree (Sample.reloaded [0, 1]).shared := by
  have settled : Settled (Sample.reloaded [0, 1]) := all_eq_true.mp (by decide +kernel)
  refine ⟨settled, settled_owners_agree Sample.built _ ?_ settled⟩
  decide +kernel

/-- The other way round, the translator is left with the owners of a
configuration that is no longer in force: the tablet of the second one owns
its address, and the translator knows no owner for it. -/
theorem reloads_cross :
    let device := (Sample.reloaded [1, 0]).shared
    let tablet : IpAddr := .v4 (.ofOctets [10, 67, 0, 4])
    Settled (Sample.reloaded [1, 0]) ∧ (device.responder.ownership.ownerOf tablet).isSome = true ∧
      device.nat.ownership.ownerOf tablet = none ∧ ¬ OwnersAgree device := by
  intro device tablet
  refine ⟨all_eq_true.mp (by decide +kernel), by decide +kernel, by decide +kernel, ?_⟩
  intro agree
  have same := agree (.single tablet)
  revert same
  decide +kernel

end Device

end WarrenSdk.Bolthole
