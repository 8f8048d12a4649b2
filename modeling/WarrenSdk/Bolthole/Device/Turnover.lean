import WarrenSdk.Bolthole.Device.Protocol

/-! # Turning over from one epoch to the next

Toward its epochs a device is a small protocol over the generation and, for
every epoch, the generation that it was begun for, whether its control plane is
alive and whether its sink is still there. If an epoch begins only once the
sinks before it are gone, a control plane that is alive is the current
generation's. -/

namespace WarrenSdk.Bolthole

open Interleaving Option

namespace Device

/-- Behind this generation the counter starts again at 0. -/
def lastGeneration : UInt64 := 0xffffffffffffffff

theorem lt_nextGeneration (unwrapped : previous ≠ lastGeneration) (addressing : EpochAddressing) :
    previous < nextGeneration previous addressing := by
  have below : previous < previous + 1 := by
    rw [UInt64.lt_iff_toNat_lt, UInt64.toNat_add]
    have bound := previous.toNat_lt
    have different : previous.toNat ≠ 2 ^ 64 - 1 := by
      intro last
      exact unwrapped (UInt64.toNat.inj (by rw [last]; rfl))
    simp only [UInt64.reduceToNat]
    omega
  change previous < if addressing.generation ≤ previous + 1 then previous + 1
    else addressing.generation
  split
  · exact below
  · rename_i above
    exact UInt64.lt_trans below (UInt64.not_le.mp above)

end Device

/-! ## The protocol -/

structure Plane where
  generation : UInt64
  alive : Bool
  receiving : Bool

namespace Plane

def begun (generation : UInt64) : Plane := ⟨generation, true, true⟩

def stop (plane : Plane) : Plane := { plane with alive := false }

def close (plane : Plane) : Plane := { plane with receiving := false }

end Plane

structure Turnovers where
  generation : UInt64
  planes : Nat → Option Plane

namespace Turnovers

def edit (view : Turnovers) (key : Nat) (change : Plane → Plane) : Turnovers where
  generation := view.generation
  planes other :=
    if other = key then (view.planes key).map change else view.planes other

def insert (view : Turnovers) (key : Nat) (plane : Plane) : Turnovers where
  generation := view.generation
  planes other := if other = key then some plane else view.planes other

theorem edit_id (view : Turnovers) (key : Nat) : view.edit key id = view := by
  rcases view with ⟨generation, planes⟩
  rw [edit]
  congr 1
  funext other
  by_cases same : other = key <;> simp [same]

variable {view : Turnovers}

theorem edit_planes (there : (view.edit key change).planes other = some plane) :
    view.planes other = some plane ∨
      ∃ earlier, view.planes other = some earlier ∧ plane = change earlier := by
  rw [edit] at there
  by_cases same : other = key
  · simp only [same, if_true, map_eq_some_iff] at there
    rcases there with ⟨earlier, found, rfl⟩
    rw [same]
    exact .inr ⟨earlier, found, rfl⟩
  · simp only [same, if_false] at there
    exact .inl there

theorem planes_edit (there : view.planes other = some plane) (key : Nat) (change : Plane → Plane) :
    (view.edit key change).planes other = some plane ∨
      (view.edit key change).planes other = some (change plane) := by
  rw [edit]
  by_cases same : other = key
  · rw [same] at there
    exact .inr (by simp [same, there])
  · exact .inl (by simp [same, there])

theorem edit_planes_eq_none (missing : view.planes other = none) (key : Nat)
    (change : Plane → Plane) : (view.edit key change).planes other = none := by
  rw [edit]
  by_cases same : other = key
  · rw [same] at missing
    simp [same, missing]
  · simp [same, missing]

def Quiet (view : Turnovers) : Prop :=
  ∀ key plane, view.planes key = some plane → plane.alive = false

/-- What is alive is the current generation's, what is over is not alive, and no
epoch is ahead of the generation. -/
structure Fresh (view : Turnovers) : Prop where
  alive : ∀ key plane, view.planes key = some plane → plane.alive = true →
    plane.generation = view.generation
  gone : ∀ key plane, view.planes key = some plane → plane.receiving = false → plane.alive = false
  past : ∀ key plane, view.planes key = some plane → plane.generation ≤ view.generation

end Turnovers

/-- What a call is about to do to the epochs, or which generation it is about to
open the gate for. -/
inductive Phase
  | aside
  | asking (generation : UInt64)
  | loading
  | turning (generation : UInt64)
  | published (generation : UInt64)
  | dropping (key : Nat)
  | stopped (key : Nat)

/-- Only what is about to happen to the epochs. -/
def Phase.unasked : Phase → Phase
  | .asking _ => .aside
  | phase => phase

def Phase.isBeginning : Phase → Bool
  | .loading | .turning _ | .published _ => true
  | .aside | .asking _ | .dropping _ | .stopped _ => false

inductive Turn (place : Nat) (view : Turnovers) : Phase → Turnovers → Phase → Prop
  | rests {phase : Phase} : Turn place view phase view phase
  | leaves {generation : UInt64} : Turn place view (.asking generation) view .aside
  | stops {key : Nat} : Turn place view .aside (view.edit key .stop) .aside
  | loads {addressing : EpochAddressing} : Turn place view .loading view
        (.turning (Device.nextGeneration view.generation addressing))
  | publishes {generation : UInt64} :
      Turn place view (.turning generation) ⟨generation, view.planes⟩ (.published generation)
  | opens {generation : UInt64} : Turn place view (.published generation)
        (view.insert place (.begun generation)) .aside
  | drops {key : Nat} (there : (view.planes key).isSome = true) :
      Turn place view .aside view (.dropping key)
  | kills {key : Nat} : Turn place view (.dropping key) (view.edit key .stop) (.stopped key)
  | ends {key : Nat} : Turn place view (.stopped key) (view.edit key .close) .aside

theorem Turn.unasked (turn : Turn place view phase after behind) :
    Turn place view phase.unasked after behind.unasked := by
  cases turn with
  | rests | leaves => exact .rests
  | stops => exact .stops
  | loads => exact .loads
  | publishes => exact .publishes
  | opens => exact .opens
  | drops there => exact .drops there
  | kills => exact .kills
  | ends => exact .ends

namespace Turnovers

def Standing (view : Turnovers) (place : Nat) : Phase → Prop
  | .aside | .asking _ => True
  | .loading => view.Quiet ∧ view.planes place = none
  | .turning generation => view.Quiet ∧ view.planes place = none ∧ view.generation < generation
  | .published generation => view.Quiet ∧ view.planes place = none ∧ view.generation = generation
  | .dropping key => ∃ plane, view.planes key = some plane
  | .stopped key => ∃ plane, view.planes key = some plane ∧ plane.alive = false

theorem Quiet.edit {view : Turnovers} (quiet : view.Quiet) (key : Nat)
    (fades : ∀ plane, plane.alive = false → (change plane).alive = false) :
    (view.edit key change).Quiet := by
  intro other plane there
  rcases edit_planes there with found | ⟨earlier, found, rfl⟩
  · exact quiet other plane found
  · exact fades earlier (quiet other earlier found)

theorem Fresh.edit {view : Turnovers} (fresh : view.Fresh) (key : Nat) (change : Plane → Plane)
    (generation : ∀ plane, (change plane).generation = plane.generation)
    (fades : ∀ plane, (change plane).alive → plane.alive)
    (gone : ∀ plane, view.planes key = some plane → (change plane).receiving = false →
      plane.receiving = false ∨ (change plane).alive = false) :
    (view.edit key change).Fresh where
  alive := by
    intro other plane there isAlive
    rcases edit_planes there with found | ⟨earlier, found, rfl⟩
    · exact fresh.alive other plane found isAlive
    · rw [generation]
      exact fresh.alive other earlier found (fades earlier isAlive)
  gone := by
    intro other plane there isOver
    rw [Turnovers.edit] at there
    by_cases same : other = key
    · simp only [same, if_true, map_eq_some_iff] at there
      rcases there with ⟨earlier, found, rfl⟩
      rcases gone earlier found isOver with wasOver | isDead
      · have wasDead := fresh.gone key earlier found wasOver
        cases isAlive : (change earlier).alive with
        | false => rfl
        | true =>
          rw [fades earlier isAlive] at wasDead
          cases wasDead
      · exact isDead
    · simp only [same, if_false] at there
      exact fresh.gone other plane there isOver
  past := by
    intro other plane there
    rcases edit_planes there with found | ⟨earlier, found, rfl⟩
    · exact fresh.past other plane found
    · rw [generation]
      exact fresh.past other earlier found

section Moves

section

variable (turn : Turn place view phase after behind) (standing : view.Standing place phase)

include turn standing

theorem fresh_turn (fresh : view.Fresh) :
    after.Fresh := by
  cases turn with
  | rests | leaves | loads | drops => exact fresh
  | stops | kills =>
    apply fresh.edit _ .stop (fun _ => rfl)
    · intro plane isAlive
      cases isAlive
    · intro plane _ _
      exact .inr rfl
  | ends =>
    apply fresh.edit _ .close (fun _ => rfl)
    · intro plane isAlive
      exact isAlive
    · rcases standing with ⟨plane, there, dead⟩
      intro other found _
      rw [there] at found
      cases found
      exact .inr dead
  | publishes =>
    constructor
    · intro key plane there isAlive
      rw [standing.1 key plane there] at isAlive
      cases isAlive
    · exact fresh.gone
    · intro key plane there
      have below := fresh.past key plane there
      have above := standing.2.2
      rw [UInt64.le_iff_toNat_le] at below ⊢
      rw [UInt64.lt_iff_toNat_lt] at above
      exact Nat.le_trans below (Nat.le_of_lt above)
  | @opens generation =>
    have current : view.generation = generation := standing.2.2
    have cases_of : ∀ {key plane}, (view.insert place (.begun generation)).planes key = some plane →
        plane = .begun view.generation ∨ view.planes key = some plane := by
      intro key plane there
      rw [insert] at there
      by_cases same : key = place
      · simp only [same, if_true, Option.some.injEq] at there
        rw [current]
        exact .inl there.symm
      · simp only [same, if_false] at there
        exact .inr there
    constructor
    · intro key plane there isAlive
      rcases cases_of there with rfl | found
      · rfl
      · exact fresh.alive key plane found isAlive
    · intro key plane there isOver
      rcases cases_of there with rfl | found
      · cases isOver
      · exact fresh.gone key plane found isOver
    · intro key plane there
      rcases cases_of there with rfl | found
      · exact UInt64.le_refl _
      · exact fresh.past key plane found

theorem planes_turn (there : view.planes key = some plane) :
    ∃ later, after.planes key = some later ∧ later.generation = plane.generation ∧
      (plane.alive = false → later.alive = false) := by
  cases turn with
  | rests | leaves | loads | drops | publishes => exact ⟨plane, there, rfl, id⟩
  | stops | kills =>
    rcases planes_edit there _ .stop with same | stopped
    · exact ⟨plane, same, rfl, id⟩
    · exact ⟨_, stopped, rfl, fun _ => rfl⟩
  | ends =>
    rcases planes_edit there _ .close with same | closed
    · exact ⟨plane, same, rfl, id⟩
    · exact ⟨_, closed, rfl, id⟩
  | opens =>
    refine ⟨plane, ?_, rfl, id⟩
    have other : key ≠ place := by
      intro same
      rw [same, standing.2.1] at there
      cases there
    simp [insert, other, there]

theorem generation_turn : view.generation ≤ after.generation := by
  cases turn with
  | rests | leaves | stops | loads | opens | drops | kills | ends => exact UInt64.le_refl _
  | publishes => exact UInt64.le_of_lt standing.2.2

theorem Standing.own (unwrapped : phase = .loading → view.generation ≠ Device.lastGeneration) :
    after.Standing place behind := by
  cases turn with
  | rests => exact standing
  | leaves | stops | opens | ends => trivial
  | loads =>
    refine ⟨standing.1, standing.2, ?_⟩
    exact Device.lt_nextGeneration (unwrapped rfl) _
  | publishes => exact ⟨standing.1, standing.2.1, rfl⟩
  | drops there => exact isSome_iff_exists.mp there
  | kills =>
    rcases standing with ⟨plane, there⟩
    exact ⟨plane.stop, by simp [edit, there], rfl⟩

/-- A call relies on nothing that another call changes, if no two epochs begin
at a time. -/
theorem Standing.others {other : Nat} (there : view.Standing other waiting)
    (alone : phase.isBeginning → waiting.isBeginning = false) : after.Standing other waiting := by
  cases waiting with
  | aside | asking => trivial
  | dropping key =>
    rcases there with ⟨plane, found⟩
    rcases planes_turn turn standing found with ⟨later, now, _⟩
    exact ⟨later, now⟩
  | stopped key =>
    rcases there with ⟨plane, found, dead⟩
    rcases planes_turn turn standing found with ⟨later, now, _, fades⟩
    exact ⟨later, now, fades dead⟩
  | loading =>
    cases turn with
    | rests | leaves | loads | drops => exact there
    | stops | kills | ends =>
      exact ⟨there.1.edit _ (by simp [Plane.stop, Plane.close]), edit_planes_eq_none there.2 _ _⟩
    | publishes | opens => cases alone rfl
  | turning | published =>
    cases turn with
    | rests | leaves | loads | drops => exact there
    | stops | kills | ends =>
      exact ⟨there.1.edit _ (by simp [Plane.stop, Plane.close]),
        edit_planes_eq_none there.2.1 _ _, there.2.2⟩
    | publishes | opens => cases alone rfl

end

theorem beginning_turn (turn : Turn place view phase after behind)
    (beginning : behind.isBeginning) : phase.isBeginning := by
  cases turn with
  | rests => exact beginning
  | loads | publishes => rfl
  | leaves | stops | opens | drops | kills | ends => cases beginning

theorem asking_turn {generation : UInt64}
    (turn : Turn place view phase after (.asking generation)) : phase = .asking generation := by
  cases turn
  rfl

theorem planes_none_turn (turn : Turn place view phase after behind)
    (different : key ≠ place) (missing : view.planes key = none) : after.planes key = none := by
  cases turn with
  | rests | leaves | loads | drops | publishes => exact missing
  | stops | kills | ends => exact edit_planes_eq_none missing _ _
  | opens => simp [insert, different, missing]

end Moves

end Turnovers

/-! ## The device follows the protocol -/

namespace Device

def Pc.phase : Pc → Phase
  | .openLock generation | .openCompare generation | .openSet generation => .asking generation
  | .beginLoad _ => .loading
  | .beginNat _ generation | .beginLock _ generation
  | .beginBudget _ generation | .beginPublish _ generation => .turning generation
  | .beginUnlock _ generation | .beginQueue _ generation => .published generation
  | .dropDrain key _ | .dropStop key _ => .dropping key
  | .dropFlows key _ | .dropCheck key _ | .dropGate key _
  | .dropFields key => .stopped key
  | _ => .aside

end Device

def Epoch.plane (epoch : Epoch) : Plane where
  generation := epoch.generation
  alive := epoch.control.alive
  receiving := epoch.receiving

namespace Device

def turnovers (device : Device noise) : Turnovers where
  generation := device.generation
  planes key := (device.epochs.get key).map Epoch.plane

theorem turnovers_modify (device : Device noise) (key : Nat)
    (edit : Epoch → Epoch) (change : Plane → Plane)
    (agree : ∀ epoch, device.epochs.get key = some epoch →
      (edit epoch).plane = change epoch.plane) :
    (device.modifyEpoch key edit).turnovers = device.turnovers.edit key change := by
  rw [turnovers, turnovers, Turnovers.edit]
  congr 1
  funext other
  simp only [modifyEpoch, HashMap.modify]
  cases there : device.epochs.get key with
  | none => by_cases same : other = key <;> simp [same, there]
  | some epoch =>
    by_cases same : other = key
    · simp [same, agree epoch there]
    · simp [same]

/-- The epoch's plane is edited where no turnover looks. -/
theorem turnovers_modify_same (device : Device noise) (key : Nat) (edit : Epoch → Epoch)
    (agree : ∀ epoch, device.epochs.get key = some epoch → (edit epoch).plane = epoch.plane) :
    (device.modifyEpoch key edit).turnovers = device.turnovers := by
  rw [turnovers_modify device key edit id agree]
  exact Turnovers.edit_id _ _

variable {device : Device noise}

theorem Unturned.turnovers (unturned : Unturned fresh device after) :
    after.turnovers = device.turnovers := by
  rw [Device.turnovers, Device.turnovers, unturned.generation]
  congr 1
  funext key
  rcases unturned.epochs key with ⟨before, later⟩ | ⟨epoch, later, before, there, kept⟩
  · rw [before, later]
  · simp [before, there, Epoch.plane, kept.generation, kept.alive, kept.receiving]

theorem Pc.phase_eq_aside {pc : Pc} (free : pc.manner ≠ .busy) : pc.phase = .aside := by
  cases pc <;> first | rfl | exact absurd rfl free

theorem Calm.turn {fresh : UplinkItem → Prop} (calm : Calm fresh device stepped) (place : Nat) :
    Turn place device.turnovers .aside stepped.shared.turnovers
      stepped.pc.phase := by
  rw [calm.unturned.turnovers, Pc.phase_eq_aside calm.free]
  exact .rests

theorem drainUplink_turn (device : Device noise) (place key : Nat)
    (generation : UInt64) (epoch : Epoch) : Turn place device.turnovers (.dropping key)
      (device.drainUplink key generation epoch).shared.turnovers
      (device.drainUplink key generation epoch).pc.phase := by
  rw [drainUplink]
  split
  · rename_i uplink _
    have same := turnovers_modify_same device key
      (fun epoch => { epoch with uplink }) fun _ _ => rfl
    have kept : (device.modifyEpoch key fun epoch =>
        { epoch with uplink }).countStaleFlushed.turnovers =
          device.turnovers := same
    simp only [kept]
    exact .rests
  · exact .rests

theorem next_alive {control : GatewayControl}
    (taken : ControlClosing.next control pc = some outcome) :
    outcome.shared.alive = control.alive ∨ outcome.shared.alive = false := by
  cases pc with
  | openCheck =>
    simp only [ControlClosing.next] at taken
    split at taken <;> cases taken <;> exact .inl rfl
  | closeStop =>
    cases taken
    exact .inr rfl
  | openPort | openToken | openRegister | closeFlows | delivering | dropping =>
    cases taken
    exact .inl rfl
  | opened | refused | closed | delivered | dropped => cases taken

theorem control_turn {key : Nat} (there : device.epochs.get key = some epoch)
    (place : Nat) (inner : ControlClosing.next epoch.control pc = some outcome) :
    Turn place device.turnovers .aside (device.modifyEpoch key fun epoch =>
      { epoch with control := outcome.shared }).turnovers .aside := by
  rcases next_alive inner with same | dead
  · have kept : (device.modifyEpoch key fun epoch =>
        { epoch with control := outcome.shared }).turnovers =
          device.turnovers := by
      apply turnovers_modify_same
      intro found here
      rw [there] at here
      cases here
      simp [Epoch.plane, same]
    rw [kept]
    exact .rests
  · have stopped : (device.modifyEpoch key fun epoch =>
        { epoch with control := outcome.shared }).turnovers = device.turnovers.edit key .stop := by
      apply turnovers_modify
      intro found here
      simp [Epoch.plane, Plane.stop, dead]
    rw [stopped]
    exact .stops

/-- Every step of a call is a move of the protocol. -/
theorem next_turn (taken : next engine device place pc input = some outcome) :
    Turn place device.turnovers pc.phase outcome.shared.turnovers
      outcome.pc.phase := by
  cases pc with
  | beginLoad =>
    cases taken
    exact .loads
  | beginNat | beginBudget | beginUnlock | openRefuse | closeLoad | closeSet =>
    cases taken
    exact .rests
  | openSet =>
    cases taken
    exact .leaves
  | openCompare =>
    rw [next] at taken
    split at taken <;> cases taken
    · exact .rests
    · exact .leaves
  | beginLock | openLock | closeLock | dropGate =>
    rcases locked_eq_some taken with ⟨_, rfl⟩
    exact .rests
  | beginPublish =>
    cases taken
    exact .publishes
  | beginQueue addressing generation =>
    cases taken
    have opened : (device.openQueue place addressing generation).turnovers =
        device.turnovers.insert place (.begun generation) := by
      rw [turnovers, turnovers, Turnovers.insert]
      congr 1
      funext other
      by_cases same : other = place
      · simp [openQueue, same]
        rfl
      · simp [openQueue, same]
    simp only [opened]
    exact .opens
  | dropCheck =>
    rw [next] at taken
    split at taken <;> cases taken <;> exact .rests
  | dropStart key =>
    rcases withEpoch_eq_some taken with ⟨epoch, there, taken⟩
    split at taken <;> cases taken
    have same := turnovers_modify_same device key
      (fun epoch => { epoch with held := false }) fun _ _ => rfl
    simp only [same]
    exact .drops (by simp [turnovers, there])
  | dropDrain key generation =>
    rcases withEpoch_eq_some taken with ⟨epoch, _, taken⟩
    cases taken
    exact drainUplink_turn device place key generation epoch
  | dropStop key =>
    cases taken
    have stopped := turnovers_modify device key
      (fun epoch => { epoch with control := epoch.control.stop }) .stop fun _ _ => rfl
    simp only [stopped]
    exact .kills
  | dropFlows key =>
    cases taken
    have same := turnovers_modify_same device key
      (fun epoch => { epoch with control := epoch.control.closeFlows }) fun _ _ => rfl
    simp only [same]
    exact .rests
  | dropFields key =>
    cases taken
    have closed := turnovers_modify device key Epoch.close .close fun _ _ => rfl
    simp only [closed]
    exact .ends
  | onControl key pc =>
    rcases withEpoch_eq_some taken with ⟨epoch, there, taken⟩
    rcases map_eq_some_iff.mp taken with ⟨inner, stepped, rfl⟩
    exact control_turn there place stepped
  | _ => exact (next_calm taken (by rintro ⟨⟩)).turn place

end Device

end WarrenSdk.Bolthole
