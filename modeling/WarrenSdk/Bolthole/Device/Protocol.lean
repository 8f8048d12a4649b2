import WarrenSdk.Bolthole.Device.Ordinary

/-! # The protocol of the gate

Toward the gate a device is a small protocol over three variables: the gate,
the generation and the holder of the responder's lock. Every step of a call is
one of the moves of the protocol, and what holds of the gate in every
interleaving is proved about the moves. -/

namespace WarrenSdk.Bolthole.Device

open Interleaving

/-! ## The protocol -/

structure View where
  gate : Gate
  generation : UInt64
  lock : Option Nat

/-- What a call is about to do with the gate. All stages but `outside` and
`dropping` are under the responder's lock. -/
inductive Stage
  | outside
  | shut (generation : UInt64)
  | published
  | comparing (generation : UInt64)
  | refusing
  | opening (generation : UInt64)
  | closing
  | loaded (generation : UInt64)
  | dropping (generation : UInt64)

inductive Touch (place : Nat) (view : View) : Stage → View → Stage → List Event → Prop
  | rests {events : List Event} (quiet : ∀ event ∈ events, event.isQuiet = true) :
      Touch place view .outside view .outside events
  | begins {generation : UInt64} (free : view.lock = none) : Touch place view .outside
        ⟨⟨false, generation⟩, view.generation, some place⟩ (.shut generation) [.began generation]
  | waits {generation : UInt64} : Touch place view (.shut generation) view (.shut generation) []
  | publishes {generation : UInt64} :
      Touch place view (.shut generation) ⟨view.gate, generation, view.lock⟩
        .published [.published generation]
  | releases : Touch place view .published ⟨view.gate, view.generation, none⟩ .outside []
  | asks {generation : UInt64} (free : view.lock = none) :
      Touch place view .outside ⟨view.gate, view.generation, some place⟩ (.comparing generation) []
  | matches {generation : UInt64} (current : view.generation = generation) :
      Touch place view (.comparing generation) view (.opening generation) []
  | differs {generation : UInt64} (stale : view.generation ≠ generation) :
      Touch place view (.comparing generation) view .refusing []
  | refuses : Touch place view .refusing ⟨view.gate, view.generation, none⟩ .outside []
  | opens {generation : UInt64} : Touch place view (.opening generation)
        ⟨⟨true, generation⟩, view.generation, none⟩ .outside [.opened generation]
  | locks (free : view.lock = none) :
      Touch place view .outside ⟨view.gate, view.generation, some place⟩ .closing []
  | loads : Touch place view .closing view (.loaded view.generation) []
  | closes {generation : UInt64} : Touch place view (.loaded generation)
        ⟨⟨false, generation⟩, view.generation, none⟩ .outside [.closed generation]
  | checks {generation : UInt64} (current : view.generation = generation) :
      Touch place view .outside view (.dropping generation) []
  | drops {generation : UInt64} (free : view.lock = none) : Touch place view (.dropping generation)
        ⟨⟨false, generation⟩, view.generation, view.lock⟩ .outside [.dropped generation true]

def Held (view : View) (place : Nat) : Stage → Prop
  | .outside | .dropping _ => True
  | .shut _ | .published => view.lock = some place ∧ view.gate.open = false
  | .opening generation => view.lock = some place ∧ view.generation = generation
  | .comparing _ | .refusing | .closing | .loaded _ => view.lock = some place

def Current (view : View) : Prop := view.gate.open = true → view.gate.generation = view.generation

section Moves

variable (touch : Touch place view stage after behind events) (held : Held view place stage)

include touch held

theorem Touch.own : Held after place behind := by
  cases touch with
  | rests | releases | refuses | opens | closes | checks | drops => trivial
  | begins | asks | locks => simp [Held]
  | waits | publishes | differs | loads => exact held
  | «matches» current => exact ⟨held, current⟩

/-- The variables of the protocol change only for the holder of the lock or
while it is free. -/
theorem Touch.spares (different : other ≠ place)
    (taken : view.lock = some other) : after = view := by
  have own : view.lock ≠ some place := by
    rw [taken]
    simpa using different
  cases touch with
  | rests | waits | «matches» | differs | loads | checks => rfl
  | begins free | asks free | locks free | drops free =>
    rw [free] at taken
    cases taken
  | publishes | releases | opens => exact absurd held.1 own
  | refuses | closes => exact absurd held own

theorem Touch.others (different : other ≠ place) (there : Held view other standing) :
    Held after other standing := by
  cases standing with
  | outside | dropping => trivial
  | shut | published | opening =>
    rw [touch.spares held different there.1]
    exact there
  | comparing | refusing | closing | loaded =>
    rw [touch.spares held different there]
    exact there

theorem Touch.current (current : Current view) : Current after := by
  cases touch with
  | rests | waits | releases | asks | «matches» | differs | refuses | locks |
    loads | checks => exact current
  | begins | closes | drops =>
    intro isOpen
    cases isOpen
  | publishes =>
    intro isOpen
    rw [held.2] at isOpen
    cases isOpen
  | opens => exact fun _ => held.2.symm

end Moves

/-! ## The device follows the protocol -/

def Pc.stage : Pc → Stage
  | .beginBudget _ generation | .beginPublish _ generation => .shut generation
  | .beginUnlock _ _ => .published
  | .openCompare generation => .comparing generation
  | .openRefuse => .refusing
  | .openSet generation => .opening generation
  | .closeLoad => .closing
  | .closeSet generation => .loaded generation
  | .dropGate _ generation => .dropping generation
  | _ => .outside

def view (device : Device noise) : View where
  gate := device.responder.gate
  generation := device.generation
  lock := device.responderLock

theorem Pc.stage_eq_outside {pc : Pc} (free : pc.manner ≠ .busy) : pc.stage = .outside := by
  cases pc <;> first | rfl | exact absurd rfl free

theorem Calm.touch {fresh : UplinkItem → Prop} (calm : Calm fresh device stepped) (place : Nat) :
    Touch place device.view .outside stepped.shared.view stepped.pc.stage
      stepped.events := by
  have same : stepped.shared.view = device.view := by
    rw [view, calm.unturned.gate, calm.unturned.generation, calm.unturned.lock, view]
  rw [same, Pc.stage_eq_outside calm.free]
  exact .rests calm.quiet

/-- Every step of a call is a move of the protocol. -/
theorem next_touch (taken : next engine device place pc input = some outcome) :
    Touch place device.view pc.stage outcome.shared.view outcome.pc.stage
      outcome.events := by
  cases pc with
  | beginLoad | beginNat | beginQueue | dropStop | dropFlows | dropFields =>
    cases taken
    exact .rests (by simp)
  | beginLock addressing generation =>
    rcases locked_eq_some taken with ⟨free, rfl⟩
    exact .begins free
  | beginBudget =>
    cases taken
    exact .waits
  | beginPublish =>
    cases taken
    exact .publishes
  | beginUnlock =>
    cases taken
    exact .releases
  | openLock =>
    rcases locked_eq_some taken with ⟨free, rfl⟩
    exact .asks free
  | openCompare generation =>
    rw [next] at taken
    split at taken <;> cases taken
    · exact .matches ‹_›
    · exact .differs ‹_›
  | openRefuse =>
    cases taken
    exact .refuses
  | openSet =>
    cases taken
    exact .opens
  | closeLock =>
    rcases locked_eq_some taken with ⟨free, rfl⟩
    exact .locks free
  | closeLoad =>
    cases taken
    exact .loads
  | closeSet =>
    cases taken
    exact .closes
  | dropStart =>
    rcases withEpoch_eq_some taken with ⟨epoch, _, taken⟩
    split at taken <;> cases taken
    exact .rests (by simp)
  | dropDrain key generation =>
    rcases withEpoch_eq_some taken with ⟨epoch, _, taken⟩
    cases taken
    rw [drainUplink]
    split <;> exact .rests (by simp)
  | dropCheck key generation =>
    rw [next] at taken
    split at taken <;> cases taken
    · exact .checks ‹_›
    · exact .rests (by simp [Event.isQuiet])
  | dropGate key generation =>
    rcases locked_eq_some taken with ⟨free, rfl⟩
    exact .drops free
  | onControl key pc =>
    rcases withEpoch_eq_some taken with ⟨epoch, _, taken⟩
    rcases Option.map_eq_some_iff.mp taken with ⟨inner, _, rfl⟩
    exact .rests (by simp)
  | _ => exact (next_calm taken (by rintro ⟨⟩)).touch place

end WarrenSdk.Bolthole.Device
