import WarrenSdk.Foundation.Execution

/-! # Interleavings

Calls that run at the same time over shared state, one atomic step of one call
after the other. A schedule starts calls and says which call takes the next
step; a call that is blocked or over takes none. The log keeps what the steps
announced, in their order. -/

namespace WarrenSdk.Interleaving

open List

/-- What the calls share, where every one of them stands and what has
happened. -/
structure World (Shared Pc Event : Type) where
  shared : Shared
  calls : List Pc
  log : List Event

inductive Action (Call Input : Type)
  | start (call : Call)
  | advance (place : Nat) (input : Input)

/-- What one step of a call leaves. -/
structure Outcome (Shared Pc Event : Type) where
  shared : Shared
  pc : Pc
  events : List Event := []

/-- Where a call begins, and the one step that it takes from each place. -/
structure Program (Shared Pc Event Call Input : Type) where
  enter : Call → Pc
  next : Shared → (place : Nat) → Pc → Input → Option (Outcome Shared Pc Event)

variable {Shared Pc Event Call Input : Type} (program : Program Shared Pc Event Call Input)

namespace World

def started (world : World Shared Pc Event) (pc : Pc) : World Shared Pc Event :=
  { world with calls := world.calls ++ [pc] }

def advanced (world : World Shared Pc Event) (place : Nat)
    (outcome : Outcome Shared Pc Event) : World Shared Pc Event where
  shared := outcome.shared
  calls := world.calls.set place outcome.pc
  log := world.log ++ outcome.events

end World

def step (world : World Shared Pc Event) : Action Call Input → World Shared Pc Event
  | .start call => world.started (program.enter call)
  | .advance place input =>
    match world.calls[place]? with
    | none => world
    | some pc =>
      match program.next world.shared place pc input with
      | none => world
      | some outcome => world.advanced place outcome

variable {world : World Shared Pc Event} {place : Nat} {input : Input} {pc : Pc}
    {outcome : Outcome Shared Pc Event} {kind : Pc → Bool}

theorem step_advance (here : world.calls[place]? = some pc)
    (taken : program.next world.shared place pc input = some outcome) :
    step program world (.advance place input) = world.advanced place outcome := by
  simp only [step, here, taken]

/-- Everything that an action can do. -/
inductive Move (world : World Shared Pc Event) : Action Call Input → World Shared Pc Event → Prop
  | stays (action : Action Call Input) : Move world action world
  | starts (call : Call) : Move world (.start call) (world.started (program.enter call))
  | advances {place : Nat} {input : Input} {pc : Pc}
      {outcome : Outcome Shared Pc Event}
      (here : world.calls[place]? = some pc)
      (taken : program.next world.shared place pc input = some outcome) :
      Move world (.advance place input) (world.advanced place outcome)

theorem step_move (world : World Shared Pc Event) (action : Action Call Input) :
    Move program world action (step program world action) := by
  cases action with
  | start call => exact .starts call
  | advance place input =>
    rw [step]
    cases here : world.calls[place]? with
    | none => exact .stays _
    | some pc =>
      cases taken : program.next world.shared place pc input with
      | none =>
        simp only [taken]
        exact .stays _
      | some outcome =>
        simp only [taken]
        exact .advances here taken

/-- What a property has to survive to survive an action. -/
theorem step_rule (holds : World Shared Pc Event → Prop) (stays : holds world)
    (starts : ∀ call, action = .start call → holds (world.started (program.enter call)))
    (advances : ∀ place input pc outcome, action = .advance place input →
      world.calls[place]? = some pc → program.next world.shared place pc input = some outcome →
      holds (world.advanced place outcome)) :
    holds (step program world action) := by
  have move := step_move program world action
  generalize step program world action = after at move
  cases move with
  | stays => exact stays
  | starts call => exact starts call rfl
  | advances here taken => exact advances _ _ _ _ rfl here taken

def run (world : World Shared Pc Event)
    (schedule : List (Action Call Input)) : World Shared Pc Event :=
  Execution.run (step program) world schedule

theorem calls_started (here : (world.started entered).calls[place]? = some pc) :
    (place = world.calls.length ∧ pc = entered) ∨ world.calls[place]? = some pc := by
  rw [World.started, List.getElem?_append] at here
  split at here
  · exact .inr here
  · rename_i outside
    rw [List.getElem?_singleton] at here
    split at here
    · cases here
      exact .inl ⟨by omega, rfl⟩
    · cases here

theorem calls_run_start (world : World Shared Pc Event)
    (past : List (Action Call Input)) (call : Call) :
    (run program world (past ++ [.start call])).calls[
      (run program world past).calls.length]? = some (program.enter call) := by
  rw [run, run, Execution.run_snoc]
  simp [step, World.started]

theorem calls_advanced (here : (world.advanced place outcome).calls[other]? = some pc) :
    (other = place ∧ pc = outcome.pc) ∨ (other ≠ place ∧ world.calls[other]? = some pc) := by
  rw [World.advanced, List.getElem?_set] at here
  split at here
  · rename_i same
    subst other
    split at here
    · cases here
      exact .inl ⟨rfl, rfl⟩
    · cases here
  · rename_i different
    exact .inr ⟨Ne.symm different, here⟩

theorem calls_of_ne (outcome : Outcome Shared Pc Event)
    (there : world.calls[other]? = some pc) (different : other ≠ place) :
    (world.advanced place outcome).calls[other]? = some pc := by
  rw [World.advanced, List.getElem?_set_ne (Ne.symm different)]
  exact there

theorem calls_of_advanced (outcome : Outcome Shared Pc Event)
    (here : world.calls[place]? = some pc) :
    (world.advanced place outcome).calls[place]? = some outcome.pc := by
  have inside : place < world.calls.length := (List.getElem?_eq_some_iff.mp here).1
  rw [World.advanced, List.getElem?_set_self inside]

/-! ## Calls on their own -/

/-- A call is made, and takes its steps without another call in between. -/
def alone (world : World Shared Pc Event) (call : Call) (input : Input)
    (steps : Nat) : World Shared Pc Event :=
  run program world (.start call :: List.replicate steps (.advance world.calls.length input))

/-- What a call leaves that takes so many steps, or less if it is over. -/
def solo (place : Nat) (input : Input) : Nat → Shared → Pc → Outcome Shared Pc Event
  | 0, shared, pc => { shared, pc }
  | steps + 1, shared, pc =>
    match program.next shared place pc input with
    | none => { shared, pc }
    | some outcome =>
      let rest := solo place input steps outcome.shared outcome.pc
      { rest with events := outcome.events ++ rest.events }

theorem solo_succ (steps : Nat) (taken : program.next shared place pc input = some outcome) :
    (solo program place input (steps + 1) shared pc).shared =
      (solo program place input steps outcome.shared outcome.pc).shared := by
  simp only [solo, taken]

theorem run_solo (steps : Nat) : run program ⟨shared, earlier ++ [pc], log⟩
        (List.replicate steps (.advance earlier.length input)) =
      let outcome := solo program earlier.length input steps shared pc
      ⟨outcome.shared, earlier ++ [outcome.pc], log ++ outcome.events⟩ := by
  induction steps generalizing shared pc log with
  | zero => simp [run, Execution.run, solo]
  | succ steps induction =>
    rw [replicate_succ, run, Execution.run, foldl_cons, step]
    simp only [List.getElem?_concat_length]
    cases taken : program.next shared earlier.length pc input with
    | none =>
      rw [← Execution.run, ← run, induction]
      cases steps with
      | zero | succ => simp [solo, taken]
    | some outcome =>
      simp only [World.advanced, set_append_right _ _ (Nat.le_refl _), Nat.sub_self, set_cons_zero]
      rw [← Execution.run, ← run, induction]
      simp [solo, taken]

theorem alone_eq (world : World Shared Pc Event) (call : Call) (input : Input) (steps : Nat) :
    alone program world call input steps =
      let outcome := solo program world.calls.length input steps world.shared
        (program.enter call)
      ⟨outcome.shared, world.calls ++ [outcome.pc], world.log ++ outcome.events⟩ :=
  run_solo program steps

/-! ## What every call satisfies -/

/-- A property of the shared state and of every call where it stands. -/
def Each (holds : Shared → Nat → Pc → Prop) (world : World Shared Pc Event) : Prop :=
  ∀ place pc, world.calls[place]? = some pc → holds world.shared place pc

theorem Each.started (each : Each holds world) (fresh : holds world.shared world.calls.length pc) :
    Each holds (world.started pc) := by
  intro place other here
  rcases calls_started here with ⟨rfl, rfl⟩ | there
  · exact fresh
  · exact each place other there

/-- A step keeps a property of every call if it establishes it for the call that
takes it and does not disturb the others. -/
theorem Each.advanced (each : Each holds world) (own : holds outcome.shared place outcome.pc)
    (others : ∀ other pc, other ≠ place → world.calls[other]? = some pc →
      holds world.shared other pc → holds outcome.shared other pc) :
    Each holds (world.advanced place outcome) := by
  intro other pc here
  rcases calls_advanced here with ⟨rfl, rfl⟩ | ⟨different, there⟩
  · exact own
  · exact others other pc different there (each other pc there)

/-- At most one call stands at a place of a kind. -/
def Sole (kind : Pc → Bool) (world : World Shared Pc Event) : Prop :=
  ∀ (place other : Nat) (pc waiting : Pc), world.calls[place]? = some pc →
    world.calls[other]? = some waiting → kind pc = true → kind waiting = true → place = other

theorem Sole.started (sole : Sole kind world)
    (first : kind pc = true → ∀ waiting ∈ world.calls, kind waiting = false) :
    Sole kind (world.started pc) := by
  have lone : ∀ (place : Nat) waiting, world.calls[place]? = some waiting →
      kind pc = true → kind waiting = true → False := by
    intro place waiting there entering standing
    rw [first entering waiting (mem_of_getElem? there)] at standing
    cases standing
  intro place other standing waiting here there stands waits
  rcases calls_started here with ⟨rfl, rfl⟩ | stood
  · rcases calls_started there with ⟨rfl, rfl⟩ | waited
    · rfl
    · exact (lone other waiting waited stands waits).elim
  · rcases calls_started there with ⟨rfl, rfl⟩ | waited
    · exact (lone place standing stood waits stands).elim
    · exact sole place other standing waiting stood waited stands waits

/-- A call stays the only one of a kind if no step leads to the kind. -/
theorem Sole.advanced (sole : Sole kind world) (here : world.calls[place]? = some pc)
    (stays : kind outcome.pc = true → kind pc = true) :
    Sole kind (world.advanced place outcome) := by
  intro left right standing waiting leftHere rightHere stands waits
  rcases calls_advanced leftHere with ⟨rfl, rfl⟩ | ⟨_, leftThere⟩
  · rcases calls_advanced rightHere with ⟨rfl, rfl⟩ | ⟨_, rightThere⟩
    · rfl
    · exact sole left right pc waiting here rightThere (stays stands) waits
  · rcases calls_advanced rightHere with ⟨rfl, rfl⟩ | ⟨_, rightThere⟩
    · exact sole left right standing pc leftThere here stands (stays waits)
    · exact sole left right standing waiting leftThere rightThere stands waits

/-- A call that comes to the kind is the only one if no other call is there. -/
theorem Sole.entered (first : ∀ (other : Nat) waiting, world.calls[other]? = some waiting →
      kind waiting = false) :
    Sole kind (world.advanced place outcome) := by
  have here : ∀ (other : Nat) waiting, (world.advanced place outcome).calls[other]? = some waiting →
      kind waiting = true → other = place := by
    intro other waiting there waits
    rcases calls_advanced there with ⟨same, _⟩ | ⟨_, waited⟩
    · exact same
    · rw [first other waiting waited] at waits
      cases waits
  intro left right standing waiting leftHere rightHere stands waits
  rw [here left standing leftHere stands, here right waiting rightHere waits]

/-! ## What the log says -/

theorem log_split (equal : log ++ events = earlier ++ event :: between) :
    (∃ front, log = earlier ++ event :: front ∧ between = front ++ events) ∨
      ∃ front, earlier = log ++ front ∧ events = front ++ event :: between := by
  rcases append_eq_append_iff.mp equal with ⟨front, start, rest⟩ | ⟨front, start, rest⟩
  · exact .inr ⟨front, start, rest⟩
  · cases front with
    | nil => exact .inr ⟨[], by simpa using start.symm, rest.symm⟩
    | cons head front =>
      cases rest
      exact .inl ⟨front, start, rfl⟩

end WarrenSdk.Interleaving
