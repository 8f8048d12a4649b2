import Mathlib.Tactic.Common
import Mathlib.Data.List.Induction

/-! # Executions

Runs of a machine whose state is changed by one action at a time, and the
induction rules for what holds along them. -/

namespace WarrenSdk.Execution

open List

variable {State : Type u} {Action : Type v} (step : State → Action → State)

def run (initial : State) (actions : List Action) : State := actions.foldl step initial

@[simp] theorem run_nil (initial : State) : run step initial [] = initial := rfl

theorem run_append (initial : State) (past later : List Action) :
    run step initial (past ++ later) = run step (run step initial past) later :=
  foldl_append

theorem run_snoc (initial : State) (past : List Action) (action : Action) :
    run step initial (past ++ [action]) = step (run step initial past) action := by
  simp [run]

/-- A beginning of a list with one more item is all of it, or one of the list. -/
theorem snoc_cases (equal : items ++ [last] = past ++ later) :
    (later = [] ∧ past = items ++ [last]) ∨
      ∃ front, later = front ++ [last] ∧ items = past ++ front := by
  rcases eq_nil_or_concat later with rfl | ⟨front, final, rfl⟩
  · left
    exact ⟨rfl, by simpa using equal.symm⟩
  · right
    rw [concat_eq_append, ← append_assoc] at equal
    rcases append_inj' equal rfl with ⟨same, last⟩
    cases last
    exact ⟨front, concat_eq_append, same⟩

/-- Every action of the run is allowed in the state that it meets. -/
def Guarded (allowed : State → Action → Prop) (initial : State) (actions : List Action) : Prop :=
  ∀ past action later, actions = past ++ action :: later → allowed (run step initial past) action

variable {allowed : State → Action → Prop} {initial : State}
    {past actions : List Action} {action : Action}

theorem Guarded.of_snoc (guarded : Guarded step allowed initial (past ++ [action])) :
    Guarded step allowed initial past ∧ allowed (run step initial past) action := by
  constructor
  · intro before other later equal
    exact guarded before other (later ++ [action]) (by simp [equal])
  · exact guarded past action [] rfl

theorem Guarded.of_append (guarded : Guarded step allowed initial (past ++ later)) :
    Guarded step allowed initial past := by
  intro before action between equal
  exact guarded before action (between ++ later) (by simp [equal])

theorem Guarded.snoc (guarded : Guarded step allowed initial past)
    (last : allowed (run step initial past) action) :
    Guarded step allowed initial (past ++ [action]) := by
  intro before other later equal
  rcases eq_nil_or_concat later with rfl | ⟨front, final, rfl⟩
  · rcases append_inj' equal rfl with ⟨rfl, same⟩
    cases same
    exact last
  · have split : past ++ [action] = (before ++ other :: front) ++ [final] := by
      rw [equal]
      simp
    exact guarded before other front (append_inj_left' split rfl)

theorem Guarded.and (first : Guarded step left initial actions)
    (second : Guarded step right initial actions) :
    Guarded step (fun state action => left state action ∧ right state action) initial actions :=
  fun past action later equal => ⟨first past action later equal, second past action later equal⟩

theorem Guarded.nil (initial : State) : Guarded step allowed initial [] := by
  intro past action later equal
  exact absurd equal (by simp)

theorem Guarded.cons (first : allowed initial action)
    (rest : Guarded step allowed (step initial action) actions) :
    Guarded step allowed initial (action :: actions) := by
  intro past other later equal
  cases past with
  | nil =>
    cases equal
    exact first
  | cons head past =>
    cases equal
    exact rest past other later rfl

theorem guarded_cons_iff : Guarded step allowed initial (action :: actions) ↔
      allowed initial action ∧ Guarded step allowed (step initial action) actions := by
  constructor
  · intro guarded
    constructor
    · exact guarded [] action actions rfl
    · intro past other later equal
      exact guarded (action :: past) other later (by simp [equal])
  · intro parts
    exact Guarded.cons step parts.1 parts.2

/-- Guards that can be decided can be decided along a run. -/
instance Guarded.decidable (allowed : State → Action → Prop)
    [∀ state action, Decidable (allowed state action)] :
    (initial : State) → (actions : List Action) → Decidable (Guarded step allowed initial actions)
  | initial, [] => isTrue (Guarded.nil step initial)
  | initial, action :: actions =>
    have := Guarded.decidable allowed (step initial action) actions
    decidable_of_iff _ (guarded_cons_iff step).symm

/-- What the past of a run and its state satisfy together: an induction on the
run that keeps the history. -/
theorem run_history (holds : List Action → State → Prop) (base : holds [] initial)
    (next : ∀ past action, holds past (run step initial past) →
      allowed (run step initial past) action →
      holds (past ++ [action]) (step (run step initial past) action))
    (actions : List Action) (guarded : Guarded step allowed initial actions) :
    holds actions (run step initial actions) := by
  induction actions using List.reverseRecOn with
  | nil => exact base
  | append_singleton past action induction =>
    have parts := guarded.of_snoc
    rw [run_snoc]
    exact next past action (induction parts.1) parts.2

/-- An invariant of every step is an invariant of every run. -/
theorem run_invariant (holds : State → Prop) (base : holds initial)
    (next : ∀ state action, holds state → holds (step state action))
    (actions : List Action) : holds (run step initial actions) := by
  induction actions generalizing initial with
  | nil => exact base
  | cons action actions induction => exact induction (next initial action base)

/-- A property that a step keeps exactly if it is allowed holds in every state of
a run exactly if every step of the run is allowed. -/
theorem everywhere_iff (lawful : Action → Prop) (invariant holds : State → Prop)
    (base : invariant initial) (start : holds initial)
    (keeps : ∀ state action, lawful action → invariant state → invariant (step state action))
    (exactly : ∀ state action, lawful action → invariant state → holds state →
      (holds (step state action) ↔ allowed state action))
    (all : ∀ action ∈ actions, lawful action) :
    (∀ past later, actions = past ++ later → holds (run step initial past)) ↔
      Guarded step allowed initial actions := by
  have kept : ∀ past later, actions = past ++ later → invariant (run step initial past) := by
    intro past
    induction past using List.reverseRecOn with
    | nil =>
      intro later split
      exact base
    | append_singleton past action induction =>
      intro later split
      rw [append_assoc] at split
      rw [run_snoc]
      exact keeps _ action (all action (by simp [split])) (induction _ split)
  constructor
  · intro everywhere past action later split
    apply (exactly _ action (all action (by simp [split])) (kept past _ split)
      (everywhere past _ split)).mp
    rw [← run_snoc step]
    exact everywhere (past ++ [action]) later (by simp [split])
  · intro guarded past
    induction past using List.reverseRecOn with
    | nil =>
      intro later split
      exact start
    | append_singleton past action induction =>
      intro later split
      rw [append_assoc] at split
      rw [run_snoc]
      exact (exactly _ action (all action (by simp [split])) (kept past _ split)
        (induction _ split)).mpr (guarded past action later split)

/-- A property of every state from the one after `past` to the end. -/
def HoldsSince (initial : State) (past later : List Action) (holds : State → Prop) : Prop :=
  ∀ middle rest, later = middle ++ rest → holds (run step initial (past ++ middle))

theorem HoldsSince.start (now : holds (run step initial past)) :
    HoldsSince step initial past [] holds := by
  intro middle rest equal
  have empty : middle = [] := (append_eq_nil_iff.mp equal.symm).1
  simpa [empty] using now

theorem HoldsSince.extend (since : HoldsSince step initial past later holds)
    (now : holds (run step initial (past ++ later ++ [action]))) :
    HoldsSince step initial past (later ++ [action]) holds := by
  intro middle rest equal
  rcases eq_nil_or_concat rest with rfl | ⟨front, last, rfl⟩
  · rw [append_nil] at equal
    rw [← equal, ← append_assoc]
    exact now
  · rw [concat_eq_append, ← append_assoc] at equal
    exact since middle front (append_inj_left' equal rfl)

/-! ## Walks that may stop

A walk over a list that is refused at its first refusal. -/

section Walks

variable {Item : Type} {Refusal Visited : Type} (visit : Visited → Item → Except Refusal Visited)

/-- What a walk establishes when it gets to its end. -/
theorem walk_invariant (holds : List Item → Visited → Prop)
    (next : ∀ past item state after, holds past state →
      visit state item = .ok after → holds (past ++ [item]) after)
    {past : List Item} (start : holds past state)
    (walked : items.foldlM visit state = .ok last) :
    holds (past ++ items) last := by
  induction items generalizing past state with
  | nil =>
    cases walked
    simpa using start
  | cons item items induction =>
    rw [foldlM_cons] at walked
    cases outcome : visit state item with
    | error refusal => simp [outcome, bind, Except.bind] at walked
    | ok after =>
      rw [outcome] at walked
      have reached := induction (next past item state after start outcome) walked
      simpa using reached

/-- A walk that can always go on gets to its end. -/
theorem walk_total (holds : List Item → List Item → Visited → Prop)
    (next : ∀ past item rest state, holds past (item :: rest) state →
      ∃ after, visit state item = .ok after ∧ holds (past ++ [item]) rest after) {past : List Item}
    (start : holds past items state) :
    ∃ last, items.foldlM visit state = .ok last ∧ holds (past ++ items) [] last := by
  induction items generalizing past state with
  | nil => exact ⟨state, rfl, by simpa using start⟩
  | cons item items induction =>
    rcases next past item items state start with ⟨after, outcome, holding⟩
    rcases induction holding with ⟨last, walked, reached⟩
    refine ⟨last, ?_, by simpa using reached⟩
    rw [foldlM_cons, outcome]
    exact walked

end Walks

end WarrenSdk.Execution
