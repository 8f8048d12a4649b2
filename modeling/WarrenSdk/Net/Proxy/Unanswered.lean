import Mathlib.Data.List.Perm.Basic
import WarrenSdk.Net.Proxy.Handover

/-! # No request is lost with its path

Every request that was read is counted: once while a task or the queue has it,
and once when it is answered. Only a path that stops between the dial and the
answer takes one away. -/

namespace WarrenSdk.Net.Proxy.Proxies

open Bolthole Netstack List

variable {proxies : Proxies}

def places (proxies : Proxies) : List Nat :=
  proxies.tasks.map (·.pending.id) ++ proxies.queue.map (·.id)

def answered (proxies : Proxies) : List Nat := proxies.replies.map Prod.fst

def tally (proxies : Proxies) (id : Nat) : Nat :=
  proxies.places.count id + proxies.answered.count id

/-- Every request of a client that is there is in exactly one place, or was
answered once. -/
def Kept (proxies : Proxies) : Prop :=
  ∀ id < proxies.accepted, id ∉ proxies.gone → proxies.tally id = 1

/-- No path stops between the dial of a request and its answer. -/
def Steady (proxies : Proxies) : Action → Prop
  | .advance place _ => ∀ task scope, proxies.tasks[place]? = some task →
      task.pc = .relay scope → proxies.stopped scope.stop = true → task.pending.id ∈ proxies.gone
  | _ => True

/-! ## What a step does to the count -/

/-- The requests are where they can be counted as before. -/
structure Conserved (before after : Proxies) : Prop where
  accepted : after.accepted = before.accepted
  gone : before.gone ⊆ after.gone
  tally : ∀ id, after.tally id = before.tally id

theorem Conserved.refl (proxies : Proxies) : Conserved proxies proxies :=
  ⟨rfl, .refl _, fun _ => rfl⟩

theorem Conserved.of_same {after : Proxies} (accepted : after.accepted = before.accepted)
    (gone : before.gone ⊆ after.gone) (tasks : after.tasks = before.tasks)
    (queue : after.queue = before.queue)
    (replies : after.replies = before.replies) : Conserved before after := by
  refine ⟨accepted, gone, ?_⟩
  intro id
  rw [Proxies.tally, Proxies.tally, places, places, answered, answered, tasks, queue, replies]

variable {place : Nat}

section

variable (here : proxies.tasks[place]? = some task)

include here

theorem count_drop (id : Nat) : proxies.places.count id =
      (proxies.drop place).places.count id + if task.pending.id = id then 1 else 0 := by
  rcases List.getElem?_eq_some_iff.mp here with ⟨inside, rfl⟩
  have perm : (proxies.tasks.get ⟨place, inside⟩ ::
      proxies.tasks.eraseIdx place).Perm proxies.tasks :=
    getElem_cons_eraseIdx_perm inside
  have counted := (perm.map (·.pending.id)).count_eq id
  simp only [map_cons, count_cons, get_eq_getElem, beq_iff_eq] at counted
  simp only [places, drop, count_append]
  omega

theorem goto_conserved (pc : Pc) : Conserved proxies (proxies.goto place task pc) := by
  refine ⟨rfl, .refl _, ?_⟩
  intro id
  have same : (proxies.tasks.set place { task with pc }).map (·.pending.id) =
      proxies.tasks.map (·.pending.id) := by
    rcases List.getElem?_eq_some_iff.mp here with ⟨inside, rfl⟩
    rw [map_set]
    apply ext_getElem
    · simp
    · intro index _ _
      rw [getElem_set]
      split
      · rename_i equal
        subst equal
        simp
      · rfl
  rw [Proxies.tally, Proxies.tally, places, places, goto, same]
  rfl

theorem reply_conserved (answer : Answer) :
    Conserved proxies (proxies.reply place task answer) := by
  refine ⟨rfl, .refl _, ?_⟩
  intro id
  have counted := count_drop here id
  simp only [Proxies.tally, answered, reply, map_append, count_append,
    map_cons, map_nil, count_singleton, beq_iff_eq] at counted ⊢
  have same : places { proxies.drop place with
      replies := proxies.replies ++ [(task.pending.id, answer)] } =
        (proxies.drop place).places := rfl
  rw [same, drop] at *
  omega

theorem push_conserved : Conserved proxies (proxies.push place task.pending) := by
  refine ⟨rfl, .refl _, ?_⟩
  intro id
  have counted := count_drop here id
  simp only [Proxies.tally, places, answered, push, drop, map_append,
    count_append, map_cons, map_nil, count_singleton, beq_iff_eq] at counted ⊢
  omega

end

theorem spawn_tally (proxies : Proxies) (pending : Pending) (pc : Pc) (id : Nat) :
    (proxies.spawn pending pc).tally id = proxies.tally id + if pending.id = id then 1 else 0 := by
  simp only [Proxies.tally, places, answered, spawn, map_append,
    count_append, map_cons, map_nil, count_singleton, beq_iff_eq]
  omega

theorem take_conserved (proxies : Proxies) (scope : PathScope) :
    Conserved proxies (proxies.take scope) := by
  rw [take]
  split
  · exact .refl proxies
  · rename_i pending rest queued
    refine ⟨rfl, .refl _, ?_⟩
    intro id
    rw [spawn_tally]
    simp only [Proxies.tally, places, answered, queued, count_append,
      map_cons, count_cons, beq_iff_eq]
    omega

theorem refuseExpired_conserved (proxies : Proxies) : Conserved proxies proxies.refuseExpired := by
  refine ⟨rfl, .refl _, ?_⟩
  intro id
  have perm := filter_append_perm
    (fun pending : Pending => decide (pending.expires ≤ proxies.now)) proxies.queue
  have counted := (perm.map (·.id)).count_eq id
  simp only [map_append, count_append] at counted
  simp only [Proxies.tally, places, answered, refuseExpired, map_append,
    count_append, map_map, Function.comp_def]
  omega

/-- A task goes on with its request, answers it or holds it, unless its client
has hung up or its path has stopped under the answer. -/
theorem advance_cases (here : proxies.tasks[place]? = some task) (input : Input) :
    Conserved proxies (proxies.advance place task input) ∨
      proxies.advance place task input = proxies.drop place ∧ (task.pending.id ∈ proxies.gone ∨
          ∃ scope, task.pc = .relay scope ∧ proxies.stopped scope.stop) := by
  have told : ∀ answer, Conserved proxies (proxies.tell place task answer input) ∨
      proxies.tell place task answer input = proxies.drop place ∧
        task.pending.id ∈ proxies.gone := by
    intro answer
    rw [tell.eq_def]
    split
    · exact .inl (reply_conserved here answer)
    · split
      · rename_i left
        exact .inr ⟨rfl, left⟩
      · exact .inl (.refl proxies)
    · exact .inl (.refl proxies)
  rw [advance]
  cases standing : task.pc with
  | answer scope =>
    simp only
    split
    · rename_i left
      exact .inr ⟨rfl, .inl left.2.2⟩
    · exact .inl (goto_conserved here _)
  | dial | hold =>
    simp only
    split <;> exact .inl (goto_conserved here _)
  | dialling scope =>
    left
    simp only
    split
    · exact goto_conserved here _
    · rw [dialled.eq_def]
      split
      · exact goto_conserved here _
      · exact goto_conserved here _
      · exact goto_conserved here _
      · exact .refl proxies
  | pathGone scope =>
    left
    simp only
    split
    · split
      · exact goto_conserved here _
      · exact .refl proxies
    · exact goto_conserved here _
  | push => exact .inl (push_conserved here)
  | relay scope =>
    simp only
    split
    · rename_i stopped
      exact .inr ⟨rfl, .inr ⟨scope, rfl, stopped⟩⟩
    · rw [relay.eq_def]
      split
      · exact .inl (reply_conserved here _)
      · rcases told .carried with kept | ⟨dropped, left⟩
        · exact .inl kept
        · exact .inr ⟨dropped, .inl left⟩
  | refuse error =>
    rcases told (refusal task.pending.request error) with kept | ⟨dropped, left⟩
    · exact .inl kept
    · exact .inr ⟨dropped, .inl left⟩

theorem advance_relay (standing : task.pc = .relay scope)
    (stopped : proxies.stopped scope.stop) (input : Input) :
    proxies.advance place task input = proxies.drop place := by
  rw [advance, standing]
  simp only [stopped, if_true]

/-- Everything that a step can do to the count: nothing, add a request, or lose
the one whose client has hung up or whose path has stopped. -/
inductive Counting (before : Proxies) (action : Action) (after : Proxies) : Prop
  | conserved (same : Conserved before after) (steady : before.Steady action)
  | read (accepted : after.accepted = before.accepted + 1) (gone : after.gone = before.gone)
      (tally : ∀ id, after.tally id = before.tally id + if before.accepted = id then 1 else 0)
      (steady : before.Steady action)
  | dropped (place : Nat) (task : Task)
      (here : before.tasks[place]? = some task) (equal : after = before.drop place)
      (steady : before.Steady action ↔ task.pending.id ∈ before.gone)

theorem step_counting (proxies : Proxies) (action : Action) :
    Counting proxies action (proxies.step action) := by
  cases action with
  | read server request =>
    rw [step]
    split
    · exact .conserved (.refl proxies) trivial
    · refine .read rfl rfl ?_ trivial
      intro id
      rw [spawn_tally]
      rfl
  | take server =>
    refine .conserved ?_ trivial
    rw [step]
    split
    · exact .refl proxies
    · split
      · exact take_conserved proxies _
      · exact .refl proxies
  | fire timer =>
    refine .conserved ?_ trivial
    rw [step]
    split
    · exact .refl proxies
    · split
      · rename_i expires _ _
        have refused := refuseExpired_conserved
          { proxies with timers := proxies.timers.eraseIdx timer }
        exact ⟨refused.accepted, refused.gone, refused.tally⟩
      · exact .refl proxies
  | hangUp client =>
    refine .conserved ?_ trivial
    exact .of_same rfl (subset_cons_self _ _) rfl rfl rfl
  | advance place input =>
    rw [step]
    split
    · rename_i missing
      refine .conserved (.refl proxies) ?_
      intro task scope here
      rw [missing] at here
      cases here
    · rename_i task here
      by_cases stopping : ∃ scope, task.pc = .relay scope ∧ proxies.stopped scope.stop = true
      · rcases stopping with ⟨scope, standing, stopped⟩
        refine .dropped place task here (advance_relay standing stopped input) ?_
        constructor
        · intro steady
          exact steady task scope here standing stopped
        · intro left other _ there _ _
          rw [here] at there
          cases there
          exact left
      · have steady : proxies.Steady (.advance place input) := by
          intro other scope there standing stopped
          rw [here] at there
          cases there
          exact absurd ⟨scope, standing, stopped⟩ stopping
        rcases advance_cases here input with same | ⟨equal, left | stops⟩
        · exact .conserved same steady
        · exact .dropped place task here equal (iff_of_true steady left)
        · exact absurd stops stopping
  | _ => exact .conserved (.of_same rfl (.refl _) rfl rfl rfl) trivial

/-! ## Every run -/

/-- A request is counted at most once, and not before it was read. -/
def Counted (proxies : Proxies) : Prop :=
  ∀ id, proxies.tally id ≤ 1 ∧ (proxies.accepted ≤ id → proxies.tally id = 0)

theorem tally_drop (here : proxies.tasks[place]? = some task) (id : Nat) :
    proxies.tally id = (proxies.drop place).tally id +
      if task.pending.id = id then 1 else 0 := by
  have counted := count_drop here id
  have same : (proxies.drop place).answered = proxies.answered := rfl
  rw [Proxies.tally, Proxies.tally, counted, same]
  omega

theorem Counted.step (counted : proxies.Counted) (action : Action) :
    (proxies.step action).Counted := by
  intro id
  rcases counted id with ⟨once, unread⟩
  rcases step_counting proxies action with
    ⟨same, _⟩ | ⟨accepted, _, tally, _⟩ | ⟨place, task, here, equal, _⟩
  · rw [same.accepted, same.tally]
    exact ⟨once, unread⟩
  · rw [accepted, tally]
    split
    · rename_i fresh
      rw [unread (Nat.le_of_eq fresh)]
      omega
    · exact ⟨once, fun late => unread (by omega)⟩
  · have fewer := tally_drop here id
    rw [equal]
    have accepted : (proxies.drop place).accepted = proxies.accepted := rfl
    rw [accepted]
    constructor
    · omega
    · intro late
      have zero := unread late
      omega

/-- A step keeps every request where it can be counted exactly if no path stops
under an answer. -/
theorem kept_step_iff (counted : proxies.Counted) (kept : proxies.Kept)
    (action : Action) : (proxies.step action).Kept ↔ proxies.Steady action := by
  rcases step_counting proxies action with
    ⟨same, steady⟩ | ⟨accepted, gone, tally, steady⟩ |
    ⟨place, task, here, equal, steady⟩
  · refine iff_of_true ?_ steady
    intro id read there
    rw [same.accepted] at read
    rw [same.tally]
    exact kept id read fun left => there (same.gone left)
  · refine iff_of_true ?_ steady
    intro id read there
    rw [accepted] at read
    rw [gone] at there
    rw [tally]
    split
    · rename_i fresh
      rw [(counted id).2 (Nat.le_of_eq fresh)]
    · exact kept id (by omega) there
  · rw [steady, equal]
    have lost := tally_drop here
    constructor
    · intro keeps
      by_contra there
      have before := lost task.pending.id
      rw [if_pos rfl] at before
      have read : task.pending.id < proxies.accepted := by
        by_contra late
        have none := (counted task.pending.id).2 (Nat.le_of_not_lt late)
        omega
      have after := keeps task.pending.id read there
      have once := (counted task.pending.id).1
      omega
    · intro left id read there
      have before := lost id
      have other : task.pending.id ≠ id := by
        rintro rfl
        exact there left
      rw [if_neg other] at before
      rw [← kept id read there, before, Nat.add_zero]

/-- In every run, every request of a client that is there is in exactly one place
or was answered once, in every state that is passed, exactly if no path stops
between the dial of a request and its answer. -/
theorem requests_kept_iff (deadline : Duration) (actions : List Action) :
    (∀ past later, actions = past ++ later → (run (start deadline) past).Kept) ↔
      Execution.Guarded step Steady (start deadline) actions := by
  apply Execution.everywhere_iff step (fun _ => True) Counted Kept
  · intro id
    exact ⟨Nat.zero_le _, fun _ => rfl⟩
  · intro id read
    exact absurd read (Nat.not_lt_zero id)
  · exact fun _ action _ counted => counted.step action
  · exact fun _ action _ counted kept => kept_step_iff counted kept action
  · exact fun _ _ => trivial

/-- A path that stops when the target has just been reached: the client, which is
there, is in no place and was told nothing. -/
theorem stop_after_dial_loses :
    let after := run (start handoverDeadline)
      [.watch, .serve 0 ⟨0, true⟩, .read 0 .forward, .advance 0 .nothing,
        .advance 0 .nothing, .advance 0 .up, .publish 0 false, .advance 0 .nothing]
    after.accepted = 1 ∧ after.gone = [] ∧ after.places = [] ∧
      after.answered = [] ∧ ¬after.Kept := by
  refine ⟨by decide, by decide, by decide, by decide, ?_⟩
  intro kept
  have lost := kept 0 (by decide) (by decide)
  exact absurd lost (by decide)

end WarrenSdk.Net.Proxy.Proxies
