import WarrenSdk.Api.TokenManager

/-! # Leases of serials

A session holds the serial that it presents with a lease, and its legs clone the
lease. The manager keeps the set of held serials under a lock, the clones are
counted outside of it, and the last drop lets go of the serial in a section of
its own. A group of clones is there until that section: its serial is held
exactly as long, by this group only. -/

namespace WarrenSdk.Api

open Interleaving HashMap

variable {format : TokenFormat}

namespace Shared

def Held (shared : Shared format) (serial : format.Serial) : Prop :=
  ∃ key group, shared.leases.get key = some group ∧ group.serial = serial

instance (shared : Shared format) (serial : format.Serial) : Decidable (shared.Held serial) :=
  decidable_of_iff (∃ entry ∈ shared.leases.toList, entry.2.serial = serial) <| by
      constructor
      · rintro ⟨⟨key, group⟩, listed, same⟩
        exact ⟨key, group, mem_toList.mp listed, same⟩
      · rintro ⟨key, group, found, same⟩
        exact ⟨(key, group), mem_toList.mpr found, same⟩

/-- The tokens of the current epoch whose serials have no lease, in mint order
from the manager's start on. -/
def unleased (manager : Manager) (shared : Shared format) (now : UInt64) : List (List UInt8) :=
  match shared.state.epochAt now with
  | none => []
  | some epoch =>
    let tokens := shared.state.store.tokens epoch
    ((tokens.rotate (manager.rotation.toNat % tokens.length)).filter
      fun token => ¬ shared.Held (format.serial token)).map format.serialize

end Shared

def Pc.lets (key : Nat) : Pc format → Bool
  | .releasing other => key = other
  | _ => false

theorem Pc.lets_eq {pc : Pc format} : pc.lets key ↔ pc = .releasing key := by
  cases pc <;> simp [lets, eq_comm]

namespace TokenManager

inductive Leasing (shared : Shared format) (place : Nat) (pc : Pc format)
    (outcome : Stepped format) : Prop
  | same (live : outcome.shared.live = shared.live) (leases : outcome.shared.leases = shared.leases)
      (keeps : ∀ key, pc ≠ .releasing key) (stays : ∀ key, outcome.pc ≠ .releasing key)
  | claims (serial : format.Serial) (claiming : pc = .claiming serial) (free : serial ∉ shared.live)
      (live : outcome.shared.live = insert serial shared.live)
      (leases : outcome.shared.leases = shared.leases.insert place ⟨serial, 1⟩)
      (claimed : outcome.pc = .returned (.claimed (some place)))
  | counts (key clones : Nat) (group : LeaseGroup format)
      (there : shared.leases.get key = some group) (some_ : group.clones ≠ 0)
      (left : clones ≠ 0) (live : outcome.shared.live = shared.live)
      (leases : outcome.shared.leases = shared.leases.insert key { group with clones })
      (keeps : ∀ key, pc ≠ .releasing key) (stays : ∀ key, outcome.pc ≠ .releasing key)
  | drops (key : Nat) (group : LeaseGroup format)
      (there : shared.leases.get key = some group) (some_ : group.clones ≠ 0)
      (live : outcome.shared.live = shared.live) (leases : outcome.shared.leases =
        shared.leases.insert key { group with clones := 0 })
      (keeps : ∀ key, pc ≠ .releasing key) (lets : outcome.pc = .releasing key)
  | releases (key : Nat) (group : LeaseGroup format) (letting : pc = .releasing key)
      (there : shared.leases.get key = some group)
      (live : outcome.shared.live = shared.live.erase group.serial)
      (leases : outcome.shared.leases = shared.leases.remove key)
      (stays : ∀ key, outcome.pc ≠ .releasing key)

section Steps

theorem next_leasing (taken : next manager shared place pc answers = some outcome) :
    Leasing shared place pc outcome := by
  cases area : pc.area with
  | leases =>
    cases pc with
    | claiming serial =>
      rw [next] at taken
      split at taken <;> cases taken
      · exact .same rfl rfl (by simp) (by simp)
      · rename_i free
        exact .claims serial rfl free rfl rfl rfl
    | cloning key =>
      rw [next] at taken
      split at taken
      · cases taken
      · rename_i group there
        split at taken <;> cases taken
        rename_i some_
        exact .counts key _ group there some_ (Nat.succ_ne_zero _) rfl rfl (by simp) (by simp)
    | dropping key =>
      rw [next] at taken
      split at taken
      · cases taken
      · rename_i group there
        split at taken <;> cases taken
        rename_i some_
        by_cases last : group.clones = 1
        · exact .drops key group there some_ rfl (by simp [Shared.setClones, last])
            (by simp) (by simp [last])
        · exact .counts key (group.clones - 1) group there some_ (by omega) rfl
            rfl (by simp) (by simp [last])
    | releasing key =>
      rcases Option.map_eq_some_iff.mp taken with ⟨group, there, rfl⟩
      exact .releases key group rfl there rfl rfl (by simp)
    | _ => cases area
  | _ =>
    -- The call is not at a release, and comes to one only from a drop.
    have same := (next_framed taken).leases (by simp [area])
    refine .same same.1 same.2 ?_ ?_
    · rintro key rfl
      cases area
    · intro key lets
      rw [(next_leads taken).lets key lets] at area
      cases area

end Steps

/-! ## Every interleaving -/

/-- The held serials are those of the lease groups, of which each has its own;
a group whose clones are gone is about to be let go, by one call. -/
structure Leased (world : World (Shared format) (Pc format) Event) : Prop where
  claimed : ∀ key group, world.shared.leases.get key = some group →
    world.calls[key]? = some (.returned (.claimed (some key)))
  sole : ∀ key other group twin, world.shared.leases.get key = some group →
    world.shared.leases.get other = some twin → group.serial = twin.serial → key = other
  live : ∀ serial, serial ∈ world.shared.live ↔ world.shared.Held serial
  letting : Each (fun shared _ pc => ∀ key, pc = .releasing key →
    ∃ group, shared.leases.get key = some group ∧ group.clones = 0) world
  dropped : ∀ key group, world.shared.leases.get key = some group → group.clones = 0 →
    ∃ place : Nat, world.calls[place]? = some (.releasing key)
  once : ∀ key, Sole (Pc.lets key) world

theorem start_leased : Leased (start : World (Shared format) (Pc format) Event) where
  claimed := by simp [start, Shared.new]
  sole := by simp [start, Shared.new]
  live := by simp [start, Shared.new, Shared.Held]
  letting := by
    intro place pc here
    cases here
  dropped := by simp [start, Shared.new]
  once := by
    intro key place other pc waiting here
    cases here

theorem enter_lets (manager : Manager) (call : Call) (key : Nat) :
    (enter manager call : Pc format) ≠ .releasing key := by
  intro same
  cases call with
  | claim | restorePersisted | exportPersistable | takeCurrentStack | sessionStack =>
    rw [enter] at same
    split at same <;> cases same
  | _ => cases same

section Advanced

variable {world : World (Shared format) (Pc format) Event} {place : Nat}
    {answers : Answers format} {outcome : Stepped format} {pc : Pc format}

variable (leased : Leased world) (here : world.calls[place]? = some pc)

include leased here

theorem Leased.stays (taken : next manager world.shared place pc answers = some outcome)
    (there : world.shared.leases.get key = some group) :
    key ≠ place ∧ (world.advanced place outcome).calls[key]? =
      some (.returned (.claimed (some key))) := by
  have claimed := leased.claimed key group there
  have different : key ≠ place := by
    intro same
    rw [same, here] at claimed
    cases claimed
    cases taken
  exact ⟨different, calls_of_ne outcome claimed different⟩

theorem Leased.once_advanced (stays : ∀ key, outcome.pc ≠ .releasing key) (key : Nat) :
    Sole (Pc.lets key) (world.advanced place outcome) := by
  apply (leased.once key).advanced here
  intro lets
  exact absurd (Pc.lets_eq.mp lets) (stays key)

theorem Leased.dropped_advanced (keeps : pc ≠ .releasing key)
    (there : world.shared.leases.get key = some group) (none : group.clones = 0) :
    ∃ other : Nat, (world.advanced place outcome).calls[other]? = some (.releasing key) := by
  rcases leased.dropped key group there none with ⟨other, waits⟩
  refine ⟨other, calls_of_ne outcome waits ?_⟩
  intro same
  rw [same, here] at waits
  cases waits
  exact keeps rfl

variable (taken : next manager world.shared place pc answers = some outcome)

include taken

theorem Leased.same (live : outcome.shared.live = world.shared.live)
    (leases : outcome.shared.leases = world.shared.leases) (keeps : ∀ key, pc ≠ .releasing key)
    (stays : ∀ key, outcome.pc ≠ .releasing key) : Leased (world.advanced place outcome) := by
  constructor
  · intro key group there
    exact (leased.stays here taken (leases ▸ there)).2
  · intro key other group twin there beside
    exact leased.sole key other group twin (leases ▸ there) (leases ▸ beside)
  · intro serial
    change serial ∈ outcome.shared.live ↔ outcome.shared.Held serial
    rw [Shared.Held, live, leases]
    exact leased.live serial
  · apply leased.letting.advanced
    · intro key lets
      exact absurd lets (stays key)
    · intro other pc _ _ letting
      rw [leases]
      exact letting
  · intro key group there none
    exact leased.dropped_advanced here (keeps key) (leases ▸ there) none
  · exact leased.once_advanced here stays

theorem Leased.claims (claiming : pc = .claiming serial) (free : serial ∉ world.shared.live)
    (live : outcome.shared.live = insert serial world.shared.live)
    (leases : outcome.shared.leases = world.shared.leases.insert place ⟨serial, 1⟩)
    (claimed : outcome.pc = .returned (.claimed (some place))) :
    Leased (world.advanced place outcome) := by
  have stays : ∀ key, outcome.pc ≠ .releasing key := by
    intro key lets
    rw [claimed] at lets
    cases lets
  have keeps : ∀ key, pc ≠ .releasing key := by
    intro key lets
    rw [claiming] at lets
    cases lets
  have found : ∀ key group, (world.advanced place outcome).shared.leases.get key = some group →
      (key = place ∧ group = ⟨serial, 1⟩) ∨
        (key ≠ place ∧ world.shared.leases.get key = some group) := by
    intro key group there
    change outcome.shared.leases.get key = some group at there
    rw [leases, get_insert] at there
    split at there
    · rename_i same
      cases there
      exact .inl ⟨same, rfl⟩
    · rename_i different
      exact .inr ⟨different, there⟩
  have others : ∀ key group, world.shared.leases.get key = some group →
      outcome.shared.leases.get key = some group := by
    intro key group there
    rw [leases, get_insert, if_neg (leased.stays here taken there).1]
    exact there
  constructor
  · intro key group there
    rcases found key group there with ⟨rfl, _⟩ | ⟨_, older⟩
    · rw [← claimed]
      exact calls_of_advanced outcome here
    · exact (leased.stays here taken older).2
  · intro key other group twin there beside same
    rcases found key group there with ⟨rfl, rfl⟩ | ⟨_, older⟩
    · rcases found other twin beside with ⟨rfl, rfl⟩ | ⟨_, older⟩
      · rfl
      · exact absurd ((leased.live serial).mpr ⟨other, twin, older, same.symm⟩) free
    · rcases found other twin beside with ⟨rfl, rfl⟩ | ⟨_, elder⟩
      · exact absurd ((leased.live serial).mpr ⟨key, group, older, same⟩) free
      · exact leased.sole key other group twin older elder same
  · intro other
    change other ∈ outcome.shared.live ↔ _
    rw [live, Finset.mem_insert, leased.live]
    constructor
    · rintro (rfl | ⟨key, group, there, same⟩)
      · exact ⟨place, ⟨other, 1⟩, by simp [World.advanced, leases], rfl⟩
      · exact ⟨key, group, others key group there, same⟩
    · rintro ⟨key, group, there, same⟩
      rcases found key group there with ⟨rfl, rfl⟩ | ⟨_, older⟩
      · exact .inl same.symm
      · exact .inr ⟨key, group, older, same⟩
  · apply leased.letting.advanced
    · intro key lets
      exact absurd lets (stays key)
    · intro other pc _ _ letting key lets
      rcases letting key lets with ⟨group, there, none⟩
      exact ⟨group, others key group there, none⟩
  · intro key group there none
    rcases found key group there with ⟨rfl, rfl⟩ | ⟨_, older⟩
    · cases none
    · exact leased.dropped_advanced here (keeps key) older none
  · exact leased.once_advanced here stays

theorem Leased.counted (there : world.shared.leases.get key = some group)
    (some_ : group.clones ≠ 0) (live : outcome.shared.live = world.shared.live)
    (leases : outcome.shared.leases = world.shared.leases.insert key { group with clones })
    (keeps : ∀ key, pc ≠ .releasing key) (own : outcome.pc = .releasing key ∧ clones = 0 ∨
      (∀ key, outcome.pc ≠ .releasing key) ∧ clones ≠ 0) :
    Leased (world.advanced place outcome) := by
  have found : ∀ other twin, (world.advanced place outcome).shared.leases.get other = some twin →
      ∃ before, world.shared.leases.get other = some before ∧ before.serial = twin.serial ∧
        (other = key ∧ twin.clones = clones ∨ other ≠ key ∧ before = twin) := by
    intro other twin beside
    change outcome.shared.leases.get other = some twin at beside
    rw [leases, get_insert] at beside
    split at beside
    · rename_i same
      cases beside
      exact ⟨group, same ▸ there, rfl, .inl ⟨same, rfl⟩⟩
    · rename_i different
      exact ⟨twin, beside, rfl, .inr ⟨different, rfl⟩⟩
  have kept : ∀ other twin, world.shared.leases.get other = some twin →
      twin.clones = 0 → outcome.shared.leases.get other = some twin := by
    intro other twin beside none
    have different : other ≠ key := by
      intro same
      rw [same, there] at beside
      cases beside
      exact some_ none
    rw [leases, get_insert, if_neg different]
    exact beside
  constructor
  · intro other twin beside
    rcases found other twin beside with ⟨before, older, _⟩
    exact (leased.stays here taken older).2
  · intro left right first second before beside same
    rcases found left first before with ⟨leftOld, leftThere, leftSame, _⟩
    rcases found right second beside with ⟨rightOld, rightThere, rightSame, _⟩
    apply leased.sole left right leftOld rightOld leftThere rightThere
    rw [leftSame, rightSame, same]
  · intro serial
    change serial ∈ outcome.shared.live ↔ _
    rw [live, leased.live]
    constructor
    · rintro ⟨other, twin, beside, same⟩
      by_cases equal : other = key
      · subst equal
        rw [there] at beside
        cases beside
        exact ⟨other, { group with clones }, by simp [World.advanced, leases], same⟩
      · exact ⟨other, twin, by simpa [World.advanced, leases, equal] using beside, same⟩
    · rintro ⟨other, twin, beside, same⟩
      rcases found other twin beside with ⟨before, older, equal, _⟩
      exact ⟨other, before, older, equal.trans same⟩
  · apply leased.letting.advanced
    · intro other lets
      rcases own with ⟨letting, none⟩ | ⟨stays, _⟩
      · rw [letting] at lets
        cases lets
        exact ⟨{ group with clones }, by simp [leases], none⟩
      · exact absurd lets (stays other)
    · intro _ _ _ _ letting other lets
      rcases letting other lets with ⟨twin, beside, none⟩
      exact ⟨twin, kept other twin beside none, none⟩
  · intro other twin beside none
    rcases found other twin beside with ⟨before, older, _, own_ | ⟨_, rfl⟩⟩
    · rcases own with ⟨letting, _⟩ | ⟨_, left⟩
      · refine ⟨place, ?_⟩
        rw [own_.1, ← letting]
        exact calls_of_advanced outcome here
      · exact absurd (own_.2.symm.trans none) left
    · exact leased.dropped_advanced here (keeps other) older none
  · rcases own with ⟨letting, _⟩ | ⟨stays, _⟩
    · intro other
      by_cases same : other = key
      · subst same
        apply Sole.entered
        intro waiter waiting waits
        rw [Bool.eq_false_iff]
        intro lets
        rcases leased.letting waiter waiting waits other
          (Pc.lets_eq.mp lets) with ⟨twin, beside, none⟩
        rw [there] at beside
        cases beside
        exact some_ none
      · apply (leased.once other).advanced here
        intro lets
        rw [Pc.lets_eq, letting] at lets
        cases lets
        exact absurd rfl same
    · exact leased.once_advanced here stays

theorem Leased.releases (letting : pc = .releasing key)
    (there : world.shared.leases.get key = some group)
    (live : outcome.shared.live = world.shared.live.erase group.serial)
    (leases : outcome.shared.leases = world.shared.leases.remove key)
    (stays : ∀ key, outcome.pc ≠ .releasing key) : Leased (world.advanced place outcome) := by
  have found : ∀ other twin, outcome.shared.leases.get other = some twin ↔
        other ≠ key ∧ world.shared.leases.get other = some twin := by
    intro other twin
    rw [leases, get_remove]
    split
    · rename_i same
      simp [same]
    · rename_i different
      simp [different]
  constructor
  · intro other twin beside
    exact (leased.stays here taken ((found other twin).mp beside).2).2
  · intro left right first second before beside
    exact leased.sole left right first second ((found _ _).mp before).2 ((found _ _).mp beside).2
  · intro serial
    change serial ∈ outcome.shared.live ↔ _
    rw [live, Finset.mem_erase, leased.live]
    constructor
    · rintro ⟨different, other, twin, beside, same⟩
      refine ⟨other, twin, (found other twin).mpr ⟨?_, beside⟩, same⟩
      intro equal
      rw [equal, there] at beside
      cases beside
      exact different same.symm
    · rintro ⟨other, twin, beside, same⟩
      have parts := (found other twin).mp beside
      refine ⟨?_, other, twin, parts.2, same⟩
      intro equal
      exact parts.1 (leased.sole other key twin group parts.2 there (same.trans equal))
  · apply leased.letting.advanced
    · intro other lets
      exact absurd lets (stays other)
    · intro waiter waiting different waits letting_ other lets
      rcases letting_ other lets with ⟨twin, beside, none⟩
      refine ⟨twin, (found other twin).mpr ⟨?_, beside⟩, none⟩
      intro equal
      exact different (leased.once key waiter place waiting pc waits here
        (Pc.lets_eq.mpr (equal ▸ lets)) (Pc.lets_eq.mpr letting))
  · intro other twin beside none
    have parts := (found other twin).mp beside
    apply leased.dropped_advanced here _ parts.2 none
    intro lets
    rw [letting] at lets
    cases lets
    exact parts.1 rfl
  · exact leased.once_advanced here stays

end Advanced

theorem step_leased (manager : Manager) (leased : Leased world)
    (action : Action Call (Answers format)) : Leased (step (program manager) world action) := by
  apply step_rule
  · exact leased
  · intro call _
    have enters : ∀ key, (enter manager call : Pc format) ≠ .releasing key :=
      enter_lets manager call
    constructor
    · intro key group there
      have inside := leased.claimed key group there
      rw [World.started, List.getElem?_append_left (List.getElem?_eq_some_iff.mp inside).1]
      exact inside
    · exact leased.sole
    · exact leased.live
    · apply leased.letting.started
      intro key lets
      exact absurd lets (enters key)
    · intro key group there none
      rcases leased.dropped key group there none with ⟨place, waits⟩
      refine ⟨place, ?_⟩
      rw [World.started, List.getElem?_append_left (List.getElem?_eq_some_iff.mp waits).1]
      exact waits
    · intro key
      apply (leased.once key).started
      intro lets
      exact absurd (Pc.lets_eq.mp lets) (enters key)
  · intro place answers pc outcome _ here taken
    cases next_leasing taken with
    | same live leases keeps stays => exact leased.same here taken live leases keeps stays
    | claims serial claiming free live leases claimed =>
      exact leased.claims here taken claiming free live leases claimed
    | counts key clones group there some_ left live leases keeps stays =>
      exact leased.counted here taken there some_ live leases keeps (.inr ⟨stays, left⟩)
    | drops key group there some_ live leases keeps lets =>
      exact leased.counted here taken there some_ live leases keeps (.inl ⟨lets, rfl⟩)
    | releases key group letting there live leases stays =>
      exact leased.releases here taken letting there live leases stays

theorem run_leased (manager : Manager) (schedule : List (Action Call (Answers format))) :
    Leased (run manager schedule) := by
  apply Execution.run_invariant
  · exact start_leased
  · intro world action leased
    exact step_leased manager leased action

/-! ## What the calls return -/

section Calls

theorem claim_iff (leased : Leased world)
    (here : world.calls[place]? = some (enter manager (.claim token))) (answers : Answers format) :
    (step (program manager) world (.advance place answers)).calls[place]? =
        some (.returned (.claimed (some place))) ↔
      ∃ parsed, format.parse token = some parsed ∧ ¬ world.shared.Held (format.serial parsed) := by
  cases parses : format.parse token with
  | none =>
    rw [enter, parses] at here
    have blocked : step (program manager) world (.advance place answers) =
        world := by
      simp only [step, here]
      rfl
    rw [blocked, here]
    simp
  | some parsed =>
    rw [enter, parses] at here
    have result : ∀ outcome,
        next manager world.shared place (.claiming (format.serial parsed)) answers = some outcome →
        (step (program manager) world (.advance place answers)).calls[place]? =
          some outcome.pc := by
      intro outcome taken
      rw [step_advance (program manager) here taken]
      exact calls_of_advanced outcome here
    by_cases held : format.serial parsed ∈ world.shared.live
    · rw [result _ (by rw [next, if_pos held])]
      simpa using (leased.live _).mp held
    · rw [result _ (by rw [next, if_neg held])]
      simpa using (leased.live _).not.mp held

theorem sessionStack_unleased (leased : Leased world) (manager : Manager) (now : UInt64) :
    world.shared.state.sessionStack manager world.shared.live now =
      world.shared.unleased manager now := by
  rw [ManagerState.sessionStack, Shared.unleased]
  cases world.shared.state.epochAt now with
  | none => rfl
  | some epoch => simp [leased.live]

theorem sessionStack_step (leased : Leased world)
    (here : world.calls[place]? = some (enter manager (.sessionStack now)))
    (answers : Answers format) :
    let after := step (program manager) world (.advance place answers)
    after.shared = world.shared ∧ after.calls[place]? = some (.returned (.stack (
        if manager.credentialClass = .portEntitlement then []
        else world.shared.unleased manager now))) := by
  intro after
  by_cases entitles : manager.credentialClass = .portEntitlement
  · rw [enter, if_pos entitles] at here
    have blocked : after = world := by
      simp only [after, step, here]
      rfl
    rw [blocked, here, if_pos entitles]
    exact ⟨rfl, rfl⟩
  · rw [enter, if_neg entitles] at here
    have taken : next manager world.shared place (.stacking now) answers = some _ := rfl
    have moved : after = world.advanced place _ := step_advance (program manager) here taken
    rw [moved, if_neg entitles, ← sessionStack_unleased leased]
    exact ⟨rfl, calls_of_advanced _ here⟩

end Calls

/-- In every interleaving a serial has at most one lease group, which is there
while it has clones or its last drop is under way; a claim succeeds exactly if
its bytes are a token whose serial no group has; and a session is given the
tokens of the epoch that no group has, in order, and takes none away. A manager
of port entitlements gives a session nothing. -/
theorem serial_leases (manager : Manager) (schedule : List (Action Call (Answers format))) :
    let world := run manager schedule
    (∀ key other group twin, world.shared.leases.get key = some group →
      world.shared.leases.get other = some twin → group.serial = twin.serial → key = other) ∧
    (∀ key group, world.shared.leases.get key = some group → group.clones ≠ 0 ∨
        ∃ place : Nat, world.calls[place]? = some (.releasing key)) ∧
    (∀ (place : Nat) token answers, world.calls[place]? = some (enter manager (.claim token)) →
      ((step (program manager) world (.advance place answers)).calls[place]? =
          some (.returned (.claimed (some place))) ↔
        ∃ parsed, format.parse token = some parsed ∧ ¬ world.shared.Held (format.serial parsed))) ∧
    ∀ (place : Nat) now answers, world.calls[place]? = some (enter manager (.sessionStack now)) →
      let after := step (program manager) world (.advance place answers)
      after.shared = world.shared ∧ after.calls[place]? = some (.returned (.stack (
          if manager.credentialClass = .portEntitlement then []
          else world.shared.unleased manager now))) := by
  intro world
  have leased := run_leased manager schedule
  refine ⟨leased.sole, ?_, ?_, ?_⟩
  · intro key group there
    by_cases none : group.clones = 0
    · exact .inr (leased.dropped key group there none)
    · exact .inl none
  · intro place token answers here
    exact claim_iff leased here answers
  · intro place now answers here
    exact sessionStack_step leased here answers

end TokenManager

namespace Sample

open TokenManager

/-- The first token is claimed, its lease cloned, and one of the two dropped. -/
def leasing : List (Action Call (Answers byteTokens)) :=
  refreshes 0 ++ .start (.claim [1]) :: advances 1 1 served ++
    .start (.cloneLease 1) :: advances 2 1 served ++ .start (.dropLease 1) :: advances 3 1 served

def contending : List (Action Call (Answers byteTokens)) := leasing ++ [.start (.claim [1])]

def contended : byteTokens.Serial := (1 : UInt8)

def stacked (world : World (Shared byteTokens) (Pc byteTokens) Event)
    (place : Nat) : Option (List (List UInt8)) :=
  match world.calls[place]? with
  | some (.returned (.stack tokens)) => some tokens
  | _ => none

end Sample

namespace TokenManager

theorem serial_leases_cloned :
    let manager := Sample.manager .session
    let world := run manager Sample.contending
    world.shared.Held Sample.contended ∧
      (step (program manager) world (.advance 4 Sample.served)).calls[4]? ≠
        some (.returned (.claimed (some 4))) := by
  intro manager world
  have held : world.shared.Held Sample.contended := by decide +kernel
  have before : (run manager Sample.leasing).calls.length = 4 := by decide +kernel
  have here := calls_run_start (program manager) start Sample.leasing (.claim [1])
  rw [← run, ← run, before] at here
  refine ⟨held, ?_⟩
  intro claimed
  rcases ((serial_leases manager Sample.contending).2.2.1 4 [1] Sample.served
    here).mp claimed with ⟨parsed, parses, free⟩
  cases parses
  exact free held

/-- Two tokens are stocked and no session holds them, and a session is given
none by a manager of port entitlements. -/
theorem port_entitlements_not_stacked :
    let manager := Sample.manager .portEntitlement
    let world := run manager (Sample.refreshes 0 ++ [.start (.sessionStack 5)])
    Sample.stacked world 1 = some [] ∧ world.shared.unleased manager 5 = [[2], [1]] := by
  decide +kernel

end TokenManager

end WarrenSdk.Api
