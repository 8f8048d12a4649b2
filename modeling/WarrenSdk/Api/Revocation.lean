import WarrenSdk.Api.TokenManager

/-! # Revocation is final

A pass that learns that its device was revoked records it and drops the stock
under one lock. Every path that stocks tokens looks at the record under the same
lock, and a pass looks at it before it sends anything. -/

namespace WarrenSdk.Api

open Interleaving List Execution

variable {format : TokenFormat}

namespace TokenStore

def IsEmpty (store : TokenStore format) : Prop := ∀ epoch : UInt64, store.perEpoch[epoch]? = none

theorem new_isEmpty : (new : TokenStore format).IsEmpty := by
  intro epoch
  simp [new]

section Empty

variable {store : TokenStore format} (empty : store.IsEmpty)

include empty

theorem IsEmpty.stock (epoch : UInt64) : store.stock epoch = [] := by
  rw [TokenStore.stock, empty]
  rfl

theorem IsEmpty.pruneBefore (minEpoch : UInt64) : (store.pruneBefore minEpoch).IsEmpty := by
  intro epoch
  simp [TokenStore.pruneBefore, empty epoch]

theorem IsEmpty.take (epoch : UInt64) : store.take epoch = (none, store) := by
  rw [TokenStore.take, pop, empty]
  rfl

theorem IsEmpty.envelopeAt (epoch : UInt64) (index : Nat) :
    store.envelopeAt epoch index = none := by
  rw [TokenStore.envelopeAt, empty.stock]
  rfl

end Empty

end TokenStore

namespace ManagerState

/-- A revoked device holds nothing. -/
structure Revoked (state : ManagerState format) : Prop where
  flag : state.deviceRevoked = true
  empty : state.store.IsEmpty

theorem Revoked.takeCurrentStack (revoked : Revoked state) (now : UInt64) :
    state.takeCurrentStack now = ([], state) := by
  rw [ManagerState.takeCurrentStack]
  split
  · rfl
  · simp [revoked.empty.take]

theorem Revoked.sessionStack (revoked : Revoked state) (manager : Manager)
    (held : Finset format.Serial) (now : UInt64) : state.sessionStack manager held now = [] := by
  rw [ManagerState.sessionStack]
  split
  · rfl
  · simp [TokenStore.tokens, revoked.empty.stock, rotate_nil]

end ManagerState

/-- Nothing is handed out, and requests are sent only by calls before a
place. -/
def Event.Barren (floor : Nat) : Event → Prop
  | .request place => place < floor
  | .vended _ credentials => credentials = []
  | .exported _ => True

namespace TokenManager

/-! ## Every step -/

theorem Change.revoked {after : ManagerState format}
    (change : Change state pc after) (revoked : state.Revoked) :
    after.Revoked := by
  have flag := revoked.flag
  cases change with
  | same => exact revoked
  | enters current => exact ⟨flag, revoked.empty.pruneBefore current⟩
  | stocks =>
    rw [ManagerState.stockBatch, flag]
    exact revoked
  | settles => exact ⟨flag, revoked.empty⟩
  | revokes => exact ⟨rfl, TokenStore.new_isEmpty⟩
  | restores =>
    rw [ManagerState.restorePersisted, flag]
    exact revoked
  | takes now =>
    rw [revoked.takeCurrentStack]
    exact revoked

theorem Change.records {after : ManagerState format} (change : Change state pc after)
    (recorded : state.deviceRevoked → state.Revoked) : after.deviceRevoked → after.Revoked := by
  cases earlier : state.deviceRevoked with
  | true => exact fun _ => change.revoked (recorded earlier)
  | false =>
    intro flag
    cases change with
    | revokes => exact ⟨rfl, TokenStore.new_isEmpty⟩
    | same | enters | settles => cases earlier.symm.trans flag
    | stocks =>
      rw [ManagerState.stockBatch] at flag
      split at flag <;> cases earlier.symm.trans flag
    | restores =>
      rw [ManagerState.restorePersisted] at flag
      split at flag <;> cases earlier.symm.trans flag
    | takes now =>
      rw [ManagerState.takeCurrentStack] at flag
      split at flag <;> cases earlier.symm.trans flag

theorem mintNext_barren (early : place < floor) (again : Bool) (epochs : List UInt64) :
    ∀ event ∈ (mintNext shared place again epochs).events, event.Barren floor := by
  cases epochs with
  | nil => simp [mintNext]
  | cons => simp [mintNext, Event.Barren, early]

theorem mintFailed_barren (early : place < floor) (epoch : UInt64)
    (rest : List UInt64) (again : Bool) (error : TokenClientError) :
    ∀ event ∈ (mintFailed shared place epoch rest again error).events, event.Barren floor := by
  rw [mintFailed]
  split
  · simp
  · split
    · simp
    · split
      · simp
      · exact mintNext_barren early again rest

theorem pass_barren (passing : pc.inPass) (early : place < floor)
    (taken : next manager shared place pc answers = some outcome) :
    ∀ event ∈ outcome.events, event.Barren floor := by
  have sent : ∀ event ∈ [Event.request place], event.Barren floor := by simp [Event.Barren, early]
  cases pc with
  | registered now =>
    rw [next] at taken
    split at taken <;> cases taken
    · simp
    · simp
    · exact sent
    · exact sent
  | fetched now =>
    rw [next] at taken
    split at taken
    · cases taken
      simp
    · split at taken <;> cases taken <;> simp
  | enterEpoch | stocking | settling =>
    cases taken
    exact mintNext_barren early _ _
  | minted epoch rest again =>
    cases taken
    cases answers.mint epoch with
    | ok => simp [mintAnswered]
    | error error =>
      rw [mintAnswered]
      split
      · exact sent
      · exact mintFailed_barren early epoch rest again error
  | registeredAgain epoch rest =>
    rw [next] at taken
    split at taken <;> cases taken
    · exact sent
    · exact mintFailed_barren early epoch rest true _
  | revoking =>
    cases taken
    simp
  | _ => cases passing

/-- Once the device is revoked a call hands nothing out, and sends nothing
outside a pass. -/
theorem next_barren (revoked : shared.state.Revoked) (early : pc.inPass → place < floor)
    (taken : next manager shared place pc answers = some outcome) :
    ∀ event ∈ outcome.events, event.Barren floor := by
  cases passing : pc.inPass with
  | true => exact pass_barren passing (early passing) taken
  | false =>
    cases pc with
    | refreshCheck now =>
      rw [next, revoked.flag] at taken
      cases taken
      simp
    | restoring | freeing | refused | slotStock =>
      cases taken
      simp
    | exporting =>
      cases taken
      simp [Event.Barren]
    | taking now =>
      rw [next, revoked.takeCurrentStack] at taken
      cases taken
      simp [Event.Barren]
    | stacking now =>
      cases taken
      simp [Event.Barren, revoked.sessionStack]
    | claiming | refusedEpoch =>
      rw [next] at taken
      split at taken <;> cases taken <;> simp
    | cloning key | dropping key =>
      rw [next] at taken
      split at taken
      · cases taken
      · split at taken <;> cases taken
        simp
    | releasing key =>
      rcases Option.map_eq_some_iff.mp taken with ⟨group, _, rfl⟩
      simp
    | slotEpoch slot now =>
      rw [next] at taken
      split at taken <;> cases taken <;> simp [Event.Barren]
    | slotPlace slot epoch stock =>
      cases taken
      rw [presentPlace]
      generalize (shared.assigned.enter epoch).placeOf slot stock = assignment
      rcases assignment with ⟨chosen, assigned⟩
      cases chosen <;> simp [Event.Barren]
    | slotEnvelope epoch chosen =>
      cases taken
      simp [Event.Barren, revoked.empty.envelopeAt]
    | returned => cases taken
    | _ => cases passing

/-! ## Every interleaving -/

/-- A recorded revocation has taken the stock along. -/
def Recorded (world : World (Shared format) (Pc format) Event) : Prop :=
  world.shared.state.deviceRevoked = true → world.shared.state.Revoked

theorem run_recorded (manager : Manager) (schedule : List (Action Call (Answers format))) :
    Recorded (run manager schedule) := by
  apply run_invariant
  · intro flag
    cases flag
  · intro world action recorded
    apply step_rule
    · exact recorded
    · intro call _
      exact recorded
    · intro place answers pc outcome _ here taken
      exact (next_change taken).records recorded

/-- What holds behind a revocation: `earlier` is the log up to it, and the calls
before `floor` were made by then. -/
structure Final (earlier : List Event) (floor : Nat)
    (world : World (Shared format) (Pc format) Event) : Prop where
  revoked : world.shared.state.Revoked
  passes : Each (fun _ place pc => pc.inPass = true → place < floor) world
  made : floor ≤ world.calls.length
  log : ∃ later, world.log = earlier ++ later ∧ ∀ event ∈ later, event.Barren floor

theorem enter_inPass (manager : Manager) (call : Call) :
    (enter manager call : Pc format).inPass = false := by
  cases call with
  | claim | restorePersisted | exportPersistable | takeCurrentStack | sessionStack =>
    rw [enter]
    split <;> rfl
  | _ => rfl

theorem step_final {earlier : List Event} (final : Final earlier floor world)
    (action : Action Call (Answers format)) :
    Final earlier floor (step (program manager) world action) := by
  apply step_rule
  · exact final
  · intro call _
    refine ⟨final.revoked, final.passes.started ?_, ?_, final.log⟩
    · intro passing
      rw [program, enter_inPass] at passing
      cases passing
    · rw [World.started, length_append]
      exact Nat.le_trans final.made (Nat.le_add_right _ _)
  · intro place answers pc outcome _ here taken
    have early := final.passes place pc here
    have barren := next_barren final.revoked early taken
    refine ⟨(next_change taken).revoked final.revoked, ?_, ?_, ?_⟩
    · apply final.passes.advanced
      · intro passing
        rcases (next_leads taken).pass passing with passed | unrevoked
        · exact early passed
        · rw [final.revoked.flag] at unrevoked
          cases unrevoked
      · intro other waiting _ _ kept
        exact kept
    · rw [World.advanced, length_set]
      exact final.made
    · rcases final.log with ⟨later, split, earlier⟩
      refine ⟨later ++ outcome.events, ?_, ?_⟩
      · rw [World.advanced, split, append_assoc]
      · intro event member
        rcases mem_append.mp member with old | new
        · exact earlier event old
        · exact barren event new

/-- From the moment at which the device is recorded as revoked, the flag stays
set and the store empty, nothing is handed out, and only calls made before send
requests. -/
theorem revocation_is_final (manager : Manager) (past later : List (Action Call (Answers format)))
    (revoked : (run manager past).shared.state.deviceRevoked = true) :
    let before := run manager past
    let after := run manager (past ++ later)
    after.shared.state.deviceRevoked = true ∧ after.shared.state.store.IsEmpty ∧
      ∃ new, after.log = before.log ++ new ∧ ∀ event ∈ new, event.Barren before.calls.length := by
  intro before after
  have final : Final before.log before.calls.length after := by
    have joined : after = Execution.run (step (program manager)) before later := by
      exact run_append (step (program manager)) start past later
    rw [joined]
    apply run_invariant
    · refine ⟨run_recorded manager past revoked, ?_, Nat.le_refl _, [], by simp, by simp⟩
      intro place pc here _
      exact (List.getElem?_eq_some_iff.mp here).1
    · intro world action final
      exact step_final final action
  exact ⟨final.revoked.flag, final.revoked.empty, final.log⟩

/-- The device is revoked between the answer of the issuer and the section that
would stock it, and a later pass sends nothing. -/
def Sample.crossing : List (Action Call (Answers Sample.byteTokens)) :=
  .start (.refresh 5) :: Sample.advances 0 5 Sample.served ++
    .start (.refresh 5) :: Sample.advances 1 3 Sample.refused

def Sample.afterwards : List (Action Call (Answers Sample.byteTokens)) :=
  Sample.advances 0 1 Sample.served ++
    .start (.takeCurrentStack 5) :: Sample.advances 2 1 Sample.served ++
    .start (.refresh 5) :: Sample.advances 3 6 Sample.served

theorem revocation_is_final_crossing :
    let manager := Sample.manager .session
    let before := run manager Sample.crossing
    let after := run manager (Sample.crossing ++ Sample.afterwards)
    before.shared.state.deviceRevoked = true ∧ before.calls.length = 2 ∧
      after.shared.state.deviceRevoked = true ∧ after.shared.state.store.IsEmpty ∧
      ∃ new, after.log = before.log ++ new ∧ ∀ event ∈ new, event.Barren before.calls.length :=
  have revoked : (run (Sample.manager .session)
      Sample.crossing).shared.state.deviceRevoked = true := by
    decide +kernel
  ⟨revoked, by decide +kernel, revocation_is_final (Sample.manager .session)
    Sample.crossing Sample.afterwards revoked⟩

end TokenManager

end WarrenSdk.Api
