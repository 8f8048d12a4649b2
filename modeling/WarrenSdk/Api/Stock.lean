import WarrenSdk.Api.TokenManager

/-! # A serial is stocked once

A pass stocks an epoch only while the epoch is not settled, and settles it with
the same section, so passes that overlap do not stock a batch twice. A restored
bundle settles nothing and looks at nothing that is there: a serial is stocked
twice exactly if a bundle brings one that is there, or a pass stocks an epoch
that a bundle has brought. -/

namespace WarrenSdk.Api

open Interleaving

/-- An issuer that serves a wallet the same batch of an epoch whenever it asks.
The tokens of a batch have serials of their own. -/
structure Issuer (format : TokenFormat) where
  batch : UInt64 → List format.Token × List format.Tag
  distinct : ∀ epoch, ((batch epoch).1.map format.serial).Nodup

namespace MintedEpoch

def serials (batch : MintedEpoch format) : List format.Serial := batch.tokens.map format.serial

end MintedEpoch

namespace TokenStore

def serials (store : TokenStore format) (epoch : UInt64) : List format.Serial :=
  (store.stock epoch).map Stored.serial

variable (store : TokenStore format)

@[simp] theorem serials_insert (batch : MintedEpoch format) (epoch : UInt64) :
    (store.insert batch).serials epoch =
      if epoch = batch.epoch then store.serials epoch ++ batch.serials
      else store.serials epoch := by
  rw [serials, stock_insert]
  split
  · rw [List.map_append, pairTags_serial]
    rfl
  · rfl

theorem serials_inserts (batches : List (MintedEpoch format)) (epoch : UInt64) :
    (batches.foldl insert store).serials epoch = store.serials epoch ++
        (batches.filter fun batch => batch.epoch = epoch).flatMap
          MintedEpoch.serials := by
  induction batches generalizing store with
  | nil => simp
  | cons batch batches induction =>
    rw [List.foldl_cons, induction, serials_insert]
    by_cases same : batch.epoch = epoch
    · simp [same]
    · have other : epoch ≠ batch.epoch := Ne.symm same
      simp [same, other]

theorem serials_take_sublist (epoch other : UInt64) :
    ((store.take epoch).2.serials other).Sublist (store.serials other) := by
  rw [serials, stock_take]
  apply List.Sublist.map
  split
  · exact List.dropLast_sublist _
  · exact .refl _

theorem serials_pruneBefore_sublist (minEpoch epoch : UInt64) :
    ((store.pruneBefore minEpoch).serials epoch).Sublist (store.serials epoch) := by
  rw [serials, stock_pruneBefore]
  apply List.Sublist.map
  split
  · exact .refl _
  · exact List.nil_sublist _

end TokenStore

/-- The batches of a bundle are of different epochs. -/
theorem PersistedTokens.batches_pairwise (bundle : PersistedTokens) :
    (bundle.batches : List (MintedEpoch format)).Pairwise
      fun batch other => batch.epoch ≠ other.epoch := by
  rw [batches, List.pairwise_map]
  apply Std.TreeMap.distinct_keys_toList.imp
  intro entry other different same
  exact different (Std.LawfulEqOrd.compare_eq_iff_eq.mpr same)

theorem filter_epoch {batches : List (MintedEpoch format)}
    (apart : batches.Pairwise fun batch other => batch.epoch ≠ other.epoch) (epoch : UInt64) :
    (batches.filter fun batch => batch.epoch = epoch) = [] ∨
      ∃ batch ∈ batches, batch.epoch = epoch ∧
        (batches.filter fun batch => batch.epoch = epoch) = [batch] := by
  induction batches with
  | nil => exact .inl rfl
  | cons batch batches induction =>
    have parts := List.pairwise_cons.mp apart
    by_cases same : batch.epoch = epoch
    · have none : (batches.filter fun batch => batch.epoch = epoch) = [] := by
        apply List.filter_eq_nil_iff.mpr
        intro other member equal
        exact parts.1 other member (same.trans (of_decide_eq_true equal).symm)
      exact .inr ⟨batch, .head _, same, by simp [same, none]⟩
    · rcases induction parts.2 with none | ⟨other, member, equal, only⟩
      · exact .inl (by simp [same, none])
      · exact .inr ⟨other, .tail _ member, equal, by simp [same, only]⟩

namespace ManagerState

def StockedOnce (state : ManagerState format) : Prop := ∀ epoch, (state.store.serials epoch).Nodup

/-- The batch brings no serial that is stocked for its epoch. -/
def Unstocked (state : ManagerState format) (batch : MintedEpoch format) :
    Prop :=
  List.Disjoint (state.store.serials batch.epoch) batch.serials

end ManagerState

def Pc.Apart (state : ManagerState format) : Pc format → Prop
  | .restoring bundle => ∀ batch ∈ bundle.batches, batch.serials.Nodup ∧ state.Unstocked batch
  | .stocking batch _ _ => batch.epoch ∉ state.minted → state.Unstocked batch
  | _ => True

instance (state : ManagerState format) (batch : MintedEpoch format) :
    Decidable (state.Unstocked batch) :=
  decidable_of_iff (∀ serial ∈ state.store.serials batch.epoch, serial ∉ batch.serials) Iff.rfl

instance (state : ManagerState format) : (pc : Pc format) → Decidable (pc.Apart state)
  | .restoring _ => inferInstanceAs (Decidable (∀ batch ∈ _, _ ∧ _))
  | .stocking .. => inferInstanceAs (Decidable (_ → _))
  | .refreshCheck _ | .registered _ | .fetched _ | .enterEpoch .. | .minted ..
  | .registeredAgain .. | .settling .. | .revoking | .exporting | .taking _
  | .stacking _ | .claiming _ | .cloning _ | .dropping _ | .releasing _
  | .slotEpoch .. | .slotStock .. | .slotPlace .. | .slotEnvelope ..
  | .refusedEpoch .. | .refused .. | .freeing _ | .returned _ => isTrue trivial

/-- The batch that a pass is about to stock has serials of its own. -/
def Pc.Genuine : Pc format → Prop
  | .stocking batch _ _ => batch.serials.Nodup
  | _ => True

namespace TokenManager

def Serves (issuer : Issuer format) (schedule : List (Action Call (Answers format))) : Prop :=
  ∀ place answers, .advance place answers ∈ schedule →
    ∀ epoch batch, answers.mint epoch = .ok batch → batch = issuer.batch epoch

def Apart (world : World (Shared format) (Pc format) Event) : Action Call (Answers format) → Prop
  | .start _ => True
  | .advance place _ => world.shared.state.deviceRevoked = false →
    ∀ pc ∈ world.calls[place]?, pc.Apart world.shared.state

instance (world : World (Shared format) (Pc format) Event) :
    (action : Action Call (Answers format)) → Decidable (Apart world action)
  | .start _ => isTrue trivial
  | .advance _ _ => inferInstanceAs (Decidable (_ → ∀ pc ∈ (_ : Option _), _))

/-! ## Every step -/

section Steps

theorem next_genuine (issuer : Issuer format)
    (serves : ∀ epoch batch, answers.mint epoch = .ok batch → batch = issuer.batch epoch)
    (taken : next manager shared place pc answers = some outcome) :
    outcome.pc.Genuine := by
  have answered := (next_leads taken).answered
  cases stocking : outcome.pc with
  | stocking batch rest again =>
    rw [stocking] at answered
    have own := serves batch.epoch _ answered
    have distinct := issuer.distinct batch.epoch
    rw [← own] at distinct
    exact distinct
  | _ => trivial

end Steps

variable {state : ManagerState format}

/-- A restored bundle leaves every serial once exactly if what it brings is
apart. -/
theorem restored_once_iff (once : state.StockedOnce)
    (kept : state.deviceRevoked = false) (bundle : PersistedTokens) :
    (state.restorePersisted bundle).2.StockedOnce ↔
      ∀ batch ∈ bundle.batches, batch.serials.Nodup ∧ state.Unstocked batch := by
  have stocked : ∀ epoch, (state.restorePersisted bundle).2.store.serials epoch =
        state.store.serials epoch ++
          (bundle.batches.filter fun batch => batch.epoch = epoch).flatMap
            MintedEpoch.serials := by
    intro epoch
    rw [ManagerState.restorePersisted, kept]
    exact TokenStore.serials_inserts _ _ _
  constructor
  · intro restored batch member
    have nodup := restored batch.epoch
    rw [stocked] at nodup
    have own : batch ∈ bundle.batches.filter fun other =>
        other.epoch = batch.epoch := by
      simp [member]
    rcases filter_epoch bundle.batches_pairwise batch.epoch with none | ⟨other, _, _, only⟩
    · rw [none] at own
      cases own
    · rw [only] at own nodup
      cases List.mem_singleton.mp own
      rw [List.flatMap_singleton, List.nodup_append'] at nodup
      exact nodup.2
  · intro apart epoch
    rw [stocked]
    rcases filter_epoch bundle.batches_pairwise epoch with none | ⟨batch, member, same, only⟩
    · rw [none]
      simpa using once epoch
    · rw [only, List.flatMap_singleton, List.nodup_append']
      subst same
      exact ⟨once _, apart batch member⟩

/-- A batch that is served leaves every serial once exactly if it is apart. -/
theorem stocked_once_iff (once : state.StockedOnce)
    (kept : state.deviceRevoked = false) (distinct : batch.serials.Nodup) :
    (state.stockBatch batch).StockedOnce ↔
      (batch.epoch ∉ state.minted → state.Unstocked batch) := by
  rw [ManagerState.stockBatch, kept]
  by_cases settled : batch.epoch ∈ state.minted
  · simp [settled, once]
  · simp only [Bool.false_or, settled, decide_false, Bool.false_eq_true,
      if_false, not_false_eq_true, true_imp_iff]
    constructor
    · intro stocked
      have nodup := stocked batch.epoch
      rw [TokenStore.serials_insert, if_pos rfl, List.nodup_append'] at nodup
      exact nodup.2.2
    · intro unstocked epoch
      rw [TokenStore.serials_insert]
      split
      · rename_i same
        subst same
        exact List.nodup_append'.mpr ⟨once _, distinct, unstocked⟩
      · exact once epoch

theorem Change.stockedOnce (change : Change state pc after)
    (once : state.StockedOnce) (genuine : pc.Genuine)
    (apart : state.deviceRevoked = false → pc.Apart state) :
    after.StockedOnce := by
  cases change with
  | same | settles => exact once
  | enters current =>
    intro epoch
    exact (once epoch).sublist (TokenStore.serials_pruneBefore_sublist _ _ _)
  | stocks batch =>
    cases revoked : state.deviceRevoked with
    | true => simpa [ManagerState.stockBatch, revoked] using once
    | false => exact (stocked_once_iff once revoked genuine).mpr (apart revoked)
  | revokes =>
    intro epoch
    simp [ManagerState.revoke, TokenStore.serials]
  | restores bundle =>
    cases revoked : state.deviceRevoked with
    | true => simpa [ManagerState.restorePersisted, revoked] using once
    | false => exact (restored_once_iff once revoked bundle).mpr (apart revoked)
  | takes now =>
    rw [ManagerState.takeCurrentStack]
    split
    · exact once
    · intro epoch
      exact (once epoch).sublist (TokenStore.serials_take_sublist _ _ _)

variable (manager : Manager)

theorem next_apart (once : shared.state.StockedOnce) (genuine : pc.Genuine)
    (kept : shared.state.deviceRevoked = false)
    (still : ∀ outcome, next manager shared place pc answers = some outcome →
      outcome.shared.state.StockedOnce) :
    pc.Apart shared.state := by
  cases pc with
  | restoring bundle => exact (restored_once_iff once kept bundle).mp (still _ rfl)
  | stocking batch rest again =>
    have stocked := still _ rfl
    rw [mintNext_shared] at stocked
    exact (stocked_once_iff once kept genuine).mp stocked
  | _ => trivial

/-! ## Every interleaving -/

/-- Every serial is stocked once, and what is about to be stocked is the
issuer's. -/
structure Orderly (world : World (Shared format) (Pc format) Event) : Prop where
  once : world.shared.state.StockedOnce
  genuine : Each (fun _ _ pc => pc.Genuine) world

theorem enter_genuine (call : Call) : (enter manager call : Pc format).Genuine := by
  cases call with
  | claim | restorePersisted | exportPersistable | takeCurrentStack | sessionStack =>
    rw [enter]
    split <;> trivial
  | _ => trivial

theorem start_orderly : Orderly (start : World (Shared format) _ _) := by
  constructor
  · intro epoch
    simp [start, Shared.new, ManagerState.new, TokenStore.serials]
  · intro place pc here
    cases here

theorem step_genuine (issuer : Issuer format) (genuine : Each (fun _ _ pc => pc.Genuine) world)
    (serves : Serves issuer [action]) :
    Each (fun _ _ pc => pc.Genuine) (step (program manager) world action) := by
  apply step_rule
  · exact genuine
  · intro call _
    exact genuine.started (enter_genuine manager call)
  · intro place answers pc outcome equal here taken
    subst equal
    apply genuine.advanced (next_genuine issuer (serves place answers
      (List.mem_singleton.mpr rfl)) taken)
    intro _ _ _ _ kept
    exact kept

theorem step_once (orderly : Orderly world) (apart : Apart world action) :
    (step (program manager) world action).shared.state.StockedOnce := by
  apply step_rule (program manager) fun after => after.shared.state.StockedOnce
  · exact orderly.once
  · intro call _
    exact orderly.once
  · intro place answers pc outcome equal here taken
    subst equal
    apply (next_change taken).stockedOnce orderly.once (orderly.genuine place pc here)
    intro kept
    exact apart kept pc here

theorem run_genuine {schedule : List (Action Call (Answers format))}
    (serves : Serves issuer schedule) : Each (fun _ _ pc => pc.Genuine) (run manager schedule) := by
  induction schedule using List.reverseRecOn with
  | nil => exact start_orderly.genuine
  | append_singleton past action induction =>
    rw [run, Interleaving.run, Execution.run_snoc]
    apply step_genuine manager issuer
    · apply induction
      intro place answers member
      exact serves place answers (List.mem_append_left _ member)
    · intro place answers member
      exact serves place answers (List.mem_append_right _ member)

theorem Serves.of_append (serves : Serves issuer (past ++ later)) : Serves issuer past := by
  intro place answers member
  exact serves place answers (List.mem_append_left _ member)

/-- A run whose steps stock only what is not stocked yet stocks once. -/
theorem run_once {schedule : List (Action Call (Answers format))} (serves : Serves issuer schedule)
    (apart : Execution.Guarded (step (program manager)) Apart start schedule) :
    (run manager schedule).shared.state.StockedOnce := by
  induction schedule using List.reverseRecOn with
  | nil => exact start_orderly.once
  | append_singleton past action induction =>
    have parts := apart.of_snoc
    rw [run, Interleaving.run, Execution.run_snoc]
    exact step_once manager
      ⟨induction serves.of_append parts.1, run_genuine manager serves.of_append⟩ parts.2

/-- In every interleaving with an issuer that serves the same batches, every
serial is stocked once in every state exactly if each step stocks only what is
not stocked yet. -/
theorem stocked_once_in_runs_iff (manager : Manager) (issuer : Issuer format)
    (schedule : List (Action Call (Answers format))) (serves : Serves issuer schedule) :
    (∀ past later, schedule = past ++ later → (run manager past).shared.state.StockedOnce) ↔
      Execution.Guarded (step (program manager)) Apart start schedule := by
  constructor
  · intro once past action later split
    have before := once past (action :: later) split
    have behind := once (past ++ [action]) later (by simp [split])
    rw [run, Interleaving.run, Execution.run_snoc] at behind
    rw [split] at serves
    have genuine := run_genuine manager serves.of_append
    cases action with
    | start => trivial
    | advance place answers =>
      intro kept pc here
      apply next_apart manager before (genuine place pc here) kept
      intro outcome taken
      rw [step_advance (program manager) here taken] at behind
      exact behind
  · intro apart past later split
    subst split
    exact run_once manager serves.of_append apart.of_append

end TokenManager

namespace Sample

open TokenManager

def issuer : Issuer byteTokens where
  batch _ := (([1, 2] : List UInt8), ([7, 8] : List UInt8))
  distinct _ := by decide

def bundle : PersistedTokens where
  epochSecs := 100
  epochs := .ofList [((0 : UInt64), ([[1], [2]] : List (List UInt8)))]

def exports : List (Action Call (Answers byteTokens)) :=
  refreshes 0 ++ .start .exportPersistable :: advances 1 1 served

def exported (log : List Event) : List (UInt64 × List (UInt64 × List (List UInt8))) :=
  log.filterMap fun
    | .exported bundle => some (bundle.epochSecs, bundle.epochs.toList)
    | _ => none

/-- The exported bundle is restored while its tokens are still stocked. -/
def doubles : List (Action Call (Answers byteTokens)) :=
  exports ++ .start (.restorePersisted bundle) :: advances 2 1 served

/-- Both tokens are taken before the bundle is restored, and two passes
overlap. -/
def spends : List (Action Call (Answers byteTokens)) :=
  .start (.refresh 5) :: advances 0 5 served ++
    .start (.refresh 5) :: advances 1 6 served ++ advances 0 1 served ++
    .start .exportPersistable :: advances 2 1 served ++
    .start (.takeCurrentStack 5) :: advances 3 1 served ++
    .start (.takeCurrentStack 5) :: advances 4 1 served ++
    .start (.restorePersisted bundle) :: advances 5 1 served

theorem serves_of_all (all : ∀ place answers, .advance place answers ∈ schedule →
      answers = served) : Serves issuer schedule := by
  intro place answers member epoch batch answered
  rw [all place answers member] at answered
  cases answered
  rfl

theorem serves_doubles : Serves issuer doubles := by
  apply serves_of_all
  intro place answers member
  simp [doubles, exports, refreshes, advances] at member
  grind

theorem serves_spends : Serves issuer spends := by
  apply serves_of_all
  intro place answers member
  simp [spends, advances] at member
  grind

end Sample

namespace TokenManager

theorem stocked_once_in_runs_spent : Serves Sample.issuer Sample.spends ∧
      ∀ past later, Sample.spends = past ++ later →
        (run (Sample.manager .session) past).shared.state.StockedOnce :=
  ⟨Sample.serves_spends, (stocked_once_in_runs_iff (Sample.manager .session) Sample.issuer
      Sample.spends Sample.serves_spends).mpr (by decide +kernel)⟩

/-- A bundle that the manager has exported is restored while its tokens are
stocked: both of its serials are stocked twice. -/
theorem restored_bundle_stocks_twice :
    let manager := Sample.manager .session
    Serves Sample.issuer Sample.doubles ∧ Sample.exported (run manager Sample.exports).log =
        [(Sample.bundle.epochSecs, Sample.bundle.epochs.toList)] ∧
      ¬ (run manager Sample.doubles).shared.state.StockedOnce := by
  intro manager
  have twice : ¬ ((run manager Sample.doubles).shared.state.store.serials 0).Nodup := by
    decide +kernel
  exact ⟨Sample.serves_doubles, by decide +kernel, fun once => twice (once 0)⟩

/-! ## Passes alone -/

def Unrestored (schedule : List (Action Call (Answers format))) : Prop :=
  ∀ bundle, .start (.restorePersisted bundle) ∉ schedule

/-- What is stocked is settled, and no bundle is about to be restored. -/
structure Settled (world : World (Shared format) (Pc format) Event) : Prop where
  settled : ∀ epoch, world.shared.state.store.stock epoch ≠ [] → epoch ∈ world.shared.state.minted
  unrestored : Each (fun _ _ pc => ∀ bundle, pc ≠ .restoring bundle) world

theorem Change.settled (change : Change state pc after)
    (settled : ∀ epoch, state.store.stock epoch ≠ [] → epoch ∈ state.minted)
    (unrestored : ∀ bundle, pc ≠ .restoring bundle) :
    ∀ epoch, after.store.stock epoch ≠ [] → epoch ∈ after.minted := by
  intro epoch stocked
  cases change with
  | same => exact settled epoch stocked
  | enters current =>
    simp only [ManagerState.enterEpoch, TokenStore.stock_pruneBefore] at stocked
    split at stocked
    · rename_i kept
      exact Finset.mem_filter.mpr ⟨settled epoch stocked, kept⟩
    · exact absurd rfl stocked
  | stocks batch =>
    rw [ManagerState.stockBatch] at stocked ⊢
    split
    · rename_i idle
      rw [if_pos idle] at stocked
      exact settled epoch stocked
    · rename_i idle
      rw [if_neg idle] at stocked
      simp only [TokenStore.stock_insert] at stocked
      split at stocked
      · rename_i same
        exact same ▸ Finset.mem_insert_self _ _
      · exact Finset.mem_insert_of_mem (settled epoch stocked)
  | settles => exact Finset.mem_insert_of_mem (settled epoch stocked)
  | revokes => exact absurd (TokenStore.stock_new epoch) stocked
  | restores bundle => exact absurd rfl (unrestored bundle)
  | takes now =>
    rw [ManagerState.takeCurrentStack] at stocked ⊢
    cases known : state.epochAt now with
    | none =>
      rw [known] at stocked
      exact settled epoch stocked
    | some current =>
      rw [known] at stocked
      apply settled
      simp only [TokenStore.stock_take] at stocked
      intro empty
      rw [empty] at stocked
      split at stocked <;> exact stocked rfl

theorem enter_unrestored (manager : Manager) (other : ∀ bundle, call ≠ .restorePersisted bundle)
    (bundle : PersistedTokens) : (enter manager call : Pc format) ≠ .restoring bundle := by
  intro same
  cases call with
  | restorePersisted bundle => exact other bundle rfl
  | claim | exportPersistable | takeCurrentStack | sessionStack =>
    rw [enter] at same
    split at same <;> cases same
  | _ => cases same

theorem step_settled (manager : Manager) (settled : Settled world)
    (unrestored : Unrestored [action]) : Settled (step (program manager) world action) := by
  apply step_rule
  · exact settled
  · intro call equal
    refine ⟨settled.settled, settled.unrestored.started ?_⟩
    apply enter_unrestored
    intro bundle same
    apply unrestored bundle
    rw [equal, same]
    exact List.mem_singleton.mpr rfl
  · intro place answers pc outcome _ here taken
    constructor
    · exact (next_change taken).settled settled.settled (settled.unrestored place pc here)
    · apply settled.unrestored.advanced
      · intro bundle same
        have entry := (next_leads taken).entry
        rw [same] at entry
        cases entry
      · intro _ _ _ _ kept
        exact kept

/-- Without restored bundles, overlapping passes stock every serial once. -/
theorem passes_stock_once (manager : Manager) (issuer : Issuer format)
    (schedule : List (Action Call (Answers format)))
    (serves : Serves issuer schedule) (unrestored : Unrestored schedule) :
    (run manager schedule).shared.state.StockedOnce := by
  have apart : Execution.Guarded (step (program manager)) Apart start
      schedule := by
    intro past action later split
    have settled : Settled (run manager past) := by
      have earlier : Unrestored past := by
        intro bundle member
        apply unrestored bundle
        rw [split]
        exact List.mem_append_left _ member
      clear split
      induction past using List.reverseRecOn with
      | nil =>
        constructor
        · intro epoch stocked
          exact absurd (TokenStore.stock_new epoch) stocked
        · intro place pc here
          cases here
      | append_singleton past action induction =>
        rw [run, Interleaving.run, Execution.run_snoc]
        apply step_settled manager
        · apply induction
          intro bundle member
          exact earlier bundle (List.mem_append_left _ member)
        · intro bundle member
          exact earlier bundle (List.mem_append_right _ member)
    cases action with
    | start => trivial
    | advance place answers =>
      intro _ pc here
      cases pc with
      | restoring bundle => exact absurd rfl (settled.unrestored place _ here bundle)
      | stocking batch rest again =>
        intro open_
        have empty : (run manager past).shared.state.store.stock batch.epoch = [] := by
          by_contra stocked
          exact open_ (settled.settled batch.epoch stocked)
        have none : (run manager past).shared.state.store.serials batch.epoch = [] := by
          rw [TokenStore.serials, empty]
          rfl
        change List.Disjoint ((run manager past).shared.state.store.serials
          batch.epoch) batch.serials
        rw [none]
        exact List.disjoint_nil_left _
      | _ => trivial
  exact run_once manager serves apart

theorem passes_stock_once_exported :
    Serves Sample.issuer Sample.exports ∧ Unrestored Sample.exports ∧
      (run (Sample.manager .session) Sample.exports).shared.state.StockedOnce := by
  have serves := Sample.serves_doubles.of_append
  have unrestored : Unrestored Sample.exports := by
    intro bundle member
    simp [Sample.exports, Sample.refreshes, Sample.advances] at member
  exact ⟨serves, unrestored, passes_stock_once _ _ _ serves unrestored⟩

end TokenManager

end WarrenSdk.Api
