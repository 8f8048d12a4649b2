import WarrenSdk.Api.Places

/-! # The slots of the forwarding rules

Every rule holds one slot of its wallet's batch, and presents the entitlement at
the place that the slot is assigned. The slots that are taken and the table of
places are behind different locks: a rule's drop frees its slot in one section
and the slot's place in a later one, and between the two the slot can be claimed
again. -/

namespace WarrenSdk.Sdk

open Interleaving Api HashMap Option

variable {format : TokenFormat}

/-! ## Slots -/

def lowestFree (slots : Finset Nat) : Nat :=
  ((List.range (slots.card + 1)).find? fun slot => slot ∉ slots).getD 0

theorem lowestFree_notMem (slots : Finset Nat) : lowestFree slots ∉ slots := by
  have room : slots.card < (Finset.range (slots.card + 1)).card := by simp
  rcases Finset.exists_mem_notMem_of_card_lt_card room with ⟨slot, inside, free⟩
  have found : ((List.range (slots.card + 1)).find? fun slot => slot ∉ slots).isSome = true := by
    rw [List.find?_isSome]
    exact ⟨slot, List.mem_range.mpr (Finset.mem_range.mp inside), by simpa using free⟩
  rcases isSome_iff_exists.mp found with ⟨lowest, chosen⟩
  rw [lowestFree, chosen]
  simpa using List.find?_some chosen

/-- A rule's hold on a slot, the last credential that was asked for it, and the
calls that keep it alive. -/
structure SlotLease where
  slot : Nat
  presented : Option (List UInt8)
  users : Finset Nat
  deriving DecidableEq

/-- The batch of a wallet: its manager, the slots that are held and the leases
that hold them, each known by the call that claimed it. -/
structure Inner (format : TokenFormat) where
  source : Shared format
  slots : Finset Nat
  leases : HashMap Nat SlotLease

namespace Inner

def new : Inner format := ⟨.new, ∅, .empty⟩

def setLease (inner : Inner format) (key : Nat) (lease : SlotLease) : Inner format :=
  { inner with leases := inner.leases.insert key lease }

end Inner

/-! ## Steps -/

inductive Call
  | claim
  | dropLease (key : Nat)
  | credential (key : Nat) (now : UInt64)
  | forwardError (key : Nat) (now : UInt64)
  | refresh (now : UInt64)

/-- Where a call stands. A call that is made on a lease takes hold of it before
its first section; `using` is inside of the manager. -/
inductive Pc (format : TokenFormat)
  | claiming
  | dropping (key : Nat)
  | asking (key : Nat) (now : UInt64)
  | consulting (key : Nat) (now : UInt64)
  | inside (key : Nat) (pc : Api.Pc format)
  | presenting (key : Nat) (credential : Option (List UInt8))
  | source (pc : Api.Pc format)
  | done

abbrev Stepped (format : TokenFormat) := Interleaving.Outcome (Inner format) (Pc format) Event

namespace PortEntitlements

def enter : Call → Pc format
  | .claim => .claiming
  | .dropLease key => .dropping key
  | .credential key now => .asking key now
  | .forwardError key now => .consulting key now
  | .refresh now => .source (.refreshCheck now)

/-- The call of a lease goes on where the manager's section ended, and lets go
of the lease once the refusal is recorded. -/
def onward (inner : Inner format) (place key : Nat) (lease : SlotLease)
    (outcome : Api.Stepped format) : Stepped format :=
  let inner := { inner with source := outcome.shared }
  match outcome.pc with
  | .returned (.credential credential) =>
    { shared := inner, pc := .presenting key credential
      events := outcome.events }
  | .returned _ =>
    { shared := inner.setLease key
        { lease with users := lease.users.erase place }
      pc := .done
      events := outcome.events }
  | pc => { shared := inner, pc := .inside key pc, events := outcome.events }

def next (manager : Manager) (inner : Inner format) (place : Nat)
    (pc : Pc format) (answers : Answers format) : Option (Stepped format) :=
  match pc with
  | .claiming =>
    let slot := lowestFree inner.slots
    some {
      shared := { inner with
        slots := insert slot inner.slots
        leases := inner.leases.insert place ⟨slot, none, ∅⟩ }
      pc := .done }
  -- A lease is dropped when nothing keeps it alive. The slot is free then, and
  -- its place is given up in a section of its own.
  | .dropping key =>
    match inner.leases.get key with
    | none => none
    | some lease =>
      if lease.users = ∅ then
        some {
          shared := { inner with
            slots := inner.slots.erase lease.slot
            leases := inner.leases.remove key }
          pc := .source (TokenManager.enter manager (.release lease.slot)) }
      else none
  | .asking key now =>
    (inner.leases.get key).map fun lease =>
      { shared := inner.setLease key
          { lease with users := insert place lease.users }
        pc := .inside key (TokenManager.enter manager (.credentialForSlot lease.slot now)) }
  -- Nothing was refused if nothing was presented.
  | .consulting key now =>
    match inner.leases.get key with
    | none => none
    | some lease =>
      match lease.presented with
      | none => some { shared := inner, pc := .done }
      | some presented =>
        some {
          shared := inner.setLease key
            { lease with users := insert place lease.users }
          pc := .inside key (TokenManager.enter manager (.markRefused lease.slot presented now)) }
  | .inside key pc =>
    match inner.leases.get key with
    | none => none
    | some lease =>
      (TokenManager.next manager inner.source place pc answers).map (onward inner place key lease)
  | .presenting key credential =>
    (inner.leases.get key).map fun lease =>
      { shared := inner.setLease key { lease with
          presented := credential
          users := lease.users.erase place }
        pc := .done }
  | .source pc =>
    (TokenManager.next manager inner.source place pc answers).map fun outcome =>
        { shared := { inner with source := outcome.shared }
          pc := .source outcome.pc
          events := outcome.events }
  | .done => none

def program (manager : Manager) :
    Program (Inner format) (Pc format) Event Call (Answers format) where
  enter := enter
  next := next manager

def start : World (Inner format) (Pc format) Event where
  shared := .new
  calls := []
  log := []

def run (manager : Manager) (schedule : List (Action Call (Answers format))) :
    World (Inner format) (Pc format) Event :=
  Interleaving.run (program manager) start schedule

end PortEntitlements

/-! ## The leases -/

namespace Inner

/-- The slots that are taken are those of the leases, of which each has its
own. -/
structure Held (inner : Inner format) : Prop where
  sole : ∀ key other lease rival, inner.leases.get key = some lease →
    inner.leases.get other = some rival → lease.slot = rival.slot → key = other
  slots : ∀ slot, slot ∈ inner.slots ↔
    ∃ key lease, inner.leases.get key = some lease ∧ lease.slot = slot

variable {inner : Inner format}

theorem Held.setLease (held : inner.Held) (there : inner.leases.get key = some lease)
    (same : changed.slot = lease.slot) : (inner.setLease key changed).Held := by
  -- Whatever lease is found, one with its slot was there before.
  have before : ∀ other rival, (inner.setLease key changed).leases.get other = some rival →
      ∃ older, inner.leases.get other = some older ∧ older.slot = rival.slot := by
    intro other rival found
    rw [Inner.setLease, get_insert] at found
    split at found
    · rename_i equal
      cases found
      exact ⟨lease, equal ▸ there, same.symm⟩
    · exact ⟨rival, found, rfl⟩
  constructor
  · intro left right first second found beside equal
    rcases before left first found with ⟨older, wasThere, firstSame⟩
    rcases before right second beside with ⟨elder, wasBeside, secondSame⟩
    apply held.sole left right older elder wasThere wasBeside
    rw [firstSame, secondSame, equal]
  · intro slot
    rw [Inner.setLease, held.slots]
    constructor
    · rintro ⟨other, rival, found, equal⟩
      by_cases own : other = key
      · subst own
        rw [there] at found
        cases found
        exact ⟨other, changed, by simp, same.trans equal⟩
      · exact ⟨other, rival, by simpa [own] using found, equal⟩
    · rintro ⟨other, rival, found, equal⟩
      rcases before other rival found with ⟨older, wasThere, same⟩
      exact ⟨other, older, wasThere, same.trans equal⟩

theorem Held.claim (held : inner.Held) (fresh : inner.leases.get place = none) : Held { inner with
      slots := insert (lowestFree inner.slots) inner.slots
      leases := inner.leases.insert place ⟨lowestFree inner.slots, none, ∅⟩ } := by
  have unheld : ∀ other rival, inner.leases.get other = some rival →
      rival.slot ≠ lowestFree inner.slots := by
    intro other rival found same
    exact lowestFree_notMem inner.slots ((held.slots _).mpr ⟨other, rival, found, same⟩)
  constructor
  · intro key other lease rival there beside same
    simp only [get_insert] at there beside
    split at there
    · rename_i own
      cases there
      split at beside
      · rename_i equal
        rw [own, equal]
      · exact absurd same.symm (unheld other rival beside)
    · split at beside
      · cases beside
        exact absurd same (unheld key lease there)
      · exact held.sole key other lease rival there beside same
  · intro slot
    rw [Finset.mem_insert, held.slots]
    constructor
    · rintro (rfl | ⟨key, lease, there, same⟩)
      · exact ⟨place, ⟨lowestFree inner.slots, none, ∅⟩, by simp, rfl⟩
      · have different : key ≠ place := by
          intro equal
          rw [equal, fresh] at there
          cases there
        exact ⟨key, lease, by simpa [different] using there, same⟩
    · rintro ⟨key, lease, there, same⟩
      simp only [get_insert] at there
      split at there
      · cases there
        exact .inl same.symm
      · exact .inr ⟨key, lease, there, same⟩

theorem Held.drop (held : inner.Held) (there : inner.leases.get key = some lease) :
    Held { inner with
      slots := inner.slots.erase lease.slot
      leases := inner.leases.remove key } := by
  have found : ∀ other rival, (inner.leases.remove key).get other = some rival ↔
        other ≠ key ∧ inner.leases.get other = some rival := by
    intro other rival
    rw [get_remove]
    split <;> rename_i equal <;> simp [equal]
  constructor
  · intro left right first second isThere beside
    exact held.sole left right first second ((found _ _).mp isThere).2 ((found _ _).mp beside).2
  · intro slot
    rw [Finset.mem_erase, held.slots]
    constructor
    · rintro ⟨different, other, rival, beside, same⟩
      refine ⟨other, rival, (found other rival).mpr ⟨?_, beside⟩, same⟩
      intro equal
      rw [equal, there] at beside
      cases beside
      exact different same.symm
    · rintro ⟨other, rival, isThere, same⟩
      have parts := (found other rival).mp isThere
      refine ⟨?_, other, rival, parts.2, same⟩
      intro equal
      exact parts.1 (held.sole other key rival lease parts.2 there (same.trans equal))

end Inner

/-- A call that is made on a lease keeps it alive and is about its slot only;
outside of the leases a slot is only given up. -/
def Pc.Sound (inner : Inner format) (place : Nat) : Pc format → Prop
  | .inside key pc =>
    (∀ slot, pc ≠ .freeing slot) ∧
      ∃ lease, inner.leases.get key = some lease ∧ place ∈ lease.users ∧
        ∀ slot, pc.slot = some slot → slot = lease.slot
  | .presenting key _ => ∃ lease, inner.leases.get key = some lease ∧ place ∈ lease.users
  | .source pc => ∀ slot, pc.slot = some slot → pc = .freeing slot
  | _ => True

def Pc.frees : Pc format → Option Nat
  | .source (.freeing slot) => some slot
  | _ => none

theorem Pc.frees_eq {pc : Pc format} : pc.frees = some slot ↔ pc = .source (.freeing slot) := by
  constructor
  · intro frees
    cases pc with
    | source within =>
      cases within with
      | freeing =>
        cases frees
        rfl
      | _ => cases frees
    | _ => cases frees
  · rintro rfl
    rfl

def Pc.lease : Pc format → Option Nat
  | .inside key _ => some key
  | _ => none

def Pc.claims : Pc format → Bool
  | .claiming => true
  | _ => false

def Inner.Keeps (before after : Inner format) (place : Nat) : Prop :=
  ∀ key lease user, before.leases.get key = some lease → user ∈ lease.users → user ≠ place →
    ∃ kept, after.leases.get key = some kept ∧ user ∈ kept.users ∧ kept.slot = lease.slot

variable {before : Inner format}

theorem Pc.Sound.kept (keeps : before.Keeps after place)
    (different : user ≠ place) {pc : Pc format} (sound : pc.Sound before user) :
    pc.Sound after user := by
  cases pc with
  | inside key pc =>
    rcases sound with ⟨unfreed, lease, there, uses, own⟩
    rcases keeps key lease user there uses different with ⟨kept, found, still, same⟩
    exact ⟨unfreed, kept, found, still, same ▸ own⟩
  | presenting key credential =>
    rcases sound with ⟨lease, there, uses⟩
    rcases keeps key lease user there uses different with ⟨kept, found, still, _⟩
    exact ⟨kept, found, still⟩
  | _ => exact sound

theorem Inner.Keeps.refl (same : after.leases = before.leases) (place : Nat) :
    before.Keeps after place := by
  intro key lease user there uses _
  exact ⟨lease, same ▸ there, uses, rfl⟩

theorem Inner.Keeps.setLease (there : before.leases.get key = some lease)
    (leases : after.leases = before.leases.insert key changed) (same : changed.slot = lease.slot)
    (others : ∀ user ∈ lease.users, user ≠ place → user ∈ changed.users) :
    before.Keeps after place := by
  intro other rival user beside uses different
  rw [leases]
  by_cases own : other = key
  · subst own
    rw [there] at beside
    cases beside
    exact ⟨changed, by simp, others user uses different, same⟩
  · exact ⟨rival, by simpa [own] using beside, uses, rfl⟩

/-! ## Everything that a step does -/

namespace PortEntitlements

/-- What a step makes of the leases and of the places, and where it leads. A
slot that is about to be given up is free. -/
structure Stepping (inner : Inner format) (place : Nat) (pc : Pc format)
    (outcome : Stepped format) : Prop where
  held : inner.Held → outcome.shared.Held
  keeps : inner.Keeps outcome.shared place
  slots : outcome.shared.slots ⊆ inner.slots ∨ pc = .claiming ∧
      outcome.shared.slots = insert (lowestFree inner.slots) inner.slots
  freed : ∀ slot, outcome.pc = .source (.freeing slot) → slot ∉ outcome.shared.slots
  sound : pc.Sound inner place → outcome.pc.Sound outcome.shared place
  known : ∀ key lease, outcome.shared.leases.get key = some lease →
    (key = place ∧ outcome.pc = .done) ∨
      ∃ older, inner.leases.get key = some older ∧ older.slot = lease.slot
  assigned : outcome.shared.source.assigned = inner.source.assigned ∨
    (∃ key within, pc = .inside key within ∧ TokenManager.Assigning inner.source within
        outcome.shared.source.assigned) ∨
    ∃ within, pc = .source within ∧ TokenManager.Assigning inner.source within
        outcome.shared.source.assigned

section Steps

variable {inner : Inner format} {outcome : Stepped format}

theorem Stepping.of_setLease (changed : SlotLease) (source : Shared format)
    (there : inner.leases.get key = some lease)
    (shared : outcome.shared = { inner.setLease key changed with source })
    (same : changed.slot = lease.slot)
    (others : ∀ user ∈ lease.users, user ≠ place → user ∈ changed.users)
    (unfreed : ∀ slot, outcome.pc ≠ .source (.freeing slot))
    (sound : pc.Sound inner place → outcome.pc.Sound outcome.shared place)
    (assigned : source.assigned = inner.source.assigned ∨ ∃ key within, pc = .inside key within ∧
        TokenManager.Assigning inner.source within source.assigned) :
    Stepping inner place pc outcome where
  held held := by
    have after := held.setLease there same
    rw [shared]
    exact ⟨after.sole, after.slots⟩
  keeps := by
    rw [shared]
    exact .setLease there rfl same others
  slots := by
    rw [shared]
    exact .inl (Finset.Subset.refl _)
  freed slot freeing := absurd freeing (unfreed slot)
  sound := sound
  known := by
    intro other rival found
    rw [shared] at found
    simp only [Inner.setLease, get_insert] at found
    split at found
    · rename_i own
      cases found
      exact .inr ⟨lease, own ▸ there, same.symm⟩
    · exact .inr ⟨rival, found, rfl⟩
  assigned := by
    rw [shared]
    rcases assigned with kept | changed
    · exact .inl kept
    · exact .inr (.inl changed)

theorem Stepping.of_source (source : Shared format)
    (shared : outcome.shared = { inner with source })
    (unfreed : ∀ slot, outcome.pc ≠ .source (.freeing slot))
    (sound : pc.Sound inner place → outcome.pc.Sound outcome.shared place)
    (assigned : source.assigned = inner.source.assigned ∨ (∃ key within, pc = .inside key within ∧
        TokenManager.Assigning inner.source within source.assigned) ∨
      ∃ within, pc = .source within ∧ TokenManager.Assigning inner.source within source.assigned) :
    Stepping inner place pc outcome where
  held held := by
    rw [shared]
    exact ⟨held.sole, held.slots⟩
  keeps := by
    rw [shared]
    exact .refl rfl place
  slots := by
    rw [shared]
    exact .inl (Finset.Subset.refl _)
  freed slot freeing := absurd freeing (unfreed slot)
  sound := sound
  known := by
    intro key lease found
    rw [shared] at found
    exact .inr ⟨lease, found, rfl⟩
  assigned := by
    rw [shared]
    exact assigned

theorem Stepping.claims (fresh : inner.leases.get place = none) : Stepping inner place .claiming
      { shared := { inner with
          slots := insert (lowestFree inner.slots) inner.slots
          leases := inner.leases.insert place ⟨lowestFree inner.slots, none, ∅⟩ }
        pc := .done } where
  held held := held.claim fresh
  keeps := by
    intro key lease user there uses _
    have different : key ≠ place := by
      intro equal
      rw [equal, fresh] at there
      cases there
    exact ⟨lease, by simpa [different] using there, uses, rfl⟩
  slots := .inr ⟨rfl, rfl⟩
  freed := nofun
  sound _ := trivial
  known := by
    intro key lease found
    simp only [get_insert] at found
    split at found
    · rename_i own
      exact .inl ⟨own, rfl⟩
    · exact .inr ⟨lease, found, rfl⟩
  assigned := .inl rfl

theorem Stepping.drops (there : inner.leases.get key = some lease) (unused : lease.users = ∅) :
    Stepping inner place (.dropping key)
      { shared := { inner with
          slots := inner.slots.erase lease.slot
          leases := inner.leases.remove key }
        pc := .source (.freeing lease.slot) } where
  held held := held.drop there
  keeps := by
    intro other rival user beside uses _
    have different : other ≠ key := by
      intro equal
      rw [equal, there] at beside
      cases beside
      rw [unused] at uses
      cases uses
    exact ⟨rival, by simpa [different] using beside, uses, rfl⟩
  slots := .inl (Finset.erase_subset _ _)
  freed := by
    intro slot freeing
    cases freeing
    exact Finset.notMem_erase _ _
  sound _ := by
    intro slot same
    cases same
    rfl
  known := by
    intro other rival found
    simp only [get_remove] at found
    split at found
    · cases found
    · exact .inr ⟨rival, found, rfl⟩
  assigned := .inl rfl

theorem Stepping.uses (there : inner.leases.get key = some lease) (same : outcome = {
      shared := inner.setLease key { lease with users := insert place lease.users }
      pc := .inside key within })
    (own : ∀ slot, within.slot = some slot → slot = lease.slot)
    (unfreed : ∀ slot, within ≠ .freeing slot) :
    Stepping inner place pc outcome := by
  subst same
  refine Stepping.of_setLease { lease with users := insert place lease.users }
    inner.source there rfl rfl ?_ nofun ?_ (.inl rfl)
  · intro user uses _
    exact Finset.mem_insert_of_mem uses
  · intro _
    exact ⟨unfreed, { lease with users := insert place lease.users },
      by simp [Inner.setLease], Finset.mem_insert_self _ _, own⟩

theorem Stepping.onward {outcome : Api.Stepped format} (there : inner.leases.get key = some lease)
    (taken : TokenManager.next manager inner.source place within answers = some outcome) :
    Stepping inner place (.inside key within)
      (PortEntitlements.onward inner place key lease outcome) := by
  have leads := TokenManager.next_leads taken
  have assigned : ∃ other pc, Pc.inside key within = .inside other pc ∧
      TokenManager.Assigning inner.source pc outcome.shared.assigned :=
    ⟨key, within, rfl, TokenManager.next_assigning taken⟩
  rw [PortEntitlements.onward]
  split
  · refine Stepping.of_source outcome.shared rfl nofun ?_ ?_
    · rintro ⟨_, rest⟩
      rcases rest with ⟨lease, found, uses, _⟩
      exact ⟨lease, found, uses⟩
    · exact .inr (.inl assigned)
  · refine Stepping.of_setLease
      { lease with users := lease.users.erase place } outcome.shared there rfl
      rfl ?_ nofun (fun _ => trivial) (.inr assigned)
    intro user uses different
    exact Finset.mem_erase.mpr ⟨different, uses⟩
  · refine Stepping.of_source outcome.shared rfl nofun ?_ ?_
    · rintro ⟨_, lease, found, uses, own⟩
      refine ⟨?_, lease, found, uses, ?_⟩
      · intro slot freeing
        have entry := leads.entry
        rw [freeing] at entry
        cases entry
      · intro slot same
        exact own slot (leads.slot slot same)
    · exact .inr (.inl assigned)

theorem next_stepping (fresh : pc = .claiming → inner.leases.get place = none)
    (taken : next manager inner place pc answers = some outcome) :
    Stepping inner place pc outcome := by
  cases pc with
  | claiming =>
    cases taken
    exact .claims (fresh rfl)
  | dropping key =>
    rw [next] at taken
    split at taken
    · cases taken
    · rename_i lease there
      split at taken
      · rename_i unused
        cases taken
        exact .drops there unused
      · cases taken
  | asking key now =>
    rcases map_eq_some_iff.mp taken with ⟨lease, there, rfl⟩
    exact .uses there rfl (by intro slot same; cases same; rfl) nofun
  | consulting key now =>
    rw [next] at taken
    split at taken
    · cases taken
    · rename_i lease there
      split at taken <;> cases taken
      · exact .of_source inner.source rfl nofun (fun _ => trivial) (.inl rfl)
      · exact .uses there rfl (by intro slot same; cases same; rfl) nofun
  | inside key within =>
    rw [next] at taken
    split at taken
    · cases taken
    · rename_i lease there
      rcases map_eq_some_iff.mp taken with ⟨outcome, moved, rfl⟩
      exact .onward there moved
  | presenting key credential =>
    rcases map_eq_some_iff.mp taken with ⟨lease, there, rfl⟩
    refine Stepping.of_setLease { lease with
      presented := credential
      users := lease.users.erase place } inner.source there rfl rfl ?_
      nofun (fun _ => trivial) (.inl rfl)
    intro user uses different
    exact Finset.mem_erase.mpr ⟨different, uses⟩
  | source within =>
    rcases map_eq_some_iff.mp taken with ⟨outcome, moved, rfl⟩
    refine Stepping.of_source outcome.shared rfl ?_ ?_ ?_
    · intro slot freeing
      have entry := (TokenManager.next_leads moved).entry
      rw [Pc.source.inj freeing] at entry
      cases entry
    · intro freed slot same
      -- A slot is given up in one step.
      have before := freed slot ((TokenManager.next_leads moved).slot slot same)
      subst before
      cases moved
      cases same
    · exact .inr (.inr ⟨within, rfl, TokenManager.next_assigning moved⟩)
  | done => cases taken

end Steps

/-! ## Every interleaving -/

/-- Every lease has its own slot, every slot its own place, and the calls that
are under way are sound. -/
structure Orderly (world : World (Inner format) (Pc format) Event) : Prop where
  held : world.shared.Held
  claimed : ∀ key lease, world.shared.leases.get key = some lease → world.calls[key]? = some .done
  sound : Each (fun inner place pc => pc.Sound inner place) world
  apart : world.shared.source.assigned.Apart

def Freed (world : World (Inner format) (Pc format) Event) : Prop :=
  Each (fun inner _ pc => ∀ slot, pc.frees = some slot → slot ∉ inner.slots) world

/-- A slot is claimed only when its last rule has given up its place. -/
def Unhurried (world : World (Inner format) (Pc format) Event) : Action Call (Answers format) → Prop
  | .start _ => True
  | .advance place _ => ∀ pc ∈ world.calls[place]?, pc.claims = true →
    ∀ other ∈ world.calls, other.frees ≠ some (lowestFree world.shared.slots)

instance (world : World (Inner format) (Pc format) Event) :
    (action : Action Call (Answers format)) → Decidable (Unhurried world action)
  | .start _ => isTrue trivial
  | .advance _ _ => inferInstanceAs (Decidable (∀ pc ∈ (_ : Option _), _))

/-- Through an action every live lease keeps its place, unless it is refused on
it or finds that the batch does not have it. -/
def Kept (manager : Manager) (world : World (Inner format) (Pc format) Event)
    (action : Action Call (Answers format)) : Prop :=
  ∀ key lease place, world.shared.leases.get key = some lease →
    world.shared.source.assigned.places.get lease.slot = some place → (step (program manager) world
        action).shared.source.assigned.places.get lease.slot = some place ∨
      ∃ call answers within, action = .advance call answers ∧
        world.calls[call]? = some (.inside key within) ∧ within.GivesUp world.shared.source place

theorem start_orderly : Orderly (start : World (Inner format) (Pc format) Event) where
  held := by constructor <;> simp [start, Inner.new]
  claimed := by simp [start, Inner.new]
  sound := by
    intro place pc here
    cases here
  apart := by simp [start, Inner.new, Shared.new, Assigned.Apart, Assigned.new]

theorem enter_sound (inner : Inner format) (place : Nat) (call : Call) :
    (enter call : Pc format).Sound inner place := by
  cases call with
  | refresh now =>
    intro slot same
    cases same
  | _ => trivial

section Advanced

variable {world : World (Inner format) (Pc format) Event}
    {answers : Answers format} {outcome : Stepped format} {pc : Pc format}

variable (orderly : Orderly world) (here : world.calls[place]? = some pc)
    (taken : next manager world.shared place pc answers = some outcome)

include orderly here taken

/-- The call at a place that takes a step has claimed no lease yet. -/
theorem Orderly.fresh : world.shared.leases.get place = none := by
  cases there : world.shared.leases.get place with
  | none => rfl
  | some lease =>
    have finished := orderly.claimed place lease there
    rw [here] at finished
    cases finished
    cases taken

theorem Orderly.stepping : Stepping world.shared place pc outcome :=
  next_stepping (fun _ => orderly.fresh here taken) taken

theorem Orderly.advanced : Orderly (world.advanced place outcome) := by
  have stepping := orderly.stepping here taken
  constructor
  · exact stepping.held orderly.held
  · intro key lease found
    rcases stepping.known key lease found with ⟨rfl, finished⟩ | ⟨older, there, _⟩
    · rw [← finished]
      exact calls_of_advanced outcome here
    · apply calls_of_ne outcome (orderly.claimed key older there)
      rintro rfl
      rw [orderly.fresh here taken] at there
      cases there
  · apply orderly.sound.advanced
    · exact stepping.sound (orderly.sound place pc here)
    · intro other waiting different _ sound
      exact sound.kept stepping.keeps different
  · change outcome.shared.source.assigned.Apart
    rcases stepping.assigned with same | ⟨_, _, _, assigning⟩ | ⟨_, _, assigning⟩
    · rw [same]
      exact orderly.apart
    · exact assigning.apart orderly.apart
    · exact assigning.apart orderly.apart

end Advanced

variable (manager : Manager)

theorem step_orderly (orderly : Orderly world) (action : Action Call (Answers format)) :
    Orderly (step (program manager) world action) := by
  apply step_rule
  · exact orderly
  · intro call _
    constructor
    · exact orderly.held
    · intro key lease there
      have finished := orderly.claimed key lease there
      rw [World.started, List.getElem?_append_left (List.getElem?_eq_some_iff.mp finished).1]
      exact finished
    · exact orderly.sound.started (enter_sound _ _ call)
    · exact orderly.apart
  · intro place answers pc outcome _ here taken
    exact orderly.advanced here taken

theorem run_orderly (schedule : List (Action Call (Answers format))) :
    Orderly (run manager schedule) := by
  apply Execution.run_invariant
  · exact start_orderly
  · intro world action orderly
    exact step_orderly manager orderly action

theorem step_freed (orderly : Orderly world) (freed : Freed world)
    {action : Action Call (Answers format)} (unhurried : Unhurried world action)
    :
    Freed (step (program manager) world action) := by
  apply step_rule
  · exact freed
  · intro call _
    apply freed.started
    intro slot frees
    cases call <;> cases frees
  · intro place answers pc outcome equal here taken
    subst equal
    have stepping := orderly.stepping here taken
    apply freed.advanced
    · intro slot frees
      exact stepping.freed slot (Pc.frees_eq.mp frees)
    · intro other waiting _ there free slot frees
      rcases stepping.slots with fewer | ⟨rfl, more⟩
      · exact fun taken => free slot frees (fewer taken)
      · rw [more, Finset.mem_insert]
        rintro (rfl | taken)
        · exact unhurried .claiming here rfl waiting (List.mem_of_getElem? there) frees
        · exact free slot frees taken

theorem step_kept (orderly : Orderly world) (freed : Freed world)
    (action : Action Call (Answers format)) : Kept manager world action := by
  intro key lease place there placed
  have move := step_move (program manager) world action
  generalize step (program manager) world action = after at move
  cases move with
  | stays | starts => exact .inl placed
  | @advances call answers pc outcome here taken =>
    have sound := orderly.sound call pc here
    rcases (orderly.stepping here taken).assigned with
      same | ⟨other, within, rfl, assigning⟩ | ⟨within, rfl, assigning⟩
    · left
      rw [World.advanced, same]
      exact placed
    · rcases assigning.keeps placed with kept | ⟨own, givesUp⟩ | freeing
      · exact .inl kept
      · -- The slot is the one of the lease that the call is made on.
        rcases sound with ⟨_, rival, beside, _, slot⟩
        have same := orderly.held.sole key other lease rival there beside (slot lease.slot own)
        subst same
        exact .inr ⟨call, answers, within, rfl, here, givesUp⟩
      · exact absurd freeing (sound.1 lease.slot)
    · rcases assigning.keeps placed with kept | ⟨own, givesUp⟩ | freeing
      · exact .inl kept
      · rw [sound lease.slot own] at givesUp
        cases givesUp
      · have free := freed call _ here lease.slot (Pc.frees_eq.mpr (by
          rw [freeing]))
        exact absurd ((orderly.held.slots _).mpr ⟨key, lease, there, rfl⟩) free

theorem run_freed (unhurried : Execution.Guarded (step (program manager)) Unhurried start
      schedule) : Freed (run manager schedule) := by
  induction schedule using List.reverseRecOn with
  | nil =>
    intro place pc here
    cases here
  | append_singleton past action induction =>
    have parts := unhurried.of_snoc
    rw [run, Interleaving.run, Execution.run_snoc]
    exact step_freed manager (run_orderly manager past) (induction parts.1) parts.2

/-- Live leases have different slots and no place in common; and in a run in
which no slot is claimed before its last rule has given up its place, every live
lease keeps its place through every step, unless it is refused on it or the
batch does not have it. -/
theorem entitlements_apart (manager : Manager) (schedule : List (Action Call (Answers format)))
    (unhurried : Execution.Guarded (step (program manager)) Unhurried start schedule) :
    (let inner := (run manager schedule).shared
      ∀ key other lease rival, inner.leases.get key = some lease →
        inner.leases.get other = some rival → key ≠ other → lease.slot ≠ rival.slot ∧
          ∀ place, inner.source.assigned.places.get lease.slot = some place →
            inner.source.assigned.places.get rival.slot ≠ some place) ∧
      ∀ past action later, schedule = past ++ action :: later →
        Kept manager (run manager past) action := by
  constructor
  · intro inner key other lease rival there beside different
    have orderly := run_orderly manager schedule
    have apart : lease.slot ≠ rival.slot := by
      intro same
      exact different (orderly.held.sole key other lease rival there beside same)
    refine ⟨apart, ?_⟩
    intro place placed shared
    exact apart (orderly.apart lease.slot rival.slot place placed shared)
  · intro past action later split
    subst split
    exact step_kept manager (run_orderly manager past)
      (run_freed manager unhurried.of_append) action

end PortEntitlements

namespace Sample

open PortEntitlements

def makes (place steps : Nat) (call : Call) : List (Action Call (Answers Api.Sample.byteTokens)) :=
  .start call :: List.replicate steps (.advance place Api.Sample.served)

def presents : List (Action Call (Answers Api.Sample.byteTokens)) :=
  makes 0 6 (.refresh 5) ++ makes 1 1 .claim ++ makes 2 6 (.credential 1 5)

/-- The rule is dropped, and before its place is given up another rule claims
its slot and presents its token. -/
def reclaims : List (Action Call (Answers Api.Sample.byteTokens)) :=
  presents ++ makes 3 1 (.dropLease 1) ++ makes 4 1 .claim ++ makes 5 6 (.credential 4 5)

def doubles : List (Action Call (Answers Api.Sample.byteTokens)) :=
  reclaims ++ .advance 3 Api.Sample.served ::
    (makes 6 1 .claim ++ makes 7 1 .claim ++ makes 8 6 (.credential 6 5) ++
      makes 9 6 (.credential 7 5))

def refuses : List (Action Call (Answers Api.Sample.byteTokens)) :=
  presents ++ makes 3 1 .claim ++ makes 4 3 (.forwardError 1 5) ++
    makes 5 6 (.credential 3 5) ++ makes 6 2 (.dropLease 3) ++ makes 7 1 .claim

end Sample

namespace PortEntitlements

theorem entitlements_apart_refused :
    let manager := Api.Sample.manager .portEntitlement
    Execution.Guarded (step (program manager)) Unhurried start Sample.refuses ∧
      ∀ past action later, Sample.refuses = past ++ action :: later →
        Kept manager (run manager past) action :=
  have unhurried : Execution.Guarded
      (step (program (Api.Sample.manager .portEntitlement))) Unhurried start
      Sample.refuses := by
    decide +kernel
  ⟨unhurried, (entitlements_apart (Api.Sample.manager .portEntitlement) Sample.refuses unhurried).2⟩

/-- A rule that was dropped gives up the place of the rule that has claimed its
slot, and two live rules present one entitlement. -/
theorem reclaimed_place_lost :
    let manager := Api.Sample.manager .portEntitlement
    ¬ Kept manager (run manager Sample.reclaims) (.advance 3 Api.Sample.served) ∧
      (run manager Sample.doubles).shared.leases.get 4 = some ⟨0, some [1, 7], ∅⟩ ∧
      (run manager Sample.doubles).shared.leases.get 7 = some ⟨2, some [1, 7], ∅⟩ := by
  intro manager
  refine ⟨?_, by decide +kernel, by decide +kernel⟩
  intro kept
  have there : (run manager Sample.reclaims).shared.leases.get 4 = some ⟨0, some [1, 7], ∅⟩ := by
    decide +kernel
  have placed : (run manager Sample.reclaims).shared.source.assigned.places.get 0 = some 0 := by
    decide +kernel
  have lost : (step (program manager) (run manager Sample.reclaims)
      (.advance 3 Api.Sample.served)).shared.source.assigned.places.get 0 =
        none := by
    decide +kernel
  have outside : (run manager Sample.reclaims).calls[3]?.bind Pc.lease =
      none := by
    decide +kernel
  rcases kept 4 _ 0 there placed with still | ⟨call, answers, within, same, here, _⟩
  · rw [lost] at still
    cases still
  · cases same
    rw [here] at outside
    cases outside

end PortEntitlements

end WarrenSdk.Sdk
