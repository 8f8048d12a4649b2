import Mathlib
import WarrenSdk.Api.TokenStore
import WarrenSdk.Foundation.HashMap
import WarrenSdk.Foundation.Interleaving

/-! # The token manager, step by step

A manager keeps a store topped up and vends from it. Its state, the serials of
its live sessions and the places of its port slots are each behind a lock, and
its passes wait for the issuer without one. Every locked section and every
answer of the network is one step; the calls on one manager interleave. -/

namespace WarrenSdk.Api

open Interleaving

inductive CredentialClass
  | session
  | browserProxy
  | portEntitlement
  deriving DecidableEq

inductive TokenClientError
  | banned
  | clockSkew
  | unauthorized
  | deviceRevoked
  | deviceUnregistered
  | deviceLimitReached
  | badAttributionKey
  | attributionTag
  | blindingDrawOrder
  | badDirectoryPolicy
  | alreadyIssued
  | other
  deriving DecidableEq

namespace TokenClientError

def answersEveryEpochAlike : TokenClientError → Bool
  | .banned | .clockSkew | .unauthorized | .deviceRevoked
  | .deviceUnregistered | .deviceLimitReached | .badAttributionKey
  | .attributionTag | .blindingDrawOrder => true
  | .badDirectoryPolicy | .alreadyIssued | .other => false

end TokenClientError

/-- What the issuer publishes: the length of an epoch, and the epochs that it
has a key for. -/
structure TokenIssuerDirectory where
  epochSecs : UInt64
  keys : List UInt64

def epochOf (epochSecs now : UInt64) : Option UInt64 :=
  if 0 < epochSecs then some (now / epochSecs) else none

def currentEpoch (directory : TokenIssuerDirectory) (now : UInt64) : Option UInt64 :=
  epochOf directory.epochSecs now

def saturatingAdd (left right : UInt64) : UInt64 :=
  if left.toNat + right.toNat < 2 ^ 64 then left + right
  else 0xffffffffffffffff

/-- A bundle of tokens that outlives the process, each in its text form. -/
structure PersistedTokens where
  epochSecs : UInt64
  epochs : Std.TreeMap UInt64 (List (List UInt8))

structure Manager where
  credentialClass : CredentialClass
  mintHorizon : Option UInt64
  rotation : UInt64
  hasDevice : Bool

variable {format : TokenFormat}

/-! ## The state -/

structure ManagerState (format : TokenFormat) where
  store : TokenStore format
  epochSecs : Option UInt64
  minted : Finset UInt64
  issuedElsewhere : Finset UInt64
  deviceRevoked : Bool

namespace ManagerState

def new : ManagerState format where
  store := .new
  epochSecs := none
  minted := ∅
  issuedElsewhere := ∅
  deviceRevoked := false

def epochAt (state : ManagerState format) (now : UInt64) : Option UInt64 :=
  state.epochSecs.bind fun epochSecs => epochOf epochSecs now

/-- Record a revocation, which takes the stock along. -/
def revoke (state : ManagerState format) : ManagerState format :=
  { state with deviceRevoked := true, store := .new }

/-- Forget what is past. -/
def enterEpoch (state : ManagerState format) (current : UInt64)
    (directory : TokenIssuerDirectory) : ManagerState format :=
  { state with
    store := state.store.pruneBefore current
    minted := state.minted.filter fun epoch => current ≤ epoch
    issuedElsewhere := state.issuedElsewhere.filter fun epoch => current ≤ epoch
    epochSecs := some directory.epochSecs }

def targets (manager : Manager) (state : ManagerState format)
    (current : UInt64) (directory : TokenIssuerDirectory) : List UInt64 :=
  let horizonEnd := match manager.mintHorizon with
    | none => 0xffffffffffffffff
    | some epochs => saturatingAdd current epochs
  directory.keys.filter fun epoch => current ≤ epoch && epoch ≤ horizonEnd && epoch ∉ state.minted

/-- Stock a batch that was served, unless the epoch is settled or the device
was revoked meanwhile. -/
def stockBatch (state : ManagerState format) (batch : MintedEpoch format) : ManagerState format :=
  if state.deviceRevoked || batch.epoch ∈ state.minted then state
  else { state with
    minted := insert batch.epoch state.minted
    store := state.store.insert batch }

/-- The issuer serves the epoch to another batch of the account. -/
def settle (state : ManagerState format) (epoch : UInt64) : ManagerState format :=
  { state with
    minted := insert epoch state.minted
    issuedElsewhere := insert epoch state.issuedElsewhere }

end ManagerState

/-- The tokens of a bundle's entries; an entry that is none is skipped. -/
def decodeTokens (encoded : List (List UInt8)) : List format.Token :=
  (encoded.filterMap format.decode).filterMap format.parse

def PersistedTokens.batches (bundle : PersistedTokens) : List (MintedEpoch format) :=
  bundle.epochs.toList.map fun entry =>
    { epoch := entry.1, tokens := decodeTokens entry.2, attributionTags := [] }

namespace ManagerState

def restorePersisted (state : ManagerState format)
    (bundle : PersistedTokens) : Nat × ManagerState format :=
  if state.deviceRevoked then (0, state)
  else
    let epochSecs :=
      if state.epochSecs = none && 0 < bundle.epochSecs then
        some bundle.epochSecs
      else state.epochSecs
    let batches : List (MintedEpoch format) := bundle.batches
    ((batches.map fun batch => batch.tokens.length).sum,
      { state with epochSecs, store := batches.foldl .insert state.store })

def exportPersistable (state : ManagerState format) : Option PersistedTokens :=
  state.epochSecs.map fun epochSecs =>
    { epochSecs
      epochs := .ofList (state.store.snapshotSerialized.map fun entry =>
        (entry.1, entry.2.map format.encode)) }

def takeCurrentStack (state : ManagerState format) (now : UInt64) :
    List (List UInt8) × ManagerState format :=
  match state.epochAt now with
  | none => ([], state)
  | some epoch =>
    let (token, store) := state.store.take epoch
    ((token.map format.serialize).toList, { state with store })

/-- The tokens of the current epoch from the manager's start on, without those
that a live session holds. -/
def sessionStack (manager : Manager) (state : ManagerState format)
    (held : Finset format.Serial) (now : UInt64) : List (List UInt8) :=
  match state.epochAt now with
  | none => []
  | some epoch =>
    let tokens := state.store.tokens epoch
    let start := manager.rotation.toNat % tokens.length
    ((tokens.rotate start).filter fun token => format.serial token ∉ held).map format.serialize

end ManagerState

/-! ## The places of the port slots -/

/-- Which place of the batch each slot presents. -/
structure Assigned where
  epoch : Option UInt64
  places : HashMap Nat Nat
  refused : Finset Nat

namespace Assigned

def new : Assigned := ⟨none, .empty, ∅⟩

/-- Refusals are those of one epoch. -/
def enter (assigned : Assigned) (epoch : UInt64) : Assigned :=
  if assigned.epoch = some epoch then assigned
  else { assigned with epoch := some epoch, refused := ∅ }

def isHeld (assigned : Assigned) (place : Nat) : Bool :=
  assigned.places.toList.any fun entry => entry.2 = place

/-- A place for a slot without one: its own number, else the lowest that no slot
holds and no exit refused. When only refused ones are left, the refusals are
forgotten. -/
def assign (assigned : Assigned) (slot stock : Nat) : Option Nat × Assigned :=
  let candidates := (if slot < stock then [slot] else []) ++ List.range stock
  match candidates.find? fun place =>
      !assigned.isHeld place && place ∉ assigned.refused with
  | some place =>
    (some place,
      { assigned with places := assigned.places.insert slot place })
  | none =>
    match (List.range stock).find? fun place => !assigned.isHeld place with
    | none => (none, assigned)
    | some place =>
      (some place, { assigned with
        places := assigned.places.insert slot place
        refused := ∅ })

def placeOf (assigned : Assigned) (slot stock : Nat) : Option Nat × Assigned :=
  if stock = 0 then (none, assigned)
  else
    match assigned.places.get slot with
    | none => assigned.assign slot stock
    | some place =>
      if place < stock then (some place, assigned)
      else
        { assigned with places := assigned.places.remove slot }.assign slot stock

def refuse (assigned : Assigned) (slot place : Nat) : Assigned :=
  { assigned with
    places := assigned.places.remove slot
    refused := insert place assigned.refused }

def release (assigned : Assigned) (slot : Nat) : Assigned :=
  { assigned with places := assigned.places.remove slot }

end Assigned

/-! ## Steps -/

/-- A claim and its clones. -/
structure LeaseGroup (format : TokenFormat) where
  serial : format.Serial
  clones : Nat

/-- What the calls share. The leases are known by the call that claimed them. -/
structure Shared (format : TokenFormat) where
  state : ManagerState format
  live : Finset format.Serial
  leases : HashMap Nat (LeaseGroup format)
  assigned : Assigned

namespace Shared

def new : Shared format := ⟨.new, ∅, .empty, .new⟩

def setClones (shared : Shared format) (key : Nat)
    (group : LeaseGroup format) (clones : Nat) : Shared format :=
  { shared with leases := shared.leases.insert key { group with clones } }

end Shared

inductive Call
  | refresh (now : UInt64)
  | restorePersisted (bundle : PersistedTokens)
  | exportPersistable
  | takeCurrentStack (now : UInt64)
  | sessionStack (now : UInt64)
  | claim (token : List UInt8)
  | cloneLease (key : Nat)
  | dropLease (key : Nat)
  | credentialForSlot (slot : Nat) (now : UInt64)
  | markRefused (slot : Nat) (presented : List UInt8) (now : UInt64)
  | release (slot : Nat)

inductive Result
  | refreshed (result : Except TokenClientError Unit)
  | restored (count : Nat)
  | exported (bundle : Option PersistedTokens)
  | stack (tokens : List (List UInt8))
  | claimed (lease : Option Nat)
  | credential (credential : Option (List UInt8))
  | done

/-- Where a call stands: the section or the answer that comes next, or how it
ended. A pass remembers in `again` that it has registered its device a second
time. -/
inductive Pc (format : TokenFormat)
  | refreshCheck (now : UInt64)
  | registered (now : UInt64)
  | fetched (now : UInt64)
  | enterEpoch (current : UInt64) (directory : TokenIssuerDirectory)
  | minted (epoch : UInt64) (rest : List UInt64) (again : Bool)
  | registeredAgain (epoch : UInt64) (rest : List UInt64)
  | stocking (batch : MintedEpoch format) (rest : List UInt64) (again : Bool)
  | settling (epoch : UInt64) (rest : List UInt64) (again : Bool)
  | revoking
  | restoring (bundle : PersistedTokens)
  | exporting
  | taking (now : UInt64)
  | stacking (now : UInt64)
  | claiming (serial : format.Serial)
  | cloning (key : Nat)
  | dropping (key : Nat)
  | releasing (key : Nat)
  | slotEpoch (slot : Nat) (now : UInt64)
  | slotStock (slot : Nat) (epoch : UInt64)
  | slotPlace (slot : Nat) (epoch : UInt64) (stock : Nat)
  | slotEnvelope (epoch : UInt64) (place : Nat)
  | refusedEpoch (slot : Nat) (presented : List UInt8) (now : UInt64)
  | refused (slot : Nat) (presented : List UInt8) (epoch : UInt64)
  | freeing (slot : Nat)
  | returned (result : Result)

/-- A request that the call at a place sends, what it hands out, and the bundles
that leave. -/
inductive Event
  | request (place : Nat)
  | vended (place : Nat) (credentials : List (List UInt8))
  | exported (bundle : PersistedTokens)

/-- What the network answers, each to the request that waits for it; a batch is
answered by its epoch. -/
structure Answers (format : TokenFormat) where
  register : Except TokenClientError Unit
  directory : Except TokenClientError TokenIssuerDirectory
  mint : UInt64 → Except TokenClientError (List format.Token × List format.Tag)

abbrev Stepped (format : TokenFormat) := Interleaving.Outcome (Shared format) (Pc format) Event

namespace TokenManager

def enter (manager : Manager) : Call → Pc format
  | .refresh now => .refreshCheck now
  | .restorePersisted bundle =>
    if manager.credentialClass = .portEntitlement then
      .returned (.restored 0)
    else .restoring bundle
  | .exportPersistable =>
    if manager.credentialClass = .portEntitlement then
      .returned (.exported none)
    else .exporting
  | .takeCurrentStack now =>
    if manager.credentialClass = .portEntitlement then .returned (.stack [])
    else .taking now
  | .sessionStack now =>
    if manager.credentialClass = .portEntitlement then .returned (.stack [])
    else .stacking now
  | .claim token =>
    match format.parse token with
    | none => .returned (.claimed none)
    | some token => .claiming (format.serial token)
  | .cloneLease key => .cloning key
  | .dropLease key => .dropping key
  | .credentialForSlot slot now => .slotEpoch slot now
  | .markRefused slot presented now => .refusedEpoch slot presented now
  | .release slot => .freeing slot

def fetch (shared : Shared format) (place : Nat) (now : UInt64) : Stepped format :=
  { shared, pc := .fetched now, events := [.request place] }

def mintNext (shared : Shared format) (place : Nat) (again : Bool) : List UInt64 → Stepped format
  | [] => { shared, pc := .returned (.refreshed (.ok ())) }
  | epoch :: rest =>
    { shared, pc := .minted epoch rest again, events := [.request place] }

def mintFailed (shared : Shared format) (place : Nat) (epoch : UInt64)
    (rest : List UInt64) (again : Bool) (error : TokenClientError) : Stepped format :=
  if error = .alreadyIssued then { shared, pc := .settling epoch rest again }
  else if error = .deviceRevoked then { shared, pc := .revoking }
  else if error.answersEveryEpochAlike then
    { shared, pc := .returned (.refreshed (.error error)) }
  else mintNext shared place again rest

def mintAnswered (manager : Manager) (shared : Shared format) (place : Nat)
    (epoch : UInt64) (rest : List UInt64) (again : Bool) :
    Except TokenClientError (List format.Token × List format.Tag) → Stepped format
  | .ok (tokens, attributionTags) =>
    { shared, pc := .stocking { epoch, tokens, attributionTags } rest again }
  | .error error =>
    if manager.hasDevice && error = .deviceUnregistered && !again then
      { shared, pc := .registeredAgain epoch rest, events := [.request place] }
    else mintFailed shared place epoch rest again error

def presentPlace (shared : Shared format) (place slot : Nat) (epoch : UInt64)
    (stock : Nat) : Stepped format :=
  let (chosen, assigned) := (shared.assigned.enter epoch).placeOf slot stock
  { shared := { shared with assigned }
    pc := match chosen with
      | none => .returned (.credential none)
      | some chosen => .slotEnvelope epoch chosen
    events := if chosen = none then [.vended place []] else [] }

def stillPresented (shared : Shared format) (epoch : UInt64) (place : Nat)
    (presented : List UInt8) : Bool :=
  shared.state.store.envelopeAt epoch place = some presented

def next (manager : Manager) (shared : Shared format) (place : Nat)
    (pc : Pc format) (answers : Answers format) : Option (Stepped format) :=
  match pc with
  | .refreshCheck now =>
    if shared.state.deviceRevoked then
      some { shared, pc := .returned (.refreshed (.error .deviceRevoked)) }
    else if manager.hasDevice then
      some { shared, pc := .registered now, events := [.request place] }
    else some (fetch shared place now)
  | .registered now =>
    match answers.register with
    | .error .deviceRevoked => some { shared, pc := .revoking }
    | .error .deviceLimitReached =>
      some { shared, pc := .returned (.refreshed (.error .deviceLimitReached)) }
    | .ok () | .error _ => some (fetch shared place now)
  | .fetched now =>
    match answers.directory with
    | .error error => some { shared, pc := .returned (.refreshed (.error error)) }
    | .ok directory =>
      match currentEpoch directory now with
      | none => some { shared, pc := .returned (.refreshed (.error .badDirectoryPolicy)) }
      | some current => some { shared, pc := .enterEpoch current directory }
  | .enterEpoch current directory =>
    let state := shared.state.enterEpoch current directory
    some (mintNext { shared with state } place false (state.targets manager current directory))
  | .minted epoch rest again =>
    some (mintAnswered manager shared place epoch rest again (answers.mint epoch))
  -- A device that the issuer did not know registers, and asks once more.
  | .registeredAgain epoch rest =>
    match answers.register with
    | .ok () => some { shared, pc := .minted epoch rest true, events := [.request place] }
    | .error error => some (mintFailed shared place epoch rest true error)
  | .stocking batch rest again =>
    some (mintNext { shared with state := shared.state.stockBatch batch } place again rest)
  | .settling epoch rest again =>
    some (mintNext { shared with state := shared.state.settle epoch } place again rest)
  | .revoking =>
    some {
      shared := { shared with state := shared.state.revoke }
      pc := .returned (.refreshed (.error .deviceRevoked)) }
  | .restoring bundle =>
    let (count, state) := shared.state.restorePersisted bundle
    some { shared := { shared with state }, pc := .returned (.restored count) }
  | .exporting =>
    let bundle := shared.state.exportPersistable
    some {
      shared
      pc := .returned (.exported bundle)
      events := bundle.toList.map .exported }
  | .taking now =>
    let (tokens, state) := shared.state.takeCurrentStack now
    some {
      shared := { shared with state }
      pc := .returned (.stack tokens)
      events := [.vended place tokens] }
  -- The lock of the live serials is taken under the lock of the state.
  | .stacking now =>
    let tokens := shared.state.sessionStack manager shared.live now
    some {
      shared
      pc := .returned (.stack tokens)
      events := [.vended place tokens] }
  | .claiming serial =>
    if serial ∈ shared.live then
      some { shared, pc := .returned (.claimed none) }
    else
      some {
        shared := { shared with
          live := insert serial shared.live
          leases := shared.leases.insert place ⟨serial, 1⟩ }
        pc := .returned (.claimed (some place)) }
  | .cloning key =>
    match shared.leases.get key with
    | none => none
    | some group =>
      if group.clones = 0 then none
      else
        some {
          shared := shared.setClones key group (group.clones + 1)
          pc := .returned .done }
  -- The last clone that is dropped lets go of the serial, under the lock.
  | .dropping key =>
    match shared.leases.get key with
    | none => none
    | some group =>
      if group.clones = 0 then none
      else
        some {
          shared := shared.setClones key group (group.clones - 1)
          pc := if group.clones = 1 then .releasing key else .returned .done }
  | .releasing key =>
    (shared.leases.get key).map fun group =>
      { shared := { shared with
          live := shared.live.erase group.serial
          leases := shared.leases.remove key }
        pc := .returned .done }
  | .slotEpoch slot now =>
    match shared.state.epochAt now with
    | none =>
      some {
        shared
        pc := .returned (.credential none)
        events := [.vended place []] }
    | some epoch => some { shared, pc := .slotStock slot epoch }
  | .slotStock slot epoch =>
    some {
      shared
      pc := .slotPlace slot epoch (shared.state.store.available epoch) }
  | .slotPlace slot epoch stock => some (presentPlace shared place slot epoch stock)
  | .slotEnvelope epoch chosen =>
    let credential := shared.state.store.envelopeAt epoch chosen
    some {
      shared
      pc := .returned (.credential credential)
      events := [.vended place credential.toList] }
  | .refusedEpoch slot presented now =>
    match shared.state.epochAt now with
    | none => some { shared, pc := .returned .done }
    | some epoch => some { shared, pc := .refused slot presented epoch }
  -- The state is read under the lock of the places.
  | .refused slot presented epoch =>
    let assigned := shared.assigned.enter epoch
    some {
      shared := { shared with assigned :=
        match assigned.places.get slot with
        | none => assigned
        | some chosen =>
          if stillPresented shared epoch chosen presented then
            assigned.refuse slot chosen
          else assigned }
      pc := .returned .done }
  | .freeing slot =>
    some {
      shared := { shared with assigned := shared.assigned.release slot }
      pc := .returned .done }
  | .returned _ => none

def program (manager : Manager) :
    Program (Shared format) (Pc format) Event Call (Answers format) where
  enter := enter manager
  next := next manager

def start : World (Shared format) (Pc format) Event where
  shared := .new
  calls := []
  log := []

def run (manager : Manager) (schedule : List (Action Call (Answers format))) :
    World (Shared format) (Pc format) Event :=
  Interleaving.run (program manager) start schedule

/-! ## Everything that a step does to the state -/

/-- What the step of a call makes of the state. -/
inductive Change (state : ManagerState format) : Pc format → ManagerState format → Prop
  | same (pc : Pc format) : Change state pc state
  | enters (current : UInt64) (directory : TokenIssuerDirectory) :
      Change state (.enterEpoch current directory) (state.enterEpoch current directory)
  | stocks (batch : MintedEpoch format) (rest : List UInt64) (again : Bool) :
      Change state (.stocking batch rest again) (state.stockBatch batch)
  | settles (epoch : UInt64) (rest : List UInt64) (again : Bool) :
      Change state (.settling epoch rest again) (state.settle epoch)
  | revokes : Change state .revoking state.revoke
  | restores (bundle : PersistedTokens) :
      Change state (.restoring bundle) (state.restorePersisted bundle).2
  | takes (now : UInt64) : Change state (.taking now) (state.takeCurrentStack now).2

@[simp] theorem mintNext_shared (shared : Shared format) (place : Nat)
    (again : Bool) (epochs : List UInt64) :
    (mintNext shared place again epochs).shared = shared := by
  cases epochs <;> rfl

@[simp] theorem mintFailed_shared (shared : Shared format) (place : Nat)
    (epoch : UInt64) (rest : List UInt64) (again : Bool) (error : TokenClientError) :
    (mintFailed shared place epoch rest again error).shared = shared := by
  rw [mintFailed]
  split
  · rfl
  · split
    · rfl
    · split
      · rfl
      · simp

@[simp] theorem mintAnswered_shared (manager : Manager)
    (shared : Shared format) (place : Nat) (epoch : UInt64) (rest : List UInt64) (again : Bool)
    (answer : Except TokenClientError (List format.Token × List format.Tag)) :
    (mintAnswered manager shared place epoch rest again answer).shared =
      shared := by
  cases answer with
  | ok => rfl
  | error error =>
    rw [mintAnswered]
    split
    · rfl
    · simp

end TokenManager

/-- The part of what the calls share that a step from this place may change. -/
inductive Area
  | state
  | assigned
  | leases
  | none

def Pc.area : Pc format → Area
  | .enterEpoch .. | .stocking .. | .settling .. | .revoking | .restoring _
  | .taking _ => .state
  | .slotPlace .. | .refused .. | .freeing _ => .assigned
  | .claiming _ | .cloning _ | .dropping _ | .releasing _ => .leases
  | _ => .none

structure Shared.Framed (shared : Shared format) (area : Area) (after : Shared format) : Prop where
  state : area ≠ .state → after.state = shared.state
  assigned : area ≠ .assigned → after.assigned = shared.assigned
  leases : area ≠ .leases → after.live = shared.live ∧ after.leases = shared.leases

namespace TokenManager

theorem framed_same (shared : Shared format) (area : Area) : shared.Framed area shared :=
  ⟨fun _ => rfl, fun _ => rfl, fun _ => ⟨rfl, rfl⟩⟩

theorem framed_state (shared : Shared format) (state : ManagerState format) :
    shared.Framed .state { shared with state } :=
  ⟨absurd rfl, fun _ => rfl, fun _ => ⟨rfl, rfl⟩⟩

/-- A step changes nothing outside the area of its place. -/
theorem next_framed (taken : next manager shared place pc answers = some outcome) :
    shared.Framed pc.area outcome.shared := by
  cases pc with
  | refreshCheck | fetched =>
    rw [next] at taken
    split at taken
    · cases taken
      exact framed_same ..
    · split at taken <;> cases taken <;> exact framed_same ..
  | registered | slotEpoch | refusedEpoch =>
    rw [next] at taken
    split at taken <;> cases taken <;> exact framed_same ..
  | enterEpoch | stocking | settling =>
    cases taken
    rw [mintNext_shared]
    exact framed_state ..
  | minted =>
    cases taken
    rw [mintAnswered_shared]
    exact framed_same ..
  | registeredAgain =>
    rw [next] at taken
    split at taken <;> cases taken
    · exact framed_same ..
    · rw [mintFailed_shared]
      exact framed_same ..
  | revoking | restoring | taking =>
    cases taken
    exact framed_state ..
  | exporting | stacking | slotStock | slotEnvelope =>
    cases taken
    exact framed_same ..
  | slotPlace | refused | freeing =>
    cases taken
    exact ⟨fun _ => rfl, absurd rfl, fun _ => ⟨rfl, rfl⟩⟩
  | claiming =>
    rw [next] at taken
    split at taken <;> cases taken <;> exact ⟨fun _ => rfl, fun _ => rfl, absurd rfl⟩
  | cloning | dropping =>
    rw [next] at taken
    split at taken
    · cases taken
    · split at taken <;> cases taken
      exact ⟨fun _ => rfl, fun _ => rfl, absurd rfl⟩
  | releasing key =>
    rcases Option.map_eq_some_iff.mp taken with ⟨group, _, rfl⟩
    exact ⟨fun _ => rfl, fun _ => rfl, absurd rfl⟩
  | returned => cases taken

theorem next_change (taken : next manager shared place pc answers = some outcome) :
    Change shared.state pc outcome.shared.state := by
  cases area : pc.area with
  | state =>
    cases pc with
    | enterEpoch current directory =>
      cases taken
      rw [mintNext_shared]
      exact .enters current directory
    | stocking batch rest again =>
      cases taken
      rw [mintNext_shared]
      exact .stocks batch rest again
    | settling epoch rest again =>
      cases taken
      rw [mintNext_shared]
      exact .settles epoch rest again
    | revoking =>
      cases taken
      exact .revokes
    | restoring bundle =>
      cases taken
      exact .restores bundle
    | taking now =>
      cases taken
      exact .takes now
    | _ => cases area
  | _ =>
    rw [(next_framed taken).state (by simp [area])]
    exact .same _

/-! ## Where a step leads -/

end TokenManager

def Pc.isEntry : Pc format → Bool
  | .refreshCheck _ | .restoring _ | .exporting | .taking _ | .stacking _
  | .claiming _ | .cloning _ | .dropping _ | .slotEpoch .. | .refusedEpoch ..
  | .freeing _ => true
  | _ => false

/-- The pass has found its device not revoked, and may send requests. -/
def Pc.inPass : Pc format → Bool
  | .registered _ | .fetched _ | .enterEpoch .. | .minted ..
  | .registeredAgain .. | .stocking .. | .settling .. | .revoking => true
  | _ => false

def Pc.slot : Pc format → Option Nat
  | .slotEpoch slot _ | .slotStock slot _ | .slotPlace slot _ _
  | .refusedEpoch slot _ _ | .refused slot _ _ | .freeing slot => some slot
  | _ => none

def Pc.Answered (answers : Answers format) : Pc format → Prop
  | .stocking batch _ _ => answers.mint batch.epoch = .ok (batch.tokens, batch.attributionTags)
  | _ => True

namespace TokenManager

/-- A step leads to no place at which a call is made, into a pass only from the
pass or from its check, to stocking only what was answered, to the release of a
serial only from a drop, and to a slot only from the same slot. -/
structure Leads (shared : Shared format) (answers : Answers format)
    (pc after : Pc format) : Prop where
  entry : after.isEntry = false
  pass : after.inPass = true → pc.inPass = true ∨ shared.state.deviceRevoked = false
  answered : after.Answered answers
  lets : ∀ key, after = .releasing key → pc = .dropping key
  slot : ∀ slot, after.slot = some slot → pc.slot = some slot

variable {pc : Pc format}

section

variable (passing : pc.inPass = true)

include passing

theorem mintNext_leads (state : Shared format) (again : Bool) (epochs : List UInt64) :
    Leads shared answers pc (mintNext state place again epochs).pc := by
  cases epochs <;> exact ⟨rfl, fun _ => .inl passing, trivial, nofun, nofun⟩

theorem mintFailed_leads (epoch : UInt64) (rest : List UInt64) (again : Bool)
    (error : TokenClientError) :
    Leads shared answers pc (mintFailed shared place epoch rest again error).pc := by
  rw [mintFailed]
  split
  · exact ⟨rfl, fun _ => .inl passing, trivial, nofun, nofun⟩
  · split
    · exact ⟨rfl, fun _ => .inl passing, trivial, nofun, nofun⟩
    · split
      · exact ⟨rfl, fun _ => .inl passing, trivial, nofun, nofun⟩
      · exact mintNext_leads passing shared again rest

theorem pass_leads (taken : next manager shared place pc answers = some outcome) :
    Leads shared answers pc outcome.pc := by
  cases pc with
  | registered now =>
    rw [next] at taken
    split at taken <;> cases taken <;> exact ⟨rfl, fun _ => .inl rfl, trivial, nofun, nofun⟩
  | fetched now =>
    rw [next] at taken
    split at taken
    · cases taken
      exact ⟨rfl, fun _ => .inl rfl, trivial, nofun, nofun⟩
    · split at taken <;> cases taken <;> exact ⟨rfl, fun _ => .inl rfl, trivial, nofun, nofun⟩
  | enterEpoch | stocking | settling =>
    cases taken
    exact mintNext_leads rfl _ _ _
  | minted epoch rest again =>
    cases taken
    cases answer : answers.mint epoch with
    | ok batch => exact ⟨rfl, fun _ => .inl rfl, answer, nofun, nofun⟩
    | error error =>
      rw [mintAnswered]
      split
      · exact ⟨rfl, fun _ => .inl rfl, trivial, nofun, nofun⟩
      · exact mintFailed_leads rfl epoch rest again error
  | registeredAgain epoch rest =>
    rw [next] at taken
    split at taken <;> cases taken
    · exact ⟨rfl, fun _ => .inl rfl, trivial, nofun, nofun⟩
    · exact mintFailed_leads rfl epoch rest true _
  | revoking =>
    cases taken
    exact ⟨rfl, fun _ => .inl rfl, trivial, nofun, nofun⟩
  | _ => cases passing

end

theorem next_leads (taken : next manager shared place pc answers = some outcome) :
    Leads shared answers pc outcome.pc := by
  have outside : ∀ after : Pc format, after.isEntry = false →
      after.inPass = false → after.Answered answers →
      (∀ key, after = .releasing key → pc = .dropping key) →
      (∀ slot, after.slot = some slot → pc.slot = some slot) → Leads shared answers pc after := by
    intro after entry pass answered lets slot
    refine ⟨entry, ?_, answered, lets, slot⟩
    intro passing
    rw [pass] at passing
    cases passing
  cases passing : pc.inPass with
  | true => exact pass_leads passing taken
  | false =>
    cases pc with
    | refreshCheck now =>
      rw [next] at taken
      split at taken
      · cases taken
        refine outside _ rfl rfl trivial ?_ ?_ <;> rintro _ ⟨⟩
      · rename_i kept
        have unrevoked := Bool.eq_false_iff.mpr kept
        split at taken <;> cases taken <;>
          refine ⟨rfl, fun _ => .inr unrevoked, trivial, ?_, ?_⟩ <;> rintro _ ⟨⟩
    | restoring | exporting | taking | stacking | slotEnvelope | refused | freeing =>
      cases taken
      refine outside _ rfl rfl trivial ?_ ?_ <;> rintro _ ⟨⟩
    | slotStock slot epoch =>
      cases taken
      exact outside _ rfl rfl trivial (by rintro _ ⟨⟩) fun _ same => same
    | claiming serial =>
      rw [next] at taken
      split at taken <;> cases taken <;> refine outside _ rfl rfl trivial ?_ ?_ <;> rintro _ ⟨⟩
    | cloning key =>
      rw [next] at taken
      split at taken
      · cases taken
      · split at taken <;> cases taken
        refine outside _ rfl rfl trivial ?_ ?_ <;> rintro _ ⟨⟩
    | dropping key =>
      rw [next] at taken
      split at taken
      · cases taken
      · split at taken <;> cases taken
        split
        · refine outside (.releasing key) rfl rfl trivial ?_ (by rintro _ ⟨⟩)
          intro other same
          cases same
          rfl
        · refine outside _ rfl rfl trivial ?_ ?_ <;> rintro _ ⟨⟩
    | releasing key =>
      rcases Option.map_eq_some_iff.mp taken with ⟨group, _, rfl⟩
      refine outside _ rfl rfl trivial ?_ ?_ <;> rintro _ ⟨⟩
    | slotEpoch | refusedEpoch =>
      rw [next] at taken
      split at taken <;> cases taken
      · refine outside _ rfl rfl trivial ?_ ?_ <;> rintro _ ⟨⟩
      · exact outside _ rfl rfl trivial (by rintro _ ⟨⟩) fun _ same => same
    | slotPlace slot epoch stock =>
      cases taken
      rw [presentPlace]
      generalize (shared.assigned.enter epoch).placeOf slot stock = assignment
      rcases assignment with ⟨chosen, assigned⟩
      cases chosen <;> refine outside _ rfl rfl trivial ?_ ?_ <;> rintro _ ⟨⟩
    | returned => cases taken
    | _ => cases passing

end TokenManager

/-! ## A small world -/

namespace Sample

def byteTokens : TokenFormat where
  Token := UInt8
  Serial := UInt8
  Tag := UInt8
  serialEq := inferInstance
  serial token := token
  serialize token := [token]
  parse
    | [token] => some token
    | _ => none
  encode bytes := bytes
  decode bytes := some bytes
  envelope token tag := token ++ [tag]
  parse_serialize _ := rfl
  decode_encode _ := rfl

def manager (credentialClass : CredentialClass) : Manager where
  credentialClass := credentialClass
  mintHorizon := none
  rotation := 1
  hasDevice := true

/-- Epochs of a hundred seconds, of which the first one is published. -/
def directory : TokenIssuerDirectory where
  epochSecs := 100
  keys := [0]

def served : Answers byteTokens where
  register := .ok ()
  directory := .ok directory
  mint _ := .ok (([1, 2] : List UInt8), ([7, 8] : List UInt8))

def refused : Answers byteTokens where
  register := .error .deviceRevoked
  directory := .ok directory
  mint _ := .error .deviceRevoked

def advances (place steps : Nat) (answers : Answers byteTokens) :
    List (Action Call (Answers byteTokens)) :=
  List.replicate steps (.advance place answers)

def refreshes (place : Nat) : List (Action Call (Answers byteTokens)) :=
  .start (.refresh 5) :: advances place 6 served

end Sample

end WarrenSdk.Api
