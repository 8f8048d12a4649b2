import WarrenSdk.Foundation.Execution
import WarrenSdk.Bolthole.ConfText

/-! # Trust that is kept in files

The floor of the trusted generations and the pinned server key, each in a small
text file. A store writes its file in place; a crash inside of a write leaves a
beginning of the new text. -/

namespace WarrenSdk.Sdk

open Bolthole List

/-! ## Files -/

/-- The text of a file. Cut inside of a character, it cannot be read as text. -/
structure FileText where
  text : List Char
  torn : Bool := false
  deriving DecidableEq

/-- What a crash leaves of a text: its first characters, and perhaps a part of the
next one. -/
def FileText.cut (text : List Char) (left : Nat) (torn : Bool) : FileText where
  text := text.take left
  torn := torn && (text[left]?).any fun character => 0x80 ≤ character.toNat

inductive ReadError
  | invalidData
  deriving DecidableEq

def readToString (file : Option FileText) : Except ReadError (Option (List Char)) :=
  match file with
  | none => .ok none
  | some file => if file.torn then .error .invalidData else .ok (some file.text)

def parseU64 (text : List Char) : Option UInt64 :=
  let digits :=
    match text with
    | '+' :: rest => rest
    | _ => text
  if digits ≠ [] ∧ digits.all Char.isDigit ∧ Nat.ofDigitChars 10 digits 0 < 2 ^ 64 then
    some (UInt64.ofNat (Nat.ofDigitChars 10 digits 0))
  else none

/-- A missing file, or one that is not a number, is the floor zero. -/
def readU64 (file : Option FileText) : Except ReadError UInt64 :=
  match readToString file with
  | .error error => .error error
  | .ok none => .ok 0
  | .ok (some text) => .ok ((parseU64 (trim text)).getD 0)

/-- A missing file is no pin yet, and neither is a blank one. -/
def readPin (file : Option FileText) : Except ReadError (Option (List Char)) :=
  match readToString file with
  | .error error => .error error
  | .ok none => .ok none
  | .ok (some text) => .ok (if trim text = [] then none else some (trim text))

def digitsOf (generation : UInt64) : List Char := Nat.toDigits 10 generation.toNat

/-! ## The stores -/

/-- The two files, the stores that are open on them, and what their callers were
told is kept. -/
structure TrustStores where
  floorFile : Option FileText := none
  pinFile : Option FileText := none
  floor : Option UInt64 := none
  pin : Option (Option (List Char)) := none
  /-- The generations and the pins whose store has returned. -/
  generations : List UInt64 := []
  pins : List (List Char) := []
  deriving DecidableEq

namespace TrustStores

inductive Action
  | openFloor
  | openPin
  | storeFloor (generation : UInt64)
  | storePin (pin : List Char)
  /-- The process ends, between two calls or inside of a store. -/
  | crash
  | crashFloor (generation : UInt64) (left : Nat) (torn : Bool)
  | crashPin (pin : List Char) (left : Nat) (torn : Bool)
  deriving DecidableEq

def openFloor (stores : TrustStores) : TrustStores :=
  { stores with floor := (readU64 stores.floorFile).toOption }

def openPin (stores : TrustStores) : TrustStores :=
  { stores with pin := (readPin stores.pinFile).toOption }

def storeFloor (stores : TrustStores) (generation : UInt64) : TrustStores :=
  match stores.floor with
  | none => stores
  | some floor =>
    if floor < generation then
      { stores with
        floorFile := some ⟨digitsOf generation, false⟩
        floor := some generation
        generations := generation :: stores.generations }
    else { stores with generations := generation :: stores.generations }

def storePin (stores : TrustStores) (pin : List Char) : TrustStores :=
  match stores.pin with
  | none => stores
  | some none =>
    { stores with
      pinFile := some ⟨pin, false⟩
      pin := some (some pin)
      pins := pin :: stores.pins }
  | some (some _) => { stores with pins := pin :: stores.pins }

def crash (stores : TrustStores) : TrustStores :=
  { stores with floor := none, pin := none }

/-- The write of a higher generation stops where the crash falls. -/
def crashFloor (stores : TrustStores) (generation : UInt64) (left : Nat)
    (torn : Bool) : TrustStores :=
  match stores.floor with
  | none => stores
  | some floor =>
    if floor < generation then
      { stores with
        floorFile := some (.cut (digitsOf generation) left torn) }.crash
    else stores.crash

def crashPin (stores : TrustStores) (pin : List Char) (left : Nat) (torn : Bool) : TrustStores :=
  match stores.pin with
  | none => stores
  | some none => { stores with pinFile := some (.cut pin left torn) }.crash
  | some (some _) => stores.crash

def step (stores : TrustStores) : Action → TrustStores
  | .openFloor => stores.openFloor
  | .openPin => stores.openPin
  | .storeFloor generation => stores.storeFloor generation
  | .storePin pin => stores.storePin pin
  | .crash => stores.crash
  | .crashFloor generation left torn => stores.crashFloor generation left torn
  | .crashPin pin left torn => stores.crashPin pin left torn

def run (actions : List Action) : TrustStores := Execution.run step {} actions

/-! ## What a reopening reads -/

def Floors (file : Option FileText) (generations : List UInt64) : Prop :=
  ∃ floor, readU64 file = .ok floor ∧ ∀ kept ∈ generations, kept ≤ floor

/-- A store that is opened now reads at least every generation, and the very pin,
whose store has returned. -/
def Kept (stores : TrustStores) : Prop :=
  Floors stores.floorFile stores.generations ∧
    ∀ pin ∈ stores.pins, readPin stores.pinFile = .ok (some pin)

def Legible (pin : List Char) : Prop := pin ≠ [] ∧ trim pin = pin

/-- The number that the first digits of a generation make. -/
def leading (generation : UInt64) (left : Nat) : Nat :=
  if left = 0 then 0
  else generation.toNat / 10 ^ ((digitsOf generation).length - left)

/-- A crash inside of a write of the floor leaves digits that make no smaller a
number than what was kept; a pin is stored legibly, into a store that has none
or that has it. -/
def Safe (stores : TrustStores) : Action → Prop
  | .crashFloor generation left _ => ∀ floor ∈ stores.floor, floor < generation →
      ∀ kept ∈ stores.generations, kept.toNat ≤ leading generation left
  | .storePin pin => ∀ kept ∈ stores.pin,
      match kept with
      | none => Legible pin
      | some other => other = pin
  | _ => True

/-! ## Numbers and pins are read back -/

theorem toNat_of_isDigit {character : Char} (digit : character.isDigit) :
    48 ≤ character.toNat ∧ character.toNat ≤ 57 := by
  simp only [Char.isDigit, Bool.and_eq_true, decide_eq_true_eq] at digit
  exact digit

theorem isWhitespace_of_isDigit (digit : character.isDigit) : isWhitespace character = false := by
  have range := toNat_of_isDigit digit
  simp [isWhitespace]
  omega

theorem isDigit_digitsOf (generation : UInt64) :
    ∀ character ∈ digitsOf generation, character.isDigit = true :=
  fun _ member => Nat.isDigit_of_mem_toDigits (by decide) (by decide) member

theorem parseU64_of_digits (digits : ∀ character ∈ text, character.isDigit = true)
    (nonempty : text ≠ []) (small : Nat.ofDigitChars 10 text 0 < 2 ^ 64) :
    parseU64 text = some (UInt64.ofNat (Nat.ofDigitChars 10 text 0)) := by
  have unsigned : ∀ rest, text ≠ '+' :: rest := by
    intro rest signed
    have digit := digits '+' (by rw [signed]; exact mem_cons_self)
    cases digit
  rw [parseU64, if_pos ⟨nonempty, all_eq_true.mpr digits, small⟩]
  exact unsigned

theorem ofDigitChars_lt (digits : ∀ character ∈ text, character.isDigit = true) :
    Nat.ofDigitChars 10 text 0 < 10 ^ text.length := by
  induction text with
  | nil => decide
  | cons character text induction =>
    rcases forall_mem_cons.mp digits with ⟨first, rest⟩
    have later := induction rest
    have digit : character.toNat - '0'.toNat ≤ 9 :=
      Nat.sub_le_sub_right (toNat_of_isDigit first).2 48
    rw [Nat.ofDigitChars_cons, Nat.ofDigitChars_eq_ofDigitChars_zero, length_cons,
      Nat.pow_succ, Nat.mul_zero, Nat.zero_add]
    have scaled := Nat.mul_le_mul_left (10 ^ text.length) digit
    omega

/-- The first digits of a number are its quotient by a power of ten. -/
theorem ofDigitChars_take (generation : UInt64) (left : Nat) :
    Nat.ofDigitChars 10 ((digitsOf generation).take left) 0 =
      generation.toNat / 10 ^ ((digitsOf generation).length - left) := by
  have rest := ofDigitChars_lt fun character member =>
    isDigit_digitsOf generation character (mem_of_mem_drop (i := left) member)
  have whole : Nat.ofDigitChars 10 (digitsOf generation) 0 = generation.toNat :=
    Nat.ofDigitChars_ten_toDigits
  rw [← take_append_drop left (digitsOf generation), Nat.ofDigitChars_append,
    Nat.ofDigitChars_eq_ofDigitChars_zero] at whole
  rw [length_drop] at rest whole
  rw [← whole, Nat.mul_add_div (Nat.pow_pos (by decide)), Nat.div_eq_of_lt rest, Nat.add_zero]

theorem leading_lt (generation : UInt64) (left : Nat) : leading generation left < 2 ^ 64 := by
  rw [leading]
  split
  · decide
  · exact Nat.lt_of_le_of_lt (Nat.div_le_self _ _) generation.toNat_lt

/-- What is read of a number whose write was cut. -/
theorem readU64_cut (generation : UInt64) (left : Nat) (torn : Bool) :
    readU64 (some (.cut (digitsOf generation) left torn)) =
      .ok (UInt64.ofNat (leading generation left)) := by
  have digits : ∀ character ∈ (digitsOf generation).take left, character.isDigit = true :=
    fun character member => isDigit_digitsOf generation character (mem_of_mem_take member)
  have untorn : (FileText.cut (digitsOf generation) left torn).torn = false := by
    rw [FileText.cut]
    cases here : (digitsOf generation)[left]? with
    | none => simp
    | some character =>
      have range := toNat_of_isDigit (isDigit_digitsOf generation character (mem_of_getElem? here))
      simp
      omega
  have bare : trim ((digitsOf generation).take left) = (digitsOf generation).take left := by
    apply Text.trim_bare
    apply Text.Bare.of_all
    intro character member
    exact isWhitespace_of_isDigit (digits character member)
  simp only [readU64, readToString, untorn, Bool.false_eq_true, if_false]
  change Except.ok ((parseU64 (trim ((digitsOf generation).take left))).getD 0) = _
  rw [bare, leading]
  split
  · rename_i none
    rw [none, take_zero]
    rfl
  · rename_i some
    have nonempty : (digitsOf generation).take left ≠ [] := by
      rw [ne_eq, take_eq_nil_iff, not_or]
      exact ⟨some, Nat.toDigits_ne_nil⟩
    have small := leading_lt generation left
    rw [leading, if_neg some, ← ofDigitChars_take] at small
    rw [parseU64_of_digits digits nonempty small, ofDigitChars_take]
    rfl

theorem readU64_digits (generation : UInt64) :
    readU64 (some ⟨digitsOf generation, false⟩) = .ok generation := by
  have whole := readU64_cut generation (digitsOf generation).length false
  have some : (digitsOf generation).length ≠ 0 :=
    fun none => Nat.toDigits_ne_nil (eq_nil_of_length_eq_zero none)
  rwa [FileText.cut, take_length, Bool.false_and, leading, if_neg some, Nat.sub_self,
    Nat.pow_zero, Nat.div_one, UInt64.ofNat_toNat] at whole

theorem readPin_iff (pin : List Char) :
    readPin (some ⟨pin, false⟩) = .ok (some pin) ↔ Legible pin := by
  simp only [readPin, readToString, Bool.false_eq_true, if_false, Legible]
  constructor
  · intro read
    split at read
    · cases read
    · rename_i blank
      have same : trim pin = pin := Option.some.inj (Except.ok.inj read)
      rw [same] at blank
      exact ⟨blank, same⟩
  · intro legible
    rw [legible.2, if_neg legible.1]

/-! ## Every step -/

variable {stores : TrustStores}

/-- What the open stores know of their files. -/
structure Cached (stores : TrustStores) : Prop where
  floor : ∀ floor ∈ stores.floor, readU64 stores.floorFile = .ok floor
  blank : stores.pin = some none → readPin stores.pinFile = .ok none
  pin : ∀ pin, stores.pin = some (some pin) →
    readPin stores.pinFile = .ok (some pin) ∨ pin ∈ stores.pins

theorem Cached.crash (stores : TrustStores) : stores.crash.Cached := ⟨nofun, nofun, nofun⟩

theorem toOption_eq_some {result : Except Refusal Value} (some : result.toOption = .some value) :
    result = .ok value := by
  cases result with
  | error refusal => cases some
  | ok other =>
    cases some
    rfl

theorem Cached.storeFloor (cached : stores.Cached) (generation : UInt64) :
    (stores.storeFloor generation).Cached := by
  rw [TrustStores.storeFloor]
  split
  · exact cached
  · split
    · refine ⟨?_, cached.blank, cached.pin⟩
      intro floor same
      cases same
      exact readU64_digits generation
    · exact ⟨cached.floor, cached.blank, cached.pin⟩

theorem Cached.storePin (cached : stores.Cached) (pin : List Char) :
    (stores.storePin pin).Cached := by
  rw [TrustStores.storePin]
  split
  · exact cached
  · refine ⟨cached.floor, nofun, ?_⟩
    intro other same
    cases same
    exact .inr mem_cons_self
  · refine ⟨cached.floor, cached.blank, ?_⟩
    intro other same
    rcases cached.pin other same with read | member
    · exact .inl read
    · exact .inr (mem_cons_of_mem _ member)

theorem Cached.step (cached : stores.Cached) (action : Action) : (stores.step action).Cached := by
  cases action with
  | openFloor =>
    refine ⟨?_, cached.blank, cached.pin⟩
    intro floor read
    exact toOption_eq_some read
  | openPin =>
    refine ⟨cached.floor, ?_, ?_⟩
    · intro blank
      exact toOption_eq_some blank
    · intro pin read
      exact .inl (toOption_eq_some read)
  | storeFloor generation => exact cached.storeFloor generation
  | storePin pin => exact cached.storePin pin
  | crash => exact .crash stores
  | crashFloor generation left torn =>
    change (stores.crashFloor generation left torn).Cached
    rw [crashFloor]
    split
    · exact cached
    · split
      · exact .crash _
      · exact .crash _
  | crashPin pin left torn =>
    change (stores.crashPin pin left torn).Cached
    rw [crashPin]
    split
    · exact cached
    · exact .crash _
    · exact .crash _

theorem floors_storeFloor (cached : stores.Cached)
    (floors : Floors stores.floorFile stores.generations) (generation : UInt64) :
    Floors (stores.storeFloor generation).floorFile (stores.storeFloor generation).generations := by
  rw [storeFloor]
  split
  · exact floors
  · rename_i floor here
    have read := cached.floor floor here
    have below : ∀ kept ∈ stores.generations, kept ≤ floor := by
      rcases floors with ⟨other, same, below⟩
      rw [read] at same
      cases same
      exact below
    split
    · rename_i higher
      refine ⟨generation, readU64_digits generation, ?_⟩
      intro kept member
      rcases mem_cons.mp member with rfl | old
      · exact UInt64.le_refl _
      · exact UInt64.le_of_lt (UInt64.lt_of_le_of_lt (below kept old) higher)
    · rename_i lower
      refine ⟨floor, read, ?_⟩
      intro kept member
      rcases mem_cons.mp member with rfl | old
      · exact UInt64.not_lt.mp lower
      · exact below kept old

theorem storePin_files (stores : TrustStores) (pin : List Char) :
    (stores.storePin pin).floorFile = stores.floorFile ∧
      (stores.storePin pin).generations = stores.generations := by
  rw [storePin]
  split <;> exact ⟨rfl, rfl⟩

theorem storeFloor_pins (stores : TrustStores) (generation : UInt64) :
    (stores.storeFloor generation).pinFile = stores.pinFile ∧
      (stores.storeFloor generation).pins = stores.pins := by
  rw [storeFloor]
  split
  · exact ⟨rfl, rfl⟩
  · split <;> exact ⟨rfl, rfl⟩

/-- A store of a pin keeps what it says exactly if it is safe. -/
theorem kept_storePin_iff (cached : stores.Cached) (kept : stores.Kept) (pin : List Char) :
    (stores.storePin pin).Kept ↔ stores.Safe (.storePin pin) := by
  rcases kept with ⟨floors, pins⟩
  have files := storePin_files stores pin
  rw [Kept, files.1, files.2]
  simp only [floors, true_and, Safe]
  cases open_ : stores.pin with
  | none =>
    rw [storePin, open_]
    exact iff_of_true pins nofun
  | some current =>
    cases current with
    | none =>
      have none : stores.pins = [] := by
        apply eq_nil_iff_forall_not_mem.mpr
        intro other member
        have read := pins other member
        rw [cached.blank open_] at read
        cases read
      rw [storePin, open_]
      simp [none, readPin_iff]
    | some other =>
      have read : readPin stores.pinFile = .ok (some other) := by
        rcases cached.pin other open_ with read | member
        · exact read
        · exact pins other member
      rw [storePin, open_]
      simp only [mem_cons, forall_eq_or_imp, Option.mem_def, Option.some.injEq, forall_eq']
      rw [read]
      constructor
      · intro all
        exact Option.some.inj (Except.ok.inj all.1)
      · rintro rfl
        refine ⟨rfl, ?_⟩
        intro again member
        rw [← read]
        exact pins again member

/-- A crash inside of a pin's write finds nothing that was kept. -/
theorem kept_crashPin (cached : stores.Cached) (kept : stores.Kept)
    (pin : List Char) (left : Nat) (torn : Bool) : (stores.crashPin pin left torn).Kept := by
  rw [crashPin]
  split
  · exact kept
  · rename_i blank
    refine ⟨kept.1, ?_⟩
    intro other member
    have read := kept.2 other member
    rw [cached.blank blank] at read
    cases read
  · exact kept

theorem floors_cut_iff {generations : List UInt64} (generation : UInt64) (left : Nat) (torn : Bool) :
    Floors (some (.cut (digitsOf generation) left torn)) generations ↔
      ∀ kept ∈ generations, kept.toNat ≤ leading generation left := by
  have value : (UInt64.ofNat (leading generation left)).toNat = leading generation left :=
    UInt64.toNat_ofNat_of_lt' (leading_lt generation left)
  rw [Floors, readU64_cut]
  constructor
  · rintro ⟨floor, read, below⟩ kept member
    cases read
    rw [← value]
    exact UInt64.le_iff_toNat_le.mp (below kept member)
  · intro below
    refine ⟨_, rfl, ?_⟩
    intro kept member
    rw [UInt64.le_iff_toNat_le, value]
    exact below kept member

theorem kept_crashFloor_iff (kept : stores.Kept) (generation : UInt64) (left : Nat) (torn : Bool) :
    (stores.crashFloor generation left torn).Kept ↔
      stores.Safe (.crashFloor generation left torn) := by
  rw [crashFloor, Safe]
  cases stores.floor with
  | none => exact iff_of_true kept nofun
  | some floor =>
    simp only [Option.mem_def, Option.some.injEq, forall_eq']
    split
    · rename_i higher
      constructor
      · intro after _
        exact (floors_cut_iff generation left torn).mp after.1
      · intro safe
        exact ⟨(floors_cut_iff generation left torn).mpr (safe higher), kept.2⟩
    · rename_i lower
      exact iff_of_true kept fun higher => absurd higher lower

theorem kept_step_iff (cached : stores.Cached) (kept : stores.Kept)
    (action : Action) : (stores.step action).Kept ↔ stores.Safe action := by
  cases action with
  | openFloor | openPin | crash => exact iff_of_true kept trivial
  | storeFloor generation =>
    refine iff_of_true ⟨floors_storeFloor cached kept.1 generation, ?_⟩ trivial
    change ∀ pin ∈ (stores.storeFloor generation).pins,
      readPin (stores.storeFloor generation).pinFile = _
    have files := storeFloor_pins stores generation
    rw [files.1, files.2]
    exact kept.2
  | storePin pin => exact kept_storePin_iff cached kept pin
  | crashFloor generation left torn => exact kept_crashFloor_iff kept generation left torn
  | crashPin pin left torn => exact iff_of_true (kept_crashPin cached kept pin left torn) trivial

/-- For every sequence of stores, crashes and reopenings: at every moment a
reopening would read what was kept, exactly if every step is safe. -/
theorem trust_kept_iff (actions : List Action) :
    (∀ past later, actions = past ++ later → (run past).Kept) ↔
      Execution.Guarded step Safe {} actions := by
  apply Execution.everywhere_iff step (fun _ => True) Cached Kept
  · exact ⟨nofun, nofun, nofun⟩
  · exact ⟨⟨0, rfl, nofun⟩, nofun⟩
  · intro stores action _ cached
    exact cached.step action
  · intro stores action _ cached kept
    exact kept_step_iff cached kept action
  · intro _ _
    trivial

end TrustStores

namespace Sample

/-- The floor 1000 is kept; a crash falls into the write of 2000. -/
def cutFloor (left : Nat) : TrustStores :=
  TrustStores.run [.openFloor, .storeFloor 1000, .crashFloor 2000 left false, .openFloor]

/-- A crash falls into the write of a pin; the next process stores it again. -/
def cutPin : TrustStores :=
  TrustStores.run [.openPin, .crashPin ['a', 'b', 'c'] 1 false, .openPin,
    .storePin ['a', 'b', 'c'], .crash, .openPin]

end Sample

/-- The next process reads a floor of 0 or of 2, and a pin that was never
stored. -/
theorem TrustStores.crash_rolls_back : ((Sample.cutFloor 0).generations = [1000] ∧
      (Sample.cutFloor 0).floor = some 0 ∧ ¬(Sample.cutFloor 0).Kept) ∧
    ((Sample.cutFloor 1).generations = [1000] ∧
      (Sample.cutFloor 1).floor = some 2 ∧ ¬(Sample.cutFloor 1).Kept) ∧
    (Sample.cutPin.pins = [['a', 'b', 'c']] ∧
      Sample.cutPin.pin = some (some ['a']) ∧ ¬Sample.cutPin.Kept) := by
  refine ⟨⟨by decide, by decide, ?_⟩, ⟨by decide, by decide, ?_⟩, by decide, by decide, ?_⟩
  · rintro ⟨⟨floor, read, below⟩, _⟩
    have low : readU64 (Sample.cutFloor 0).floorFile = .ok 0 := by decide
    rw [low] at read
    cases read
    exact absurd (below 1000 (by decide)) (by decide)
  · rintro ⟨⟨floor, read, below⟩, _⟩
    have low : readU64 (Sample.cutFloor 1).floorFile = .ok 2 := by decide
    rw [low] at read
    cases read
    exact absurd (below 1000 (by decide)) (by decide)
  · intro kept
    have read := kept.2 ['a', 'b', 'c'] (by decide)
    exact absurd read (by decide)

end WarrenSdk.Sdk
