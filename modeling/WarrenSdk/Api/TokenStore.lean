import Mathlib.Data.Finset.Basic
import Mathlib.Tactic.Common

/-! # The store of minted tokens

Tokens are kept by the epoch that they are for, in the order they were minted.
What a token is belongs to the token library and nothing is assumed of it but
that a token can be read back from its bytes. -/

namespace WarrenSdk.Api

/-- The token library: the tokens and their serials, the attribution tags, and
the forms in which they leave the store. -/
structure TokenFormat where
  Token : Type
  Serial : Type
  Tag : Type
  serialEq : DecidableEq Serial
  serial : Token → Serial
  serialize : Token → List UInt8
  parse : List UInt8 → Option Token
  encode : List UInt8 → List UInt8
  decode : List UInt8 → Option (List UInt8)
  envelope : (token : List UInt8) → Tag → List UInt8
  parse_serialize : ∀ token, parse (serialize token) = some token
  decode_encode : ∀ bytes, decode (encode bytes) = some bytes

instance (format : TokenFormat) : DecidableEq format.Serial := format.serialEq

variable {format : TokenFormat}

structure Stored (format : TokenFormat) where
  token : format.Token
  tag : Option format.Tag

def Stored.serial (entry : Stored format) : format.Serial := format.serial entry.token

/-- A batch of one epoch. -/
structure MintedEpoch (format : TokenFormat) where
  epoch : UInt64
  tokens : List format.Token
  attributionTags : List format.Tag

/-- Each token with the tag at its place; tokens behind the last tag have
none. -/
def pairTags : List format.Token → List format.Tag → List (Stored format)
  | [], _ => []
  | token :: tokens, tags => ⟨token, tags.head?⟩ :: pairTags tokens tags.tail

theorem pairTags_serial (tokens : List format.Token) (tags : List format.Tag) :
    (pairTags tokens tags).map Stored.serial = tokens.map format.serial := by
  induction tokens generalizing tags with
  | nil => rfl
  | cons token tokens induction =>
    simp only [pairTags, List.map_cons, induction]
    rfl

structure TokenStore (format : TokenFormat) where
  perEpoch : Std.TreeMap UInt64 (List (Stored format))

namespace TokenStore

def new : TokenStore format := ⟨{}⟩

def stock (store : TokenStore format) (epoch : UInt64) : List (Stored format) :=
  (store.perEpoch[epoch]?).getD []

def insert (store : TokenStore format) (minted : MintedEpoch format) : TokenStore format :=
  ⟨store.perEpoch.insert minted.epoch (store.stock minted.epoch ++
      pairTags minted.tokens minted.attributionTags)⟩

/-- Take the last entry of an epoch out; an epoch without entries goes with
it. -/
def pop (store : TokenStore format) (epoch : UInt64) : Option (Stored format) × TokenStore format :=
  match store.perEpoch[epoch]? with
  | none => (none, store)
  | some entries =>
    let left := entries.dropLast
    (entries.getLast?,
      if left.isEmpty then ⟨store.perEpoch.erase epoch⟩
      else ⟨store.perEpoch.insert epoch left⟩)

def take (store : TokenStore format) (epoch : UInt64) : Option format.Token × TokenStore format :=
  let (entry, store) := store.pop epoch
  (entry.map Stored.token, store)

/-- The credential at a place of an epoch's batch; an entry without a tag is
never presented. -/
def envelopeAt (store : TokenStore format) (epoch : UInt64) (index : Nat) :
    Option (List UInt8) := do
  let entry ← (store.stock epoch)[index]?
  let tag ← entry.tag
  return format.envelope (format.serialize entry.token) tag

def available (store : TokenStore format) (epoch : UInt64) : Nat := (store.stock epoch).length

def tokens (store : TokenStore format) (epoch : UInt64) : List format.Token :=
  (store.stock epoch).map Stored.token

def pruneBefore (store : TokenStore format) (minEpoch : UInt64) : TokenStore format :=
  ⟨store.perEpoch.filter fun epoch _ => minEpoch ≤ epoch⟩

def snapshotSerialized (store : TokenStore format) : List (UInt64 × List (List UInt8)) :=
  store.perEpoch.toList.map fun entry =>
    (entry.1, entry.2.map fun stored => format.serialize stored.token)

/-! ## What is left of an epoch -/

@[simp] theorem stock_new (epoch : UInt64) : (new : TokenStore format).stock epoch = [] := by
  simp [stock, new]

variable (store : TokenStore format)

include store

@[simp] theorem stock_insert (minted : MintedEpoch format) (epoch : UInt64) :
    (store.insert minted).stock epoch =
      if epoch = minted.epoch then
        store.stock epoch ++ pairTags minted.tokens minted.attributionTags
      else store.stock epoch := by
  rw [insert, stock, Std.TreeMap.getElem?_insert]
  by_cases same : epoch = minted.epoch
  · simp [same]
  · have different : compare minted.epoch epoch ≠ .eq := by
      rw [Std.LawfulEqOrd.compare_eq_iff_eq.ne]
      exact Ne.symm same
    simp [same, different, stock]

theorem stock_pop (epoch other : UInt64) : (store.pop epoch).1 = (store.stock epoch).getLast? ∧
      (store.pop epoch).2.stock other =
        if other = epoch then (store.stock other).dropLast
        else store.stock other := by
  rw [pop]
  cases there : store.perEpoch[epoch]? with
  | none =>
    have empty : store.stock epoch = [] := by simp [stock, there]
    by_cases same : other = epoch <;> simp [same, empty]
  | some entries =>
    have full : store.stock epoch = entries := by simp [stock, there]
    refine ⟨by simp [full], ?_⟩
    by_cases same : other = epoch
    · subst same
      simp only [full, if_true]
      split
      · rename_i last
        simp only [List.isEmpty_iff] at last
        simp [stock, last]
      · simp [stock]
    · have different : compare epoch other ≠ .eq := by
        rw [Std.LawfulEqOrd.compare_eq_iff_eq.ne]
        exact Ne.symm same
      simp only [same, if_false]
      split
      · simp [stock, Std.TreeMap.getElem?_erase, different]
      · simp [stock, Std.TreeMap.getElem?_insert, different]

@[simp] theorem stock_take (epoch other : UInt64) : (store.take epoch).2.stock other =
      if other = epoch then (store.stock other).dropLast
      else store.stock other :=
  (store.stock_pop epoch other).2

@[simp] theorem stock_pruneBefore (minEpoch epoch : UInt64) :
    (store.pruneBefore minEpoch).stock epoch =
      if minEpoch ≤ epoch then store.stock epoch else [] := by
  simp only [pruneBefore, stock, Std.TreeMap.getElem?_filter]
  by_cases kept : minEpoch ≤ epoch
  · have all : Option.filter (fun _ => true) store.perEpoch[epoch]? = store.perEpoch[epoch]? := by
      cases store.perEpoch[epoch]? <;> rfl
    simp [kept, all]
  · simp [kept]

end TokenStore

end WarrenSdk.Api
