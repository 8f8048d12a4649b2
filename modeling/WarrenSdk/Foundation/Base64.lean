import Mathlib.Tactic.Common

/-! # Base64

The standard alphabet with padding, read strictly: the padding has to be there
and the bits that it stands for have to be zero. This is what the source relies on
the `base64` crate for. -/

namespace WarrenSdk.Base64

open List

def alphabet : List Char :=
  "ABCDEFGHIJKLMNOPQRSTUVWXYZabcdefghijklmnopqrstuvwxyz0123456789+/".toList

def pad : Char := '='

def symbol (digit : Nat) : Char := alphabet.getD digit pad

def digit (character : Char) : Option Nat :=
  if alphabet.idxOf character < 64 then some (alphabet.idxOf character)
  else none

def group (first second third : UInt8) : Nat :=
  first.toNat * 65536 + second.toNat * 256 + third.toNat

def encode : List UInt8 → List Char
  | [] => []
  | [first] =>
    let bits := group first 0 0
    [symbol (bits / 262144), symbol (bits / 4096 % 64), pad, pad]
  | [first, second] =>
    let bits := group first second 0
    [symbol (bits / 262144), symbol (bits / 4096 % 64), symbol (bits / 64 % 64), pad]
  | first :: second :: third :: rest =>
    let bits := group first second third
    symbol (bits / 262144) :: symbol (bits / 4096 % 64) ::
      symbol (bits / 64 % 64) :: symbol (bits % 64) :: encode rest

def join (first second third fourth : Nat) : Nat :=
  first * 262144 + second * 4096 + third * 64 + fourth

def decode : List Char → Option (List UInt8)
  | [] => some []
  | [first, second, '=', '='] => do
    let bits := join (← digit first) (← digit second) 0 0
    if bits % 65536 = 0 then some [UInt8.ofNat (bits / 65536)] else none
  | [first, second, third, '='] => do
    let bits := join (← digit first) (← digit second) (← digit third) 0
    if bits % 256 = 0 then
      some [UInt8.ofNat (bits / 65536), UInt8.ofNat (bits / 256 % 256)]
    else none
  | first :: second :: third :: fourth :: rest => do
    let bits := join (← digit first) (← digit second) (← digit third)
      (← digit fourth)
    let bytes ← decode rest
    some (UInt8.ofNat (bits / 65536) :: UInt8.ofNat (bits / 256 % 256) ::
      UInt8.ofNat (bits % 256) :: bytes)
  | _ => none

/-! ## Digits -/

theorem digit_symbol (small : value < 64) : digit (symbol value) = some value := by
  have all : ∀ value : Fin 64, digit (symbol value) = some value.val := by decide +kernel
  exact all ⟨value, small⟩

theorem symbol_ne_pad (small : value < 64) : symbol value ≠ '=' := by
  have all : ∀ value : Fin 64, symbol value ≠ '=' := by decide +kernel
  exact all ⟨value, small⟩

theorem group_lt (first second third : UInt8) : group first second third < 16777216 := by
  have := first.toNat_lt
  have := second.toNat_lt
  have := third.toNat_lt
  rw [group]
  omega

theorem join_digits : join (bits / 262144) (bits / 4096 % 64) (bits / 64 % 64) (bits % 64) =
      bits := by
  rw [join]
  omega

theorem group_bytes (first second third : UInt8) :
    UInt8.ofNat (group first second third / 65536) = first ∧
      UInt8.ofNat (group first second third / 256 % 256) = second ∧
      UInt8.ofNat (group first second third % 256) = third := by
  have := first.toNat_lt
  have := second.toNat_lt
  have := third.toNat_lt
  have one : group first second third / 65536 = first.toNat := by
    rw [group]
    omega
  have two : group first second third / 256 % 256 = second.toNat := by
    rw [group]
    omega
  have three : group first second third % 256 = third.toNat := by
    rw [group]
    omega
  rw [one, two, three]
  simp

/-! ## Reading what was written -/

theorem decode_quad (one : first < 64) (two : second < 64) (three : third < 64)
    (four : fourth < 64) (rest : List Char) :
    decode (symbol first :: symbol second :: symbol third :: symbol fourth :: rest) =
      (decode rest).map fun bytes =>
        UInt8.ofNat (join first second third fourth / 65536) ::
          UInt8.ofNat (join first second third fourth / 256 % 256) ::
          UInt8.ofNat (join first second third fourth % 256) :: bytes := by
  rw [decode]
  · simp only [digit_symbol one, digit_symbol two, digit_symbol three,
      digit_symbol four, bind, Option.bind]
    cases decode rest <;> rfl
  · intro equal
    exact absurd equal (symbol_ne_pad three)
  · intro equal
    exact absurd equal (symbol_ne_pad four)

theorem decode_pair (one : first < 64) (two : second < 64)
    (zero : join first second 0 0 % 65536 = 0) : decode [symbol first, symbol second, pad, pad] =
      some [UInt8.ofNat (join first second 0 0 / 65536)] := by
  simp only [pad, decode, digit_symbol one, digit_symbol two, bind, Option.bind, zero, if_true]

theorem decode_triple (one : first < 64) (two : second < 64)
    (three : third < 64) (zero : join first second third 0 % 256 = 0) :
    decode [symbol first, symbol second, symbol third, pad] =
      some [UInt8.ofNat (join first second third 0 / 65536),
        UInt8.ofNat (join first second third 0 / 256 % 256)] := by
  rw [pad, decode]
  · simp only [digit_symbol one, digit_symbol two, digit_symbol three, bind,
      Option.bind, zero, if_true]
  · intro equal
    exact symbol_ne_pad three equal

theorem decode_encode (bytes : List UInt8) : decode (encode bytes) = some bytes := by
  induction bytes using encode.induct with
  | case1 => rfl
  | case2 first =>
    have small := group_lt first 0 0
    rcases group_bytes first 0 0 with ⟨one, _, _⟩
    have low : group first 0 0 % 65536 = 0 := by simp [group]
    have same : join (group first 0 0 / 262144)
        (group first 0 0 / 4096 % 64) 0 0 = group first 0 0 := by
      rw [join]
      omega
    rw [encode, decode_pair (by omega) (by omega) (by rw [same, low]), same,
      one]
  | case3 first second =>
    have small := group_lt first second 0
    rcases group_bytes first second 0 with ⟨one, two, _⟩
    have low : group first second 0 % 256 = 0 := by
      have last : (0 : UInt8).toNat = 0 := rfl
      rw [group]
      omega
    have same : join (group first second 0 / 262144)
        (group first second 0 / 4096 % 64) (group first second 0 / 64 % 64) 0 =
        group first second 0 := by
      rw [join]
      omega
    rw [encode, decode_triple (by omega) (by omega) (by omega) (by rw [same, low]), same, one, two]
  | case4 first second third rest induction =>
    have small := group_lt first second third
    rcases group_bytes first second third with ⟨one, two, three⟩
    rw [encode, decode_quad (by omega) (by omega) (by omega) (by omega),
      induction, join_digits]
    simp only [Option.map_some, one, two, three]

/-! ## What is written -/

theorem symbol_mem (value : Nat) : symbol value ∈ pad :: alphabet := by
  rw [symbol, getD_eq_getElem?_getD]
  cases found : alphabet[value]? with
  | none => exact .head _
  | some character => exact .tail _ (mem_of_getElem? found)

theorem encode_mem (member : character ∈ encode bytes) : character ∈ pad :: alphabet := by
  induction bytes using encode.induct with
  | case1 => cases member
  | case2 | case3 =>
    simp only [encode, mem_cons, not_mem_nil, or_false] at member
    rcases member with rfl | rfl | rfl | rfl
    all_goals first | exact symbol_mem _ | exact .head _
  | case4 first second third rest induction =>
    simp only [encode, mem_cons] at member
    rcases member with rfl | rfl | rfl | rfl | member
    · exact symbol_mem _
    · exact symbol_mem _
    · exact symbol_mem _
    · exact symbol_mem _
    · exact induction member

theorem encode_ne_nil (nonempty : bytes ≠ []) : encode bytes ≠ [] := by
  cases bytes using encode.fun_cases with
  | case1 => exact absurd rfl nonempty
  | case2 | case3 | case4 => simp [encode]

end WarrenSdk.Base64
