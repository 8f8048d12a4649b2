import Mathlib.Algebra.Group.Nat.Defs
import Mathlib.Tactic.Common

/-! # Byte strings

Big-endian words and in-place edits of a byte buffer. Buffers are lists: an
edit is described by the bytes it leaves alone, and a list exposes them by
index. -/

namespace WarrenSdk.Bytes

open List

/-! ## Big-endian words -/

/-- The `width` low bytes of `value`, most significant first. -/
def ofNat : (width value : Nat) → List UInt8
  | 0, _ => []
  | width + 1, value => UInt8.ofNat (value / 256 ^ width) :: ofNat width value

def toNat : List UInt8 → Nat
  | [] => 0
  | head :: tail => head.toNat * 256 ^ tail.length + toNat tail

example : ofNat 2 0x1f90 = [0x1f, 0x90] := rfl

example : toNat [0x1f, 0x90] = 8080 := rfl

@[simp] theorem length_ofNat (width value : Nat) : (ofNat width value).length = width := by
  induction width with
  | zero => rfl
  | succ width induction => simp [ofNat, induction]

/-- Encoding keeps exactly the low bytes of a number. -/
theorem toNat_ofNat (width value : Nat) : toNat (ofNat width value) = value % 256 ^ width := by
  induction width with
  | zero => simp [ofNat, toNat, Nat.mod_one]
  | succ width induction =>
    have head : (UInt8.ofNat (value / 256 ^ width)).toNat = value / 256 ^ width % 256 := by simp
    rw [ofNat, toNat, length_ofNat, induction, head, Nat.pow_succ, Nat.mod_mul, Nat.mul_comm]
    omega

theorem toNat_ofNat_of_lt (fits : value < 256 ^ width) : toNat (ofNat width value) = value := by
  rw [toNat_ofNat, Nat.mod_eq_of_lt fits]

/-! ## Windows and edits -/

section Windows

variable {α : Type u}

/-- The window of `length` elements from `offset`, cut short at the end. -/
def slice (bytes : List α) (offset length : Nat) : List α := (bytes.drop offset).take length

/-- Overwrite the window from `offset` with `patch`. -/
def splice (bytes : List α) (offset : Nat) (patch : List α) : List α :=
  bytes.take offset ++ patch ++ bytes.drop (offset + patch.length)

example : splice [1, 2, 3, 4] 1 [7, 8] = [1, 7, 8, 4] := rfl

theorem getElem?_slice (bytes : List α) (offset length index : Nat) :
    (slice bytes offset length)[index]? =
      if index < length then bytes[offset + index]? else none := by
  simp [slice, List.getElem?_take]

variable {bytes patch : List α} {offset : Nat}

theorem length_slice {length : Nat} (fits : offset + length ≤ bytes.length) :
    (slice bytes offset length).length = length := by
  simp [slice]
  omega

@[simp] theorem length_splice (fits : offset + patch.length ≤ bytes.length) :
    (splice bytes offset patch).length = bytes.length := by
  simp [splice]
  omega

/-- An edit is visible inside its window and nowhere else. -/
theorem getElem?_splice (fits : offset + patch.length ≤ bytes.length) (index : Nat) :
    (splice bytes offset patch)[index]? =
      if offset ≤ index ∧ index < offset + patch.length then
        patch[index - offset]?
      else
        bytes[index]? := by
  have front : (bytes.take offset).length = offset := by simp; omega
  rw [splice, append_assoc]
  by_cases before : index < offset
  · rw [List.getElem?_append_left (by omega), List.getElem?_take_of_lt before]
    simp [Nat.not_le.mpr before]
  · rw [List.getElem?_append_right (by omega), front]
    by_cases inside : index < offset + patch.length
    · rw [List.getElem?_append_left (by omega)]
      simp [inside, Nat.not_lt.mp before]
    · rw [List.getElem?_append_right (by omega), List.getElem?_drop]
      have shifted : offset + patch.length + (index - offset - patch.length) = index := by omega
      simp [inside, shifted]

theorem slice_congr {length : Nat} (agree : ∀ index, offset ≤ index → index < offset + length →
      left[index]? = right[index]?) :
    slice left offset length = slice right offset length := by
  apply ext_getElem?
  intro index
  rw [getElem?_slice, getElem?_slice]
  by_cases inside : index < length
  · simp only [inside, if_true]
    exact agree (offset + index) (by omega) (by omega)
  · simp [inside]

theorem slice_splice_same (fits : offset + patch.length ≤ bytes.length) :
    slice (splice bytes offset patch) offset patch.length = patch := by
  apply ext_getElem?
  intro index
  rw [getElem?_slice, getElem?_splice fits]
  by_cases inside : index < patch.length
  · simp [inside]
  · simp [inside]

/-- `after` has the length of `before` and differs from it at most inside the
windows, each given by its offset and its length. -/
structure EditedWithin (windows : List (Nat × Nat)) (before after : List α) : Prop where
  length : after.length = before.length
  outside : ∀ index, (∀ window ∈ windows, index < window.1 ∨ window.1 + window.2 ≤ index) →
    after[index]? = before[index]?

namespace EditedWithin

theorem refl (windows : List (Nat × Nat)) (bytes : List α) : EditedWithin windows bytes bytes :=
  ⟨rfl, fun _ _ => rfl⟩

variable {offset : Nat} {before after : List α} {windows : List (Nat × Nat)}

theorem splice (fits : offset + patch.length ≤ bytes.length) :
    EditedWithin [(offset, patch.length)] bytes (Bytes.splice bytes offset patch) := by
  refine ⟨length_splice fits, ?_⟩
  intro index outside
  have away := outside (offset, patch.length) (by simp)
  rw [getElem?_splice fits, if_neg (by simp only at away; omega)]

theorem trans (earlier : EditedWithin first before middle)
    (later : EditedWithin second middle after) : EditedWithin (first ++ second) before after := by
  refine ⟨later.length.trans earlier.length, ?_⟩
  intro index outside
  rw [later.outside index fun window member => outside window (mem_append_right first member),
    earlier.outside index fun window member => outside window (mem_append_left second member)]

variable (edited : EditedWithin windows before after)

include edited

theorem mono (covered : ∀ window ∈ windows, window ∈ wider) : EditedWithin wider before after :=
  ⟨edited.length, fun index outside =>
    edited.outside index fun window member => outside window (covered window member)⟩

theorem within {length : Nat}
    (inside : ∀ window ∈ windows, offset ≤ window.1 ∧ window.1 + window.2 ≤ offset + length) :
    EditedWithin [(offset, length)] before after := by
  refine ⟨edited.length, ?_⟩
  intro index outside
  have away := outside (offset, length) (by simp)
  apply edited.outside
  intro window member
  have enclosed := inside window member
  simp only at away
  omega

/-- A window apart from every edited one still reads the same. -/
theorem slice_eq {length : Nat}
    (apart : ∀ window ∈ windows, offset + length ≤ window.1 ∨ window.1 + window.2 ≤ offset) :
    slice after offset length = slice before offset length := by
  apply slice_congr
  intro index lower upper
  apply edited.outside
  intro window member
  have away := apart window member
  omega

end EditedWithin

end Windows

end WarrenSdk.Bytes
