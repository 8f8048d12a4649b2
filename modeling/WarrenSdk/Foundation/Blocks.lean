import Mathlib.Data.Nat.Bitwise
import Mathlib.Tactic.Common

/-! # Aligned blocks

The numbers that agree above some number of low bits form a block. Blocks of
different sizes are nested or apart, so two blocks meet exactly when one of
them contains the base of the other. -/

namespace WarrenSdk

/-- Two numbers are equal above the low bits. -/
def SameBlock (low left right : Nat) : Prop := left / 2 ^ low = right / 2 ^ low

namespace SameBlock

instance (low left right : Nat) : Decidable (SameBlock low left right) :=
  inferInstanceAs (Decidable (left / 2 ^ low = right / 2 ^ low))

theorem refl (low number : Nat) : SameBlock low number number := rfl

theorem symm (same : SameBlock low left right) : SameBlock low right left := Eq.symm same

theorem trans (left : SameBlock low first second) (right : SameBlock low second third) :
    SameBlock low first third :=
  Eq.trans left right

theorem coarser (same : SameBlock low left right) (larger : low ≤ wide) :
    SameBlock wide left right := by
  have split : 2 ^ wide = 2 ^ low * 2 ^ (wide - low) := by
    rw [← Nat.pow_add, Nat.add_sub_cancel' larger]
  have lower : left / 2 ^ low = right / 2 ^ low := same
  rw [SameBlock, split, ← Nat.div_div_eq_div_mul, ← Nat.div_div_eq_div_mul, lower]

/-- Two blocks meet exactly when one contains a given member of the other. -/
theorem meet_iff (low wide base other : Nat) :
    (∃ number, SameBlock low number base ∧ SameBlock wide number other) ↔
      SameBlock low other base ∨ SameBlock wide base other := by
  constructor
  · intro shared
    rcases shared with ⟨number, inBase, inOther⟩
    rcases Nat.le_total low wide with larger | larger
    · exact .inr ((inBase.coarser larger).symm.trans inOther)
    · exact .inl ((inOther.coarser larger).symm.trans inBase)
  · intro contained
    rcases contained with inBase | inOther
    · exact ⟨other, inBase, refl wide other⟩
    · exact ⟨base, refl low base, inOther⟩

variable {low base : Nat}

/-- Small numbers fill the low bits of an aligned base. -/
theorem or_small (aligned : base % 2 ^ low = 0) (small : number < 2 ^ low) :
    base ||| number = base + number ∧ SameBlock low (base + number) base := by
  rcases Nat.dvd_of_mod_eq_zero aligned with ⟨count, rfl⟩
  have positive : 0 < 2 ^ low := Nat.two_pow_pos low
  rw [← Nat.two_pow_add_eq_or_of_lt small, SameBlock,
    Nat.mul_add_div positive, Nat.div_eq_of_lt small, Nat.mul_div_cancel_left _ positive]
  exact ⟨rfl, rfl⟩

/-- A high bit that leaves a base in its block was set in the base. -/
theorem or_high (high : low ≤ power) (same : SameBlock low (base ||| 2 ^ power) base) :
    base ||| 2 ^ power = base := by
  have bit := congrArg (Nat.testBit · (power - low)) same
  simp only [Nat.testBit_div_two_pow, Nat.sub_add_cancel high,
    Nat.testBit_or, Nat.testBit_two_pow_self, Bool.or_true] at bit
  apply Nat.eq_of_testBit_eq
  intro position
  rw [Nat.testBit_or, Nat.testBit_two_pow]
  by_cases there : power = position
  · subst position
    simp [← bit]
  · simp [there]

/-- Masking the low bits away compares blocks. -/
theorem and_mask_iff (low : Nat) (left right : BitVec width) :
    left &&& (BitVec.allOnes width <<< low) =
        right &&& (BitVec.allOnes width <<< low) ↔
      SameBlock low left.toNat right.toNat := by
  rw [SameBlock, ← Nat.shiftRight_eq_div_pow, ← Nat.shiftRight_eq_div_pow,
    ← BitVec.toNat_ushiftRight, ← BitVec.toNat_ushiftRight,
    ← BitVec.toNat_eq]
  constructor
  · intro masked
    ext position inRange
    have bits := congrArg (fun bits => bits.getLsbD (low + position)) masked
    simp only [BitVec.getLsbD_and, BitVec.getLsbD_shiftLeft, BitVec.getLsbD_allOnes] at bits
    by_cases inside : low + position < width
    · have notLow : ¬ low + position < low := by omega
      simpa [BitVec.getElem_ushiftRight, inside, notLow, inRange] using bits
    · simp [BitVec.getElem_ushiftRight, BitVec.getLsbD_of_ge _ _ (Nat.le_of_not_lt inside)]
  · intro shifted
    ext position inRange
    have bits := congrArg (fun bits => bits.getLsbD (position - low)) shifted
    simp only [BitVec.getLsbD_ushiftRight] at bits
    by_cases above : low ≤ position
    · rw [Nat.add_sub_cancel' above] at bits
      simp [BitVec.getLsbD_eq_getElem inRange] at bits
      simp [bits]
    · simp [Nat.lt_of_not_le above]

/-! ## Prefixes -/

/-- The first `length` bits of a word. -/
def mask (width length : Nat) : BitVec width :=
  if length = 0 then 0 else BitVec.allOnes width <<< (width - length)

section Prefixes

variable {width length : Nat}

theorem masked_iff (left right : BitVec width) :
    left &&& mask width length = right &&& mask width length ↔
      SameBlock (width - length) left.toNat right.toNat := by
  by_cases empty : length = 0
  · have everything : SameBlock width left.toNat right.toNat := by
      rw [SameBlock, Nat.div_eq_of_lt left.isLt, Nat.div_eq_of_lt right.isLt]
    simp [mask, empty, everything]
  · rw [mask, if_neg empty, and_mask_iff]

theorem masked_aligned (number : BitVec width) :
    (number &&& mask width length).toNat % 2 ^ (width - length) = 0 := by
  by_cases empty : length = 0
  · simp [mask, empty]
  · have whole : 2 ^ (width - length) ∣ 2 ^ width := Nat.pow_dvd_pow 2 (Nat.sub_le _ _)
    rw [mask, if_neg empty, BitVec.toNat_and, Nat.and_mod_two_pow,
      BitVec.toNat_shiftLeft, Nat.mod_mod_of_dvd _ whole, Nat.shiftLeft_eq,
      Nat.mul_mod_left, Nat.and_zero]

theorem masked_same (length : Nat) (number : BitVec width) :
    SameBlock (width - length) (number &&& mask width length).toNat
      number.toNat := by
  apply (masked_iff _ _).mp
  rw [BitVec.and_assoc, BitVec.and_self]

theorem eq_of_aligned (leftAligned : left % 2 ^ low = 0)
    (rightAligned : right % 2 ^ low = 0) (same : SameBlock low left right) :
    left = right := by
  rw [← Nat.div_add_mod left (2 ^ low), ← Nat.div_add_mod right (2 ^ low), same,
    leftAligned, rightAligned]

theorem eq_xor_one_iff (left right : Nat) :
    left = right ^^^ 1 ↔ left / 2 = right / 2 ∧ left ≠ right := by
  have half : (right ^^^ 1) / 2 = right / 2 := by simp [Nat.xor_div_two]
  have parity : (right ^^^ 1) % 2 = (right + 1) % 2 := Nat.xor_mod_two_eq
  omega

/-- The prefix that ends in the other bit. -/
def sibling (base : BitVec width) (length : Nat) : BitVec width :=
  (base &&& mask width length) ^^^ (BitVec.ofNat width 1 <<< (width - length))

/-- A number has the other bit exactly if it agrees before it, and no longer. -/
theorem sibling_spec (base : BitVec width) (positive : 0 < length) (fits : length ≤ width) :
    (sibling base length).toNat % 2 ^ (width - length) = 0 ∧
    ∀ number, SameBlock (width - length) number (sibling base length).toNat ↔
      SameBlock (width - length + 1) number base.toNat ∧
        ¬ SameBlock (width - length) number base.toNat := by
  have bit : (BitVec.ofNat width 1 <<< (width - length)).toNat = 2 ^ (width - length) := by
    rw [BitVec.toNat_shiftLeft, BitVec.toNat_one (by omega), Nat.shiftLeft_eq, Nat.one_mul]
    exact Nat.mod_eq_of_lt (Nat.pow_lt_pow_right (by decide) (by omega))
  have same := masked_same length base
  refine ⟨?_, ?_⟩
  · rw [sibling, BitVec.toNat_xor, bit, Nat.xor_mod_two_pow, masked_aligned]
    simp
  · intro number
    rw [SameBlock] at same
    rw [SameBlock, SameBlock, SameBlock, sibling, BitVec.toNat_xor, bit,
      Nat.xor_div_two_pow, same, Nat.div_self (Nat.two_pow_pos _),
      eq_xor_one_iff, Nat.pow_succ, Nat.div_div_eq_div_mul, Nat.div_div_eq_div_mul]

/-- Numbers that leave a prefix between two of its lengths leave it at one of
the bits between them. -/
theorem leaves_iff (ordered : shorter ≤ longer) (fits : longer ≤ width) :
    (∃ length, shorter < length ∧ length ≤ longer ∧
      SameBlock (width - length + 1) number base ∧ ¬ SameBlock (width - length) number base) ↔
      SameBlock (width - shorter) number base ∧ ¬ SameBlock (width - longer) number base := by
  constructor
  · rintro ⟨length, lower, upper, agrees, leaves⟩
    exact ⟨agrees.coarser (by omega), fun same => leaves (same.coarser (by omega))⟩
  · rintro ⟨agrees, leaves⟩
    induction longer, ordered using Nat.le_induction with
    | base => exact absurd agrees leaves
    | succ longer ordered induction =>
      by_cases same : SameBlock (width - longer) number base
      · have step : width - (longer + 1) + 1 = width - longer := by omega
        exact ⟨longer + 1, by omega, by omega, step ▸ same, leaves⟩
      · rcases induction (by omega) same with ⟨length, lower, upper, found⟩
        exact ⟨length, lower, by omega, found⟩

end Prefixes

end SameBlock

end WarrenSdk
