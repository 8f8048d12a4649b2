import Mathlib.Algebra.Group.Nat.Defs
import Mathlib.Logic.Function.Iterate
import Mathlib.Tactic.Common

/-! # Session indexes

The generator walks a 24-bit linear-feedback register and hides its walk behind
a mask. The register is stepped by an injective map, so its walk returns to
where it started before it repeats anything, and the generator stops there. -/

namespace WarrenSdk.Bolthole

def maxIndex : UInt32 := 0x00ffffff

def lfsrPoly : UInt32 := 0x00d80000

def lfsrShift (value : UInt32) : UInt32 := (value >>> 1) ^^^ ((0 - (value &&& 1)) &&& lfsrPoly)

/-! ## The shift -/

theorem lfsrShift_toBitVec (value : UInt32) : (lfsrShift value).toBitVec =
      if value.toBitVec.getLsbD 0 then value.toBitVec >>> 1 ^^^ 0xd80000#32
      else value.toBitVec >>> 1 := by
  have parity : value.toBitVec &&& 1#32 =
      if value.toBitVec.getLsbD 0 then 1#32 else 0#32 := by
    rw [BitVec.and_one_eq_setWidth_ofBool_getLsbD]
    cases value.toBitVec.getLsbD 0 <;> rfl
  have shape : (lfsrShift value).toBitVec = value.toBitVec >>> 1 ^^^
      ((0#32 - (value.toBitVec &&& 1#32)) &&& 0xd80000#32) := rfl
  rw [shape, parity]
  cases value.toBitVec.getLsbD 0 <;> simp

/-- Bit by bit, a shift moves every bit down and adds the taps to an odd
register. -/
theorem lfsrShift_bit (value : UInt32) (position : Nat) :
    (lfsrShift value).toBitVec.getLsbD position = (value.toBitVec.getLsbD (position + 1) ^^
        (value.toBitVec.getLsbD 0 && (0xd80000#32).getLsbD position)) := by
  rw [lfsrShift_toBitVec]
  cases value.toBitVec.getLsbD 0 <;>
    simp [BitVec.getLsbD_xor, BitVec.getLsbD_ushiftRight, Nat.add_comm]

theorem bit_of_le_maxIndex (fits : value ≤ maxIndex) (high : 24 ≤ position) :
    value.toBitVec.getLsbD position = false := by
  have bound : value.toBitVec.toNat < 2 ^ 24 := by
    have := UInt32.le_iff_toNat_le.mp fits
    have : maxIndex.toNat = 2 ^ 24 - 1 := rfl
    simp only [UInt32.toNat_toBitVec]
    omega
  rw [BitVec.getLsbD, Nat.testBit_lt_two_pow]
  exact Nat.lt_of_lt_of_le bound (Nat.pow_le_pow_right (by decide) high)

theorem le_maxIndex_of_bits
    (clear : ∀ position, 24 ≤ position → value.toBitVec.getLsbD position = false) :
    value ≤ maxIndex := by
  have bound : value.toBitVec.toNat < 2 ^ 24 := Nat.lt_pow_two_of_testBit _ clear
  apply UInt32.le_iff_toNat_le.mpr
  have : maxIndex.toNat = 2 ^ 24 - 1 := rfl
  simp only [UInt32.toNat_toBitVec] at bound
  omega

theorem and_maxIndex_le (value : UInt32) : value &&& maxIndex ≤ maxIndex := by
  apply UInt32.le_iff_toNat_le.mpr
  rw [UInt32.toNat_and]
  exact Nat.and_le_right

/-- The top bit of a shifted register tells whether the register was odd. -/
theorem lfsrShift_top (fits : value ≤ maxIndex) :
    (lfsrShift value).toBitVec.getLsbD 23 = value.toBitVec.getLsbD 0 := by
  rw [lfsrShift_bit, bit_of_le_maxIndex fits (by decide)]
  simp

theorem lfsrShift_injective (leftFits : left ≤ maxIndex)
    (rightFits : right ≤ maxIndex) (equal : lfsrShift left = lfsrShift right) :
    left = right := by
  have parity : left.toBitVec.getLsbD 0 = right.toBitVec.getLsbD 0 := by
    rw [← lfsrShift_top leftFits, ← lfsrShift_top rightFits, equal]
  apply UInt32.toBitVec_inj.mp
  apply BitVec.eq_of_getLsbD_eq
  intro position _
  cases position with
  | zero => exact parity
  | succ position =>
    have shifted := congrArg (fun value => value.toBitVec.getLsbD position) equal
    simp only [lfsrShift_bit, parity] at shifted
    exact Bool.xor_left_inj.mp shifted

theorem lfsrShift_le_maxIndex (fits : value ≤ maxIndex) : lfsrShift value ≤ maxIndex := by
  apply le_maxIndex_of_bits
  intro position high
  have untapped : (0xd80000#32).getLsbD position = false := by
    have bound : (0xd80000#32).toNat < 2 ^ position :=
      Nat.lt_of_lt_of_le (show _ < 2 ^ 24 by decide) (Nat.pow_le_pow_right (by decide) high)
    exact Nat.testBit_lt_two_pow bound
  rw [lfsrShift_bit, bit_of_le_maxIndex fits (by omega), untapped]
  simp

theorem lfsrShift_ne_zero (fits : value ≤ maxIndex) (nonzero : value ≠ 0) :
    lfsrShift value ≠ 0 := by
  intro zero
  apply nonzero
  apply lfsrShift_injective fits (by decide)
  rw [zero]
  decide

/-- No register is its own successor. A register that were would have one value
in all of its bits below the lowest tap, and the taps make the bit they end on
clear while an even register only shrinks. -/
theorem lfsrShift_ne_self (fits : value ≤ maxIndex) (nonzero : value ≠ 0) :
    lfsrShift value ≠ value := by
  intro equal
  have bit : ∀ position, value.toBitVec.getLsbD position = (value.toBitVec.getLsbD (position + 1) ^^
        (value.toBitVec.getLsbD 0 && (0xd80000#32).getLsbD position)) := by
    intro position
    have shifted := lfsrShift_bit value position
    rwa [equal] at shifted
  have low : ∀ count, count ≤ 19 → value.toBitVec.getLsbD count = value.toBitVec.getLsbD 0 := by
    intro count
    induction count with
    | zero => intro _; rfl
    | succ count induction =>
      intro bound
      have untapped : ∀ tap < 19, (0xd80000#32).getLsbD tap = false := by decide
      rw [← induction (by omega), bit count, untapped count (by omega)]
      simp
  have even : value.toBitVec.getLsbD 0 = false := by
    have top := bit_of_le_maxIndex fits (show 24 ≤ 24 by decide)
    have reached := low 19 (by decide)
    have tapped : (0xd80000#32).getLsbD 19 = true ∧
        (0xd80000#32).getLsbD 20 = true ∧ (0xd80000#32).getLsbD 21 = false ∧
        (0xd80000#32).getLsbD 22 = true ∧ (0xd80000#32).getLsbD 23 = true := by
      decide
    grind
  have clear : ∀ position, value.toBitVec.getLsbD position = false := by
    intro position
    induction position with
    | zero => exact even
    | succ position induction =>
      have shifted := bit position
      rw [induction, even] at shifted
      simpa using shifted.symm
  apply nonzero
  apply UInt32.toBitVec_inj.mp
  apply BitVec.eq_of_getLsbD_eq
  intro position _
  rw [clear position]
  simp

/-! ## The generator -/

/-- A register in use: it fits the index space and it is not all zero, which is
the one value that a shift never leaves. -/
@[ext]
structure Register where
  bits : UInt32
  nonzero : bits ≠ 0
  fits : bits ≤ maxIndex
  deriving DecidableEq

namespace Register

def shift (register : Register) : Register where
  bits := lfsrShift register.bits
  nonzero := lfsrShift_ne_zero register.fits register.nonzero
  fits := lfsrShift_le_maxIndex register.fits

theorem shift_injective : Function.Injective shift := by
  intro left right equal
  apply Register.ext
  exact lfsrShift_injective left.fits right.fits (congrArg Register.bits equal)

theorem shift_ne_self (register : Register) : register.shift ≠ register := by
  intro equal
  exact lfsrShift_ne_self register.fits register.nonzero (congrArg Register.bits equal)

end Register

/-- A register is a number of shifts from where its walk began, and its walk
has not been back there unless it is exhausted. -/
structure Walk (initial lfsr : Register) (exhausted : Bool) (steps : Nat) : Prop where
  stands : lfsr = Register.shift^[steps] initial
  unreturned : exhausted = false → ∀ count, 0 < count → count ≤ steps →
    Register.shift^[count] initial ≠ initial

theorem Walk.start (initial : Register) : Walk initial initial false 0 where
  stands := rfl
  unreturned := by
    intro _ count positive bound
    omega

theorem Walk.shift (walk : Walk initial lfsr exhausted steps) :
    Walk initial lfsr.shift (exhausted || lfsr.shift = initial) (steps + 1) where
  stands := by
    rw [Function.iterate_succ_apply']
    exact congrArg Register.shift walk.stands
  unreturned := by
    intro running count positive bound
    have parts : exhausted = false ∧ lfsr.shift ≠ initial := by simpa using running
    by_cases last : count = steps + 1
    · subst count
      rw [Function.iterate_succ_apply', ← walk.stands]
      exact parts.2
    · exact walk.unreturned parts.1 count positive (by omega)

/-- A walk that is not exhausted stands where it has not been before. -/
theorem Walk.fresh (walk : Walk initial lfsr false steps) (earlier : count < steps) :
    lfsr ≠ Register.shift^[count] initial := by
  intro same
  rw [walk.stands] at same
  have returned := Function.iterate_cancel Register.shift_injective same
  exact walk.unreturned rfl (steps - count) (by omega) (by omega) returned

structure IndexGen where
  initial : Register
  lfsr : Register
  mask : UInt32
  exhausted : Bool
  maskFits : mask ≤ maxIndex
  walked : ∃ steps, Walk initial lfsr exhausted steps

namespace IndexGen

/-- The seed is forced non-zero, because a zeroed register never leaves zero. -/
def fromSeed (seed mask : UInt32) : IndexGen :=
  let register : Register :=
    if zero : seed &&& maxIndex = 0 then ⟨1, by decide, by decide⟩
    else ⟨seed &&& maxIndex, zero, and_maxIndex_le seed⟩
  { initial := register
    lfsr := register
    mask := mask &&& maxIndex
    exhausted := false
    maskFits := and_maxIndex_le mask
    walked := ⟨0, Walk.start register⟩ }

def indexOf (generator : IndexGen) (register : Register) : UInt32 :=
  (register.bits - 1) ^^^ generator.mask

def advance (generator : IndexGen) : IndexGen where
  initial := generator.initial
  lfsr := generator.lfsr.shift
  mask := generator.mask
  exhausted := generator.exhausted || generator.lfsr.shift = generator.initial
  maskFits := generator.maskFits
  walked := by
    rcases generator.walked with ⟨steps, walk⟩
    exact ⟨steps + 1, walk.shift⟩

theorem indexOf_injective (generator : IndexGen) : Function.Injective generator.indexOf := by
  intro left right equal
  rw [indexOf, indexOf, UInt32.xor_left_inj, UInt32.sub_left_inj] at equal
  exact Register.ext equal

theorem advance_index_ne_zero {generator : IndexGen} (zero : generator.indexOf generator.lfsr = 0) :
    generator.advance.indexOf generator.advance.lfsr ≠ 0 := by
  intro again
  exact generator.lfsr.shift_ne_self (generator.indexOf_injective (again.trans zero.symm))

/-- The next index, or `none` once the walk is spent. Zero is passed over, and
only once: the register moves on. -/
def next (generator : IndexGen) : Option UInt32 × IndexGen :=
  if generator.exhausted then (none, generator)
  else if generator.indexOf generator.lfsr ≠ 0 then
    (some (generator.indexOf generator.lfsr), generator.advance)
  else generator.advance.next
termination_by if generator.indexOf generator.lfsr = 0 then 1 else 0
decreasing_by
  have zero : generator.indexOf generator.lfsr = 0 := by simp_all
  simp [zero, advance_index_ne_zero zero]

example : (fromSeed 0xabcdef 0x123456).next.1 = some 12188088 := by decide +kernel

/-! ## Spent indexes -/

def Spent (generator : IndexGen) (index : UInt32) : Prop :=
  ∃ steps, Walk generator.initial generator.lfsr generator.exhausted steps ∧
    ∃ count, count < steps ∧ index = generator.indexOf (Register.shift^[count] generator.initial)

variable {generator : IndexGen}

theorem Spent.advance (spent : generator.Spent index) : generator.advance.Spent index := by
  rcases spent with ⟨steps, walk, count, earlier, rfl⟩
  exact ⟨steps + 1, walk.shift, count, by omega, rfl⟩

theorem spent_advance (generator : IndexGen) :
    generator.advance.Spent (generator.indexOf generator.lfsr) := by
  rcases generator.walked with ⟨steps, walk⟩
  exact ⟨steps + 1, walk.shift, steps, by omega,
    congrArg generator.indexOf walk.stands⟩

theorem not_spent_of_running (running : generator.exhausted = false) :
    ¬ generator.Spent (generator.indexOf generator.lfsr) := by
  rintro ⟨steps, walk, count, earlier, equal⟩
  rw [running] at walk
  exact walk.fresh earlier (generator.indexOf_injective equal)

/-- Drawing an index only ever adds to what is spent. -/
theorem Spent.next (spent : generator.Spent index) : generator.next.2.Spent index := by
  fun_induction IndexGen.next generator with
  | case1 => exact spent
  | case2 => exact spent.advance
  | case3 _ _ _ induction => exact induction spent.advance

/-- An index that is drawn had never been spent, and it is from then on. -/
theorem next_fresh (drawn : generator.next.1 = some index) :
    ¬ generator.Spent index ∧ generator.next.2.Spent index := by
  fun_induction IndexGen.next generator with
  | case1 => cases drawn
  | case2 generator running =>
    cases drawn
    exact ⟨not_spent_of_running (by simpa using running), generator.spent_advance⟩
  | case3 generator _ _ induction =>
    have later := induction drawn
    exact ⟨fun spent => later.1 spent.advance, later.2⟩

/-! ## Every call -/

/-- The loop of a call with so many iterations to spend: `none` when they run
out, or when one is to be taken from an empty register. -/
def nextWithin : Nat → IndexGen → Option (Option UInt32 × IndexGen)
  | 0, _ => none
  | iterations + 1, generator =>
    if generator.exhausted then some (none, generator)
    else if generator.lfsr.bits = 0 then none
    else if generator.indexOf generator.lfsr ≠ 0 then
      some (some (generator.indexOf generator.lfsr), generator.advance)
    else nextWithin iterations generator.advance

theorem nextWithin_two (generator : IndexGen) :
    nextWithin 2 generator = some generator.next := by
  rw [nextWithin, next]
  by_cases zero : generator.indexOf generator.lfsr = 0
  · rw [nextWithin, next]
    simp only [generator.lfsr.nonzero, generator.advance.lfsr.nonzero, zero,
      advance_index_ne_zero zero, ne_eq, not_true, not_false_eq_true, if_true, if_false]
    cases generator.exhausted <;> cases generator.advance.exhausted <;> rfl
  · simp only [generator.lfsr.nonzero, zero, ne_eq, not_false_eq_true, if_true, if_false]
    cases generator.exhausted <;> rfl

theorem indexOf_le_maxIndex (generator : IndexGen) (register : Register) :
    generator.indexOf register ≤ maxIndex := by
  have positive : (1 : UInt32) ≤ register.bits := by
    apply UInt32.le_iff_toNat_le.mpr
    exact Nat.pos_of_ne_zero fun zero => register.nonzero (UInt32.toNat.inj zero)
  have lowered : register.bits - 1 ≤ maxIndex := by
    have bound := UInt32.le_iff_toNat_le.mp register.fits
    apply UInt32.le_iff_toNat_le.mpr
    rw [UInt32.toNat_sub_of_le _ _ positive]
    omega
  apply le_maxIndex_of_bits
  intro position high
  rw [indexOf, UInt32.toBitVec_xor, BitVec.getLsbD_xor,
    bit_of_le_maxIndex lowered high, bit_of_le_maxIndex generator.maskFits high]
  rfl

theorem next_bounds (drawn : generator.next.1 = some index) : index ≠ 0 ∧ index ≤ maxIndex := by
  fun_induction IndexGen.next generator with
  | case1 => cases drawn
  | case2 generator _ nonzero =>
    cases drawn
    exact ⟨nonzero, generator.indexOf_le_maxIndex generator.lfsr⟩
  | case3 _ _ _ induction => exact induction drawn

theorem next_stays_none (empty : generator.next.1 = none) : generator.next.2.next.1 = none := by
  fun_induction IndexGen.next generator with
  | case1 generator exhausted => rw [IndexGen.next, if_pos exhausted]
  | case2 => cases empty
  | case3 _ _ _ induction => exact induction empty

def after (generator : IndexGen) (calls : Nat) : IndexGen :=
  (fun generator : IndexGen => generator.next.2)^[calls] generator

theorem after_succ (generator : IndexGen) (calls : Nat) :
    generator.after (calls + 1) = (generator.after calls).next.2 :=
  Function.iterate_succ_apply' _ _ _

theorem spent_after (earlier : call < later) (drawn : (generator.after call).next.1 = some index) :
    (generator.after later).Spent index := by
  induction earlier with
  | refl =>
    rw [after_succ]
    exact (next_fresh drawn).2
  | step _ induction =>
    rw [after_succ]
    exact induction.next

theorem none_after (earlier : call ≤ later) (empty : (generator.after call).next.1 = none) :
    (generator.after later).next.1 = none := by
  induction earlier with
  | refl => exact empty
  | step _ induction =>
    rw [after_succ]
    exact next_stays_none induction

/-- Every call ends within two iterations. What the calls draw is distinct and
fits the index space, and the first call that draws nothing is the end. -/
theorem draws_sound (seed mask : UInt32) :
    let state := (fromSeed seed mask).after
    (∀ call, nextWithin 2 (state call) = some (state call).next) ∧
    (∀ call index, (state call).next.1 = some index → index ≠ 0 ∧ index ≤ 0xffffff) ∧
    (∀ call later index, call < later →
      (state call).next.1 = some index → (state later).next.1 ≠ some index) ∧
    ∀ call later, call ≤ later → (state call).next.1 = none → (state later).next.1 = none := by
  refine ⟨fun call => nextWithin_two _, fun call index => next_bounds, ?_,
    fun call later => none_after⟩
  intro call later index earlier drawn again
  exact (next_fresh again).1 (spent_after earlier drawn)

end IndexGen

end WarrenSdk.Bolthole
