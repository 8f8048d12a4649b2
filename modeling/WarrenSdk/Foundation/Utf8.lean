import Mathlib.Data.List.Basic

/-! # Text that may not be UTF-8

Bytes are decoded from the front. A run of bytes that begins a character and
does not finish it, or that begins none, is replaced as a whole, so a byte
beyond ASCII never swallows one of ASCII. -/

namespace WarrenSdk.Utf8

open List

def isAscii (byte : UInt8) : Bool := byte < 0x80

def isContinuation (byte : UInt8) : Bool := 0x80 ≤ byte && byte ≤ 0xbf

/-- What may stand behind the first byte of a longer character: the bounds of
the second one and how many continuations follow it. -/
def follow (first : UInt8) : Option (UInt8 × UInt8 × Nat) :=
  if 0xc2 ≤ first && first ≤ 0xdf then some (0x80, 0xbf, 0)
  else if first = 0xe0 then some (0xa0, 0xbf, 1)
  else if first = 0xed then some (0x80, 0x9f, 1)
  else if 0xe1 ≤ first && first ≤ 0xef then some (0x80, 0xbf, 1)
  else if first = 0xf0 then some (0x90, 0xbf, 2)
  else if 0xf1 ≤ first && first ≤ 0xf3 then some (0x80, 0xbf, 2)
  else if first = 0xf4 then some (0x80, 0x8f, 2)
  else none

/-- How many of the continuations that are due are there, and whether all
are. -/
def continuations : Nat → List UInt8 → Nat × Bool
  | 0, _ => (0, true)
  | _ + 1, [] => (0, false)
  | due + 1, byte :: rest =>
    if isContinuation byte then
      ((continuations due rest).1 + 1, (continuations due rest).2)
    else (0, false)

/-- How many bytes stand behind the first one of a longer character, and whether
they finish it. -/
def behind : Option (UInt8 × UInt8 × Nat) → List UInt8 → Nat × Bool
  | some (low, high, due), second :: rest =>
    if low ≤ second && second ≤ high then
      ((continuations due rest).1 + 1, (continuations due rest).2)
    else (0, false)
  | _, _ => (0, false)

/-- How many bytes belong to the first one, and whether they are a character
together. -/
def character (first : UInt8) (rest : List UInt8) : Nat × Bool :=
  if isAscii first then (0, true) else behind (follow first) rest

def replacement : List UInt8 := [0xef, 0xbf, 0xbd]

def lossyFrom : Nat → List UInt8 → List UInt8
  | 0, _ => []
  | _ + 1, [] => []
  | fuel + 1, first :: rest =>
    (if (character first rest).2 then
      first :: rest.take (character first rest).1
    else replacement) ++ lossyFrom fuel (rest.drop (character first rest).1)

/-- The text that bytes stand for, each ill-formed run of them replaced. -/
def lossy (text : List UInt8) : List UInt8 := lossyFrom text.length text

/-! ## A byte of ASCII is decoded by itself -/

variable {stop : UInt8}

theorem not_isContinuation_of_isAscii (ascii : isAscii stop = true) :
    isContinuation stop = false := by
  simp only [isAscii, decide_eq_true_eq, UInt8.lt_iff_toNat_lt] at ascii
  simp only [isContinuation, Bool.and_eq_false_iff, decide_eq_false_iff_not, UInt8.le_iff_toNat_le]
  left
  exact Nat.not_le.mpr ascii

theorem follow_low (follows : follow first = some (low, high, due)) : 0x80 ≤ low := by
  simp only [follow] at follows
  split_ifs at follows <;> cases follows <;> decide

theorem continuations_append (ascii : isAscii stop = true) (due : Nat) (rest more : List UInt8) :
    continuations due (rest ++ stop :: more) = continuations due rest := by
  induction due generalizing rest with
  | zero => cases rest <;> rfl
  | succ due induction =>
    cases rest with
    | nil => simp [continuations, not_isContinuation_of_isAscii ascii]
    | cons byte rest => simp only [cons_append, continuations, induction]

theorem behind_append (ascii : isAscii stop = true) (first : UInt8) (rest more : List UInt8) :
    behind (follow first) (rest ++ stop :: more) = behind (follow first) rest := by
  cases follows : follow first with
  | none => cases rest <;> rfl
  | some bounds =>
    rcases bounds with ⟨low, high, due⟩
    cases rest with
    | nil =>
      have outside : ¬ low ≤ stop := by
        have below := follow_low follows
        simp only [isAscii, decide_eq_true_eq, UInt8.lt_iff_toNat_lt] at ascii
        rw [UInt8.le_iff_toNat_le] at below ⊢
        omega
      simp [behind, outside]
    | cons second rest => simp only [cons_append, behind, continuations_append ascii]

theorem character_append (ascii : isAscii stop = true) (first : UInt8) (rest more : List UInt8) :
    character first (rest ++ stop :: more) = character first rest := by
  rw [character, character, behind_append ascii]

theorem continuations_le (due : Nat) (rest : List UInt8) :
    (continuations due rest).1 ≤ rest.length := by
  induction due generalizing rest with
  | zero => simp [continuations]
  | succ due induction =>
    cases rest with
    | nil => simp [continuations]
    | cons byte rest =>
      rw [continuations]
      split_ifs
      · exact Nat.succ_le_succ (induction rest)
      · exact Nat.zero_le _

theorem character_le (first : UInt8) (rest : List UInt8) :
    (character first rest).1 ≤ rest.length := by
  rw [character]
  split_ifs
  · exact Nat.zero_le _
  · cases follow first with
    | none => exact Nat.zero_le _
    | some bounds =>
      cases rest with
      | nil => exact Nat.zero_le _
      | cons second rest =>
        rw [behind]
        split_ifs
        · exact Nat.succ_le_succ (continuations_le _ _)
        · exact Nat.zero_le _

/-! ## The whole text -/

theorem lossyFrom_enough (more less : Nat) (enough : text.length ≤ more)
    (also : text.length ≤ less) : lossyFrom more text = lossyFrom less text := by
  induction more generalizing less text with
  | zero =>
    have empty := length_eq_zero_iff.mp (Nat.le_zero.mp enough)
    subst empty
    cases less <;> rfl
  | succ more induction =>
    cases text with
    | nil => cases less <;> rfl
    | cons first rest =>
      cases less with
      | zero => cases also
      | succ less =>
        have shorter := length_drop (l := rest) (i := (character first rest).1)
        rw [length_cons] at enough also
        rw [lossyFrom, lossyFrom, induction less (by omega) (by omega)]

theorem lossy_cons (first : UInt8) (rest : List UInt8) : lossy (first :: rest) =
      (if (character first rest).2 then
        first :: rest.take (character first rest).1
      else replacement) ++ lossy (rest.drop (character first rest).1) := by
  have shorter := length_drop (l := rest) (i := (character first rest).1)
  rw [lossy, length_cons, lossyFrom, lossy,
    lossyFrom_enough rest.length _ (by omega) (Nat.le_refl _)]

/-- A byte of ASCII parts what is before it from what is behind it. -/
theorem lossy_append (ascii : isAscii stop = true) (left right : List UInt8) :
    lossy (left ++ stop :: right) = lossy left ++ stop :: lossy right := by
  -- The text that is left behind a character is shorter.
  induction size : left.length using Nat.strongRecOn generalizing left with
  | ind length induction =>
    cases left with
    | nil =>
      rw [nil_append, lossy_cons, character, if_pos ascii]
      rfl
    | cons first rest =>
      have within := character_le first rest
      have shorter : (rest.drop (character first rest).1).length < length := by
        rw [← size, length_drop, length_cons]
        omega
      rw [cons_append, lossy_cons, lossy_cons, character_append ascii,
        take_append_of_le_length within, drop_append_of_le_length within,
        induction _ shorter _ rfl, append_assoc]

/-- Text in ASCII is what it stands for. -/
theorem lossy_ascii (ascii : ∀ byte ∈ text, isAscii byte = true) : lossy text = text := by
  induction text with
  | nil => rfl
  | cons first rest induction =>
    rw [lossy_cons, character, if_pos (ascii first (.head _))]
    rw [drop_zero, induction fun byte member => ascii byte (.tail _ member)]
    rfl

theorem mem_lossy (ascii : isAscii stop = true) (member : stop ∈ lossy text) : stop ∈ text := by
  induction size : text.length using Nat.strongRecOn generalizing text with
  | ind length induction =>
    cases text with
    | nil => cases member
    | cons first rest =>
      rw [lossy_cons, mem_append] at member
      rcases member with here | later
      · split_ifs at here with complete
        · exact cons_subset_cons first (take_subset _ _) here
        · have beyond : (replacement.all fun byte => !isAscii byte) = true := by decide
          have outside := all_eq_true.mp beyond stop here
          rw [ascii] at outside
          cases outside
      · have shorter := length_drop (l := rest) (i := (character first rest).1)
        rw [length_cons] at size
        exact .tail _ (drop_subset _ _ (induction _ (by omega) later rfl))

/-- The parts between bytes of ASCII are decoded on their own. -/
theorem splitOn_lossy (ascii : isAscii stop = true) (text : List UInt8) :
    (lossy text).splitOn stop = (text.splitOn stop).map lossy := by
  induction size : text.length using Nat.strongRecOn generalizing text with
  | ind length induction =>
    by_cases member : stop ∈ text
    · rcases append_of_mem member with ⟨left, right, rfl⟩
      rw [length_append, length_cons] at size
      rw [lossy_append ascii, splitOn_append_cons_self,
        splitOn_append_cons_self, map_append,
        induction left.length (by omega) left rfl,
        induction right.length (by omega) right rfl]
    · rw [splitOn_eq_singleton member, splitOn_eq_singleton
        (fun inside => member (mem_lossy ascii inside)), map_singleton]

end WarrenSdk.Utf8
