import Mathlib.Data.List.DropRight
import Mathlib.Tactic.Common

/-! # Text

Text is a list of letters of any alphabet: trimming, splitting and the lines of
a file, and when they give back what was put together. -/

namespace WarrenSdk.Text

open List Option

variable {Letter : Type}

/-! ## Trimming -/

def trim (blank : Letter → Bool) (text : List Letter) : List Letter :=
  (text.dropWhile blank).rdropWhile blank

/-- A text that neither begins nor ends with a blank. -/
structure Bare (blank : Letter → Bool) (text : List Letter) : Prop where
  first : ∀ letter, text.head? = some letter → blank letter = false
  last : ∀ letter, text.getLast? = some letter → blank letter = false

variable {blank : Letter → Bool} {text : List Letter} {letter : Letter}

theorem Bare.of_all (none : ∀ letter ∈ text, blank letter = false) : Bare blank text where
  first := fun letter found => none letter (mem_of_head? found)
  last := fun letter found => none letter (mem_of_getLast? found)

theorem Bare.append (before : Bare blank left) (after : Bare blank right)
    (some : left ≠ []) (more : right ≠ []) : Bare blank (left ++ middle ++ right) where
  first := by
    intro letter found
    rw [append_assoc, List.head?_append_of_ne_nil _ some] at found
    exact before.first letter found
  last := by
    intro letter found
    rw [List.getLast?_append_of_ne_nil _ more] at found
    exact after.last letter found

theorem Bare.rdropWhile (bare : Bare blank text) : text.rdropWhile blank = text := by
  rw [rdropWhile_eq_self_iff]
  intro nonempty
  simp [bare.last _ (List.getLast?_eq_getLast_of_ne_nil nonempty)]

theorem trim_bare (bare : Bare blank text) : trim blank text = text := by
  have front : text.dropWhile blank = text := by
    cases text with
    | nil => rfl
    | cons letter rest =>
      rw [dropWhile_cons_of_neg]
      simp [bare.first letter rfl]
  rw [trim, front, bare.rdropWhile]

theorem trim_concat (bare : Bare blank text) (nonempty : text ≠ [])
    (isBlank : blank letter = true) : trim blank (text ++ [letter]) = text := by
  have front : (text ++ [letter]).dropWhile blank = text ++ [letter] := by
    cases text with
    | nil => exact absurd rfl nonempty
    | cons first rest =>
      rw [cons_append, dropWhile_cons_of_neg]
      simp [bare.first first rfl]
  rw [trim, front, rdropWhile_concat_pos _ _ _ isBlank, bare.rdropWhile]

theorem trim_cons (isBlank : blank letter = true) (text : List Letter) :
    trim blank (letter :: text) = trim blank text := by
  rw [trim, trim, dropWhile_cons_of_pos isBlank]

/-- Nothing but blanks is trimmed. -/
theorem trim_parts (blank : Letter → Bool) (text : List Letter) :
    ∃ front back, text = front ++ trim blank text ++ back ∧
      (∀ letter ∈ front, blank letter = true) ∧ ∀ letter ∈ back, blank letter = true := by
  refine ⟨text.takeWhile blank, (text.dropWhile blank).rtakeWhile blank, ?_, ?_, ?_⟩
  · rw [trim, append_assoc, rdropWhile_append_rtakeWhile, takeWhile_append_dropWhile]
  · exact fun letter member => mem_takeWhile_imp member
  · exact fun letter member => mem_rtakeWhile_imp member

theorem dropWhile_congr (same : ∀ letter ∈ text, blank letter = other letter) :
    text.dropWhile blank = text.dropWhile other := by
  induction text with
  | nil => rfl
  | cons letter rest induction =>
    rw [dropWhile_cons, dropWhile_cons, same letter (.head _),
      induction fun other member => same other (.tail _ member)]

theorem trim_congr (same : ∀ letter ∈ text, blank letter = other letter) :
    trim blank text = trim other text := by
  rw [trim, trim, dropWhile_congr same, List.rdropWhile, List.rdropWhile]
  congr 1
  apply dropWhile_congr
  intro letter member
  apply same
  exact (dropWhile_sublist _).subset (mem_reverse.mp member)

/-! ## Splitting -/

section Splitting

variable [DecidableEq Letter]

def splitOnce (separator : Letter) : List Letter → Option (List Letter × List Letter)
  | [] => none
  | letter :: rest =>
    if letter = separator then some ([], rest)
    else (splitOnce separator rest).map fun parts => (letter :: parts.1, parts.2)

variable {separator first second : Letter} {before text after : List Letter}

theorem splitOnce_append (absent : separator ∉ before) (after : List Letter) :
    splitOnce separator (before ++ separator :: after) = some (before, after) := by
  induction before with
  | nil => simp [splitOnce]
  | cons letter before induction =>
    rw [mem_cons, not_or] at absent
    rw [cons_append, splitOnce, if_neg (Ne.symm absent.1), induction absent.2]
    rfl

theorem splitOnce_eq_some (found : splitOnce separator text = some (before, after)) :
    text = before ++ separator :: after ∧ separator ∉ before := by
  induction text generalizing before with
  | nil => cases found
  | cons letter text induction =>
    rw [splitOnce] at found
    split_ifs at found with here
    · cases found
      exact ⟨by rw [here]; rfl, not_mem_nil⟩
    · rcases map_eq_some_iff.mp found with ⟨⟨start, rest⟩, later, same⟩
      cases same
      rcases induction later with ⟨rfl, absent⟩
      exact ⟨rfl, not_mem_cons_of_ne_of_not_mem (Ne.symm here) absent⟩

theorem splitOnce_eq_none (none : splitOnce separator text = none) : separator ∉ text := by
  induction text with
  | nil => exact not_mem_nil
  | cons letter text induction =>
    rw [splitOnce] at none
    split_ifs at none with here
    rw [map_eq_none_iff] at none
    exact not_mem_cons_of_ne_of_not_mem (Ne.symm here) (induction none)

def splitOncePair (first second : Letter) : List Letter → Option (List Letter × List Letter)
  | letter :: next :: rest =>
    if letter = first ∧ next = second then some ([], rest)
    else (splitOncePair first second (next :: rest)).map fun parts => (letter :: parts.1, parts.2)
  | _ => none

theorem splitOncePair_eq_some (found : splitOncePair first second text = some (before, after)) :
    text = before ++ first :: second :: after := by
  induction text using splitOncePair.induct first second generalizing before with
  | case1 letter next rest here =>
    rw [splitOncePair, if_pos here] at found
    cases found
    rw [here.1, here.2]
    rfl
  | case2 letter next rest later induction =>
    rw [splitOncePair, if_neg later] at found
    rcases map_eq_some_iff.mp found with ⟨⟨start, more⟩, rest, same⟩
    cases same
    rw [induction rest]
    rfl
  | case3 text short =>
    rw [splitOncePair.eq_2 _ _ _ short] at found
    cases found

theorem splitOncePair_eq_none (absent : first ∉ text) :
    splitOncePair first second text = none := by
  induction text using splitOncePair.induct first second with
  | case1 letter next rest here => exact absurd (here.1 ▸ mem_cons_self) absent
  | case2 letter next rest later induction =>
    rw [splitOncePair, if_neg later, induction fun member => absent (.tail _ member)]
    rfl
  | case3 text short => rw [splitOncePair.eq_2 _ _ _ short]

/-- Two letters that a text does not have are only found behind it if its last
letter is the first of them. -/
theorem splitOncePair_append (none : splitOncePair first second text = none)
    (absent : first ∉ second :: more)
    (found : splitOncePair first second (text ++ second :: more) = some (before, after)) :
    text = before ++ [first] ∧ after = more := by
  induction text using splitOncePair.induct first second generalizing before with
  | case1 letter next rest here =>
    rw [splitOncePair, if_pos here] at none
    cases none
  | case2 letter next rest later induction =>
    rw [splitOncePair, if_neg later, map_eq_none_iff] at none
    rw [cons_append, cons_append, splitOncePair, if_neg later] at found
    rcases map_eq_some_iff.mp found with ⟨⟨start, rest⟩, later, same⟩
    cases same
    rcases induction none later with ⟨shape, rfl⟩
    exact ⟨by rw [shape]; rfl, rfl⟩
  | case3 text short =>
    rcases text with - | ⟨letter, - | ⟨next, rest⟩⟩
    · rw [nil_append, splitOncePair_eq_none absent] at found
      cases found
    · rw [cons_append, nil_append, splitOncePair] at found
      split_ifs at found with here
      · cases found
        exact ⟨by rw [here.1]; rfl, rfl⟩
      · rw [splitOncePair_eq_none absent] at found
        cases found
    · exact absurd rfl (short letter next rest)

def splitPair (first second : Letter) : List Letter → List (List Letter)
  | [] => [[]]
  | [letter] => [[letter]]
  | letter :: next :: rest =>
    if letter = first ∧ next = second then [] :: splitPair first second rest
    else
      match splitPair first second (next :: rest) with
      | [] => [[letter]]
      | part :: parts => (letter :: part) :: parts

def joinPair (first second : Letter) (lines : List (List Letter)) : List Letter :=
  lines.flatMap fun line => line ++ [first, second]

theorem splitPair_line (clear : first ∉ line) (rest : List Letter) :
    splitPair first second (line ++ first :: second :: rest) =
      line :: splitPair first second rest := by
  induction line with
  | nil => rw [nil_append, splitPair, if_pos ⟨rfl, rfl⟩]
  | cons letter line induction =>
    rw [mem_cons, not_or] at clear
    have step := induction clear.2
    rcases exists_cons_of_ne_nil (append_ne_nil_of_right_ne_nil line (cons_ne_nil first
        (second :: rest))) with ⟨next, more, shape⟩
    rw [cons_append]
    rw [shape] at step ⊢
    rw [splitPair, if_neg (fun here => clear.1 here.1.symm), step]

/-- Lines are split as they were joined; what follows the last end is empty. -/
theorem splitPair_joinPair (clear : ∀ line ∈ lines, first ∉ line) :
    splitPair first second (joinPair first second lines) = lines ++ [[]] := by
  induction lines with
  | nil => rfl
  | cons line lines induction =>
    have rest := induction fun other member => clear other (.tail _ member)
    rw [joinPair, flatMap_cons, append_assoc]
    change splitPair first second (line ++ first :: second :: joinPair first second lines) = _
    rw [splitPair_line (clear line (.head _)), rest]
    rfl

end Splitting

/-- Joined texts hold nothing but their own letters and the separator's. -/
theorem mem_intercalate {separator : List Letter} (member : letter ∈ separator.intercalate parts) :
    letter ∈ separator ∨ ∃ part ∈ parts, letter ∈ part := by
  induction parts with
  | nil => cases member
  | cons part parts induction =>
    cases parts with
    | nil =>
      rw [intercalate_singleton] at member
      exact .inr ⟨part, .head _, member⟩
    | cons next parts =>
      rw [intercalate_cons_cons, mem_append, mem_append] at member
      rcases member with (here | between) | later
      · exact .inr ⟨part, .head _, here⟩
      · exact .inl between
      · rcases induction later with between | ⟨other, found, inside⟩
        · exact .inl between
        · exact .inr ⟨other, .tail _ found, inside⟩

theorem mem_intercalate_of_mem (separator : List Letter) (listed : part ∈ parts)
    (inside : letter ∈ part) : letter ∈ separator.intercalate parts := by
  induction parts with
  | nil => cases listed
  | cons first parts induction =>
    cases parts with
    | nil =>
      rw [intercalate_singleton]
      rwa [mem_singleton.mp listed] at inside
    | cons next parts =>
      rw [intercalate_cons_cons, mem_append, mem_append]
      rcases mem_cons.mp listed with rfl | later
      · exact .inl (.inl inside)
      · exact .inr (induction later)

theorem mem_of_mem_splitOn [DecidableEq Letter]
    (listed : part ∈ text.splitOn separator) (inside : letter ∈ part) : letter ∈ text := by
  have joined := mem_intercalate_of_mem [separator] listed inside
  rwa [intercalate_splitOn] at joined

theorem intercalate_cons_head (separator : List Letter) (letter : Letter)
    (first : List Letter) (rest : List (List Letter)) :
    separator.intercalate ((letter :: first) :: rest) =
      letter :: separator.intercalate (first :: rest) := by
  cases rest with
  | nil => simp only [intercalate_singleton]
  | cons next rest => simp only [intercalate_cons_cons, cons_append]

/-- A separator of two letters leaves its second one to the text behind it. -/
theorem intercalate_pair (separator letter : Letter) (first : List Letter)
    (rest : List (List Letter)) : [separator, letter].intercalate (first :: rest) =
      [separator].intercalate (first :: rest.map (letter :: ·)) := by
  induction rest generalizing first with
  | nil => simp only [map_nil, intercalate_singleton]
  | cons next rest induction =>
    rw [map_cons, intercalate_cons_cons, intercalate_cons_cons, intercalate_cons_head, induction]
    simp

/-! ## Lines -/

def stripReturn (line : List Char) : List Char :=
  if line.getLast? = some '\r' then line.dropLast else line

/-- The lines of a text, behind what was already read of the first one. -/
def linesFrom (read : List Char) : List Char → List (List Char)
  | [] => if read = [] then [] else [read]
  | letter :: rest =>
    if letter = '\n' then stripReturn read :: linesFrom [] rest
    else linesFrom (read ++ [letter]) rest

/-- The lines of a text; the last one may be without its end. -/
def lines (text : List Char) : List (List Char) := linesFrom [] text

def unlines (written : List (List Char)) : List Char := written.flatMap fun line => line ++ ['\n']

theorem linesFrom_line (single : '\n' ∉ line) (read rest : List Char) :
    linesFrom read (line ++ '\n' :: rest) = stripReturn (read ++ line) :: linesFrom [] rest := by
  induction line generalizing read with
  | nil => simp [linesFrom]
  | cons letter line induction =>
    rw [mem_cons, not_or] at single
    rw [cons_append, linesFrom, if_neg (Ne.symm single.1), induction single.2]
    simp

theorem lines_unlines (single : ∀ line ∈ written, '\n' ∉ line)
    (plain : ∀ line ∈ written, line.getLast? ≠ some '\r') : lines (unlines written) = written := by
  induction written with
  | nil => rfl
  | cons line written induction =>
    have here := linesFrom_line (single line (.head _)) [] (unlines written)
    have rest := induction (fun other member => single other (.tail _ member))
      fun other member => plain other (.tail _ member)
    rw [lines] at rest
    rw [lines, unlines, flatMap_cons, append_assoc]
    change linesFrom [] (line ++ '\n' :: unlines written) = _
    rw [here, rest, nil_append, stripReturn, if_neg (plain line (.head _))]

end WarrenSdk.Text
