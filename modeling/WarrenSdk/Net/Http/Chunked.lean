import WarrenSdk.Net.Http.Message

/-! # Framed bodies

What the bytes of a body are by its framing, and what is relayed of them: all
but the trailer fields of a chunked body. A framed body is a code: no stream
begins with two of them. -/

namespace WarrenSdk.Http

open List

/-- The longest line of a chunked body, its end included, and the most bytes of
trailer fields. -/
def maxChunkLine : Nat := 4 * 1024

def isHexDigit (byte : UInt8) : Bool :=
  isDigit byte || (0x41 ≤ byte && byte ≤ 0x46) || (0x61 ≤ byte && byte ≤ 0x66)

def hexDigitValue (byte : UInt8) : Nat :=
  if isDigit byte then byte.toNat - 0x30 else (toLower byte).toNat - 0x57

def hexValue (digits : List UInt8) : Nat :=
  digits.foldl (fun value digit => value * 16 + hexDigitValue digit) 0

def isAsciiWhitespace (byte : UInt8) : Bool :=
  byte = space || byte = tab || byte = lf || byte = 0x0c || byte = cr

/-- The size that a line declares: digits, then extensions if there are any. -/
def chunkSize (line : List UInt8) : Option Nat :=
  let digits := line.takeWhile isHexDigit
  let rest := line.dropWhile isHexDigit
  let extension := (rest.dropWhile isAsciiWhitespace).head? = some 0x3b
  if digits = [] || 15 < digits.length || !(rest = [] || extension) then none
  else some (hexValue digits)

/-- The text of a line that ends in CRLF and has no other return in it. -/
def lineText (line : List UInt8) : Option (List UInt8) :=
  let text := line.dropLast.dropLast
  if line = text ++ crlf && cr ∉ text then some text else none

/-! ## The grammar -/

structure Line (text line : List UInt8) : Prop where
  ended : line = text ++ crlf
  noReturn : cr ∉ text
  noFeed : lf ∉ text
  short : line.length ≤ maxChunkLine

structure SizeLine (size : Nat) (text line : List UInt8) : Prop
    extends Line text line where
  size : chunkSize text = some size

/-- A chunk of data, with the line before it. -/
inductive Chunk : List UInt8 → Prop
  | mk {size : Nat} {text line data : List UInt8}
      (sized : SizeLine size text line) (positive : 0 < size)
      (length : data.length = size) : Chunk (line ++ data ++ crlf)

def Chunks (bytes : List UInt8) : Prop :=
  ∃ parts : List (List UInt8), (∀ part ∈ parts, Chunk part) ∧ bytes = parts.flatten

def TrailerLines (bytes : List UInt8) : Prop :=
  ∃ lines : List (List UInt8), (∀ line ∈ lines, ∃ text, Line text line ∧ text ≠ []) ∧
      bytes = lines.flatten

/-- The bytes of a body and those that are relayed of them. -/
inductive Framed : BodyLength → List UInt8 → List UInt8 → Prop
  | none : Framed .none [] []
  | exactly {length : Nat} {bytes : List UInt8}
      (whole : bytes.length = length) : Framed (.exactly length) bytes bytes
  | chunked {chunks text line trailers : List UInt8} (complete : Chunks chunks)
      (last : SizeLine 0 text line) (fields : TrailerLines trailers)
      (few : trailers.length ≤ maxChunkLine) : Framed .chunked (chunks ++ line ++ trailers ++ crlf)
        (chunks ++ line ++ crlf)

variable {after read : List UInt8}

theorem append_eq_append_of_length (same : left ++ behind = right ++ after)
    (later : right.length = left.length + more) :
    ∃ between, between.length = more ∧ right = left ++ between ∧ behind = between ++ after := by
  have start : left <+: right := by
    apply prefix_of_prefix_length_le (prefix_append left behind)
    · rw [same]
      exact prefix_append right after
    · omega
  rcases start with ⟨between, rfl⟩
  rw [append_assoc] at same
  refine ⟨between, ?_, rfl, append_cancel_left same⟩
  rw [length_append] at later
  omega

/-! ## Lines -/

theorem lineText_eq_some : lineText line = some text ↔ line = text ++ crlf ∧ cr ∉ text := by
  rw [lineText]
  constructor
  · intro found
    split_ifs at found with shape
    cases found
    simpa using shape
  · intro shape
    rcases shape with ⟨rfl, absent⟩
    have text_ : (text ++ crlf).dropLast.dropLast = text := by
      simp [crlf, dropLast_append_of_ne_nil]
    rw [text_, if_pos]
    simpa using absent

/-- A stream begins with one line at most. -/
theorem Line.unique (left : Line text line) (right : Line text' line')
    (same : line ++ after = line' ++ after') : text = text' ∧ line = line' ∧ after = after' := by
  have split : ∀ {text line : List UInt8}, Line text line →
      ∀ after, Text.splitOnce cr (line ++ after) = some (text, lf :: after) := by
    intro text line ends after
    rw [ends.ended, append_assoc]
    exact Text.splitOnce_append ends.noReturn (lf :: after)
  have parts := split left after
  rw [same, split right after'] at parts
  cases parts
  exact ⟨rfl, left.ended.trans right.ended.symm, rfl⟩

/-- What was read of a line is shorter than the line while it has no end. -/
theorem Line.longer (ended : Line text line) (noFeed : lf ∉ read)
    (same : read ++ behind = line ++ after) : read.length < line.length := by
  by_contra long
  rw [not_lt] at long
  rcases append_eq_append_of_length same.symm
    (Nat.add_sub_of_le long).symm with ⟨between, _, rfl, _⟩
  apply noFeed
  simp [ended.ended, crlf]

/-- What was read of a line is all of it once it has its end, or is as long as a
line can be. -/
theorem Line.reached (ended : Line text line) (nonempty : read ≠ []) (inner : lf ∉ read.dropLast)
    (complete : read.getLast? = some lf ∨ maxChunkLine ≤ read.length)
    (same : read ++ behind = line ++ after) : read = line := by
  have longer : read.dropLast.length < line.length := by
    have cut : read.dropLast ++ ([read.getLast nonempty] ++ behind) = line ++ after := by
      rw [← append_assoc, dropLast_append_getLast, same]
    exact ended.longer inner cut
  rw [length_dropLast] at longer
  rcases append_eq_append_of_length same
    (Nat.add_sub_of_le (by omega)).symm with ⟨between, _, whole, _⟩
  rcases eq_nil_or_concat' between with rfl | ⟨front, last, rfl⟩
  · rw [whole, append_nil]
  · exfalso
    have length := ended.short
    rcases complete with feed | long
    · -- The end of the line would stand before its last byte.
      rw [ended.ended, crlf, ← append_assoc] at whole
      have ends : (text ++ [cr]) ++ [lf] = (read ++ front) ++ [last] := by simpa using whole
      have early := append_inj_left' ends rfl
      have member : lf ∈ text ++ [cr] := by
        rw [early]
        exact mem_append_left _ (mem_of_getLast? feed)
      rcases mem_append.mp member with inside | outside
      · exact ended.noFeed inside
      · revert outside
        decide
    · simp only [whole, length_append, length_singleton] at length
      omega

theorem SizeLine.unique {size : Nat} (left : SizeLine size text line)
    (right : SizeLine size' text' line') (same : line ++ after = line' ++ after') :
    size = size' ∧ line = line' ∧ after = after' := by
  rcases left.toLine.unique right.toLine same with ⟨rfl, lines, rest⟩
  have sizes := left.size.symm.trans right.size
  cases sizes
  exact ⟨rfl, lines, rest⟩

/-! ## Chunks -/

theorem SizeLine.chunk {size : Nat} (sized : SizeLine size text line)
    (chunk : Chunk part) (same : line ++ after = part ++ after') :
    0 < size ∧ ∃ data, data.length = size ∧ part = line ++ data ++ crlf ∧
      after = data ++ crlf ++ after' := by
  cases chunk with
  | mk other positive length =>
    rw [append_assoc, append_assoc] at same
    rcases sized.unique other same with ⟨rfl, rfl, rfl⟩
    exact ⟨positive, _, length, rfl, by rw [append_assoc]⟩

theorem Chunks.nil : Chunks [] := ⟨[], by simp, rfl⟩

theorem Chunks.append (chunks : Chunks bytes) (chunk : Chunk part) : Chunks (bytes ++ part) := by
  rcases chunks with ⟨parts, complete, rfl⟩
  refine ⟨parts ++ [part], ?_, by simp⟩
  intro other member
  rcases mem_append.mp member with member | member
  · exact complete other member
  · rw [mem_singleton.mp member]
    exact chunk

/-! ## Trailer fields -/

theorem TrailerLines.nil : TrailerLines [] := ⟨[], by simp, rfl⟩

theorem TrailerLines.append (fields : TrailerLines bytes)
    (ended : Line text line) (nonempty : text ≠ []) : TrailerLines (bytes ++ line) := by
  rcases fields with ⟨lines, complete, rfl⟩
  refine ⟨lines ++ [line], ?_, by simp⟩
  intro other member
  rcases mem_append.mp member with member | member
  · exact complete other member
  · rw [mem_singleton.mp member]
    exact ⟨text, ended, nonempty⟩

theorem TrailerLines.eq_nil_or_line (fields : TrailerLines bytes) :
    bytes = [] ∨ ∃ text line more, Line text line ∧ text ≠ [] ∧
      bytes = line ++ more ∧ TrailerLines more := by
  rcases fields with ⟨lines, complete, rfl⟩
  cases lines with
  | nil => exact .inl rfl
  | cons line lines =>
    rcases complete line (.head _) with ⟨text, ended, nonempty⟩
    exact .inr ⟨text, line, lines.flatten, ended, nonempty, rfl, lines,
      fun other member => complete other (.tail _ member), rfl⟩

theorem Line.empty : Line [] crlf := ⟨rfl, not_mem_nil, not_mem_nil, by decide⟩

/-- A stream whose trailer fields end in an empty line holds the ones that were
read of it. -/
theorem TrailerLines.within (left : TrailerLines read) (right : TrailerLines fields)
    (same : read ++ after = fields ++ (crlf ++ after')) :
    ∃ more, TrailerLines more ∧ fields = read ++ more ∧ after = more ++ (crlf ++ after') := by
  rcases left with ⟨lines, complete, rfl⟩
  induction lines generalizing fields with
  | nil => exact ⟨fields, right, rfl, same⟩
  | cons line lines induction =>
    rcases complete line (.head _) with ⟨text, ended, nonempty⟩
    rw [flatten_cons, append_assoc] at same
    rcases right.eq_nil_or_line with rfl | ⟨text', line', behind, ended', _, rfl, others⟩
    · rcases ended.unique .empty same with ⟨rfl, _⟩
      exact absurd rfl nonempty
    · rw [append_assoc] at same
      rcases ended.unique ended' same with ⟨_, rfl, rest⟩
      rcases induction others (fun other member => complete other (.tail _ member)) rest with
        ⟨more, left, rfl, after⟩
      exact ⟨more, left, by simp, after⟩

/-! ## Framed bodies -/

/-- The first line of a chunked body and what follows it: the trailer fields or
a chunk's data and another chunked body. -/
theorem Framed.first_line (framed : Framed .chunked input output) :
    ∃ size text line after sent, SizeLine size text line ∧
      input = line ++ after ∧ output = line ++ sent ∧
      ((size = 0 ∧ sent = crlf ∧ ∃ trailers, TrailerLines trailers ∧
          trailers.length ≤ maxChunkLine ∧ after = trailers ++ crlf) ∨
        (0 < size ∧ ∃ data input output, data.length = size ∧ Framed .chunked input output ∧
          after = data ++ (crlf ++ input) ∧ sent = data ++ (crlf ++ output))) := by
  cases framed with
  | chunked complete last fields few =>
    rename_i chunks text line trailers
    rcases complete with ⟨parts, complete, rfl⟩
    cases parts with
    | nil =>
      exact ⟨0, text, line, trailers ++ crlf, crlf, last, by simp, by simp,
        .inl ⟨rfl, rfl, trailers, fields, few, rfl⟩⟩
    | cons part parts =>
      have chunk := complete part (.head _)
      cases chunk with
      | mk sized positive length =>
        rename_i size text' line' data
        have rest : Framed .chunked (parts.flatten ++ line ++ trailers ++ crlf)
            (parts.flatten ++ line ++ crlf) :=
          .chunked ⟨parts, fun other member => complete other (.tail _ member),
            rfl⟩ last fields few
        refine ⟨size, text', line', data ++ (crlf ++ _), data ++ (crlf ++ _), sized, ?_, ?_,
          .inr ⟨positive, data, _, _, length, rest, rfl, rfl⟩⟩
        · simp
        · simp

theorem Framed.drop_chunk (framed : Framed .chunked input output)
    (chunk : Chunk part) (same : part ++ after = input ++ rest) :
    ∃ input' output', Framed .chunked input' output' ∧
      input = part ++ input' ∧ output = part ++ output' ∧ after = input' ++ rest := by
  rcases framed.first_line with ⟨size, text, line, behind, sent, sized, rfl, rfl, next⟩
  rw [append_assoc] at same
  rcases sized.chunk chunk same.symm with ⟨positive, data, length, rfl, shape⟩
  rcases next with ⟨rfl, _⟩ | ⟨_, data', input', output', length', framed', rfl, rfl⟩
  · exact absurd positive (by decide)
  · simp only [append_assoc] at shape
    rcases append_inj shape (length'.trans length.symm) with ⟨rfl, ends⟩
    refine ⟨input', output', framed', by simp, by simp, ?_⟩
    exact (append_cancel_left ends).symm

theorem Framed.drop_chunks (framed : Framed .chunked input output)
    (read : Chunks chunks) (same : chunks ++ after = input ++ rest) :
    ∃ input' output', Framed .chunked input' output' ∧
      input = chunks ++ input' ∧ output = chunks ++ output' ∧ after = input' ++ rest := by
  rcases read with ⟨parts, complete, rfl⟩
  induction parts generalizing input output with
  | nil => exact ⟨input, output, framed, rfl, rfl, same⟩
  | cons part parts induction =>
    rw [flatten_cons, append_assoc] at same
    rcases framed.drop_chunk (complete part (.head _)) same with
      ⟨input', output', framed', rfl, rfl, same⟩
    rcases induction framed' (fun other member => complete other (.tail _ member)) same with
      ⟨last, relayed, framed'', rfl, rfl, after⟩
    exact ⟨last, relayed, framed'', by simp, by simp, after⟩

theorem SizeLine.zero : SizeLine 0 (ascii "0") (ascii "0" ++ crlf) where
  ended := rfl
  noReturn := by decide
  noFeed := by decide
  short := by decide
  size := by decide

/-- Complete chunks are the beginning of a framed body. -/
theorem Chunks.framed (complete : Chunks chunks) :
    Framed .chunked (chunks ++ (ascii "0" ++ crlf) ++ [] ++ crlf)
      (chunks ++ (ascii "0" ++ crlf) ++ crlf) :=
  .chunked complete .zero .nil (by decide)

/-- There is a body of every framing that a request can have. -/
theorem Framed.exists (ends : body ≠ .untilClose) : ∃ input output, Framed body input output := by
  cases body with
  | none => exact ⟨_, _, .none⟩
  | exactly length => exact ⟨_, _, .exactly (length_replicate (a := 0))⟩
  | chunked => exact ⟨_, _, Chunks.nil.framed⟩
  | untilClose => exact absurd rfl ends

/-- A stream begins with one framed body at most. -/
theorem Framed.unique {body : BodyLength} (left : Framed body input output)
    (right : Framed body input' output') (same : input ++ rest = input' ++ rest') :
    input = input' ∧ output = output' := by
  cases left with
  | none =>
    cases right
    exact ⟨rfl, rfl⟩
  | exactly whole =>
    cases right with
    | exactly whole' =>
      rcases append_inj same (whole.trans whole'.symm) with ⟨rfl, _⟩
      exact ⟨rfl, rfl⟩
  | chunked complete last fields few =>
    rename_i chunks text line trailers
    simp only [append_assoc] at same
    rcases right.drop_chunks complete same with ⟨input, output, framed, rfl, rfl, behind⟩
    rcases framed.first_line with ⟨size, text', line', after, sent, sized, rfl, rfl, next⟩
    rw [append_assoc] at behind
    rcases last.unique sized behind with ⟨rfl, rfl, trailing⟩
    rcases next with ⟨_, rfl, trailers', fields', _, rfl⟩ | ⟨positive, _⟩
    · rw [append_assoc] at trailing
      rcases fields.within fields' trailing with ⟨more, others, rfl, ends⟩
      rcases others.eq_nil_or_line with rfl | ⟨text'', line'', more', ended, nonempty, rfl, _⟩
      · simp
      · rw [append_assoc] at ends
        rcases ended.unique .empty ends.symm with ⟨rfl, _⟩
        exact absurd rfl nonempty
    · exact absurd positive (by decide)

end WarrenSdk.Http
