import WarrenSdk.Net.Http.Response
import WarrenSdk.Net.Http.Rewrite

/-! # A rewritten response is read in one way

What the client gets is a head that the rules of HTTP/1.1 read in one way only,
and, with one exception, with a body as long as the one that the proxy relays.
The exception is a list of codings that ends in an empty element. -/

namespace WarrenSdk.Net

open Http List Option

/-! ## The origin's lines -/

variable {fields : List ClientField} {field : ClientField}

theorem isAsciiWhitespace_of_clean :
    isForbiddenControl byte = false → isAsciiWhitespace byte = isBlank byte := by
  revert byte
  apply forall_byte
  decide +kernel

theorem readOriginField_eq (clean : ∀ byte ∈ line, isForbiddenControl byte = false) :
    readOriginField line = readField line := by
  rw [readOriginField, readField]
  cases parts : Text.splitOnce colon line with
  | none => rfl
  | some pair =>
    rcases Text.splitOnce_eq_some parts with ⟨shape, _⟩
    have blanks : ∀ byte ∈ pair.2, isAsciiWhitespace byte = isBlank byte := by
      intro byte member
      apply isAsciiWhitespace_of_clean
      apply clean
      simp [shape, member]
    dsimp only
    rw [Text.trim_congr blanks]

theorem mapM_readOriginField {lines : List (List UInt8)}
    (clean : ∀ line ∈ lines, ∀ byte ∈ line, isForbiddenControl byte = false) :
    lines.mapM readOriginField = lines.mapM readField := by
  induction lines with
  | nil => rfl
  | cons line lines induction =>
    rw [mapM_cons, mapM_cons, readOriginField_eq (clean line (.head _)),
      induction fun other member => clean other (.tail _ member)]

/-! ## What an accepted head goes through -/

/-- The status line and the fields of an origin's head. -/
structure OriginHead where
  statusLine : List UInt8
  fields : List ClientField

namespace OriginHead

def code (origin : OriginHead) : Nat := digitsValue ((origin.statusLine.drop 9).take 3)

def kept (origin : OriginHead) : List ClientField :=
  origin.fields.filter fun field => !isDropped field.name (originListed origin.fields)

end OriginHead

structure Answers (origin : OriginHead) (head : List UInt8) (headOnly : Bool)
    (response : ResponseHead) : Prop where
  lines : originLines head = origin.statusLine :: origin.fields.map ClientField.line
  statusLine : acceptsStatusLine origin.statusLine = true
  clean : ∀ byte ∈ origin.statusLine, isForbiddenControl byte = false
  fields : ∀ field ∈ origin.fields, field.Sound
  noSwitch : origin.code ≠ 101
  interim : response.interim = isInterim origin.code
  body : relayedBody (isInterim origin.code) headOnly origin.code origin.fields = some response.body
  bytes : response.bytes = writeAnswer (answerLine origin.statusLine origin.code)
      (isInterim origin.code) (origin.kept.map ClientField.line)

theorem rewriteResponse_answers {head : List UInt8}
    (accepted : rewriteResponse head headOnly = some response) :
    ∃ origin, Answers origin head headOnly response := by
  rw [rewriteResponse] at accepted
  split_ifs at accepted with control
  have clean : ∀ line ∈ originLines head, ∀ byte ∈ line,
      isForbiddenControl byte = false := by simpa using control
  split at accepted
  · cases accepted
  · rename_i statusLine lines split
    rw [split] at clean
    by_cases refused : (!acceptsStatusLine statusLine) = true
    · rw [if_pos refused] at accepted
      cases accepted
    by_cases switch : digitsValue ((statusLine.drop 9).take 3) = 101
    · rw [if_neg refused, if_pos switch] at accepted
      cases accepted
    rw [if_neg refused, if_neg switch] at accepted
    rcases bind_eq_some_iff.mp accepted with ⟨fields, read, accepted⟩
    rcases bind_eq_some_iff.mp accepted with ⟨body, length, accepted⟩
    cases accepted
    rw [mapM_readOriginField fun line member => clean line (.tail _ member)] at read
    rcases mapM_readField read with ⟨rfl, sound⟩
    refine ⟨⟨statusLine, fields⟩, ?_⟩
    exact {
      lines := split
      statusLine := by simpa using refused
      clean := clean statusLine (.head _)
      fields := fun field member => ⟨sound field member,
        clean field.line (.tail _ (mem_map_of_mem member))⟩
      noSwitch := switch
      interim := rfl
      body := length
      bytes := rfl }

/-! ## The status line -/

structure StatusParts (line version digits rest : List UInt8) : Prop where
  parts : line = version ++ space :: (digits ++ rest)
  length : version.length = 8
  http : (ascii "HTTP/1.").isPrefixOf version = true
  three : digits.length = 3
  numeric : digits.all isDigit = true
  parted : rest.head?.all (· = space) = true

theorem statusParts_of_accepts (accepts : acceptsStatusLine line) :
    StatusParts line (line.take 8) ((line.drop 9).take 3) (line.drop 12) := by
  simp only [acceptsStatusLine, Bool.and_eq_true, decide_eq_true_eq] at accepts
  rcases accepts with ⟨⟨⟨⟨long, http⟩, gap⟩, numeric⟩, parted⟩
  have bound : 8 < line.length := by omega
  have here : line.get ⟨8, bound⟩ = space := by
    rw [List.getElem?_eq_getElem bound] at gap
    exact Option.some.inj gap
  have behind : (line.drop 9).take 3 ++ line.drop 12 = line.drop 9 := by
    have joined := take_append_drop 3 (line.drop 9)
    rwa [drop_drop] at joined
  constructor
  · rw [behind, ← here, get_eq_getElem, ← drop_eq_getElem_cons bound, take_append_drop]
  · rw [length_take]
    omega
  · exact http
  · rw [length_take, length_drop]
    omega
  · exact numeric
  · rwa [List.head?_drop]

theorem StatusParts.parseStatusLine (parts : StatusParts line version digits rest) :
    parseStatusLine line = some (version, digitsValue digits, rest.drop 1) := by
  rcases parts with ⟨rfl, length, http, three, numeric, parted⟩
  rcases length_eq_three.mp three with ⟨hundreds, tens, units, rfl⟩
  have front : (ascii "HTTP/1.").isPrefixOf
      (version ++ space :: ([hundreds, tens, units] ++ rest)) = true := by
    rw [ isPrefixOf_iff_prefix] at http ⊢
    exact http.trans (prefix_append _ _)
  rw [Http.parseStatusLine, drop_left' length, take_left' length, front]
  simp only [cons_append, nil_append, numeric, parted]
  simp

def answerStatus (code : Nat) : Nat := if code = 407 then 502 else code

theorem parseStatusLine_answerLine (accepts : acceptsStatusLine line) :
    ∃ reason, parseStatusLine (answerLine line (digitsValue ((line.drop 9).take 3))) =
      some (line.take 8, answerStatus (digitsValue ((line.drop 9).take 3)), reason) := by
  have parts := statusParts_of_accepts accepts
  rw [answerLine, answerStatus]
  split_ifs with challenge
  · have replaced : StatusParts (line.take 8 ++ ascii " 502 Bad Gateway")
        (line.take 8) (ascii "502") (ascii " Bad Gateway") :=
      ⟨rfl, parts.length, parts.http, rfl, rfl, rfl⟩
    exact ⟨_, replaced.parseStatusLine⟩
  · exact ⟨_, parts.parseStatusLine⟩

/-! ## The head that is written -/

/-- The field that the proxy puts first on the answer that it ends. -/
def closeField : Field := ⟨ascii "Connection", ascii "close"⟩

/-- The lines of the head, the empty one that ends it included. -/
def answerLines (statusLine : List UInt8) (interim : Bool)
    (fields : List ClientField) : List (List UInt8) :=
  statusLine :: ((if interim then [] else [ascii "Connection: close"]) ++
    fields.map ClientField.line ++ [[]])

theorem writeAnswer_eq (statusLine : List UInt8) (interim : Bool) (fields : List ClientField) :
    writeAnswer statusLine interim (fields.map ClientField.line) =
      Text.joinPair cr lf (answerLines statusLine interim fields) := by
  cases interim <;> simp [writeAnswer, Text.joinPair, answerLines, crlf]

section Written

theorem answerLines_clean (clean : ∀ byte ∈ statusLine, isForbiddenControl byte = false)
    (sound : ∀ field ∈ fields, field.Sound) : ∀ line ∈ answerLines statusLine interim fields,
      ∀ byte ∈ line, isForbiddenControl byte = false := by
  intro line member byte inside
  simp only [answerLines, mem_cons, mem_append, List.mem_map, not_mem_nil, or_false] at member
  rcases member with rfl | (own | ⟨field, listed, rfl⟩) | rfl
  · exact clean byte inside
  · split_ifs at own
    · cases own
    · rw [mem_singleton.mp own] at inside
      have plain : (ascii "Connection: close").all
          (fun byte => !isForbiddenControl byte) = true := by decide
      simpa using all_eq_true.mp plain byte inside
  · exact (sound field listed).clean byte inside
  · cases inside

theorem splitPair_writeAnswer (clean : ∀ byte ∈ statusLine, isForbiddenControl byte = false)
    (sound : ∀ field ∈ fields, field.Sound) : Text.splitPair cr lf (writeAnswer statusLine interim
        (fields.map ClientField.line)) =
      answerLines statusLine interim fields ++ [[]] := by
  rw [writeAnswer_eq]
  apply Text.splitPair_joinPair
  intro line member inside
  have allowed := answerLines_clean clean sound line member cr inside
  exact (allowed_of_not_control allowed).2.1 rfl

def answerFields (interim : Bool) (fields : List ClientField) : List Field :=
  (if interim then [] else [closeField]) ++ fields.map ClientField.field

/-- The rules of the message read what was written, and nothing is left. -/
theorem parseResponse_writeAnswer (clean : ∀ byte ∈ statusLine, isForbiddenControl byte = false)
    (sound : ∀ field ∈ fields, field.Sound)
    (parsed : parseStatusLine statusLine = some (version, status, reason)) :
    parseResponse (writeAnswer statusLine interim (fields.map ClientField.line)) =
      some { version, status, reason,
             fields := answerFields interim fields } := by
  let lines := (if interim then [] else [ascii "Connection: close"]) ++
    fields.map ClientField.line
  have nonempty : ∀ line ∈ lines, decide (line ≠ []) = true := by
    intro line member
    rw [decide_eq_true_eq]
    rcases mem_append.mp member with own | kept
    · split_ifs at own
      · cases own
      · rw [mem_singleton.mp own]
        exact cons_ne_nil _ _
    · rcases mem_map.mp kept with ⟨field, listed, rfl⟩
      exact (sound field listed).line_ne_nil
  have shape : answerLines statusLine interim fields ++ [[]] =
      statusLine :: (lines ++ [[], []]) := by
    simp [answerLines, lines]
  have bytes : statusLine.all isFieldByte = true := by
    rw [List.all_eq_true]
    intro byte member
    exact (allowed_of_not_control (clean byte member)).1
  have read : lines.mapM parseField = some (answerFields interim fields) := by
    rw [mapM_append, mapM_line sound]
    cases interim <;> rfl
  rw [parseResponse, splitPair_writeAnswer clean sound, shape]
  dsimp only
  rw [dropWhile_append_of_pos nonempty, takeWhile_append_of_pos nonempty, bytes]
  simp only [ne_eq, not_true_eq_false, decide_false, Bool.false_eq_true,
    not_false_eq_true, dropWhile_cons_of_neg, takeWhile_cons_of_neg,
    append_nil, Bool.true_and, decide_true, if_true, read, parsed]
  rfl

end Written

/-! ## Names that the origin lists -/

def connectionOptions (fields : List Field) : List (List UInt8) :=
  entries (fields.filter fun field =>
    lowercase field.name = ascii "connection" || lowercase field.name = ascii "proxy-connection")

theorem isAscii_of_isBlank : isBlank byte → Utf8.isAscii byte := by
  revert byte
  apply forall_byte
  decide +kernel

theorem isAscii_of_isGraphic : isGraphic byte → Utf8.isAscii byte := by
  revert byte
  apply forall_byte
  decide +kernel

/-- A name between blanks is found in the text that the bytes stand for. -/
theorem trimUtf8_lossy (visible : ∀ byte ∈ name, isGraphic byte)
    (nonempty : name ≠ []) (spelled : lowercase (Text.trim isBlank part) = name) :
    lowercase (trimUtf8 (Utf8.lossy part)) = name := by
  rcases Text.trim_parts isBlank part with ⟨front, back, shape, before, after⟩
  generalize Text.trim isBlank part = word at shape spelled
  subst spelled
  have graphic : ∀ byte ∈ word, isGraphic byte = true := by
    intro byte member
    rw [← isGraphic_toLower]
    exact visible _ (mem_map_of_mem member)
  have ascii : ∀ byte ∈ part, Utf8.isAscii byte = true := by
    intro byte member
    rw [shape, mem_append, mem_append] at member
    rcases member with (member | member) | member
    · exact isAscii_of_isBlank (before byte member)
    · exact isAscii_of_isGraphic (graphic byte member)
    · exact isAscii_of_isBlank (after byte member)
  rw [Utf8.lossy_ascii ascii, shape, trimUtf8_eq (.of_blank before) graphic _ (.of_blank after)]
  rintro rfl
  exact nonempty rfl

/-- The proxy finds every name that the origin's connection lists. -/
theorem mem_originListed (sound : ∀ field ∈ fields, field.Sound)
    (visible : ∀ byte ∈ name, isGraphic byte) (nonempty : name ≠ [])
    (listed : name ∈ connectionOptions (fields.map ClientField.field)) :
    name ∈ originListed fields := by
  rcases mem_flatMap.mp listed with ⟨field, chosen, spelled⟩
  rcases mem_filter.mp chosen with ⟨declared, connection⟩
  rcases mem_map.mp declared with ⟨sent, member, rfl⟩
  rcases mem_map.mp spelled with ⟨part, inside, same⟩
  rw [(sound sent member).name_eq] at connection
  apply mem_flatMap.mpr
  refine ⟨{ sent with value := Utf8.lossy sent.value }, ?_, ?_⟩
  · rw [mem_filter]
    exact ⟨mem_map_of_mem member, connection⟩
  · rw [mem_filter, Utf8.splitOn_lossy rfl, List.map_map, List.mem_map]
    refine ⟨⟨part, inside, trimUtf8_lossy visible nonempty same⟩, ?_⟩
    simpa using nonempty

/-! ## The length of the body -/

def codings (fields : List ClientField) : List (List UInt8) :=
  entries ((fields.filter ClientField.isCoding).map ClientField.field)

theorem codings_cons_of_neg (notCoding : ¬ field.isCoding) (fields : List ClientField) :
    codings (field :: fields) = codings fields := by
  rw [codings, filter_cons_of_neg notCoding, codings]

theorem ClientField.Sound.value_clean (sound : field.Sound) :
    ∀ byte ∈ field.value, isForbiddenControl byte = false := by
  intro byte member
  rcases readField_parts sound.read with ⟨name, value, shape, _, _, same⟩
  rcases Text.trim_parts isBlank value with ⟨front, back, parts, _, _⟩
  apply sound.clean
  rw [same] at member
  rw [shape, parts]
  simp [member]

/-- The coding that the proxy keeps of a field is the last of its entries. -/
theorem getLast?_codings (sound : field.Sound) (isCoding : field.isCoding)
    (fields : List ClientField) :
    (codings (field :: fields)).getLast? = (codings fields).getLast?.or
      (some (lowercase (Text.trim isAsciiWhitespace
        ((field.value.splitOn comma).getLastD [])))) := by
  have last : (field.value.splitOn comma).getLast? =
      some ((field.value.splitOn comma).getLastD []) := by
    rw [getLastD_eq_getLast?]
    cases ends : (field.value.splitOn comma).getLast? with
    | none => exact absurd (List.getLast?_eq_none_iff.mp ends) (splitOn_ne_nil _ _)
    | some part => rfl
  have inside : ∀ byte ∈ (field.value.splitOn comma).getLastD [],
      isAsciiWhitespace byte = isBlank byte := by
    intro byte member
    apply isAsciiWhitespace_of_clean
    apply sound.value_clean
    exact Text.mem_of_mem_splitOn (mem_of_getLast? last) member
  rw [codings, filter_cons_of_pos isCoding, map_cons, entries,
    flatMap_cons, List.getLast?_append, List.getLast?_map]
  rw [ClientField.field, last, Text.trim_congr inside]
  rfl

/-- What the framing fields declare, behind what was already declared. -/
structure OriginDeclares (start : OriginDeclared) (fields : List ClientField)
    (declared : OriginDeclared) : Prop where
  coding : declared.lastCoding = (codings fields).getLast?.or start.lastCoding
  agrees : Agrees start.length fields declared.length

theorem originDeclares_of_foldlM (sound : ∀ field ∈ fields, field.Sound)
    (read : fields.foldlM OriginDeclared.read start = some declared) :
    OriginDeclares start fields declared := by
  induction fields generalizing start with
  | nil =>
    cases read
    exact ⟨rfl, .nil _⟩
  | cons field fields induction =>
    rcases bind_eq_some_iff.mp read with ⟨next, here, rest⟩
    have later := induction (fun other member => sound other (.tail _ member)) rest
    rw [OriginDeclared.read] at here
    split_ifs at here with length coding
    · rcases bind_eq_some_iff.mp here with ⟨parsed, value, agreed⟩
      split_ifs at agreed with differs
      cases agreed
      have notCoding := not_isCoding_of_isLength length
      constructor
      · rw [codings_cons_of_neg (by simp [notCoding]), later.coding]
      · exact later.agrees.length (by simp [ClientField.isLength, length]) value differs
    · cases here
      constructor
      · rw [getLast?_codings (sound field (.head _))
          (by simp [ClientField.isCoding, coding]), later.coding, Option.or_assoc]
        rfl
      · exact later.agrees.other (not_isLength_of_isCoding coding)
    · cases here
      constructor
      · rw [codings_cons_of_neg (by simp [ClientField.isCoding, coding]), later.coding]
      · exact later.agrees.other (by simp [ClientField.isLength, length])

/-! ## What the client reads -/

def originFields (head : List UInt8) : List Field :=
  ((originLines head).drop 1).filterMap parseField

def originStatus (head : List UInt8) : Option Nat :=
  ((originLines head).head?.bind parseStatusLine).map fun parts => parts.2.1

/-- What the client gets for an origin's response: a message that is read in one
way, with a body as long as the one that is relayed. -/
structure Relayed (head : List UInt8) (headOnly : Bool)
    (response : ResponseHead) (message : Response) : Prop where
  parsed : parseResponse response.bytes = some message
  clean : ∀ line ∈ Text.splitPair cr lf response.bytes, cr ∉ line ∧ lf ∉ line
  status : message.status ≠ 407 ∧ message.status ≠ 101
  interim : response.interim = isInterim message.status
  noHopByHop : ∀ field ∈ message.fields, lowercase field.name ∈ hopByHop →
    response.interim = false ∧ field = closeField
  listed : ∀ field ∈ message.fields, lowercase field.name ∈ connectionOptions (originFields head) →
      lowercase field.name ∈ framing ∨ field = closeField
  connection : response.interim = false → message.fields.head? = some closeField ∧
      message.fieldsNamed "connection" = [closeField]
  framed : message.bodyLength headOnly = some response.body

def endsEmpty (fields : List Field) : Prop :=
  (entries fields).getLast? = some [] ∧ lastEntry fields = some (ascii "chunked")

/-- A response with a body whose codings end in an empty element. -/
def PaddedCodings (head : List UInt8) (headOnly : Bool) : Prop :=
  (originStatus head).any (!bodiless headOnly ·) = true ∧
    endsEmpty ((originFields head).filter fun field =>
      lowercase field.name = ascii "transfer-encoding")

theorem filterMap_parseField (sound : ∀ field ∈ fields, field.Sound) :
    (fields.map ClientField.line).filterMap parseField = fields.map ClientField.field := by
  induction fields with
  | nil => rfl
  | cons field fields induction =>
    rw [map_cons, filterMap_cons, (sound field (.head _)).parseField_line, map_cons,
      induction fun other member => sound other (.tail _ member)]

section Answers

variable {origin : OriginHead} {head : List UInt8}

section

variable (answers : Answers origin head headOnly response)

include answers

theorem Answers.originFields_eq : originFields head = origin.fields.map ClientField.field := by
  rw [originFields, answers.lines, drop_one, tail_cons, filterMap_parseField answers.fields]

theorem Answers.originStatus_eq : originStatus head = some origin.code := by
  have parts := (statusParts_of_accepts answers.statusLine).parseStatusLine
  rw [originStatus, answers.lines, List.head?_cons, bind_some, parts]
  rfl

/-- The codings of the head, as the rules of the message list them. -/
theorem Answers.codings_eq : (originFields head).filter (fun field =>
        lowercase field.name = ascii "transfer-encoding") =
      (origin.fields.filter ClientField.isCoding).map ClientField.field := by
  rw [answers.originFields_eq, filter_field answers.fields]
  rfl

end

def OriginHead.message (origin : OriginHead) (reason : List UInt8) : Response where
  version := origin.statusLine.take 8
  status := answerStatus origin.code
  reason := reason
  fields := answerFields (isInterim origin.code) origin.kept

theorem kept_sound (sound : ∀ field ∈ origin.fields, field.Sound) :
    ∀ field ∈ origin.kept, field.Sound :=
  fun field member => sound field (mem_filter.mp member).1

theorem answerStatus_interim (code : Nat) : isInterim (answerStatus code) = isInterim code := by
  rw [answerStatus]
  split_ifs with challenge
  · rw [challenge]
    rfl
  · rfl

theorem answerStatus_bodiless (headOnly : Bool) (code : Nat) :
    bodiless headOnly (answerStatus code) = bodiless headOnly code := by
  rw [answerStatus]
  split_ifs with challenge
  · rw [challenge]
    rfl
  · rfl

theorem answerLine_clean (clean : ∀ byte ∈ origin.statusLine, isForbiddenControl byte = false) :
    ∀ byte ∈ answerLine origin.statusLine origin.code, isForbiddenControl byte = false := by
  intro byte member
  rw [answerLine] at member
  split_ifs at member
  · rcases mem_append.mp member with kept | own
    · exact clean byte (mem_of_mem_take kept)
    · have plain : (ascii " 502 Bad Gateway").all
          (fun byte => !isForbiddenControl byte) = true := by decide
      simpa using all_eq_true.mp plain byte own
  · exact clean byte member

theorem mem_answerFields {field : Field} (member : field ∈ answerFields interim fields) :
    interim = false ∧ field = closeField ∨ ∃ sent ∈ fields, field = sent.field := by
  rcases mem_append.mp member with own | kept
  · left
    split_ifs at own with passes
    · cases own
    · exact ⟨by simpa using passes, mem_singleton.mp own⟩
  · right
    rcases mem_map.mp kept with ⟨sent, listed, rfl⟩
    exact ⟨sent, listed, rfl⟩

/-- The client's fields of one name: the proxy's own, and the ones that were
kept. -/
theorem message_fieldsNamed (sound : ∀ field ∈ origin.fields, field.Sound)
    (reason : List UInt8) (name : String) : (origin.message reason).fieldsNamed name =
      (if !isInterim origin.code && ascii "connection" = ascii name then
        [closeField] else []) ++
      (origin.kept.filter fun field => field.name = ascii name).map
        ClientField.field := by
  have own : lowercase closeField.name = ascii "connection" := by decide
  rw [Response.fieldsNamed, OriginHead.message, answerFields, filter_append,
    filter_field (kept_sound sound)]
  congr 1
  cases isInterim origin.code with
  | true => rfl
  | false => simp [filter_cons, own]

theorem kept_of_framing (framed : name ∈ framing) :
    origin.kept.filter (fun field => field.name = name) =
      origin.fields.filter fun field => field.name = name := by
  have clear : ∀ name ∈ framing, name ∉ hopByHop := by decide +kernel
  rw [OriginHead.kept, List.filter_filter]
  apply List.filter_congr
  intro field _
  by_cases same : field.name = name
  · simp [same, isDropped, framed, clear name framed]
  · simp [same]

theorem lastEntry_of_ne_nil {fields : List Field}
    (ends : (entries fields).getLast? = some last) (nonempty : last ≠ []) :
    lastEntry fields = some last := by
  rcases List.getLast?_eq_some_iff.mp ends with ⟨others, shape⟩
  rw [lastEntry, shape, filter_append, filter_singleton]
  simp [nonempty]

theorem entries_eq_nil {fields : List Field} : entries fields = [] ↔ fields = [] := by
  rw [entries, flatMap_eq_nil_iff]
  constructor
  · intro none
    apply eq_nil_iff_forall_not_mem.mpr
    intro field member
    have empty := none field member
    rw [map_eq_nil_iff] at empty
    exact splitOn_ne_nil _ _ empty
  · rintro rfl field member
    cases member

theorem mapM_parseLength {length : Nat}
    (same : ∀ field ∈ fields, contentLength field.value = some length) :
    (entries (fields.map ClientField.field)).mapM parseLength =
      some (fields.map fun _ => length) := by
  induction fields with
  | nil => rfl
  | cons field fields induction =>
    have value := (parseDigits_eq_some.mp (same field (.head _))).1
    have alone : entries [field.field] = [field.value] := entries_digits value
    rw [map_cons, ← singleton_append, entries, flatMap_append,
      ← entries, ← entries, alone, mapM_append,
      induction fun other member => same other (.tail _ member)]
    simp [value]

theorem message_framing (sound : ∀ field ∈ origin.fields, field.Sound)
    (reason : List UInt8) (framed : ascii name ∈ framing) :
    (origin.message reason).fieldsNamed name =
      (origin.fields.filter fun field => field.name = ascii name).map
        ClientField.field := by
  have own : ascii "connection" ≠ ascii name := by
    have clear : ∀ name ∈ framing, ascii "connection" ≠ name := by decide +kernel
    exact clear _ framed
  rw [message_fieldsNamed sound, kept_of_framing framed]
  simp [own]

theorem relayedBody_eq (headOnly : Bool) (code : Nat) (fields : List ClientField) :
    relayedBody (isInterim code) headOnly code fields =
      if bodiless headOnly code then some .none
      else responseBodyLength fields := by
  rw [bodiless, Bool.or_comm headOnly]
  rfl

/-- The rules of the message and the proxy agree on what fields declare, unless
the codings end in an empty element. -/
theorem declaredLength_iff {fields : List ClientField} {body : BodyLength}
    (sound : ∀ field ∈ fields, field.Sound) (read : responseBodyLength fields = some body) :
    declaredLength ((fields.filter ClientField.isCoding).map ClientField.field)
        ((fields.filter ClientField.isLength).map ClientField.field) = some body ↔
      ¬ endsEmpty ((fields.filter ClientField.isCoding).map ClientField.field) := by
  rcases bind_eq_some_iff.mp read with ⟨declared, folded, read⟩
  have declares := originDeclares_of_foldlM sound folded
  have coding := declares.coding
  rw [or_none, codings] at coding
  have agrees := declares.agrees
  generalize (fields.filter ClientField.isCoding).map ClientField.field = codings at coding
  have none : declared.lastCoding = none → codings = [] := by
    intro uncoded
    rw [uncoded] at coding
    exact entries_eq_nil.mp (List.getLast?_eq_none_iff.mp coding.symm)
  rw [declaredLength, endsEmpty, ← coding]
  split at read
  · cases read
  · rename_i length known uncoded
    cases read
    rw [none uncoded, uncoded]
    have sent : fields.filter ClientField.isLength ≠ [] := by
      intro unsent
      rw [agrees.absent unsent] at known
      cases known
    have same : ∀ field ∈ fields.filter ClientField.isLength,
        contentLength field.value = some length := by
      intro field member
      rcases mem_filter.mp member with ⟨listed, isLength⟩
      rcases agrees.lengths field listed isLength with ⟨parsed, value, again⟩
      rw [known] at again
      cases again
      exact value
    rcases exists_cons_of_ne_nil sent with ⟨first, rest, shape⟩
    rw [mapM_parseLength same, shape]
    simp
  · rename_i last unknown coded
    have some : codings ≠ [] := by
      rintro rfl
      rw [coded] at coding
      cases coding
    rw [coded] at coding ⊢
    rw [if_pos some]
    by_cases empty : last = []
    · subst empty
      cases read
      split_ifs with chunked <;> simp [chunked]
    · rw [lastEntry_of_ne_nil coding.symm empty]
      simp [empty, read]
  · rename_i unknown uncoded
    cases read
    rw [none uncoded, uncoded]
    rw [unknown] at agrees
    simp [agrees.filter_eq_nil]

variable (answers : Answers origin head headOnly response)

include answers

/-- The rules of the message and the proxy agree on the body, unless the codings
end in an empty element. -/
theorem Answers.bodyLength_iff (reason : List UInt8) :
    (origin.message reason).bodyLength headOnly = some response.body ↔
      ¬ PaddedCodings head headOnly := by
  have body := answers.body
  have status : (origin.message reason).status = answerStatus origin.code := rfl
  rw [relayedBody_eq] at body
  rw [PaddedCodings, answers.originStatus_eq, answers.codings_eq,
    Response.bodyLength, status, answerStatus_bodiless,
    message_framing answers.fields reason (by decide),
    message_framing answers.fields reason (by decide), any_some]
  cases none : bodiless headOnly origin.code with
  | true =>
    rw [none, if_pos rfl] at body
    simp [body]
  | false =>
    rw [none, if_neg (by simp)] at body
    rw [if_neg (by simp), Bool.not_false, eq_self, true_and]
    exact declaredLength_iff answers.fields body

theorem Answers.parsed : ∃ reason, parseResponse response.bytes = some (origin.message reason) := by
  rcases parseStatusLine_answerLine answers.statusLine with ⟨reason, parsed⟩
  refine ⟨reason, ?_⟩
  rw [answers.bytes, parseResponse_writeAnswer
    (answerLine_clean answers.clean) (kept_sound answers.fields) parsed]
  rfl

theorem Answers.lines_clean :
    ∀ line ∈ Text.splitPair cr lf response.bytes, cr ∉ line ∧ lf ∉ line := by
  have status := answerLine_clean answers.clean
  have sound := kept_sound answers.fields
  rw [answers.bytes, splitPair_writeAnswer status sound]
  intro line member
  rcases mem_append.mp member with member | empty
  · exact unbroken (answerLines_clean status sound line member)
  · rw [mem_singleton.mp empty]
    exact ⟨not_mem_nil, not_mem_nil⟩

theorem Answers.kept_passes (kept : sent ∈ origin.kept) : sent.name ∉ hopByHop ∧
      (sent.name ∈ connectionOptions (originFields head) → sent.name ∈ framing) := by
  rcases mem_filter.mp kept with ⟨declared, passes⟩
  have sound := answers.fields sent declared
  rcases sound.name_visible with ⟨nonempty, visible⟩
  rw [isDropped, Bool.not_eq_true', Bool.or_eq_false_iff,
    decide_eq_false_iff_not, Bool.and_eq_false_iff, decide_eq_false_iff_not,
    decide_eq_false_iff_not, not_not] at passes
  refine ⟨passes.1, fun listed => ?_⟩
  rw [answers.originFields_eq] at listed
  have found := mem_originListed answers.fields visible nonempty listed
  exact passes.2.resolve_right fun absent => absent found

theorem Answers.connection (reason : List UInt8) (final : isInterim origin.code = false) :
    (origin.message reason).fields.head? = some closeField ∧
      (origin.message reason).fieldsNamed "connection" = [closeField] := by
  constructor
  · rw [OriginHead.message, answerFields, final]
    rfl
  · have none : origin.kept.filter (fun field => field.name = ascii "connection") = [] := by
      rw [filter_eq_nil_iff]
      intro field member same
      rw [decide_eq_true_eq] at same
      have stays := (answers.kept_passes member).1
      rw [same] at stays
      exact stays (by decide)
    rw [message_fieldsNamed answers.fields, none, final]
    rfl

theorem Answers.relayed_iff (parsed : parseResponse response.bytes = some (origin.message reason)) :
    Relayed head headOnly response (origin.message reason) ↔ ¬ PaddedCodings head headOnly := by
  rw [← answers.bodyLength_iff reason]
  refine ⟨fun relayed => relayed.framed, fun framed => ?_⟩
  have field_cases : ∀ field ∈ (origin.message reason).fields,
      isInterim origin.code = false ∧ field = closeField ∨
        ∃ sent ∈ origin.kept, lowercase field.name = sent.name := by
    intro field member
    rcases mem_answerFields member with own | ⟨sent, kept, rfl⟩
    · exact .inl own
    · exact .inr ⟨sent, kept, (kept_sound answers.fields sent kept).name_eq⟩
  exact {
    parsed := parsed
    clean := answers.lines_clean
    status := by
      have notSwitch := answers.noSwitch
      change answerStatus _ ≠ _ ∧ answerStatus _ ≠ _
      rw [answerStatus]
      split_ifs with challenge
      · decide
      · exact ⟨challenge, notSwitch⟩
    interim := answers.interim.trans (answerStatus_interim _).symm
    noHopByHop := by
      intro field member hop
      rcases field_cases field member with own | ⟨sent, kept, name⟩
      · rwa [answers.interim]
      · rw [name] at hop
        exact absurd hop (answers.kept_passes kept).1
    listed := by
      intro field member named
      rcases field_cases field member with own | ⟨sent, kept, name⟩
      · exact .inr own.2
      · rw [name] at named ⊢
        exact .inl ((answers.kept_passes kept).2 named)
    connection := fun final => answers.connection reason (answers.interim ▸ final)
    framed := framed }

end Answers

/-- An accepted response is rewritten into one that is read in one way: lines
that end in CRLF and hold no part of it, a status that is neither a challenge to
the proxy nor a switch of protocols, none of the connection's fields but the
proxy's own one, which is the first of a final response, and a body as long as
the one that is relayed. That last part fails for one kind of head alone: a body
whose codings end in an empty element behind the chunks. -/
theorem rewriteResponse_unambiguous_iff {head : List UInt8} {headOnly : Bool}
    {response : ResponseHead}
    (accepted : rewriteResponse head headOnly = some response) :
    (∃ message, Relayed head headOnly response message) ↔ ¬ PaddedCodings head headOnly := by
  rcases rewriteResponse_answers accepted with ⟨origin, answers⟩
  rcases answers.parsed with ⟨reason, parsed⟩
  rw [← answers.relayed_iff parsed]
  constructor
  · rintro ⟨message, relayed⟩
    have same := parsed.symm.trans relayed.parsed
    cases same
    exact relayed
  · exact fun relayed => ⟨_, relayed⟩

namespace Answer.Sample

def head : List UInt8 :=
  ascii "HTTP/1.1 407 No\r\nConnection: b\nB: 2\nTransfer-Encoding: x, chunked"

def response : ResponseHead where
  bytes := ascii "HTTP/1.1 502 Bad Gateway\r\nConnection: close\r\n" ++
    ascii "Transfer-Encoding: x, chunked\r\n\r\n"
  interim := false
  body := .chunked

def padded : List UInt8 := ascii "HTTP/1.1 200 OK\r\nTransfer-Encoding: chunked,"

def relayed : ResponseHead where
  bytes := ascii "HTTP/1.1 200 OK\r\nConnection: close\r\n" ++
    ascii "Transfer-Encoding: chunked,\r\n\r\n"
  interim := false
  body := .untilClose

end Answer.Sample

theorem rewriteResponse_unambiguous_challenge :
    rewriteResponse Answer.Sample.head false = some Answer.Sample.response ∧
      ∃ message, Relayed Answer.Sample.head false Answer.Sample.response
        message := by
  have accepted : rewriteResponse Answer.Sample.head false =
      some Answer.Sample.response := by decide +kernel
  refine ⟨accepted, (rewriteResponse_unambiguous_iff accepted).mpr ?_⟩
  rintro ⟨_, empty, _⟩
  revert empty
  decide +kernel

/-- The client reads chunks, and the proxy relays until the origin closes. -/
theorem padded_codings_misframed :
    rewriteResponse Answer.Sample.padded false = some Answer.Sample.relayed ∧
      ((parseResponse Answer.Sample.relayed.bytes).map fun message => message.bodyLength false) =
        some (some .chunked) := by
  decide +kernel

end WarrenSdk.Net
