import WarrenSdk.Net.Http.Forward

/-! # The head that a proxy writes

What a head says that is written for the origin: which fields of the client it
has, that the rules of HTTP/1.1 read it as it was meant, and how long a body it
declares. -/

namespace WarrenSdk.Net

open Bolthole Http List Option

/-! ## The fields that are passed on -/

def onlyFirst {Item : Type} (test : Item → Bool) : List Item → List Item
  | [] => []
  | item :: rest =>
    if test item then item :: rest.filter (!test ·)
    else item :: onlyFirst test rest

section OnlyFirst

variable {test : Item → Bool}

theorem onlyFirst_sublist (items : List Item) : (onlyFirst test items).Sublist items := by
  induction items with
  | nil => exact .slnil
  | cons item rest induction =>
    rw [onlyFirst]
    split_ifs
    · exact filter_sublist.cons_cons item
    · exact induction.cons_cons item

theorem filter_onlyFirst (items : List Item) :
    (onlyFirst test items).filter test = (items.filter test).take 1 := by
  induction items with
  | nil => rfl
  | cons item rest induction =>
    rw [onlyFirst]
    split_ifs with passes
    · simp [passes]
    · rw [filter_cons_of_neg passes, filter_cons_of_neg passes, induction]

theorem filter_onlyFirst_of_disjoint
    (disjoint : ∀ item, other item → test item = false) (items : List Item) :
    (onlyFirst test items).filter other = items.filter other := by
  induction items with
  | nil => rfl
  | cons item rest induction =>
    have apart : ∀ item ∈ rest, (other item && !test item) = other item := by
      intro item _
      cases passes : other item with
      | false => rfl
      | true => simp [disjoint item passes]
    rw [onlyFirst]
    split_ifs with passes
    · simp only [List.filter_cons, List.filter_filter, filter_congr apart]
    · simp only [filter_cons, induction]

end OnlyFirst

def ClientField.isLength (field : ClientField) : Bool := field.name = ascii "content-length"

def ClientField.passes (listed : List (List UInt8)) (field : ClientField) :
    Bool :=
  !(isDropped field.name listed || field.name = ascii "host" || field.name = ascii "trailer")

/-- The client's fields that the origin gets: the ones of the message itself,
with a length that is repeated once. -/
def passedFields (fields : List ClientField) : List ClientField :=
  onlyFirst ClientField.isLength (fields.filter (ClientField.passes (connectionListed fields)))

/-- What `passOn` keeps, with `lengthSent` and without. -/
theorem passOn_passed (listed : List (List UInt8)) (fields : List ClientField) :
    let passed := fields.filter (ClientField.passes listed)
    passOn listed true fields = (passed.filter (!ClientField.isLength ·)).map ClientField.line ∧
      passOn listed false fields = (onlyFirst ClientField.isLength passed).map ClientField.line := by
  induction fields with
  | nil => exact ⟨rfl, rfl⟩
  | cons field fields induction =>
    simp only [passOn, induction, Bool.false_eq_true, if_true, if_false]
    split_ifs with dropped length
    · rw [filter_cons_of_neg (by simp [ClientField.passes, dropped])]
      exact ⟨rfl, rfl⟩
    · rw [filter_cons_of_pos (by simpa [ClientField.passes] using dropped)]
      simp [onlyFirst, ClientField.isLength, length]
    · rw [filter_cons_of_pos (by simpa [ClientField.passes] using dropped)]
      simp [onlyFirst, ClientField.isLength, length]

/-! ## The client's lines -/

theorem allowed_of_not_control :
    isForbiddenControl byte = false → isFieldByte byte ∧ byte ≠ cr ∧ byte ≠ lf := by
  revert byte
  apply forall_byte
  decide +kernel

theorem unbroken {line : List UInt8}
    (clean : ∀ byte ∈ line, isForbiddenControl byte = false) : cr ∉ line ∧ lf ∉ line :=
  ⟨fun inside => (allowed_of_not_control (clean cr inside)).2.1 rfl,
    fun inside => (allowed_of_not_control (clean lf inside)).2.2 rfl⟩

theorem isGraphic_toLower (byte : UInt8) : isGraphic (toLower byte) = isGraphic byte := by
  revert byte
  apply forall_byte
  decide +kernel

theorem not_control_of_isGraphic : isGraphic byte → isForbiddenControl byte = false := by
  revert byte
  apply forall_byte
  decide +kernel

def ClientField.field (field : ClientField) : Field :=
  ⟨field.line.takeWhile (· ≠ colon), field.value⟩

/-- A field that was read from a line without control characters. -/
structure ClientField.Sound (field : ClientField) : Prop where
  read : readField field.line = some field
  clean : ∀ byte ∈ field.line, isForbiddenControl byte = false

theorem readField_parts (read : readField line = some field) :
    ∃ name value, line = name ++ colon :: value ∧ colon ∉ name ∧ isToken name ∧
      field = ⟨lowercase name, Text.trim isBlank value, line⟩ := by
  rw [readField] at read
  cases parts : Text.splitOnce colon line with
  | none =>
    rw [parts] at read
    cases read
  | some pair =>
    rcases pair with ⟨name, value⟩
    rw [parts] at read
    dsimp only at read
    split_ifs at read with token
    cases read
    rcases Text.splitOnce_eq_some parts with ⟨shape, absent⟩
    exact ⟨name, value, shape, absent, token, rfl⟩

theorem takeWhile_append_colon (absent : colon ∉ name) (value : List UInt8) :
    (name ++ colon :: value).takeWhile (· ≠ colon) = name := by
  rw [takeWhile_append_of_pos]
  · simp
  · intro byte member
    rw [decide_eq_true_eq]
    rintro rfl
    exact absent member

namespace ClientField.Sound

variable {field : ClientField}

/-- The rules of the message read the same field from the line. -/
theorem parseField_line (sound : field.Sound) : parseField field.line = some field.field := by
  rcases readField_parts sound.read with ⟨name, value, shape, absent, token, same⟩
  have bytes : value.all isFieldByte = true := by
    rw [List.all_eq_true]
    intro byte member
    have inside : byte ∈ field.line := by simp [shape, member]
    exact (allowed_of_not_control (sound.clean byte inside)).1
  have spelled : field.field = ⟨name, Text.trim isBlank value⟩ := by
    rw [ClientField.field, shape, takeWhile_append_colon absent, same]
  rw [spelled, parseField, shape, Text.splitOnce_append absent]
  simp [token, bytes]

theorem name_eq (sound : field.Sound) : lowercase field.field.name = field.name := by
  rcases readField_parts sound.read with ⟨name, value, shape, absent, token, same⟩
  rw [ClientField.field, shape, takeWhile_append_colon absent, same]

theorem name_visible (sound : field.Sound) :
    field.name ≠ [] ∧ ∀ byte ∈ field.name, isGraphic byte := by
  rcases readField_parts sound.read with ⟨name, _, _, _, token, same⟩
  rw [same]
  constructor
  · simp only [isToken, Bool.and_eq_true, decide_eq_true_eq] at token
    simpa [lowercase] using token.1
  · intro byte member
    rcases mem_map.mp member with ⟨letter, spelled, rfl⟩
    rw [isGraphic_toLower]
    exact isGraphic_of_isToken token letter spelled

theorem line_ne_nil (sound : field.Sound) : field.line ≠ [] := by
  rcases readField_parts sound.read with ⟨name, value, shape, _⟩
  simp [shape]

end ClientField.Sound

/-! ## The head that is written -/

/-- The lines of the head, the empty one that ends it included. -/
def emittedLines (method origin version authority : List UInt8)
    (fields : List ClientField) : List (List UInt8) :=
  [method ++ [space] ++ origin ++ [space] ++ version, ascii "Host: " ++ authority] ++
    fields.map ClientField.line ++ [ascii "Connection: close", []]

theorem writeHead_eq (method origin version authority : List UInt8) (fields : List ClientField) :
    writeHead method origin version authority (fields.map ClientField.line) =
      Text.joinPair cr lf (emittedLines method origin version authority fields) := by
  simp [writeHead, Text.joinPair, emittedLines, crlf]

variable {fields : List ClientField}

theorem mapM_line (sound : ∀ field ∈ fields, field.Sound) :
    (fields.map ClientField.line).mapM parseField = some (fields.map ClientField.field) := by
  induction fields with
  | nil => rfl
  | cons field fields induction =>
    rw [map_cons, mapM_cons, (sound field (.head _)).parseField_line,
      induction fun other member => sound other (.tail _ member)]
    rfl

/-- The parts of a head that can be written. -/
structure Writable (method origin version authority : List UInt8)
    (fields : List ClientField) : Prop where
  token : isToken method = true
  origin : isOriginForm origin = true
  version : version = ascii "HTTP/1.0" ∨ version = ascii "HTTP/1.1"
  authority : ∀ byte ∈ authority, isGraphic byte = true
  fields : ∀ field ∈ fields, field.Sound

def emitted (method origin version authority : List UInt8)
    (fields : List ClientField) : Request where
  method := method
  target := origin
  version := version
  fields := ⟨ascii "Host", authority⟩ :: (fields.map ClientField.field ++
    [⟨ascii "Connection", ascii "close"⟩])

section Written

variable {origin version authority : List UInt8}

theorem isGraphic_of_isOriginForm (form : isOriginForm target) :
    ∀ byte ∈ target, isGraphic byte := by
  simp only [isOriginForm, Bool.and_eq_true, List.all_eq_true] at form
  exact form.1.2

variable (writable : Writable method origin version authority fields)

include writable

theorem Writable.version_isGraphic : ∀ byte ∈ version, isGraphic byte := by
  rcases writable.version with rfl | rfl
  · exact all_eq_true.mp (by decide)
  · exact all_eq_true.mp (by decide)

theorem Writable.clean : ∀ line ∈ emittedLines method origin version authority fields,
      ∀ byte ∈ line, isForbiddenControl byte = false := by
  have visible : ∀ text : List UInt8, (∀ byte ∈ text, isGraphic byte = true) →
      ∀ byte ∈ text, isForbiddenControl byte = false :=
    fun text graphic byte member => not_control_of_isGraphic (graphic byte member)
  have plain : ∀ {text : List UInt8}, text.all (fun byte => !isForbiddenControl byte) = true →
      ∀ byte ∈ text, isForbiddenControl byte = false := by
    intro text all byte member
    simpa using all_eq_true.mp all byte member
  intro line member byte inside
  simp only [emittedLines, cons_append, nil_append, mem_cons,
    mem_append, List.mem_map, not_mem_nil, or_false] at member
  rcases member with rfl | rfl | ⟨field, listed, rfl⟩ | rfl | rfl
  · simp only [mem_append, mem_singleton] at inside
    rcases inside with (((inside | rfl) | inside) | rfl) | inside
    · exact visible _ (isGraphic_of_isToken writable.token) byte inside
    · rfl
    · exact visible _ (isGraphic_of_isOriginForm writable.origin) byte inside
    · rfl
    · exact visible _ writable.version_isGraphic byte inside
  · rw [mem_append] at inside
    rcases inside with inside | inside
    · exact plain (by decide) byte inside
    · exact visible _ writable.authority byte inside
  · exact (writable.fields field listed).clean byte inside
  · exact plain (by decide) byte inside
  · cases inside

theorem Writable.splitPair : Text.splitPair cr lf (writeHead method origin version authority
        (fields.map ClientField.line)) =
      emittedLines method origin version authority fields ++ [[]] := by
  rw [writeHead_eq]
  apply Text.splitPair_joinPair
  intro line member inside
  exact (allowed_of_not_control (writable.clean line member cr inside)).2.1 rfl

theorem Writable.splitOn : (method ++ [space] ++ origin ++ [space] ++ version).splitOn space =
      [method, origin, version] := by
  have joined : method ++ [space] ++ origin ++ [space] ++ version =
      [space].intercalate [method, origin, version] := by
    simp [List.intercalate]
  rw [joined, splitOn_intercalate]
  · intro part member inside
    have graphic : ∀ byte ∈ part, isGraphic byte = true := by
      simp only [mem_cons, not_mem_nil, or_false] at member
      rcases member with rfl | rfl | rfl
      · exact isGraphic_of_isToken writable.token
      · exact isGraphic_of_isOriginForm writable.origin
      · exact writable.version_isGraphic
    exact (ne_of_isGraphic (graphic space inside)).1 rfl
  · exact cons_ne_nil _ _

theorem Writable.parseField_host :
    parseField (ascii "Host: " ++ authority) = some ⟨ascii "Host", authority⟩ := by
  have bare : Text.Bare isBlank authority := .of_all fun byte member =>
    isBlank_of_isGraphic (writable.authority byte member)
  have shape : ascii "Host: " ++ authority = ascii "Host" ++ colon :: space :: authority := rfl
  have bytes : (space :: authority).all isFieldByte = true := by
    rw [List.all_eq_true]
    intro byte member
    rcases mem_cons.mp member with rfl | member
    · rfl
    · have visible := not_control_of_isGraphic (writable.authority byte member)
      exact (allowed_of_not_control visible).1
  rw [shape, parseField, Text.splitOnce_append (by decide)]
  dsimp only
  rw [bytes, Text.trim_cons rfl, Text.trim_bare bare]
  rfl

/-- The rules of the message read what was written, and nothing is left. -/
theorem Writable.parseRequest_writeHead : parseRequest (writeHead method origin version authority
        (fields.map ClientField.line)) =
      some (emitted method origin version authority fields) := by
  let lines := (ascii "Host: " ++ authority) ::
    (fields.map ClientField.line ++ [ascii "Connection: close"])
  have nonempty : ∀ line ∈ lines, decide (line ≠ []) = true := by
    intro line member
    simp only [lines, mem_cons, mem_append, List.mem_map, not_mem_nil, or_false] at member
    rw [decide_eq_true_eq]
    rcases member with rfl | ⟨field, listed, rfl⟩ | rfl
    · exact cons_ne_nil _ _
    · exact (writable.fields field listed).line_ne_nil
    · exact cons_ne_nil _ _
  have shape : emittedLines method origin version authority fields ++ [[]] =
      (method ++ [space] ++ origin ++ [space] ++ version) :: (lines ++ [[], []]) := by
    simp [emittedLines, lines]
  have accepted : (isToken method && isOriginForm origin && isVersion version) = true := by
    rw [writable.token, writable.origin]
    rcases writable.version with rfl | rfl <;> rfl
  have read : lines.mapM parseField =
      some (emitted method origin version authority fields).fields := by
    rw [mapM_cons, writable.parseField_host, mapM_append, mapM_line writable.fields]
    rfl
  rw [parseRequest, writable.splitPair, shape]
  dsimp only
  rw [writable.splitOn]
  dsimp only
  rw [dropWhile_append_of_pos nonempty, takeWhile_append_of_pos nonempty, accepted]
  simp only [ne_eq, not_true_eq_false, decide_false, Bool.false_eq_true,
    not_false_eq_true, dropWhile_cons_of_neg, takeWhile_cons_of_neg,
    append_nil, Bool.true_and, decide_true, if_true, read]
  rfl

end Written

/-! ## The fields of the head, name by name -/

theorem filter_field (sound : ∀ field ∈ fields, field.Sound) (name : List UInt8) :
    (fields.map ClientField.field).filter (fun field => lowercase field.name = name) =
      (fields.filter fun field => field.name = name).map
        ClientField.field := by
  rw [List.filter_map]
  congr 1
  apply List.filter_congr
  intro field member
  rw [Function.comp_apply, (sound field member).name_eq]

theorem mem_passedFields (member : field ∈ passedFields fields) :
    field ∈ fields ∧ field.passes (connectionListed fields) :=
  mem_filter.mp ((onlyFirst_sublist _).subset member)

/-- Fields that frame the body are passed on whatever is listed. -/
theorem passes_of_framing {field : ClientField} (framed : field.name ∈ framing)
    (listed : List (List UInt8)) : field.passes listed := by
  have clear : ∀ name ∈ framing, name ∉ hopByHop ∧ name ≠ ascii "host" ∧
      name ≠ ascii "trailer" := by decide +kernel
  rcases clear field.name framed with ⟨stays, notHost, notTrailer⟩
  simp [ClientField.passes, isDropped, framed, stays, notHost, notTrailer]

theorem filter_passes_of_framing {name : List UInt8}
    (framed : name ∈ framing) (listed : List (List UInt8)) (fields : List ClientField) :
    (fields.filter (ClientField.passes listed)).filter (fun field => field.name = name) =
      fields.filter fun field => field.name = name := by
  rw [List.filter_filter]
  apply List.filter_congr
  intro field _
  by_cases same : field.name = name
  · rw [passes_of_framing (same ▸ framed), Bool.and_true]
  · simp [same]

/-- All the codings are passed on, and one length. -/
theorem filter_passedFields_coding (fields : List ClientField) : (passedFields fields).filter
        (fun field => field.name = ascii "transfer-encoding") =
      fields.filter fun field => field.name = ascii "transfer-encoding" := by
  rw [passedFields, filter_onlyFirst_of_disjoint, filter_passes_of_framing (by decide)]
  intro field coding
  rw [decide_eq_true_eq] at coding
  rw [ClientField.isLength, coding]
  decide

theorem filter_passedFields_length (fields : List ClientField) :
    (passedFields fields).filter ClientField.isLength =
      (fields.filter ClientField.isLength).take 1 := by
  rw [passedFields, filter_onlyFirst]
  congr 1
  exact filter_passes_of_framing (by decide) _ _

/-! ## The length of the body -/

def ClientField.isCoding (field : ClientField) : Bool := field.name = ascii "transfer-encoding"

theorem not_isCoding_of_isLength {field : ClientField}
    (length : field.name = ascii "content-length") : field.isCoding = false := by
  rw [ClientField.isCoding, length]
  decide

theorem not_isLength_of_isCoding {field : ClientField}
    (coding : field.name = ascii "transfer-encoding") : ¬ field.isLength := by
  rw [ClientField.isLength, coding]
  decide

/-- The lengths that fields declare are one, behind the one that was already
known. -/
structure Agrees (start : Option Nat) (fields : List ClientField) (known : Option Nat) : Prop where
  lengths : ∀ field ∈ fields, field.isLength = true →
    ∃ length, contentLength field.value = some length ∧ known = some length
  kept : ∀ length, start = some length → known = some length
  absent : fields.filter ClientField.isLength = [] → known = start

namespace Agrees

theorem nil (start : Option Nat) : Agrees start [] start := by constructor <;> simp

theorem length (isLength : field.isLength) (value : contentLength field.value = some parsed)
    (agreed : ¬ start.any (· ≠ parsed)) (later : Agrees (some parsed) fields known) :
    Agrees start (field :: fields) known := by
  have same := later.kept parsed rfl
  constructor
  · intro other member isLength
    rcases mem_cons.mp member with rfl | member
    · exact ⟨parsed, value, same⟩
    · exact later.lengths other member isLength
  · rintro length rfl
    have repeated : length = parsed := by simpa using agreed
    rw [same, repeated]
  · intro none
    rw [filter_cons_of_pos isLength] at none
    cases none

theorem other (notLength : ¬ field.isLength) (later : Agrees start fields known) :
    Agrees start (field :: fields) known := by
  constructor
  · intro other member isLength
    rcases mem_cons.mp member with rfl | member
    · exact absurd isLength notLength
    · exact later.lengths other member isLength
  · exact later.kept
  · intro none
    rw [filter_cons_of_neg notLength] at none
    exact later.absent none

theorem filter_eq_nil (agrees : Agrees start fields none) :
    fields.filter ClientField.isLength = [] := by
  rw [filter_eq_nil_iff]
  intro field member isLength
  rcases agrees.lengths field member isLength with ⟨length, _, known⟩
  cases known

end Agrees

/-- What the framing fields declare, behind what was already declared. -/
structure Declares (start : Declared) (fields : List ClientField) (declared : Declared) : Prop where
  codings : declared.codings = start.codings + (fields.filter ClientField.isCoding).length
  chunked : ∀ field ∈ fields, field.isCoding = true → lowercase field.value = ascii "chunked"
  agrees : Agrees start.length fields declared.length

theorem Declares.length {field : ClientField} {next : Declared} (isLength : field.isLength)
    (here : start.read field = some next) (later : Declares next fields declared) :
    Declares start (field :: fields) declared := by
  have name : field.name = ascii "content-length" := by simpa [ClientField.isLength] using isLength
  have notCoding := not_isCoding_of_isLength name
  rw [Declared.read, if_pos name] at here
  rcases bind_eq_some_iff.mp here with ⟨parsed, value, agreed⟩
  split_ifs at agreed with differs
  cases agreed
  constructor
  · rw [later.codings, filter_cons_of_neg (by simp [notCoding])]
  · intro other member coding
    rcases mem_cons.mp member with rfl | member
    · rw [notCoding] at coding
      cases coding
    · exact later.chunked other member coding
  · exact later.agrees.length isLength value differs

theorem Declares.coding {field : ClientField} {next : Declared} (isCoding : field.isCoding)
    (here : start.read field = some next) (later : Declares next fields declared) :
    Declares start (field :: fields) declared := by
  have name : field.name = ascii "transfer-encoding" := by
    simpa [ClientField.isCoding] using isCoding
  have notLength := not_isLength_of_isCoding name
  rw [Declared.read, if_neg (by simpa [ClientField.isLength] using notLength), if_pos name] at here
  split_ifs at here with chunked
  cases here
  constructor
  · rw [later.codings, filter_cons_of_pos isCoding, length_cons]
    dsimp only
    omega
  · intro other member coding
    rcases mem_cons.mp member with rfl | member
    · exact not_not.mp chunked
    · exact later.chunked other member coding
  · exact later.agrees.other notLength

theorem Declares.other {next : Declared} (notLength : ¬ field.isLength)
    (notCoding : ¬ field.isCoding) (here : start.read field = some next)
    (later : Declares next fields declared) : Declares start (field :: fields) declared := by
  rw [Declared.read, if_neg (by simpa [ClientField.isLength] using notLength),
    if_neg (by simpa [ClientField.isCoding] using notCoding)] at here
  cases here
  constructor
  · rw [later.codings, filter_cons_of_neg notCoding]
  · intro other member coding
    rcases mem_cons.mp member with rfl | member
    · exact absurd coding notCoding
    · exact later.chunked other member coding
  · exact later.agrees.other notLength

theorem declares_of_foldlM (read : fields.foldlM Declared.read start = some declared) :
    Declares start fields declared := by
  induction fields generalizing start with
  | nil =>
    cases read
    exact ⟨by simp, by simp, .nil _⟩
  | cons field fields induction =>
    rw [foldlM_cons] at read
    rcases bind_eq_some_iff.mp read with ⟨next, here, rest⟩
    have later := induction rest
    by_cases length : field.isLength = true
    · exact later.length length here
    · by_cases coding : field.isCoding = true
      · exact later.coding coding here
      · exact later.other length coding here

/-- The proxy's own two fields, and the client's of that name. -/
theorem emitted_fieldsNamed (method origin version authority : List UInt8)
    (sound : ∀ field ∈ fields, field.Sound) (name : String) :
    (emitted method origin version authority fields).fieldsNamed name =
      (if ascii "host" = ascii name then [⟨ascii "Host", authority⟩] else []) ++
      ((fields.filter fun field => field.name = ascii name).map ClientField.field ++
      if ascii "connection" = ascii name then
        [⟨ascii "Connection", ascii "close"⟩]
      else []) := by
  have host : lowercase (ascii "Host") = ascii "host" := by decide
  have connection : lowercase (ascii "Connection") = ascii "connection" := by decide
  rw [Request.fieldsNamed, emitted, ← filter_field sound, filter_cons,
    filter_append, filter_cons, filter_nil, host, connection]
  simp only [decide_eq_true_eq]
  split_ifs <;> simp

/-- The framing fields of the head declare the length that the proxy relays
by. -/
theorem emitted_bodyLength (sound : ∀ field ∈ fields, field.Sound)
    (read : requestBodyLength fields = some body)
    (framed : ¬ (body = .chunked ∧ version = ascii "HTTP/1.0")) :
    (emitted method origin version authority (passedFields fields)).bodyLength = some body := by
  have passed : ∀ field ∈ passedFields fields, field.Sound :=
    fun field member => sound field (mem_passedFields member).1
  have codings := emitted_fieldsNamed method origin version authority passed "transfer-encoding"
  have lengths := emitted_fieldsNamed method origin version authority passed "content-length"
  rw [if_neg (by decide), if_neg (by decide), nil_append, append_nil] at codings lengths
  rw [filter_passedFields_coding] at codings
  change _ = ((passedFields fields).filter ClientField.isLength).map _ at lengths
  rw [filter_passedFields_length] at lengths
  rcases bind_eq_some_iff.mp read with ⟨declared, declares, shape⟩
  replace declares := declares_of_foldlM declares
  have count := declares.codings
  rw [Nat.zero_add] at count
  have unsent : declared.length = none → fields.filter ClientField.isLength = [] :=
    fun unknown => (unknown ▸ declares.agrees).filter_eq_nil
  split at shape
  · rename_i unknown uncoded
    cases shape
    have none := length_eq_zero_iff.mp (count.symm.trans uncoded)
    apply Request.bodyLength_none
    · rw [codings]
      exact congrArg (List.map _) none
    · rw [lengths, unsent unknown]
      rfl
  · rename_i length known uncoded
    cases shape
    have none := length_eq_zero_iff.mp (count.symm.trans uncoded)
    have sent : fields.filter ClientField.isLength ≠ [] := by
      intro unsent
      rw [declares.agrees.absent unsent] at known
      cases known
    rcases exists_cons_of_ne_nil sent with ⟨field, rest, first⟩
    have member := mem_filter.mp (first ▸ mem_cons_self :
      field ∈ fields.filter ClientField.isLength)
    rcases declares.agrees.lengths field member.1 member.2 with ⟨parsed, value, same⟩
    rw [known] at same
    cases same
    apply Request.bodyLength_exactly
    · rw [codings]
      exact congrArg (List.map _) none
    · rw [lengths, first]
      rfl
    · exact (parseDigits_eq_some.mp value).1
  · rename_i unknown coded
    cases shape
    rcases length_eq_one_iff.mp (count.symm.trans coded) with ⟨field, only⟩
    have member := mem_filter.mp (only ▸ mem_cons_self : field ∈ fields.filter ClientField.isCoding)
    apply Request.bodyLength_chunked
    · rw [codings]
      exact congrArg (List.map _) only
    · rw [lengths, unsent unknown]
      rfl
    · exact declares.chunked field member.1 member.2
    · exact fun version => framed ⟨rfl, version⟩
  · cases shape

end WarrenSdk.Net
