import WarrenSdk.Foundation.Text

/-! # HTTP/1.1 messages

The heads of requests and responses and the length of their bodies, read by the
rules of RFC 9112 and strictly: a line ends in CRLF and in nothing else, and
every byte of it has to be one that its place allows. -/

namespace WarrenSdk.Http

open List

/-! ## Bytes -/

def cr : UInt8 := 0x0d

def lf : UInt8 := 0x0a

def crlf : List UInt8 := [cr, lf]

def space : UInt8 := 0x20

def tab : UInt8 := 0x09

def colon : UInt8 := 0x3a

def comma : UInt8 := 0x2c

def slash : UInt8 := 0x2f

def question : UInt8 := 0x3f

def hash : UInt8 := 0x23

def ascii (text : String) : List UInt8 :=
  text.toList.map fun character => UInt8.ofNat character.toNat

def isDigit (byte : UInt8) : Bool := 0x30 ≤ byte && byte ≤ 0x39

def isAlphanumeric (byte : UInt8) : Bool :=
  isDigit byte || (0x41 ≤ byte && byte ≤ 0x5a) || (0x61 ≤ byte && byte ≤ 0x7a)

def isGraphic (byte : UInt8) : Bool := 0x21 ≤ byte && byte ≤ 0x7e

def isTchar (byte : UInt8) : Bool := isAlphanumeric byte || byte ∈ ascii "!#$%&'*+-.^_`|~"

def isToken (text : List UInt8) : Bool := text ≠ [] && text.all isTchar

def isBlank (byte : UInt8) : Bool := byte = space || byte = tab

def isFieldByte (byte : UInt8) : Bool :=
  byte = tab || (0x20 ≤ byte && byte ≠ 0x7f)

def toLower (byte : UInt8) : UInt8 :=
  if 0x41 ≤ byte && byte ≤ 0x5a then byte + 0x20 else byte

def lowercase (text : List UInt8) : List UInt8 := text.map toLower

theorem forall_byte {property : UInt8 → Prop}
    (all : ∀ value : Fin 256, property (UInt8.ofNat value)) (byte : UInt8) : property byte := by
  have here := all ⟨byte.toNat, byte.toNat_lt⟩
  rwa [UInt8.ofNat_toNat] at here

theorem isGraphic_of_isTchar : isTchar byte → isGraphic byte := by
  revert byte
  apply forall_byte
  decide +kernel

/-- A visible character ends neither a word nor a line. -/
theorem ne_of_isGraphic : isGraphic byte → byte ≠ space ∧ byte ≠ cr ∧ byte ≠ lf := by
  revert byte
  apply forall_byte
  decide +kernel

theorem isBlank_of_isGraphic : isGraphic byte → isBlank byte = false := by
  revert byte
  apply forall_byte
  decide +kernel

theorem isGraphic_of_isToken (token : isToken text) : ∀ byte ∈ text, isGraphic byte := by
  simp only [isToken, Bool.and_eq_true, all_eq_true] at token
  exact fun byte member => isGraphic_of_isTchar (token.2 byte member)

/-! ## Heads -/

structure Field where
  name : List UInt8
  value : List UInt8
  deriving DecidableEq

structure Request where
  method : List UInt8
  target : List UInt8
  version : List UInt8
  fields : List Field
  deriving DecidableEq

def parseField (line : List UInt8) : Option Field :=
  match Text.splitOnce colon line with
  | none => none
  | some (name, value) =>
    if isToken name && value.all isFieldByte then
      some ⟨name, Text.trim isBlank value⟩
    else none

def isVersion : List UInt8 → Bool
  | [h, t, t', p, slash, major, dot, minor] =>
    [h, t, t', p, slash] = ascii "HTTP/" && isDigit major &&
      dot = 0x2e && isDigit minor
  | _ => false

/-- A request for a resource of the server that is asked: a path, with a query
or without one. -/
def isOriginForm (target : List UInt8) : Bool :=
  target.head? = some slash && target.all isGraphic && hash ∉ target

def parseRequest (bytes : List UInt8) : Option Request :=
  match Text.splitPair cr lf bytes with
  | [] => none
  | line :: lines =>
    match line.splitOn space with
    | [method, target, version] =>
      if isToken method && isOriginForm target && isVersion version &&
          lines.dropWhile (· ≠ []) = [[], []] then do
        let fields ← (lines.takeWhile (· ≠ [])).mapM parseField
        return { method, target, version, fields }
      else none
    | _ => none

def Request.fieldsNamed (request : Request) (name : String) : List Field :=
  request.fields.filter fun field => lowercase field.name = ascii name

structure Response where
  version : List UInt8
  status : Nat
  reason : List UInt8
  fields : List Field
  deriving DecidableEq

def digitsValue (digits : List UInt8) : Nat :=
  digits.foldl (fun value digit => value * 10 + (digit.toNat - 0x30)) 0

def parseStatusLine (line : List UInt8) : Option (List UInt8 × Nat × List UInt8) :=
  match line.drop 8 with
  | gap :: hundreds :: tens :: units :: rest =>
    if (ascii "HTTP/1.").isPrefixOf line && gap = space &&
        [hundreds, tens, units].all isDigit && rest.head?.all (· = space) then
      some (line.take 8, digitsValue [hundreds, tens, units], rest.drop 1)
    else none
  | _ => none

def parseResponse (bytes : List UInt8) : Option Response :=
  match Text.splitPair cr lf bytes with
  | [] => none
  | line :: lines =>
    if line.all isFieldByte && lines.dropWhile (· ≠ []) = [[], []] then do
      let (version, status, reason) ← parseStatusLine line
      let fields ← (lines.takeWhile (· ≠ [])).mapM parseField
      return { version, status, reason, fields }
    else none

def isInterim (status : Nat) : Bool := 100 ≤ status && status < 200

def Response.fieldsNamed (response : Response) (name : String) : List Field :=
  response.fields.filter fun field => lowercase field.name = ascii name

/-! ## Bodies -/

inductive BodyLength
  | none
  | exactly (length : Nat)
  | chunked
  | untilClose
  deriving DecidableEq

def entries (fields : List Field) : List (List UInt8) :=
  fields.flatMap fun field =>
    (field.value.splitOn comma).map fun entry => lowercase (Text.trim isBlank entry)

def parseLength (text : List UInt8) : Option Nat :=
  if text ≠ [] && text.all isDigit then some (digitsValue text) else none

/-- The length of a request's body. A head that declares it in two ways, or
that declares a coding other than chunks at the end, gives none. -/
def Request.bodyLength (request : Request) : Option BodyLength :=
  let codings := request.fieldsNamed "transfer-encoding"
  let lengths := request.fieldsNamed "content-length"
  if codings ≠ [] then
    if lengths = [] && request.version ≠ ascii "HTTP/1.0" &&
        (entries codings).getLast? = some (ascii "chunked") &&
        (entries codings).count (ascii "chunked") = 1 then some .chunked
    else Option.none
  else if lengths = [] then some .none
  else
    match (entries lengths).mapM parseLength with
    | some (length :: others) =>
      if others.all (· = length) then some (.exactly length) else Option.none
    | _ => Option.none

/-- A response that has no body whatever its fields declare: one to a request
for the head alone, or of a status that has none. -/
def bodiless (headOnly : Bool) (status : Nat) : Bool :=
  headOnly || isInterim status || status = 204 || status = 304

def lastEntry (fields : List Field) : Option (List UInt8) :=
  ((entries fields).filter (· ≠ [])).getLast?

/-- The length that the codings and the lengths of a response declare: chunks
when they are the last coding, and otherwise the one length that all fields
give. -/
def declaredLength (codings lengths : List Field) : Option BodyLength :=
  if codings ≠ [] then
    if lastEntry codings = some (ascii "chunked") then some .chunked
    else some .untilClose
  else if lengths = [] then some .untilClose
  else
    match (entries lengths).mapM parseLength with
    | some (length :: others) =>
      if others.all (· = length) then some (.exactly length) else Option.none
    | _ => Option.none

def Response.bodyLength (response : Response) (headOnly : Bool) : Option BodyLength :=
  if bodiless headOnly response.status then some .none
  else declaredLength (response.fieldsNamed "transfer-encoding")
    (response.fieldsNamed "content-length")

variable {request : Request}

theorem entries_single (single : comma ∉ field.value) (bare : Text.Bare isBlank field.value) :
    entries [field] = [lowercase field.value] := by
  have alone : field.value.splitOn comma = [field.value] := by
    have joined := splitOn_intercalate comma (fun part (member : part ∈ [field.value]) =>
        mem_singleton.mp member ▸ single) (cons_ne_nil _ _)
    rwa [intercalate_singleton] at joined
  rw [entries, flatMap_singleton, alone, map_singleton, Text.trim_bare bare]

theorem plain_of_isDigit :
    isDigit byte → byte ≠ comma ∧ isBlank byte = false ∧ toLower byte = byte := by
  revert byte
  apply forall_byte
  decide +kernel

theorem plain_of_chunked :
    toLower byte ∈ ascii "chunked" → byte ≠ comma ∧ isBlank byte = false := by
  revert byte
  apply forall_byte
  decide +kernel

theorem lowercase_digits (digits : ∀ byte ∈ text, isDigit byte) : lowercase text = text := by
  rw [lowercase]
  nth_rewrite 2 [← map_id text]
  exact map_congr_left fun byte member => (plain_of_isDigit (digits byte member)).2.2

theorem entries_digits {length : Nat} (parsed : parseLength field.value = some length) :
    entries [field] = [field.value] := by
  have digits : ∀ byte ∈ field.value, isDigit byte = true := by
    rw [parseLength] at parsed
    split_ifs at parsed with digits
    simp only [Bool.and_eq_true, all_eq_true] at digits
    exact digits.2
  have single : comma ∉ field.value := fun member => (plain_of_isDigit (digits comma member)).1 rfl
  have bare : Text.Bare isBlank field.value := .of_all fun byte member =>
    (plain_of_isDigit (digits byte member)).2.1
  rw [entries_single single bare, lowercase_digits digits]

theorem Request.bodyLength_none (codings : request.fieldsNamed "transfer-encoding" = [])
    (lengths : request.fieldsNamed "content-length" = []) : request.bodyLength = some .none := by
  simp [bodyLength, codings, lengths]

theorem Request.bodyLength_exactly {length : Nat}
    (codings : request.fieldsNamed "transfer-encoding" = [])
    (lengths : request.fieldsNamed "content-length" = [field])
    (parsed : parseLength field.value = some length) :
    request.bodyLength = some (.exactly length) := by
  simp [bodyLength, codings, lengths, entries_digits parsed, parsed]

theorem Request.bodyLength_chunked (codings : request.fieldsNamed "transfer-encoding" = [field])
    (lengths : request.fieldsNamed "content-length" = [])
    (chunked : lowercase field.value = ascii "chunked")
    (version : request.version ≠ ascii "HTTP/1.0") : request.bodyLength = some .chunked := by
  have letters : ∀ byte ∈ field.value, toLower byte ∈ ascii "chunked" := by
    intro byte member
    rw [← chunked]
    exact mem_map_of_mem member
  have single : comma ∉ field.value := fun member => (plain_of_chunked (letters comma member)).1 rfl
  have bare : Text.Bare isBlank field.value := .of_all fun byte member =>
    (plain_of_chunked (letters byte member)).2
  have listed : entries [field] = [ascii "chunked"] := by rw [entries_single single bare, chunked]
  simp [bodyLength, codings, lengths, listed, version]

end WarrenSdk.Http
