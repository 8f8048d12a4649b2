import WarrenSdk.Net.Authority

/-! # Rewriting a request for its origin

The proxy takes a plain request in absolute form and writes the one that the
origin gets. Text is its bytes in UTF-8. -/

namespace WarrenSdk.Net

open Bolthole Http

/-- Fields that describe one connection rather than the message. -/
def hopByHop : List (List UInt8) :=
  ["connection", "keep-alive", "proxy-connection", "proxy-authenticate",
    "proxy-authentication-info", "proxy-authorization", "te", "upgrade"].map ascii

def framing : List (List UInt8) := ["content-length", "transfer-encoding"].map ascii

structure ForwardRequest where
  target : Target
  head : List UInt8
  body : BodyLength
  headOnly : Bool
  deriving DecidableEq

def isAbsoluteHttp (target : List UInt8) : Bool := lowercase (target.take 7) = ascii "http://"

def isForbiddenControl (byte : UInt8) : Bool :=
  byte = 0x7f || (byte < 0x20 && byte ≠ tab)

/-! ## Names that a connection lists -/

def whitespace : List (List UInt8) :=
  [[0x09], [0x0a], [0x0b], [0x0c], [0x0d], [0x20], [0xc2, 0x85], [0xc2, 0xa0],
    [0xe1, 0x9a, 0x80], [0xe2, 0x80, 0x80], [0xe2, 0x80, 0x81],
    [0xe2, 0x80, 0x82], [0xe2, 0x80, 0x83], [0xe2, 0x80, 0x84],
    [0xe2, 0x80, 0x85], [0xe2, 0x80, 0x86], [0xe2, 0x80, 0x87],
    [0xe2, 0x80, 0x88], [0xe2, 0x80, 0x89], [0xe2, 0x80, 0x8a],
    [0xe2, 0x80, 0xa8], [0xe2, 0x80, 0xa9], [0xe2, 0x80, 0xaf],
    [0xe2, 0x81, 0x9f], [0xe3, 0x80, 0x80]]

/-- Drop the patterns that a text begins with, at most `fuel` of them. -/
def trimStart (patterns : List (List UInt8)) : Nat → List UInt8 → List UInt8
  | 0, text => text
  | fuel + 1, text =>
    match patterns.find? (·.isPrefixOf text) with
    | some pattern => trimStart patterns fuel (text.drop pattern.length)
    | none => text

def trimUtf8 (text : List UInt8) : List UInt8 :=
  let front := trimStart whitespace text.length text
  (trimStart (whitespace.map List.reverse) front.length front.reverse).reverse

/-- A field line of the client, with its name in lower case and its value
without the blanks around it. -/
structure ClientField where
  name : List UInt8
  value : List UInt8
  line : List UInt8
  deriving DecidableEq

def connectionListed (fields : List ClientField) : List (List UInt8) :=
  (fields.filter fun field =>
    field.name = ascii "connection" || field.name = ascii "proxy-connection").flatMap fun field =>
    ((field.value.splitOn comma).map fun entry => lowercase (trimUtf8 entry)).filter (· ≠ [])

def isDropped (name : List UInt8) (listed : List (List UInt8)) : Bool :=
  name ∈ hopByHop || (name ∉ framing && name ∈ listed)

/-! ## The target -/

def endsAuthority (byte : UInt8) : Bool :=
  byte = slash || byte = question || byte = hash

def originForm (tail : List UInt8) : List UInt8 :=
  match tail with
  | [] => [slash]
  | first :: _ => if first = question then slash :: tail else tail

def splitAbsolute (target : List UInt8) : Option (List UInt8 × List UInt8) :=
  if target.length < 7 then none
  else
    let rest := target.drop 7
    let authority := rest.takeWhile (!endsAuthority ·)
    let tail := rest.dropWhile (!endsAuthority ·)
    if authority = [] || 0x40 ∈ authority then none
    else some (authority, originForm (tail.takeWhile (· ≠ hash)))

/-! ## The length of the body -/

def contentLength (value : List UInt8) : Option Nat := parseDigits (2 ^ 64) value

/-- What the framing fields that were read declare. -/
structure Declared where
  length : Option Nat := none
  codings : Nat := 0

def Declared.read (declared : Declared) (field : ClientField) : Option Declared :=
  if field.name = ascii "content-length" then do
    let parsed ← contentLength field.value
    if declared.length.any (· ≠ parsed) then none
    else some { declared with length := some parsed }
  else if field.name = ascii "transfer-encoding" then
    if lowercase field.value ≠ ascii "chunked" then none
    else some { declared with codings := declared.codings + 1 }
  else some declared

def requestBodyLength (fields : List ClientField) : Option BodyLength := do
  let declared ← fields.foldlM Declared.read {}
  match declared.length, declared.codings with
  | none, 0 => some .none
  | some length, 0 => some (.exactly length)
  | none, 1 => some .chunked
  | _, _ => none

/-! ## The head -/

def readField (line : List UInt8) : Option ClientField :=
  match Text.splitOnce colon line with
  | none => none
  | some (name, value) =>
    if isToken name then
      some
        { name := lowercase name
          value := Text.trim isBlank value
          line }
    else none

/-- The lines that are passed on. A length that was sent is not sent again. -/
def passOn (listed : List (List UInt8)) (lengthSent : Bool) : List ClientField → List (List UInt8)
  | [] => []
  | field :: rest =>
    if isDropped field.name listed || field.name = ascii "host" ||
        field.name = ascii "trailer" then passOn listed lengthSent rest
    else if field.name = ascii "content-length" then
      if lengthSent then passOn listed lengthSent rest
      else field.line :: passOn listed true rest
    else field.line :: passOn listed lengthSent rest

def writeHead (method origin version authority : List UInt8)
    (lines : List (List UInt8)) : List UInt8 :=
  method ++ [space] ++ origin ++ [space] ++ version ++ crlf ++
    ascii "Host: " ++ authority ++ crlf ++ (lines.flatMap fun line => line ++ crlf) ++
    ascii "Connection: close" ++ crlf ++ crlf

/-- Rewrite the head of a request, which comes without the empty line that ends
it. -/
def rewriteRequest (parseIpv6 : List UInt8 → Option Ipv6Addr)
    (head : List UInt8) : Option ForwardRequest :=
  let lines := Text.splitPair cr lf head
  if lines.any (·.any isForbiddenControl) then none
  else
    match lines with
    | [] => none
    | requestLine :: lines =>
      match requestLine.splitOn space with
      | [method, target, version] =>
        if !isToken method || !(version = ascii "HTTP/1.0" || version = ascii "HTTP/1.1") ||
            !target.all isGraphic then none
        else do
          let (authority, origin) ← splitAbsolute target
          let destination ← targetOf parseIpv6 authority
          let fields ← lines.mapM readField
          let body ← requestBodyLength fields
          if body = .chunked && version = ascii "HTTP/1.0" then none
          else
            some
              { target := destination
                head := writeHead method origin version authority
                  (passOn (connectionListed fields) false fields)
                body
                headOnly := method = ascii "HEAD" }
      | _ => none

end WarrenSdk.Net
