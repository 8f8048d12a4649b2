import WarrenSdk.Foundation.Utf8
import WarrenSdk.Net.Http.Forward

/-! # Rewriting a response for the client

The proxy reads the head of the origin's response leniently, line by line, and
writes the one that the client gets. -/

namespace WarrenSdk.Net

open Http

structure ResponseHead where
  bytes : List UInt8
  interim : Bool
  body : BodyLength
  deriving DecidableEq

def stripReturn (line : List UInt8) : List UInt8 :=
  if line.getLast? = some cr then line.dropLast else line

def originLines (head : List UInt8) : List (List UInt8) := (head.splitOn lf).map stripReturn

def isAsciiWhitespace (byte : UInt8) : Bool :=
  byte = space || byte = tab || byte = lf || byte = 0x0c || byte = cr

def readOriginField (line : List UInt8) : Option ClientField :=
  match Text.splitOnce colon line with
  | none => none
  | some (name, value) =>
    if isToken name then
      some
        { name := lowercase name
          value := Text.trim isAsciiWhitespace value
          line }
    else none

/-- The names that the origin's connection lists. Its values are bytes, and the
list is read from the text that they stand for. -/
def originListed (fields : List ClientField) : List (List UInt8) :=
  connectionListed (fields.map fun field =>
    { field with value := Utf8.lossy field.value })

/-! ## The length of the body -/

structure OriginDeclared where
  length : Option Nat := none
  lastCoding : Option (List UInt8) := none

def OriginDeclared.read (declared : OriginDeclared) (field : ClientField) : Option OriginDeclared :=
  if field.name = ascii "content-length" then do
    let parsed ← contentLength field.value
    if declared.length.any (· ≠ parsed) then none
    else some { declared with length := some parsed }
  else if field.name = ascii "transfer-encoding" then
    let coding := (field.value.splitOn comma).getLastD []
    some
      { declared with
        lastCoding := some (lowercase (Text.trim isAsciiWhitespace coding)) }
  else some declared

def responseBodyLength (fields : List ClientField) : Option BodyLength := do
  let declared ← fields.foldlM OriginDeclared.read {}
  match declared.length, declared.lastCoding with
  | some _, some _ => none
  | some length, none => some (.exactly length)
  | none, some coding =>
    if coding = ascii "chunked" then some .chunked else some .untilClose
  | none, none => some .untilClose

def relayedBody (interim headOnly : Bool) (code : Nat)
    (fields : List ClientField) : Option BodyLength :=
  if interim || headOnly || code = 204 || code = 304 then some .none
  else responseBodyLength fields

/-! ## The head -/

/-- A status line that is passed on. One of the origin's own challenges to a
proxy is not. -/
def answerLine (statusLine : List UInt8) (code : Nat) : List UInt8 :=
  if code = 407 then statusLine.take 8 ++ ascii " 502 Bad Gateway"
  else statusLine

def writeAnswer (statusLine : List UInt8) (interim : Bool)
    (lines : List (List UInt8)) : List UInt8 :=
  statusLine ++ crlf ++ (if interim then [] else ascii "Connection: close" ++ crlf) ++
    (lines.flatMap fun line => line ++ crlf) ++ crlf

/-- A status line that a client can be handed: the version, a space and three
digits, and nothing or another space behind them. -/
def acceptsStatusLine (statusLine : List UInt8) : Bool :=
  12 ≤ statusLine.length && (ascii "HTTP/1.").isPrefixOf (statusLine.take 8) &&
    statusLine[8]? = some space && ((statusLine.drop 9).take 3).all isDigit &&
    statusLine[12]?.all (· = space)

/-- Rewrite the head of a response, which comes without the empty line that ends
it. -/
def rewriteResponse (head : List UInt8) (headOnly : Bool) :
    Option ResponseHead :=
  let lines := originLines head
  if lines.any (·.any isForbiddenControl) then none
  else
    match lines with
    | [] => none
    | statusLine :: lines =>
      if !acceptsStatusLine statusLine then none
      else
        let code := digitsValue ((statusLine.drop 9).take 3)
        if code = 101 then none
        else do
          let fields ← lines.mapM readOriginField
          let listed := originListed fields
          let interim := 100 ≤ code && code < 200
          let body ← relayedBody interim headOnly code fields
          let kept := fields.filter fun field => !isDropped field.name listed
          some
            { bytes := writeAnswer (answerLine statusLine code) interim
                (kept.map ClientField.line)
              interim
              body }

end WarrenSdk.Net
