import WarrenSdk.Foundation.Execution
import WarrenSdk.Net.Http.Chunked
import WarrenSdk.Net.Http.Forward

/-! # Relaying a request

The upload of an exchange: the head is written, then the body is relayed by its
framing from a reader that first gives what the client sent early. Whatever it
waits for, a read or a write, may fail or come in pieces of any size, and the
answer of the origin may end it. -/

namespace WarrenSdk.Net

open Http

def clientBuffer : Nat := 8 * 1024

inductive Ending
  | client
  | origin
  | answered
  deriving DecidableEq

/-- Where the upload is. A point that writes has what is left to be written. -/
inductive Point
  /-- The head is written. -/
  | head (rest : List UInt8)
  /-- Bytes are to be copied, in a chunk or as the whole body. -/
  | copy (chunked : Bool) (left : Nat)
  /-- The first bytes of the buffer are written. -/
  | copying (chunked : Bool) (left count : Nat) (rest : List UInt8)
  /-- The line before a chunk is read. -/
  | sizeLine (read : List UInt8)
  | sizing (size : Nat) (rest : List UInt8)
  /-- The end of a chunk is read. -/
  | chunkEnd (read : List UInt8)
  | ending (rest : List UInt8)
  /-- A line behind the last chunk is read. -/
  | trailerLine (total : Nat) (read : List UInt8)
  | closing (rest : List UInt8)
  /-- What the client still sends is dropped. -/
  | delivered
  deriving DecidableEq

namespace Point

def rest : Point → List UInt8
  | head rest => rest
  | copying _ _ _ rest => rest
  | sizing _ rest => rest
  | ending rest => rest
  | closing rest => rest
  | _ => []

def withRest (point : Point) (rest : List UInt8) : Point :=
  match point with
  | head _ => head rest
  | copying chunked left count _ => copying chunked left count rest
  | sizing size _ => sizing size rest
  | ending _ => ending rest
  | closing _ => closing rest
  | other => other

def reads : Point → Bool
  | copy _ left => 0 < left
  | sizeLine _ | chunkEnd _ | trailerLine _ _ | delivered => true
  | _ => false

end Point

/-- An upload with its history: what the client sent behind the head, as far as
it was read, and what was written to the origin. -/
structure Upload where
  body : BodyLength
  capacity : Nat
  buffer : List UInt8
  point : Point
  ended : Option Ending
  received : List UInt8
  written : List UInt8
  deriving DecidableEq

/-- What can happen next: the upload goes on by itself, a read gives bytes (or
none, when the client has closed), a write takes some. -/
inductive Event
  | advance
  | read (bytes : List UInt8)
  | readError
  | wrote (count : Nat)
  | writeError
  | answered
  deriving DecidableEq

def Event.live : Event → Bool
  | .advance | .wrote _ => true
  | .read bytes => bytes ≠ []
  | .readError | .writeError | .answered => false

namespace Upload

def start (request : ForwardRequest) (early : List UInt8) : Upload where
  body := request.body
  capacity := max clientBuffer early.length
  buffer := early
  point := .head request.head
  ended := none
  received := early
  written := []

def consume (upload : Upload) (count : Nat) : Upload :=
  { upload with buffer := upload.buffer.drop count }

def goto (upload : Upload) (point : Point) : Upload := { upload with point }

def stop (upload : Upload) (ending : Ending) : Upload :=
  { upload with ended := some ending }

/-! ## Going on without waiting -/

def upToLine : Nat → List UInt8 → List UInt8
  | 0, _ => []
  | _, [] => []
  | limit + 1, byte :: rest =>
    if byte = lf then [byte] else byte :: upToLine limit rest

/-- Read on in a line. A line that is complete is handed to `finish`; one that
is not, or not well formed, breaks the framing. -/
def readLine (upload : Upload) (read : List UInt8)
    (point : List UInt8 → Point) (finish : Upload → List UInt8 → Upload) : Option Upload :=
  if upload.buffer = [] then none
  else
    let taken := upToLine (maxChunkLine - read.length) upload.buffer
    let line := read ++ taken
    let upload := (upload.consume taken.length).goto (point line)
    if line.getLast? = some lf || maxChunkLine ≤ line.length then
      match lineText line with
      | none => some (upload.stop .client)
      | some text => some (finish upload text)
    else some upload

def sizeRead (upload : Upload) (text : List UInt8) : Upload :=
  match chunkSize text with
  | none => upload.stop .client
  | some size => upload.goto (.sizing size (text ++ crlf))

def trailerRead (total : Nat) (upload : Upload) (text : List UInt8) : Upload :=
  if text = [] then upload.goto (.closing crlf)
  else if maxChunkLine < total + (text ++ crlf).length then upload.stop .client
  else upload.goto (.trailerLine (total + (text ++ crlf).length) [])

def readEnd (upload : Upload) (read : List UInt8) : Option Upload :=
  if upload.buffer = [] then none
  else
    let taken := upload.buffer.take (2 - read.length)
    let read := read ++ taken
    let upload := (upload.consume taken.length).goto (.chunkEnd read)
    if read.length < 2 then some upload
    else if read = crlf then some (upload.goto (.ending crlf))
    else some (upload.stop .client)

def beginBody (upload : Upload) : Option Upload :=
  match upload.body with
  | .none => some (upload.goto .delivered)
  | .exactly length => some (upload.goto (.copy false length))
  | .chunked => some (upload.goto (.sizeLine []))
  -- Only a response ends with its connection.
  | .untilClose => none

def advance (upload : Upload) : Option Upload :=
  match upload.point with
  | .head [] => upload.beginBody
  | .copy chunked 0 => some (upload.goto (if chunked then .chunkEnd [] else .delivered))
  | .copy chunked (left + 1) =>
    if upload.buffer = [] then none
    else
      let count := min upload.buffer.length (left + 1)
      some (upload.goto (.copying chunked (left + 1) count (upload.buffer.take count)))
  | .copying chunked left count [] =>
    some ((upload.consume count).goto (.copy chunked (left - count)))
  | .sizeLine read => upload.readLine read .sizeLine sizeRead
  | .sizing size [] => some (upload.goto (if size = 0 then .trailerLine 0 [] else .copy true size))
  | .chunkEnd read => upload.readEnd read
  | .ending [] => some (upload.goto (.sizeLine []))
  | .trailerLine total read => upload.readLine read (.trailerLine total) (trailerRead total)
  | .closing [] => some (upload.goto .delivered)
  | .delivered => if upload.buffer = [] then none else some (upload.consume 1024)
  | _ => none

/-! ## Steps -/

/-- What a read that gives nothing does to the upload: before the request is
complete it breaks its framing. -/
def lost (upload : Upload) : Upload :=
  if upload.point = .delivered then upload else upload.stop .client

def handle (upload : Upload) : Event → Option Upload
  | .advance => upload.advance
  | .read bytes =>
    if upload.buffer = [] && upload.point.reads && bytes.length ≤ upload.capacity then
      if bytes = [] then some upload.lost
      else
        some { upload with
          buffer := bytes, received := upload.received ++ bytes }
    else none
  | .readError =>
    if upload.buffer = [] && upload.point.reads then some upload.lost
    else none
  | .wrote count =>
    let rest := upload.point.rest
    if 0 < count && count ≤ rest.length then
      some { upload with
        point := upload.point.withRest (rest.drop count)
        written := upload.written ++ rest.take count }
    else none
  | .writeError =>
    if upload.point.rest ≠ [] then some (upload.stop .origin) else none
  | .answered =>
    -- The answer is only read once the head was written.
    match upload.point with
    | .head _ => none
    | _ => some (upload.stop .answered)

/-- Nothing more happens to an upload that has ended. -/
def next (upload : Upload) (event : Event) : Option Upload :=
  if upload.ended.isSome then none else upload.handle event

def step (upload : Upload) (event : Event) : Upload := (upload.next event).getD upload

def run (request : ForwardRequest) (early : List UInt8) (events : List Event) : Upload :=
  Execution.run step (start request early) events

end Upload

end WarrenSdk.Net
