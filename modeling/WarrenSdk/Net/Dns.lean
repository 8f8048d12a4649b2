import WarrenSdk.Bolthole.Ip

/-! # The name lookups' codec

One question with recursion desired, and a reader of responses that skips names
and collects the addresses of one record type. -/

namespace WarrenSdk.Net.Dns

open Bolthole

inductive RecordType
  | a
  | aaaa
  deriving DecidableEq

def typeA : UInt16 := 1
def typeAaaa : UInt16 := 28
def classIn : UInt16 := 1
def flagRd : UInt16 := 0x0100
def flagQr : UInt16 := 0x8000
def rcodeMask : UInt16 := 0x000f
def pointerMask : UInt8 := 0xc0
def headerLen : Nat := 12

def RecordType.qtype : RecordType → UInt16
  | .a => typeA
  | .aaaa => typeAaaa

def RecordType.rdlen : RecordType → Nat
  | .a => 4
  | .aaaa => 16

inductive DnsError
  | invalidName
  | truncated
  | idMismatch
  | serverFailure
  | noAddress
  deriving DecidableEq

/-! ## Queries -/

def dot : UInt8 := 46

def stripDot (name : List UInt8) : List UInt8 :=
  if name.getLast? = some dot then name.dropLast else name

def encodeLabels : List (List UInt8) → Except DnsError (List UInt8)
  | [] => .ok []
  | label :: rest =>
    if label.isEmpty || decide (63 < label.length) then .error .invalidName
    else do
      let encoded ← encodeLabels rest
      .ok (UInt8.ofNat label.length :: label ++ encoded)

def encodeName (name : List UInt8) : Except DnsError (List UInt8) :=
  let trimmed := stripDot name
  if trimmed.isEmpty then .error .invalidName
  else do
    let labels ← encodeLabels (trimmed.splitOn dot)
    if 255 < labels.length + 1 then .error .invalidName
    else .ok (labels ++ [0])

def encodeQuery (name : List UInt8) (id : UInt16) (rtype : RecordType) :
    Except DnsError (List UInt8) := do
  let encoded ← encodeName name
  .ok (u16Bytes id ++ u16Bytes flagRd ++ u16Bytes 1 ++ u16Bytes 0 ++
    u16Bytes 0 ++ u16Bytes 0 ++ encoded ++ u16Bytes rtype.qtype ++ u16Bytes classIn)

/-! ## Responses -/

/-- The offset just past the name at `pos`. Every label advances, so the length
of the buffer bounds the rounds. -/
def skipNameFrom (buf : List UInt8) : Nat → Nat → Except DnsError Nat
  | 0, _ => .error .truncated
  | rounds + 1, pos =>
    match buf[pos]? with
    | none => .error .truncated
    | some len =>
      if len &&& pointerMask = pointerMask then .ok (pos + 2)
      else if len = 0 then .ok (pos + 1)
      else if buf.length < pos + 1 + len.toNat then .error .truncated
      else skipNameFrom buf rounds (pos + 1 + len.toNat)

def skipName (buf : List UInt8) (pos : Nat) : Except DnsError Nat :=
  skipNameFrom buf (buf.length + 1) pos

def skipQuestions (buf : List UInt8) : Nat → Nat → Except DnsError Nat
  | 0, pos => .ok pos
  | count + 1, pos => do
    let past ← skipName buf pos
    if buf.length < past + 4 then .error .truncated
    else skipQuestions buf count (past + 4)

structure Record where
  recType : UInt16
  rclass : UInt16
  ttl : Nat
  rdata : List UInt8
  deriving DecidableEq

def readRecord (buf : List UInt8) (pos : Nat) : Except DnsError (Record × Nat) := do
  let start ← skipName buf pos
  if buf.length < start + 10 then .error .truncated
  else
    let rdlength := (u16At buf (start + 8)).toNat
    if buf.length < start + 10 + rdlength then .error .truncated
    else
      .ok ({ recType := u16At buf start
             rclass := u16At buf (start + 2)
             ttl := Bytes.toNat (Bytes.slice buf (start + 4) 4)
             rdata := Bytes.slice buf (start + 10) rdlength },
        start + 10 + rdlength)

namespace Record

def matchesType (record : Record) (want : RecordType) : Bool :=
  decide (record.recType = want.qtype) && decide (record.rclass = classIn) &&
    decide (record.rdata.length = want.rdlen)

def address (record : Record) (want : RecordType) : IpAddr :=
  match want with
  | .a => .v4 (.ofOctets record.rdata)
  | .aaaa => .v6 (.ofOctets record.rdata)

end Record

def u32Max : Nat := 4294967295

def collect (buf : List UInt8) (want : RecordType) :
    Nat → Nat → List IpAddr → Nat → Except DnsError (List IpAddr × Nat)
  | 0, _, addrs, minTtl => .ok (addrs, minTtl)
  | count + 1, pos, addrs, minTtl => do
    let (record, next) ← readRecord buf pos
    if record.matchesType want then
      collect buf want count next (addrs ++ [record.address want]) (min minTtl record.ttl)
    else collect buf want count next addrs minTtl

def parseResponseTtl (buf : List UInt8) (id : UInt16) (want : RecordType) :
    Except DnsError (List IpAddr × Nat) :=
  if buf.length < headerLen then .error .truncated
  else if u16At buf 0 ≠ id then .error .idMismatch
  else if u16At buf 2 &&& flagQr = 0 ∨ u16At buf 2 &&& rcodeMask ≠ 0 then
    .error .serverFailure
  else do
    let pos ← skipQuestions buf (u16At buf 4).toNat headerLen
    let (addrs, minTtl) ←
      collect buf want (u16At buf 6).toNat pos [] u32Max
    if addrs.isEmpty then .error .noAddress
    else .ok (addrs, if minTtl = u32Max then 0 else minTtl)

/-! ## What a response says -/

def records (buf : List UInt8) : Nat → Nat → Except DnsError (List Record)
  | 0, _ => .ok []
  | count + 1, pos => do
    let (record, next) ← readRecord buf pos
    let rest ← records buf count next
    .ok (record :: rest)

def answers (buf : List UInt8) : Except DnsError (List Record) := do
  let pos ← skipQuestions buf (u16At buf 4).toNat headerLen
  records buf (u16At buf 6).toNat pos

def lifetime (answered : List Record) : Nat := (answered.map Record.ttl).foldl min u32Max

/-- A response to the query `id` whose first address of the wanted type is `ip`,
to be kept for `ttl` seconds. -/
structure Answers (buf : List UInt8) (id : UInt16) (want : RecordType)
    (ip : IpAddr) (ttl : Nat) : Prop where
  echoed : u16At buf 0 = id
  response : u16At buf 2 &&& flagQr ≠ 0 ∧ u16At buf 2 &&& rcodeMask = 0
  first : ∃ all record rest, answers buf = .ok all ∧
    all.filter (·.matchesType want) = record :: rest ∧
    ip = record.address want ∧ ttl ≤ lifetime (record :: rest)

theorem collect_eq :
    collect buf want count pos addrs minTtl = (records buf count pos).map fun all =>
        (addrs ++ (all.filter (·.matchesType want)).map (·.address want),
          ((all.filter (·.matchesType want)).map Record.ttl).foldl min minTtl) := by
  induction count generalizing pos addrs minTtl with
  | zero => simp [collect, records, Except.map]
  | succ count induction =>
    rw [collect, records]
    cases readRecord buf pos with
    | error refused => rfl
    | ok found =>
      rcases found with ⟨record, next⟩
      simp only [bind, Except.bind]
      cases wanted : record.matchesType want with
      | true =>
        simp only [if_true, induction]
        cases records buf count next with
        | error refused => rfl
        | ok rest => simp [Except.map, wanted]
      | false =>
        simp only [Bool.false_eq_true, if_false, induction]
        cases records buf count next with
        | error refused => rfl
        | ok rest => simp [Except.map, wanted]

theorem answers_of_parse {id : UInt16}
    (parsed : parseResponseTtl buf id want = .ok (ip :: more, ttl)) :
    Answers buf id want ip ttl := by
  rw [parseResponseTtl] at parsed
  split_ifs at parsed with short other refused
  simp only [not_or, not_not] at refused
  refine ⟨by simpa using other, refused, ?_⟩
  cases skipped : skipQuestions buf (u16At buf 4).toNat headerLen with
  | error refused => simp [skipped, bind, Except.bind] at parsed
  | ok pos =>
    simp only [skipped, bind, Except.bind, collect_eq] at parsed
    cases read : records buf (u16At buf 6).toNat pos with
    | error refused => simp [read, Except.map] at parsed
    | ok all =>
      have answered : answers buf = .ok all := by simp [answers, skipped, read, bind, Except.bind]
      simp only [read, Except.map, List.nil_append] at parsed
      split at parsed
      · cases parsed
      · simp only [Except.ok.injEq, Prod.mk.injEq] at parsed
        rcases parsed with ⟨addresses, lifetimes⟩
        rcases List.map_eq_cons_iff.mp addresses with ⟨record, rest, selected, first, _⟩
        refine ⟨all, record, rest, answered, selected, first.symm, ?_⟩
        rw [selected] at lifetimes
        rw [← lifetimes, lifetime]
        split
        · exact Nat.zero_le _
        · exact Nat.le_refl _

end WarrenSdk.Net.Dns
