import WarrenSdk.Bolthole.Address
import WarrenSdk.Net.Http.Message

/-! # Authorities

The host and the port that a request names. Reading an IPv6 address is left to
the standard library. -/

namespace WarrenSdk.Net

open Bolthole Http

/-- Where a request goes. Domain names are kept for the exit to resolve. -/
inductive Target
  | ip (addr : SocketAddr)
  | domain (host : List UInt8) (port : UInt16)
  deriving DecidableEq

def parseDigits (bound : Nat) (text : List UInt8) : Option Nat :=
  match parseLength text with
  | some value => if value < bound then some value else none
  | none => none

/-- A port in text; a sign before it is accepted. -/
def parseU16 (text : List UInt8) : Option UInt16 :=
  let digits :=
    match text with
    | 0x2b :: rest => rest
    | _ => text
  (parseDigits 65536 digits).map UInt16.ofNat

/-- An octet of a dotted address, without zeros before it. -/
def parseOctet (text : List UInt8) : Option UInt8 :=
  if 3 < text.length || (1 < text.length && text.head? = some 0x30) then none
  else (parseDigits 256 text).map UInt8.ofNat

def parseIpv4 (text : List UInt8) : Option Ipv4Addr :=
  match text.splitOn 0x2e with
  | [first, second, third, fourth] => do
    let octets ← [first, second, third, fourth].mapM parseOctet
    return .ofOctets octets
  | _ => none

def parseSocketAddrV4 (text : List UInt8) : Option SocketAddr :=
  match Text.splitOnce colon text with
  | none => none
  | some (host, port) => do
    let addr ← parseIpv4 host
    let port ← parseDigits 65536 port
    return ⟨.v4 addr, UInt16.ofNat port⟩

def rsplitOnce (separator : UInt8) (text : List UInt8) : Option (List UInt8 × List UInt8) :=
  (Text.splitOnce separator text.reverse).map fun parts => (parts.2.reverse, parts.1.reverse)

section

variable (parseIpv6 : List UInt8 → Option Ipv6Addr)

def parseAuthority (authority : List UInt8) : Option Target :=
  match authority with
  | 0x5b :: rest => do
    let (host, port) ← Text.splitOncePair 0x5d colon rest
    let addr ← parseIpv6 host
    let port ← parseU16 port
    return .ip ⟨.v6 addr, port⟩
  | _ =>
    match parseSocketAddrV4 authority with
    | some addr => some (.ip addr)
    | none => do
      let (host, port) ← rsplitOnce colon authority
      if colon ∈ host then none
      else
        let port ← parseU16 port
        return .domain host port

def portOf (authority : List UInt8) : Option (List UInt8) :=
  match authority with
  | 0x5b :: bracketed => (Text.splitOncePair 0x5d colon bracketed).map Prod.snd
  | _ => (Text.splitOnce colon authority).map Prod.snd

def acceptTarget (withPort : List UInt8) : Option Target :=
  match parseAuthority parseIpv6 withPort with
  | some (.domain host port) =>
    if host = [] then none else some (.domain host port)
  | some target => some target
  | none => none

/-- The target that an authority names, on port 80 when it names none. -/
def targetOf (authority : List UInt8) : Option Target :=
  match portOf authority with
  | some port =>
    if port ≠ [] && port.all isDigit then acceptTarget parseIpv6 authority
    else none
  | none => acceptTarget parseIpv6 (authority ++ ascii ":80")

/-! ## What an authority names -/

inductive NamesPort : List UInt8 → UInt16 → Prop
  | default : NamesPort [] 80
  | digits {text : List UInt8} {value : Nat}
      (spelled : parseLength text = some value) (small : value < 65536) :
      NamesPort (colon :: text) (UInt16.ofNat value)

/-- The host and the port that an authority names: an IPv6 address in brackets,
a dotted IPv4 address or, if it is neither, a host to be resolved. -/
inductive Names : List UInt8 → Target → Prop
  | ipv6 {text port : List UInt8} {addr : Ipv6Addr} {number : UInt16}
      (read : parseIpv6 text = some addr) (numbered : NamesPort port number) :
      Names (0x5b :: (text ++ 0x5d :: port)) (.ip ⟨.v6 addr, number⟩)
  | ipv4 {text port : List UInt8} {addr : Ipv4Addr} {number : UInt16}
      (read : parseIpv4 text = some addr) (numbered : NamesPort port number) :
      Names (text ++ port) (.ip ⟨.v4 addr, number⟩)
  | domain {host port : List UInt8} {number : UInt16} (nonempty : host ≠ [])
      (open_ : host.head? ≠ some 0x5b) (whole : colon ∉ host)
      (undotted : parseIpv4 host = none) (numbered : NamesPort port number) :
      Names (host ++ port) (.domain host number)

end

/-! ## The target is the one that the authority names -/

theorem parseDigits_eq_some :
    parseDigits bound text = some value ↔ parseLength text = some value ∧ value < bound := by
  rw [parseDigits]
  cases parseLength text with
  | none => simp
  | some length =>
    dsimp only
    split_ifs with small <;> grind

theorem parseU16_digits (digits : ∀ byte ∈ text, isDigit byte) :
    parseU16 text = (parseDigits 65536 text).map UInt16.ofNat := by
  rw [parseU16]
  rintro rest rfl
  cases digits 0x2b (.head _)

theorem rsplitOnce_append (before : List UInt8) (absent : separator ∉ after) :
    rsplitOnce separator (before ++ separator :: after) = some (before, after) := by
  have clear : separator ∉ after.reverse := by rwa [List.mem_reverse]
  have turned : (before ++ separator :: after).reverse =
      after.reverse ++ separator :: before.reverse := by simp
  rw [rsplitOnce, turned, Text.splitOnce_append clear]
  simp

theorem colon_not_mem_digits {text : List UInt8}
    (digits : ∀ byte ∈ text, isDigit byte) : colon ∉ text := by
  intro member
  cases digits colon member

section

theorem parseAuthority_open (bare : (host ++ colon :: port).head? ≠ some 0x5b)
    (whole : colon ∉ host) (digits : ∀ byte ∈ port, isDigit byte) :
    parseAuthority parseIpv6 (host ++ colon :: port) = (parseDigits 65536 port).map fun value =>
        match parseIpv4 host with
        | some addr => .ip ⟨.v4 addr, UInt16.ofNat value⟩
        | none => .domain host (UInt16.ofNat value) := by
  have first : Text.splitOnce colon (host ++ colon :: port) =
      some (host, port) := Text.splitOnce_append whole port
  have last : rsplitOnce colon (host ++ colon :: port) =
      some (host, port) := rsplitOnce_append host (colon_not_mem_digits digits)
  rw [parseAuthority.eq_2, parseSocketAddrV4, first, last]
  · cases dotted : parseIpv4 host <;>
      cases spelled : parseDigits 65536 port <;>
      simp [whole, parseU16_digits digits, dotted, spelled]
  · intro rest same
    rw [same] at bare
    exact bare rfl

theorem acceptTarget_open (bare : (host ++ colon :: port).head? ≠ some 0x5b)
    (whole : colon ∉ host) (digits : ∀ byte ∈ port, isDigit byte)
    (accepted : acceptTarget parseIpv6 (host ++ colon :: port) = some target) :
    ∃ value, parseLength port = some value ∧ value < 65536 ∧ ((∃ addr, parseIpv4 host = some addr ∧
          target = .ip ⟨.v4 addr, UInt16.ofNat value⟩) ∨
        (host ≠ [] ∧ parseIpv4 host = none ∧ target = .domain host (UInt16.ofNat value))) := by
  rw [acceptTarget, parseAuthority_open bare whole digits] at accepted
  cases spelled : parseDigits 65536 port with
  | none =>
    rw [spelled] at accepted
    cases accepted
  | some value =>
    rcases parseDigits_eq_some.mp spelled with ⟨length, small⟩
    rw [spelled, Option.map_some] at accepted
    refine ⟨value, length, small, ?_⟩
    cases dotted : parseIpv4 host with
    | some addr =>
      rw [dotted] at accepted
      cases accepted
      exact .inl ⟨addr, rfl, rfl⟩
    | none =>
      rw [dotted] at accepted
      dsimp only at accepted
      split_ifs at accepted with empty
      cases accepted
      exact .inr ⟨empty, rfl, rfl⟩

theorem acceptTarget_bracketed (accepted : acceptTarget parseIpv6 (0x5b :: rest) = some target)
    (parts : Text.splitOncePair 0x5d colon rest = some (host, port))
    (digits : ∀ byte ∈ port, isDigit byte) : ∃ addr value, parseIpv6 host = some addr ∧
      parseLength port = some value ∧ value < 65536 ∧
      target = .ip ⟨.v6 addr, UInt16.ofNat value⟩ := by
  rw [acceptTarget, parseAuthority, parts] at accepted
  cases read : parseIpv6 host with
  | none => simp [read] at accepted
  | some addr =>
    cases spelled : parseDigits 65536 port with
    | none => simp [read, parseU16_digits digits, spelled] at accepted
    | some value =>
      simp [read, parseU16_digits digits, spelled] at accepted
      rcases parseDigits_eq_some.mp spelled with ⟨length, small⟩
      exact ⟨addr, value, rfl, length, small, accepted.symm⟩

/-- A host without brackets is named with the port that follows it. -/
theorem names_open (bare : (host ++ colon :: spelled).head? ≠ some 0x5b)
    (whole : colon ∉ host) (digits : ∀ byte ∈ spelled, isDigit byte)
    (accepted : acceptTarget parseIpv6 (host ++ colon :: spelled) = some target)
    (numbered : ∀ value, parseLength spelled = some value → value < 65536 →
      NamesPort port (UInt16.ofNat value)) :
    Names parseIpv6 (host ++ port) target := by
  rcases acceptTarget_open bare whole digits accepted with
    ⟨value, length, small, ⟨addr, dotted, rfl⟩ | ⟨nonempty, undotted, rfl⟩⟩
  · exact .ipv4 dotted (numbered value length small)
  · refine .domain nonempty ?_ whole undotted (numbered value length small)
    rwa [List.head?_append_of_ne_nil _ nonempty] at bare

theorem names_bracketed (accepted : targetOf parseIpv6 (0x5b :: rest) = some target) :
    Names parseIpv6 (0x5b :: rest) target := by
  rw [targetOf, portOf] at accepted
  cases parts : Text.splitOncePair 0x5d colon rest with
  | some pair =>
    rcases pair with ⟨host, port⟩
    rw [parts] at accepted
    dsimp only [Option.map_some] at accepted
    split_ifs at accepted with digits
    simp only [ne_eq, Bool.and_eq_true, List.all_eq_true] at digits
    rcases acceptTarget_bracketed accepted parts digits.2 with
      ⟨addr, value, read, length, small, rfl⟩
    rw [Text.splitOncePair_eq_some parts]
    exact .ipv6 read (.digits length small)
  | none =>
    rw [parts] at accepted
    dsimp only [Option.map_none] at accepted
    -- The port that was added closes the brackets.
    have digits : ∀ byte ∈ ascii "80", isDigit byte = true := List.all_eq_true.mp (by decide)
    cases found : Text.splitOncePair 0x5d colon (rest ++ ascii ":80") with
    | none =>
      rw [List.cons_append, acceptTarget, parseAuthority, found] at accepted
      cases accepted
    | some pair =>
      rcases pair with ⟨host, port⟩
      rcases Text.splitOncePair_append parts (by decide) found with ⟨rfl, rfl⟩
      rcases acceptTarget_bracketed accepted found digits with
        ⟨addr, value, read, length, small, rfl⟩
      cases length
      exact .ipv6 read .default

/-- The target has the host and the port that the authority names. -/
theorem targetOf_names (accepted : targetOf parseIpv6 authority = some target) :
    Names parseIpv6 authority target := by
  by_cases bracket : authority.head? = some 0x5b
  · rcases List.head?_eq_some_iff.mp bracket with ⟨rest, rfl⟩
    exact names_bracketed accepted
  · have bare : ∀ rest, authority = 0x5b :: rest → False := by
      rintro rest rfl
      exact bracket rfl
    rw [targetOf, portOf.eq_2 _ bare] at accepted
    cases parts : Text.splitOnce colon authority with
    | some pair =>
      rcases pair with ⟨host, port⟩
      rcases Text.splitOnce_eq_some parts with ⟨rfl, whole⟩
      rw [parts] at accepted
      dsimp only [Option.map_some] at accepted
      split_ifs at accepted with digits
      simp only [ne_eq, Bool.and_eq_true, List.all_eq_true] at digits
      exact names_open bracket whole digits.2 accepted
        fun value length small => .digits length small
    | none =>
      rw [parts] at accepted
      have whole := Text.splitOnce_eq_none parts
      have named : Names parseIpv6 (authority ++ []) target := by
        apply names_open _ whole (List.all_eq_true.mp (by decide)) accepted
        · intro value length _
          cases length
          exact .default
        · cases authority with
          | nil => decide
          | cons first rest => exact bracket
      rwa [List.append_nil] at named

end

end WarrenSdk.Net
