import WarrenSdk.Net.Http.Written

/-! # A rewritten request is read in one way

What the origin gets is a head that the rules of HTTP/1.1 read in one way only:
as the client's request, for the host that the proxy dials, with a body as long
as the one that the proxy relays. -/

namespace WarrenSdk.Net

open Bolthole Http List

/-! ## The target of the request -/

structure Url (target scheme authority tail : List UInt8) : Prop where
  parts : target = scheme ++ authority ++ tail
  http : lowercase scheme = ascii "http://"
  nonempty : authority ≠ []
  authority : ∀ byte ∈ authority, endsAuthority byte = false ∧ byte ≠ 0x40
  tail : ∀ byte, tail.head? = some byte → endsAuthority byte = true

theorem splitAbsolute_eq_some (parts : splitAbsolute target = some (authority, origin))
    (absolute : isAbsoluteHttp target) : ∃ scheme tail, Url target scheme authority tail ∧
      origin = originForm (tail.takeWhile (· ≠ hash)) := by
  rw [splitAbsolute] at parts
  split_ifs at parts with short
  dsimp only at parts
  split_ifs at parts with refused
  simp only [Bool.or_eq_true, decide_eq_true_eq, not_or] at refused
  cases parts
  refine ⟨target.take 7, (target.drop 7).dropWhile (!endsAuthority ·),
    ⟨?_, by simpa [isAbsoluteHttp] using absolute, refused.1, ?_, ?_⟩, rfl⟩
  · rw [append_assoc, takeWhile_append_dropWhile, take_append_drop]
  · intro byte member
    constructor
    · simpa using mem_takeWhile_imp member
    · rintro rfl
      exact refused.2 member
  · intro byte first
    have stops := List.head?_dropWhile_not (!endsAuthority ·) (target.drop 7)
    rw [first] at stops
    simpa using stops

theorem isOriginForm_originForm {tail : List UInt8} (url : Url target scheme authority tail)
    (graphic : ∀ byte ∈ target, isGraphic byte) :
    isOriginForm (originForm (tail.takeWhile (· ≠ hash))) := by
  have visible : ∀ byte ∈ tail.takeWhile (· ≠ hash), isGraphic byte = true ∧ byte ≠ hash := by
    intro byte member
    constructor
    · apply graphic
      rw [url.parts, mem_append]
      exact .inr ((takeWhile_sublist _).subset member)
    · simpa using mem_takeWhile_imp member
  have first : ∀ byte, (tail.takeWhile (· ≠ hash)).head? = some byte →
      byte = slash ∨ byte = question := by
    intro byte begins
    have kept := (visible byte (mem_of_head? begins)).2
    have ends : endsAuthority byte = true := by
      apply url.tail
      cases tail with
      | nil => cases begins
      | cons letter rest =>
        rw [takeWhile_cons] at begins
        split_ifs at begins
        · exact begins
        · cases begins
    simpa [endsAuthority, kept] using ends
  cases path : tail.takeWhile (· ≠ hash) with
  | nil => decide
  | cons byte rest =>
    rw [path] at visible first
    have graphic : (byte :: rest).all isGraphic = true :=
      all_eq_true.mpr fun other member => (visible other member).1
    have whole : hash ∉ byte :: rest := fun member => (visible _ member).2 rfl
    rcases first byte rfl with rfl | rfl
    · rw [originForm, if_neg (by decide), isOriginForm, graphic]
      simp [whole]
    · have added : isGraphic slash = true ∧ hash ≠ slash := by decide
      rw [originForm, if_pos rfl, isOriginForm, all_cons, graphic]
      simp [whole, added]

/-! ## Names that a connection lists -/

/-- Text of nothing but white space. -/
def White (text : List UInt8) : Prop :=
  ∃ runs : List (List UInt8), (∀ run ∈ runs, run ∈ whitespace) ∧ runs.flatten = text

/-- A field of the client about its connection names another, between commas and
white space and in any case. -/
def Lists (fields : List ClientField) (name : List UInt8) : Prop :=
  ∃ field ∈ fields, (field.name = ascii "connection" ∨ field.name = ascii "proxy-connection") ∧
      ∃ front word back, front ++ word ++ back ∈ field.value.splitOn comma ∧
        White front ∧ White back ∧ lowercase word = name

theorem White.of_blank (blank : ∀ byte ∈ text, isBlank byte) : White text := by
  refine ⟨text.map ([·]), ?_, by induction text <;> simp_all⟩
  intro run member
  rcases mem_map.mp member with ⟨byte, inside, rfl⟩
  have tabOrSpace := blank byte inside
  rw [isBlank, Bool.or_eq_true, decide_eq_true_eq, decide_eq_true_eq] at tabOrSpace
  rcases tabOrSpace with rfl | rfl <;> decide

/-- Patterns of which none begins another, nor begins with what can be seen. -/
structure Opening (patterns : List (List UInt8)) : Prop where
  apart : ∀ left ∈ patterns, ∀ right ∈ patterns, left <+: right → left = right
  hidden : ∀ pattern ∈ patterns, ∃ byte ∈ pattern.head?, isGraphic byte = false

theorem opening_whitespace : Opening whitespace where
  apart := by decide +kernel
  hidden := by decide +kernel

theorem opening_reversed : Opening (whitespace.map List.reverse) where
  apart := by decide +kernel
  hidden := by decide +kernel

theorem Opening.find?_run (opening : Opening patterns) (member : run ∈ patterns)
    (rest : List UInt8) : patterns.find? (·.isPrefixOf (run ++ rest)) = some run := by
  cases found : patterns.find? (·.isPrefixOf (run ++ rest)) with
  | none =>
    have none := find?_eq_none.mp found run member
    exact absurd ( isPrefixOf_iff_prefix.mpr (prefix_append run rest)) none
  | some other =>
    have begins : other <+: run ++ rest := by simpa using find?_some found
    have there := mem_of_find?_eq_some found
    rcases prefix_or_prefix_of_prefix begins (prefix_append run rest) with short | long
    · rw [opening.apart other there run member short]
    · rw [opening.apart run member other there long]

theorem Opening.find?_graphic (opening : Opening patterns) (graphic : isGraphic byte)
    (rest : List UInt8) : patterns.find? (·.isPrefixOf (byte :: rest)) = none := by
  rw [List.find?_eq_none]
  intro pattern member begins
  rcases opening.hidden pattern member with ⟨letter, first, hidden⟩
  cases pattern with
  | nil => cases first
  | cons other pattern =>
    cases first
    rw [isPrefixOf_cons_cons, Bool.and_eq_true, beq_iff_eq] at begins
    rw [begins.1, graphic] at hidden
    cases hidden

theorem Opening.trimStart {runs : List (List UInt8)} (opening : Opening patterns)
    (white : ∀ run ∈ runs, run ∈ patterns)
    (graphic : ∀ byte, rest.head? = some byte → isGraphic byte)
    (nonempty : rest ≠ []) (enough : runs.flatten.length ≤ fuel) :
    trimStart patterns fuel (runs.flatten ++ rest) = rest := by
  induction runs generalizing fuel with
  | nil =>
    cases rest with
    | nil => exact absurd rfl nonempty
    | cons byte rest =>
      cases fuel with
      | zero => rfl
      | succ fuel =>
        rw [flatten_nil, nil_append, Net.trimStart, opening.find?_graphic (graphic byte rfl)]
  | cons run runs induction =>
    rcases forall_mem_cons.mp white with ⟨here, others⟩
    have some_ : 0 < run.length := by
      rcases opening.hidden run here with ⟨byte, first, _⟩
      exact length_pos_of_mem (mem_of_mem_head? first)
    rw [flatten_cons, length_append] at enough
    cases fuel with
    | zero => omega
    | succ fuel =>
      rw [flatten_cons, append_assoc, Net.trimStart, opening.find?_run here]
      simp only [drop_left]
      exact induction others (by omega)

/-- What is trimmed off is white space. -/
theorem trimStart_parts (patterns : List (List UInt8)) (fuel : Nat) (text : List UInt8) :
    ∃ runs : List (List UInt8), (∀ run ∈ runs, run ∈ patterns) ∧
      runs.flatten ++ trimStart patterns fuel text = text := by
  induction fuel generalizing text with
  | zero => exact ⟨[], by simp, rfl⟩
  | succ fuel induction =>
    rw [trimStart]
    split
    · rename_i pattern found
      have begins : pattern <+: text := by simpa using find?_some found
      rcases begins with ⟨rest, rfl⟩
      rcases induction rest with ⟨runs, white, parts⟩
      refine ⟨pattern :: runs, forall_mem_cons.mpr ⟨mem_of_find?_eq_some found, white⟩, ?_⟩
      rw [drop_left, flatten_cons, append_assoc, parts]
    · exact ⟨[], by simp, rfl⟩

theorem trimUtf8_eq (before : White front)
    (visible : ∀ byte ∈ word, isGraphic byte) (nonempty : word ≠ [])
    (after : White back) : trimUtf8 (front ++ word ++ back) = word := by
  rcases before with ⟨fronts, whiteFront, rfl⟩
  rcases after with ⟨backs, whiteBack, rfl⟩
  have begins : ∀ byte, (word ++ backs.flatten).head? = some byte → isGraphic byte = true := by
    intro byte first
    rw [List.head?_append_of_ne_nil _ nonempty] at first
    exact visible byte (mem_of_head? first)
  have ends : ∀ byte, word.reverse.head? = some byte → isGraphic byte = true := by
    intro byte last
    exact visible byte (mem_reverse.mp (mem_of_head? last))
  have white : ∀ run ∈ (backs.map List.reverse).reverse, run ∈ whitespace.map List.reverse := by
    intro run member
    rcases mem_map.mp (mem_reverse.mp member) with ⟨back, inside, rfl⟩
    exact mem_map_of_mem (whiteBack back inside)
  rw [trimUtf8, append_assoc, opening_whitespace.trimStart whiteFront begins (by simp [nonempty])
      (by simp), reverse_append, reverse_flatten,
    opening_reversed.trimStart white ends (by simp [nonempty])
      (by rw [← reverse_flatten]; simp), reverse_reverse]

theorem trimUtf8_parts (text : List UInt8) :
    ∃ front back, White front ∧ White back ∧ front ++ trimUtf8 text ++ back = text := by
  rcases trimStart_parts whitespace text.length text with ⟨fronts, white, parts⟩
  rw [trimUtf8]
  generalize trimStart whitespace text.length text = middle at parts
  rcases trimStart_parts (whitespace.map List.reverse) middle.length middle.reverse with
    ⟨backs, reversed, rest⟩
  refine ⟨fronts.flatten, backs.flatten.reverse, ⟨fronts, white, rfl⟩,
    ⟨(backs.map List.reverse).reverse, ?_, by rw [reverse_flatten]⟩, ?_⟩
  · intro run member
    rcases mem_map.mp (mem_reverse.mp member) with ⟨back, inside, rfl⟩
    rcases mem_map.mp (reversed back inside) with ⟨pattern, known, rfl⟩
    rwa [reverse_reverse]
  · rw [append_assoc, ← reverse_append, rest, reverse_reverse, parts]

/-- The proxy finds the names that the client's connection lists, and no others. -/
theorem mem_connectionListed (visible : ∀ byte ∈ name, isGraphic byte)
    (nonempty : name ≠ []) : name ∈ connectionListed fields ↔ Lists fields name := by
  simp only [connectionListed, mem_flatMap, mem_filter, Bool.or_eq_true, decide_eq_true_eq, mem_map]
  constructor
  · rintro ⟨field, ⟨member, about⟩, ⟨entry, inside, rfl⟩, _⟩
    rcases trimUtf8_parts entry with ⟨front, back, before, after, parts⟩
    exact ⟨field, member, about, front, _, back, by rwa [parts], before, after, rfl⟩
  · rintro ⟨field, member, about, front, word, back, inside, before, after, rfl⟩
    have graphic : ∀ byte ∈ word, isGraphic byte = true := by
      intro byte member
      rw [← isGraphic_toLower]
      exact visible _ (mem_map_of_mem member)
    refine ⟨field, ⟨member, about⟩, ⟨_, inside, ?_⟩, nonempty⟩
    rw [trimUtf8_eq before graphic (by rintro rfl; exact nonempty rfl) after]

/-! ## The rewritten request -/

structure ClientHead where
  method : List UInt8
  target : List UInt8
  version : List UInt8
  fields : List ClientField

def requestTarget (head : List UInt8) : List UInt8 :=
  (((Text.splitPair cr lf head).headD []).splitOn space).getD 1 []

structure ClientHead.Reads (client : ClientHead) (head : List UInt8) : Prop where
  lines : Text.splitPair cr lf head =
    (client.method ++ [space] ++ client.target ++ [space] ++ client.version) ::
      client.fields.map ClientField.line
  fields : ∀ field ∈ client.fields, readField field.line = some field

/-- The field is one of the message itself, and the proxy's to pass on. -/
def ClientField.Stays (fields : List ClientField) (field : ClientField) : Prop :=
  field.name ∉ hopByHop ∧ (Lists fields field.name → field.name ∈ framing) ∧
    field.name ≠ ascii "host" ∧ field.name ≠ ascii "trailer"

/-- What the origin gets for a client's request: a message that is read in one
way, for the authority of the request's target. -/
structure Rewritten (parseIpv6 : List UInt8 → Option Ipv6Addr)
    (client : ClientHead) (authority : List UInt8) (request : ForwardRequest)
    (message : Request) : Prop where
  parsed : parseRequest request.head = some message
  method : message.method = client.method
  version : message.version = client.version
  url : ∃ scheme tail, Url client.target scheme authority tail ∧
    message.target = originForm (tail.takeWhile (· ≠ hash))
  host : message.fieldsNamed "host" = [⟨ascii "Host", authority⟩]
  connection : message.fieldsNamed "connection" = [⟨ascii "Connection", ascii "close"⟩]
  noHopByHop : ∀ field ∈ message.fields, lowercase field.name ∈ hopByHop →
    field = ⟨ascii "Connection", ascii "close"⟩
  trailer : message.fieldsNamed "trailer" = []
  listed : ∀ field ∈ message.fields, Lists client.fields (lowercase field.name) →
      lowercase field.name ∈ framing ∨ field = ⟨ascii "Host", authority⟩ ∨
        field = ⟨ascii "Connection", ascii "close"⟩
  passed : ∃ stays : ClientField → Bool,
    (∀ field ∈ client.fields, stays field ↔ field.Stays client.fields) ∧
      Text.splitPair cr lf request.head =
        emittedLines client.method message.target client.version authority
          (onlyFirst ClientField.isLength (client.fields.filter stays)) ++ [[]]
  clean : ∀ line ∈ Text.splitPair cr lf request.head, cr ∉ line ∧ lf ∉ line
  framed : message.bodyLength = some request.body
  target : Names parseIpv6 authority request.target

structure Accepts (parseIpv6 : List UInt8 → Option Ipv6Addr)
    (client : ClientHead) (authority origin : List UInt8) (request : ForwardRequest) : Prop where
  token : isToken client.method = true
  version : client.version = ascii "HTTP/1.0" ∨ client.version = ascii "HTTP/1.1"
  graphic : ∀ byte ∈ client.target, isGraphic byte = true
  parts : splitAbsolute client.target = some (authority, origin)
  target : targetOf parseIpv6 authority = some request.target
  fields : ∀ field ∈ client.fields, field.Sound
  body : requestBodyLength client.fields = some request.body
  framed : ¬ (request.body = .chunked ∧ client.version = ascii "HTTP/1.0")
  head : request.head = writeHead client.method origin client.version
    authority ((passedFields client.fields).map ClientField.line)

theorem mapM_readField {fields : List ClientField} (read : lines.mapM readField = some fields) :
    lines = fields.map ClientField.line ∧ ∀ field ∈ fields, readField field.line = some field := by
  induction lines generalizing fields with
  | nil =>
    cases read
    simp
  | cons line lines induction =>
    rw [mapM_cons] at read
    rcases Option.bind_eq_some_iff.mp read with ⟨field, here, rest⟩
    rcases Option.bind_eq_some_iff.mp rest with ⟨others, later, same⟩
    cases same
    rcases induction later with ⟨rfl, sound⟩
    rcases readField_parts here with ⟨_, _, _, _, _, shape⟩
    have line : field.line = line := by rw [shape]
    constructor
    · rw [map_cons, line]
    · intro other member
      rcases mem_cons.mp member with rfl | member
      · rwa [line]
      · exact sound other member

theorem rewriteRequest_accepts {head : List UInt8}
    (accepted : rewriteRequest parseIpv6 head = some request) :
    ∃ client authority origin, client.Reads head ∧ client.target = requestTarget head ∧
      Accepts parseIpv6 client authority origin request := by
  rw [rewriteRequest] at accepted
  dsimp only at accepted
  split_ifs at accepted with control
  have clean : ∀ line ∈ Text.splitPair cr lf head, ∀ byte ∈ line,
      isForbiddenControl byte = false := by simpa using control
  split at accepted
  · cases accepted
  · rename_i requestLine lines split
    rw [split] at clean
    split at accepted
    · rename_i method target version words
      split_ifs at accepted with refused
      simp only [Bool.or_eq_true, Bool.not_eq_true', not_or, Bool.not_eq_false,
        decide_eq_true_eq, List.all_eq_true] at refused
      rcases refused with ⟨⟨token, version_⟩, graphic⟩
      rcases Option.bind_eq_some_iff.mp accepted with ⟨⟨authority, origin⟩, parts, accepted⟩
      rcases Option.bind_eq_some_iff.mp accepted with ⟨destination, dialed, accepted⟩
      rcases Option.bind_eq_some_iff.mp accepted with ⟨fields, read, accepted⟩
      rcases Option.bind_eq_some_iff.mp accepted with ⟨body, length, accepted⟩
      split_ifs at accepted with faulty
      cases accepted
      rcases mapM_readField read with ⟨rfl, sound⟩
      have joined : requestLine = method ++ [space] ++ target ++ [space] ++ version := by
        have whole : [space].intercalate (requestLine.splitOn space) =
          requestLine := List.intercalate_splitOn space
        rw [words] at whole
        rw [← whole]
        simp [List.intercalate]
      refine ⟨⟨method, target, version, fields⟩, authority, origin,
        ⟨by rw [split, joined], sound⟩, by simp [requestTarget, split, words], ⟨token, version_, graphic, parts, dialed,
          ?_, length, by simpa using faulty, ?_⟩⟩
      · intro field member
        refine ⟨sound field member, clean field.line (.tail _ ?_)⟩
        exact List.mem_map_of_mem member
      · rw [(passOn_passed ..).2]
        rfl
    · cases accepted

/-- What is passed on is none of the fields that the proxy keeps. -/
theorem passes_iff {field : ClientField} (sound : field.Sound) :
    field.passes (connectionListed fields) ↔ field.Stays fields := by
  rcases sound.name_visible with ⟨nonempty, visible⟩
  rw [ClientField.Stays, ← mem_connectionListed visible nonempty]
  simp only [ClientField.passes, isDropped, Bool.not_eq_true',
    Bool.or_eq_false_iff, Bool.and_eq_false_iff, decide_eq_false_iff_not,
    not_not, and_assoc, imp_iff_or_not, ne_eq]

section Emitted

theorem mem_emitted (member : field ∈ (emitted method origin version authority
      (passedFields fields)).fields) (sound : ∀ field ∈ fields, field.Sound) :
    field = ⟨ascii "Host", authority⟩ ∨ field = ⟨ascii "Connection", ascii "close"⟩ ∨
      ∃ sent ∈ fields, lowercase field.name = sent.name ∧ sent.Stays fields := by
  simp only [emitted, mem_cons, mem_append, mem_map, not_mem_nil, or_false] at member
  rcases member with rfl | ⟨sent, passed, rfl⟩ | rfl
  · exact .inl rfl
  · rcases mem_passedFields passed with ⟨declared, passes⟩
    have named := sound sent declared
    exact .inr (.inr ⟨sent, declared, named.name_eq, (passes_iff named).mp passes⟩)
  · exact .inr (.inl rfl)

/-- No field that is passed on has a name that the proxy keeps for itself. -/
theorem filter_passedFields_none {name : List UInt8}
    (sound : ∀ field ∈ fields, field.Sound) (kept : name ∈ hopByHop ∨ name = ascii "host" ∨ name = ascii "trailer") :
    (passedFields fields).filter (fun field => field.name = name) = [] := by
  rw [filter_eq_nil_iff]
  intro field member same
  rw [decide_eq_true_eq] at same
  rcases mem_passedFields member with ⟨declared, passes⟩
  rcases (passes_iff (sound field declared)).mp passes with ⟨stays, _, notHost, notTrailer⟩
  rw [same] at stays notHost notTrailer
  rcases kept with hop | host | trailer
  · exact stays hop
  · exact notHost host
  · exact notTrailer trailer

theorem emitted_own (method origin version authority : List UInt8)
    (sound : ∀ field ∈ fields, field.Sound) :
    let message := emitted method origin version authority (passedFields fields)
    message.fieldsNamed "host" = [⟨ascii "Host", authority⟩] ∧
      message.fieldsNamed "connection" = [⟨ascii "Connection", ascii "close"⟩] ∧
      message.fieldsNamed "trailer" = [] := by
  have passed : ∀ field ∈ passedFields fields, field.Sound :=
    fun field member => sound field (mem_passedFields member).1
  dsimp only
  refine ⟨?_, ?_, ?_⟩
  · rw [emitted_fieldsNamed _ _ _ _ passed,
      filter_passedFields_none sound (.inr (.inl rfl)), if_pos rfl, if_neg (by decide)]
    rfl
  · rw [emitted_fieldsNamed _ _ _ _ passed,
      filter_passedFields_none sound (.inl (by decide)), if_neg (by decide), if_pos rfl]
    rfl
  · rw [emitted_fieldsNamed _ _ _ _ passed,
      filter_passedFields_none sound (.inr (.inr rfl)), if_neg (by decide), if_neg (by decide)]
    rfl

end Emitted

theorem Accepts.writable {parseIpv6 : List UInt8 → Option Ipv6Addr}
    {tail : List UInt8}
    (accepts : Accepts parseIpv6 client authority origin request)
    (url : Url client.target scheme authority tail)
    (form : origin = originForm (tail.takeWhile (· ≠ hash))) :
    Writable client.method origin client.version authority (passedFields client.fields) where
  token := accepts.token
  origin := form ▸ isOriginForm_originForm url accepts.graphic
  version := accepts.version
  authority := by
    intro byte member
    apply accepts.graphic
    simp [url.parts, member]
  fields := fun field member => accepts.fields field (mem_passedFields member).1

/-- An accepted request is rewritten into one that is read in one way: the
client's method and version, the origin form of its target, the authority of
the target as its only host, the client's fields that are not the proxy's to
keep, in their order and a length only once, and a body as long as the one that
is relayed. The target that is dialed is the one that the authority names. -/
theorem rewriteRequest_unambiguous
    {parseIpv6 : List UInt8 → Option Ipv6Addr} {head : List UInt8}
    {request : ForwardRequest}
    (accepted : rewriteRequest parseIpv6 head = some request)
    (http : isAbsoluteHttp (requestTarget head)) :
    ∃ client authority message, client.Reads head ∧
      Rewritten parseIpv6 client authority request message := by
  rcases rewriteRequest_accepts accepted with ⟨client, authority, origin, reads, target, accepts⟩
  rw [← target] at http
  rcases splitAbsolute_eq_some accepts.parts http with ⟨scheme, tail, url, form⟩
  have writable := accepts.writable url form
  have lines := writable.splitPair
  rw [← accepts.head] at lines
  rcases emitted_own client.method origin client.version authority
    accepts.fields with ⟨host, connection, trailer⟩
  refine ⟨client, authority, emitted client.method origin client.version
    authority (passedFields client.fields), reads, ?_⟩
  exact {
    parsed := by rw [accepts.head, writable.parseRequest_writeHead]
    method := rfl
    version := rfl
    url := ⟨scheme, tail, url, form⟩
    host := host
    connection := connection
    noHopByHop := by
      intro field member hop
      rcases mem_emitted member accepts.fields with rfl | rfl | ⟨sent, _, name, stays⟩
      · have own : lowercase (ascii "Host") ∉ hopByHop := by decide
        exact absurd hop own
      · rfl
      · rw [name] at hop
        exact absurd hop stays.1
    trailer := trailer
    listed := by
      intro field member named
      rcases mem_emitted member accepts.fields with own | own | ⟨sent, _, name, stays⟩
      · exact .inr (.inl own)
      · exact .inr (.inr own)
      · rw [name] at named ⊢
        exact .inl (stays.2.1 named)
    passed := ⟨ClientField.passes (connectionListed client.fields),
      fun field member => passes_iff (accepts.fields field member), lines⟩
    clean := by
      rw [lines]
      intro line member
      rcases mem_append.mp member with member | empty
      · exact unbroken (writable.clean line member)
      · rw [mem_singleton.mp empty]
        exact ⟨not_mem_nil, not_mem_nil⟩
    framed := emitted_bodyLength accepts.fields accepts.body accepts.framed
    target := targetOf_names accepts.target }

namespace Rewrite.Sample

/-- No host of these requests is in brackets. -/
def parseIpv6 (_ : List UInt8) : Option Ipv6Addr := none

def head : List UInt8 :=
  ascii "POST http://ab:81?q#f HTTP/1.1\r\nhost: x\r\nA:  1\r\nConnection: b" ++
    ascii "\r\nB: 2\r\ncontent-length: 3"

def request : ForwardRequest where
  target := .domain (ascii "ab") 81
  head := ascii "POST /?q HTTP/1.1\r\nHost: ab:81\r\nA:  1\r\n" ++
    ascii "content-length: 3\r\nConnection: close\r\n\r\n"
  body := .exactly 3
  headOnly := false

end Rewrite.Sample

theorem rewriteRequest_unambiguous_post :
    rewriteRequest Rewrite.Sample.parseIpv6 Rewrite.Sample.head = some Rewrite.Sample.request ∧
      isAbsoluteHttp (requestTarget Rewrite.Sample.head) ∧
      ∃ client authority message, client.Reads Rewrite.Sample.head ∧
        Rewritten Rewrite.Sample.parseIpv6 client authority Rewrite.Sample.request message := by
  have accepted : rewriteRequest Rewrite.Sample.parseIpv6
      Rewrite.Sample.head = some Rewrite.Sample.request := by decide +kernel
  have http : isAbsoluteHttp (requestTarget Rewrite.Sample.head) := by decide +kernel
  exact ⟨accepted, http, rewriteRequest_unambiguous accepted http⟩

/-- A length that is repeated is sent once, and the proxy's own host stays when
the client lists that name. -/
theorem rewriteRequest_exceptions :
    let fieldsNamed := fun head name =>
      ((rewriteRequest Rewrite.Sample.parseIpv6 (ascii head)).bind
        fun request => parseRequest request.head).map (·.fieldsNamed name)
    fieldsNamed ("GET http://ab/ HTTP/1.1\r\nContent-Length: 0" ++
          "\r\nContent-Length: 00") "content-length" =
        some [⟨ascii "Content-Length", ascii "0"⟩] ∧
      fieldsNamed "GET http://ab/ HTTP/1.1\r\nConnection: host" "host" =
        some [⟨ascii "Host", ascii "ab"⟩] := by
  decide +kernel

end WarrenSdk.Net
