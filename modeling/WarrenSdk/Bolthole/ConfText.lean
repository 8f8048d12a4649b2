import WarrenSdk.Bolthole.Conf
import WarrenSdk.Bolthole.NetworkText
import WarrenSdk.Foundation.Base64

/-! # The configuration file

A gateway configuration as a file: the reader, which takes one line at a time
and holds the peer whose section is open, and the rendering that it reads back.
-/

namespace WarrenSdk.Bolthole

def isWhitespace (character : Char) : Bool :=
  let code := character.toNat
  (0x9 ≤ code && code ≤ 0xd) || code = 0x20 || code = 0x85 || code = 0xa0 ||
    code = 0x1680 || (0x2000 ≤ code && code ≤ 0x200a) || code = 0x2028 ||
    code = 0x2029 || code = 0x202f || code = 0x205f || code = 0x3000

def trim (text : List Char) : List Char := Text.trim isWhitespace text

def toAsciiLowercase (text : List Char) : List Char := text.map Char.toLower

/-- What the configuration takes from other crates: the public key of a secret
one, and the network that a text spells. -/
structure Crates where
  publicKey : Vector UInt8 keyLen → PeerPublicKey
  networkFromStr : List Char → Option IpNetwork

/-! ## Keys -/

namespace Keys

def decode (value : List Char) : Except KeyError (Vector UInt8 keyLen) :=
  match Base64.decode (trim value) with
  | none => .error .badEncoding
  | some bytes =>
    if length : bytes.length = keyLen then
      .ok ⟨bytes.toArray, by rw [List.size_toArray, length]⟩
    else .error .badLength

def encode (bytes : Vector UInt8 keyLen) : List Char := Base64.encode bytes.toList

end Keys

namespace GatewayKey

def fromSecret (crates : Crates) (secret : Vector UInt8 keyLen) : GatewayKey :=
  ⟨secret, crates.publicKey secret⟩

def fromBase64 (crates : Crates) (value : List Char) : Except KeyError GatewayKey :=
  (Keys.decode value).map (fromSecret crates)

def toBase64 (key : GatewayKey) : List Char := Keys.encode key.secret

end GatewayKey

namespace PeerPublicKey

def fromBase64 (value : List Char) : Except KeyError PeerPublicKey :=
  (Keys.decode value).map PeerPublicKey.mk

def toBase64 (key : PeerPublicKey) : List Char := Keys.encode key.bytes

end PeerPublicKey

namespace PresharedKey

def fromBase64 (value : List Char) : Except KeyError PresharedKey :=
  (Keys.decode value).map PresharedKey.mk

def toBase64 (key : PresharedKey) : List Char := Keys.encode key.bytes

end PresharedKey

/-! ## The reader -/

/-- The name and the value of a setting; a setting without a name is none. -/
def splitSetting (line : List Char) : Option (List Char × List Char) :=
  match Text.splitOnce '=' line with
  | none => none
  | some (name, value) =>
    if trim name = [] then none else some (trim name, trim value)

/-- What stands between the brackets of a section's first line. -/
def sectionHeader : List Char → Option (List Char)
  | '[' :: rest =>
    if rest.getLast? = some ']' then some rest.dropLast else none
  | _ => none

inductive Section
  | none
  | interface
  | peer
  deriving DecidableEq

structure PendingPeer where
  label : Option PeerLabel := none
  «public» : Option PeerPublicKey := none
  psk : Option PresharedKey := none
  allowed : List IpNetwork := []

namespace PendingPeer

def finish (peer : PendingPeer) : Except ConfError PeerConf :=
  match peer.public with
  | none => .error .missingPublicKey
  | some key =>
    if peer.allowed = [] then .error .missingAllowedIps
    else .ok
      { label := peer.label.getD .empty
        «public» := key
        psk := peer.psk
        allowed := peer.allowed }

def readNetwork (crates : Crates) (allowed : List IpNetwork)
    (entry : List Char) : Except ConfError (List IpNetwork) :=
  if trim entry = [] then .ok allowed
  else
    match crates.networkFromStr (trim entry) with
    | none => .error .network
    | some network => .ok (allowed ++ [network])

def readField (crates : Crates) (peer : PendingPeer)
    (field value : List Char) : Except ConfError PendingPeer :=
  if field = "publickey".toList then do
    let key ← (PeerPublicKey.fromBase64 value).mapError .key
    return { peer with «public» := some key }
  else if field = "presharedkey".toList then do
    let key ← (PresharedKey.fromBase64 value).mapError .key
    return { peer with psk := some key }
  else if field = "allowedips".toList then do
    let allowed ← (value.splitOn ',').foldlM (readNetwork crates) peer.allowed
    return { peer with allowed }
  else .ok peer

end PendingPeer

structure Reading where
  key : Option GatewayKey := none
  peers : List PeerConf := []
  «section» : Section := .none
  pending : Option PendingPeer := none

namespace Reading

/-- The open peer is complete: another section begins, or the file ends. -/
def flush (reading : Reading) : Except ConfError Reading :=
  match reading.pending with
  | none => .ok reading
  | some peer => do
    let peer ← peer.finish
    return { reading with peers := reading.peers ++ [peer], pending := none }

def readComment (reading : Reading) (comment : List Char) : Except ConfError Reading :=
  match splitSetting (trim comment), reading.pending with
  | some (name, value), some peer =>
    if toAsciiLowercase name = "label".toList then do
      let label ← (PeerLabel.new (String.ofList value)).mapError .label
      return { reading with pending := some { peer with label := some label } }
    else .ok reading
  | _, _ => .ok reading

def readHeader (reading : Reading) (header : List Char) : Except ConfError Reading := do
  let reading ← reading.flush
  if toAsciiLowercase (trim header) = "interface".toList then
    return { reading with «section» := .interface }
  else if toAsciiLowercase (trim header) = "peer".toList then
    return { reading with «section» := .peer, pending := some {} }
  else throw .syntaxError

def readSetting (crates : Crates) (reading : Reading)
    (name value : List Char) : Except ConfError Reading :=
  match reading.section, reading.pending with
  | .interface, _ =>
    if toAsciiLowercase name = "privatekey".toList then do
      let key ← (GatewayKey.fromBase64 crates value).mapError .key
      return { reading with key := some key }
    else .ok reading
  | .peer, some peer => do
    let peer ← peer.readField crates (toAsciiLowercase name) value
    return { reading with pending := some peer }
  | .peer, none => .error .syntaxError
  | .none, _ => .error .syntaxError

def readLine (crates : Crates) (reading : Reading) (raw : List Char) : Except ConfError Reading :=
  match trim raw with
  | [] => .ok reading
  | '#' :: comment => reading.readComment comment
  | ';' :: comment => reading.readComment comment
  | line =>
    match sectionHeader line with
    | some header => reading.readHeader header
    | none =>
      match splitSetting line with
      | some (name, value) => reading.readSetting crates name value
      | none => .error .syntaxError

end Reading

/-- Peers without a label are numbered by where they stand. -/
def numberPeers (position : Nat) : List PeerConf → Except ConfError (List PeerConf)
  | [] => .ok []
  | peer :: rest => do
    let label ←
      if peer.label.text = "" then
        (PeerLabel.new ("peer" ++ toString (position + 1))).mapError .label
      else .ok peer.label
    let rest ← numberPeers (position + 1) rest
    return { peer with label } :: rest

def parseGatewayConf (crates : Crates) (text : List Char) : Except ConfError GatewayConf := do
  let reading ← (Text.lines text).foldlM (Reading.readLine crates) {}
  let reading ← reading.flush
  let peers ← numberPeers 0 reading.peers
  checkPeers peers
  match reading.key with
  | some key => return { key, peers }
  | none => throw .missingPrivateKey

/-! ## The rendering -/

def joinNetworks (networks : List IpNetwork) : List Char :=
  ", ".toList.intercalate (networks.map IpNetwork.display)

def setting (name : String) (value : List Char) : List Char := name.toList ++ " = ".toList ++ value

def peerLines (peer : PeerConf) : List (List Char) :=
  [[], "[Peer]".toList, '#' :: ' ' :: setting "label" peer.label.text.toList,
    setting "PublicKey" peer.public.toBase64] ++
    (peer.psk.toList.map fun psk => setting "PresharedKey" psk.toBase64) ++
    [setting "AllowedIPs" (joinNetworks peer.allowed)]

def renderGatewayConf (conf : GatewayConf) : List Char :=
  Text.unlines ("[Interface]".toList ::
    setting "PrivateKey" conf.key.toBase64 :: conf.peers.flatMap peerLines)

/-! ## What the renderer writes into a line -/

/-- A text that is read back from a line as it was written. -/
structure Inline (text : List Char) : Prop where
  nonempty : text ≠ []
  bare : Text.Bare isWhitespace text
  single : '\n' ∉ text

variable {text : List Char} {label : PeerLabel} {reading : Reading}

theorem solid_of_all (all : text.all (fun letter => !isWhitespace letter)) :
    ∀ letter ∈ text, isWhitespace letter = false := by
  intro letter member
  simpa using List.all_eq_true.mp all letter member

theorem Inline.of_solid (nonempty : text ≠ [])
    (solid : ∀ letter ∈ text, isWhitespace letter = false) : Inline text where
  nonempty := nonempty
  bare := .of_all solid
  single := by
    intro member
    have blank := solid _ member
    simp [isWhitespace] at blank

theorem Inline.trim (inline : Inline text) : trim text = text := Text.trim_bare inline.bare

theorem Inline.plain (inline : Inline text) : text.getLast? ≠ some '\r' := by
  intro returned
  have blank := inline.bare.last _ returned
  simp [isWhitespace] at blank

theorem Keys.inline_encode (bytes : Vector UInt8 keyLen) : Inline (Keys.encode bytes) := by
  have solid : ∀ letter ∈ Base64.pad :: Base64.alphabet,
      isWhitespace letter = false := solid_of_all (by decide +kernel)
  apply Inline.of_solid
  · apply Base64.encode_ne_nil
    intro none
    have length := congrArg List.length none
    rw [Vector.length_toList] at length
    cases length
  · intro letter member
    exact solid letter (Base64.encode_mem member)

theorem Keys.decode_encode (bytes : Vector UInt8 keyLen) :
    Keys.decode (Keys.encode bytes) = .ok bytes := by
  have length : bytes.toList.length = keyLen := Vector.length_toList
  rw [decode, (inline_encode bytes).trim, encode, Base64.decode_encode]
  dsimp only
  rw [dif_pos length]
  congr

theorem labelCharacter_visible (allowed : labelCharacter letter) :
    0x20 < letter.toNat ∧ letter.toNat < 0x7f := by
  delta labelCharacter Char.isAlphanum Char.isAlpha Char.isUpper Char.isLower
    Char.isDigit at allowed
  simp only [Bool.or_eq_true, Bool.and_eq_true, decide_eq_true_eq, ge_iff_le,
    UInt32.le_iff_toNat_le, Char.toNat_val, Char.reduceVal, UInt32.reduceToNat] at allowed
  rcases allowed with ((((capital | small) | digit) | rfl) | rfl) | rfl
  · omega
  · omega
  · omega
  all_goals decide

theorem visible_solid (above : 0x20 < letter.toNat)
    (below : letter.toNat < 0x7f) : isWhitespace letter = false := by
  simp only [isWhitespace, Bool.or_eq_false_iff, Bool.and_eq_false_iff,
    decide_eq_false_iff_not]
  omega

theorem PeerLabel.usable (named : label.text ≠ "") : usableLabel label.text :=
  label.wellFormed.resolve_left named

theorem PeerLabel.inline (named : label.text ≠ "") : Inline label.text.toList := by
  have usable := usable named
  simp only [usableLabel, Bool.and_eq_true, List.all_eq_true] at usable
  apply Inline.of_solid
  · intro none
    exact named (String.toList_eq_nil_iff.mp none)
  · intro letter member
    rcases labelCharacter_visible (usable.2 letter member) with ⟨above, below⟩
    exact visible_solid above below

theorem PeerLabel.new_text (named : label.text ≠ "") : PeerLabel.new label.text = .ok label := by
  have usable := usable named
  simp only [usableLabel, Bool.and_eq_true, decide_eq_true_eq] at usable
  rw [new, dif_neg named, dif_pos usable.1.2, dif_pos usable.2]

theorem IpNetwork.solid (network : IpNetwork) :
    ∀ letter ∈ network.display, isWhitespace letter = false := by
  have solid : ∀ letter ∈ networkCharacters, isWhitespace letter = false := solid_of_all (by decide)
  intro letter member
  exact solid letter (network.display_mem member)

theorem IpNetwork.inline (network : IpNetwork) : Inline network.display :=
  .of_solid network.display_ne_nil network.solid

theorem inline_joinNetworks (nonempty : networks ≠ []) : Inline (joinNetworks networks) := by
  induction networks with
  | nil => exact absurd rfl nonempty
  | cons network networks induction =>
    cases networks with
    | nil =>
      rw [joinNetworks, List.map_singleton, List.intercalate_singleton]
      exact network.inline
    | cons next networks =>
      have rest := induction (List.cons_ne_nil _ _)
      have here := network.inline
      have parts : joinNetworks (network :: next :: networks) =
          network.display ++ ", ".toList ++ joinNetworks (next :: networks) := by
        simp only [joinNetworks, List.map_cons, List.intercalate_cons_cons]
      rw [parts]
      constructor
      · simp
      · exact .append here.bare rest.bare here.nonempty rest.nonempty
      · simp [here.single, rest.single]

/-! ## Reading single lines -/

/-- The name of a setting: nothing in it is trimmed or ends it, and it does not
begin another kind of line. -/
def plainName (name : String) : Bool :=
  name ≠ "" && name.toList.all fun letter => !isWhitespace letter && letter ∉ "=#;[".toList

section Settings

theorem plainName_iff : plainName name ↔ name.toList ≠ [] ∧
    ∀ letter ∈ name.toList, isWhitespace letter = false ∧ letter ∉ "=#;[".toList := by
  simp only [plainName, ne_eq, Bool.and_eq_true, decide_eq_true_eq,
    List.all_eq_true, Bool.not_eq_true', String.toList_eq_nil_iff]

theorem inline_name (plain : plainName name) : Inline name.toList := by
  rcases plainName_iff.mp plain with ⟨nonempty, letters⟩
  exact .of_solid nonempty fun letter member => (letters letter member).1

theorem inline_setting (plain : plainName name) (inline : Inline value) :
    Inline (setting name value) := by
  have named := inline_name plain
  constructor
  · simp [setting]
  · exact .append named.bare inline.bare named.nonempty inline.nonempty
  · simp [setting, named.single, inline.single]

theorem splitSetting_setting (plain : plainName name) (inline : Inline value) :
    splitSetting (setting name value) = some (name.toList, value) := by
  have named := inline_name plain
  have absent : '=' ∉ name.toList ++ [' '] := by
    intro member
    rcases List.mem_append.mp member with inName | blank
    · exact ((plainName_iff.mp plain).2 _ inName).2 (by decide)
    · simp at blank
  have parts : setting name value = (name.toList ++ [' ']) ++ '=' :: ' ' :: value := by
    simp [setting]
  have left : trim (name.toList ++ [' ']) = name.toList :=
    Text.trim_concat named.bare named.nonempty (by decide)
  have right : trim (' ' :: value) = value := by
    rw [trim, Text.trim_cons (by decide)]
    exact inline.trim
  rw [splitSetting, parts, Text.splitOnce_append absent]
  dsimp only
  rw [left, right, if_neg named.nonempty]

theorem readLine_setting (crates : Crates) (reading : Reading)
    (plain : plainName name) (inline : Inline value) :
    reading.readLine crates (setting name value) =
      reading.readSetting crates name.toList value := by
  rcases plainName_iff.mp plain with ⟨nonempty, letters⟩
  have whole := splitSetting_setting plain inline
  rw [Reading.readLine, (inline_setting plain inline).trim]
  rcases List.exists_cons_of_ne_nil nonempty with ⟨first, rest, begins⟩
  have clear := (letters first (by simp [begins])).2
  have shape : setting name value = first :: (rest ++ " = ".toList ++ value) := by
    rw [setting, begins]
    rfl
  rw [shape] at whole ⊢
  split
  · rename_i equal
    cases equal
  · rename_i equal
    cases equal
    exact absurd clear (by decide)
  · rename_i equal
    cases equal
    exact absurd clear (by decide)
  · have bare : sectionHeader (first :: (rest ++ " = ".toList ++ value)) =
        none := by
      rw [sectionHeader.eq_def]
      split
      · rename_i equal
        cases equal
        exact absurd clear (by decide)
      · rfl
    rw [bare, whole]

end Settings

theorem readLine_peer (crates : Crates) (complete : reading.flush = .ok flushed) :
    reading.readLine crates "[Peer]".toList =
      .ok { flushed with «section» := .peer, pending := some {} } := by
  have header : reading.readLine crates "[Peer]".toList = reading.readHeader "Peer".toList := rfl
  rw [header, Reading.readHeader, complete]
  rfl

theorem inline_label (named : label.text ≠ "") :
    Inline ('#' :: ' ' :: setting "label" label.text.toList) := by
  have written : Inline (setting "label" label.text.toList) :=
    inline_setting rfl (label.inline named)
  have bare : Text.Bare isWhitespace (['#'] ++ [' '] ++ setting "label" label.text.toList) :=
    .append (.of_all (solid_of_all (by decide))) written.bare (by decide) written.nonempty
  exact ⟨List.cons_ne_nil _ _, bare, by simp [written.single]⟩

theorem readLine_label (crates : Crates) {peer : PendingPeer}
    (opened : reading.pending = some peer) (named : label.text ≠ "") :
    reading.readLine crates ('#' :: ' ' :: setting "label" label.text.toList) = .ok { reading with
        pending := some { peer with label := some label } } := by
  have comment : trim (' ' :: setting "label" label.text.toList) =
      setting "label" label.text.toList := by
    rw [trim, Text.trim_cons (by decide)]
    exact (inline_setting rfl (label.inline named)).trim
  rw [Reading.readLine, (inline_label named).trim]
  change reading.readComment (' ' :: setting "label" label.text.toList) = _
  rw [Reading.readComment, comment, splitSetting_setting rfl (label.inline named), opened]
  dsimp only
  rw [String.ofList_toList, PeerLabel.new_text named]
  rfl

/-! ## Reading what was rendered -/

theorem splitOn_joinNetworks (nonempty : networks ≠ []) :
    ((joinNetworks networks).splitOn ',').map trim = networks.map IpNetwork.display := by
  cases networks with
  | nil => exact absurd rfl nonempty
  | cons first rest =>
    have absent : ∀ network : IpNetwork, ',' ∉ network.display := by
      intro network member
      exact absurd (network.display_mem member) (by decide)
    have entries : (joinNetworks (first :: rest)).splitOn ',' =
        first.display :: rest.map fun network => ' ' :: network.display := by
      have joined : joinNetworks (first :: rest) = [','].intercalate
          (first.display :: (rest.map IpNetwork.display).map (' ' :: ·)) :=
        Text.intercalate_pair ',' ' ' _ _
      rw [joined, List.splitOn_intercalate]
      · rw [List.map_map]
        rfl
      · intro entry member
        simp only [List.mem_cons, List.map_map, List.mem_map] at member
        rcases member with rfl | ⟨network, _, rfl⟩
        · exact absent first
        · simp [absent network]
      · exact List.cons_ne_nil _ _
    rw [entries, List.map_cons, first.inline.trim, List.map_map, List.map_cons]
    congr 1
    apply List.map_congr_left
    intro network _
    change trim (' ' :: network.display) = _
    rw [trim, Text.trim_cons (by decide)]
    exact network.inline.trim

theorem readNetworks_eq (reads : ∀ network ∈ networks,
      crates.networkFromStr network.display = some network)
    {entries : List (List Char)}
    (spelled : entries.map trim = networks.map IpNetwork.display)
    (allowed : List IpNetwork) :
    entries.foldlM (PendingPeer.readNetwork crates) allowed = .ok (allowed ++ networks) := by
  induction networks generalizing entries allowed with
  | nil =>
    rw [List.map_nil, List.map_eq_nil_iff] at spelled
    rw [spelled, List.append_nil]
    rfl
  | cons network networks induction =>
    rw [List.map_cons, List.map_eq_cons_iff] at spelled
    rcases spelled with ⟨entry, rest, rfl, here, spelled⟩
    have read : PendingPeer.readNetwork crates allowed entry = .ok (allowed ++ [network]) := by
      rw [PendingPeer.readNetwork, here, if_neg network.display_ne_nil, reads network (.head _)]
    rw [List.foldlM_cons, read]
    change rest.foldlM _ (allowed ++ [network]) = _
    rw [induction (fun other member => reads other (.tail _ member)) spelled]
    simp

def PendingPeer.declared (peer : PeerConf) : PendingPeer where
  label := some peer.label
  «public» := some peer.public
  psk := peer.psk
  allowed := peer.allowed

theorem PendingPeer.finish_declared (nonempty : peer.allowed ≠ []) :
    (PendingPeer.declared peer).finish = .ok peer := by
  rw [finish, declared]
  dsimp only
  rw [if_neg nonempty]
  rfl

/-! ### The fields of a peer -/

theorem readLine_field {peer : PendingPeer} (inside : reading.section = .peer)
    (opened : reading.pending = some peer) (name : String)
    (plain : plainName name) (inline : Inline value)
    (read : peer.readField crates (toAsciiLowercase name.toList) value = .ok next) :
    reading.readLine crates (setting name value) = .ok { reading with pending := some next } := by
  rw [readLine_setting crates reading plain inline, Reading.readSetting, inside, opened]
  dsimp only
  rw [read]
  rfl

theorem PeerPublicKey.inline (key : PeerPublicKey) : Inline key.toBase64 :=
  Keys.inline_encode key.bytes

theorem PresharedKey.inline (key : PresharedKey) : Inline key.toBase64 :=
  Keys.inline_encode key.bytes

theorem PendingPeer.readField_publicKey (crates : Crates)
    (peer : PendingPeer) (key : PeerPublicKey) :
    peer.readField crates "publickey".toList key.toBase64 =
      .ok { peer with «public» := some key } := by
  rw [readField, if_pos rfl, PeerPublicKey.fromBase64, PeerPublicKey.toBase64, Keys.decode_encode]
  rfl

theorem PendingPeer.readField_presharedKey (crates : Crates)
    (peer : PendingPeer) (key : PresharedKey) :
    peer.readField crates "presharedkey".toList key.toBase64 =
      .ok { peer with psk := some key } := by
  rw [readField, if_neg (by decide), if_pos rfl, PresharedKey.fromBase64,
    PresharedKey.toBase64, Keys.decode_encode]
  rfl

theorem PendingPeer.readField_allowedIps (peer : PendingPeer)
    (nonempty : networks ≠ []) (reads : ∀ network ∈ networks,
      crates.networkFromStr network.display = some network) :
    peer.readField crates "allowedips".toList (joinNetworks networks) =
      .ok { peer with allowed := peer.allowed ++ networks } := by
  rw [readField, if_neg (by decide), if_neg (by decide), if_pos rfl,
    readNetworks_eq reads (splitOn_joinNetworks nonempty)]
  rfl

/-! ### Whole sections -/

/-- What the configuration has to satisfy for its peers to be read back. -/
structure Readable (crates : Crates) (peer : PeerConf) : Prop where
  named : peer.label.text ≠ ""
  nonempty : peer.allowed ≠ []
  reads : ∀ network ∈ peer.allowed, crates.networkFromStr network.display = some network

theorem foldlM_cons_ok {step : State → Item → Except Refusal State}
    (stepped : step state item = .ok next) (items : List Item) :
    (item :: items).foldlM step state = items.foldlM step next := by
  rw [List.foldlM_cons, stepped]
  rfl

/-- The lines of a peer open a section and leave it with all that they
declare. -/
theorem foldlM_peerLines {crates : Crates} (readable : Readable crates peer)
    (complete : reading.flush = .ok flushed) :
    (peerLines peer).foldlM (Reading.readLine crates) reading = .ok { flushed with
        «section» := .peer, pending := some (.declared peer) } := by
  have blank : reading.readLine crates [] = .ok reading := rfl
  have networks := inline_joinNetworks readable.nonempty
  rw [peerLines, List.append_assoc, List.cons_append, List.cons_append,
    List.cons_append, List.cons_append, List.nil_append,
    foldlM_cons_ok blank, foldlM_cons_ok (readLine_peer crates complete),
    foldlM_cons_ok (readLine_label crates rfl readable.named),
    foldlM_cons_ok (readLine_field rfl rfl "PublicKey" rfl peer.public.inline
      (PendingPeer.readField_publicKey crates _ peer.public))]
  cases secret : peer.psk with
  | none =>
    rw [Option.toList_none, List.map_nil, List.nil_append,
      foldlM_cons_ok (readLine_field rfl rfl "AllowedIPs" rfl networks
        (PendingPeer.readField_allowedIps _ readable.nonempty readable.reads))]
    simp [PendingPeer.declared, secret, pure, Except.pure]
  | some psk =>
    rw [Option.toList_some, List.map_singleton, List.singleton_append,
      foldlM_cons_ok (readLine_field rfl rfl "PresharedKey" rfl psk.inline
        (PendingPeer.readField_presharedKey crates _ psk)),
      foldlM_cons_ok (readLine_field rfl rfl "AllowedIPs" rfl networks
        (PendingPeer.readField_allowedIps _ readable.nonempty readable.reads))]
    simp [PendingPeer.declared, secret, pure, Except.pure]

theorem Reading.flush_declared (nonempty : peer.allowed ≠ []) (reading : Reading) :
    ({ reading with pending := some (.declared peer) } : Reading).flush =
      .ok { reading with peers := reading.peers ++ [peer], pending := none } := by
  rw [flush]
  dsimp only
  rw [PendingPeer.finish_declared nonempty]
  rfl

theorem foldlM_peers (readable : ∀ peer ∈ peers, Readable crates peer)
    (complete : reading.flush = .ok flushed) : ∃ last ended,
      (peers.flatMap peerLines).foldlM (Reading.readLine crates) reading = .ok last ∧
        last.flush = .ok ended ∧ ended.key = flushed.key ∧
        ended.peers = flushed.peers ++ peers := by
  induction peers generalizing reading flushed with
  | nil => exact ⟨reading, flushed, rfl, complete, rfl, by simp⟩
  | cons peer peers induction =>
    have here := readable peer (.head _)
    have next := Reading.flush_declared here.nonempty { flushed with «section» := .peer }
    rcases induction (fun other member => readable other (.tail _ member)) next
      with ⟨last, ended, read, done, key, order⟩
    refine ⟨last, ended, ?_, done, key, ?_⟩
    · rw [List.flatMap_cons, List.foldlM_append, foldlM_peerLines here complete]
      exact read
    · rw [order, List.append_assoc, List.singleton_append]

theorem numberPeers_named (named : ∀ peer ∈ peers, peer.label.text ≠ "") (position : Nat) :
    numberPeers position peers = .ok peers := by
  induction peers generalizing position with
  | nil => rfl
  | cons peer peers induction =>
    rw [numberPeers, if_neg (named peer (.head _)),
      induction fun other member => named other (.tail _ member)]
    rfl

theorem inline_peerLines (named : peer.label.text ≠ "") (nonempty : peer.allowed ≠ []) :
    ∀ line ∈ peerLines peer, line = [] ∨ Inline line := by
  intro line member
  simp only [peerLines, List.mem_append, List.mem_cons, List.not_mem_nil,
    or_false, List.mem_map] at member
  rcases member with ((rfl | rfl | rfl | rfl) | ⟨psk, _, rfl⟩) | rfl
  · exact .inl rfl
  · exact .inr (.of_solid (by decide) (solid_of_all (by decide)))
  · exact .inr (inline_label named)
  · exact .inr (inline_setting rfl peer.public.inline)
  · exact .inr (inline_setting rfl psk.inline)
  · exact .inr (inline_setting rfl (inline_joinNetworks nonempty))

/-- The lines of a rendered file are the ones that were written. -/
theorem lines_renderGatewayConf (named : ∀ peer ∈ conf.peers, peer.label.text ≠ "")
    (nonempty : ∀ peer ∈ conf.peers, peer.allowed ≠ []) :
    Text.lines (renderGatewayConf conf) = "[Interface]".toList ::
      setting "PrivateKey" conf.key.toBase64 :: conf.peers.flatMap peerLines := by
  have inline : ∀ line ∈ "[Interface]".toList ::
      setting "PrivateKey" conf.key.toBase64 :: conf.peers.flatMap peerLines,
      line = [] ∨ Inline line := by
    intro line member
    simp only [List.mem_cons, List.mem_flatMap] at member
    rcases member with rfl | rfl | ⟨peer, declared, member⟩
    · exact .inr (.of_solid (by decide) (solid_of_all (by decide)))
    · exact .inr (inline_setting rfl (Keys.inline_encode _))
    · exact inline_peerLines (named peer declared) (nonempty peer declared) line member
  apply Text.lines_unlines
  · intro line member
    rcases inline line member with rfl | inline
    · simp
    · exact inline.single
  · intro line member
    rcases inline line member with rfl | inline
    · simp
    · exact inline.plain

theorem readLine_privateKey (derived : key = GatewayKey.fromSecret crates key.secret) :
    Reading.readLine crates { «section» := .interface } (setting "PrivateKey" key.toBase64) =
      .ok { key := some key, «section» := .interface } := by
  have decoded : GatewayKey.fromBase64 crates key.toBase64 = .ok key := by
    rw [GatewayKey.fromBase64, GatewayKey.toBase64, Keys.decode_encode]
    exact congrArg Except.ok derived.symm
  have inline : Inline key.toBase64 := Keys.inline_encode key.secret
  rw [readLine_setting crates _ rfl inline, Reading.readSetting]
  dsimp only
  rw [if_pos (by decide), decoded]
  rfl

/-- A configuration that keeps its own rules, with a label for every peer, is
read back from its file. The gateway's public key is the one of its secret, and
the networks are read as they are displayed. -/
theorem parseGatewayConf_render {crates : Crates} {conf : GatewayConf}
    (valid : conf.validate = .ok ()) (named : ∀ peer ∈ conf.peers, peer.label.text ≠ "")
    (derived : conf.key = GatewayKey.fromSecret crates conf.key.secret)
    (reads : ∀ peer ∈ conf.peers, ∀ network ∈ peer.allowed,
      crates.networkFromStr network.display = some network) :
    parseGatewayConf crates (renderGatewayConf conf) = .ok conf := by
  have nonempty : ∀ peer ∈ conf.peers, peer.allowed ≠ [] :=
    fun peer member => (conf.clear_of_validate valid member).1
  have readable : ∀ peer ∈ conf.peers, Readable crates peer :=
    fun peer member => ⟨named peer member, nonempty peer member, reads peer member⟩
  have header : Reading.readLine crates {} "[Interface]".toList =
      .ok { «section» := .interface } := rfl
  have complete : Reading.flush ⟨some conf.key, [], .interface, none⟩ =
      .ok ⟨some conf.key, [], .interface, none⟩ := rfl
  rcases foldlM_peers readable complete with ⟨last, ended, read, done, key, order⟩
  rw [List.nil_append] at order
  rw [parseGatewayConf, lines_renderGatewayConf named nonempty,
    foldlM_cons_ok header, foldlM_cons_ok (readLine_privateKey derived), read]
  change (last.flush >>= _) = _
  rw [done]
  change (numberPeers 0 ended.peers >>= _) = _
  rw [order, numberPeers_named named]
  change (checkPeers conf.peers >>= _) = _
  rw [GatewayConf.validate] at valid
  rw [valid, key]
  rfl

/-! ### A file with two peers -/

namespace ConfText.Sample

def home : IpNetwork := ⟨.v4 ⟨0x0a070000⟩, 16, by decide, by decide⟩

def lab : IpNetwork := ⟨.v6 ⟨0xfd07 <<< 112⟩, 64, by decide, by decide⟩

def phone : IpNetwork := .single (.v4 ⟨0x0a080001⟩)

def crates : Crates where
  publicKey secret := ⟨secret⟩
  networkFromStr text := [home, lab, phone].find? (·.display = text)

def conf : GatewayConf where
  key := .fromSecret crates (.replicate keyLen 7)
  peers :=
    [ { label := ⟨"laptop", .inr (by decide)⟩
        «public» := ⟨.replicate keyLen 1⟩
        psk := some ⟨.replicate keyLen 2⟩
        allowed := [home, lab] },
      { label := ⟨"phone-2", .inr (by decide)⟩
        «public» := ⟨.replicate keyLen 3⟩
        psk := none
        allowed := [phone] } ]

end ConfText.Sample

theorem parseGatewayConf_render_two : parseGatewayConf ConfText.Sample.crates
      (renderGatewayConf ConfText.Sample.conf) = .ok ConfText.Sample.conf :=
  parseGatewayConf_render (by decide +kernel) (by decide) rfl (by decide +kernel)

end WarrenSdk.Bolthole
