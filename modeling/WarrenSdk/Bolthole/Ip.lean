import WarrenSdk.Bolthole.Address

/-! # IP and transport headers

Bounds-checked views of the headers that the gateway translates. A packet is
its bytes; every reader names the offset that it reads. -/

namespace WarrenSdk.Bolthole

/-! ## Protocol numbers -/

def protoIcmpv4 : UInt8 := 1
def protoTcp : UInt8 := 6
def protoUdp : UInt8 := 17
def protoIcmpv6 : UInt8 := 58

def ipv4MinHeader : Nat := 20
def ipv6Header : Nat := 40

def tcpFin : UInt8 := 0x01
def tcpSyn : UInt8 := 0x02
def tcpRst : UInt8 := 0x04
def tcpAck : UInt8 := 0x10

def icmpv4EchoReply : UInt8 := 0
def icmpv4EchoRequest : UInt8 := 8
def icmpv6EchoRequest : UInt8 := 128
def icmpv6EchoReply : UInt8 := 129

inductive PacketError
  | truncated
  | badVersion
  | fragment
  | extensionHeader
  | unsupportedProtocol
  | familyMismatch
  | notAnEcho
  | notAnIcmpError
  deriving DecidableEq

inductive Side
  | source
  | destination
  deriving DecidableEq

def Side.opposite : Side → Side
  | .source => .destination
  | .destination => .source

structure IpHeader where
  src : IpAddr
  dst : IpAddr
  protocol : UInt8
  l4Offset : Nat
  totalLen : Nat
  deriving DecidableEq

def IpHeader.isV6 (hdr : IpHeader) : Bool := hdr.src.isIpv6

def IpHeader.address (hdr : IpHeader) : Side → IpAddr
  | .source => hdr.src
  | .destination => hdr.dst

def IpHeader.withAddress (hdr : IpHeader) (side : Side) (addr : IpAddr) :
    IpHeader :=
  match side with
  | .source => { hdr with src := addr }
  | .destination => { hdr with dst := addr }

structure IcmpHeader where
  kind : UInt8
  code : UInt8
  echoId : Option UInt16
  deriving DecidableEq

def isEcho (protocol kind : UInt8) : Bool :=
  if protocol = protoIcmpv4 then
    kind = icmpv4EchoRequest || kind = icmpv4EchoReply
  else if protocol = protoIcmpv6 then
    kind = icmpv6EchoRequest || kind = icmpv6EchoReply
  else
    false

def isIcmpError (protocol kind : UInt8) : Bool :=
  if protocol = protoIcmpv4 then
    kind = 3 || kind = 4 || kind = 5 || kind = 11 || kind = 12
  else if protocol = protoIcmpv6 then
    1 ≤ kind && kind ≤ 4
  else
    false

def isExtensionHeader (next : UInt8) : Bool :=
  [0, 43, 44, 50, 51, 59, 60, 135, 139, 140].contains next

/-! ## Readers -/

def byteAt (pkt : List UInt8) (index : Nat) : UInt8 := pkt.getD index 0

def u16At (pkt : List UInt8) (offset : Nat) : UInt16 := u16OfBytes (Bytes.slice pkt offset 2)

def addressOffset (v6 : Bool) (side : Side) : Nat :=
  match v6, side with
  | false, .source => 12
  | false, .destination => 16
  | true, .source => 8
  | true, .destination => 24

def readAddress (pkt : List UInt8) (v6 : Bool) (side : Side) : IpAddr :=
  IpAddr.ofOctets v6 (Bytes.slice pkt (addressOffset v6 side) (IpAddr.width v6))

def parseV4 (pkt : List UInt8) (first : UInt8) (quoted : Bool) : Except PacketError IpHeader :=
  if pkt.length < ipv4MinHeader then
    .error .truncated
  else
    let ihl := (first &&& 0x0f).toNat * 4
    let declared := (u16At pkt 2).toNat
    if ihl < ipv4MinHeader ∨ declared < ihl ∨ pkt.length < ihl then
      .error .truncated
    else if quoted = false ∧ pkt.length < declared then
      .error .truncated
    -- More-fragments set, or a non-zero offset.
    else if u16At pkt 6 &&& 0x2000 ≠ 0 ∨ u16At pkt 6 &&& 0x1fff ≠ 0 then
      .error .fragment
    else
      .ok {
        src := readAddress pkt false .source
        dst := readAddress pkt false .destination
        protocol := byteAt pkt 9
        l4Offset := ihl
        totalLen := if quoted then min declared pkt.length else declared }

def parseV6 (pkt : List UInt8) (quoted : Bool) : Except PacketError IpHeader :=
  if pkt.length < ipv6Header then
    .error .truncated
  else
    let declared := ipv6Header + (u16At pkt 4).toNat
    if quoted = false ∧ pkt.length < declared then
      .error .truncated
    else if isExtensionHeader (byteAt pkt 6) then
      .error .extensionHeader
    else
      .ok {
        src := readAddress pkt true .source
        dst := readAddress pkt true .destination
        protocol := byteAt pkt 6
        l4Offset := ipv6Header
        totalLen := if quoted then min declared pkt.length else declared }

def parse (pkt : List UInt8) (quoted : Bool) : Except PacketError IpHeader :=
  match pkt.head? with
  | none => .error .truncated
  | some first =>
    if first >>> 4 = 4 then
      parseV4 pkt first quoted
    else if first >>> 4 = 6 then
      parseV6 pkt quoted
    else
      .error .badVersion

def parseIp (pkt : List UInt8) : Except PacketError IpHeader := parse pkt false

def parseIpQuote (pkt : List UInt8) : Except PacketError IpHeader := parse pkt true

def readPorts (pkt : List UInt8) (l4Offset : Nat) : Except PacketError (UInt16 × UInt16) :=
  if l4Offset + 4 ≤ pkt.length then
    .ok (u16At pkt l4Offset, u16At pkt (l4Offset + 2))
  else
    .error .truncated

def tcpFlags (pkt : List UInt8) (l4Offset : Nat) : Except PacketError UInt8 :=
  match pkt[l4Offset + 13]? with
  | some flags => .ok flags
  | none => .error .truncated

/-- The head of an ICMP message, with the echo identifier where the type alone
says that there is one. -/
def readIcmp (pkt : List UInt8) (l4Offset : Nat) : Except PacketError IcmpHeader :=
  if l4Offset + 4 ≤ pkt.length then
    let kind := byteAt pkt l4Offset
    let carriesId := kind = icmpv4EchoReply ∨ kind = icmpv4EchoRequest ∨
      kind = icmpv6EchoRequest ∨ kind = icmpv6EchoReply
    .ok {
      kind := kind
      code := byteAt pkt (l4Offset + 1)
      echoId :=
        if carriesId ∧ l4Offset + 6 ≤ pkt.length then
          some (u16At pkt (l4Offset + 4))
        else
          none }
  else
    .error .truncated

/-! ## What a parsed header promises -/

structure IpHeader.Bounds (hdr : IpHeader) (pkt : List UInt8) : Prop where
  family : hdr.dst.isIpv6 = hdr.isV6
  header : (if hdr.isV6 then ipv6Header else ipv4MinHeader) ≤ hdr.l4Offset
  transport : hdr.l4Offset ≤ hdr.totalLen
  declared : hdr.totalLen ≤ pkt.length

private theorem declared_le {declared length : Nat}
    (complete : ¬(quoted = false ∧ length < declared)) :
    (if quoted then min declared length else declared) ≤ length := by
  cases quoted with
  | false => simpa using complete
  | true => exact Nat.min_le_right _ _

private theorem parseV4_bounds (parsed : parseV4 pkt first quoted = .ok hdr) :
    hdr.Bounds pkt ∧ hdr.isV6 = false ∧ hdr.totalLen ≤ 65535 := by
  unfold parseV4 at parsed
  simp only at parsed
  split at parsed
  · cases parsed
  split at parsed
  · cases parsed
  split at parsed
  · cases parsed
  split at parsed
  · cases parsed
  · rename_i long sized complete unfragmented
    cases parsed
    have sixteen := (u16At pkt 2).toNat_lt
    refine ⟨⟨rfl, ?_, ?_, ?_⟩, rfl, ?_⟩
    · change ipv4MinHeader ≤ _
      dsimp only
      omega
    · dsimp only
      split <;> omega
    · exact declared_le complete
    · dsimp only
      split <;> omega

private theorem parseV6_bounds (parsed : parseV6 pkt quoted = .ok hdr) :
    hdr.Bounds pkt ∧ hdr.isV6 ∧ hdr.l4Offset = ipv6Header ∧ hdr.totalLen ≤ ipv6Header + 65535 := by
  unfold parseV6 at parsed
  simp only at parsed
  split at parsed
  · cases parsed
  split at parsed
  · cases parsed
  split at parsed
  · cases parsed
  · rename_i long complete plain
    cases parsed
    have sixteen := (u16At pkt 4).toNat_lt
    refine ⟨⟨rfl, ?_, ?_, ?_⟩, rfl, rfl, ?_⟩
    · change ipv6Header ≤ _
      dsimp only
      omega
    · dsimp only
      split <;> omega
    · exact declared_le complete
    · dsimp only
      split <;> omega

theorem parse_bounds (parsed : parse pkt quoted = .ok hdr) : hdr.Bounds pkt := by
  unfold parse at parsed
  split at parsed
  · cases parsed
  split at parsed
  · exact (parseV4_bounds parsed).1
  split at parsed
  · exact (parseV6_bounds parsed).1
  · cases parsed

/-- The version tells the family, and a declared length has sixteen bits. -/
theorem parseIp_family (parsed : parseIp pkt = .ok hdr) :
    byteAt pkt 0 >>> 4 = 4 ∧ hdr.isV6 = false ∧ hdr.totalLen ≤ 65535 ∨
    byteAt pkt 0 >>> 4 ≠ 4 ∧ hdr.isV6 ∧ hdr.l4Offset = ipv6Header ∧
      hdr.totalLen ≤ ipv6Header + 65535 := by
  unfold parseIp parse at parsed
  split at parsed
  · cases parsed
  rename_i first found
  have read : byteAt pkt 0 = first := by
    rw [List.head?_eq_getElem?] at found
    simp [byteAt, List.getD_eq_getElem?_getD, found]
  rw [read]
  split at parsed
  · rename_i four
    exact .inl ⟨four, (parseV4_bounds parsed).2⟩
  split at parsed
  · rename_i other _
    exact .inr ⟨other, (parseV6_bounds parsed).2⟩
  · cases parsed

/-! ## Parsing an edited packet -/

theorem byteAt_congr (agree : left[index]? = right[index]?) :
    byteAt left index = byteAt right index := by
  simp [byteAt, List.getD_eq_getElem?_getD, agree]

theorem u16At_congr (first : left[offset]? = right[offset]?)
    (second : left[offset + 1]? = right[offset + 1]?) : u16At left offset = u16At right offset := by
  rw [u16At, u16At]
  congr 1
  apply Bytes.slice_congr
  intro index lower upper
  have cases : index = offset ∨ index = offset + 1 := by omega
  rcases cases with rfl | rfl
  · exact first
  · exact second

def IpHeader.reread (hdr : IpHeader) (pkt : List UInt8) : IpHeader :=
  { hdr with
    src := readAddress pkt hdr.isV6 .source
    dst := readAddress pkt hdr.isV6 .destination }

private theorem parseV4_congr (first : UInt8) (quoted : Bool)
    (sameLength : edited.length = pkt.length) (sameTotal : u16At edited 2 = u16At pkt 2)
    (sameFragment : u16At edited 6 = u16At pkt 6) (sameProtocol : byteAt edited 9 = byteAt pkt 9) :
    parseV4 edited first quoted = (parseV4 pkt first quoted).map fun hdr => hdr.reread edited := by
  simp only [parseV4, sameLength, sameTotal, sameFragment, sameProtocol]
  split
  · rfl
  split
  · rfl
  split
  · rfl
  split <;> rfl

private theorem parseV6_congr (quoted : Bool) (sameLength : edited.length = pkt.length)
    (samePayload : u16At edited 4 = u16At pkt 4) (sameProtocol : byteAt edited 6 = byteAt pkt 6) :
    parseV6 edited quoted = (parseV6 pkt quoted).map fun hdr => hdr.reread edited := by
  simp only [parseV6, sameLength, samePayload, sameProtocol]
  split
  · rfl
  split
  · rfl
  split <;> rfl

/-- Editing a packet outside the header fields that parsing checks changes
nothing but the addresses that it reads. -/
theorem parse_edited (parsed : parse pkt quoted = .ok hdr) (sameLength : edited.length = pkt.length)
    (agree : ∀ index, index < addressOffset hdr.isV6 .source →
      index ≠ 10 → index ≠ 11 → edited[index]? = pkt[index]?) :
    parse edited quoted = .ok (hdr.reread edited) := by
  have firstPositive : 0 < addressOffset hdr.isV6 .source := by cases hdr.isV6 <;> decide
  have sameHead : edited.head? = pkt.head? := by
    rw [List.head?_eq_getElem?, List.head?_eq_getElem?]
    exact agree 0 firstPositive (by decide) (by decide)
  unfold parse at parsed ⊢
  rw [sameHead]
  split at parsed
  · cases parsed
  split at parsed
  · rename_i version
    rw [if_pos version]
    have family := (parseV4_bounds parsed).2.1
    rw [family] at agree
    change ∀ index, index < 12 → _ at agree
    rw [parseV4_congr _ quoted sameLength (u16At_congr (agree 2 (by decide) (by decide) (by decide))
        (agree 3 (by decide) (by decide) (by decide)))
      (u16At_congr (agree 6 (by decide) (by decide) (by decide))
        (agree 7 (by decide) (by decide) (by decide)))
      (byteAt_congr (agree 9 (by decide) (by decide) (by decide))), parsed]
    rfl
  split at parsed
  · rename_i notFour version
    rw [if_neg notFour, if_pos version]
    have family := (parseV6_bounds parsed).2.1
    rw [family] at agree
    change ∀ index, index < 8 → _ at agree
    rw [parseV6_congr quoted sameLength (u16At_congr (agree 4 (by decide) (by decide) (by decide))
        (agree 5 (by decide) (by decide) (by decide)))
      (byteAt_congr (agree 6 (by decide) (by decide) (by decide))), parsed]
    rfl
  · cases parsed

theorem parse_reads (parsed : parse pkt quoted = .ok hdr) (side : Side) :
    readAddress pkt hdr.isV6 side = hdr.address side := by
  have again := parse_edited parsed rfl fun _ _ _ _ => rfl
  have same : hdr.reread pkt = hdr := (Except.ok.inj (parsed.symm.trans again)).symm
  have read := congrArg (fun header => header.address side) same
  cases side <;> exact read

end WarrenSdk.Bolthole
