import WarrenSdk.Bolthole.Ip

/-! # Rewriting one endpoint of a packet

`rewriteEndpoint` checks the whole operation against the lengths that the
header declares before it writes a byte. Its effect is given as the windows
that it may touch and the values that it leaves in them. -/

namespace WarrenSdk.Bolthole

open List

/-- The checksum arithmetic that the gateway takes from the tunnel engine. It
is not part of this repository, so everything here holds whatever it computes. -/
structure ChecksumEngine where
  incrementalChecksumUpdate : (checksum old new : UInt16) → UInt16
  internetChecksum : (seed : UInt32) → (bytes : List UInt8) → UInt16
  icmpv6PseudoSum : (src dst : Ipv6Addr) → (length : UInt32) → UInt32

variable (engine : ChecksumEngine)

def checksumUpdate (checksum : UInt16) : List UInt8 → List UInt8 → UInt16
  | old₀ :: old₁ :: old, new₀ :: new₁ :: new =>
    checksumUpdate (engine.incrementalChecksumUpdate checksum
      (u16OfBytes [old₀, old₁]) (u16OfBytes [new₀, new₁])) old new
  | _, _ => checksum

/-- Where a transport checksum stands, whether it covers the addresses, and
how many bytes the transport header needs. -/
def l4Checksum (protocol : UInt8) : Option (Nat × Bool × Nat) :=
  if protocol = protoTcp then some (16, true, 20)
  else if protocol = protoUdp then some (6, true, 8)
  else if protocol = protoIcmpv4 then some (2, false, 4)
  else if protocol = protoIcmpv6 then some (2, true, 4)
  else none

def isIcmp (protocol : UInt8) : Bool := protocol = protoIcmpv4 || protocol = protoIcmpv6

def endpointOffset (protocol : UInt8) (l4 : Nat) (side : Side) : Nat :=
  if isIcmp protocol then
    l4 + 4
  else
    match side with
    | .source => l4
    | .destination => l4 + 2

/-! ## The edits -/

/-- Write an address, and repair the IPv4 header checksum of the packet that
starts at `base`. -/
def writeAddress (pkt : List UInt8) (base offset : Nat) (addr : IpAddr) : List UInt8 :=
  let old := Bytes.slice pkt offset addr.octets.length
  let written := Bytes.splice pkt offset addr.octets
  match addr with
  | .v4 _ =>
    Bytes.splice written (base + 10) (u16Bytes (checksumUpdate engine
      (u16At written (base + 10)) old addr.octets))
  | .v6 _ => written

/-- Write an address and, when one is given, a port at its offset, and carry
the transport checksum along when `patch` says that there is one to carry. -/
def patchEndpoint (pkt : List UInt8) (base offset : Nat) (addr : IpAddr)
    (port : Option (Nat × UInt16)) (checksumAt : Nat) (pseudo patch : Bool) : List UInt8 :=
  let old := Bytes.slice pkt offset addr.octets.length
  let checksum := u16At pkt checksumAt
  let checksum :=
    if patch && pseudo then checksumUpdate engine checksum old addr.octets
    else checksum
  let written := writeAddress engine pkt base offset addr
  match port with
  | none =>
    if patch then Bytes.splice written checksumAt (u16Bytes checksum)
    else written
  | some (portAt, port) =>
    let checksum :=
      if patch then checksumUpdate engine checksum (Bytes.slice written portAt 2) (u16Bytes port)
      else checksum
    let written := Bytes.splice written portAt (u16Bytes port)
    if patch then Bytes.splice written checksumAt (u16Bytes checksum)
    else written

/-- The offset that a port or identifier is written at, or the refusal: an ICMP
message that is not an echo has no identifier. -/
def portOffset (pkt : List UInt8) (hdr : IpHeader) (side : Side) :
    Option UInt16 → Except PacketError (Option (Nat × UInt16))
  | none => .ok none
  | some port =>
    if isIcmp hdr.protocol then
      match pkt[hdr.l4Offset]? with
      | none => .error .truncated
      | some kind =>
        if isEcho hdr.protocol kind = false then
          .error .notAnEcho
        else if hdr.totalLen < hdr.l4Offset + 8 then
          .error .truncated
        else
          .ok (some (endpointOffset hdr.protocol hdr.l4Offset side, port))
    else
      .ok (some (endpointOffset hdr.protocol hdr.l4Offset side, port))

def rewriteEndpoint (pkt : List UInt8) (hdr : IpHeader) (side : Side)
    (addr : IpAddr) (port : Option UInt16) : Except PacketError (List UInt8) :=
  if addr.isIpv6 ≠ hdr.isV6 then
    .error .familyMismatch
  else if pkt.length < hdr.totalLen then
    .error .truncated
  else
    match l4Checksum hdr.protocol with
    | none => .error .unsupportedProtocol
    | some (checksumAt, pseudo, need) =>
      if hdr.totalLen < hdr.l4Offset + need then
        .error .truncated
      else
        match portOffset pkt hdr side port with
        | .error err => .error err
        | .ok portAt =>
          let checksumAt := hdr.l4Offset + checksumAt
          -- A UDP datagram sent without a checksum over IPv4 keeps none.
          let keepUnchecksummed := hdr.protocol = protoUdp ∧
            u16At pkt checksumAt = 0 ∧ hdr.isV6 = false
          .ok (patchEndpoint engine pkt 0 (addressOffset hdr.isV6 side)
            addr portAt checksumAt pseudo (!decide keepUnchecksummed))

/-! ## What an edit touches -/

/-- The checksum that an IPv4 header carries and an IPv6 header does not. -/
def headerWindows (base : Nat) (v6 : Bool) : List (Nat × Nat) :=
  if v6 then [] else [(base + 10, 2)]

def portWindows (port : Option (Nat × UInt16)) : List (Nat × Nat) :=
  match port with
  | none => []
  | some (portAt, _) => [(portAt, 2)]

def checksumWindows (checksumAt : Nat) (patch : Bool) : List (Nat × Nat) :=
  if patch then [(checksumAt, 2)] else []

variable {patch : Bool} {hdr : IpHeader} {port : Option UInt16}

theorem checksumWindows_mem (member : window ∈ checksumWindows checksumAt patch) :
    window = (checksumAt, 2) ∧ patch := by
  cases patch <;> simp [checksumWindows] at member ⊢
  exact member

/-- The buffer is long enough for every window of an edit. -/
structure PatchFits (pkt : List UInt8) (base offset : Nat) (addr : IpAddr)
    (port : Option (Nat × UInt16)) (checksumAt : Nat) (patch : Bool) : Prop where
  address : offset + addr.octets.length ≤ pkt.length
  header : addr.isIpv6 = false → base + 12 ≤ pkt.length
  port : ∀ portAt value, port = some (portAt, value) → portAt + 2 ≤ pkt.length
  checksum : patch = true → checksumAt + 2 ≤ pkt.length

variable {engine}

theorem splice_u16_edits (value : UInt16) (fits : offset + 2 ≤ pkt.length) :
    Bytes.EditedWithin [(offset, 2)] pkt (Bytes.splice pkt offset (u16Bytes value)) := by
  have edited : Bytes.EditedWithin [(offset, (u16Bytes value).length)] pkt
      (Bytes.splice pkt offset (u16Bytes value)) :=
    Bytes.EditedWithin.splice (by simpa using fits)
  simpa using edited

theorem writeAddress_repairs (engine : ChecksumEngine)
    (fits : offset + addr.octets.length ≤ pkt.length)
    (headerFits : addr.isIpv6 = false → base + 12 ≤ pkt.length) :
    Bytes.EditedWithin (headerWindows base addr.isIpv6) (Bytes.splice pkt offset addr.octets)
      (writeAddress engine pkt base offset addr) := by
  cases addr with
  | v4 addr =>
    apply splice_u16_edits
    rw [Bytes.length_splice fits]
    have room := headerFits rfl
    omega
  | v6 addr => exact .refl _ _

private theorem checksum_edits (checksum : UInt16)
    (fits : patch → checksumAt + 2 ≤ written.length) :
    Bytes.EditedWithin (checksumWindows checksumAt patch) written
      (if patch then Bytes.splice written checksumAt (u16Bytes checksum) else written) := by
  cases patch with
  | false => exact Bytes.EditedWithin.refl _ _
  | true => exact splice_u16_edits checksum (fits rfl)

theorem length_writeAddress (engine : ChecksumEngine)
    (fits : offset + addr.octets.length ≤ pkt.length)
    (headerFits : addr.isIpv6 = false → base + 12 ≤ pkt.length) :
    (writeAddress engine pkt base offset addr).length = pkt.length := by
  rw [(writeAddress_repairs engine fits headerFits).length, Bytes.length_splice fits]

/-- After the address and the header checksum are written, only the port and
the transport checksum are. -/
theorem patchEndpoint_after_header {port : Option (Nat × UInt16)}
    (fits : PatchFits pkt base offset addr port checksumAt patch) :
    Bytes.EditedWithin (portWindows port ++ checksumWindows checksumAt patch)
      (writeAddress engine pkt base offset addr)
      (patchEndpoint engine pkt base offset addr port checksumAt pseudo patch) := by
  have writtenLength := length_writeAddress engine fits.address fits.header
  cases port with
  | none =>
    apply checksum_edits
    rw [writtenLength]
    exact fits.checksum
  | some port =>
    rcases port with ⟨portAt, value⟩
    have ported : Bytes.EditedWithin [(portAt, 2)] (writeAddress engine pkt base offset addr)
        (Bytes.splice (writeAddress engine pkt base offset addr) portAt (u16Bytes value)) := by
      refine splice_u16_edits value ?_
      rw [writtenLength]
      exact fits.port portAt value rfl
    apply ported.trans
    apply checksum_edits
    rw [ported.length, writtenLength]
    exact fits.checksum

/-- After the address is written, only the header checksum, the port and the
transport checksum are. -/
private theorem patchEndpoint_after_address {port : Option (Nat × UInt16)}
    (fits : PatchFits pkt base offset addr port checksumAt patch) : Bytes.EditedWithin
      (headerWindows base addr.isIpv6 ++ (portWindows port ++ checksumWindows checksumAt patch))
      (Bytes.splice pkt offset addr.octets)
      (patchEndpoint engine pkt base offset addr port checksumAt pseudo patch) :=
  (writeAddress_repairs engine fits.address fits.header).trans (patchEndpoint_after_header fits)

def patchWindows (base offset : Nat) (v6 : Bool)
    (port : Option (Nat × UInt16)) (checksumAt : Nat) (patch : Bool) : List (Nat × Nat) :=
  (offset, IpAddr.width v6) :: (headerWindows base v6 ++
    (portWindows port ++ checksumWindows checksumAt patch))

theorem patchEndpoint_edits (engine : ChecksumEngine)
    {port : Option (Nat × UInt16)} (pseudo : Bool)
    (fits : PatchFits pkt base offset addr port checksumAt patch) :
    Bytes.EditedWithin (patchWindows base offset addr.isIpv6 port checksumAt patch) pkt
      (patchEndpoint engine pkt base offset addr port checksumAt pseudo patch) := by
  have written := Bytes.EditedWithin.splice fits.address
  rw [IpAddr.length_octets] at written
  exact written.trans (patchEndpoint_after_address fits)

theorem patchEndpoint_address (engine : ChecksumEngine)
    {port : Option (Nat × UInt16)} (pseudo : Bool)
    (fits : PatchFits pkt base offset addr port checksumAt patch)
    (apart : ∀ window ∈ headerWindows base addr.isIpv6 ++
        (portWindows port ++ checksumWindows checksumAt patch),
      offset + IpAddr.width addr.isIpv6 ≤ window.1 ∨ window.1 + window.2 ≤ offset) :
    Bytes.slice (patchEndpoint engine pkt base offset addr port checksumAt
        pseudo patch) offset (IpAddr.width addr.isIpv6) = addr.octets := by
  rw [(patchEndpoint_after_address fits).slice_eq apart, ← IpAddr.length_octets]
  exact Bytes.slice_splice_same fits.address

theorem patchEndpoint_port (fits : PatchFits pkt base offset addr (some (portAt, value)) checksumAt
      patch) (apart : portAt + 2 ≤ checksumAt ∨ checksumAt + 2 ≤ portAt) :
    u16At (patchEndpoint engine pkt base offset addr (some (portAt, value))
      checksumAt pseudo patch) portAt = value := by
  have writtenLength := length_writeAddress engine fits.address fits.header
  have portFits : portAt + (u16Bytes value).length ≤
      (writeAddress engine pkt base offset addr).length := by
    rw [writtenLength, length_u16Bytes]
    exact fits.port portAt value rfl
  have checksumFits : patch = true → checksumAt + 2 ≤
      (Bytes.splice (writeAddress engine pkt base offset addr) portAt (u16Bytes value)).length := by
    rw [Bytes.length_splice portFits, writtenLength]
    exact fits.checksum
  rw [u16At]
  unfold patchEndpoint
  dsimp only
  rw [(checksum_edits _ checksumFits).slice_eq, ← length_u16Bytes value,
    Bytes.slice_splice_same portFits, u16OfBytes_u16Bytes]
  intro window member
  rw [(checksumWindows_mem member).1]
  exact apart

/-! ## What a successful rewrite does -/

theorem l4Checksum_layout (layout : l4Checksum protocol = some (checksumAt, pseudo, need)) :
    checksumAt + 2 ≤ need ∧ (isIcmp protocol → checksumAt = 2) ∧
      (isIcmp protocol = false → 6 ≤ checksumAt) := by
  unfold l4Checksum at layout
  split at layout
  · rename_i tcp
    cases layout
    simp [isIcmp, tcp, protoTcp, protoIcmpv4, protoIcmpv6]
  split at layout
  · rename_i udp
    cases layout
    simp [isIcmp, udp, protoUdp, protoIcmpv4, protoIcmpv6]
  split at layout
  · rename_i icmp
    cases layout
    simp [isIcmp, icmp]
  split at layout
  · rename_i icmp
    cases layout
    simp [isIcmp, icmp]
  · cases layout

def endpointPort (hdr : IpHeader) (side : Side) (port : Option UInt16) : Option (Nat × UInt16) :=
  port.map fun value => (endpointOffset hdr.protocol hdr.l4Offset side, value)

def checksumOffset (hdr : IpHeader) : Nat :=
  match l4Checksum hdr.protocol with
  | some (checksumAt, _, _) => hdr.l4Offset + checksumAt
  | none => hdr.l4Offset

private theorem portOffset_ok (found : portOffset pkt hdr side port = .ok portAt) :
    portAt = endpointPort hdr side port ∧
      (port.isSome → isIcmp hdr.protocol → hdr.l4Offset + 8 ≤ hdr.totalLen) := by
  unfold portOffset at found
  split at found
  · cases found
    simp [endpointPort]
  split at found
  · rename_i icmp
    split at found
    · cases found
    split at found
    · cases found
    split at found
    · cases found
    · rename_i long
      cases found
      exact ⟨rfl, fun _ _ => Nat.not_lt.mp long⟩
  · rename_i notIcmp
    cases found
    exact ⟨rfl, fun _ icmp => absurd icmp notIcmp⟩

/-- The transport fields lie behind the addresses, inside the packet and apart
from each other. -/
structure TransportRoom (hdr : IpHeader) (side : Side) (port : Option UInt16) : Prop where
  checksum : hdr.l4Offset ≤ checksumOffset hdr ∧ checksumOffset hdr + 2 ≤ hdr.totalLen
  port : ∀ portAt value, endpointPort hdr side port = some (portAt, value) →
    hdr.l4Offset ≤ portAt ∧ portAt + 2 ≤ hdr.totalLen ∧
      (portAt + 2 ≤ checksumOffset hdr ∨ checksumOffset hdr + 2 ≤ portAt)

theorem transportRoom_of_layout (layout : l4Checksum hdr.protocol = some (checksumAt, pseudo, need))
    (complete : hdr.l4Offset + need ≤ hdr.totalLen)
    (echoRoom : port.isSome → isIcmp hdr.protocol → hdr.l4Offset + 8 ≤ hdr.totalLen) :
    TransportRoom hdr side port := by
  rcases l4Checksum_layout layout with ⟨checksumRoom, icmpLayout, plainLayout⟩
  have checksumEq : checksumOffset hdr = hdr.l4Offset + checksumAt := by
    simp [checksumOffset, layout]
  refine ⟨by omega, ?_⟩
  intro portAt value given
  rcases Option.map_eq_some_iff.mp given with ⟨_, given, equal⟩
  cases equal
  have room := echoRoom (by simp [given])
  cases icmp : isIcmp hdr.protocol with
  | true =>
    have layoutAt := icmpLayout icmp
    have room := room icmp
    simp only [endpointOffset, icmp, if_true]
    omega
  | false =>
    have layoutAt := plainLayout icmp
    cases side <;> simp [endpointOffset, icmp] <;> omega

theorem rewriteEndpoint_cases
    (rewritten : rewriteEndpoint engine pkt hdr side addr port = .ok out) :
    addr.isIpv6 = hdr.isV6 ∧ TransportRoom hdr side port ∧ ∃ checksumAt pseudo need,
        l4Checksum hdr.protocol = some (checksumAt, pseudo, need) ∧
        out = patchEndpoint engine pkt 0 (addressOffset hdr.isV6 side) addr
          (endpointPort hdr side port) (checksumOffset hdr) pseudo
          (!decide (hdr.protocol = protoUdp ∧
            u16At pkt (checksumOffset hdr) = 0 ∧ hdr.isV6 = false)) := by
  unfold rewriteEndpoint at rewritten
  split at rewritten
  · cases rewritten
  rename_i family
  split at rewritten
  · cases rewritten
  split at rewritten
  · cases rewritten
  rename_i checksumAt pseudo need layout
  split at rewritten
  · cases rewritten
  rename_i complete
  split at rewritten
  · cases rewritten
  rename_i portAt found
  rcases portOffset_ok found with ⟨rfl, echoRoom⟩
  have checksumEq : checksumOffset hdr = hdr.l4Offset + checksumAt := by
    simp [checksumOffset, layout]
  cases rewritten
  exact ⟨Decidable.not_not.mp family,
    transportRoom_of_layout layout (Nat.not_lt.mp complete) echoRoom,
    checksumAt, pseudo, need, layout, by rw [checksumEq]⟩

theorem addressOffset_end (bounds : hdr.Bounds pkt) (side : Side) :
    addressOffset hdr.isV6 side + IpAddr.width hdr.isV6 ≤ hdr.l4Offset := by
  have headerRoom := bounds.header
  cases v6 : hdr.isV6 <;> cases side <;>
    simp [v6, addressOffset, IpAddr.width, ipv4MinHeader, ipv6Header] at headerRoom ⊢ <;>
    omega

section

variable (room : TransportRoom hdr side port)

include room

theorem TransportRoom.fits (bounds : hdr.Bounds pkt)
    (family : addr.isIpv6 = hdr.isV6) (patch : Bool) :
    PatchFits pkt 0 (addressOffset hdr.isV6 side) addr
      (endpointPort hdr side port) (checksumOffset hdr) patch := by
  have total := bounds.declared
  have transport := bounds.transport
  constructor
  · rw [IpAddr.length_octets, family]
    have ends := addressOffset_end bounds side
    omega
  · intro v4
    have headerRoom := bounds.header
    rw [family] at v4
    simp only [v4, Bool.false_eq_true, if_false, ipv4MinHeader] at headerRoom
    omega
  · intro portAt value given
    have inside := (room.port portAt value given).2.1
    omega
  · intro _
    have inside := room.checksum.2
    omega

theorem TransportRoom.behind (member : window ∈ portWindows (endpointPort hdr side port) ++
      checksumWindows (checksumOffset hdr) patch) :
    hdr.l4Offset ≤ window.1 := by
  rcases mem_append.mp member with member | member
  · cases given : endpointPort hdr side port with
    | none => simp [portWindows, given] at member
    | some entry =>
      simp only [portWindows, given, mem_singleton] at member
      subst window
      exact (room.port entry.1 entry.2 given).1
  · rw [(checksumWindows_mem member).1]
    exact room.checksum.1

/-- Apart from the address, a rewrite touches the checksum of an IPv4 header
and the transport header. -/
theorem TransportRoom.window {window : Nat × Nat} (member : window ∈ headerWindows 0 hdr.isV6 ++
      (portWindows (endpointPort hdr side port) ++ checksumWindows (checksumOffset hdr) patch)) :
    (hdr.isV6 = false ∧ window = (10, 2)) ∨ hdr.l4Offset ≤ window.1 := by
  rcases mem_append.mp member with member | member
  · left
    cases v6 : hdr.isV6 <;> simp [headerWindows, v6] at member ⊢
    exact member
  · exact .inr (room.behind member)

theorem TransportRoom.apart (bounds : hdr.Bounds pkt) (other : Side) (patch : Bool) :
    ∀ window ∈ headerWindows 0 hdr.isV6 ++ (portWindows (endpointPort hdr side port) ++
          checksumWindows (checksumOffset hdr) patch),
      addressOffset hdr.isV6 other + IpAddr.width hdr.isV6 ≤ window.1 ∨
        window.1 + window.2 ≤ addressOffset hdr.isV6 other := by
  intro window member
  have ends := addressOffset_end bounds other
  rcases room.window member with ⟨v4, rfl⟩ | behind
  · rw [v4]
    cases other <;> simp [addressOffset]
  · exact .inl (Nat.le_trans ends behind)

end

/-- The port or echo identifier on one side, the address beside it and the
checksums that cover them. -/
def endpointWindows (hdr : IpHeader) (side : Side) (port : Option UInt16) : List (Nat × Nat) :=
  patchWindows 0 (addressOffset hdr.isV6 side) hdr.isV6
    (endpointPort hdr side port) (checksumOffset hdr) true

/-- Everything a successful rewrite establishes. -/
structure Rewritten (pkt : List UInt8) (hdr : IpHeader) (side : Side)
    (addr : IpAddr) (port : Option UInt16) (out : List UInt8) : Prop where
  family : addr.isIpv6 = hdr.isV6
  edits : Bytes.EditedWithin (endpointWindows hdr side port) pkt out
  head : ∀ index, index < addressOffset hdr.isV6 .source →
    index ≠ 10 → index ≠ 11 → out[index]? = pkt[index]?
  address : readAddress out hdr.isV6 side = addr
  other : readAddress out hdr.isV6 side.opposite = readAddress pkt hdr.isV6 side.opposite
  port : ∀ value, port = some value →
    u16At out (endpointOffset hdr.protocol hdr.l4Offset side) = value

theorem rewriteEndpoint_ok (bounds : hdr.Bounds pkt)
    (rewritten : rewriteEndpoint engine pkt hdr side addr port = .ok out) :
    Rewritten pkt hdr side addr port out := by
  rcases rewriteEndpoint_cases rewritten with ⟨family, room, _, pseudo, _, _, rfl⟩
  generalize (!decide (hdr.protocol = protoUdp ∧
    u16At pkt (checksumOffset hdr) = 0 ∧ hdr.isV6 = false)) = patch
  have fits := room.fits bounds family patch
  have edits := patchEndpoint_edits engine pseudo fits
  have written := patchEndpoint_address engine pseudo fits
    (by rw [family]; exact room.apart bounds side patch)
  rw [family] at edits written
  have covered : ∀ window ∈ patchWindows 0 (addressOffset hdr.isV6 side)
      hdr.isV6 (endpointPort hdr side port) (checksumOffset hdr) patch,
      window ∈ endpointWindows hdr side port := by
    intro window member
    rcases mem_cons.mp member with rfl | member
    · exact mem_cons_self
    apply mem_cons_of_mem
    rcases mem_append.mp member with member | member
    · exact mem_append_left _ member
    apply mem_append_right
    rcases mem_append.mp member with member | member
    · exact mem_append_left _ member
    · rw [(checksumWindows_mem member).1]
      exact mem_append_right _ mem_cons_self
  refine ⟨family, edits.mono covered, ?_, ?_, ?_, ?_⟩
  · intro index before notTen notEleven
    apply edits.outside
    intro window member
    rcases mem_cons.mp member with rfl | member
    · left
      cases v6 : hdr.isV6 <;> cases side <;> simp [v6, addressOffset] at before ⊢ <;> omega
    · have ends := addressOffset_end bounds .source
      rcases room.window member with ⟨_, rfl⟩ | behind
      · simp only
        omega
      · left
        omega
  · rw [readAddress, written, ← family, IpAddr.ofOctets_octets]
  · rw [readAddress, readAddress]
    congr 1
    apply edits.slice_eq
    intro window member
    rcases mem_cons.mp member with rfl | member
    · cases hdr.isV6 <;> cases side <;> simp [addressOffset, IpAddr.width, Side.opposite]
    · exact room.apart bounds side.opposite patch window member
  · intro value given
    subst given
    exact patchEndpoint_port fits (room.port _ value rfl).2.2

/-- A rewritten packet parses to its old header with the new address. -/
theorem Rewritten.parse_eq (rewritten : Rewritten pkt hdr side addr port out)
    (parsed : parseIp pkt = .ok hdr) : parseIp out = .ok (hdr.withAddress side addr) := by
  have kept : readAddress out hdr.isV6 side.opposite = hdr.address side.opposite := by
    rw [rewritten.other, parse_reads parsed]
  have fresh := rewritten.address
  rw [parseIp, parse_edited parsed rewritten.edits.length rewritten.head]
  cases side with
  | source =>
    change readAddress out hdr.isV6 .destination = hdr.dst at kept
    simp only [IpHeader.reread, IpHeader.withAddress, fresh, kept]
  | destination =>
    change readAddress out hdr.isV6 .source = hdr.src at kept
    simp only [IpHeader.reread, IpHeader.withAddress, fresh, kept]

/-- Behind the addresses a rewrite changes the port and the checksum only. -/
theorem Rewritten.behind_byte (rewritten : Rewritten pkt hdr side addr port out)
    (bounds : hdr.Bounds pkt) (behind : hdr.l4Offset ≤ index)
    (away : ∀ window ∈ portWindows (endpointPort hdr side port) ++
        checksumWindows (checksumOffset hdr) true,
      index < window.1 ∨ window.1 + window.2 ≤ index) :
    out[index]? = pkt[index]? := by
  apply rewritten.edits.outside
  intro window member
  have header := bounds.header
  have ends := addressOffset_end bounds side
  rcases mem_cons.mp member with rfl | member
  · right
    simp only
    omega
  rcases mem_append.mp member with member | member
  · cases v6 : hdr.isV6 with
    | true => simp [headerWindows, v6] at member
    | false =>
      simp only [headerWindows, v6, Bool.false_eq_true, if_false, mem_singleton] at member
      simp only [v6, Bool.false_eq_true, if_false, ipv4MinHeader] at header
      subst window
      right
      simp only
      omega
  · exact away window member

theorem Rewritten.transport_byte {port : UInt16}
    (rewritten : Rewritten pkt hdr side addr (some port) out)
    (bounds : hdr.Bounds pkt) (behind : hdr.l4Offset ≤ index)
    (notPort : index < endpointOffset hdr.protocol hdr.l4Offset side ∨
      endpointOffset hdr.protocol hdr.l4Offset side + 2 ≤ index)
    (notChecksum : index < checksumOffset hdr ∨ checksumOffset hdr + 2 ≤ index) :
    out[index]? = pkt[index]? := by
  apply rewritten.behind_byte bounds behind
  intro window member
  rcases mem_append.mp member with member | member
  · simp only [portWindows, endpointPort, Option.map_some, mem_singleton] at member
    subst window
    exact notPort
  · rw [(checksumWindows_mem member).1]
    exact notChecksum

/-- Edits behind the address header do not change how a packet parses. -/
theorem parseIp_of_transport_edits {length : Nat} (parsed : parseIp pkt = .ok hdr)
    (edits : Bytes.EditedWithin [(hdr.l4Offset, length)] pkt out) : parseIp out = .ok hdr := by
  have bounds := parse_bounds parsed
  have kept : ∀ side, readAddress out hdr.isV6 side = hdr.address side := by
    intro side
    rw [← parse_reads parsed side, readAddress, readAddress]
    congr 1
    apply edits.slice_eq
    intro window member
    rw [mem_singleton.mp member]
    exact .inl (addressOffset_end bounds side)
  rw [parseIp, parse_edited parsed edits.length]
  · rw [IpHeader.reread, kept .source, kept .destination]
    rfl
  · intro index before _ _
    apply edits.outside
    intro window member
    rw [mem_singleton.mp member]
    have ends := addressOffset_end bounds .source
    left
    simp only
    omega

/-- The packet declares a whole transport header, and an identifier is only
asked of an echo. -/
structure IpHeader.CompleteTransport (hdr : IpHeader) (pkt : List UInt8) : Prop where
  layout : ∃ checksumAt pseudo need, l4Checksum hdr.protocol = some (checksumAt, pseudo, need) ∧
      hdr.l4Offset + need ≤ hdr.totalLen
  echo : isIcmp hdr.protocol = true → isEcho hdr.protocol (byteAt pkt hdr.l4Offset) = true ∧
      hdr.l4Offset + 8 ≤ hdr.totalLen

theorem rewriteEndpoint_succeeds (engine : ChecksumEngine) (side : Side)
    (port : Option UInt16) (bounds : hdr.Bounds pkt)
    (family : addr.isIpv6 = hdr.isV6) (complete : hdr.CompleteTransport pkt) :
    ∃ out, rewriteEndpoint engine pkt hdr side addr port = .ok out := by
  rcases complete.layout with ⟨checksumAt, pseudo, need, layout, room⟩
  have found : ∃ portAt, portOffset pkt hdr side port = .ok portAt := by
    cases port with
    | none => exact ⟨none, rfl⟩
    | some value =>
      cases icmp : isIcmp hdr.protocol with
      | false => simp [portOffset, icmp]
      | true =>
        rcases complete.echo icmp with ⟨echo, long⟩
        have inside : hdr.l4Offset < pkt.length := by
          have total := bounds.declared
          omega
        have kind : pkt[hdr.l4Offset]? = some (byteAt pkt hdr.l4Offset) := by
          simp [byteAt, List.getElem?_eq_getElem inside]
        simp [portOffset, icmp, kind, echo, Nat.not_lt.mpr long]
  rcases found with ⟨portAt, found⟩
  simp [rewriteEndpoint, family, Nat.not_lt.mpr bounds.declared, layout, Nat.not_lt.mpr room, found]

end WarrenSdk.Bolthole
