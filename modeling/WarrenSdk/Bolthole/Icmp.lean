import WarrenSdk.Bolthole.IpRewrite

/-! # ICMP errors and the packets they quote

An ICMP error carries a copy of the packet that caused it. The copy is located
here and rewritten like the outer header, and the error's own checksum is
computed again over the changed payload. -/

namespace WarrenSdk.Bolthole

open List

variable (engine : ChecksumEngine)

/-- The packet an ICMP error quotes. The offsets of `inner` are relative to
`innerOffset`, and its `totalLen` counts the bytes actually quoted. -/
structure ErrorQuote where
  innerOffset : Nat
  inner : IpHeader
  ports : Option (UInt16 × UInt16)
  echoId : Option UInt16
  deriving DecidableEq

def ErrorQuote.port (quote : ErrorQuote) (side : Side) : Option UInt16 :=
  match quote.ports, side with
  | some (src, _), .source => some src
  | some (_, dst), .destination => some dst
  | none, _ => quote.echoId

/-- The ports and the echo identifier of a quoted packet, where the quote
reaches them. -/
def quotedEndpoints (quote : List UInt8) (inner : IpHeader) :
    Except PacketError (Option (UInt16 × UInt16) × Option UInt16) :=
  if inner.protocol = protoTcp ∨ inner.protocol = protoUdp then
    .ok ((readPorts quote inner.l4Offset).toOption, none)
  else if isIcmp inner.protocol then
    match readIcmp quote inner.l4Offset with
    | .error err => .error err
    | .ok icmp => .ok (none, if isEcho inner.protocol icmp.kind then icmp.echoId else none)
  else
    .ok (none, none)

def parseErrorQuote (pkt : List UInt8) (outer : IpHeader) : Except PacketError ErrorQuote :=
  match readIcmp pkt outer.l4Offset with
  | .error err => .error err
  | .ok head =>
    if isIcmpError outer.protocol head.kind = false then
      .error .notAnIcmpError
    else
      let innerOffset := outer.l4Offset + 8
      if outer.totalLen < innerOffset ∨ pkt.length < outer.totalLen then
        .error .truncated
      else
        let quote := Bytes.slice pkt innerOffset (outer.totalLen - innerOffset)
        match parseIpQuote quote with
        | .error err => .error err
        | .ok inner =>
          match quotedEndpoints quote inner with
          | .error err => .error err
          | .ok (ports, echoId) => .ok { innerOffset, inner, ports, echoId }

/-! ## Rewriting the quote -/

/-- The seed of the ICMP checksum. The addresses are read back from the buffer:
the header describes the packet as it was before a rewrite. -/
def icmpChecksumSeed (pkt : List UInt8) (outer : IpHeader) : Option UInt32 :=
  if outer.protocol = protoIcmpv4 ∧ outer.isV6 = false then
    some 0
  else if outer.protocol = protoIcmpv6 ∧ outer.isV6 = true then
    some (engine.icmpv6PseudoSum (Ipv6Addr.ofOctets (Bytes.slice pkt 8 16))
      (Ipv6Addr.ofOctets (Bytes.slice pkt 24 16)) (UInt32.ofNat (outer.totalLen - outer.l4Offset)))
  else
    none

def recomputeIcmpChecksum (pkt : List UInt8) (outer : IpHeader) : Except PacketError (List UInt8) :=
  if pkt.length < outer.totalLen ∨ outer.totalLen < outer.l4Offset + 4 then
    .error .truncated
  else
    match icmpChecksumSeed engine pkt outer with
    | none => .error .unsupportedProtocol
    | some seed =>
      let checksumAt := outer.l4Offset + 2
      let cleared := Bytes.splice pkt checksumAt [0, 0]
      .ok (Bytes.splice cleared checksumAt (u16Bytes
        (engine.internetChecksum seed (Bytes.slice cleared outer.l4Offset
          (outer.totalLen - outer.l4Offset)))))

/-- The offset that a quoted port or identifier is written at; `ending` is
where the quote stops. -/
def quotePortOffset (pkt : List UInt8) (inner : IpHeader) (l4 ending : Nat) (side : Side) :
    Option UInt16 → Except PacketError (Option (Nat × UInt16))
  | none => .ok none
  | some port =>
    if isIcmp inner.protocol then
      match pkt[l4]? with
      | none => .error .truncated
      | some kind =>
        if isEcho inner.protocol kind = false then
          .error .notAnEcho
        else if ending < l4 + 6 then
          .error .truncated
        else
          .ok (some (endpointOffset inner.protocol l4 side, port))
    else if ending < l4 + 4 then
      .error .truncated
    else
      .ok (some (endpointOffset inner.protocol l4 side, port))

/-- Rewrite one endpoint of the quoted packet. The result is the outcome and
the buffer as the call leaves it. -/
def rewriteErrorQuote (pkt : List UInt8) (outer : IpHeader)
    (quote : ErrorQuote) (side : Side) (addr : IpAddr)
    (port : Option UInt16) : Except PacketError Unit × List UInt8 :=
  let inner := quote.inner
  if addr.isIpv6 ≠ inner.isV6 then
    (.error .familyMismatch, pkt)
  else if pkt.length < outer.totalLen then
    (.error .truncated, pkt)
  else
    let base := quote.innerOffset
    let ending := base + inner.totalLen
    if outer.totalLen < ending then
      (.error .truncated, pkt)
    else
      let l4 := base + inner.l4Offset
      match l4Checksum inner.protocol with
      | none => (.error .unsupportedProtocol, pkt)
      | some (checksumAt, pseudo, _) =>
        match quotePortOffset pkt inner l4 ending side port with
        | .error err => (.error err, pkt)
        | .ok portAt =>
          let addressAt := base + addressOffset inner.isV6 side
          if ending < addressAt + IpAddr.width inner.isV6 then
            (.error .truncated, pkt)
          else
            -- The quote may stop before the transport checksum; the field
            -- then stays as the exit saw it.
            let checksumAt := l4 + checksumAt
            let reachable := checksumAt + 2 ≤ ending
            let keepUnchecksummed := inner.protocol = protoUdp ∧
              inner.isV6 = false ∧ u16At pkt checksumAt = 0
            let patched := patchEndpoint engine pkt base addressAt addr
              portAt checksumAt pseudo (decide reachable && !decide keepUnchecksummed)
            match recomputeIcmpChecksum engine patched outer with
            | .error err => (.error err, patched)
            | .ok summed => (.ok (), summed)

variable {engine}

theorem recomputeIcmpChecksum_edits (summed : recomputeIcmpChecksum engine pkt outer = .ok out) :
    Bytes.EditedWithin [(outer.l4Offset + 2, 2)] pkt out := by
  unfold recomputeIcmpChecksum at summed
  split at summed
  · cases summed
  rename_i long
  split at summed
  · cases summed
  · cases summed
    have zeroed : Bytes.EditedWithin [(outer.l4Offset + 2, 2)] pkt
        (Bytes.splice pkt (outer.l4Offset + 2) [0, 0]) := by
      have room : outer.l4Offset + 2 + ([0, 0] : List UInt8).length ≤
          pkt.length := by
        simp only [length_cons, length_nil]
        omega
      exact Bytes.EditedWithin.splice room
    refine (zeroed.trans (splice_u16_edits _ ?_)).mono (by simp)
    rw [zeroed.length]
    omega

/-- The quote lies inside the error's message. -/
structure ErrorQuote.Bounds (quote : ErrorQuote) (outer : IpHeader) : Prop where
  offset : quote.innerOffset = outer.l4Offset + 8
  header : (if quote.inner.isV6 then ipv6Header else ipv4MinHeader) ≤ quote.inner.l4Offset
  transport : quote.inner.l4Offset ≤ quote.inner.totalLen
  ending : quote.innerOffset + quote.inner.totalLen ≤ outer.totalLen

theorem parseErrorQuote_bounds (parsed : parseErrorQuote pkt outer = .ok quote) :
    quote.Bounds outer := by
  unfold parseErrorQuote at parsed
  split at parsed
  · cases parsed
  split at parsed
  · cases parsed
  simp only at parsed
  split at parsed
  · cases parsed
  rename_i room
  split at parsed
  · cases parsed
  rename_i inner quoted
  split at parsed
  · cases parsed
  cases parsed
  have bounds := parse_bounds quoted
  have quoteLength := bounds.declared
  rw [Bytes.length_slice (by omega)] at quoteLength
  exact ⟨rfl, bounds.header, bounds.transport, by simp only; omega⟩

private theorem quotePortOffset_ok {inner : IpHeader}
    (found : quotePortOffset pkt inner l4 ending side port = .ok portAt) :
    ∀ offset value, portAt = some (offset, value) → l4 ≤ offset ∧ offset + 2 ≤ ending := by
  unfold quotePortOffset at found
  split at found
  · cases found
    simp
  split at found
  · rename_i icmp
    split at found
    · cases found
    split at found
    · cases found
    split at found
    · cases found
    cases found
    intro offset value equal
    cases equal
    simp only [endpointOffset, icmp, if_true]
    omega
  · rename_i notIcmp
    split at found
    · cases found
    cases found
    intro offset value equal
    cases equal
    cases side <;> simp [endpointOffset, notIcmp] <;> omega

/-- Where the patch of a quoted packet writes: inside the quote, with the
transport fields behind the inner header. -/
structure QuotePatch (pkt : List UInt8) (outer : IpHeader)
    (quote : ErrorQuote) (side : Side) (addr : IpAddr)
    (portAt : Option (Nat × UInt16)) (checksumAt : Nat) (patch : Bool) : Prop where
  long : outer.totalLen ≤ pkt.length
  family : addr.isIpv6 = quote.inner.isV6
  port : ∀ offset value, portAt = some (offset, value) →
    quote.innerOffset + quote.inner.l4Offset ≤ offset ∧
      offset + 2 ≤ quote.innerOffset + quote.inner.totalLen
  checksum : patch = true → quote.innerOffset + quote.inner.l4Offset ≤ checksumAt ∧
      checksumAt + 2 ≤ quote.innerOffset + quote.inner.totalLen
  address : quote.innerOffset + addressOffset quote.inner.isV6 side +
    IpAddr.width quote.inner.isV6 ≤ quote.innerOffset + quote.inner.totalLen

/-- The ways of rewriting a quote: refused at once, or patched and then
refused or summed. -/
theorem rewriteErrorQuote_cases (engine : ChecksumEngine)
    (pkt : List UInt8) (outer : IpHeader) (quote : ErrorQuote) (side : Side)
    (addr : IpAddr) (port : Option UInt16) :
    (∃ err, rewriteErrorQuote engine pkt outer quote side addr port = (.error err, pkt)) ∨
    ∃ portAt checksumAt pseudo patch, QuotePatch pkt outer quote side addr portAt checksumAt patch ∧
      rewriteErrorQuote engine pkt outer quote side addr port =
        let patched := patchEndpoint engine pkt quote.innerOffset
          (quote.innerOffset + addressOffset quote.inner.isV6 side) addr portAt
          checksumAt pseudo patch
        match recomputeIcmpChecksum engine patched outer with
        | .error err => (.error err, patched)
        | .ok summed => (.ok (), summed) := by
  unfold rewriteErrorQuote
  simp only
  split
  · exact .inl ⟨_, rfl⟩
  rename_i family
  split
  · exact .inl ⟨_, rfl⟩
  rename_i long
  split
  · exact .inl ⟨_, rfl⟩
  split
  · exact .inl ⟨_, rfl⟩
  rename_i checksumAt pseudo need layout
  split
  · exact .inl ⟨_, rfl⟩
  rename_i portAt found
  split
  · exact .inl ⟨_, rfl⟩
  rename_i addressRoom
  refine .inr ⟨portAt, _, pseudo, _, ?_, rfl⟩
  refine ⟨Nat.not_lt.mp long, Decidable.not_not.mp family,
    quotePortOffset_ok found, ?_, Nat.not_lt.mp addressRoom⟩
  intro patched
  exact ⟨Nat.le_add_right _ _, of_decide_eq_true (Bool.and_eq_true_iff.mp patched).1⟩

section QuotePatch

section

variable (room : QuotePatch pkt outer quote side addr portAt checksumAt patch)

include room

theorem QuotePatch.headerRoom (quoted : quote.Bounds outer) (v4 : addr.isIpv6 = false) :
    quote.innerOffset + 12 ≤ quote.innerOffset + quote.inner.totalLen := by
  have header := quoted.header
  have transport := quoted.transport
  rw [← room.family, v4] at header
  simp only [Bool.false_eq_true, if_false, ipv4MinHeader] at header
  omega

theorem QuotePatch.fits (quoted : quote.Bounds outer) : PatchFits pkt quote.innerOffset
      (quote.innerOffset + addressOffset quote.inner.isV6 side) addr portAt checksumAt patch := by
  have long := room.long
  have ending := quoted.ending
  constructor
  · have address := room.address
    rw [IpAddr.length_octets, room.family]
    omega
  · intro v4
    have header := room.headerRoom quoted v4
    omega
  · intro offset value given
    have inside := (room.port offset value given).2
    omega
  · intro patched
    have inside := (room.checksum patched).2
    omega

/-- The quoted port and transport checksum stand behind the quoted header. -/
theorem QuotePatch.behind
    (member : window ∈ portWindows portAt ++ checksumWindows checksumAt patch) :
    quote.innerOffset + quote.inner.l4Offset ≤ window.1 ∧
      window.1 + window.2 ≤ quote.innerOffset + quote.inner.totalLen := by
  rcases mem_append.mp member with member | member
  · cases portAt with
    | none => simp [portWindows] at member
    | some entry =>
      simp only [portWindows, mem_singleton] at member
      subst window
      exact room.port entry.1 entry.2 rfl
  · rcases checksumWindows_mem member with ⟨rfl, patched⟩
    exact room.checksum patched

/-- Apart from the address, the patch touches the checksum of a quoted IPv4
header and the quoted transport header. -/
theorem QuotePatch.window {window : Nat × Nat}
    (member : window ∈ headerWindows quote.innerOffset addr.isIpv6 ++
      (portWindows portAt ++ checksumWindows checksumAt patch)) :
    (addr.isIpv6 = false ∧ window = (quote.innerOffset + 10, 2)) ∨
      (quote.innerOffset + quote.inner.l4Offset ≤ window.1 ∧
        window.1 + window.2 ≤ quote.innerOffset + quote.inner.totalLen) := by
  rcases mem_append.mp member with member | member
  · left
    cases v4 : addr.isIpv6 with
    | true => simp [headerWindows, v4] at member
    | false => exact ⟨rfl, by simpa [headerWindows, v4] using member⟩
  · exact .inr (room.behind member)

end

theorem QuotePatch.edits (engine : ChecksumEngine) (pseudo : Bool)
    (room : QuotePatch pkt outer quote side addr portAt checksumAt patch)
    (quoted : quote.Bounds outer) :
    Bytes.EditedWithin [(outer.l4Offset, outer.totalLen - outer.l4Offset)] pkt
      (patchEndpoint engine pkt quote.innerOffset
        (quote.innerOffset + addressOffset quote.inner.isV6 side) addr portAt
        checksumAt pseudo patch) := by
  have offset := quoted.offset
  have ending := quoted.ending
  apply (patchEndpoint_edits engine pseudo (room.fits quoted)).within
  intro window member
  rcases mem_cons.mp member with rfl | member
  · have address := room.address
    rw [room.family]
    simp only
    omega
  rcases room.window member with ⟨v4, rfl⟩ | inside
  · have header := room.headerRoom quoted v4
    simp only
    omega
  · omega

theorem QuotePatch.address_eq (engine : ChecksumEngine) (pseudo : Bool)
    (room : QuotePatch pkt outer quote side addr portAt checksumAt patch)
    (quoted : quote.Bounds outer) : Bytes.slice (patchEndpoint engine pkt quote.innerOffset
        (quote.innerOffset + addressOffset quote.inner.isV6 side) addr portAt
        checksumAt pseudo patch)
      (quote.innerOffset + addressOffset quote.inner.isV6 side)
      (IpAddr.width quote.inner.isV6) = addr.octets := by
  rw [← room.family]
  have fits := room.fits quoted
  rw [← room.family] at fits
  refine patchEndpoint_address engine pseudo fits ?_
  intro window member
  have header := quoted.header
  rw [← room.family] at header
  rcases room.window member with ⟨v4, rfl⟩ | ⟨behind, _⟩
  · right
    rw [v4]
    cases side <;> simp [addressOffset]
  · left
    refine Nat.le_trans ?_ behind
    rw [Nat.add_assoc]
    refine Nat.add_le_add_left (Nat.le_trans ?_ header) _
    cases addr.isIpv6 <;> cases side <;>
      simp [addressOffset, IpAddr.width, ipv4MinHeader, ipv6Header]

end QuotePatch

/-- Whatever its outcome, rewriting a quote only edits the error's message. -/
theorem rewriteErrorQuote_edits (quoted : quote.Bounds outer) :
    Bytes.EditedWithin [(outer.l4Offset, outer.totalLen - outer.l4Offset)] pkt
      (rewriteErrorQuote engine pkt outer quote side addr port).2 := by
  rcases rewriteErrorQuote_cases engine pkt outer quote side addr port with
    ⟨err, equal⟩ | ⟨portAt, checksumAt, pseudo, patch, room, equal⟩
  · rw [equal]
    exact .refl _ _
  rw [equal]
  have patched := room.edits engine pseudo quoted
  dsimp only
  split
  · exact patched
  · rename_i summed
    apply (patched.trans (recomputeIcmpChecksum_edits summed)).within
    intro window member
    have offset := quoted.offset
    have ending := quoted.ending
    rcases mem_append.mp member with member | member <;>
      simp only [mem_singleton] at member <;>
      subst window <;>
      simp only <;>
      omega

theorem rewriteErrorQuote_address (quoted : quote.Bounds outer)
    (rewritten : (rewriteErrorQuote engine pkt outer quote side addr port).1 = .ok ()) :
    Bytes.slice (rewriteErrorQuote engine pkt outer quote side addr port).2
      (quote.innerOffset + addressOffset quote.inner.isV6 side)
      (IpAddr.width quote.inner.isV6) = addr.octets := by
  rcases rewriteErrorQuote_cases engine pkt outer quote side addr port with
    ⟨err, equal⟩ | ⟨portAt, checksumAt, pseudo, patch, room, equal⟩
  · rw [equal] at rewritten
    cases rewritten
  rw [equal] at rewritten ⊢
  dsimp only at rewritten ⊢
  split at rewritten
  · cases rewritten
  · rename_i summed
    dsimp only
    rw [(recomputeIcmpChecksum_edits summed).slice_eq]
    · exact room.address_eq engine pseudo quoted
    · intro window member
      rw [mem_singleton.mp member]
      have offset := quoted.offset
      right
      simp only
      omega

end WarrenSdk.Bolthole
