import WarrenSdk.Bolthole.Icmp

/-! # The messages of the gateway itself

Echo replies from the gateway's own address and the errors that it answers a
refused packet with. A builder gives `none` for a packet that it may not
answer. -/

namespace WarrenSdk.Bolthole

variable (engine : ChecksumEngine)

def icmpv6Max : Nat := 1280

def unicastV4 (addr : Ipv4Addr) : Bool :=
  !(addr.isMulticast || addr.isBroadcast || addr.isUnspecified || addr.isLoopback)

def unicastV6 (addr : Ipv6Addr) : Bool :=
  !(addr.isMulticast || addr.isUnspecified || addr.isLoopback)

def frameV4 (src dst : Ipv4Addr) (body : List UInt8) : Option (List UInt8) :=
  let total := ipv4MinHeader + body.length
  if 65535 < total then none
  else
    let header := [0x45, 0] ++ u16Bytes (UInt16.ofNat total) ++
      [0, 0, 0, 0, 64, protoIcmpv4, 0, 0] ++ src.octets ++ dst.octets
    let header := Bytes.splice header 10
      (u16Bytes (engine.internetChecksum 0 header))
    let body := Bytes.splice body 2 (u16Bytes (engine.internetChecksum 0 body))
    some (header ++ body)

/-- A message behind an IPv6 header, its checksum over the pseudo-header
written. -/
def frameV6 (src dst : Ipv6Addr) (body : List UInt8) : Option (List UInt8) :=
  if 65535 < body.length then none
  else
    let header := [0x60, 0, 0, 0] ++ u16Bytes (UInt16.ofNat body.length) ++
      [protoIcmpv6, 64] ++ src.octets ++ dst.octets
    let seed := engine.icmpv6PseudoSum src dst (UInt32.ofNat body.length)
    let body := Bytes.splice body 2
      (u16Bytes (engine.internetChecksum seed body))
    some (header ++ body)

def icmpMessage (pkt : List UInt8) (hdr : IpHeader) : Option (List UInt8) :=
  if hdr.l4Offset ≤ hdr.totalLen ∧ hdr.totalLen ≤ pkt.length then
    some (Bytes.slice pkt hdr.l4Offset (hdr.totalLen - hdr.l4Offset))
  else none

/-- The body of a reply: the request's own, under the reply's kind and with its
checksum cleared. -/
def echoReplyBody (request reply : UInt8) (msg : List UInt8) : Option (List UInt8) :=
  if msg.length < 8 ∨ byteAt msg 0 ≠ request then none
  else some (Bytes.splice (Bytes.splice msg 0 [reply]) 2 [0, 0])

def buildEchoReplyV4 (request : List UInt8) : Option (List UInt8) :=
  match parseIp request with
  | .error _ => none
  | .ok hdr =>
    match hdr.src, hdr.dst with
    | .v4 src, .v4 dst =>
      if hdr.protocol ≠ protoIcmpv4 ∨ unicastV4 src = false then none
      else do
        let msg ← icmpMessage request hdr
        let body ← echoReplyBody icmpv4EchoRequest icmpv4EchoReply msg
        frameV4 engine dst src body
    | _, _ => none

def buildEchoReplyV6 (request : List UInt8) : Option (List UInt8) :=
  match parseIp request with
  | .error _ => none
  | .ok hdr =>
    match hdr.src, hdr.dst with
    | .v6 src, .v6 dst =>
      if hdr.protocol ≠ protoIcmpv6 ∨ unicastV6 src = false then none
      else do
        let msg ← icmpMessage request hdr
        let body ← echoReplyBody icmpv6EchoRequest icmpv6EchoReply msg
        frameV6 engine dst src body
    | _, _ => none

def quotesAnError (pkt : List UInt8) (hdr : IpHeader) : Bool :=
  pkt[hdr.l4Offset]?.any (isIcmpError hdr.protocol)

def errorBody (kind code : UInt8) (pkt : List UInt8) (length : Nat) : Option (List UInt8) :=
  if pkt.length < length then none
  else some ([kind, code, 0, 0, 0, 0, 0, 0] ++ pkt.take length)

/-- Host unreachable, quoting the header and eight bytes of the transport. -/
def buildUnreachableV4 (offending : List UInt8) (source : Ipv4Addr) : Option (List UInt8) :=
  match parseIp offending with
  | .error _ => none
  | .ok hdr =>
    match hdr.src with
    | .v6 _ => none
    | .v4 dst =>
      if unicastV4 dst = false ∨ quotesAnError offending hdr then none
      else do
        let body ← errorBody 3 1 offending (min (hdr.l4Offset + 8) hdr.totalLen)
        frameV4 engine source dst body

/-- No route to destination, quoting what fits under the minimum MTU. -/
def buildUnreachableV6 (offending : List UInt8) (source : Ipv6Addr) : Option (List UInt8) :=
  match parseIp offending with
  | .error _ => none
  | .ok hdr =>
    match hdr.src with
    | .v4 _ => none
    | .v6 dst =>
      if unicastV6 dst = false ∨ quotesAnError offending hdr then none
      else do
        let body ← errorBody 1 0 offending
          (min hdr.totalLen (icmpv6Max - ipv6Header - 8))
        frameV6 engine source dst body

end WarrenSdk.Bolthole
