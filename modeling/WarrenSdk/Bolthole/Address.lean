import WarrenSdk.Foundation.Bytes

/-! # Addresses

The address types of the gateway core. An address is its bits; the octet views
are what the packet code reads and writes. A `SocketAddr` keeps the address and
the port, which is all the gateway ever asks of one. -/

namespace WarrenSdk.Bolthole

structure Ipv4Addr where
  bits : BitVec 32
  deriving DecidableEq

structure Ipv6Addr where
  bits : BitVec 128
  deriving DecidableEq

inductive IpAddr
  | v4 (addr : Ipv4Addr)
  | v6 (addr : Ipv6Addr)
  deriving DecidableEq

@[ext]
structure SocketAddr where
  ip : IpAddr
  port : UInt16
  deriving DecidableEq

/-- A moment of the monotonic clock, and a span of it, in nanoseconds. -/
abbrev Instant := Nat

abbrev Duration := Nat

def Duration.fromSecs (seconds : Nat) : Duration := seconds * 1000000000

namespace Ipv4Addr

def octets (addr : Ipv4Addr) : List UInt8 := Bytes.ofNat 4 addr.bits.toNat

def ofOctets (bytes : List UInt8) : Ipv4Addr := ⟨BitVec.ofNat 32 (Bytes.toNat bytes)⟩

@[simp] theorem length_octets (addr : Ipv4Addr) : addr.octets.length = 4 := Bytes.length_ofNat 4 _

@[simp] theorem ofOctets_octets (addr : Ipv4Addr) : ofOctets addr.octets = addr := by
  have bound : addr.bits.toNat < 256 ^ 4 := addr.bits.isLt
  rw [ofOctets, octets, Bytes.toNat_ofNat_of_lt bound, BitVec.ofNat_toNat, BitVec.setWidth_eq]

def octet (addr : Ipv4Addr) (position : Nat) : UInt8 := addr.octets.getD position 0

def isUnspecified (addr : Ipv4Addr) : Bool := addr.bits = 0

def isBroadcast (addr : Ipv4Addr) : Bool := addr.bits = 0xffffffff

def isLoopback (addr : Ipv4Addr) : Bool := addr.octet 0 = 127

def isLinkLocal (addr : Ipv4Addr) : Bool := addr.octet 0 = 169 && addr.octet 1 = 254

def isMulticast (addr : Ipv4Addr) : Bool := 224 ≤ addr.octet 0 && addr.octet 0 ≤ 239

def isPrivate (addr : Ipv4Addr) : Bool :=
  addr.octet 0 = 10 || (addr.octet 0 = 172 && 16 ≤ addr.octet 1 && addr.octet 1 ≤ 31) ||
    (addr.octet 0 = 192 && addr.octet 1 = 168)

end Ipv4Addr

namespace Ipv6Addr

def octets (addr : Ipv6Addr) : List UInt8 := Bytes.ofNat 16 addr.bits.toNat

def ofOctets (bytes : List UInt8) : Ipv6Addr := ⟨BitVec.ofNat 128 (Bytes.toNat bytes)⟩

@[simp] theorem length_octets (addr : Ipv6Addr) : addr.octets.length = 16 := Bytes.length_ofNat 16 _

@[simp] theorem ofOctets_octets (addr : Ipv6Addr) : ofOctets addr.octets = addr := by
  have bound : addr.bits.toNat < 256 ^ 16 := addr.bits.isLt
  rw [ofOctets, octets, Bytes.toNat_ofNat_of_lt bound, BitVec.ofNat_toNat, BitVec.setWidth_eq]

def firstSegment (addr : Ipv6Addr) : BitVec 16 := (addr.bits >>> 112).setWidth 16

def isUnspecified (addr : Ipv6Addr) : Bool := addr.bits = 0

def isLoopback (addr : Ipv6Addr) : Bool := addr.bits = 1

def isMulticast (addr : Ipv6Addr) : Bool := addr.firstSegment &&& 0xff00 = 0xff00

end Ipv6Addr

namespace IpAddr

def isIpv6 : IpAddr → Bool
  | .v4 _ => false
  | .v6 _ => true

def octets : IpAddr → List UInt8
  | .v4 addr => addr.octets
  | .v6 addr => addr.octets

def width (v6 : Bool) : Nat := if v6 then 16 else 4

def ofOctets (v6 : Bool) (bytes : List UInt8) : IpAddr :=
  if v6 then .v6 (Ipv6Addr.ofOctets bytes) else .v4 (Ipv4Addr.ofOctets bytes)

@[simp] theorem length_octets (addr : IpAddr) : addr.octets.length = width addr.isIpv6 := by
  cases addr <;> simp [octets, isIpv6, width]

@[simp] theorem ofOctets_octets (addr : IpAddr) : ofOctets addr.isIpv6 addr.octets = addr := by
  cases addr <;> simp [octets, isIpv6, ofOctets]

end IpAddr

namespace SocketAddr

def isIpv6 (addr : SocketAddr) : Bool := addr.ip.isIpv6

end SocketAddr

/-! ## Sixteen-bit fields -/

def u16Bytes (value : UInt16) : List UInt8 := Bytes.ofNat 2 value.toNat

def u16OfBytes (bytes : List UInt8) : UInt16 := UInt16.ofNat (Bytes.toNat bytes)

@[simp] theorem length_u16Bytes (value : UInt16) : (u16Bytes value).length = 2 :=
  Bytes.length_ofNat 2 _

@[simp] theorem u16OfBytes_u16Bytes (value : UInt16) : u16OfBytes (u16Bytes value) = value := by
  have bound : value.toNat < 256 ^ 2 := value.toNat_lt
  rw [u16OfBytes, u16Bytes, Bytes.toNat_ofNat_of_lt bound, UInt16.ofNat_toNat]

end WarrenSdk.Bolthole
