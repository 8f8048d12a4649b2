import WarrenSdk.Bolthole.Network
import WarrenSdk.Foundation.Text

/-! # Networks in text

How addresses and networks are displayed. Reading them back is left to the
network crate. -/

namespace WarrenSdk.Bolthole

open List

/-! ## Display -/

def Ipv4Addr.display (addr : Ipv4Addr) : List Char :=
  ['.'].intercalate (addr.octets.map fun octet => Nat.toDigits 10 octet.toNat)

namespace Ipv6Addr

def segments (addr : Ipv6Addr) : List Nat :=
  (List.range 8).map fun position => addr.bits.toNat / 65536 ^ (7 - position) % 65536

def toIpv4Mapped (addr : Ipv6Addr) : Option Ipv4Addr :=
  if addr.bits.toNat / 2 ^ 32 = 0xffff then some ⟨addr.bits.setWidth 32⟩
  else none

/-- A run of segments. -/
structure Span where
  start : Nat := 0
  len : Nat := 0

/-- The first of the longest runs of zero segments. -/
def longestZeroes (position : Nat) (current longest : Span) : List Nat → Span
  | [] => longest
  | segment :: rest =>
    if segment = 0 then
      let current : Span :=
        if current.len = 0 then ⟨position, 1⟩
        else ⟨current.start, current.len + 1⟩
      longestZeroes (position + 1) current
        (if longest.len < current.len then current else longest) rest
    else longestZeroes (position + 1) {} longest rest

def displaySegments (segments : List Nat) : List Char :=
  [':'].intercalate (segments.map (Nat.toDigits 16))

def display (addr : Ipv6Addr) : List Char :=
  match addr.toIpv4Mapped with
  | some mapped => "::ffff:".toList ++ mapped.display
  | none =>
    let zeroes := longestZeroes 0 {} {} addr.segments
    -- A single zero segment is spelled out.
    if 1 < zeroes.len then
      displaySegments (addr.segments.take zeroes.start) ++ "::".toList ++
        displaySegments (addr.segments.drop (zeroes.start + zeroes.len))
    else displaySegments addr.segments

end Ipv6Addr

def IpAddr.display : IpAddr → List Char
  | .v4 addr => addr.display
  | .v6 addr => addr.display

def IpNetwork.display (network : IpNetwork) : List Char :=
  network.address.display ++ '/' :: Nat.toDigits 10 network.netmask

example : (Ipv6Addr.mk 0x20010db8000000010000000000000001).display =
    "2001:db8:0:1::1".toList := by decide

/-! ## The characters of a network -/

def networkCharacters : List Char := "0123456789abcdef.:/".toList

theorem digitChar_mem (small : value < 16) : Nat.digitChar value ∈ networkCharacters := by
  have all : ∀ value : Fin 16, Nat.digitChar value ∈ networkCharacters := by decide
  exact all ⟨value, small⟩

theorem toDigitsCore_mem (positive : 0 < base) (small : base ≤ 16)
    (fuel value : Nat) (before : digits ⊆ networkCharacters) :
    Nat.toDigitsCore base fuel value digits ⊆ networkCharacters := by
  induction fuel generalizing value digits with
  | zero => exact before
  | succ fuel induction =>
    have digit := digitChar_mem (Nat.lt_of_lt_of_le (Nat.mod_lt value positive) small)
    have longer := cons_subset.mpr ⟨digit, before⟩
    rw [Nat.toDigitsCore]
    split
    · exact longer
    · exact induction _ longer

theorem toDigits_mem (base : Nat) (positive : 0 < base) (small : base ≤ 16)
    (value : Nat) : Nat.toDigits base value ⊆ networkCharacters :=
  toDigitsCore_mem positive small _ _ (nil_subset _)

theorem joinDigits_mem (base : Nat) (positive : 0 < base) (small : base ≤ 16)
    (separator : Char) (listed : separator ∈ networkCharacters) (values : List Nat) :
    [separator].intercalate (values.map (Nat.toDigits base)) ⊆
      networkCharacters := by
  intro character member
  rcases Text.mem_intercalate member with between | ⟨part, found, inside⟩
  · rwa [mem_singleton.mp between]
  · rcases mem_map.mp found with ⟨value, _, rfl⟩
    exact toDigits_mem base positive small value inside

theorem Ipv4Addr.display_mem (addr : Ipv4Addr) : addr.display ⊆ networkCharacters := by
  have digits := joinDigits_mem 10 (by decide) (by decide) '.'
    (by decide) (addr.octets.map UInt8.toNat)
  rwa [map_map] at digits

theorem Ipv6Addr.displaySegments_mem (segments : List Nat) :
    displaySegments segments ⊆ networkCharacters :=
  joinDigits_mem 16 (by decide) (by decide) ':' (by decide) segments

theorem Ipv6Addr.display_mem (addr : Ipv6Addr) : addr.display ⊆ networkCharacters := by
  rw [display]
  split
  · exact append_subset.mpr ⟨by decide, Ipv4Addr.display_mem _⟩
  · dsimp only
    split
    · exact append_subset.mpr ⟨append_subset.mpr
        ⟨displaySegments_mem _, by decide⟩, displaySegments_mem _⟩
    · exact displaySegments_mem _

theorem IpNetwork.display_mem (network : IpNetwork) : network.display ⊆ networkCharacters := by
  have address : network.address.display ⊆ networkCharacters := by
    cases network.address with
    | v4 addr | v6 addr => exact addr.display_mem
  have netmask := toDigits_mem 10 (by decide) (by decide) network.netmask
  exact append_subset.mpr ⟨address, cons_subset.mpr ⟨by decide, netmask⟩⟩

theorem IpNetwork.display_ne_nil (network : IpNetwork) : network.display ≠ [] := by simp [display]

end WarrenSdk.Bolthole
