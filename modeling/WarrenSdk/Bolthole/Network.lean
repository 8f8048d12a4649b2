import WarrenSdk.Bolthole.Address
import WarrenSdk.Foundation.Blocks
import WarrenSdk.Foundation.HashMap

/-! # Networks

A network is a prefix of the address space of one family. The prefix table is
a map from networks; looking an address up gives the longest prefix that covers
it. Both stand for crates that the source depends on, `ip_network` and
`ip_network_table`, and say what the source relies on them for. -/

namespace WarrenSdk.Bolthole

open List

namespace IpAddr

def toBits : IpAddr → Nat
  | .v4 addr => addr.bits.toNat
  | .v6 addr => addr.bits.toNat

def bitWidth (v6 : Bool) : Nat := if v6 then 128 else 32

end IpAddr

/-- A prefix: the bits of the address behind the mask are zero. -/
structure IpNetwork where
  address : IpAddr
  netmask : Nat
  fits : netmask ≤ IpAddr.bitWidth address.isIpv6
  noHostBits : address.toBits % 2 ^ (IpAddr.bitWidth address.isIpv6 - netmask) = 0
  deriving DecidableEq

namespace IpNetwork

def single (addr : IpAddr) : IpNetwork where
  address := addr
  netmask := IpAddr.bitWidth addr.isIpv6
  fits := Nat.le_refl _
  noHostBits := by simp [Nat.mod_one]

def contains (network : IpNetwork) (addr : IpAddr) : Bool :=
  let host := IpAddr.bitWidth network.address.isIpv6 - network.netmask
  addr.isIpv6 = network.address.isIpv6 && addr.toBits / 2 ^ host = network.address.toBits / 2 ^ host

def hostBits (network : IpNetwork) : Nat := IpAddr.bitWidth network.address.isIpv6 - network.netmask

theorem contains_iff (network : IpNetwork) (addr : IpAddr) :
    network.contains addr = true ↔ addr.isIpv6 = network.address.isIpv6 ∧
      SameBlock network.hostBits addr.toBits network.address.toBits := by
  simp [contains, SameBlock, hostBits]

end IpNetwork

structure IpNetworkTable (Value : Type) where
  entries : HashMap IpNetwork Value

namespace IpNetworkTable

variable {Value : Type}

def new : IpNetworkTable Value := ⟨HashMap.empty⟩

def insert (table : IpNetworkTable Value) (network : IpNetwork)
    (value : Value) : IpNetworkTable Value :=
  ⟨table.entries.insert network value⟩

def exactMatch (table : IpNetworkTable Value) (network : IpNetwork) : Option Value :=
  table.entries.get network

/-- The longer of two prefixes, the first one when they are equally long. -/
def longer (best : Option (IpNetwork × Value)) (entry : IpNetwork × Value) :
    Option (IpNetwork × Value) :=
  match best with
  | none => some entry
  | some current =>
    if current.1.netmask < entry.1.netmask then some entry else some current

def longestMatch (table : IpNetworkTable Value) (addr : IpAddr) : Option (IpNetwork × Value) :=
  (table.entries.toList.filter fun entry => entry.1.contains addr).foldl longer none

/-! ## Looking up -/

theorem foldl_longer_isSome (entries : List (IpNetwork × Value)) (best : IpNetwork × Value) :
    ∃ found, entries.foldl longer (some best) = some found ∧ (found = best ∨ found ∈ entries) ∧
      best.1.netmask ≤ found.1.netmask ∧ ∀ entry ∈ entries, entry.1.netmask ≤ found.1.netmask := by
  induction entries generalizing best with
  | nil => exact ⟨best, rfl, .inl rfl, Nat.le_refl _, by simp⟩
  | cons entry entries induction =>
    rw [foldl_cons]
    by_cases shorter : best.1.netmask < entry.1.netmask
    · rw [longer, if_pos shorter]
      rcases induction entry with ⟨found, walked, member, above, longest⟩
      refine ⟨found, walked, ?_, by omega, ?_⟩
      · rcases member with equal | member
        · exact .inr (by simp [equal])
        · exact .inr (mem_cons_of_mem _ member)
      · simpa using ⟨above, fun network value => longest (network, value)⟩
    · rw [longer, if_neg shorter]
      rcases induction best with ⟨found, walked, member, above, longest⟩
      refine ⟨found, walked, ?_, above, ?_⟩
      · exact member.imp_right (mem_cons_of_mem _)
      · simpa using ⟨by omega, fun network value => longest (network, value)⟩

/-- A prefix is found when any covers the address, it covers the address
itself, and none that does is longer. -/
theorem longestMatch_spec (table : IpNetworkTable Value) (addr : IpAddr) :
    (table.longestMatch addr = none ∧ ∀ network value,
      table.exactMatch network = some value → network.contains addr = false) ∨
    ∃ network value, table.longestMatch addr = some (network, value) ∧
      table.exactMatch network = some value ∧ network.contains addr = true ∧
      ∀ other otherValue, table.exactMatch other = some otherValue →
        other.contains addr = true → other.netmask ≤ network.netmask := by
  have listed : ∀ network value,
      (network, value) ∈ table.entries.toList.filter (fun entry => entry.1.contains addr) ↔
      table.exactMatch network = some value ∧ network.contains addr = true := by
    intro network value
    rw [mem_filter, HashMap.mem_toList, exactMatch]
  rw [longestMatch]
  cases covering : table.entries.toList.filter (fun entry => entry.1.contains addr) with
  | nil =>
    refine .inl ⟨rfl, fun network value present => ?_⟩
    have absent := (listed network value).not.mp (by simp [covering])
    simpa [present] using absent
  | cons entry entries =>
    rcases foldl_longer_isSome entries entry with ⟨⟨network, value⟩, walked, member, above, longest⟩
    have found := (listed network value).mp (by
      rw [covering]
      exact mem_cons.mpr member)
    refine .inr ⟨network, value, walked, found.1, found.2, ?_⟩
    intro other otherValue present covers
    have among := (listed other otherValue).mpr ⟨present, covers⟩
    rw [covering] at among
    rcases mem_cons.mp among with equal | among
    · rw [← equal] at above
      exact above
    · exact longest _ among

/-- When all prefixes that cover an address belong to one value, the longest
match finds it. -/
theorem longestMatch_owner {table : IpNetworkTable Value}
    (single : ∀ network value other otherValue,
      table.exactMatch network = some value → network.contains addr = true →
      table.exactMatch other = some otherValue → other.contains addr = true →
      value = otherValue) (owner : Value) :
    (table.longestMatch addr).map Prod.snd = some owner ↔
      ∃ network, table.exactMatch network = some owner ∧ network.contains addr = true := by
  rcases table.longestMatch_spec addr with
    ⟨missed, uncovered⟩ | ⟨network, value, found, present, covers, _⟩
  · rw [missed]
    constructor
    · intro impossible
      cases impossible
    · intro covered
      rcases covered with ⟨network, present, covers⟩
      rw [uncovered network owner present] at covers
      cases covers
  · rw [found]
    constructor
    · intro same
      cases same
      exact ⟨network, present, covers⟩
    · intro covered
      rcases covered with ⟨other, otherPresent, otherCovers⟩
      rw [single network value other owner present covers otherPresent otherCovers]
      rfl

end IpNetworkTable

end WarrenSdk.Bolthole
