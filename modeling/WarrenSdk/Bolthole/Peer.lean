import WarrenSdk.Bolthole.Address

/-! # Peers

Key material, labels and the reasons for a refusal. A key is its 32 bytes; how
a public key is derived from a secret one is not the gateway core's business, so
a key pair is any two of them. -/

namespace WarrenSdk.Bolthole

def keyLen : Nat := 32

inductive KeyError
  | badEncoding
  | badLength
  deriving DecidableEq

structure PeerPublicKey where
  bytes : Vector UInt8 keyLen
  deriving DecidableEq

structure PresharedKey where
  bytes : Vector UInt8 keyLen
  deriving DecidableEq

structure GatewayKey where
  secret : Vector UInt8 keyLen
  «public» : PeerPublicKey
  deriving DecidableEq

/-! ## Labels -/

inductive LabelError
  | empty
  | tooLong
  | badCharacter
  deriving DecidableEq

def labelCharacter (character : Char) : Bool :=
  character.isAlphanum || character = '-' || character = '_' || character = '.'

def usableLabel (text : String) : Bool :=
  text ≠ "" && text.utf8ByteSize ≤ 32 && text.toList.all labelCharacter

/-- The operator's name for a peer. The empty label stands for one that a
parser does not know yet. -/
structure PeerLabel where
  text : String
  wellFormed : text = "" ∨ usableLabel text = true
  deriving DecidableEq

namespace PeerLabel

def empty : PeerLabel := ⟨"", .inl rfl⟩

def new (value : String) : Except LabelError PeerLabel :=
  if none : value = "" then .error .empty
  else if short : value.utf8ByteSize ≤ 32 then
    if plain : value.toList.all labelCharacter then
      .ok ⟨value, .inr (by simp [usableLabel, none, short, plain])⟩
    else .error .badCharacter
  else .error .tooLong

end PeerLabel

/-! ## Refusals and accounting -/

inductive DropReason
  | oversize
  | malformed
  | gateClosed
  | sourceRateLimited
  | unknownPeer
  | unknownIndex
  | auth
  | replay
  | spoofedSource
  | linkLocalSource
  | nonUnicast
  | selfDestination
  | peerIsolation
  | unownedPeerAddress
  | poolDestination
  | privateDestination
  | v6Unavailable
  | v6Budget
  | noRoute
  deriving DecidableEq

structure PeerStats where
  rxBytes : Nat := 0
  txBytes : Nat := 0
  handshakes : Nat := 0
  deferred : Nat := 0
  drops : Nat := 0
  deriving DecidableEq

end WarrenSdk.Bolthole
