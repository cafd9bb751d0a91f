import TopicTracker.RustValues

namespace TopicTracker.ThirdParty

open TopicTracker.RustValues

def maxRecordPeers : Nat := 5

def maxMessageHashes : Nat := 5

structure GossipRecordContent where
  activePeers : List.Vector (Bytes 32) maxRecordPeers
  lastMessageHashes : List.Vector (Bytes 32) maxMessageHashes
deriving DecidableEq

/-- The `postcard` codec at one serialisable type. -/
structure Postcard (T : Type) where
  toAllocvec : T → Result (List UInt8)
  fromBytes : List UInt8 → Result T

/-- SHA-512 (its first 32 bytes), Ed25519, HPKE over Ed25519 keys, the endpoint
key check of iroh and `postcard`. Signing keys are their 32-byte seeds, and the
second argument of `hpkeEncrypt` is the randomness one call draws. -/
structure Externals where
  sha512 : List UInt8 → Bytes 32
  verifyingKey : Bytes 32 → Bytes 32
  sign : Bytes 32 → List UInt8 → Bytes 64
  parseVerifyingKey : Bytes 32 → Result Unit
  verifyStrict : Bytes 32 → List UInt8 → Bytes 64 → Result Unit
  hpkeEncrypt : Bytes 32 → Bytes 32 → List UInt8 → Result (List UInt8)
  hpkeDecrypt : Bytes 32 → List UInt8 → Result (List UInt8)
  isEndpointId : Bytes 32 → Bool
  gossipContent : Postcard GossipRecordContent

/-- Ed25519 verifies what it signed under the same key. -/
structure SignsCorrectly (X : Externals) : Prop where
  parse_verifyingKey : ∀ key, X.parseVerifyingKey (X.verifyingKey key) = .ok ()
  verifyStrict_sign : ∀ key message,
    X.verifyStrict (X.verifyingKey key) message (X.sign key message) = .ok ()

def hpkeOverhead : Nat := 56

/-- HPKE decrypts what it encrypted to the same key and adds a fixed overhead. -/
structure EncryptsCorrectly (X : Externals) : Prop where
  decrypt_encrypt : ∀ key entropy message, ∃ sealed,
    X.hpkeEncrypt (X.verifyingKey key) entropy message = .ok sealed ∧
      sealed.length = message.length + hpkeOverhead ∧
      X.hpkeDecrypt key sealed = .ok message

/-- HPKE opens what was encrypted to a key with that key only. -/
def OpensOnlyWithKey (X : Externals) : Prop :=
  ∀ key key' entropy message sealed opened,
    X.hpkeEncrypt (X.verifyingKey key) entropy message = .ok sealed →
      X.hpkeDecrypt key' sealed = .ok opened → key' = key

/-- `postcard` serialises arrays of fixed length. -/
def SerializesContent (X : Externals) : Prop :=
  ∀ content, ∃ bytes, X.gossipContent.toAllocvec content = .ok bytes

/-- `postcard` decodes the arrays it serialised. -/
def EncodesContentLosslessly (X : Externals) : Prop :=
  ∀ content, ∃ bytes, X.gossipContent.toAllocvec content = .ok bytes ∧
    X.gossipContent.fromBytes bytes = .ok content

/-- The public key of a signing key is a valid endpoint id. -/
def HonestEndpoints (X : Externals) : Prop :=
  ∀ key, X.isEndpointId (X.verifyingKey key) = true

end TopicTracker.ThirdParty
