import TopicTracker.ThirdParty

namespace TopicTracker.TopicKeys

open TopicTracker.RustValues

structure TopicId where
  hash : Bytes 32
deriving DecidableEq

/-- A `SecretRotation` implementation, given by its `derive` method. -/
abbrev SecretRotation (δ : Type) := Bytes 32 → UInt64 → Bytes 32 → δ

variable {δ : Type}

/-- `DefaultSecretRotation`. -/
def defaultSecretRotation (sha512 : List UInt8 → δ) : SecretRotation δ :=
  fun topicHash unixMinute initialSecretHash =>
    sha512 (topicHash.toList ++ (u64ToBeBytes unixMinute).toList ++
      initialSecretHash.toList)

def signingKeypair (sha512 : List UInt8 → δ) (topicId : TopicId) (unixMinute : UInt64) : δ :=
  sha512 (topicId.hash.toList ++ (u64ToLeBytes unixMinute).toList)

def encryptionKeypair (topicId : TopicId) (secretRotationFunction : SecretRotation δ)
    (initialSecretHash : Bytes 32) (unixMinute : UInt64) : δ :=
  secretRotationFunction topicId.hash unixMinute initialSecretHash

/-- The ASCII bytes of `b"salt"`. -/
def saltPrefix : List UInt8 := [115, 97, 108, 116]

def salt (sha512 : List UInt8 → δ) (topicId : TopicId) (unixMinute : UInt64) : δ :=
  sha512 (saltPrefix ++ topicId.hash.toList ++ (u64ToLeBytes unixMinute).toList)

end TopicTracker.TopicKeys
