import TopicTracker.TopicKeys

/-!
Separation of the derived keys, salts and secrets under a digest without
collisions. Every preimage has a fixed length, so the unframed concatenations
are told apart field by field, and the three kinds by their lengths.
-/

namespace TopicTracker.KeySeparation

open TopicTracker.FixedWidthBytes
open TopicTracker.RustValues
open TopicTracker.TopicKeys

variable {δ : Type} {sha512 : List UInt8 → δ}

theorem topicId_hash_inj {topic topic' : TopicId} : topic.hash = topic'.hash ↔ topic = topic' := by
  cases topic
  cases topic'
  simp

theorem signingKeypair_eq_iff (hsha512 : Function.Injective sha512) {topic topic' : TopicId}
    {minute minute' : UInt64} :
    signingKeypair sha512 topic minute = signingKeypair sha512 topic' minute' ↔
      topic = topic' ∧ minute = minute' := by
  rw [signingKeypair, signingKeypair, hsha512.eq_iff, vector_append_eq_append_iff,
    List.Vector.toList_injective.eq_iff, u64ToLeBytes_injective.eq_iff, topicId_hash_inj]

theorem salt_eq_iff (hsha512 : Function.Injective sha512) {topic topic' : TopicId}
    {minute minute' : UInt64} :
    salt sha512 topic minute = salt sha512 topic' minute' ↔
      topic = topic' ∧ minute = minute' := by
  rw [salt, salt, hsha512.eq_iff, List.append_assoc, List.append_assoc,
    List.append_cancel_left_eq, vector_append_eq_append_iff,
    List.Vector.toList_injective.eq_iff, u64ToLeBytes_injective.eq_iff, topicId_hash_inj]

theorem defaultSecretRotation_eq_iff (hsha512 : Function.Injective sha512)
    {topicHash topicHash' : Bytes 32} {minute minute' : UInt64} {secret secret' : Bytes 32} :
    defaultSecretRotation sha512 topicHash minute secret =
        defaultSecretRotation sha512 topicHash' minute' secret' ↔
      topicHash = topicHash' ∧ minute = minute' ∧ secret = secret' := by
  rw [defaultSecretRotation, defaultSecretRotation, hsha512.eq_iff, List.append_assoc,
    List.append_assoc, vector_append_eq_append_iff, vector_append_eq_append_iff,
    List.Vector.toList_injective.eq_iff, u64ToBeBytes_injective.eq_iff]

theorem signingKeypair_ne_salt (hsha512 : Function.Injective sha512) (topic topic' : TopicId)
    (minute minute' : UInt64) :
    signingKeypair sha512 topic minute ≠ salt sha512 topic' minute' := by
  intro h
  have hlength := congrArg List.length (hsha512 h)
  simp [saltPrefix] at hlength

theorem signingKeypair_ne_encryptionKeypair (hsha512 : Function.Injective sha512)
    (topic topic' : TopicId) (minute minute' : UInt64) (secret : Bytes 32) :
    signingKeypair sha512 topic minute ≠
      encryptionKeypair topic' (defaultSecretRotation sha512) secret minute' := by
  intro h
  have hlength := congrArg List.length (hsha512 h)
  simp at hlength

/-- Signing seeds, salts and default secrets determine what they were derived
from, and no publicly derivable signing seed is a salt or a secret. -/
theorem derived_keys_separated (hsha512 : Function.Injective sha512) :
    (∀ topic topic' minute minute',
      signingKeypair sha512 topic minute = signingKeypair sha512 topic' minute' ↔
        topic = topic' ∧ minute = minute') ∧
      (∀ topic topic' minute minute',
        salt sha512 topic minute = salt sha512 topic' minute' ↔
          topic = topic' ∧ minute = minute') ∧
      (∀ topicHash topicHash' minute minute' secret secret',
        defaultSecretRotation sha512 topicHash minute secret =
            defaultSecretRotation sha512 topicHash' minute' secret' ↔
          topicHash = topicHash' ∧ minute = minute' ∧ secret = secret') ∧
      ∀ topic topic' minute minute' secret,
        signingKeypair sha512 topic minute ≠ salt sha512 topic' minute' ∧
          signingKeypair sha512 topic minute ≠
            encryptionKeypair topic' (defaultSecretRotation sha512) secret minute' := by
  refine ⟨fun _ _ _ _ => signingKeypair_eq_iff hsha512, fun _ _ _ _ => salt_eq_iff hsha512,
    fun _ _ _ _ _ _ => defaultSecretRotation_eq_iff hsha512, ?_⟩
  intro topic topic' minute minute' secret
  exact ⟨signingKeypair_ne_salt hsha512 topic topic' minute minute',
    signingKeypair_ne_encryptionKeypair hsha512 topic topic' minute minute' secret⟩

theorem derived_keys_separated_id :
    signingKeypair id ⟨zeroBytes 32⟩ 6 ≠ signingKeypair id ⟨zeroBytes 32⟩ 7 ∧
      defaultSecretRotation id (zeroBytes 32) 6 (zeroBytes 32) ≠
        defaultSecretRotation id (zeroBytes 32) 7 (zeroBytes 32) ∧
      signingKeypair id ⟨zeroBytes 32⟩ 6 ≠ salt id ⟨zeroBytes 32⟩ 6 := by
  have hid : Function.Injective (id : List UInt8 → List UInt8) := Function.injective_id
  obtain ⟨hsigning, -, hsecret, hdisjoint⟩ := derived_keys_separated hid
  refine ⟨fun h => ?_, fun h => ?_, (hdisjoint _ _ _ _ (zeroBytes 32)).1⟩
  · exact absurd ((hsigning _ _ _ _).mp h).2 (by decide)
  · exact absurd ((hsecret _ _ _ _ _ _).mp h).2.1 (by decide)

end TopicTracker.KeySeparation
