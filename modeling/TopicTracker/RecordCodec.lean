import TopicTracker.ReferenceExternals

namespace TopicTracker.RecordCodec

open TopicTracker.FixedWidthBytes
open TopicTracker.RustValues
open TopicTracker.ThirdParty
open TopicTracker.ReferenceExternals (reference reference_signsCorrectly)

structure RecordContent where
  bytes : List UInt8
deriving DecidableEq

namespace RecordContent

variable {T : Type}

/-- `RecordContent::to`. -/
def decodeTo (postcard : Postcard T) (content : RecordContent) : Result T :=
  postcard.fromBytes content.bytes

def fromArbitrary (postcard : Postcard T) (value : T) : Result RecordContent := do
  let bytes ← postcard.toAllocvec value
  .ok ⟨bytes⟩

end RecordContent

structure Record where
  topic : Bytes 32
  unixMinute : UInt64
  pubKey : Bytes 32
  content : RecordContent
  signature : Bytes 64
deriving DecidableEq

namespace Record

/-- The bytes `Record::sign` signs, assembled field by field. -/
def signedBytes (topic : Bytes 32) (unixMinute : UInt64) (pubKey : Bytes 32)
    (content : RecordContent) : List UInt8 :=
  topic.toList ++ ((u64ToLeBytes unixMinute).toList ++ (pubKey.toList ++ content.bytes))

/-- The part of `Record::sign` after its content is serialised. -/
def signContent (X : Externals) (topic : Bytes 32) (unixMinute : UInt64)
    (content : RecordContent) (signingKey : Bytes 32) : Record where
  topic := topic
  unixMinute := unixMinute
  pubKey := X.verifyingKey signingKey
  content := content
  signature := X.sign signingKey
    (signedBytes topic unixMinute (X.verifyingKey signingKey) content)

def sign {T : Type} (X : Externals) (postcard : Postcard T) (topic : Bytes 32)
    (unixMinute : UInt64) (recordContent : T) (signingKey : Bytes 32) : Result Record := do
  let content ← RecordContent.fromArbitrary postcard recordContent
  .ok (signContent X topic unixMinute content signingKey)

def fromBytes (buf : List UInt8) : Result Record := do
  if buf.length < 32 + 8 + 32 + 64 then
    .error (.bail "buffer too short for Record deserialization")
  let (topic, buf) ← splitAt buf 32
  let (unixMinute, buf) ← splitAt buf 8
  let (pubKey, buf) ← splitAt buf 32
  let contentLength ← subUsize buf.length 64
  let (recordContent, buf) ← splitAt buf contentLength
  let (signature, buf) ← splitAt buf 64
  if buf ≠ [] then
    .error (.bail "buffer not empty after reconstruction")
  let topic ← tryIntoArray 32 topic
  let unixMinute ← tryIntoArray 8 unixMinute
  let pubKey ← tryIntoArray 32 pubKey
  let signature ← tryIntoArray 64 signature
  .ok ⟨topic, u64FromLeBytes unixMinute, pubKey, ⟨recordContent⟩, signature⟩

def toBytes (r : Record) : List UInt8 :=
  r.topic.toList ++ ((u64ToLeBytes r.unixMinute).toList ++
    (r.pubKey.toList ++ (r.content.bytes ++ r.signature.toList)))

/-- The bytes `Record::verify` checks the signature against, sliced out of the
serialised record. -/
def signatureData (r : Record) : Result (List UInt8) := do
  let length ← subUsize r.toBytes.length 64
  sliceTo r.toBytes length

def verify (X : Externals) (r : Record) (actualTopic : Bytes 32)
    (actualUnixMinute : UInt64) : Result Unit := do
  if r.topic ≠ actualTopic then
    .error (.bail "topic mismatch")
  if r.unixMinute ≠ actualUnixMinute then
    .error (.bail "unix minute mismatch")
  let signatureData ← r.signatureData
  X.parseVerifyingKey r.pubKey
  X.verifyStrict r.pubKey signatureData r.signature

end Record

open Record

@[simp] theorem toBytes_length (r : Record) :
    r.toBytes.length = 136 + r.content.bytes.length := by
  simp only [toBytes, List.length_append, List.Vector.toList_length]
  omega

theorem toBytes_eq_signedBytes_append (r : Record) :
    r.toBytes =
      signedBytes r.topic r.unixMinute r.pubKey r.content ++ r.signature.toList := by
  simp [toBytes, signedBytes]

/-- Slicing the signature off the serialised record gives back exactly the
bytes that signing assembled. -/
theorem signatureData_eq (r : Record) :
    r.signatureData = .ok (signedBytes r.topic r.unixMinute r.pubKey r.content) := by
  have hlength : 64 ≤ r.toBytes.length := by simp; omega
  rw [signatureData, subUsize_of_le hlength, ok_bind]
  have hsigned : (signedBytes r.topic r.unixMinute r.pubKey r.content).length =
      r.toBytes.length - 64 := by
    rw [toBytes_eq_signedBytes_append]
    simp
  rw [← hsigned, toBytes_eq_signedBytes_append]
  exact sliceTo_append _ _ rfl

theorem signedBytes_inj {t t' : Bytes 32} {m m' : UInt64} {k k' : Bytes 32}
    {c c' : RecordContent} :
    signedBytes t m k c = signedBytes t' m' k' c' ↔
      t = t' ∧ m = m' ∧ k = k' ∧ c = c' := by
  simp only [signedBytes, vector_append_eq_append_iff, u64ToLeBytes_injective.eq_iff]
  cases c
  cases c'
  simp

theorem fromBytes_toBytes (r : Record) : fromBytes r.toBytes = .ok r := by
  have hshort : ¬ r.toBytes.length < 32 + 8 + 32 + 64 := by simp
  have htail : (r.content.bytes ++ r.signature.toList).length - 64 =
      r.content.bytes.length := by simp
  have hsub : subUsize (r.content.bytes ++ r.signature.toList).length 64 =
      .ok r.content.bytes.length := by
    rw [subUsize_of_le (by simp), htail]
  have hsignature : splitAt r.signature.toList 64 = .ok (r.signature.toList, []) := by
    simpa using splitAt_append r.signature.toList [] (by simp)
  rw [fromBytes, if_neg hshort]
  simp only [toBytes]
  rw [splitAt_append _ _ (by simp), ok_bind]
  simp only
  rw [splitAt_append _ _ (by simp), ok_bind]
  simp only
  rw [splitAt_append _ _ (by simp), ok_bind]
  simp only
  rw [hsub, ok_bind, splitAt_append _ _ rfl, ok_bind]
  simp only
  rw [hsignature, ok_bind]
  simp [u64FromLeBytes_toLeBytes]

theorem exists_bytes_toList_eq {n : Nat} {bytes : List UInt8} (h : bytes.length = n) :
    ∃ array : Bytes n, array.toList = bytes :=
  ⟨⟨bytes, h⟩, rfl⟩

theorem exists_toBytes_eq {buf : List UInt8} (h : 136 ≤ buf.length) :
    ∃ r : Record, r.toBytes = buf := by
  obtain ⟨topic, htopic⟩ : ∃ topic : Bytes 32, topic.toList = buf.take 32 := by
    apply exists_bytes_toList_eq
    rw [List.length_take]
    omega
  obtain ⟨minute, hminute⟩ : ∃ minute : Bytes 8, minute.toList = (buf.drop 32).take 8 := by
    apply exists_bytes_toList_eq
    rw [List.length_take, List.length_drop]
    omega
  obtain ⟨key, hkey⟩ : ∃ key : Bytes 32, key.toList = (buf.drop 40).take 32 := by
    apply exists_bytes_toList_eq
    rw [List.length_take, List.length_drop]
    omega
  obtain ⟨signature, hsignature⟩ : ∃ signature : Bytes 64,
      signature.toList = (buf.drop 72).drop (buf.length - 136) := by
    apply exists_bytes_toList_eq
    rw [List.length_drop, List.length_drop]
    omega
  refine ⟨⟨topic, u64FromLeBytes minute, key, ⟨(buf.drop 72).take (buf.length - 136)⟩,
    signature⟩, ?_⟩
  have hdropMinute : (buf.drop 32).drop 8 = buf.drop 40 := List.drop_drop
  have hdropKey : (buf.drop 40).drop 32 = buf.drop 72 := List.drop_drop
  simp only [toBytes, u64ToLeBytes_fromLeBytes, htopic, hminute, hkey, hsignature]
  rw [List.take_append_drop, ← hdropKey, List.take_append_drop, ← hdropMinute,
    List.take_append_drop, List.take_append_drop]

theorem fromBytes_of_short {buf : List UInt8} (h : buf.length < 136) :
    fromBytes buf = .error (.bail "buffer too short for Record deserialization") := by
  rw [fromBytes, if_pos h]
  rfl

/-- Decoding accepts exactly the buffers of at least the fixed size, without a
panic, and is inverse to encoding on both sides. -/
theorem fromBytes_toBytes_inverse :
    (∀ buf : List UInt8,
      ((∃ r, fromBytes buf = .ok r) ↔ 136 ≤ buf.length) ∧
        (∀ text, fromBytes buf ≠ .error (.panic text)) ∧
          ∀ r, fromBytes buf = .ok r → r.toBytes = buf) ∧
      ∀ r : Record, fromBytes r.toBytes = .ok r := by
  refine ⟨fun buf => ?_, fromBytes_toBytes⟩
  by_cases h : 136 ≤ buf.length
  · obtain ⟨r, rfl⟩ := exists_toBytes_eq h
    rw [fromBytes_toBytes]
    refine ⟨iff_of_true ⟨r, rfl⟩ h, fun text => by simp, fun r' hr' => ?_⟩
    rw [Except.ok.inj hr']
  · rw [fromBytes_of_short (not_le.mp h)]
    exact ⟨iff_of_false (by simp) h, fun text => by simp, fun r hr => absurd hr (by simp)⟩

theorem verify_eq_ok_iff (X : Externals) (r : Record) (topic : Bytes 32)
    (unixMinute : UInt64) :
    r.verify X topic unixMinute = .ok () ↔
      r.topic = topic ∧ r.unixMinute = unixMinute ∧
        X.parseVerifyingKey r.pubKey = .ok () ∧
          X.verifyStrict r.pubKey (signedBytes r.topic r.unixMinute r.pubKey r.content)
            r.signature = .ok () := by
  unfold verify
  by_cases htopic : r.topic = topic
  · by_cases hminute : r.unixMinute = unixMinute
    · simp only [htopic, hminute, ne_eq, not_true_eq_false, ite_false,
        signatureData_eq, ok_bind, true_and, bind_eq_ok]
      exact ⟨fun ⟨_, hparse, hsignature⟩ => ⟨hparse, hsignature⟩,
        fun ⟨hparse, hsignature⟩ => ⟨(), hparse, hsignature⟩⟩
    · simp [htopic, hminute]
  · simp [htopic]

theorem signContent_verify_iff {X : Externals} (hX : SignsCorrectly X) (topic : Bytes 32)
    (unixMinute : UInt64) (content : RecordContent) (signingKey topic' : Bytes 32)
    (unixMinute' : UInt64) :
    (signContent X topic unixMinute content signingKey).verify X topic' unixMinute' = .ok () ↔
      topic' = topic ∧ unixMinute' = unixMinute := by
  rw [verify_eq_ok_iff]
  constructor
  · rintro ⟨htopic, hminute, -, -⟩
    exact ⟨htopic.symm, hminute.symm⟩
  · rintro ⟨rfl, rfl⟩
    exact ⟨rfl, rfl, hX.parse_verifyingKey signingKey, hX.verifyStrict_sign signingKey _⟩

theorem sign_eq_ok_iff {T : Type} {X : Externals} {postcard : Postcard T} {topic : Bytes 32}
    {unixMinute : UInt64} {recordContent : T} {signingKey : Bytes 32} {r : Record} :
    sign X postcard topic unixMinute recordContent signingKey = .ok r ↔
      ∃ content, RecordContent.fromArbitrary postcard recordContent = .ok content ∧
        r = signContent X topic unixMinute content signingKey := by
  rw [sign, bind_eq_ok]
  simp [eq_comm]

theorem signatureData_inj {r r' : Record} (h : r.signatureData = r'.signatureData) :
    r.topic = r'.topic ∧ r.unixMinute = r'.unixMinute ∧ r.pubKey = r'.pubKey ∧
      r.content = r'.content := by
  rw [signatureData_eq, signatureData_eq, Except.ok.injEq] at h
  exact signedBytes_inj.mp h

/-- A signed record verifies for its own topic and minute only, also after a
round trip through its bytes, and the verified bytes determine every signed
field of any two records. -/
theorem sign_verify_binding {T : Type} {X : Externals} (hX : SignsCorrectly X)
    (postcard : Postcard T) (topic : Bytes 32) (unixMinute : UInt64) (recordContent : T)
    (signingKey : Bytes 32) (r : Record)
    (hr : sign X postcard topic unixMinute recordContent signingKey = .ok r) :
    (∀ topic' unixMinute', r.verify X topic' unixMinute' = .ok () ↔
        topic' = topic ∧ unixMinute' = unixMinute) ∧
      (∃ decoded, fromBytes r.toBytes = .ok decoded ∧
        ∀ topic' unixMinute', decoded.verify X topic' unixMinute' = .ok () ↔
          topic' = topic ∧ unixMinute' = unixMinute) ∧
      ∀ r₁ r₂ : Record, r₁.signatureData = r₂.signatureData →
        r₁.topic = r₂.topic ∧ r₁.unixMinute = r₂.unixMinute ∧
          r₁.pubKey = r₂.pubKey ∧ r₁.content = r₂.content := by
  obtain ⟨content, -, rfl⟩ := sign_eq_ok_iff.mp hr
  have hverify := signContent_verify_iff hX topic unixMinute content signingKey
  exact ⟨hverify, ⟨_, fromBytes_toBytes _, hverify⟩, fun r₁ r₂ => signatureData_inj⟩

/-- The content a node without neighbours or messages publishes. -/
def emptyContent : GossipRecordContent where
  activePeers := List.Vector.replicate maxRecordPeers (zeroBytes 32)
  lastMessageHashes := List.Vector.replicate maxMessageHashes (zeroBytes 32)

theorem sign_verify_binding_emptyContent :
    ∃ r, sign reference reference.gossipContent (zeroBytes 32) 12345 emptyContent
        (zeroBytes 32) = .ok r ∧
      r.verify reference (zeroBytes 32) 12345 = .ok () ∧
        r.verify reference (zeroBytes 32) 12346 ≠ .ok () := by
  have h := sign_verify_binding reference_signsCorrectly reference.gossipContent
    (zeroBytes 32) 12345 emptyContent (zeroBytes 32) _ rfl
  refine ⟨_, rfl, (h.1 _ _).mpr ⟨rfl, rfl⟩, fun hverify => ?_⟩
  simpa using ((h.1 _ _).mp hverify).2

end TopicTracker.RecordCodec
