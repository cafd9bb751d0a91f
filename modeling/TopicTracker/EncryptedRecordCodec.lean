import TopicTracker.RecordCodec

namespace TopicTracker.EncryptedRecordCodec

open TopicTracker.FixedWidthBytes
open TopicTracker.RustValues
open TopicTracker.ThirdParty
open TopicTracker.ReferenceExternals (reference reference_encryptsCorrectly flatten
  flatten_length)
open TopicTracker.RecordCodec

structure EncryptedRecord where
  encryptedRecord : List UInt8
  encryptedDecryptionKey : List UInt8
deriving DecidableEq

/-- The one-time key and the randomness one call of `Record::encrypt` draws. -/
structure EncryptionDraw where
  oneTimeKey : Bytes 32
  dataEntropy : Bytes 32
  keyEntropy : Bytes 32

def zeroDraw : EncryptionDraw := ⟨zeroBytes 32, zeroBytes 32, zeroBytes 32⟩

namespace EncryptedRecord

def maxSize : Nat := 2048

def encryptedKeyLength : Nat := 88

/-- The buffer `to_bytes` fills; the cast of the length to `u32` truncates. -/
def frame (e : EncryptedRecord) : List UInt8 :=
  (u32ToLeBytes (UInt32.ofNat e.encryptedRecord.length)).toList ++
    (e.encryptedRecord ++ e.encryptedDecryptionKey)

def toBytes (e : EncryptedRecord) : Result (List UInt8) :=
  if e.frame.length > maxSize then
    .error (.bail ("EncryptedRecord serialization exceeds maximum size, the max is set " ++
      "generously so this should never happen, if so your code is using it manually"))
  else .ok e.frame

def fromBytes (buf : List UInt8) : Result EncryptedRecord := do
  if buf.length < 4 then
    .error (.bail "buffer too short for EncryptedRecord deserialization")
  let (encryptedRecordLen, buf) ← splitAt buf 4
  let encryptedRecordLen ← tryIntoArray 4 encryptedRecordLen
  let encryptedRecordLen := u32FromLeBytes encryptedRecordLen
  let expectedPayloadLen ←
    match u32CheckedAdd encryptedRecordLen (UInt32.ofNat encryptedKeyLength) with
    | some length => .ok length
    | none => .error (.bail "encrypted record length overflow")
  if encryptedRecordLen > UInt32.ofNat maxSize then
    .error (.bail "encrypted record length exceeds maximum allowed size")
  if buf.length ≠ expectedPayloadLen.toNat then
    .error (.bail "buffer length does not match expected encrypted record length")
  let (encryptedRecord, encryptedDecryptionKey) ← splitAt buf encryptedRecordLen.toNat
  .ok ⟨encryptedRecord, encryptedDecryptionKey⟩

def decrypt (X : Externals) (e : EncryptedRecord) (decryptionKey : Bytes 32) :
    Result Record := do
  let oneTimeKeyBytes ← X.hpkeDecrypt decryptionKey e.encryptedDecryptionKey
  let oneTimeKey ← tryIntoArray 32 oneTimeKeyBytes
  let decryptedRecord ← X.hpkeDecrypt oneTimeKey e.encryptedRecord
  Record.fromBytes decryptedRecord

end EncryptedRecord

/-- `Record::encrypt`. -/
def encrypt (X : Externals) (r : Record) (draw : EncryptionDraw) (encryptionKey : Bytes 32) :
    Result EncryptedRecord := do
  let dataEnc ← expect "encryption failed"
    (X.hpkeEncrypt (X.verifyingKey draw.oneTimeKey) draw.dataEntropy r.toBytes)
  let keyEnc ← expect "encryption failed"
    (X.hpkeEncrypt (X.verifyingKey encryptionKey) draw.keyEntropy draw.oneTimeKey.toList)
  .ok ⟨dataEnc, keyEnc⟩

open EncryptedRecord

theorem frame_length (e : EncryptedRecord) :
    e.frame.length =
      4 + e.encryptedRecord.length + e.encryptedDecryptionKey.length := by
  simp only [frame, List.length_append, List.Vector.toList_length]
  omega

theorem toBytes_eq_ok_iff {e : EncryptedRecord} {buf : List UInt8} :
    e.toBytes = .ok buf ↔ e.frame.length ≤ maxSize ∧ e.frame = buf := by
  unfold EncryptedRecord.toBytes
  split
  · next h => simp [Nat.not_le.mpr h]
  · next h => simp [Nat.not_lt.mp h]

theorem u32CheckedAdd_keyLength {n : UInt32} (hn : n ≤ UInt32.ofNat maxSize) :
    ∃ sum, u32CheckedAdd n (UInt32.ofNat encryptedKeyLength) = some sum ∧
      sum.toNat = n.toNat + encryptedKeyLength := by
  have hkey : (UInt32.ofNat encryptedKeyLength).toNat = encryptedKeyLength := rfl
  have hbound : n.toNat ≤ maxSize := UInt32.le_iff_toNat_le.mp hn
  have hlt : n.toNat + encryptedKeyLength < 2 ^ 32 := by
    simp only [maxSize, encryptedKeyLength] at hbound ⊢
    omega
  refine ⟨n + UInt32.ofNat encryptedKeyLength, ?_, ?_⟩
  · rw [u32CheckedAdd, hkey, if_pos hlt]
  · rw [UInt32.toNat_add, hkey, Nat.mod_eq_of_lt hlt]

/-- The length checks come before every slice, so decoding never panics. -/
theorem fromBytes_append_cases (length : Bytes 4) (payload : List UInt8) :
    ((u32FromLeBytes length).toNat ≤ maxSize ∧
        payload.length = (u32FromLeBytes length).toNat + encryptedKeyLength ∧
        EncryptedRecord.fromBytes (length.toList ++ payload) =
          .ok ⟨payload.take (u32FromLeBytes length).toNat,
            payload.drop (u32FromLeBytes length).toNat⟩) ∨
      (¬ ((u32FromLeBytes length).toNat ≤ maxSize ∧
          payload.length = (u32FromLeBytes length).toNat + encryptedKeyLength) ∧
        ∃ text, EncryptedRecord.fromBytes (length.toList ++ payload) = .error (.bail text)) := by
  have hlong : ¬ (length.toList ++ payload).length < 4 := by simp
  unfold EncryptedRecord.fromBytes
  rw [if_neg hlong, splitAt_append _ _ length.toList_length]
  simp only [ok_bind, tryIntoArray_toList]
  generalize u32FromLeBytes length = n
  by_cases hn : n ≤ UInt32.ofNat maxSize
  · obtain ⟨sum, hsum, hsumNat⟩ := u32CheckedAdd_keyLength hn
    have hnNat : n.toNat ≤ maxSize := UInt32.le_iff_toNat_le.mp hn
    have hnot : ¬ n > UInt32.ofNat maxSize := UInt32.not_lt.mpr hn
    simp only [hsum, hnot, ite_false, hsumNat]
    by_cases hpayload : payload.length = n.toNat + encryptedKeyLength
    · have hsplit : n.toNat ≤ payload.length := by omega
      left
      refine ⟨hnNat, hpayload, ?_⟩
      simp [hpayload, splitAt_of_le hsplit]
    · right
      simp [hpayload]
  · have hnNat : ¬ n.toNat ≤ maxSize := fun hle => hn (UInt32.le_iff_toNat_le.mpr hle)
    have hgt : n > UInt32.ofNat maxSize := UInt32.not_le.mp hn
    right
    cases u32CheckedAdd n (UInt32.ofNat encryptedKeyLength) with
    | none => simp [hnNat]
    | some sum => simp [hgt, hnNat]

theorem fromBytes_append_eq_ok_iff (length : Bytes 4) (payload : List UInt8)
    (e : EncryptedRecord) :
    EncryptedRecord.fromBytes (length.toList ++ payload) = .ok e ↔
      (u32FromLeBytes length).toNat ≤ maxSize ∧
        payload.length = (u32FromLeBytes length).toNat + encryptedKeyLength ∧
          e = ⟨payload.take (u32FromLeBytes length).toNat,
            payload.drop (u32FromLeBytes length).toNat⟩ := by
  rcases fromBytes_append_cases length payload with
    ⟨hmax, hpayload, hok⟩ | ⟨hmalformed, text, hbail⟩
  · rw [hok, Except.ok.injEq]
    exact ⟨fun heq => ⟨hmax, hpayload, heq.symm⟩, fun h => h.2.2.symm⟩
  · rw [hbail]
    refine iff_of_false ?_ ?_
    · intro h
      cases h
    · rintro ⟨hmax, hpayload, -⟩
      exact hmalformed ⟨hmax, hpayload⟩

theorem u32ToLeBytes_ofNat_length {bytes : List UInt8} {length : Bytes 4}
    (h : bytes.length = (u32FromLeBytes length).toNat) :
    u32ToLeBytes (UInt32.ofNat bytes.length) = length := by
  rw [h, UInt32.ofNat_toNat, u32ToLeBytes_fromLeBytes]

/-- The decoder accepts exactly the frames whose key part has the fixed length
and whose record part alone is within the size limit. -/
theorem fromBytes_eq_ok_iff {buf : List UInt8} {e : EncryptedRecord} :
    EncryptedRecord.fromBytes buf = .ok e ↔
      e.frame = buf ∧ e.encryptedRecord.length ≤ maxSize ∧
        e.encryptedDecryptionKey.length = encryptedKeyLength := by
  constructor
  · intro h
    have hlong : 4 ≤ buf.length := by
      by_contra hshort
      simp [EncryptedRecord.fromBytes, not_le.mp hshort] at h
    obtain ⟨length, payload, rfl⟩ : ∃ (length : Bytes 4) (payload : List UInt8),
        buf = length.toList ++ payload :=
      ⟨⟨buf.take 4, by simpa using hlong⟩, buf.drop 4, (List.take_append_drop 4 buf).symm⟩
    obtain ⟨hmax, hpayload, rfl⟩ := (fromBytes_append_eq_ok_iff length payload e).mp h
    have htake : (payload.take (u32FromLeBytes length).toNat).length =
        (u32FromLeBytes length).toNat := by
      rw [List.length_take]
      omega
    refine ⟨?_, htake.trans_le hmax, ?_⟩
    · rw [frame, u32ToLeBytes_ofNat_length htake, List.take_append_drop]
    · simp only [List.length_drop]
      omega
  · rintro ⟨rfl, hrecord, hkey⟩
    have hlength : (u32FromLeBytes (u32ToLeBytes (UInt32.ofNat e.encryptedRecord.length))).toNat =
        e.encryptedRecord.length := by
      rw [u32FromLeBytes_toLeBytes]
      apply UInt32.toNat_ofNat_of_lt'
      simp only [maxSize] at hrecord
      exact hrecord.trans_lt (by decide)
    rw [frame, fromBytes_append_eq_ok_iff, hlength]
    refine ⟨hrecord, by simp [hkey], ?_⟩
    simp

theorem fromBytes_frame {e : EncryptedRecord}
    (hkey : e.encryptedDecryptionKey.length = encryptedKeyLength) {buf : List UInt8}
    (h : e.toBytes = .ok buf) : EncryptedRecord.fromBytes buf = .ok e := by
  obtain ⟨hlength, hbuf⟩ := toBytes_eq_ok_iff.mp h
  rw [frame_length] at hlength
  exact fromBytes_eq_ok_iff.mpr ⟨hbuf, by omega, hkey⟩

def announcedLength (buf : List UInt8) : Nat :=
  littleEndianValue (buf.take 4)

theorem announcedLength_frame {e : EncryptedRecord} (h : e.encryptedRecord.length ≤ maxSize) :
    announcedLength e.frame = e.encryptedRecord.length := by
  have hlt : e.encryptedRecord.length < 2 ^ 32 := h.trans_lt (by decide)
  rw [announcedLength, frame, List.take_left' (by simp)]
  change littleEndianValue (littleEndian 4 (UInt32.ofNat e.encryptedRecord.length).toNat) = _
  rw [UInt32.toNat_ofNat_of_lt' hlt]
  exact littleEndianValue_littleEndian_of_lt hlt

theorem fromBytes_append_ne_panic (length : Bytes 4) (payload : List UInt8) (text : String) :
    EncryptedRecord.fromBytes (length.toList ++ payload) ≠ .error (.panic text) := by
  rcases fromBytes_append_cases length payload with ⟨-, -, hok⟩ | ⟨-, text', hbail⟩
  · rw [hok]
    simp
  · rw [hbail]
    simp

theorem fromBytes_bails_of_keyLength_ne {e : EncryptedRecord}
    (hkey : e.encryptedDecryptionKey.length ≠ encryptedKeyLength) {buf : List UInt8}
    (h : e.toBytes = .ok buf) : ∃ text, EncryptedRecord.fromBytes buf = .error (.bail text) := by
  obtain ⟨hlength, rfl⟩ := toBytes_eq_ok_iff.mp h
  cases hdecode : EncryptedRecord.fromBytes e.frame with
  | ok decoded =>
      exfalso
      obtain ⟨hframe, hrecord, hdecodedKey⟩ := fromBytes_eq_ok_iff.mp hdecode
      have hmax : e.encryptedRecord.length ≤ maxSize := by
        rw [frame_length] at hlength
        omega
      have hannounced : decoded.encryptedRecord.length = e.encryptedRecord.length := by
        rw [← announcedLength_frame hrecord, hframe, announcedLength_frame hmax]
      have htotal := congrArg List.length hframe
      rw [frame_length, frame_length] at htotal
      omega
  | error fault =>
      cases fault with
      | bail text => exact ⟨text, rfl⟩
      | panic text => exact absurd hdecode (fromBytes_append_ne_panic _ _ text)

theorem toBytes_of_fromBytes_iff {buf : List UInt8} {e : EncryptedRecord}
    (h : EncryptedRecord.fromBytes buf = .ok e) :
    e.toBytes = .ok buf ↔ buf.length ≤ maxSize := by
  obtain ⟨rfl, -, -⟩ := fromBytes_eq_ok_iff.mp h
  rw [toBytes_eq_ok_iff]
  simp

theorem encrypt_spec {X : Externals} (hX : EncryptsCorrectly X) (r : Record)
    (draw : EncryptionDraw) (key : Bytes 32) :
    ∃ e, encrypt X r draw key = .ok e ∧ e.decrypt X key = .ok r ∧
      e.encryptedRecord.length = r.toBytes.length + hpkeOverhead ∧
        e.encryptedDecryptionKey.length = encryptedKeyLength := by
  obtain ⟨dataEnc, hdata, hdataLength, hdataDec⟩ :=
    hX.decrypt_encrypt draw.oneTimeKey draw.dataEntropy r.toBytes
  obtain ⟨keyEnc, hkey, hkeyLength, hkeyDec⟩ :=
    hX.decrypt_encrypt key draw.keyEntropy draw.oneTimeKey.toList
  refine ⟨⟨dataEnc, keyEnc⟩, ?_, ?_, hdataLength, ?_⟩
  · simp [encrypt, hdata, hkey, expect]
  · simp [decrypt, hdataDec, hkeyDec, fromBytes_toBytes]
  · simpa [hpkeOverhead, encryptedKeyLength] using hkeyLength

theorem decrypt_fromBytes_of_encrypt {X : Externals} (hX : EncryptsCorrectly X) {r : Record}
    {draw : EncryptionDraw} {key : Bytes 32} {e : EncryptedRecord} {buf : List UInt8}
    (hencrypt : encrypt X r draw key = .ok e) (hbytes : e.toBytes = .ok buf) :
    EncryptedRecord.fromBytes buf = .ok e ∧ e.decrypt X key = .ok r := by
  obtain ⟨e', he', hdecrypt, -, hkey⟩ := encrypt_spec hX r draw key
  obtain rfl : e' = e := Except.ok.inj (he'.symm.trans hencrypt)
  exact ⟨fromBytes_frame hkey hbytes, hdecrypt⟩

/-- Encrypting and serialising a record succeeds exactly within the size limit
and is then undone; the outer format alone is undone for keys of the fixed
length and refused for every other one. -/
theorem transport_roundtrip {X : Externals} (hX : EncryptsCorrectly X) :
    (∀ (r : Record) (draw : EncryptionDraw) (key : Bytes 32),
      ∃ e, encrypt X r draw key = .ok e ∧
        ((∃ buf, e.toBytes = .ok buf) ↔
          4 + (136 + r.content.bytes.length + hpkeOverhead) + 88 ≤ 2048) ∧
        ∀ buf, e.toBytes = .ok buf →
          ∃ decoded, EncryptedRecord.fromBytes buf = .ok decoded ∧
            decoded.decrypt X key = .ok r) ∧
      (∀ (e : EncryptedRecord) (buf : List UInt8), e.encryptedDecryptionKey.length = 88 →
        e.toBytes = .ok buf → EncryptedRecord.fromBytes buf = .ok e) ∧
      ∀ (e : EncryptedRecord) (buf : List UInt8), e.encryptedDecryptionKey.length ≠ 88 →
        e.toBytes = .ok buf → ∃ text, EncryptedRecord.fromBytes buf = .error (.bail text) := by
  refine ⟨fun r draw key => ?_, fun e buf hkey => fromBytes_frame hkey,
    fun e buf hkey => fromBytes_bails_of_keyLength_ne hkey⟩
  obtain ⟨e, hencrypt, hdecrypt, hrecord, hkey⟩ := encrypt_spec hX r draw key
  refine ⟨e, hencrypt, ?_, fun buf hbuf => ⟨e, fromBytes_frame hkey hbuf, hdecrypt⟩⟩
  have hlength : e.frame.length =
      4 + (136 + r.content.bytes.length + hpkeOverhead) + 88 := by
    rw [frame_length, hrecord, hkey, toBytes_length]
    rfl
  simp only [toBytes_eq_ok_iff, hlength, exists_and_left, exists_eq', and_true, maxSize]

theorem transport_roundtrip_emptyContent :
    ∃ r e buf, Record.sign reference reference.gossipContent (zeroBytes 32) 7 emptyContent
        (zeroBytes 32) = .ok r ∧
      encrypt reference r zeroDraw (zeroBytes 32) = .ok e ∧ e.toBytes = .ok buf ∧
        ∃ decoded, EncryptedRecord.fromBytes buf = .ok decoded ∧
          decoded.decrypt reference (zeroBytes 32) = .ok r := by
  have h := (transport_roundtrip reference_encryptsCorrectly).1
  obtain ⟨r, hsign⟩ : ∃ r, Record.sign reference reference.gossipContent (zeroBytes 32) 7
      emptyContent (zeroBytes 32) = .ok r := ⟨_, rfl⟩
  have hcontent : r.content.bytes.length = 320 := by
    obtain ⟨content, hcontent, rfl⟩ := sign_eq_ok_iff.mp hsign
    obtain rfl := Except.ok.inj hcontent
    change (flatten emptyContent.activePeers ++ flatten emptyContent.lastMessageHashes).length = _
    rw [List.length_append, flatten_length, flatten_length]
    decide
  obtain ⟨e, hencrypt, hsize, hdecode⟩ := h r zeroDraw (zeroBytes 32)
  obtain ⟨buf, hbuf⟩ := hsize.mpr (by rw [hcontent]; decide)
  exact ⟨r, e, buf, hsign, hencrypt, hbuf, hdecode buf hbuf⟩

/-- A correctly framed buffer whose record part is within the size limit while
the whole buffer is not. -/
def OverlongFrame (buf : List UInt8) : Prop :=
  buf.length = 4 + announcedLength buf + encryptedKeyLength ∧
    announcedLength buf ≤ maxSize ∧ maxSize < buf.length

theorem exists_fromBytes_of_announcedLength {buf : List UInt8}
    (hframe : buf.length = 4 + announcedLength buf + encryptedKeyLength)
    (hmax : announcedLength buf ≤ maxSize) :
    ∃ e, EncryptedRecord.fromBytes buf = .ok e := by
  have hlength : (buf.take 4).length = 4 := by
    rw [List.length_take]
    omega
  have hvalue : (u32FromLeBytes ⟨buf.take 4, hlength⟩).toNat = announcedLength buf :=
    UInt32.toNat_ofNat_of_lt' (hmax.trans_lt (by decide))
  rw [← List.take_append_drop 4 buf]
  refine ⟨_, (fromBytes_append_eq_ok_iff ⟨buf.take 4, hlength⟩ (buf.drop 4) _).mpr
    ⟨hvalue ▸ hmax, ?_, rfl⟩⟩
  rw [hvalue, List.length_drop]
  omega

/-- Whatever the decoder accepts is re-encoded byte for byte exactly on the
buffers that are not overlong frames. -/
theorem reencode_iff_not_overlongFrame (buf : List UInt8) :
    (∀ e, EncryptedRecord.fromBytes buf = .ok e → e.toBytes = .ok buf) ↔
      ¬ OverlongFrame buf := by
  constructor
  · rintro h ⟨hframe, hmax, hlong⟩
    obtain ⟨e, he⟩ := exists_fromBytes_of_announcedLength hframe hmax
    have hshort := (toBytes_of_fromBytes_iff he).mp (h e he)
    omega
  · intro h e he
    rw [toBytes_of_fromBytes_iff he]
    obtain ⟨rfl, hrecord, hkey⟩ := fromBytes_eq_ok_iff.mp he
    by_contra hlong
    refine h ⟨?_, ?_, not_le.mp hlong⟩
    · rw [announcedLength_frame hrecord, frame_length, hkey]
    · rwa [announcedLength_frame hrecord]

/-- A frame announcing 1957 record bytes: one byte more than the encoder allows. -/
def overlongBuffer : List UInt8 :=
  [0xA5, 0x07, 0, 0] ++ (List.replicate 1957 0 ++ List.replicate 88 0)

theorem overlongBuffer_not_reencoded :
    ∃ e, EncryptedRecord.fromBytes overlongBuffer = .ok e ∧
      e.toBytes ≠ .ok overlongBuffer := by
  have hprefix : (u32ToLeBytes (UInt32.ofNat 1957)).toList = [0xA5, 0x07, 0, 0] := by decide
  have hdecode : EncryptedRecord.fromBytes overlongBuffer =
      .ok ⟨List.replicate 1957 0, List.replicate 88 0⟩ := by
    rw [fromBytes_eq_ok_iff]
    simp only [frame, List.length_replicate, hprefix, overlongBuffer, maxSize,
      encryptedKeyLength]
    decide
  refine ⟨_, hdecode, fun h => ?_⟩
  have hlength := (toBytes_of_fromBytes_iff hdecode).mp h
  simp only [overlongBuffer, List.length_append, List.length_replicate, maxSize] at hlength
  exact absurd hlength (by decide)

end TopicTracker.EncryptedRecordCodec
