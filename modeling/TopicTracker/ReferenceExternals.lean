import TopicTracker.ThirdParty

/-!
A transparent implementation of the third-party operations. It has no secrecy,
but it behaves as the real one does for honest callers, so every assumption made
about third-party code can be met.
-/

namespace TopicTracker.ReferenceExternals

open TopicTracker.RustValues
open TopicTracker.ThirdParty

/-- The last 32 bytes of a message padded with zeros on the left. -/
def digest (message : List UInt8) : Bytes 32 :=
  ⟨(message.reverse ++ List.replicate 32 0).take 32, by simp⟩

/-- The `index`-th 32-byte chunk of a buffer padded with zeros on the right. -/
def chunk (buf : List UInt8) (index : Nat) : Bytes 32 :=
  ⟨(buf.drop (32 * index) ++ List.replicate 32 0).take 32, by simp⟩

def flatten {n : Nat} (chunks : List.Vector (Bytes 32) n) : List UInt8 :=
  chunks.toList.flatMap List.Vector.toList

def gossipContent : Postcard GossipRecordContent where
  toAllocvec content :=
    .ok (flatten content.activePeers ++ flatten content.lastMessageHashes)
  fromBytes buf :=
    if buf.length = 32 * maxRecordPeers + 32 * maxMessageHashes then
      .ok { activePeers := List.Vector.ofFn fun i => chunk buf i.val
            lastMessageHashes := List.Vector.ofFn fun i => chunk buf (maxRecordPeers + i.val) }
    else .error (.bail "Hit the end of buffer, expected more data")

def sign (key : Bytes 32) (message : List UInt8) : Bytes 64 :=
  ⟨key.toList ++ (digest message).toList, by simp⟩

def hpkeEncrypt (key entropy : Bytes 32) (message : List UInt8) : List UInt8 :=
  key.toList ++ (entropy.toList.take 24 ++ message)

def hpkeDecrypt (key : Bytes 32) (sealed : List UInt8) : Result (List UInt8) :=
  if sealed.take 32 = key.toList then .ok (sealed.drop hpkeOverhead)
  else .error (.bail "decryption failed")

def reference : Externals where
  sha512 := digest
  verifyingKey := id
  sign := sign
  parseVerifyingKey _ := .ok ()
  verifyStrict key message signature :=
    if signature = sign key message then .ok ()
    else .error (.bail "signature error")
  hpkeEncrypt key entropy message := .ok (hpkeEncrypt key entropy message)
  hpkeDecrypt := hpkeDecrypt
  isEndpointId _ := true
  gossipContent := gossipContent

theorem reference_signsCorrectly : SignsCorrectly reference where
  parse_verifyingKey _ := rfl
  verifyStrict_sign _ _ := if_pos rfl

theorem hpkeDecrypt_hpkeEncrypt (key entropy : Bytes 32) (message : List UInt8) :
    hpkeDecrypt key (hpkeEncrypt key entropy message) = .ok message := by
  have hkey : (hpkeEncrypt key entropy message).take 32 = key.toList := by
    simp [hpkeEncrypt]
  have hmessage : (hpkeEncrypt key entropy message).drop hpkeOverhead = message := by
    rw [hpkeEncrypt, ← List.append_assoc]
    exact List.drop_left' (by simp [hpkeOverhead])
  rw [hpkeDecrypt, if_pos hkey, hmessage]

theorem reference_encryptsCorrectly : EncryptsCorrectly reference where
  decrypt_encrypt key entropy message := by
    refine ⟨hpkeEncrypt key entropy message, rfl, ?_, hpkeDecrypt_hpkeEncrypt key entropy message⟩
    simp [hpkeEncrypt, hpkeOverhead]
    omega

theorem reference_opensOnlyWithKey : OpensOnlyWithKey reference := by
  intro key key' entropy message sealed opened hencrypt hdecrypt
  obtain rfl := Except.ok.inj hencrypt
  change (if _ then _ else _) = _ at hdecrypt
  split at hdecrypt
  · next hkey =>
      apply List.Vector.toList_injective
      rw [← hkey]
      simp [hpkeEncrypt, reference]
  · cases hdecrypt

theorem reference_serializesContent : SerializesContent reference := fun _ => ⟨_, rfl⟩

theorem flatten_cons {n : Nat} (head : Bytes 32) (tail : List.Vector (Bytes 32) n) :
    flatten (head ::ᵥ tail) = head.toList ++ flatten tail := by
  simp [flatten]

theorem flatten_length {n : Nat} (chunks : List.Vector (Bytes 32) n) :
    (flatten chunks).length = 32 * n := by
  induction chunks using List.Vector.inductionOn with
  | nil => rfl
  | cons ih =>
      rw [flatten_cons, List.length_append, List.Vector.toList_length, ih]
      omega

theorem chunk_append_zero (head : Bytes 32) (rest : List UInt8) :
    chunk (head.toList ++ rest) 0 = head := by
  apply List.Vector.toList_injective
  change (head.toList ++ rest ++ List.replicate 32 0).take 32 = head.toList
  rw [List.append_assoc]
  exact List.take_left' head.toList_length

theorem chunk_append_succ (head : Bytes 32) (rest : List UInt8) (index : Nat) :
    chunk (head.toList ++ rest) (index + 1) = chunk rest index := by
  have hdrop : (head.toList ++ rest).drop (32 * (index + 1)) = rest.drop (32 * index) := by
    rw [Nat.mul_succ, Nat.add_comm, ← List.drop_drop]
    rw [List.drop_left' head.toList_length]
  apply List.Vector.toList_injective
  change ((head.toList ++ rest).drop (32 * (index + 1)) ++ List.replicate 32 0).take 32 = _
  rw [hdrop]
  rfl

theorem chunk_flatten_append {n : Nat} (chunks : List.Vector (Bytes 32) n) (rest : List UInt8)
    (i : Fin n) : chunk (flatten chunks ++ rest) i.val = chunks.get i := by
  induction chunks using List.Vector.inductionOn with
  | nil => exact i.elim0
  | cons ih =>
      rw [flatten_cons, List.append_assoc]
      cases i using Fin.cases with
      | zero => exact chunk_append_zero _ _
      | succ i => exact (chunk_append_succ _ _ _).trans (ih i)

theorem chunk_flatten_append_right {n : Nat} (chunks : List.Vector (Bytes 32) n)
    (rest : List UInt8) (index : Nat) :
    chunk (flatten chunks ++ rest) (n + index) = chunk rest index := by
  induction chunks using List.Vector.inductionOn with
  | nil => simp [flatten]
  | @cons n head tail ih =>
      rw [flatten_cons, List.append_assoc, Nat.succ_add, chunk_append_succ, ih]

theorem reference_encodesContentLosslessly : EncodesContentLosslessly reference := by
  intro content
  refine ⟨_, rfl, ?_⟩
  have hlength : (flatten content.activePeers ++ flatten content.lastMessageHashes).length =
      32 * maxRecordPeers + 32 * maxMessageHashes := by
    rw [List.length_append, flatten_length, flatten_length]
  have hpeers : (List.Vector.ofFn fun i : Fin maxRecordPeers =>
      chunk (flatten content.activePeers ++ flatten content.lastMessageHashes) i.val) =
        content.activePeers := by
    apply List.Vector.ext
    intro i
    rw [List.Vector.get_ofFn, chunk_flatten_append]
  have hhashes : (List.Vector.ofFn fun i : Fin maxMessageHashes =>
      chunk (flatten content.activePeers ++ flatten content.lastMessageHashes)
        (maxRecordPeers + i.val)) = content.lastMessageHashes := by
    apply List.Vector.ext
    intro i
    rw [List.Vector.get_ofFn, chunk_flatten_append_right]
    simpa using chunk_flatten_append content.lastMessageHashes [] i
  change (if _ = _ then _ else _) = _
  rw [if_pos hlength, hpeers, hhashes]

theorem reference_honestEndpoints : HonestEndpoints reference := fun _ => rfl

end TopicTracker.ReferenceExternals
