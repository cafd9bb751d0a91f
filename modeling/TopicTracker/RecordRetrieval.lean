import TopicTracker.Configuration
import TopicTracker.EncryptedRecordCodec
import TopicTracker.KeyedMaximum
import TopicTracker.TopicKeys

namespace TopicTracker.RecordRetrieval

open TopicTracker.Configuration
open TopicTracker.RustValues
open TopicTracker.ThirdParty
open TopicTracker.ReferenceExternals (reference)
open TopicTracker.TopicKeys
open TopicTracker.RecordCodec
open TopicTracker.EncryptedRecordCodec
open TopicTracker.KeyedMaximum

/-- A publisher; its public key is always the one of its signing key. -/
structure RecordPublisher (X : Externals) where
  config : Config
  topicId : TopicId
  pubKey : Bytes 32
  signingKey : Bytes 32
  secretRotation : Option (SecretRotation (Bytes 32))
  initialSecretHash : Bytes 32
  pubKey_eq : pubKey = X.verifyingKey signingKey

/-- A mutable DHT item, as far as the crate reads it. -/
structure MutableItem where
  seq : Int
  value : List UInt8
deriving DecidableEq

/-- The public key and salt under which the DHT stores a mutable item. -/
structure SlotAddress where
  publicKey : Bytes 32
  salt : Bytes 32
deriving DecidableEq

namespace RecordPublisher

variable {X : Externals}

/-- `RecordPublisher::new`. -/
def new (X : Externals) (topicId : TopicId) (signingKey : Bytes 32)
    (secretRotation : Option (SecretRotation (Bytes 32))) (initialSecret : List UInt8)
    (config : Config) : RecordPublisher X where
  config := config
  topicId := topicId
  pubKey := X.verifyingKey signingKey
  signingKey := signingKey
  secretRotation := secretRotation
  initialSecretHash := X.sha512 initialSecret
  pubKey_eq := rfl

def maxBootstrapRecords (self : RecordPublisher X) : Nat :=
  self.config.bootstrapConfig.maxBootstrapRecords

/-- The secret rotation in use: `secret_rotation.unwrap_or_default()`. -/
def rotation (self : RecordPublisher X) : SecretRotation (Bytes 32) :=
  self.secretRotation.getD (defaultSecretRotation X.sha512)

def encryptionKey (self : RecordPublisher X) (unixMinute : UInt64) : Bytes 32 :=
  encryptionKeypair self.topicId self.rotation self.initialSecretHash unixMinute

def slotAddress (self : RecordPublisher X) (unixMinute : UInt64) : SlotAddress where
  publicKey := X.verifyingKey (signingKeypair X.sha512 self.topicId unixMinute)
  salt := salt X.sha512 self.topicId unixMinute

/-- The record an item carries if it passes the four checks of the loop in
`get_records`. -/
def verifiedRecord (self : RecordPublisher X) (unixMinute : UInt64) (item : MutableItem) :
    Option Record :=
  match EncryptedRecord.fromBytes item.value with
  | .error _ => none
  | .ok encryptedRecord =>
      match encryptedRecord.decrypt X (self.encryptionKey unixMinute) with
      | .error _ => none
      | .ok record =>
          match record.verify X self.topicId.hash unixMinute with
          | .error _ => none
          | .ok () => if record.pubKey = self.pubKey then none else some record

end RecordPublisher

abbrev DedubedRecords := AList fun _ : Bytes 32 => Int × Record

def insertRecord (dedubedRecords : DedubedRecords) (seq : Int) (record : Record) :
    DedubedRecords :=
  match dedubedRecords.lookup record.pubKey with
  | some (kept, _) =>
      if kept ≥ seq then dedubedRecords
      else dedubedRecords.insert record.pubKey (seq, record)
  | none => dedubedRecords.insert record.pubKey (seq, record)

namespace RecordPublisher

variable {X : Externals}

def dedubRecords (self : RecordPublisher X) (unixMinute : UInt64) (items : List MutableItem) :
    DedubedRecords :=
  items.foldl (fun dedubedRecords item =>
    match self.verifiedRecord unixMinute item with
    | some record => insertRecord dedubedRecords item.seq record
    | none => dedubedRecords) ∅

/-- `get_records`, given how the DHT get under `slotAddress` ends. -/
def getRecords (self : RecordPublisher X) (unixMinute : UInt64) :
    Awaited (List MutableItem) → Result (Finset Record)
  | .cancelled => .error (.bail "get_records cancelled")
  | .ready answer => do
      let items ← answer
      .ok ((values (self.dedubRecords unixMinute items)).map Prod.snd).toFinset

/-- An item is valid when it parses, decrypts, verifies for the requested topic
and minute, and was not published under the caller's own key. -/
def Valid (self : RecordPublisher X) (unixMinute : UInt64) (item : MutableItem)
    (record : Record) : Prop :=
  ∃ encryptedRecord, EncryptedRecord.fromBytes item.value = .ok encryptedRecord ∧
    encryptedRecord.decrypt X (self.encryptionKey unixMinute) = .ok record ∧
      record.verify X self.topicId.hash unixMinute = .ok () ∧ record.pubKey ≠ self.pubKey

end RecordPublisher

open RecordPublisher

variable {X : Externals} {self : RecordPublisher X} {unixMinute : UInt64}

theorem isEndpointId_pubKey (hendpoints : HonestEndpoints X) (self : RecordPublisher X) :
    X.isEndpointId self.pubKey = true := by
  rw [self.pubKey_eq]
  exact hendpoints self.signingKey

theorem verifiedRecord_eq_some_iff {item : MutableItem} {record : Record} :
    self.verifiedRecord unixMinute item = some record ↔ self.Valid unixMinute item record := by
  constructor
  · intro h
    unfold verifiedRecord at h
    split at h
    · cases h
    · next encryptedRecord hparse =>
        split at h
        · cases h
        · next decrypted hdecrypt =>
            split at h
            · cases h
            · next hverify =>
                split at h
                · cases h
                · next hown =>
                    obtain rfl := Option.some.inj h
                    exact ⟨encryptedRecord, hparse, hdecrypt, hverify, hown⟩
  · rintro ⟨encryptedRecord, hparse, hdecrypt, hverify, hown⟩
    simp [verifiedRecord, hparse, hdecrypt, hverify, hown]

def contribution (self : RecordPublisher X) (unixMinute : UInt64) (item : MutableItem) :
    Option (Int × Record) :=
  (self.verifiedRecord unixMinute item).map fun record => (item.seq, record)

theorem contribution_eq_some_iff {item : MutableItem} {entry : Int × Record} :
    contribution self unixMinute item = some entry ↔
      self.Valid unixMinute item entry.2 ∧ item.seq = entry.1 := by
  rw [contribution, Option.map_eq_some_iff]
  constructor
  · rintro ⟨record, hrecord, rfl⟩
    exact ⟨verifiedRecord_eq_some_iff.mp hrecord, rfl⟩
  · rintro ⟨hvalid, hseq⟩
    exact ⟨entry.2, verifiedRecord_eq_some_iff.mpr hvalid, by rw [hseq]⟩

def entryKey (entry : Int × Record) : Bytes 32 := entry.2.pubKey

theorem insertRecord_eq_keepGreater (dedubedRecords : DedubedRecords) (seq : Int)
    (record : Record) :
    insertRecord dedubedRecords seq record =
      keepGreater entryKey Prod.fst dedubedRecords (seq, record) := by
  unfold insertRecord keepGreater entryKey
  cases dedubedRecords.lookup record.pubKey with
  | none => rfl
  | some kept => rfl

/-- The loop is the library's fold over the contributions of the valid items. -/
theorem dedubRecords_eq_collect (self : RecordPublisher X) (unixMinute : UInt64)
    (items : List MutableItem) :
    self.dedubRecords unixMinute items =
      collect entryKey Prod.fst (items.filterMap (contribution self unixMinute)) := by
  rw [collect, List.foldl_filterMap, dedubRecords]
  congr 1
  funext dedubedRecords item
  unfold contribution
  cases self.verifiedRecord unixMinute item with
  | none => rfl
  | some record => exact insertRecord_eq_keepGreater dedubedRecords item.seq record

/-- What `get_records` returns on a complete answer. -/
def recordsOf (self : RecordPublisher X) (unixMinute : UInt64) (items : List MutableItem) :
    Finset Record :=
  ((values (self.dedubRecords unixMinute items)).map Prod.snd).toFinset

@[simp] theorem getRecords_ready_ok (items : List MutableItem) :
    self.getRecords unixMinute (.ready (.ok items)) = .ok (recordsOf self unixMinute items) :=
  rfl

theorem getRecords_eq_ok_iff {answer : Awaited (List MutableItem)} {records : Finset Record} :
    self.getRecords unixMinute answer = .ok records ↔
      ∃ items, answer = .ready (.ok items) ∧ recordsOf self unixMinute items = records := by
  cases answer with
  | cancelled => simp [getRecords]
  | ready result =>
      cases result with
      | error e => simp [getRecords]
      | ok items => simp

/-- The item at this position is valid and has the greatest sequence number of
its publisher, for the first time in the list. -/
def Selected (self : RecordPublisher X) (unixMinute : UInt64) (items : List MutableItem)
    (record : Record) : Prop :=
  ∃ before item after, items = before ++ item :: after ∧
    self.Valid unixMinute item record ∧
    (∀ other ∈ before, ∀ otherRecord, self.Valid unixMinute other otherRecord →
      otherRecord.pubKey = record.pubKey → other.seq < item.seq) ∧
    ∀ other ∈ after, ∀ otherRecord, self.Valid unixMinute other otherRecord →
      otherRecord.pubKey = record.pubKey → other.seq ≤ item.seq

theorem mem_recordsOf_iff {items : List MutableItem} {record : Record} :
    record ∈ recordsOf self unixMinute items ↔ Selected self unixMinute items record := by
  have hmem : record ∈ recordsOf self unixMinute items ↔
      ∃ seq, FirstMaximum Prod.fst
        (items.filterMap fun item => (contribution self unixMinute item).filter
          fun entry => entryKey entry = record.pubKey) (seq, record) := by
    rw [recordsOf, dedubRecords_eq_collect, List.mem_toFinset, List.mem_map]
    simp only [mem_values_collect_iff, List.filter_filterMap]
    constructor
    · rintro ⟨entry, hentry, rfl⟩
      exact ⟨entry.1, hentry⟩
    · rintro ⟨seq, hentry⟩
      exact ⟨(seq, record), hentry, rfl⟩
  rw [hmem]
  simp only [firstMaximum_filterMap_iff, Option.filter_eq_some_iff, contribution_eq_some_iff,
    entryKey, decide_eq_true_eq, Selected]
  constructor
  · rintro ⟨seq, before, item, after, rfl, ⟨⟨hvalid, rfl⟩, -⟩, hbefore, hafter⟩
    refine ⟨before, item, after, rfl, hvalid, ?_, ?_⟩
    · intro other hother otherRecord hotherValid hkey
      exact hbefore other hother (other.seq, otherRecord)
        ⟨⟨hotherValid, rfl⟩, decide_eq_true hkey⟩
    · intro other hother otherRecord hotherValid hkey
      exact hafter other hother (other.seq, otherRecord)
        ⟨⟨hotherValid, rfl⟩, decide_eq_true hkey⟩
  · rintro ⟨before, item, after, rfl, hvalid, hbefore, hafter⟩
    refine ⟨item.seq, before, item, after, rfl, ⟨⟨hvalid, rfl⟩, trivial⟩, ?_, ?_⟩
    · rintro other hother ⟨seq, otherRecord⟩ ⟨⟨hotherValid, rfl⟩, hkey⟩
      exact hbefore other hother otherRecord hotherValid (of_decide_eq_true hkey)
    · rintro other hother ⟨seq, otherRecord⟩ ⟨⟨hotherValid, rfl⟩, hkey⟩
      exact hafter other hother otherRecord hotherValid (of_decide_eq_true hkey)

theorem eq_of_mem_recordsOf {items : List MutableItem} {r r' : Record}
    (hr : r ∈ recordsOf self unixMinute items) (hr' : r' ∈ recordsOf self unixMinute items)
    (hkey : r.pubKey = r'.pubKey) : r = r' := by
  rw [recordsOf, dedubRecords_eq_collect, List.mem_toFinset, List.mem_map] at hr hr'
  rcases hr with ⟨entry, hentry, rfl⟩
  rcases hr' with ⟨entry', hentry', rfl⟩
  rw [eq_of_mem_values_collect hentry hentry' hkey]

theorem Selected.valid {items : List MutableItem} {record : Record}
    (h : Selected self unixMinute items record) :
    ∃ item ∈ items, self.Valid unixMinute item record := by
  rcases h with ⟨before, item, after, rfl, hvalid, -, -⟩
  exact ⟨item, by simp, hvalid⟩

theorem exists_mem_recordsOf {items : List MutableItem} {item : MutableItem} {record : Record}
    (hitem : item ∈ items) (hvalid : self.Valid unixMinute item record) :
    ∃ r ∈ recordsOf self unixMinute items, r.pubKey = record.pubKey := by
  have hentry : (item.seq, record) ∈ items.filterMap (contribution self unixMinute) :=
    List.mem_filterMap.mpr ⟨item, hitem, contribution_eq_some_iff.mpr ⟨hvalid, rfl⟩⟩
  obtain ⟨entry, hmem, hkey⟩ := exists_mem_values_collect entryKey Prod.fst hentry
  refine ⟨entry.2, ?_, hkey⟩
  rw [recordsOf, dedubRecords_eq_collect, List.mem_toFinset]
  exact List.mem_map.mpr ⟨entry, hmem, rfl⟩

theorem recordsOf_eq_of_valid_items_eq {items items' : List MutableItem}
    (h : (items'.filter fun item => (self.verifiedRecord unixMinute item).isSome) =
      items.filter fun item => (self.verifiedRecord unixMinute item).isSome) :
    recordsOf self unixMinute items' = recordsOf self unixMinute items := by
  have hfilter : ∀ l : List MutableItem, l.filterMap (contribution self unixMinute) =
      (l.filter fun item => (self.verifiedRecord unixMinute item).isSome).filterMap
        (contribution self unixMinute) := by
    intro l
    rw [List.filterMap_filter]
    congr 1
    funext item
    unfold contribution
    cases self.verifiedRecord unixMinute item <;> rfl
  rw [recordsOf, recordsOf, dedubRecords_eq_collect, dedubRecords_eq_collect,
    hfilter items', h, ← hfilter items]

/-- `get_records` on every DHT answer: one record for each publisher with a valid
item, taken from the first of its valid items of greatest sequence number, and
nothing that depends on the invalid items. -/
theorem getRecords_eq_specification (self : RecordPublisher X) (unixMinute : UInt64)
    (items : List MutableItem) :
    ∃ records, self.getRecords unixMinute (.ready (.ok items)) = .ok records ∧
      (∀ key, (∃! record, record ∈ records ∧ record.pubKey = key) ↔
        ∃ item ∈ items, ∃ record, self.Valid unixMinute item record ∧ record.pubKey = key) ∧
      (∀ record, record ∈ records ↔ Selected self unixMinute items record) ∧
      (∀ record ∈ records, record.verify X self.topicId.hash unixMinute = .ok () ∧
        record.pubKey ≠ self.pubKey) ∧
      ∀ items', (items'.filter fun item => (self.verifiedRecord unixMinute item).isSome) =
          (items.filter fun item => (self.verifiedRecord unixMinute item).isSome) →
        self.getRecords unixMinute (.ready (.ok items')) = .ok records := by
  refine ⟨recordsOf self unixMinute items, rfl, ?_, fun record => mem_recordsOf_iff, ?_, ?_⟩
  · intro key
    constructor
    · rintro ⟨record, ⟨hrecord, rfl⟩, -⟩
      obtain ⟨item, hitem, hvalid⟩ := (mem_recordsOf_iff.mp hrecord).valid
      exact ⟨item, hitem, record, hvalid, rfl⟩
    · rintro ⟨item, hitem, record, hvalid, rfl⟩
      obtain ⟨r, hr, hkey⟩ := exists_mem_recordsOf hitem hvalid
      exact ⟨r, ⟨hr, hkey⟩, fun r' ⟨hr', hkey'⟩ =>
        eq_of_mem_recordsOf hr' hr (hkey'.trans hkey.symm)⟩
  · intro record hrecord
    obtain ⟨item, -, encryptedRecord, -, -, hverify, hown⟩ := (mem_recordsOf_iff.mp hrecord).valid
    exact ⟨hverify, hown⟩
  · intro items' hitems
    rw [getRecords_ready_ok, recordsOf_eq_of_valid_items_eq hitems]

def samplePublisher (seed : UInt8) (config : Config) : RecordPublisher reference :=
  RecordPublisher.new reference ⟨zeroBytes 32⟩ (List.Vector.replicate 32 seed) none [] config

end TopicTracker.RecordRetrieval
