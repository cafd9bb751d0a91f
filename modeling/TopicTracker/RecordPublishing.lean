import TopicTracker.RecordRetrieval

namespace TopicTracker.RecordPublishing

open TopicTracker.Configuration
open TopicTracker.RustValues
open TopicTracker.ThirdParty
open TopicTracker.ReferenceExternals (reference reference_signsCorrectly
  reference_encryptsCorrectly)
open TopicTracker.TopicKeys
open TopicTracker.RecordCodec
open TopicTracker.EncryptedRecordCodec
open TopicTracker.RecordRetrieval

/-- One `Dht::put_mutable` request. -/
structure DhtPut where
  address : SlotAddress
  item : MutableItem
deriving DecidableEq

/-- `i64::MAX`, the sequence number of every published record. -/
def nextSeqNum : Int := 2 ^ 63 - 1

variable {X : Externals}

/-- The records a publish counts: the cached ones, or those of its own read. -/
def countedRecords (self : RecordPublisher X) (unixMinute : UInt64)
    (cachedRecords : Option (Finset Record)) (answer : Awaited (List MutableItem)) :
    Result (Finset Record) :=
  match cachedRecords with
  | some records => .ok records
  | none => self.getRecords unixMinute answer

/-- The put a publish asks for once it knows the records of the slot. -/
def requestPut (self : RecordPublisher X) (record : Record) (draw : EncryptionDraw)
    (records : Finset Record) : Result (Option DhtPut) := do
  if records.card ≥ self.maxBootstrapRecords then
    .ok none
  else
    let encryptedRecord ← encrypt X record draw (self.encryptionKey record.unixMinute)
    let data ← encryptedRecord.toBytes
    .ok (some ⟨self.slotAddress record.unixMinute, ⟨nextSeqNum, data⟩⟩)

def publishRecordCachedRecords (self : RecordPublisher X) (record : Record)
    (cachedRecords : Option (Finset Record)) (answer : Awaited (List MutableItem))
    (draw : EncryptionDraw) : Result (Option DhtPut) :=
  countedRecords self record.unixMinute cachedRecords answer >>= requestPut self record draw

def publishRecord (self : RecordPublisher X) (record : Record)
    (answer : Awaited (List MutableItem)) (draw : EncryptionDraw) : Result (Option DhtPut) :=
  publishRecordCachedRecords self record none answer draw

inductive PublishStage
  | reading
  | putting (put : DhtPut)
  | finished
deriving DecidableEq

structure PublishTask where
  record : Record
  cachedRecords : Option (Finset Record)
  stage : PublishStage := .reading
deriving DecidableEq

/-- How the next await of a publish ends: the read, the put taking effect, or
the call ending without it. -/
inductive PublishInput
  | read (answer : Awaited (List MutableItem)) (draw : EncryptionDraw)
  | stored
  | abandoned

namespace PublishTask

def stageAfterCheck : Result (Option DhtPut) → PublishStage
  | .ok (some put) => .putting put
  | _ => .finished

def step (self : RecordPublisher X) (task : PublishTask) (input : PublishInput) :
    Option PublishTask :=
  match task.stage, input with
  | .reading, .read answer draw =>
      some { task with
        stage := stageAfterCheck (publishRecordCachedRecords self task.record task.cachedRecords
          answer draw) }
  | .putting _, .stored => some { task with stage := .finished }
  | .reading, .abandoned => some { task with stage := .finished }
  | .putting _, .abandoned => some { task with stage := .finished }
  | _, _ => none

def storedPut (task : PublishTask) : PublishInput → Option DhtPut
  | .stored =>
      match task.stage with
      | .putting put => some put
      | _ => none
  | _ => none

end PublishTask

variable {self : RecordPublisher X}

theorem requestPut_eq_some_iff {record : Record} {draw : EncryptionDraw}
    {records : Finset Record} {put : DhtPut} :
    requestPut self record draw records = .ok (some put) ↔
      records.card < self.maxBootstrapRecords ∧ ∃ encryptedRecord,
        encrypt X record draw (self.encryptionKey record.unixMinute) = .ok encryptedRecord ∧
        encryptedRecord.toBytes = .ok put.item.value ∧
        put.address = self.slotAddress record.unixMinute ∧ put.item.seq = nextSeqNum := by
  unfold requestPut
  split
  · next hfull => simp [not_lt.mpr hfull]
  · next hfree =>
      simp only [bind_eq_ok, Except.ok.injEq, Option.some.injEq, not_le.mp hfree, true_and]
      constructor
      · rintro ⟨encryptedRecord, hencrypt, data, hdata, rfl⟩
        exact ⟨encryptedRecord, hencrypt, hdata, rfl, rfl⟩
      · rintro ⟨encryptedRecord, hencrypt, hdata, haddress, hseq⟩
        refine ⟨encryptedRecord, hencrypt, _, hdata, ?_⟩
        rw [← haddress, ← hseq]

theorem publish_eq_some_iff {record : Record} {cachedRecords : Option (Finset Record)}
    {answer : Awaited (List MutableItem)} {draw : EncryptionDraw} {put : DhtPut} :
    publishRecordCachedRecords self record cachedRecords answer draw = .ok (some put) ↔
      ∃ records, countedRecords self record.unixMinute cachedRecords answer = .ok records ∧
        records.card < self.maxBootstrapRecords ∧ ∃ encryptedRecord,
        encrypt X record draw (self.encryptionKey record.unixMinute) = .ok encryptedRecord ∧
        encryptedRecord.toBytes = .ok put.item.value ∧
        put.address = self.slotAddress record.unixMinute ∧ put.item.seq = nextSeqNum := by
  rw [publishRecordCachedRecords, bind_eq_ok]
  simp only [requestPut_eq_some_iff]

theorem stageAfterCheck_eq_putting_iff {result : Result (Option DhtPut)} {put : DhtPut} :
    PublishTask.stageAfterCheck result = .putting put ↔ result = .ok (some put) := by
  match result with
  | .ok (some put') => simp [PublishTask.stageAfterCheck]
  | .ok none => simp [PublishTask.stageAfterCheck]
  | .error e => simp [PublishTask.stageAfterCheck]

theorem PublishTask.step_cases {task task' : PublishTask} {input : PublishInput}
    (h : task.step self input = some task') :
    (∃ answer draw, input = .read answer draw ∧ task.stage = .reading ∧
      task' = { task with
        stage := PublishTask.stageAfterCheck (publishRecordCachedRecords self task.record
          task.cachedRecords answer draw) }) ∨
    (∃ put, input = .stored ∧ task.stage = .putting put ∧
      task' = { task with stage := .finished }) ∨
    (input = .abandoned ∧ task' = { task with stage := .finished }) := by
  unfold PublishTask.step at h
  split at h
  · next answer draw hstage => exact .inl ⟨answer, draw, rfl, hstage, (Option.some.inj h).symm⟩
  · next put hstage => exact .inr (.inl ⟨put, rfl, hstage, (Option.some.inj h).symm⟩)
  · exact .inr (.inr ⟨rfl, (Option.some.inj h).symm⟩)
  · exact .inr (.inr ⟨rfl, (Option.some.inj h).symm⟩)
  · cases h

theorem PublishTask.storedPut_eq_some_iff {task : PublishTask} {input : PublishInput}
    {put : DhtPut} :
    task.storedPut input = some put ↔ input = .stored ∧ task.stage = .putting put := by
  unfold PublishTask.storedPut
  split
  · split
    · next hstage => simp [hstage]
    · next hstage => simpa using hstage put
  · next hinput => simp [show input ≠ .stored from hinput]

theorem PublishTask.step_keeps {task task' : PublishTask} {input : PublishInput}
    (h : task.step self input = some task') :
    task'.record = task.record ∧ task'.cachedRecords = task.cachedRecords := by
  rcases PublishTask.step_cases h with ⟨answer, draw, -, -, rfl⟩ | ⟨put, -, -, rfl⟩ | ⟨-, rfl⟩
  · exact ⟨rfl, rfl⟩
  · exact ⟨rfl, rfl⟩
  · exact ⟨rfl, rfl⟩

def PublishTask.Checked (self : RecordPublisher X) (task : PublishTask) : Prop :=
  ∀ put, task.stage = .putting put → ∃ answer draw,
    publishRecordCachedRecords self task.record task.cachedRecords answer draw = .ok (some put)

theorem PublishTask.checked_of_step {task task' : PublishTask} {input : PublishInput}
    (h : task.step self input = some task') : task'.Checked self := by
  intro put hstage
  rcases PublishTask.step_cases h with ⟨answer, draw, -, -, rfl⟩ | ⟨put', -, -, rfl⟩ | ⟨-, rfl⟩
  · exact ⟨answer, draw, stageAfterCheck_eq_putting_iff.mp hstage⟩
  · cases hstage
  · cases hstage

theorem exists_publish (hX : EncryptsCorrectly X) {record : Record}
    {cachedRecords : Option (Finset Record)} {answer : Awaited (List MutableItem)}
    {records : Finset Record} (draw : EncryptionDraw)
    (hcounted : countedRecords self record.unixMinute cachedRecords answer = .ok records)
    (hfree : records.card < self.maxBootstrapRecords)
    (hsize : record.content.bytes.length ≤ 1764) :
    ∃ put, publishRecordCachedRecords self record cachedRecords answer draw =
      .ok (some put) := by
  obtain ⟨e, hencrypt, -, hrecord, hkey⟩ :=
    encrypt_spec hX record draw (self.encryptionKey record.unixMinute)
  have hframe : e.frame.length ≤ EncryptedRecord.maxSize := by
    rw [frame_length, hrecord, hkey, toBytes_length]
    simp only [hpkeOverhead, EncryptedRecord.encryptedKeyLength, EncryptedRecord.maxSize]
    omega
  exact ⟨⟨self.slotAddress record.unixMinute, ⟨nextSeqNum, e.frame⟩⟩,
    publish_eq_some_iff.mpr ⟨records, hcounted, hfree, e, hencrypt,
      toBytes_eq_ok_iff.mpr ⟨hframe, rfl⟩, rfl, rfl⟩⟩

/-- Two publishers derive the same slots and encryption keys. -/
structure SharesSlots (a b : RecordPublisher X) : Prop where
  topicId : a.topicId = b.topicId
  rotation : a.rotation = b.rotation
  initialSecretHash : a.initialSecretHash = b.initialSecretHash

theorem SharesSlots.slotAddress {a b : RecordPublisher X} (h : SharesSlots a b)
    (unixMinute : UInt64) : a.slotAddress unixMinute = b.slotAddress unixMinute := by
  simp only [RecordPublisher.slotAddress, h.topicId]

theorem SharesSlots.encryptionKey {a b : RecordPublisher X} (h : SharesSlots a b)
    (unixMinute : UInt64) : a.encryptionKey unixMinute = b.encryptionKey unixMinute := by
  simp only [RecordPublisher.encryptionKey, h.topicId, h.rotation,
    h.initialSecretHash]

/-- A record that the publisher signed for the minute, as `new_record` does. -/
def OwnRecord (self : RecordPublisher X) (unixMinute : UInt64) (record : Record) : Prop :=
  ∃ content,
    record = Record.signContent X self.topicId.hash unixMinute content self.signingKey

theorem OwnRecord.pubKey_eq {unixMinute : UInt64} {record : Record}
    (h : OwnRecord self unixMinute record) : record.pubKey = self.pubKey := by
  rcases h with ⟨content, rfl⟩
  exact self.pubKey_eq.symm

theorem OwnRecord.unixMinute_eq {unixMinute : UInt64} {record : Record}
    (h : OwnRecord self unixMinute record) : record.unixMinute = unixMinute := by
  rcases h with ⟨content, rfl⟩
  rfl

/-- What one publisher puts for its own record is a valid item for every other
publisher of the same slots. -/
theorem valid_of_publish {a b : RecordPublisher X} (hsign : SignsCorrectly X)
    (hencrypts : EncryptsCorrectly X) (hshares : SharesSlots a b) (hne : a.pubKey ≠ b.pubKey)
    {unixMinute : UInt64} {record : Record} {cachedRecords : Option (Finset Record)}
    {answer : Awaited (List MutableItem)} {draw : EncryptionDraw} {put : DhtPut}
    (hown : OwnRecord a unixMinute record)
    (hput : publishRecordCachedRecords a record cachedRecords answer draw = .ok (some put)) :
    b.Valid unixMinute put.item record ∧ put.address = b.slotAddress unixMinute := by
  rcases hown with ⟨content, rfl⟩
  obtain ⟨-, -, -, encryptedRecord, hencrypt, hbytes, haddress, -⟩ :=
    publish_eq_some_iff.mp hput
  obtain ⟨hparse, hdecrypt⟩ := decrypt_fromBytes_of_encrypt hencrypts hencrypt hbytes
  refine ⟨⟨encryptedRecord, hparse, ?_, ?_, ?_⟩, ?_⟩
  · rw [← hshares.encryptionKey]
    exact hdecrypt
  · rw [signContent_verify_iff hsign, ← hshares.topicId]
    exact ⟨rfl, rfl⟩
  · change X.verifyingKey a.signingKey ≠ b.pubKey
    rwa [← a.pubKey_eq]
  · rw [haddress, hshares.slotAddress]
    rfl

/-- A record without content that a sample publisher signs for minute 7. -/
def bareRecord (seed : UInt8) : Record :=
  Record.signContent reference (zeroBytes 32) 7 ⟨[]⟩ (samplePublisher seed {}).signingKey

/-- The items of a slot into which a sample publisher has put its bare record. -/
def bareItems (seed : UInt8) : List MutableItem :=
  match publishRecordCachedRecords (samplePublisher seed {}) (bareRecord seed) (some ∅)
      .cancelled zeroDraw with
  | .ok (some put) => [put.item]
  | _ => []

theorem exists_mem_bareItems {seed seed' : UInt8} {config : Config}
    (hne : (samplePublisher seed {}).pubKey ≠ (samplePublisher seed' config).pubKey) :
    ∃ item ∈ bareItems seed, (samplePublisher seed' config).Valid 7 item (bareRecord seed) := by
  have hfree : (∅ : Finset Record).card < (samplePublisher seed {}).maxBootstrapRecords := by
    show 0 < 5
    decide
  obtain ⟨put, hput⟩ : ∃ put, publishRecordCachedRecords (samplePublisher seed {})
      (bareRecord seed) (some ∅) .cancelled zeroDraw = .ok (some put) :=
    exists_publish reference_encryptsCorrectly zeroDraw rfl hfree (Nat.zero_le _)
  have hshares : SharesSlots (samplePublisher seed {}) (samplePublisher seed' config) :=
    ⟨rfl, rfl, rfl⟩
  have hvalid := valid_of_publish reference_signsCorrectly reference_encryptsCorrectly hshares
    hne ⟨⟨[]⟩, rfl⟩ hput
  exact ⟨put.item, by simp [bareItems, hput], hvalid.1⟩

end TopicTracker.RecordPublishing
