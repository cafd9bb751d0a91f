import TopicTracker.RecordPublishing

namespace TopicTracker.RetrievalOrder

open TopicTracker.RustValues
open TopicTracker.ThirdParty
open TopicTracker.ReferenceExternals
  (reference reference_signsCorrectly reference_encryptsCorrectly)
open TopicTracker.RecordCodec
open TopicTracker.EncryptedRecordCodec
open TopicTracker.KeyedMaximum
open TopicTracker.RecordRetrieval
open TopicTracker.RecordPublishing

variable {X : Externals}

/-- No two valid items of one publisher share its greatest sequence number and
carry different records. -/
def NoConflictingTies (self : RecordPublisher X) (unixMinute : UInt64)
    (items : List MutableItem) : Prop :=
  ∀ item ∈ items, ∀ item' ∈ items, ∀ record record',
    self.Valid unixMinute item record → self.Valid unixMinute item' record' →
    record.pubKey = record'.pubKey → item.seq = item'.seq →
    (∀ other ∈ items, ∀ otherRecord, self.Valid unixMinute other otherRecord →
      otherRecord.pubKey = record.pubKey → other.seq ≤ item.seq) →
    record = record'

theorem noConflictingTies_iff_untied (self : RecordPublisher X) (unixMinute : UInt64)
    (items : List MutableItem) :
    NoConflictingTies self unixMinute items ↔
      Untied entryKey Prod.fst Prod.snd (items.filterMap (contribution self unixMinute)) := by
  simp only [NoConflictingTies, Untied, List.mem_filterMap, contribution_eq_some_iff, entryKey]
  constructor
  · rintro h ⟨seq, record⟩ ⟨item, hitem, hvalid, rfl⟩ ⟨seq', record'⟩
      ⟨item', hitem', hvalid', rfl⟩ hkey hseq hmax
    apply h item hitem item' hitem' record record' hvalid hvalid' hkey hseq
    intro other hother otherRecord hotherValid hotherKey
    exact hmax (other.seq, otherRecord) ⟨other, hother, hotherValid, rfl⟩ hotherKey
  · intro h item hitem item' hitem' record record' hvalid hvalid' hkey hseq hmax
    refine h (item.seq, record) ⟨item, hitem, hvalid, rfl⟩ (item'.seq, record')
      ⟨item', hitem', hvalid', rfl⟩ hkey hseq ?_
    rintro ⟨seq, otherRecord⟩ ⟨other, hother, hotherValid, rfl⟩ hotherKey
    exact hmax other hother otherRecord hotherValid hotherKey

theorem mem_recordsOf_iff_mem_map {self : RecordPublisher X} {unixMinute : UInt64}
    {items : List MutableItem} {record : Record} :
    record ∈ recordsOf self unixMinute items ↔
      record ∈ (values (collect entryKey Prod.fst
        (items.filterMap (contribution self unixMinute)))).map Prod.snd := by
  rw [recordsOf, dedubRecords_eq_collect, List.mem_toFinset]

theorem image_pubKey_subset_of_perm {self : RecordPublisher X} {unixMinute : UInt64}
    {items items' : List MutableItem} (hperm : items'.Perm items) :
    (recordsOf self unixMinute items').image Record.pubKey ⊆
      (recordsOf self unixMinute items).image Record.pubKey := by
  intro key hkey
  obtain ⟨record, hrecord, rfl⟩ := Finset.mem_image.mp hkey
  obtain ⟨item, hitem, hvalid⟩ := (mem_recordsOf_iff.mp hrecord).valid
  obtain ⟨r, hr, hrkey⟩ := exists_mem_recordsOf (hperm.mem_iff.mp hitem) hvalid
  exact Finset.mem_image.mpr ⟨r, hr, hrkey⟩

/-- Every order of the answers yields the same publishers, and it yields the same
records for every order exactly when no publisher has conflicting items tied at
its greatest sequence number. -/
theorem getRecords_perm_iff (self : RecordPublisher X) (unixMinute : UInt64)
    (items : List MutableItem) :
    (∀ items', items'.Perm items → ∃ records records',
        self.getRecords unixMinute (.ready (.ok items)) = .ok records ∧
        self.getRecords unixMinute (.ready (.ok items')) = .ok records' ∧
          records'.image Record.pubKey = records.image Record.pubKey) ∧
      ((∀ items', items'.Perm items →
          self.getRecords unixMinute (.ready (.ok items')) =
            self.getRecords unixMinute (.ready (.ok items))) ↔
        NoConflictingTies self unixMinute items) := by
  constructor
  · intro items' hperm
    exact ⟨_, _, rfl, rfl, (image_pubKey_subset_of_perm hperm).antisymm
      (image_pubKey_subset_of_perm hperm.symm)⟩
  · have hkey : ∀ entry : Int × Record, Record.pubKey (Prod.snd entry) = entryKey entry :=
      fun _ => rfl
    rw [noConflictingTies_iff_untied, ← forall_perm_map_values_iff hkey]
    simp only [← mem_recordsOf_iff_mem_map, getRecords_ready_ok, Except.ok.injEq,
      Finset.ext_iff]

/-- Two records that one node publishes in one minute: the empty one of its
bootstrap and one with content. -/
def tiedRecord (content : List UInt8) : Record :=
  Record.signContent reference (zeroBytes 32) 7 ⟨content⟩ (samplePublisher 1 {}).signingKey

theorem getRecords_depends_on_order :
    ∃ put put',
      publishRecord (samplePublisher 1 {}) (tiedRecord []) (.ready (.ok [])) zeroDraw =
        .ok (some put) ∧
      publishRecord (samplePublisher 1 {}) (tiedRecord [5]) (.ready (.ok [])) zeroDraw =
        .ok (some put') ∧
      (samplePublisher 2 {}).getRecords 7 (.ready (.ok [put'.item, put.item])) ≠
        (samplePublisher 2 {}).getRecords 7 (.ready (.ok [put.item, put'.item])) := by
  have hpublish : ∀ content : List UInt8, content.length ≤ 1764 → ∃ put,
      publishRecord (samplePublisher 1 {}) (tiedRecord content) (.ready (.ok [])) zeroDraw =
        .ok (some put) ∧
      put.item.seq = nextSeqNum ∧
        (samplePublisher 2 {}).Valid 7 put.item (tiedRecord content) := by
    intro content hsize
    have hempty : countedRecords (samplePublisher 1 {}) (tiedRecord content).unixMinute none
        (.ready (.ok [])) = .ok ∅ := rfl
    obtain ⟨put, hput⟩ :=
      exists_publish reference_encryptsCorrectly zeroDraw hempty (by decide) hsize
    obtain ⟨-, -, -, -, -, -, -, hseq⟩ := publish_eq_some_iff.mp hput
    have hshares : SharesSlots (samplePublisher 1 {}) (samplePublisher 2 {}) := ⟨rfl, rfl, rfl⟩
    have hne : (samplePublisher 1 {}).pubKey ≠ (samplePublisher 2 {}).pubKey := by decide
    exact ⟨put, hput, hseq, (valid_of_publish reference_signsCorrectly
      reference_encryptsCorrectly hshares hne ⟨_, rfl⟩ hput).1⟩
  obtain ⟨put, hput, hseq, hvalid⟩ := hpublish [] (by decide)
  obtain ⟨put', hput', hseq', hvalid'⟩ := hpublish [5] (by decide)
  refine ⟨put, put', hput, hput', fun heq => ?_⟩
  rw [getRecords_ready_ok, getRecords_ready_ok, Except.ok.injEq] at heq
  have hfirst : tiedRecord [] ∈ recordsOf (samplePublisher 2 {}) 7 [put.item, put'.item] := by
    refine mem_recordsOf_iff.mpr ⟨[], put.item, [put'.item], rfl, hvalid, by simp, ?_⟩
    intro other hother _ _ _
    rw [List.mem_singleton.mp hother, hseq, hseq']
  have hsecond : tiedRecord [5] ∈ recordsOf (samplePublisher 2 {}) 7 [put'.item, put.item] := by
    refine mem_recordsOf_iff.mpr ⟨[], put'.item, [put.item], rfl, hvalid', by simp, ?_⟩
    intro other hother _ _ _
    rw [List.mem_singleton.mp hother, hseq, hseq']
  rw [heq] at hsecond
  have hsame := eq_of_mem_recordsOf hfirst hsecond rfl
  exact absurd (congrArg (fun r => r.content.bytes) hsame) (by decide)

end TopicTracker.RetrievalOrder
