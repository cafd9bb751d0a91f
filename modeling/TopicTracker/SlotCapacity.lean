import TopicTracker.RecordPublishing
import TopicTracker.StepMachine

namespace TopicTracker.SlotCapacity

open TopicTracker.Configuration
open TopicTracker.RustValues
open TopicTracker.ThirdParty
open TopicTracker.ReferenceExternals
open TopicTracker.RecordCodec
open TopicTracker.EncryptedRecordCodec
open TopicTracker.RecordRetrieval
open TopicTracker.RecordPublishing
open TopicTracker.StepMachine

variable {X : Externals}

/-- A publisher of the given topic with the given `max_bootstrap_records`. -/
structure Participant (topic : RecordPublisher X) (cap : Nat) where
  publisher : RecordPublisher X
  shares : SharesSlots topic publisher
  maxBootstrapRecords_eq : publisher.maxBootstrapRecords = cap

structure Call (topic : RecordPublisher X) (cap : Nat) where
  participant : Participant topic cap
  task : PublishTask

structure StoredRecord where
  record : Record
  item : MutableItem
deriving DecidableEq

/-- The slot of one minute and the calls of `publish_record` for it. -/
structure Slot (topic : RecordPublisher X) (cap : Nat) where
  stored : List StoredRecord
  calls : List (Call topic cap)

inductive SlotLabel (topic : RecordPublisher X) (cap : Nat)
  | publishRecord (participant : Participant topic cap) (content : RecordContent)
  | step (id : Nat) (input : PublishInput)

/-- A get that succeeds returns every item of the slot. -/
def ReturnsStored (stored : List StoredRecord) : PublishInput → Prop
  | .read (.ready (.ok items)) _ => ∀ entry ∈ stored, entry.item ∈ items
  | _ => True

instance (stored : List StoredRecord) (input : PublishInput) :
    Decidable (ReturnsStored stored input) := by
  unfold ReturnsStored
  split <;> infer_instance

variable {topic : RecordPublisher X} {cap : Nat}

namespace Slot

def empty (topic : RecordPublisher X) (cap : Nat) : Slot topic cap := ⟨[], []⟩

/-- The slot after a step of one call, with the put that took effect in it. -/
def advance (s : Slot topic cap) (id : Nat) (call : Call topic cap) (task : PublishTask)
    (input : PublishInput) : Slot topic cap where
  stored := s.stored ++ (call.task.storedPut input).toList.map fun put =>
    ⟨call.task.record, put.item⟩
  calls := s.calls.set id { call with task := task }

def step (unixMinute : UInt64) (s : Slot topic cap) :
    SlotLabel topic cap → Option (Slot topic cap)
  | .publishRecord participant content =>
      let record := Record.signContent X participant.publisher.topicId.hash unixMinute content
        participant.publisher.signingKey
      some { s with calls := s.calls ++ [⟨participant, { record, cachedRecords := none }⟩] }
  | .step id input => do
      let call ← s.calls[id]?
      if ReturnsStored s.stored input then
        let task ← call.task.step call.participant.publisher input
        some (s.advance id call task input)
      else none

end Slot

def Call.putting (call : Call topic cap) : Bool :=
  match call.task.stage with
  | .putting _ => true
  | _ => false

def inFlight (s : Slot topic cap) : Nat := s.calls.countP Call.putting

def storedKeys (s : Slot topic cap) : Finset (Bytes 32) :=
  (s.stored.map fun entry => entry.record.pubKey).toFinset

def puttingKeys (s : Slot topic cap) : Finset (Bytes 32) :=
  ((s.calls.filter Call.putting).map fun call => call.task.record.pubKey).toFinset

variable {unixMinute : UInt64} {s t : Slot topic cap}

theorem card_puttingKeys_le (s : Slot topic cap) : (puttingKeys s).card ≤ inFlight s := by
  rw [inFlight, List.countP_eq_length_filter, ← List.length_map]
  exact List.toFinset_card_le _

theorem putting_eq_true_iff {call : Call topic cap} :
    call.putting = true ↔ ∃ put, call.task.stage = .putting put := by
  unfold Call.putting
  split
  · next put hstage => simp [hstage]
  · next hstage => simpa using hstage

structure Filled (unixMinute : UInt64) (s : Slot topic cap) : Prop where
  own : ∀ call ∈ s.calls, OwnRecord call.participant.publisher unixMinute call.task.record
  uncached : ∀ call ∈ s.calls, call.task.cachedRecords = none
  checked : ∀ call ∈ s.calls, call.task.Checked call.participant.publisher
  valid : ∀ entry ∈ s.stored, ∀ participant : Participant topic cap,
    entry.record.pubKey ≠ participant.publisher.pubKey →
      participant.publisher.Valid unixMinute entry.item entry.record
  positive : s.stored ≠ [] → 0 < cap

theorem Participant.sharesSlots (a b : Participant topic cap) :
    SharesSlots a.publisher b.publisher where
  topicId := a.shares.topicId.symm.trans b.shares.topicId
  rotation := a.shares.rotation.symm.trans b.shares.rotation
  initialSecretHash := a.shares.initialSecretHash.symm.trans b.shares.initialSecretHash

theorem step_publishRecord_eq_some {participant : Participant topic cap}
    {content : RecordContent}
    (h : s.step unixMinute (.publishRecord participant content) = some t) :
    ∃ record, OwnRecord participant.publisher unixMinute record ∧
      t = { s with calls := s.calls ++ [⟨participant, { record, cachedRecords := none }⟩] } :=
  ⟨_, ⟨content, rfl⟩, (Option.some.inj h).symm⟩

theorem exists_of_step_call {id : Nat} {input : PublishInput}
    (h : s.step unixMinute (.step id input) = some t) :
    ∃ call task, s.calls[id]? = some call ∧ ReturnsStored s.stored input ∧
      call.task.step call.participant.publisher input = some task ∧
      t = s.advance id call task input := by
  simp only [Slot.step, Option.bind_eq_bind, Option.bind_eq_some_iff] at h
  rcases h with ⟨call, hget, h⟩
  split at h
  · next hreturns =>
      simp only [Option.bind_eq_some_iff, Option.some.injEq] at h
      rcases h with ⟨task, htask, rfl⟩
      exact ⟨call, task, hget, hreturns, htask, rfl⟩
  · cases h

theorem card_lt_of_publishRecord {participant : Participant topic cap} {record : Record}
    {answer : Awaited (List MutableItem)} {draw : EncryptionDraw} {put : DhtPut}
    (h : publishRecord participant.publisher record answer draw = .ok (some put)) :
    ∃ items, answer = .ready (.ok items) ∧
      (recordsOf participant.publisher record.unixMinute items).card < cap := by
  obtain ⟨records, hcounted, hfree, -⟩ := publish_eq_some_iff.mp h
  obtain ⟨items, hanswer, rfl⟩ := getRecords_eq_ok_iff.mp hcounted
  rw [participant.maxBootstrapRecords_eq] at hfree
  exact ⟨items, hanswer, hfree⟩

theorem Filled.cap_pos_of_putting (h : Filled unixMinute s) {call : Call topic cap}
    (hcall : call ∈ s.calls) (hputting : call.putting = true) : 0 < cap := by
  obtain ⟨put, hstage⟩ := putting_eq_true_iff.mp hputting
  obtain ⟨answer, draw, hpublish⟩ := h.checked call hcall put hstage
  rw [h.uncached call hcall] at hpublish
  obtain ⟨items, -, hfree⟩ := card_lt_of_publishRecord hpublish
  exact Nat.zero_lt_of_lt hfree

theorem filled_of_publishRecord (h : Filled unixMinute s) {participant : Participant topic cap}
    {record : Record} (hown : OwnRecord participant.publisher unixMinute record) :
    Filled unixMinute
      { s with calls := s.calls ++ [⟨participant, { record, cachedRecords := none }⟩] } := by
  refine ⟨?_, ?_, ?_, h.valid, h.positive⟩
  · intro call hcall
    rcases List.mem_append.mp hcall with hcall | hcall
    · exact h.own call hcall
    · rw [List.mem_singleton.mp hcall]
      exact hown
  · intro call hcall
    rcases List.mem_append.mp hcall with hcall | hcall
    · exact h.uncached call hcall
    · rw [List.mem_singleton.mp hcall]
  · intro call hcall put hstage
    rcases List.mem_append.mp hcall with hcall | hcall
    · exact h.checked call hcall put hstage
    · rw [List.mem_singleton.mp hcall] at hstage
      cases hstage

theorem filled_of_call (hsign : SignsCorrectly X) (hencrypts : EncryptsCorrectly X)
    (h : Filled unixMinute s) {id : Nat} {input : PublishInput} {call : Call topic cap}
    {task : PublishTask} (hget : s.calls[id]? = some call)
    (htask : call.task.step call.participant.publisher input = some task) :
    Filled unixMinute (s.advance id call task input) := by
  have hcall : call ∈ s.calls := List.mem_of_getElem? hget
  obtain ⟨hrecord, hcached⟩ := PublishTask.step_keeps htask
  refine ⟨?_, ?_, ?_, ?_, ?_⟩
  · intro other hother
    rcases List.mem_or_eq_of_mem_set hother with hother | rfl
    · exact h.own other hother
    · rw [hrecord]
      exact h.own call hcall
  · intro other hother
    rcases List.mem_or_eq_of_mem_set hother with hother | rfl
    · exact h.uncached other hother
    · rw [hcached]
      exact h.uncached call hcall
  · intro other hother
    rcases List.mem_or_eq_of_mem_set hother with hother | rfl
    · exact h.checked other hother
    · exact PublishTask.checked_of_step htask
  · intro entry hentry participant hne
    rcases List.mem_append.mp hentry with hentry | hentry
    · exact h.valid entry hentry participant hne
    · obtain ⟨put, hput, rfl⟩ := List.mem_map.mp hentry
      obtain ⟨-, hstage⟩ := PublishTask.storedPut_eq_some_iff.mp (Option.mem_toList.mp hput)
      obtain ⟨answer, draw, hpublish⟩ := h.checked call hcall put hstage
      rw [(h.own call hcall).pubKey_eq] at hne
      exact (valid_of_publish hsign hencrypts (call.participant.sharesSlots participant) hne
        (h.own call hcall) hpublish).1
  · intro hstored
    cases hput : call.task.storedPut input with
    | none =>
        refine h.positive fun hnone => hstored ?_
        simp [Slot.advance, hnone, hput]
    | some put =>
        obtain ⟨-, hstage⟩ := PublishTask.storedPut_eq_some_iff.mp hput
        exact h.cap_pos_of_putting hcall (putting_eq_true_iff.mpr ⟨put, hstage⟩)

theorem filled_of_step (hsign : SignsCorrectly X) (hencrypts : EncryptsCorrectly X)
    (s : Slot topic cap) (label : SlotLabel topic cap) (t : Slot topic cap)
    (hstep : s.step unixMinute label = some t) (h : Filled unixMinute s) :
    Filled unixMinute t := by
  cases label with
  | publishRecord participant content =>
      obtain ⟨record, hown, rfl⟩ := step_publishRecord_eq_some hstep
      exact filled_of_publishRecord h hown
  | step id input =>
      obtain ⟨call, task, hget, -, htask, rfl⟩ := exists_of_step_call hstep
      exact filled_of_call hsign hencrypts h hget htask

theorem filled_of_run (hsign : SignsCorrectly X) (hencrypts : EncryptsCorrectly X)
    {labels : List (SlotLabel topic cap)}
    (hrun : run (Slot.step unixMinute) (Slot.empty topic cap) labels = some s) :
    Filled unixMinute s :=
  run_preserves (filled_of_step hsign hencrypts) hrun
    ⟨by simp [Slot.empty], by simp [Slot.empty], by simp [Slot.empty], by simp [Slot.empty],
      by simp [Slot.empty]⟩

theorem mem_puttingKeys {key : Bytes 32} :
    key ∈ puttingKeys s ↔
      ∃ call ∈ s.calls, call.putting = true ∧ call.task.record.pubKey = key := by
  simp [puttingKeys, and_assoc]

/-- The publishers in the slot or past their check number at most `k - 1` more than
the cap. -/
def Within (k : Nat) (s : Slot topic cap) : Prop :=
  (storedKeys s ∪ puttingKeys s).card ≤ cap + k - 1

theorem Within.of_subset {k : Nat} (h : Within k s)
    (hsub : storedKeys t ∪ puttingKeys t ⊆ storedKeys s ∪ puttingKeys s) : Within k t :=
  (Finset.card_le_card hsub).trans h

/-- Every other publisher of the slot is among the records a full read counts. -/
theorem card_erase_le_card_recordsOf (h : Filled unixMinute s)
    (participant : Participant topic cap) {items : List MutableItem}
    (hreturns : ∀ entry ∈ s.stored, entry.item ∈ items) :
    ((storedKeys s).erase participant.publisher.pubKey).card ≤
      (recordsOf participant.publisher unixMinute items).card := by
  have hsub : (storedKeys s).erase participant.publisher.pubKey ⊆
      (recordsOf participant.publisher unixMinute items).image Record.pubKey := by
    intro key hkey
    obtain ⟨hne, hstored⟩ := Finset.mem_erase.mp hkey
    obtain ⟨entry, hentry, rfl⟩ := List.mem_map.mp (List.mem_toFinset.mp hstored)
    obtain ⟨record, hrecord, hsame⟩ :=
      exists_mem_recordsOf (hreturns entry hentry) (h.valid entry hentry participant hne)
    exact Finset.mem_image.mpr ⟨record, hrecord, hsame⟩
  exact (Finset.card_le_card hsub).trans Finset.card_image_le

theorem puttingKeys_set_subset {id : Nat} {call : Call topic cap} {stored : List StoredRecord}
    (hnot : call.putting = false) :
    puttingKeys ⟨stored, s.calls.set id call⟩ ⊆ puttingKeys s := by
  intro key hkey
  obtain ⟨other, hother, hputting, rfl⟩ := mem_puttingKeys.mp hkey
  rcases List.mem_or_eq_of_mem_set hother with hother | rfl
  · exact mem_puttingKeys.mpr ⟨other, hother, hputting, rfl⟩
  · rw [hnot] at hputting
    cases hputting

theorem within_of_check {k id : Nat} (h : Filled unixMinute s) {call : Call topic cap}
    {task : PublishTask} {items : List MutableItem} {draw : EncryptionDraw} {put : DhtPut}
    (hget : s.calls[id]? = some call) (hrecord : task.record = call.task.record)
    (hreturns : ∀ entry ∈ s.stored, entry.item ∈ items)
    (hput : publishRecord call.participant.publisher call.task.record (.ready (.ok items)) draw =
      .ok (some put))
    (hstage : task.stage = .putting put)
    (hoverlap : inFlight ⟨s.stored, s.calls.set id { call with task := task }⟩ ≤ k) :
    Within k (⟨s.stored, s.calls.set id { call with task := task }⟩ : Slot topic cap) := by
  have hid : id < s.calls.length := (List.getElem?_eq_some_iff.mp hget).1
  have hown := h.own call (List.mem_of_getElem? hget)
  have hputting : call.task.record.pubKey ∈
      puttingKeys ⟨s.stored, s.calls.set id { call with task := task }⟩ := by
    refine mem_puttingKeys.mpr ⟨{ call with task := task }, List.mem_set hid _, ?_, ?_⟩
    · exact putting_eq_true_iff.mpr ⟨put, hstage⟩
    · exact congrArg Record.pubKey hrecord
  obtain ⟨items', hanswer, hfree⟩ := card_lt_of_publishRecord hput
  obtain rfl : items = items' := by simpa using hanswer
  rw [hown.unixMinute_eq] at hfree
  have hothers := card_erase_le_card_recordsOf h call.participant hreturns
  rw [← hown.pubKey_eq] at hothers
  have hunion : storedKeys s ∪ puttingKeys ⟨s.stored, s.calls.set id { call with task := task }⟩ ⊆
      (storedKeys s).erase call.task.record.pubKey ∪
        puttingKeys ⟨s.stored, s.calls.set id { call with task := task }⟩ := by
    intro key hkey
    rcases eq_or_ne key call.task.record.pubKey with rfl | hne
    · exact Finset.mem_union_right _ hputting
    · rcases Finset.mem_union.mp hkey with hkey | hkey
      · exact Finset.mem_union_left _ (Finset.mem_erase.mpr ⟨hne, hkey⟩)
      · exact Finset.mem_union_right _ hkey
  have hcard := (Finset.card_le_card hunion).trans (Finset.card_union_le _ _)
  have hpending := card_puttingKeys_le
    (⟨s.stored, s.calls.set id { call with task := task }⟩ : Slot topic cap)
  change (storedKeys s ∪ _).card ≤ _
  omega

theorem within_of_call {k id : Nat} (h : Filled unixMinute s) (hwithin : Within k s)
    {input : PublishInput} {call : Call topic cap} {task : PublishTask}
    (hget : s.calls[id]? = some call) (hreturns : ReturnsStored s.stored input)
    (htask : call.task.step call.participant.publisher input = some task)
    (hoverlap : inFlight (s.advance id call task input) ≤ k) :
    Within k (s.advance id call task input) := by
  have hcall : call ∈ s.calls := List.mem_of_getElem? hget
  rcases PublishTask.step_cases htask with
    ⟨answer, draw, rfl, hstage, htask'⟩ | ⟨put, rfl, hstage, htask'⟩ | ⟨rfl, htask'⟩
  · have hadvance : s.advance id call task (.read answer draw) =
        ⟨s.stored, s.calls.set id { call with task := task }⟩ := by
      simp [Slot.advance, PublishTask.storedPut]
    rw [hadvance] at hoverlap ⊢
    cases hputting : ({ call with task := task } : Call topic cap).putting with
    | false =>
        exact hwithin.of_subset (Finset.union_subset_union_right (puttingKeys_set_subset hputting))
    | true =>
        obtain ⟨put, hput⟩ := putting_eq_true_iff.mp hputting
        have hpublish := hput
        rw [htask', h.uncached call hcall] at hpublish
        have hchecked := stageAfterCheck_eq_putting_iff.mp hpublish
        obtain ⟨items, rfl, -⟩ := card_lt_of_publishRecord hchecked
        exact within_of_check h hget (PublishTask.step_keeps htask).1 hreturns hchecked hput
          hoverlap
  · have hnot : ({ call with task := task } : Call topic cap).putting = false := by
      rw [htask']
      rfl
    have hkey : call.task.record.pubKey ∈ puttingKeys s :=
      mem_puttingKeys.mpr ⟨call, hcall, putting_eq_true_iff.mpr ⟨put, hstage⟩, rfl⟩
    refine hwithin.of_subset (Finset.union_subset ?_ ?_)
    · intro key hmem
      obtain ⟨entry, hentry, rfl⟩ := List.mem_map.mp (List.mem_toFinset.mp hmem)
      rcases List.mem_append.mp hentry with hentry | hentry
      · exact Finset.mem_union_left _
          (List.mem_toFinset.mpr (List.mem_map.mpr ⟨entry, hentry, rfl⟩))
      · obtain ⟨put', -, rfl⟩ := List.mem_map.mp hentry
        exact Finset.mem_union_right _ hkey
    · exact (puttingKeys_set_subset hnot).trans Finset.subset_union_right
  · have hnot : ({ call with task := task } : Call topic cap).putting = false := by
      rw [htask']
      rfl
    have hadvance : s.advance id call task .abandoned =
        ⟨s.stored, s.calls.set id { call with task := task }⟩ := by
      simp [Slot.advance, PublishTask.storedPut]
    rw [hadvance]
    exact hwithin.of_subset (Finset.union_subset_union_right (puttingKeys_set_subset hnot))

theorem within_of_step {k : Nat} (s : Slot topic cap) (label : SlotLabel topic cap)
    (t : Slot topic cap) (hstep : s.step unixMinute label = some t)
    (hoverlap : inFlight t ≤ k) (h : Filled unixMinute s) (hwithin : Within k s) :
    Within k t := by
  cases label with
  | publishRecord participant content =>
      obtain ⟨record, -, rfl⟩ := step_publishRecord_eq_some hstep
      refine hwithin.of_subset (Finset.union_subset_union_right ?_)
      intro key hkey
      obtain ⟨call, hcall, hputting, rfl⟩ := mem_puttingKeys.mp hkey
      rcases List.mem_append.mp hcall with hcall | hcall
      · exact mem_puttingKeys.mpr ⟨call, hcall, hputting, rfl⟩
      · rw [List.mem_singleton.mp hcall] at hputting
        cases hputting
  | step id input =>
      obtain ⟨call, task, hget, hreturns, htask, rfl⟩ := exists_of_step_call hstep
      exact within_of_call h hwithin hget hreturns htask hoverlap

/-- However the publishes interleave, with at most `k` of them between get and put
the slot holds records of at most `cap + k - 1` publishers, and no put is requested
when the cap is 0. -/
theorem card_storedKeys_le (hsign : SignsCorrectly X) (hencrypts : EncryptsCorrectly X)
    {labels : List (SlotLabel topic cap)}
    (hrun : run (Slot.step unixMinute) (Slot.empty topic cap) labels = some s) :
    (∀ k, Throughout (Slot.step unixMinute) (fun s => inFlight s ≤ k) (Slot.empty topic cap)
      labels → (storedKeys s).card ≤ cap + k - 1) ∧
      (cap = 0 → s.stored = [] ∧ inFlight s = 0) := by
  constructor
  · intro k hoverlap
    have hstart : Filled unixMinute (Slot.empty topic cap) ∧ Within k (Slot.empty topic cap) :=
      ⟨filled_of_run hsign hencrypts (run_nil _),
        by simp [Within, storedKeys, puttingKeys, Slot.empty]⟩
    have hwithin := run_preserves_of_throughout
      (P := fun s => Filled unixMinute s ∧ Within k s)
      (fun s label t hstep _ hoverlap h => ⟨filled_of_step hsign hencrypts s label t hstep h.1,
        within_of_step s label t hstep hoverlap h.1 h.2⟩) hoverlap hrun hstart
    exact (Finset.card_le_card Finset.subset_union_left).trans hwithin.2
  · intro hzero
    have hfilled := filled_of_run hsign hencrypts hrun
    constructor
    · by_contra hstored
      have hpositive := hfilled.positive hstored
      omega
    · apply List.countP_eq_zero.mpr
      intro call hcall hputting
      have hpositive := hfilled.cap_pos_of_putting hcall hputting
      omega

def sampleParticipant (seed : UInt8) :
    Participant (samplePublisher 1 { bootstrapConfig := { maxBootstrapRecords := 1 } }) 1 where
  publisher := samplePublisher seed { bootstrapConfig := { maxBootstrapRecords := 1 } }
  shares := ⟨rfl, rfl, rfl⟩
  maxBootstrapRecords_eq := rfl

def overlappingPublishes :
    List (SlotLabel (samplePublisher 1 { bootstrapConfig := { maxBootstrapRecords := 1 } }) 1) :=
  [.publishRecord (sampleParticipant 1) ⟨[]⟩, .publishRecord (sampleParticipant 2) ⟨[]⟩,
    .step 0 (.read (.ready (.ok [])) zeroDraw), .step 1 (.read (.ready (.ok [])) zeroDraw),
    .step 0 .stored, .step 1 .stored]

theorem two_publishers_of_overlappingPublishes :
    ∃ s ∈ run (Slot.step 7) (Slot.empty _ 1) overlappingPublishes,
      (storedKeys s).card = 2 ∧ (storedKeys s).card ≤ 1 + 2 - 1 := by
  have hrun : ∃ s ∈ run (Slot.step 7) (Slot.empty _ 1) overlappingPublishes,
      (storedKeys s).card = 2 := by
    decide +kernel
  have hoverlap : Throughout (Slot.step 7) (fun s => inFlight s ≤ 2) (Slot.empty _ 1)
      overlappingPublishes := by
    decide +kernel
  rcases hrun with ⟨s, hs, hcard⟩
  exact ⟨s, hs, hcard, (card_storedKeys_le reference_signsCorrectly
    reference_encryptsCorrectly hs).1 2 hoverlap⟩

end TopicTracker.SlotCapacity
