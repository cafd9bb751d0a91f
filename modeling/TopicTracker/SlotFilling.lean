import TopicTracker.SlotCapacity

namespace TopicTracker.SlotFilling

open TopicTracker.Configuration
open TopicTracker.RustValues
open TopicTracker.ThirdParty
open TopicTracker.ReferenceExternals
open TopicTracker.RecordCodec
open TopicTracker.EncryptedRecordCodec
open TopicTracker.RecordRetrieval
open TopicTracker.RecordPublishing
open TopicTracker.StepMachine
open TopicTracker.SlotCapacity

variable {X : Externals} {topic : RecordPublisher X} {cap : Nat} {unixMinute : UInt64}
  {s t : Slot topic cap}

def callerKeys (s : Slot topic cap) : Finset (Bytes 32) :=
  (s.calls.map fun call => call.task.record.pubKey).toFinset

def Settled (s : Slot topic cap) : Prop := ∀ call ∈ s.calls, call.task.stage = .finished

/-- The content fits, a read shows nobody who is not in the slot, and a put takes effect. -/
def Undisturbed (unixMinute : UInt64) (s : Slot topic cap) : SlotLabel topic cap → Prop
  | .publishRecord _ content => content.bytes.length ≤ 1764
  | .step id (.read answer _) => ∃ items, answer = .ready (.ok items) ∧
      ∀ call ∈ s.calls[id]?, ∀ record ∈ recordsOf call.participant.publisher unixMinute items,
        record.pubKey ∈ storedKeys s
  | .step _ .stored => True
  | .step _ .abandoned => False

/-- Only callers are in the slot, and a call that has come to its end has put its record
unless the slot is full. -/
structure Filling (s : Slot topic cap) : Prop where
  called : storedKeys s ⊆ callerKeys s
  sized : ∀ call ∈ s.calls, call.task.record.content.bytes.length ≤ 1764
  admitted : ∀ call ∈ s.calls, call.task.stage = .finished →
    call.task.record.pubKey ∈ storedKeys s ∨ cap ≤ (storedKeys s).card

theorem storedKeys_advance (s : Slot topic cap) (id : Nat) (call : Call topic cap)
    (task : PublishTask) (input : PublishInput) : storedKeys s ⊆
      storedKeys (s.advance id call task input) := by
  intro key hkey
  obtain ⟨entry, hentry, rfl⟩ := List.mem_map.mp (List.mem_toFinset.mp hkey)
  refine List.mem_toFinset.mpr (List.mem_map.mpr ⟨entry, ?_, rfl⟩)
  exact List.mem_append_left _ hentry

theorem callerKeys_advance {id : Nat} {input : PublishInput} {call : Call topic cap}
    {task : PublishTask} (hget : s.calls[id]? = some call)
    (hrecord : task.record = call.task.record) :
    callerKeys (s.advance id call task input) = callerKeys s := by
  have hsame : (s.calls.set id { call with task := task }).map
      (fun call => call.task.record.pubKey) = s.calls.map fun call => call.task.record.pubKey := by
    refine List.ext_getElem? fun i => ?_
    rw [List.getElem?_map, List.getElem?_map]
    rcases eq_or_ne id i with rfl | hne
    · rw [List.getElem?_set_self (List.getElem?_eq_some_iff.mp hget).1, hget, Option.map_some,
        Option.map_some, hrecord]
    · rw [List.getElem?_set_ne hne]
  exact congrArg List.toFinset hsame

theorem card_le_card_storedKeys {self : RecordPublisher X} {items : List MutableItem}
    (h : ∀ record ∈ recordsOf self unixMinute items, record.pubKey ∈ storedKeys s) :
    (recordsOf self unixMinute items).card ≤ (storedKeys s).card := by
  refine Finset.card_le_card_of_injOn Record.pubKey h ?_
  intro record hrecord record' hrecord' hkey
  exact eq_of_mem_recordsOf hrecord hrecord' hkey

theorem full_of_check (hencrypts : EncryptsCorrectly X) (hfilled : Filled unixMinute s)
    (h : Filling s) {call : Call topic cap} (hcall : call ∈ s.calls) {items : List MutableItem}
    (hshown : ∀ record ∈ recordsOf call.participant.publisher unixMinute items,
      record.pubKey ∈ storedKeys s) {draw : EncryptionDraw}
    (hstage : PublishTask.stageAfterCheck (publishRecordCachedRecords
      call.participant.publisher call.task.record call.task.cachedRecords (.ready (.ok items))
        draw) = .finished) : cap ≤ (storedKeys s).card := by
  by_contra hfree
  have hcounted : countedRecords call.participant.publisher call.task.record.unixMinute
      call.task.cachedRecords (.ready (.ok items)) =
        .ok (recordsOf call.participant.publisher unixMinute items) := by
    rw [hfilled.uncached call hcall, (hfilled.own call hcall).unixMinute_eq]
    rfl
  have hroom : (recordsOf call.participant.publisher unixMinute items).card <
      call.participant.publisher.maxBootstrapRecords := by
    rw [call.participant.maxBootstrapRecords_eq]
    exact (card_le_card_storedKeys hshown).trans_lt (Nat.not_le.mp hfree)
  obtain ⟨put, hput⟩ := exists_publish hencrypts draw hcounted hroom (h.sized call hcall)
  rw [hput] at hstage
  cases hstage

theorem filling_of_publishRecord (h : Filling s) {participant : Participant topic cap}
    {content : RecordContent} (hsize : content.bytes.length ≤ 1764)
    (hstep : s.step unixMinute (.publishRecord participant content) = some t) : Filling t := by
  obtain rfl := Option.some.inj hstep
  refine ⟨fun key hkey => ?_, ?_, ?_⟩
  · obtain ⟨call, hcall, rfl⟩ := List.mem_map.mp (List.mem_toFinset.mp (h.called hkey))
    refine List.mem_toFinset.mpr (List.mem_map.mpr ⟨call, ?_, rfl⟩)
    exact List.mem_append_left _ hcall
  · refine List.forall_mem_append.mpr ⟨h.sized, ?_⟩
    exact List.forall_mem_singleton.mpr hsize
  · refine List.forall_mem_append.mpr ⟨h.admitted, ?_⟩
    exact List.forall_mem_singleton.mpr fun hstage => (by cases hstage)

theorem filling_of_call (hencrypts : EncryptsCorrectly X) (hfilled : Filled unixMinute s)
    (h : Filling s) {id : Nat} {input : PublishInput} {call : Call topic cap}
    {task : PublishTask} (hget : s.calls[id]? = some call)
    (hundisturbed : Undisturbed unixMinute s (.step id input))
    (htask : call.task.step call.participant.publisher input = some task) :
    Filling (s.advance id call task input) := by
  have hcall : call ∈ s.calls := List.mem_of_getElem? hget
  have hkeys := storedKeys_advance s id call task input
  obtain ⟨hrecord, -⟩ := PublishTask.step_keeps htask
  constructor
  · rw [callerKeys_advance hget hrecord]
    intro key hkey
    obtain ⟨entry, hentry, rfl⟩ := List.mem_map.mp (List.mem_toFinset.mp hkey)
    rcases List.mem_append.mp hentry with hold | hnew
    · exact h.called (List.mem_toFinset.mpr (List.mem_map.mpr ⟨entry, hold, rfl⟩))
    · obtain ⟨put, -, rfl⟩ := List.mem_map.mp hnew
      exact List.mem_toFinset.mpr (List.mem_map.mpr ⟨call, hcall, rfl⟩)
  · intro other hother
    rcases List.mem_or_eq_of_mem_set hother with hold | rfl
    · exact h.sized other hold
    · rw [hrecord]
      exact h.sized call hcall
  · intro other hother hstage
    rcases List.mem_or_eq_of_mem_set hother with hold | rfl
    · rcases h.admitted other hold hstage with hstored | hfull
      · exact .inl (hkeys hstored)
      · exact .inr (hfull.trans (Finset.card_le_card hkeys))
    · rcases PublishTask.step_cases htask with
        ⟨answer, draw, rfl, -, rfl⟩ | ⟨put, rfl, hputting, rfl⟩ | ⟨rfl, -⟩
      · obtain ⟨items, rfl, hshown⟩ := hundisturbed
        have hfull := full_of_check hencrypts hfilled h hcall (hshown call hget) hstage
        exact .inr (hfull.trans (Finset.card_le_card hkeys))
      · -- The put that takes effect is the one of this call.
        refine .inl (List.mem_toFinset.mpr (List.mem_map.mpr
          ⟨⟨call.task.record, put.item⟩, List.mem_append_right _ ?_, rfl⟩))
        rw [PublishTask.storedPut_eq_some_iff.mpr ⟨rfl, hputting⟩]
        exact List.mem_singleton_self _
      · exact hundisturbed.elim

theorem filling_of_step (hencrypts : EncryptsCorrectly X) (s : Slot topic cap)
    (label : SlotLabel topic cap) (t : Slot topic cap)
    (hstep : s.step unixMinute label = some t) (hundisturbed : Undisturbed unixMinute s label)
    (hfilled : Filled unixMinute s) (h : Filling s) : Filling t := by
  rcases label with ⟨participant, content⟩ | ⟨id, input⟩
  · exact filling_of_publishRecord h hundisturbed hstep
  · obtain ⟨call, task, hget, -, htask, rfl⟩ := exists_of_step_call hstep
    exact filling_of_call hencrypts hfilled h hget hundisturbed htask

/-- However the publishes of a minute interleave: when nothing has disturbed them and all of
them are over, the slot has the records of all who called, or as many as the cap allows. -/
theorem slot_fills (hsign : SignsCorrectly X) (hencrypts : EncryptsCorrectly X)
    {labels : List (SlotLabel topic cap)}
    (hrun : run (Slot.step unixMinute) (Slot.empty topic cap) labels = some s)
    (hundisturbed : AllSteps (Slot.step unixMinute) (Undisturbed unixMinute)
      (Slot.empty topic cap) labels) (hsettled : Settled s) :
    storedKeys s = callerKeys s ∨ cap ≤ (storedKeys s).card := by
  have hstart : Filled unixMinute (Slot.empty topic cap) ∧ Filling (Slot.empty topic cap) :=
    ⟨filled_of_run hsign hencrypts (run_nil _), by simp [Slot.empty, storedKeys],
      by simp [Slot.empty], by simp [Slot.empty]⟩
  have hfilling : Filled unixMinute s ∧ Filling s :=
    run_preserves_of_allSteps (P := fun s => Filled unixMinute s ∧ Filling s)
      (fun s label t hstep hlabel h => ⟨filled_of_step hsign hencrypts s label t hstep h.1,
        filling_of_step hencrypts s label t hstep hlabel h.1 h.2⟩) hundisturbed hrun hstart
  by_cases hfull : cap ≤ (storedKeys s).card
  · exact .inr hfull
  · refine .inl (hfilling.2.called.antisymm fun key hkey => ?_)
    obtain ⟨call, hcall, rfl⟩ := List.mem_map.mp (List.mem_toFinset.mp hkey)
    exact (hfilling.2.admitted call hcall (hsettled call hcall)).resolve_right hfull

theorem slot_fills_of_overlappingPublishes :
    ∃ s ∈ run (Slot.step 7) (Slot.empty _ 1) overlappingPublishes,
      storedKeys s = callerKeys s ∨ 1 ≤ (storedKeys s).card := by
  have hrun : ∃ s ∈ run (Slot.step 7) (Slot.empty _ 1) overlappingPublishes,
      ∀ call ∈ s.calls, call.task.stage = .finished := by
    decide +kernel
  have hundisturbed : AllSteps (Slot.step 7) (Undisturbed 7) (Slot.empty _ 1)
      overlappingPublishes := by
    refine .of_forall (fun label hlabel s => ?_) _
    have hread : ∀ id, Undisturbed 7 s (.step id (.read (.ready (.ok [])) zeroDraw)) := by
      intro id
      exact ⟨[], rfl, fun call _ record hrecord => absurd hrecord (Finset.notMem_empty record)⟩
    simp only [overlappingPublishes, List.mem_cons, List.not_mem_nil, or_false] at hlabel
    rcases hlabel with rfl | rfl | rfl | rfl | rfl | rfl
    · exact Nat.zero_le _
    · exact Nat.zero_le _
    · exact hread 0
    · exact hread 1
    · trivial
    · trivial
  obtain ⟨s, hs, hsettled⟩ := hrun
  exact ⟨s, hs, slot_fills reference_signsCorrectly reference_encryptsCorrectly hs hundisturbed
    hsettled⟩

end TopicTracker.SlotFilling
