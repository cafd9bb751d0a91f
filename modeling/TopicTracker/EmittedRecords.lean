import TopicTracker.BootstrapProcess
import TopicTracker.RecordAdvertising

namespace TopicTracker.EmittedRecords

open TopicTracker.Configuration
open TopicTracker.RustValues
open TopicTracker.ThirdParty
open TopicTracker.ReferenceExternals
open TopicTracker.RecordCodec
open TopicTracker.EncryptedRecordCodec
open TopicTracker.RecordRetrieval
open TopicTracker.RecordPublishing
open TopicTracker.BootstrapLoop
open TopicTracker.BootstrapTransition
open TopicTracker.BootstrapProcess
open TopicTracker.StepMachine
open TopicTracker.RecordAdvertising

variable {X : Externals} {cfg : BootstrapConfig} {rp : RecordPublisher X} {p : Process X}
  {unixMinute : UInt64}

structure Request (N : Type) where
  member : N
  record : Record
  put : DhtPut

variable {N : Type} {publisher : N → RecordPublisher X}

/-- The node signed the record itself, and the put passed the checks of a publish. -/
structure Request.Genuine (publisher : N → RecordPublisher X) (request : Request N) : Prop where
  own : OwnRecord (publisher request.member) request.record.unixMinute request.record
  put : ∃ cached answer draw, publishRecordCachedRecords (publisher request.member)
    request.record cached answer draw = .ok (some request.put)

/-- `PublisherActor::publish`, up to its put. -/
def publishRequest (publisher : N → RecordPublisher X) (member : N) (tick : PublishTick X) :
    Result (Option (Request N)) := do
  let record ← createRecord (publisher member) tick
  let put ← publishRecord (publisher member) record tick.answer tick.draw
  .ok (put.map fun put => ⟨member, record, put⟩)

theorem ownRecord_of_createRecord {self : RecordPublisher X} {tick : PublishTick X}
    {record : Record} (h : createRecord self tick = .ok record) :
    OwnRecord self tick.unixMinute record := by
  obtain ⟨neighbors, -, h⟩ := bind_eq_ok.mp h
  obtain ⟨hashes, -, h⟩ := bind_eq_ok.mp h
  obtain ⟨content, -, h⟩ := bind_eq_ok.mp h
  obtain ⟨bytes, -, hsigned⟩ := sign_eq_ok_iff.mp h
  exact ⟨bytes, hsigned⟩

theorem publishRequest_eq_some_iff {member : N} {tick : PublishTick X} {request : Request N} :
    publishRequest publisher member tick = .ok (some request) ↔
      createRecord (publisher member) tick = .ok request.record ∧
        publishRecord (publisher member) request.record tick.answer tick.draw =
          .ok (some request.put) ∧ request.member = member := by
  constructor
  · intro h
    obtain ⟨record, hrecord, h⟩ := bind_eq_ok.mp h
    obtain ⟨put, hput, h⟩ := bind_eq_ok.mp h
    obtain ⟨put, rfl, rfl⟩ := Option.map_eq_some_iff.mp (Except.ok.inj h)
    exact ⟨hrecord, hput, rfl⟩
  · rintro ⟨hrecord, hput, rfl⟩
    exact bind_eq_ok.mpr ⟨_, hrecord, bind_eq_ok.mpr ⟨_, hput, rfl⟩⟩

theorem genuine_of_publishRequest {member : N} {tick : PublishTick X} {request : Request N}
    (h : publishRequest publisher member tick = .ok (some request)) :
    request.Genuine publisher := by
  obtain ⟨hrecord, hput, rfl⟩ := publishRequest_eq_some_iff.mp h
  have hown := ownRecord_of_createRecord hrecord
  exact ⟨hown.unixMinute_eq.symm ▸ hown, none, _, _, hput⟩

theorem Request.Genuine.valid (hsign : SignsCorrectly X) (hencrypts : EncryptsCorrectly X)
    {request : Request N} (h : request.Genuine publisher) {mate : RecordPublisher X}
    (hshares : SharesSlots (publisher request.member) mate)
    (hne : (publisher request.member).pubKey ≠ mate.pubKey) :
    mate.Valid request.record.unixMinute request.put.item request.record ∧
      request.put.address = mate.slotAddress request.record.unixMinute := by
  obtain ⟨cached, answer, draw, hput⟩ := h.put
  exact valid_of_publish hsign hencrypts hshares hne h.own hput

/-- The record without peers and messages that a node signs for a minute. -/
def EmptyRecordOf (rp : RecordPublisher X) (unixMinute : UInt64) (record : Record) : Prop :=
  ∃ content, RecordContent.fromArbitrary X.gossipContent emptyContent = .ok content ∧
    record = Record.signContent X rp.topicId.hash unixMinute content rp.signingKey

theorem EmptyRecordOf.own {record : Record} (h : EmptyRecordOf rp unixMinute record) :
    OwnRecord rp unixMinute record := by
  obtain ⟨content, -, hrecord⟩ := h
  exact ⟨content, hrecord⟩

theorem EmptyRecordOf.decodes (hX : EncodesContentLosslessly X) {record : Record}
    (h : EmptyRecordOf rp unixMinute record) :
    record.content.decodeTo X.gossipContent = .ok emptyContent := by
  obtain ⟨content, hcontent, rfl⟩ := h
  obtain ⟨bytes, hencode, hdecode⟩ := hX emptyContent
  rw [RecordContent.fromArbitrary, hencode, ok_bind] at hcontent
  obtain rfl := Except.ok.inj hcontent
  exact hdecode

theorem emptyRecordOf_of_initiate {iteration iteration' : Option Nat} {record : Record}
    {cached cached' : Option (Finset Record)}
    (h : .initiated iteration' record cached' ∈ Loop.initiate rp iteration unixMinute cached) :
    EmptyRecordOf rp unixMinute record := by
  unfold Loop.initiate at h
  split at h
  · next signed hsign =>
      obtain ⟨-, rfl, -⟩ := Event.initiated.inj (List.mem_singleton.mp h)
      exact sign_eq_ok_iff.mp hsign
  · simp at h

theorem emptyRecordOf_of_publishIfDue {l : Loop X} {w : Window} {current : Finset Record}
    {iteration : Option Nat} {record : Record} {cached : Option (Finset Record)}
    (h : .initiated iteration record cached ∈ (Loop.publishIfDue rp l w current).2) :
    EmptyRecordOf rp w.currentUnixMinute record := by
  unfold Loop.publishIfDue at h
  split at h
  · exact emptyRecordOf_of_initiate h
  · simp at h

theorem not_initiated_of_quiet {event : Event X} (h : Quiet event) :
    ∀ iteration record cached, event ≠ .initiated iteration record cached := by
  rintro iteration record cached rfl
  exact h

section Steps

variable {l l' : Loop X} {input : Input X} {events : List (Event X)}

theorem emptyRecordOf_of_transition (h : Transition cfg rp l input l' events)
    {iteration : Option Nat} {record : Record} {cached : Option (Finset Record)}
    (hevent : .initiated iteration record cached ∈ events) :
    ∃ w, Point.window l.point = some w ∧ EmptyRecordOf rp w.currentUnixMinute record := by
  cases h with
  | tick unixMinute hpoint => simp at hevent
  | readOlder w answer hpoint => simp at hevent
  | noRecords w answer hpoint hnone =>
      have hpublish : .initiated iteration record cached ∈ (Loop.publishIfDue rp l w ∅).2 := by
        simpa using hevent
      exact ⟨w, by rw [hpoint]; rfl, emptyRecordOf_of_publishIfDue hpublish⟩
  | collected w older answer hpoint => simp at hevent
  | notJoined w current hpoint =>
      have hpublish : .initiated iteration record cached ∈
          (Loop.publishIfDue rp l w current).2 := by simpa using hevent
      exact ⟨w, by rw [hpoint]; rfl, emptyRecordOf_of_publishIfDue hpublish⟩
  | settled w current rest hpoint => simp at hevent
  | moved input next events hpoint hnext hquiet =>
      exact absurd rfl (not_initiated_of_quiet (hquiet _ hevent) _ _ _)
  | joined site hpoint hsite => simp at hevent
  | interrupted input events hpoint hinput hquiet =>
      rcases List.mem_append.mp hevent with hevent | hevent
      · exact absurd rfl (not_initiated_of_quiet (hquiet _ hevent) _ _ _)
      · simp [Loop.exit] at hevent

theorem window_of_transition (h : Transition cfg rp l input l' events) {w : Window}
    (hw : Point.window l'.point = some w) :
    Point.window l.point = some w ∨ .clock w.currentUnixMinute ∈ events := by
  cases h with
  | tick unixMinute hpoint =>
      obtain rfl := Option.some.inj hw
      refine .inr (List.mem_singleton.mpr ?_)
      rw [Window.select]
      split <;> rfl
  | readOlder w' answer hpoint => exact .inl (by rw [hpoint]; exact hw)
  | noRecords w' answer hpoint hnone => exact .inl (by rw [hpoint]; exact hw)
  | collected w' older answer hpoint => exact .inl (by rw [hpoint]; exact hw)
  | notJoined w' current hpoint => exact .inl (by rw [hpoint]; exact hw)
  | settled w' current rest hpoint => exact .inl (by rw [hpoint]; exact hw)
  | moved input next events hpoint hnext hquiet => exact .inl (hnext.window_of hw)
  | joined site hpoint hsite => cases hw
  | interrupted input events hpoint hinput hquiet => cases hw

theorem not_put_of_transition (h : Transition cfg rp l input l' events) (id : Nat)
    (put : DhtPut) : .put id put ∉ events := by
  intro hevent
  have hpublish : ∀ (w : Window) (current : Finset Record),
      .put id put ∉ (Loop.publishIfDue rp l w current).2 := by
    intro w current hmem
    obtain ⟨content, hcontent⟩ := mem_publishIfDue hmem
    cases hcontent
  cases h with
  | noRecords w answer hpoint hnone =>
      rcases List.mem_cons.mp hevent with heq | hmem
      · cases heq
      · exact hpublish w ∅ hmem
  | notJoined w current hpoint =>
      rcases List.mem_cons.mp hevent with heq | hmem
      · cases heq
      · exact hpublish w current hmem
  | moved input next events hpoint hnext hquiet => exact hquiet _ hevent
  | interrupted input events hpoint hinput hquiet =>
      rcases List.mem_append.mp hevent with hmem | hmem
      · exact hquiet _ hmem
      · simp [Loop.exit] at hmem
  | _ => simp at hevent

end Steps

/-- The records of the publishes come from the log, and each put from a publish. -/
structure Emits (rp : RecordPublisher X) (p : Process X) : Prop where
  window : ∀ w, Point.window p.loop.point = some w → .clock w.currentUnixMinute ∈ p.log
  initiated : ∀ iteration record cached, .initiated iteration record cached ∈ p.log →
    ∃ m, .clock m ∈ p.log ∧ EmptyRecordOf rp m record
  publishes : ∀ publish ∈ p.publishes, publish.task.Checked rp ∧
    ∃ iteration cached, .initiated iteration publish.task.record cached ∈ p.log
  stored : ∀ id put, .put id put ∈ p.log → ∃ publish ∈ p.publishes, ∃ answer draw,
    publishRecordCachedRecords rp publish.task.record publish.task.cachedRecords answer draw =
      .ok (some put)

theorem checked_of_spawned {event : Event X} {publish : Publish}
    (h : spawned event = some publish) : publish.task.Checked rp ∧
      ∃ iteration cached, event = .initiated iteration publish.task.record cached := by
  cases event with
  | initiated iteration record cached =>
      obtain rfl := Option.some.inj h
      exact ⟨fun put hstage => (by cases hstage), iteration, cached, rfl⟩
  | _ => cases h

theorem emits_start : Emits rp (Process.start cfg rp unixMinute) := by
  have hlog : (Process.start cfg rp unixMinute).log = startupEvents cfg rp unixMinute := rfl
  refine ⟨fun w hw => (by cases hw), ?_, ?_, ?_⟩
  · intro iteration record cached hmem
    rw [hlog] at hmem ⊢
    unfold startupEvents at hmem ⊢
    split at hmem
    · next hpublish =>
        rw [if_pos hpublish]
        rcases List.mem_cons.mp hmem with heq | hinitiate
        · cases heq
        · exact ⟨unixMinute, List.mem_cons_self, emptyRecordOf_of_initiate hinitiate⟩
    · simp at hmem
  · intro publish hpublish
    obtain ⟨event, hevent, hspawned⟩ := List.mem_filterMap.mp hpublish
    obtain ⟨hchecked, iteration, cached, rfl⟩ := checked_of_spawned hspawned
    exact ⟨hchecked, iteration, cached, hevent⟩
  · intro id put hmem
    rcases mem_startupEvents hmem with heq | ⟨content, heq⟩
    · cases heq
    · cases heq

theorem emits_of_transition (h : Emits rp p) {input : Input X} {loop : Loop X}
    {events : List (Event X)} (htransition : Transition cfg rp p.loop input loop events) :
    Emits rp ⟨loop, p.publishes ++ events.filterMap spawned, p.log ++ events⟩ := by
  refine ⟨?_, ?_, ?_, ?_⟩
  · intro w hw
    rcases window_of_transition htransition hw with hbefore | hclock
    · exact List.mem_append_left _ (h.window w hbefore)
    · exact List.mem_append_right _ hclock
  · intro iteration record cached hmem
    rcases List.mem_append.mp hmem with hold | hnew
    · obtain ⟨m, hm, hrecord⟩ := h.initiated iteration record cached hold
      exact ⟨m, List.mem_append_left _ hm, hrecord⟩
    · obtain ⟨w, hw, hrecord⟩ := emptyRecordOf_of_transition htransition hnew
      exact ⟨_, List.mem_append_left _ (h.window w hw), hrecord⟩
  · intro publish hpublish
    rcases List.mem_append.mp hpublish with hold | hnew
    · obtain ⟨hchecked, iteration, cached, hmem⟩ := h.publishes publish hold
      exact ⟨hchecked, iteration, cached, List.mem_append_left _ hmem⟩
    · obtain ⟨event, hevent, hspawned⟩ := List.mem_filterMap.mp hnew
      obtain ⟨hchecked, iteration, cached, rfl⟩ := checked_of_spawned hspawned
      exact ⟨hchecked, iteration, cached, List.mem_append_right _ hevent⟩
  · intro id put hmem
    rcases List.mem_append.mp hmem with hold | hnew
    · obtain ⟨publish, hpublish, hput⟩ := h.stored id put hold
      exact ⟨publish, List.mem_append_left _ hpublish, hput⟩
    · exact absurd hnew (not_put_of_transition htransition id put)

theorem emits_of_publish (h : Emits rp p) {id : Nat} {input : PublishInput} {publish : Publish}
    {task : PublishTask} (hget : p.publishes[id]? = some publish)
    (hstep : publish.task.step rp input = some task) :
    Emits rp { p with
      publishes := p.publishes.set id { publish with task := task }
      log := p.log ++ publishEvents rp id publish.task input } := by
  obtain ⟨hrecord, hcached⟩ := PublishTask.step_keeps hstep
  have hmem : publish ∈ p.publishes := List.mem_of_getElem? hget
  -- Its own record and cached records survive the step of a publish.
  have hkept : ∀ other ∈ p.publishes, ∃ other' ∈ p.publishes.set id { publish with task := task },
      other'.task.record = other.task.record ∧
        other'.task.cachedRecords = other.task.cachedRecords := by
    intro other hother
    obtain ⟨j, hj⟩ := List.getElem?_of_mem hother
    rcases eq_or_ne id j with rfl | hne
    · obtain rfl := Option.some.inj (hget.symm.trans hj)
      refine ⟨{ publish with task := task }, List.mem_of_getElem? (i := id) ?_, hrecord, hcached⟩
      exact List.getElem?_set_self (List.getElem?_eq_some_iff.mp hget).1
    · exact ⟨other, List.mem_of_getElem? ((List.getElem?_set_ne hne).trans hj), rfl, rfl⟩
  refine ⟨fun w hw => List.mem_append_left _ (h.window w hw), ?_, ?_, ?_⟩
  · intro iteration record cached hevent
    rcases List.mem_append.mp hevent with hold | hnew
    · obtain ⟨m, hm, hempty⟩ := h.initiated iteration record cached hold
      exact ⟨m, List.mem_append_left _ hm, hempty⟩
    · rcases mem_publishEvents hnew with ⟨answer, draw, -, -, -, heq⟩ | ⟨put, -, -, heq⟩
      · cases heq
      · cases heq
  · intro other hother
    rcases List.mem_or_eq_of_mem_set hother with hold | rfl
    · obtain ⟨hchecked, iteration, cached, hevent⟩ := h.publishes other hold
      exact ⟨hchecked, iteration, cached, List.mem_append_left _ hevent⟩
    · obtain ⟨-, iteration, cached, hevent⟩ := h.publishes publish hmem
      refine ⟨PublishTask.checked_of_step hstep, iteration, cached, List.mem_append_left _ ?_⟩
      rwa [hrecord]
  · intro j put hevent
    have hput : ∃ other ∈ p.publishes, ∃ answer draw,
        publishRecordCachedRecords rp other.task.record other.task.cachedRecords answer draw =
          .ok (some put) := by
      rcases List.mem_append.mp hevent with hold | hnew
      · exact h.stored j put hold
      · rcases mem_publishEvents hnew with ⟨answer, draw, -, -, -, heq⟩ | ⟨put', -, hstage, heq⟩
        · cases heq
        · obtain ⟨-, rfl⟩ := Event.put.inj heq
          exact ⟨publish, hmem, (h.publishes publish hmem).1 put hstage⟩
    obtain ⟨other, hother, answer, draw, hput⟩ := hput
    obtain ⟨other', hother', hrecord', hcached'⟩ := hkept other hother
    refine ⟨other', hother', answer, draw, ?_⟩
    rw [hrecord', hcached', hput]

theorem emits_of_reachable (h : Reachable cfg rp unixMinute p) : Emits rp p :=
  h.induction emits_start (step_preserves
    (fun _ _ _ _ htransition hp => emits_of_transition hp htransition)
    fun _ _ _ _ _ hget hstep hp => emits_of_publish hp hget hstep)

/-- Whatever a bootstrap process is answered, everything that it puts is the node's own
empty record of a minute that its clock has shown, goes to the slot of that minute, and
every other node of the group takes it for a valid item there. -/
theorem emitted_puts_valid (hsign : SignsCorrectly X) (hencrypts : EncryptsCorrectly X)
    (hX : EncodesContentLosslessly X) (h : Reachable cfg rp unixMinute p) {id : Nat} {put : DhtPut}
    (hput : .put id put ∈ p.log) : ∃ m record, .clock m ∈ p.log ∧ OwnRecord rp m record ∧
      record.content.decodeTo X.gossipContent = .ok emptyContent ∧
      put.address = rp.slotAddress m ∧ put.item.seq = nextSeqNum ∧
      ∀ mate : RecordPublisher X, SharesSlots rp mate → rp.pubKey ≠ mate.pubKey →
        mate.Valid m put.item record ∧ put.address = mate.slotAddress m := by
  have hemits := emits_of_reachable h
  obtain ⟨publish, hpublish, answer, draw, hrequest⟩ := hemits.stored id put hput
  obtain ⟨-, iteration, cached, hinitiated⟩ := hemits.publishes publish hpublish
  obtain ⟨m, hclock, hempty⟩ := hemits.initiated iteration _ cached hinitiated
  have hminute : publish.task.record.unixMinute = m := hempty.own.unixMinute_eq
  obtain ⟨records, -, -, encryptedRecord, -, -, haddress, hseq⟩ :=
    publish_eq_some_iff.mp hrequest
  refine ⟨m, publish.task.record, hclock, hempty.own, hempty.decodes hX, ?_, hseq, ?_⟩
  · rw [haddress, hminute]
  · intro mate hshares hne
    exact valid_of_publish hsign hencrypts hshares hne hempty.own hrequest

def samplePublishers (member : Bool) : RecordPublisher reference :=
  samplePublisher (if member then 2 else 1) {}

/-- A node alone in minute 7 reads its slot for the startup publish and puts its record. -/
def startupPut : List (Label reference) :=
  [.publish 0 (.read (.ready (.ok [])) zeroDraw), .publish 0 .stored]

def putOf : Event X → Option (Nat × DhtPut)
  | .put id put => some (id, put)
  | _ => none

theorem emitted_puts_valid_startupPut :
    ∃ p ∈ run (Process.step {} (samplePublisher 2 {}))
        (Process.start {} (samplePublisher 2 {}) 7) startupPut,
      ∃ id put m record, .put id put ∈ p.log ∧
        (samplePublisher 1 {}).Valid m put.item record := by
  have hrun : ∃ p ∈ run (Process.step {} (samplePublisher 2 {}))
        (Process.start {} (samplePublisher 2 {}) 7) startupPut,
      p.log.filterMap putOf ≠ [] := by
    decide +kernel
  obtain ⟨p, hp, hputs⟩ := hrun
  obtain ⟨⟨id, put⟩, hmem⟩ := List.exists_mem_of_ne_nil _ hputs
  obtain ⟨event, hevent, heq⟩ := List.mem_filterMap.mp hmem
  obtain rfl : event = .put id put := by
    cases event with
    | put id put =>
        obtain ⟨rfl, rfl⟩ := Prod.mk.inj (Option.some.inj heq)
        rfl
    | _ => cases heq
  obtain ⟨m, record, -, -, -, -, -, hmates⟩ := emitted_puts_valid reference_signsCorrectly
    reference_encryptsCorrectly reference_encodesContentLosslessly ⟨startupPut, hp⟩ hevent
  exact ⟨p, hp, id, put, m, record, hevent,
    (hmates (samplePublisher 1 {}) ⟨rfl, rfl, rfl⟩ (by decide)).1⟩

end TopicTracker.EmittedRecords
