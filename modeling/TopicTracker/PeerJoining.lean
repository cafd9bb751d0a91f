import TopicTracker.PeerDiscovery
import TopicTracker.CandidateCoverage

namespace TopicTracker.PeerJoining

open TopicTracker.Configuration
open TopicTracker.RustValues
open TopicTracker.ThirdParty
open TopicTracker.ReferenceExternals
open TopicTracker.RecordCodec
open TopicTracker.RecordRetrieval
open TopicTracker.RecordPublishing
open TopicTracker.BootstrapLoop
open TopicTracker.BootstrapTransition
open TopicTracker.BootstrapProcess
open TopicTracker.StepMachine
open TopicTracker.PeerDiscovery
open TopicTracker.CandidateCoverage

variable {X : Externals} {cfg : BootstrapConfig} {a b : RecordPublisher X}
  {key : Bytes 32} {i : Nat}

def HasRead (key : Bytes 32) (it : IterationLog X) : Prop :=
  ∃ record ∈ it.records, record.pubKey = key

def ReadIn (key : Bytes 32) (i : Nat) (p : Process X) : Prop :=
  i ≤ p.loop.iteration ∧ (p.loop.iteration = i → HasRead key (currentIteration p.log))

def IsClock : Event X → Prop
  | .clock _ => True
  | _ => False

instance : ∀ event : Event X, Decidable (IsClock event)
  | .clock _ => isTrue trivial
  | .checked _ _ => isFalse id
  | .read _ _ _ => isFalse id
  | .initiated _ _ _ => isFalse id
  | .joinRequested _ => isFalse id
  | .joinCompleted _ => isFalse id
  | .put _ _ => isFalse id
  | .signalled _ => isFalse id

theorem HasRead.of_subset {it it' : IterationLog X} (h : HasRead key it)
    (hsub : it.records ⊆ it'.records) : HasRead key it' := by
  obtain ⟨record, hrecord, hkey⟩ := h
  exact ⟨record, hsub hrecord, hkey⟩

theorem records_subset_note {event : Event X} (h : ¬ IsClock event) (it : IterationLog X) :
    it.records ⊆ (note it event).records := by
  cases event with
  | clock unixMinute => exact absurd trivial h
  | read reader slot result =>
      cases reader with
      | publish id => exact Finset.Subset.refl _
      | _ => exact Finset.subset_union_left
  | checked site answer => exact (keepsRecords_checked site answer it).2.ge
  | _ => exact Finset.Subset.refl _

theorem records_subset_noteAll {events : List (Event X)} (h : ∀ event ∈ events, ¬ IsClock event)
    (it : IterationLog X) : it.records ⊆ (noteAll it events).records := by
  induction events generalizing it with
  | nil => exact Finset.Subset.refl _
  | cons event events ih =>
      obtain ⟨hfirst, hrest⟩ := List.forall_mem_cons.mp h
      exact (records_subset_note hfirst it).trans (ih hrest (note it event))

theorem HasRead.append {log events : List (Event X)} (h : HasRead key (currentIteration log))
    (hevents : ∀ event ∈ events, ¬ IsClock event) :
    HasRead key (currentIteration (log ++ events)) := by
  rw [currentIteration_append]
  exact h.of_subset (records_subset_noteAll hevents _)

theorem not_isClock_publishIfDue (l : Loop X) (w : Window) (current : Finset Record) :
    ∀ event ∈ (Loop.publishIfDue b l w current).2, ¬ IsClock event := by
  intro event hevent
  obtain ⟨content, rfl⟩ := mem_publishIfDue hevent
  exact id

theorem not_isClock_of_quiet {event : Event X} (h : Quiet event) : ¬ IsClock event := by
  cases event with
  | clock unixMinute => exact fun _ => h
  | _ => exact id

theorem iteration_of_transition {l l' : Loop X} {input : Input X} {events : List (Event X)}
    (h : Transition cfg b l input l' events) :
    (l.point = .clock ∧ (∃ w, l'.point = .fetchOlder w) ∧ l'.iteration = l.iteration + 1) ∨
      (l'.iteration = l.iteration ∧ ∀ event ∈ events, ¬ IsClock event) := by
  cases h with
  | tick unixMinute hpoint => exact .inl ⟨hpoint, ⟨_, rfl⟩, rfl⟩
  | readOlder w answer hpoint => exact .inr ⟨rfl, by simp [IsClock]⟩
  | noRecords w answer hpoint hnone =>
      exact .inr ⟨publishIfDue_iteration l w ∅,
        List.forall_mem_cons.mpr ⟨id, not_isClock_publishIfDue l w ∅⟩⟩
  | collected w older answer hpoint => exact .inr ⟨rfl, by simp [IsClock]⟩
  | notJoined w current hpoint =>
      exact .inr ⟨publishIfDue_iteration l w current,
        List.forall_mem_cons.mpr ⟨id, not_isClock_publishIfDue l w current⟩⟩
  | settled w current rest hpoint => exact .inr ⟨rfl, by simp [IsClock]⟩
  | moved input next events hpoint hnext hquiet =>
      exact .inr ⟨rfl, fun event hevent => not_isClock_of_quiet (hquiet event hevent)⟩
  | joined site hpoint hsite => exact .inr ⟨rfl, by simp [IsClock]⟩
  | interrupted input events hpoint hinput hquiet =>
      refine .inr ⟨rfl, List.forall_mem_append.mpr ⟨fun event hevent => ?_, ?_⟩⟩
      · exact not_isClock_of_quiet (hquiet event hevent)
      · simp [Loop.exit, IsClock]

theorem readIn_of_step (p : Process X) (label : Label X) (q : Process X)
    (hstep : p.step cfg b label = some q) (h : ReadIn key i p) : ReadIn key i q := by
  refine step_preserves (P := ReadIn key i) ?_ ?_ p label q hstep h
  · rintro p input loop events htransition ⟨hle, hread⟩
    rcases iteration_of_transition htransition with ⟨-, -, hnext⟩ | ⟨hsame, hevents⟩
    · refine ⟨?_, fun hi => ?_⟩
      · change i ≤ loop.iteration
        omega
      · change loop.iteration = i at hi
        omega
    · refine ⟨hle.trans hsame.ge, fun hi => (hread ?_).append hevents⟩
      exact hsame.symm.trans hi
  · rintro p id input publish task - - ⟨hle, hread⟩
    refine ⟨hle, fun hi => ?_⟩
    show HasRead key (currentIteration (p.log ++ publishEvents b id publish.task input))
    rw [currentIteration_append, noteAll_of_unnoted unnoted_publishEvents]
    exact hread hi

theorem process_of_run {P : Process X → Prop}
    (hstep : ∀ p label q, p.step cfg b label = some q → P p → P q) {w w' : World X}
    {labels : List (WorldLabel X)} (hrun : run (World.step cfg a b) w labels = some w')
    (h : P w.process) : P w'.process := by
  refine run_preserves (P := fun w => P w.process) ?_ hrun h
  intro w label w' hworld h
  cases label with
  | call unixMinute content cached =>
      obtain rfl := Option.some.inj hworld
      exact h
  | publish id input =>
      obtain ⟨task, task', -, -, rfl⟩ := World.exists_of_step_publish hworld
      cases task.storedPut input <;> exact h
  | store put =>
      obtain rfl := Option.some.inj hworld
      exact h
  | process label =>
      obtain ⟨process, hprocess, rfl⟩ := World.exists_of_step_process hworld
      exact hstep w.process label process hprocess h

/-- The iteration reads the slot of the minute next, in its window of that iteration. -/
def FetchesNext (unixMinute : UInt64) (point : Point X) : Prop :=
  ∃ w : Window, (point = .fetchOlder w ∧ w.older = unixMinute) ∨
    ∃ older, point = .fetchNewer w older ∧ w.newer = unixMinute

theorem readIn_of_read {record : Record} {items : List MutableItem} {p q : Process X}
    (hreads : FetchesNext record.unixMinute p.loop.point)
    (hitem : ∃ item ∈ items, b.Valid record.unixMinute item record)
    (hstep : p.step cfg b (.loop (.records (.ready (.ok items)))) = some q) :
    ReadIn record.pubKey q.loop.iteration q := by
  rcases hitem with ⟨item, hmem, hvalid⟩
  obtain ⟨found, hfound, hkey⟩ := exists_mem_recordsOf hmem hvalid
  obtain ⟨loop, events, hloop, rfl⟩ := exists_of_step_loop hstep
  refine ⟨le_refl _, fun _ => ?_⟩
  rcases hreads with ⟨w, ⟨hpoint, holder⟩ | ⟨older, hpoint, hnewer⟩⟩
  · simp only [Loop.step, hpoint, holder, getRecords_ready_ok, unwrapOrDefault] at hloop
    obtain ⟨-, rfl⟩ := Prod.ext_iff.mp (Option.some.inj hloop)
    refine ⟨found, ?_, hkey⟩
    show found ∈ (currentIteration (p.log ++ [.read (.older p.loop.iteration)
      record.unixMinute (.ok (recordsOf b record.unixMinute items))])).records
    rw [currentIteration_append]
    exact Finset.mem_union_right _ hfound
  · simp only [Loop.step, hpoint, hnewer, getRecords_ready_ok, unwrapOrDefault] at hloop
    obtain ⟨-, rfl⟩ := Prod.ext_iff.mp (Option.some.inj hloop)
    refine ⟨found, ?_, hkey⟩
    show found ∈ (currentIteration (p.log ++ .read (.newer p.loop.iteration) record.unixMinute
      (.ok (recordsOf b record.unixMinute items)) :: (Loop.fetched b p.loop w older
        (recordsOf b record.unixMinute items)).2)).records
    rw [List.append_cons, currentIteration_append]
    refine records_subset_noteAll ?_ _ ?_
    · unfold Loop.fetched
      split
      · exact not_isClock_publishIfDue p.loop w _
      · simp
    · rw [currentIteration_append]
      exact Finset.mem_union_right _ hfound

theorem exists_asked_of_record {startMinute : UInt64} {p : Process X}
    (h : Reachable cfg b startMinute p) (hpast : pastJoining p.loop.point = true)
    (hgoing : (currentIteration p.log).stoppedEarly = false) {record : Record}
    (hrecord : record ∈ (currentIteration p.log).records)
    (hendpoint : X.isEndpointId record.pubKey = true) :
    ∃ peer ∈ (currentIteration p.log).asked, peer.bytes = record.pubKey := by
  obtain ⟨node, hnode, hbytes⟩ := mem_bootstrapNodes hrecord hendpoint
  have hdone := ((covering_of_reachable h).done hpast).2 hgoing
  rw [← hdone] at hnode
  exact ⟨node, List.mem_toFinset.mp hnode, hbytes⟩

/-- Once a put of `a` for a minute has completed, an iteration of `b` that reads the slot
of that minute completely asks gossip to join `a` before it is past its loop over the
candidates, unless a settle check finds a neighbour or fails and ends that loop, however the
two nodes and the writers of other items interleave. -/
theorem joins_published_peer (hsign : SignsCorrectly X) (hencrypts : EncryptsCorrectly X)
    (hendpoints : HonestEndpoints X) (hshares : SharesSlots a b) (hne : a.pubKey ≠ b.pubKey)
    {dht : SlotAddress → List MutableItem} {startMinute : UInt64} {w₁ w₂ w₃ : World X}
    {before after : List (WorldLabel X)} {record : Record} {items : List MutableItem}
    (hbefore : run (World.step cfg a b) (World.start cfg b dht startMinute) before = some w₁)
    (hcompleted : record ∈ w₁.completed)
    (hreads : FetchesNext record.unixMinute w₁.process.loop.point)
    (hitems : ∀ item ∈ w₁.dht (b.slotAddress record.unixMinute), item ∈ items)
    (hread : World.step cfg a b w₁ (.process (.loop (.records (.ready (.ok items))))) = some w₂)
    (hafter : run (World.step cfg a b) w₂ after = some w₃)
    (hiteration : w₃.process.loop.iteration = w₂.process.loop.iteration)
    (hpast : pastJoining w₃.process.loop.point = true)
    (hgoing : (currentIteration w₃.process.log).stoppedEarly = false) :
    ∃ peer ∈ (currentIteration w₃.process.log).asked, peer.bytes = a.pubKey := by
  have hstart : Published a b (World.start cfg b dht startMinute) :=
    ⟨by simp [World.start], by simp [World.start], by simp [World.start]⟩
  have hpublished := run_preserves (published_of_step hsign hencrypts hshares hne) hbefore hstart
  obtain ⟨hkey, item, hitem, hvalid⟩ := hpublished.found record hcompleted
  have hreach₁ : Reachable cfg b startMinute w₁.process :=
    process_of_run (fun p label q hstep hp => reachable_of_step hp hstep) hbefore ⟨[], rfl⟩
  obtain ⟨process, hprocess, rfl⟩ := World.exists_of_step_process hread
  have hreach₃ : Reachable cfg b startMinute w₃.process :=
    process_of_run (fun p label q hstep hp => reachable_of_step hp hstep) hafter
      (reachable_of_step hreach₁ hprocess)
  have hnoted := readIn_of_read hreads ⟨item, hitems item hitem, hvalid⟩ hprocess
  obtain ⟨-, hlater⟩ := process_of_run readIn_of_step hafter hnoted
  obtain ⟨found, hfound, hfoundKey⟩ := hlater hiteration
  have hpublisher : found.pubKey = a.pubKey := hfoundKey.trans hkey
  have hendpoint : X.isEndpointId found.pubKey = true :=
    hpublisher ▸ isEndpointId_pubKey hendpoints a
  obtain ⟨peer, hpeer, hbytes⟩ := exists_asked_of_record hreach₃ hpast hgoing hfound hendpoint
  exact ⟨peer, hpeer, hbytes.trans hpublisher⟩

def joinAfterRead : List (WorldLabel reference) :=
  [.process (.loop (.isJoined (.ok false))),
    .process (.loop (.visit [sampleEndpoint 1])),
    .process (.loop (.joinPeers (.ok ()))), .process (.loop (.woke .slept)),
    .process (.loop (.isJoined (.ok false)))]

theorem joins_published_peer_sample :
    ∃ w₁ w₂ w₃ : World reference,
      run (World.step {} (samplePublisher 1 {}) (samplePublisher 2 {}))
        (World.start {} (samplePublisher 2 {}) (fun _ => []) 7) publishBeforeRead = some w₁ ∧
      World.step {} (samplePublisher 1 {}) (samplePublisher 2 {}) w₁
        (.process (.loop (.records (.ready (.ok
          (w₁.dht ((samplePublisher 2 {}).slotAddress 7))))))) = some w₂ ∧
      run (World.step {} (samplePublisher 1 {}) (samplePublisher 2 {})) w₂ joinAfterRead =
        some w₃ ∧
      ∃ peer ∈ (currentIteration w₃.process.log).asked,
        peer.bytes = (samplePublisher 1 {}).pubKey := by
  have hrun : ∃ w₁ ∈ run (World.step {} (samplePublisher 1 {}) (samplePublisher 2 {}))
        (World.start {} (samplePublisher 2 {}) (fun _ => []) 7) publishBeforeRead,
      w₁.process.loop.point = .fetchNewer ⟨7, 0, true⟩ ∅ ∧
      (∃ record ∈ w₁.completed, record.unixMinute = 7) ∧
      ∃ w₂ ∈ World.step {} (samplePublisher 1 {}) (samplePublisher 2 {}) w₁
        (.process (.loop (.records (.ready (.ok
          (w₁.dht ((samplePublisher 2 {}).slotAddress 7))))))),
      ∃ w₃ ∈ run (World.step {} (samplePublisher 1 {}) (samplePublisher 2 {})) w₂ joinAfterRead,
      w₃.process.loop.iteration = w₂.process.loop.iteration ∧
        pastJoining w₃.process.loop.point = true ∧
        (currentIteration w₃.process.log).stoppedEarly = false := by
    decide +kernel
  obtain ⟨w₁, hbefore, hpoint, ⟨record, hcompleted, hminute⟩, w₂, hread, w₃, hafter,
    hiteration, hpast, hgoing⟩ := hrun
  refine ⟨w₁, w₂, w₃, hbefore, hread, hafter, ?_⟩
  have hshares : SharesSlots (samplePublisher 1 {}) (samplePublisher 2 {}) := ⟨rfl, rfl, rfl⟩
  exact joins_published_peer reference_signsCorrectly reference_encryptsCorrectly
    reference_honestEndpoints hshares (by decide) hbefore hcompleted
    ⟨_, .inr ⟨∅, hpoint, hminute.symm⟩⟩ (fun item hitem => hminute ▸ hitem) hread hafter
    hiteration hpast hgoing

end TopicTracker.PeerJoining
