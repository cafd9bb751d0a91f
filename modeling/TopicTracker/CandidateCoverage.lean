import TopicTracker.MinimalDisruption

namespace TopicTracker.CandidateCoverage

open TopicTracker.Configuration
open TopicTracker.RustValues
open TopicTracker.ThirdParty
open TopicTracker.RecordCodec
open TopicTracker.RecordRetrieval
open TopicTracker.RecordPublishing
open TopicTracker.BootstrapLoop
open TopicTracker.BootstrapTransition
open TopicTracker.BootstrapProcess
open TopicTracker.StepMachine
open TopicTracker.JoinSteps
open TopicTracker.PeerMerging
open TopicTracker.JoinCandidates
open TopicTracker.JoinFanOut
open TopicTracker.MinimalDisruption
open TopicTracker.ReferenceExternals (reference)

variable {X : Externals}

/-- What the log tells of the current iteration: its clock reading, the records of its two
reads, the peers it asked for, and whether a settle check ended its `for` loop. -/
structure IterationLog (X : Externals) where
  minute : UInt64
  records : Finset Record
  asked : List (EndpointId X)
  stoppedEarly : Bool

def note (it : IterationLog X) : Event X → IterationLog X
  | .clock unixMinute => ⟨unixMinute, ∅, [], false⟩
  | .read (.older _) _ result => { it with records := it.records ∪ unwrapOrDefault result }
  | .read (.newer _) _ result => { it with records := it.records ∪ unwrapOrDefault result }
  | .joinRequested peers => { it with asked := it.asked ++ peers }
  | .checked .settle (.ok true) => { it with stoppedEarly := true }
  | .checked .settle (.error _) => { it with stoppedEarly := true }
  | _ => it

def noteAll (it : IterationLog X) (events : List (Event X)) : IterationLog X :=
  events.foldl note it

def currentIteration (log : List (Event X)) : IterationLog X := noteAll ⟨0, ∅, [], false⟩ log

def Unnoted (event : Event X) : Prop := ∀ it, note it event = it

/-- The iteration asks for candidates only, and for each of them at most once. -/
def Sound (rp : RecordPublisher X) (it : IterationLog X) : Prop :=
  it.asked.Nodup ∧ it.asked.toFinset ⊆ bootstrapNodes rp it.records

/-- It has asked for every candidate, unless a settle check ended the loop over them. -/
def Done (rp : RecordPublisher X) (it : IterationLog X) : Prop :=
  Sound rp it ∧ (it.stoppedEarly = false → it.asked.toFinset = bootstrapNodes rp it.records)

def Unasked (it : IterationLog X) : Prop := it.asked = [] ∧ it.stoppedEarly = false

/-- What it has still to ask for completes the candidates. -/
structure Asks (rp : RecordPublisher X) (it : IterationLog X) (rest : List (EndpointId X)) :
    Prop where
  nodup : (it.asked ++ rest).Nodup
  complete : (it.asked ++ rest).toFinset = bootstrapNodes rp it.records
  going : it.stoppedEarly = false

/-- What the point of the loop means for its current iteration. -/
def Covering (rp : RecordPublisher X) : Point X → IterationLog X → Prop
  | .fetchOlder _, it => it.records = ∅ ∧ Unasked it
  | .fetchNewer _ older, it => it.records = older ∧ Unasked it
  | .preJoinCheck _ _ nodes, it => bootstrapNodes rp it.records = nodes ∧ Unasked it
  | .startJoining _ _ nodes, it => bootstrapNodes rp it.records = nodes ∧ Unasked it
  | .joining _ _ _ rest, it => Asks rp it rest
  | .settling _ _ rest, it => Asks rp it rest
  | .settleCheck _ _ rest, it => Asks rp it rest
  | .exited, it => Sound rp it
  | _, it => Done rp it

variable {cfg : BootstrapConfig} {rp : RecordPublisher X} {it : IterationLog X}

theorem noteAll_append (it : IterationLog X) (events events' : List (Event X)) :
    noteAll it (events ++ events') = noteAll (noteAll it events) events' :=
  List.foldl_append

theorem noteAll_of_unnoted {events : List (Event X)} (h : ∀ event ∈ events, Unnoted event)
    (it : IterationLog X) : noteAll it events = it := by
  induction events generalizing it with
  | nil => rfl
  | cons event events ih =>
      obtain ⟨hfirst, hrest⟩ := List.forall_mem_cons.mp h
      rw [noteAll, List.foldl_cons, hfirst it]
      exact ih hrest it

theorem unnoted_publishIfDue (l : Loop X) (w : Window) (current : Finset Record) :
    ∀ event ∈ (Loop.publishIfDue rp l w current).2, Unnoted event := by
  intro event hevent
  obtain ⟨content, rfl⟩ := mem_publishIfDue hevent
  exact fun it => rfl

theorem unnoted_exit (l : Loop X) : ∀ event ∈ (Loop.exit l).2, Unnoted event := by
  intro event hevent
  rw [List.mem_singleton.mp hevent]
  exact fun it => rfl

theorem unnoted_publishEvents {id : Nat} {task : PublishTask} {input : PublishInput} :
    ∀ event ∈ publishEvents rp id task input, Unnoted event := by
  intro event hevent
  rcases mem_publishEvents hevent with ⟨answer, draw, -, -, -, rfl⟩ | ⟨put, -, -, rfl⟩
  · exact fun it => rfl
  · exact fun it => rfl

theorem Unasked.sound (h : Unasked it) : Sound rp it := by
  rw [Sound, h.1]
  exact ⟨List.nodup_nil, Finset.empty_subset _⟩

theorem Asks.sound {rest : List (EndpointId X)} (h : Asks rp it rest) : Sound rp it := by
  refine ⟨h.nodup.of_append_left, ?_⟩
  rw [← h.complete, List.toFinset_append]
  exact Finset.subset_union_left

theorem Covering.sound {point : Point X} (h : Covering rp point it) : Sound rp it := by
  cases point with
  | fetchOlder w => exact h.2.sound
  | fetchNewer w older => exact h.2.sound
  | preJoinCheck w current nodes => exact h.2.sound
  | startJoining w current nodes => exact h.2.sound
  | joining w current peer rest => exact Asks.sound h
  | settling w current rest => exact Asks.sound h
  | settleCheck w current rest => exact Asks.sound h
  | exited => exact h
  | _ => exact h.1

theorem Unasked.done (h : Unasked it) (hnone : it.records = ∅) : Done rp it := by
  refine ⟨h.sound, fun _ => ?_⟩
  rw [h.1, hnone]
  rfl

theorem Asks.done (h : Asks rp it []) : Done rp it := by
  refine ⟨h.sound, fun _ => ?_⟩
  rw [← h.complete, List.append_nil]

theorem done_of_stopped (h : Sound rp it) : Done rp { it with stoppedEarly := true } :=
  ⟨h, fun hgoing => by cases hgoing⟩

section Steps

variable {l : Loop X}

theorem Covering.of_eq {l' : Loop X} {events : List (Event X)}
    {next : Loop X × List (Event X)} (h : some next = some (l', events))
    (hnext : Covering rp next.1.point (noteAll it next.2)) :
    Covering rp l'.point (noteAll it events) := by
  obtain rfl := Option.some.inj h
  exact hnext

theorem covering_exit (hsound : Sound rp it) (events : List (Event X))
    (hevents : ∀ event ∈ events, Unnoted event) :
    Covering rp .exited (noteAll it (events ++ (Loop.exit l).2)) := by
  rw [noteAll_append, noteAll_of_unnoted hevents, noteAll_of_unnoted (unnoted_exit l)]
  exact hsound

theorem covering_checkOrExit {site : CheckSite} {answer : Result Bool} {next : Point X}
    (hsite : site ≠ .settle) (hsound : Sound rp it) (hnext : Covering rp next it) :
    Covering rp (Loop.checkOrExit l site answer next).1.point
      (noteAll it (Loop.checkOrExit l site answer next).2) := by
  have hchecked : ∀ event ∈ [Event.checked (X := X) site answer], Unnoted event := by
    intro event hevent it
    rw [List.mem_singleton.mp hevent]
    cases site with
    | settle => exact absurd rfl hsite
    | _ => rfl
  cases answer with
  | error fault => exact covering_exit hsound _ hchecked
  | ok joined =>
      cases joined with
      | true => exact covering_exit (l := { l with isJoinedRet := true }) hsound _ hchecked
      | false =>
          show Covering rp next (noteAll it [.checked site (.ok false)])
          rw [noteAll_of_unnoted hchecked]
          exact hnext

theorem covering_wakeOrExit {wake : Wake} {next : Point X} (hsound : Sound rp it)
    (hnext : Covering rp next it) :
    Covering rp (Loop.wakeOrExit l wake next).1.point
      (noteAll it (Loop.wakeOrExit l wake next).2) := by
  cases wake with
  | cancelled => exact covering_exit hsound [] (by simp)
  | _ => exact hnext

theorem covering_nextPeer {w : Window} {current : Finset Record} {rest : List (EndpointId X)}
    (h : Asks rp it rest) :
    Covering rp (Loop.nextPeer l w current rest).1.point
      (noteAll it (Loop.nextPeer l w current rest).2) := by
  cases rest with
  | nil => exact h.done
  | cons peer rest =>
      have hasked : (noteAll it [.joinRequested [peer]]).asked ++ rest =
          it.asked ++ peer :: rest := (List.append_cons it.asked peer rest).symm
      exact ⟨hasked ▸ h.nodup, hasked ▸ h.complete, h.going⟩

theorem covering_fetched {w : Window} {older current : Finset Record} {reader : Reader}
    {slot : UInt64} {result : Result (Finset Record)} (hreader : ∃ i, reader = .newer i)
    (hresult : unwrapOrDefault result = current) (holder : it.records = older)
    (hunasked : Unasked it) :
    Covering rp (Loop.fetched rp l w older current).1.point
      (noteAll it (.read reader slot result :: (Loop.fetched rp l w older current).2)) := by
  obtain ⟨i, rfl⟩ := hreader
  have hread : note it (.read (.newer i) slot result) =
      { it with records := older ∪ current } := by
    rw [← holder, ← hresult]
    rfl
  have hunasked' : Unasked { it with records := older ∪ current } := hunasked
  unfold Loop.fetched
  split
  · next hnone =>
      show Done rp (noteAll (note it _) _)
      rw [noteAll_of_unnoted (unnoted_publishIfDue l w current), hread]
      exact hunasked'.done hnone
  · show bootstrapNodes rp (note it (.read (.newer i) slot result)).records = _ ∧
      Unasked (note it (.read (.newer i) slot result))
    rw [hread]
    exact ⟨rfl, hunasked'⟩

theorem covering_finalChecked {w : Window} {current : Finset Record} {answer : Result Bool}
    (h : Done rp it) : Covering rp (Loop.finalChecked rp l w current answer).1.point
      (noteAll it (Loop.finalChecked rp l w current answer).2) := by
  unfold Loop.finalChecked
  split
  · show Done rp (noteAll it (Loop.publishIfDue rp l w current).2)
    rw [noteAll_of_unnoted (unnoted_publishIfDue l w current)]
    exact h
  · exact covering_checkOrExit (by decide) h.1 h

theorem covering_joining {w : Window} {current : Finset Record} {peer : EndpointId X}
    {rest : List (EndpointId X)} {result : Result Unit} {l' : Loop X} {events : List (Event X)}
    (hpoint : l.point = .joining w current peer rest) (hasks : Asks rp it rest)
    (h : l.step cfg rp (.joinPeers result) = some (l', events)) :
    Covering rp l'.point (noteAll it events) := by
  simp only [Loop.step, hpoint] at h
  cases result with
  | ok =>
      apply Covering.of_eq h
      exact hasks
  | error fault =>
      apply Covering.of_eq h
      exact covering_nextPeer hasks

theorem covering_settleCheck {w : Window} {current : Finset Record} {rest : List (EndpointId X)}
    {answer : Result Bool} {l' : Loop X} {events : List (Event X)}
    (hpoint : l.point = .settleCheck w current rest) (hasks : Asks rp it rest)
    (h : l.step cfg rp (.isJoined answer) = some (l', events)) :
    Covering rp l'.point (noteAll it events) := by
  simp only [Loop.step, hpoint] at h
  cases answer with
  | error fault =>
      apply Covering.of_eq h
      exact done_of_stopped hasks.sound
  | ok joined =>
      cases joined with
      | true =>
          apply Covering.of_eq h
          exact done_of_stopped hasks.sound
      | false =>
          apply Covering.of_eq h
          exact covering_nextPeer hasks

theorem covering_confirmCheck {w : Window} {current : Finset Record} {answer : Result Bool}
    {l' : Loop X} {events : List (Event X)} (hpoint : l.point = .confirmCheck w current)
    (hdone : Done rp it) (h : l.step cfg rp (.isJoined answer) = some (l', events)) :
    Covering rp l'.point (noteAll it events) := by
  simp only [Loop.step, hpoint] at h
  cases answer with
  | error fault =>
      apply Covering.of_eq h
      exact covering_checkOrExit (by decide) hdone.1 hdone
  | ok joined =>
      cases joined with
      | true =>
          apply Covering.of_eq h
          exact hdone
      | false =>
          apply Covering.of_eq h
          exact covering_checkOrExit (by decide) hdone.1 hdone

/-- Every step of the loop keeps the account of its iteration. -/
theorem covering_of_step {l' : Loop X} {input : Input X} {events : List (Event X)}
    (h : l.step cfg rp input = some (l', events)) (hcovering : Covering rp l.point it) :
    Covering rp l'.point (noteAll it events) := by
  have hsound := hcovering.sound
  have hstep := h
  unfold Loop.step at h
  split at h
  · apply Covering.of_eq h
    exact covering_exit hsound [] (by simp)
  · next hpoint =>
      apply Covering.of_eq h
      rw [hpoint] at hcovering
      exact hcovering
  · next hpoint =>
      apply Covering.of_eq h
      rw [hpoint] at hcovering
      exact covering_checkOrExit (by decide) hsound hcovering
  · apply Covering.of_eq h
    exact ⟨rfl, rfl, rfl⟩
  · next hpoint =>
      apply Covering.of_eq h
      rw [hpoint] at hcovering
      obtain ⟨hnone, hunasked⟩ := hcovering
      exact ⟨by simp [noteAll, note, hnone], hunasked⟩
  · next hpoint =>
      apply Covering.of_eq h
      rw [hpoint] at hcovering
      exact covering_fetched ⟨_, rfl⟩ rfl hcovering.1 hcovering.2
  · next hpoint =>
      apply Covering.of_eq h
      rw [hpoint] at hcovering
      exact covering_wakeOrExit hsound hcovering
  · next hpoint =>
      apply Covering.of_eq h
      rw [hpoint] at hcovering
      exact covering_checkOrExit (by decide) hsound hcovering
  · next hpoint =>
      rw [hpoint] at hcovering
      obtain ⟨hnodes, hasked, hgoing⟩ := hcovering
      split at h
      · next horder =>
          apply Covering.of_eq h
          refine covering_nextPeer ⟨?_, ?_, hgoing⟩
          · rw [hasked]
            exact horder.1
          · rw [hasked, hnodes]
            exact horder.2
      · cases h
  · next hpoint =>
      rw [hpoint] at hcovering
      exact covering_joining hpoint hcovering hstep
  · next hpoint =>
      apply Covering.of_eq h
      rw [hpoint] at hcovering
      exact covering_wakeOrExit hsound hcovering
  · next hpoint =>
      rw [hpoint] at hcovering
      exact covering_settleCheck hpoint hcovering hstep
  · next hpoint =>
      rw [hpoint] at hcovering
      exact covering_confirmCheck hpoint hcovering hstep
  · next hpoint =>
      apply Covering.of_eq h
      rw [hpoint] at hcovering
      exact covering_wakeOrExit hsound hcovering
  · next hpoint =>
      apply Covering.of_eq h
      rw [hpoint] at hcovering
      exact covering_finalChecked hcovering
  · next hpoint =>
      apply Covering.of_eq h
      rw [hpoint] at hcovering
      exact covering_wakeOrExit hsound hcovering
  · cases h

end Steps

section Runs

variable {p : Process X} {unixMinute : UInt64}

theorem currentIteration_append (log events : List (Event X)) :
    currentIteration (log ++ events) = noteAll (currentIteration log) events :=
  noteAll_append _ log events

theorem currentIteration_startup : currentIteration (startupEvents cfg rp unixMinute) =
    ⟨if cfg.publishRecordOnStartup = true then unixMinute else 0, ∅, [], false⟩ := by
  unfold startupEvents
  split
  · have hinitiate : ∀ event ∈ Loop.initiate rp none unixMinute none, Unnoted event := by
      intro event hevent
      obtain ⟨content, rfl⟩ := mem_initiate hevent
      exact fun it => rfl
    exact noteAll_of_unnoted hinitiate _
  · rfl

theorem covering_of_reachable (h : Reachable cfg rp unixMinute p) :
    Covering rp p.loop.point (currentIteration p.log) := by
  refine h.induction (P := fun p => Covering rp p.loop.point (currentIteration p.log)) ?_ ?_
  · show Done rp (currentIteration (startupEvents cfg rp unixMinute))
    rw [currentIteration_startup]
    exact Unasked.done ⟨rfl, rfl⟩ rfl
  · intro p label q hstep hp
    cases label with
    | loop input =>
        obtain ⟨loop, events, hloop, rfl⟩ := exists_of_step_loop hstep
        rw [currentIteration_append]
        exact covering_of_step hloop hp
    | publish id input =>
        obtain ⟨publish, task, -, -, rfl⟩ := exists_of_step_publish hstep
        rw [currentIteration_append, noteAll_of_unnoted unnoted_publishEvents]
        exact hp

end Runs

def pastJoining : Point X → Bool
  | .noPeersWait _ => true
  | .confirmCheck _ _ => true
  | .confirmWait _ _ => true
  | .finalCheck _ _ => true
  | .pollWait _ => true
  | _ => false

theorem Covering.done {point : Point X} (h : Covering rp point it)
    (hpast : pastJoining point = true) : Done rp it := by
  cases point with
  | noPeersWait w => exact h
  | confirmCheck w current => exact h
  | confirmWait w current => exact h
  | finalCheck w current => exact h
  | pollWait w => exact h
  | _ => cases hpast

/-- An iteration asks for none but the candidates of the records it has read, for each
of them at most once, and has asked for every one when it is past its loop over them,
unless a settle check found a neighbour or failed and ended the loop. -/
theorem asked_eq_bootstrapNodes {unixMinute : UInt64} {p : Process X}
    (h : Reachable cfg rp unixMinute p) :
    Sound rp (currentIteration p.log) ∧
      (pastJoining p.loop.point = true → (currentIteration p.log).stoppedEarly = false →
        (currentIteration p.log).asked.toFinset =
          bootstrapNodes rp (currentIteration p.log).records) := by
  have hcovering := covering_of_reachable h
  exact ⟨hcovering.sound, fun hpast hgoing => (hcovering.done hpast).2 hgoing⟩

def fruitlessRun : List (Label reference) :=
  settledJoinRun ++ [.loop (.joinPeers (.ok ())), .loop (.woke .slept),
    .loop (.isJoined (.ok false)), .loop (.isJoined (.ok false)), .loop (.woke .slept),
    .loop (.isJoined (.ok false))]

theorem asked_eq_bootstrapNodes_fruitlessRun :
    ∃ p ∈ run (Process.step {} (samplePublisher 2 {}))
        (Process.start {} (samplePublisher 2 {}) 7) fruitlessRun,
      (currentIteration p.log).asked = [sampleEndpoint 1, sampleEndpoint 3] ∧
        (currentIteration p.log).asked.toFinset =
          bootstrapNodes (samplePublisher 2 {}) (currentIteration p.log).records := by
  have hrun : ∃ p ∈ run (Process.step {} (samplePublisher 2 {}))
        (Process.start {} (samplePublisher 2 {}) 7) fruitlessRun,
      pastJoining p.loop.point = true ∧
        (currentIteration p.log).asked = [sampleEndpoint 1, sampleEndpoint 3] ∧
        (currentIteration p.log).stoppedEarly = false := by
    decide +kernel
  obtain ⟨p, hp, hpast, hasked, hgoing⟩ := hrun
  exact ⟨p, hp, hasked, (asked_eq_bootstrapNodes ⟨fruitlessRun, hp⟩).2 hpast hgoing⟩

section Freshness

variable {p q : Process X} {unixMinute : UInt64} {overflowChecks : Bool}

/-- The record is signed for the topic by another node, and for a minute that the clock
had reached, at most two minutes ago. -/
structure Fresh (rp : RecordPublisher X) (clock : UInt64) (record : Record) : Prop where
  verifies : record.verify X rp.topicId.hash record.unixMinute = .ok ()
  foreign : record.pubKey ≠ rp.pubKey
  reached : record.unixMinute ≤ clock
  recent : clock.toNat ≤ record.unixMinute.toNat + 2

def WindowOf (unixMinute : UInt64) (w : Window) : Prop :=
  w.currentUnixMinute = unixMinute ∧ (w.unixMinuteOffset = 0 ∨ w.unixMinuteOffset = 1)

/-- The reads that are left to do are those of the iteration's window, and the records
that were read are fresh. -/
structure ReadsFresh (rp : RecordPublisher X) (point : Point X) (it : IterationLog X) : Prop where
  older : ∀ w, point = .fetchOlder w → WindowOf it.minute w
  newer : ∀ w records, point = .fetchNewer w records → WindowOf it.minute w
  fresh : ∀ record ∈ it.records, Fresh rp it.minute record

theorem windowOf_select (lastPublishedUnixMinute currentUnixMinute : UInt64) :
    WindowOf currentUnixMinute
      (Window.select cfg lastPublishedUnixMinute currentUnixMinute) := by
  unfold Window.select
  split
  · exact ⟨rfl, .inr rfl⟩
  · exact ⟨rfl, .inl rfl⟩

theorem toNat_newer {minute : UInt64} {w : Window} (h : WindowOf minute w) :
    w.newer.toNat ≤ minute.toNat ∧ minute.toNat ≤ w.newer.toNat + 1 := by
  obtain ⟨rfl, hoffset⟩ := h
  rw [Window.newer, saturatingSub_toNat]
  rcases hoffset with hoffset | hoffset
  · rw [hoffset, UInt64.toNat_zero]
    omega
  · rw [hoffset, UInt64.toNat_one]
    omega

theorem toNat_older {minute : UInt64} {w : Window} (h : WindowOf minute w) :
    w.older.toNat ≤ minute.toNat ∧ minute.toNat ≤ w.older.toNat + 2 := by
  obtain ⟨rfl, hoffset⟩ := h
  rw [Window.older, saturatingSub_toNat]
  rcases hoffset with hoffset | hoffset
  · rw [hoffset, show ((0 : UInt64) + 1).toNat = 1 from rfl]
    omega
  · rw [hoffset, show ((1 : UInt64) + 1).toNat = 2 from rfl]
    omega

theorem fresh_of_getRecords {minute slot : UInt64} {answer : Awaited (List MutableItem)}
    (hslot : slot.toNat ≤ minute.toNat ∧ minute.toNat ≤ slot.toNat + 2) :
    ∀ record ∈ unwrapOrDefault (rp.getRecords slot answer), Fresh rp minute record := by
  intro record hrecord
  cases hread : rp.getRecords slot answer with
  | error fault =>
      rw [hread] at hrecord
      simp [unwrapOrDefault] at hrecord
  | ok records =>
      obtain ⟨items, -, rfl⟩ := getRecords_eq_ok_iff.mp hread
      rw [hread] at hrecord
      obtain ⟨item, -, encryptedRecord, -, -, hverify, hforeign⟩ :=
        (mem_recordsOf_iff.mp hrecord).valid
      obtain rfl := ((verify_eq_ok_iff X record _ _).mp hverify).2.1
      exact ⟨hverify, hforeign, UInt64.le_iff_toNat_le.mpr hslot.1, hslot.2⟩

def KeepsRecords (event : Event X) : Prop :=
  ∀ it, (note it event).minute = it.minute ∧ (note it event).records = it.records

theorem keepsRecords_of_unnoted {event : Event X} (h : Unnoted event) : KeepsRecords event := by
  intro it
  rw [h it]
  exact ⟨rfl, rfl⟩

theorem keepsRecords_checked (site : CheckSite) (answer : Result Bool) :
    KeepsRecords (Event.checked (X := X) site answer) := by
  intro it
  cases answer with
  | error fault => cases site <;> exact ⟨rfl, rfl⟩
  | ok joined => cases joined <;> cases site <;> exact ⟨rfl, rfl⟩

theorem keepsRecords_of_quiet {event : Event X} (h : Quiet event) : KeepsRecords event := by
  cases event with
  | checked site answer => exact keepsRecords_checked site answer
  | joinRequested peers => exact fun it => ⟨rfl, rfl⟩
  | joinCompleted result => exact fun it => ⟨rfl, rfl⟩
  | _ => exact h.elim

theorem noteAll_of_keepsRecords {events : List (Event X)}
    (h : ∀ event ∈ events, KeepsRecords event) (it : IterationLog X) :
    (noteAll it events).minute = it.minute ∧ (noteAll it events).records = it.records := by
  induction events generalizing it with
  | nil => exact ⟨rfl, rfl⟩
  | cons event events ih =>
      obtain ⟨hfirst, hrest⟩ := List.forall_mem_cons.mp h
      obtain ⟨hminute, hrecords⟩ := ih hrest (note it event)
      exact ⟨hminute.trans (hfirst it).1, hrecords.trans (hfirst it).2⟩

theorem ReadsFresh.of_keeps {point next : Point X} (h : ReadsFresh rp point it)
    (holder : ∀ w, next ≠ .fetchOlder w) (hnewer : ∀ w records, next ≠ .fetchNewer w records)
    {events : List (Event X)} (hevents : ∀ event ∈ events, KeepsRecords event) :
    ReadsFresh rp next (noteAll it events) := by
  obtain ⟨hminute, hrecords⟩ := noteAll_of_keepsRecords hevents it
  refine ⟨fun w hw => absurd hw (holder w), fun w records hw => absurd hw (hnewer w records), ?_⟩
  rw [hminute, hrecords]
  exact h.fresh

theorem ReadsFresh.read {point : Point X} (h : ReadsFresh rp point it) (next : Point X)
    (reader : Reader) {slot : UInt64} (answer : Awaited (List MutableItem))
    (hnote : note it (.read reader slot (rp.getRecords slot answer)) =
      { it with records := it.records ∪ unwrapOrDefault (rp.getRecords slot answer) })
    (hslot : slot.toNat ≤ it.minute.toNat ∧ it.minute.toNat ≤ slot.toNat + 2)
    (holder : ∀ w, next ≠ .fetchOlder w)
    (hnewer : ∀ w records, next = .fetchNewer w records → WindowOf it.minute w) :
    ReadsFresh rp next (note it (.read reader slot (rp.getRecords slot answer))) := by
  rw [hnote]
  refine ⟨fun w hw => absurd hw (holder w), hnewer, ?_⟩
  intro record hrecord
  rcases Finset.mem_union.mp hrecord with hold | hnew
  · exact h.fresh record hold
  · exact fresh_of_getRecords hslot record hnew

theorem readsFresh_of_transition {l l' : Loop X} {input : Input X} {events : List (Event X)}
    (htransition : Transition cfg rp l input l' events) (h : ReadsFresh rp l.point it) :
    ReadsFresh rp l'.point (noteAll it events) := by
  cases htransition with
  | tick m hpoint =>
      refine ⟨?_, fun w records hw => (by cases hw), fun record hrecord => (by cases hrecord)⟩
      intro w hw
      obtain rfl := Point.fetchOlder.inj hw
      exact windowOf_select _ m
  | readOlder w answer hpoint =>
      have hwindow := h.older w hpoint
      refine h.read (.fetchNewer w _) (.older l.iteration) answer rfl (toNat_older hwindow)
        (fun _ hw => by cases hw) ?_
      intro w' records hw
      obtain ⟨rfl, -⟩ := Point.fetchNewer.inj hw
      exact hwindow
  | noRecords w answer hpoint hnone =>
      have hslot := toNat_newer (h.newer w ∅ hpoint)
      have hread : ReadsFresh rp (.noPeersWait w)
          (note it (.read (.newer l.iteration) w.newer (rp.getRecords w.newer answer))) :=
        h.read _ _ answer rfl ⟨hslot.1, by omega⟩ (fun _ hw => by cases hw)
          fun _ _ hw => by cases hw
      exact hread.of_keeps (fun _ hw => by cases hw) (fun _ _ hw => by cases hw)
        fun event hevent => keepsRecords_of_unnoted (unnoted_publishIfDue l w ∅ event hevent)
  | collected w older answer hpoint =>
      have hslot := toNat_newer (h.newer w older hpoint)
      exact h.read (.preJoinCheck w _ _) (.newer l.iteration) answer rfl ⟨hslot.1, by omega⟩
        (fun _ hw => by cases hw) fun _ _ hw => by cases hw
  | notJoined w current hpoint =>
      refine h.of_keeps (fun _ hw => by cases hw) (fun _ _ hw => by cases hw) ?_
      exact List.forall_mem_cons.mpr ⟨keepsRecords_checked _ _, fun event hevent =>
        keepsRecords_of_unnoted (unnoted_publishIfDue l w current event hevent)⟩
  | settled w current rest hpoint =>
      refine h.of_keeps (fun _ hw => by cases hw) (fun _ _ hw => by cases hw) ?_
      exact List.forall_mem_singleton.mpr (keepsRecords_checked _ _)
  | moved input next events hpoint hnext hquiet =>
      refine h.of_keeps ?_ ?_ fun event hevent => keepsRecords_of_quiet (hquiet event hevent)
      · rintro w rfl
        exact hnext.elim
      · rintro w records rfl
        exact hnext.elim
  | joined site hpoint hsite =>
      refine h.of_keeps (fun _ hw => by cases hw) (fun _ _ hw => by cases hw) ?_
      exact List.forall_mem_cons.mpr ⟨keepsRecords_checked _ _,
        List.forall_mem_singleton.mpr fun it => ⟨rfl, rfl⟩⟩
  | interrupted input events hpoint hinput hquiet =>
      refine h.of_keeps (fun _ hw => by cases hw) (fun _ _ hw => by cases hw) ?_
      exact List.forall_mem_append.mpr
        ⟨fun event hevent => keepsRecords_of_quiet (hquiet event hevent),
          fun event hevent => keepsRecords_of_unnoted (unnoted_exit l event hevent)⟩

theorem readsFresh_of_reachable (h : Reachable cfg rp unixMinute p) :
    ReadsFresh rp p.loop.point (currentIteration p.log) := by
  refine h.induction (P := fun p => ReadsFresh rp p.loop.point (currentIteration p.log)) ?_
    (step_preserves ?_ ?_)
  · refine ⟨fun w hw => (by cases hw), fun w records hw => (by cases hw), ?_⟩
    show ∀ record ∈ (currentIteration (startupEvents cfg rp unixMinute)).records, _
    rw [currentIteration_startup]
    intro record hrecord
    cases hrecord
  · intro p input loop events htransition hp
    rw [currentIteration_append]
    exact readsFresh_of_transition htransition hp
  · intro p id input publish task _ _ hp
    rw [currentIteration_append, noteAll_of_unnoted unnoted_publishEvents]
    exact hp

/-- The request names one peer, which a fresh record of the iteration proposes. -/
def JustifiedRequest (rp : RecordPublisher X) (before : List (Event X))
    (peers : List (EndpointId X)) : Prop :=
  ∃ peer, peers = [peer] ∧ ∃ record ∈ (currentIteration before).records,
    Fresh rp (currentIteration before).minute record ∧ peer.bytes ∈ candidateKeys rp record

theorem exists_record_of_mem_bootstrapNodes {records : Finset Record} {peer : EndpointId X}
    (h : peer ∈ bootstrapNodes rp records) :
    ∃ record ∈ records, peer.bytes ∈ candidateKeys rp record := by
  obtain ⟨record, hrecord, hpeer⟩ := Finset.mem_biUnion.mp h
  obtain ⟨key, hkey, hnode⟩ := List.mem_filterMap.mp (List.mem_toFinset.mp hpeer)
  unfold EndpointId.fromBytes at hnode
  split at hnode
  · obtain rfl := Option.some.inj hnode
    exact ⟨record, hrecord, hkey⟩
  · cases hnode

theorem justifiedRequest_of_sound {before : List (Event X)} {peer : EndpointId X}
    (hsound : Sound rp (currentIteration (before ++ [.joinRequested [peer]])))
    (hfresh : ∀ record ∈ (currentIteration (before ++ [.joinRequested [peer]])).records,
      Fresh rp (currentIteration (before ++ [.joinRequested [peer]])).minute record) :
    JustifiedRequest rp before [peer] := by
  rw [currentIteration_append] at hsound hfresh
  have hasked : peer ∈ ((currentIteration before).asked ++ [peer]).toFinset := by simp
  obtain ⟨record, hrecord, hkey⟩ := exists_record_of_mem_bootstrapNodes (hsound.2 hasked)
  exact ⟨peer, rfl, record, hrecord, hfresh record hrecord, hkey⟩

theorem justified_of_joinStep {log events : List (Event X)} {point next : Point X}
    {input : Input X} (hstep : JoinStep point input next events)
    (h : Requests (JustifiedRequest rp) log)
    (hsound : Sound rp (currentIteration (log ++ events)))
    (hfresh : ∀ record ∈ (currentIteration (log ++ events)).records,
      Fresh rp (currentIteration (log ++ events)).minute record) :
    Requests (JustifiedRequest rp) (log ++ events) := by
  have hrequest : ∀ (before : List (Event X)) (peer : EndpointId X),
      before ++ [.joinRequested [peer]] = log ++ events →
        Requests (JustifiedRequest rp) before →
          Requests (JustifiedRequest rp) (log ++ events) := by
    intro before peer heq hbefore
    rw [← heq] at hsound hfresh ⊢
    refine requests_append_singleton.mpr ⟨hbefore, fun peers hpeers => ?_⟩
    obtain rfl := Event.joinRequested.inj hpeers
    exact justifiedRequest_of_sound hsound hfresh
  cases hstep with
  | ticked m w => exact requests_append_singleton.mpr ⟨h, fun peers heq => by cases heq⟩
  | kept input next events hnext hevents => exact h.append_of_keeps hevents
  | cleared w current nodes hpoint => exact h.append_of_keeps (by simp [KeepsAsked])
  | first w current nodes peer rest hpoint hnodup => exact hrequest log peer rfl h
  | next w current peer rest hpoint =>
      refine hrequest (log ++ [.checked .settle (.ok false)]) peer (by simp) ?_
      exact h.append_of_keeps (by simp [KeepsAsked])
  | skipped w current failed peer rest fault hpoint =>
      refine hrequest (log ++ [.joinCompleted (.error fault)]) peer (by simp) ?_
      exact h.append_of_keeps (by simp [KeepsAsked])

theorem justified_of_reachable (h : Reachable cfg rp unixMinute p) :
    Requests (JustifiedRequest rp) p.log := by
  have hboth : Reachable cfg rp unixMinute p ∧ Requests (JustifiedRequest rp) p.log := by
    refine h.induction (P := fun p => Reachable cfg rp unixMinute p ∧
      Requests (JustifiedRequest rp) p.log) ⟨⟨[], rfl⟩, ?_⟩ ?_
    · show Requests _ (startupEvents cfg rp unixMinute)
      rcases startupEvents_eq cfg rp unixMinute with hnone | ⟨events, hsome, hevents⟩
      · rw [hnone]
        exact requests_nil _
      · rw [hsome]
        refine Requests.append_of_keeps (requests_append_singleton.mpr ⟨requests_nil _, ?_⟩)
          hevents
        intro peers heq
        cases heq
    · rintro p label q hstep ⟨hreach, hp⟩
      have hq := reachable_of_step hreach hstep
      refine ⟨hq, ?_⟩
      have hsound := (covering_of_reachable hq).sound
      have hfresh := (readsFresh_of_reachable hq).fresh
      cases label with
      | loop input =>
          obtain ⟨loop, events, hloop, rfl⟩ := exists_of_step_loop hstep
          exact justified_of_joinStep (step_joinStep hloop) hp hsound hfresh
      | publish id input =>
          obtain ⟨publish, task, -, -, rfl⟩ := exists_of_step_publish hstep
          exact hp.append_of_keeps keepsAsked_publishEvents
  exact hboth.2

theorem exists_read_of_mem_records {log : List (Event X)} {record : Record}
    (h : record ∈ (currentIteration log).records) :
    ∃ reader m records, .read reader m (.ok records) ∈ log ∧ record ∈ records := by
  induction log using List.reverseRecOn with
  | nil => cases h
  | append_singleton log event ih =>
      have hearlier : record ∈ (currentIteration log).records →
          ∃ reader m records, .read reader m (.ok records) ∈ log ++ [event] ∧
            record ∈ records := by
        intro hold
        obtain ⟨reader, m, records, hread, hmem⟩ := ih hold
        exact ⟨reader, m, records, List.mem_append_left _ hread, hmem⟩
      have hresult : ∀ reader m result, event = .read reader m result →
          record ∈ unwrapOrDefault result →
            ∃ reader m records, .read reader m (.ok records) ∈ log ++ [event] ∧
              record ∈ records := by
        rintro reader m result rfl hmem
        cases result with
        | ok records => exact ⟨reader, m, records, by simp, hmem⟩
        | error fault => cases hmem
      rw [currentIteration_append] at h
      change record ∈ (note (currentIteration log) event).records at h
      cases event with
      | clock m => cases h
      | read reader m result =>
          cases reader with
          | publish id => exact hearlier h
          | _ =>
              rcases Finset.mem_union.mp h with hold | hnew
              · exact hearlier hold
              · exact hresult _ _ _ rfl hnew
      | checked site answer =>
          rw [(keepsRecords_checked site answer _).2] at h
          exact hearlier h
      | _ => exact hearlier h

/-- Whatever the DHT answers, every peer that the bootstrap loop asks for is proposed by
a record that its iteration has read before, signed by another node of the topic in the
minute of the iteration's clock or the two before. -/
theorem joinRequests_justified (h : Reachable cfg rp unixMinute p) {before : List (Event X)}
    {peers : List (EndpointId X)} (hwithin : before ++ [.joinRequested peers] <+: p.log) :
    ∃ peer, peers = [peer] ∧ ∃ record ∈ (currentIteration before).records,
      Fresh rp (currentIteration before).minute record ∧ peer.bytes ∈ candidateKeys rp record ∧
        ∃ reader m records, .read reader m (.ok records) ∈ before ∧ record ∈ records := by
  obtain ⟨peer, rfl, record, hrecord, hfresh, hkey⟩ :=
    justified_of_reachable h before peers hwithin
  exact ⟨peer, rfl, record, hrecord, hfresh, hkey, exists_read_of_mem_records hrecord⟩

theorem exists_before_of_joinRequested {log : List (Event X)} {peers : List (EndpointId X)}
    (h : peers ∈ log.filterMap joinRequested) :
    ∃ before, before ++ [.joinRequested peers] <+: log := by
  obtain ⟨event, hevent, hasked⟩ := List.mem_filterMap.mp h
  obtain rfl : event = .joinRequested peers := by
    cases event with
    | joinRequested peers => exact congrArg Event.joinRequested (Option.some.inj hasked)
    | _ => cases hasked
  obtain ⟨before, after, rfl⟩ := List.append_of_mem hevent
  exact ⟨before, after, by simp⟩

theorem joinRequests_justified_settledJoinRun :
    ∃ p ∈ run (Process.step {} (samplePublisher 2 {}))
        (Process.start {} (samplePublisher 2 {}) 7) settledJoinRun,
      ∃ before, before ++ [.joinRequested [sampleEndpoint 3]] <+: p.log ∧
        ∃ record ∈ (currentIteration before).records,
          (sampleEndpoint 3).bytes ∈ candidateKeys (samplePublisher 2 {}) record := by
  have hrun : ∃ p ∈ run (Process.step {} (samplePublisher 2 {}))
        (Process.start {} (samplePublisher 2 {}) 7) settledJoinRun,
      p.log.filterMap joinRequested = [[sampleEndpoint 1], [sampleEndpoint 3]] := by
    decide +kernel
  obtain ⟨p, hp, hrequests⟩ := hrun
  have hmem : [sampleEndpoint 3] ∈ p.log.filterMap joinRequested := by simp [hrequests]
  obtain ⟨before, hwithin⟩ := exists_before_of_joinRequested hmem
  obtain ⟨peer, hpeer, record, hrecord, -, hkey, -⟩ :=
    joinRequests_justified ⟨settledJoinRun, hp⟩ hwithin
  obtain rfl := List.singleton_inj.mp hpeer
  exact ⟨p, hp, before, hwithin, record, hrecord, hkey⟩

theorem pubKey_ne_of_joinRequested (h : Reachable cfg rp unixMinute p)
    {peers : List (EndpointId X)} (hpeers : peers ∈ p.log.filterMap joinRequested) :
    peers.Nodup ∧ ∀ peer ∈ peers, peer.bytes ≠ rp.pubKey := by
  obtain ⟨before, hwithin⟩ := exists_before_of_joinRequested hpeers
  obtain ⟨peer, rfl, record, -, hfresh, hkey⟩ := justified_of_reachable h before peers hwithin
  refine ⟨List.nodup_singleton _, List.forall_mem_singleton.mpr ?_⟩
  rcases mem_candidateKeys_iff.mp hkey with hpublisher | ⟨hne, -⟩
  · exact hpublisher ▸ hfresh.foreign
  · exact hne

theorem recordPublisher_of_startBubbleMerge {actor : BubbleMergeActor X}
    (h : actor ∈ startBubbleMerge rp) : actor.recordPublisher = rp := by
  unfold startBubbleMerge at h
  split at h
  · exact Option.some.inj h ▸ rfl
  · cases h

theorem recordPublisher_of_startMessageOverlapMerge {actor : MessageOverlapMergeActor X}
    (h : actor ∈ startMessageOverlapMerge rp) : actor.recordPublisher = rp := by
  unfold startMessageOverlapMerge at h
  split at h
  · exact Option.some.inj h ▸ rfl
  · cases h

theorem pubKey_ne_of_asksOthers {tick : Tick X} {peers : List (EndpointId X)}
    (h : AsksOthers overflowChecks rp tick peers) :
    peers.Nodup ∧ ∀ peer ∈ peers, peer.bytes ≠ rp.pubKey := by
  obtain ⟨records, neighbors, -, -, hnodup, hjoinable⟩ := h
  exact ⟨hnodup, fun peer hpeer => (hjoinable peer hpeer).1.1⟩

theorem not_mem_neighbors_of_asksOthers {tick : Tick X} {peers : List (EndpointId X)}
    (h : AsksOthers overflowChecks rp tick peers) {neighbors : Finset (EndpointId X)}
    (hneighbors : tick.neighbors = .ok neighbors) : ∀ peer ∈ peers, peer ∉ neighbors := by
  obtain ⟨records, neighbors', -, hneighbors', -, hjoinable⟩ := h
  obtain rfl := Except.ok.inj (hneighbors'.symm.trans hneighbors)
  exact fun peer hpeer => (hjoinable peer hpeer).2

/-- Over every run of its bootstrap process and every tick of its merges, a node asks for
nobody twice in a request, never for itself, and in a merge for no peer that the tick has
found among its neighbours. -/
theorem joinRequests_name_others (h : Reachable rp.config.bootstrapConfig rp unixMinute p)
    (bubbleTicks overlapTicks : List (Tick X)) :
    (∀ peers ∈ joinRequests overflowChecks rp p bubbleTicks overlapTicks,
      peers.Nodup ∧ ∀ peer ∈ peers, peer.bytes ≠ rp.pubKey) ∧
    (∀ actor ∈ startBubbleMerge rp, ∀ tick neighbors, tick.neighbors = .ok neighbors →
      ∀ peers ∈ (actor.merge overflowChecks tick).1, ∀ peer ∈ peers, peer ∉ neighbors) ∧
    ∀ actor ∈ startMessageOverlapMerge rp, ∀ tick neighbors, tick.neighbors = .ok neighbors →
      ∀ peers ∈ (actor.merge overflowChecks tick).1, ∀ peer ∈ peers, peer ∉ neighbors := by
  refine ⟨?_, ?_, ?_⟩
  · intro peers hpeers
    simp only [joinRequests, List.mem_append, List.mem_flatMap, Option.mem_toList] at hpeers
    rcases hpeers with (hloop | ⟨actor, hactor, tick, -, hmerge⟩) | ⟨actor, hactor, tick, -, hmerge⟩
    · exact pubKey_ne_of_joinRequested h hloop
    · rw [← recordPublisher_of_startBubbleMerge hactor]
      exact pubKey_ne_of_asksOthers (asksOthers_of_bubble hmerge)
    · rw [← recordPublisher_of_startMessageOverlapMerge hactor]
      exact pubKey_ne_of_asksOthers (asksOthers_of_overlap hmerge)
  · intro actor _ tick neighbors hneighbors peers hpeers
    exact not_mem_neighbors_of_asksOthers (asksOthers_of_bubble hpeers) hneighbors
  · intro actor _ tick neighbors hneighbors peers hpeers
    exact not_mem_neighbors_of_asksOthers (asksOthers_of_overlap hpeers) hneighbors

theorem joinRequests_name_others_settledJoinRun :
    ∃ p ∈ run (Process.step {} (samplePublisher 2 {}))
        (Process.start {} (samplePublisher 2 {}) 7) settledJoinRun,
      joinRequests true (samplePublisher 2 {}) p [sampleTick (bareItems 1)] [] ≠ [] ∧
        ∀ peers ∈ joinRequests true (samplePublisher 2 {}) p [sampleTick (bareItems 1)] [],
          peers.Nodup ∧ ∀ peer ∈ peers, peer.bytes ≠ (samplePublisher 2 {}).pubKey := by
  have hrun : ∃ p ∈ run (Process.step {} (samplePublisher 2 {}))
        (Process.start {} (samplePublisher 2 {}) 7) settledJoinRun,
      p.log.filterMap joinRequested = [[sampleEndpoint 1], [sampleEndpoint 3]] := by
    decide +kernel
  obtain ⟨p, hp, hrequests⟩ := hrun
  have hreachable : Reachable (samplePublisher 2 {}).config.bootstrapConfig
      (samplePublisher 2 {}) 7 p := ⟨settledJoinRun, hp⟩
  have hothers : ∀ peers ∈ joinRequests true (samplePublisher 2 {}) p [sampleTick (bareItems 1)] [],
      peers.Nodup ∧ ∀ peer ∈ peers, peer.bytes ≠ (samplePublisher 2 {}).pubKey :=
    (joinRequests_name_others hreachable [sampleTick (bareItems 1)] []).1
  have hsome : joinRequests true (samplePublisher 2 {}) p [sampleTick (bareItems 1)] [] ≠ [] := by
    rw [joinRequests, hrequests]
    simp
  exact ⟨p, hp, hsome, hothers⟩

end Freshness

end TopicTracker.CandidateCoverage
