import TopicTracker.WorkerLoop

namespace TopicTracker.WorkerProgress

open TopicTracker.RustValues
open TopicTracker.RustDuration
open TopicTracker.ThirdParty
open TopicTracker.ReferenceExternals
open TopicTracker.JitteredIntervals
open TopicTracker.StepMachine
open TopicTracker.RecordCodec
open TopicTracker.EncryptedRecordCodec
open TopicTracker.RecordRetrieval
open TopicTracker.RecordPublishing
open TopicTracker.BootstrapLoop (EndpointId)
open TopicTracker.PeerMerging
open TopicTracker.MinuteSlots
open TopicTracker.JoinCandidates
open TopicTracker.RecordAdvertising
open TopicTracker.EmittedRecords
open TopicTracker.WorkerLoop

section Panics

variable {X : Externals} {rp : RecordPublisher X} {overflowChecks : Bool}

def AnswerPanics {α : Type} (answer : Awaited α) : Prop :=
  ∃ result, answer = .ready result ∧ Panics result

/-- No answer that the round waits for is a panic. -/
structure CalmPublish (tick : PublishTick X) : Prop where
  neighbors : ¬ Panics tick.neighbors
  lastMessageHashes : ¬ Panics tick.lastMessageHashes
  answer : ¬ AnswerPanics tick.answer
  stored : ¬ Panics tick.stored

structure CalmMerge (tick : Tick X) : Prop where
  older : ¬ AnswerPanics tick.older
  newer : ¬ AnswerPanics tick.newer
  neighbors : ¬ Panics tick.neighbors
  lastMessageHashes : ¬ Panics tick.lastMessageHashes
  joined : ¬ Panics tick.joined

theorem not_panics_getRecords {answer : Awaited (List MutableItem)} (h : ¬ AnswerPanics answer)
    (unixMinute : UInt64) : ¬ Panics (rp.getRecords unixMinute answer) := by
  cases answer with
  | cancelled => exact not_panics_bail _
  | ready result =>
      exact not_panics_bind (fun hresult => h ⟨result, rfl, hresult⟩) fun _ _ => not_panics_ok _

theorem not_panics_createRecord (hserializes : SerializesContent X) {tick : PublishTick X}
    (h : CalmPublish tick) : ¬ Panics (createRecord rp tick) := by
  refine not_panics_bind h.neighbors fun neighbors _ => ?_
  refine not_panics_bind h.lastMessageHashes fun hashes _ => ?_
  obtain ⟨content, hcontent, -⟩ := recordContent_eq_ok (activePeers tick.order neighbors)
    (advertisedHashes hashes) (List.length_take_le _ _) (List.length_take_le _ _)
  obtain ⟨bytes, hbytes⟩ := hserializes content
  rw [hcontent, ok_bind, newRecord, Record.sign, RecordContent.fromArbitrary, hbytes]
  exact not_panics_ok _

theorem not_panics_publishRecord (hencrypts : EncryptsCorrectly X) {record : Record}
    {answer : Awaited (List MutableItem)} (h : ¬ AnswerPanics answer) (draw : EncryptionDraw) :
    ¬ Panics (publishRecord rp record answer draw) := by
  refine not_panics_bind (not_panics_getRecords h _) fun records _ => ?_
  unfold requestPut
  split
  · exact not_panics_ok _
  · obtain ⟨encryptedRecord, hencrypt, -⟩ :=
      encrypt_spec hencrypts record draw (rp.encryptionKey record.unixMinute)
    rw [hencrypt, ok_bind]
    refine not_panics_bind ?_ fun _ _ => not_panics_ok _
    unfold EncryptedRecord.toBytes
    split
    · exact not_panics_bail _
    · exact not_panics_ok _

theorem not_panics_publish (hencrypts : EncryptsCorrectly X) (hserializes : SerializesContent X)
    {tick : PublishTick X} (h : CalmPublish tick) : ¬ Panics (publish rp tick).2 := by
  have hrequest : ¬ Panics (publishRequest (fun _ => rp) () tick) := by
    refine not_panics_bind (not_panics_createRecord hserializes h) fun record _ => ?_
    exact not_panics_bind (not_panics_publishRecord hencrypts h.answer _) fun _ _ =>
      not_panics_ok _
  unfold publish
  split
  · exact h.stored
  · exact not_panics_ok _
  · next fault hfault =>
      rintro ⟨text, htext⟩
      exact hrequest ⟨text, hfault.trans (congrArg Except.error (Except.error.inj htext))⟩

theorem minusU64_one_panics_iff {minute : UInt64} :
    Panics (minusU64 overflowChecks minute 1) ↔ overflowChecks = true ∧ minute = 0 := by
  by_cases hminute : 1 ≤ minute
  · rw [(minusU64_one_eq_iff overflowChecks minute).mpr hminute]
    refine iff_of_false (not_panics_ok _) ?_
    rintro ⟨-, rfl⟩
    exact absurd hminute (by decide)
  · obtain rfl : minute = 0 := by
      have hlt : minute.toNat < 1 := by simpa [UInt64.le_iff_toNat_le] using hminute
      exact UInt64.toNat_inj.mp (Nat.lt_one_iff.mp hlt)
    cases overflowChecks
    · exact iff_of_false (not_panics_ok _) (by simp)
    · exact iff_of_true ⟨_, rfl⟩ ⟨rfl, rfl⟩

theorem panics_fetchRecords_iff {tick : Tick X} (h : CalmMerge tick) :
    Panics (fetchRecords overflowChecks rp tick) ↔
      overflowChecks = true ∧ tick.unixMinute = 0 := by
  rw [← minusU64_one_panics_iff]
  constructor
  · contrapose
    intro hminute
    refine not_panics_bind (not_panics_bind hminute fun _ _ => not_panics_ok _) fun slots _ => ?_
    refine not_panics_bind (not_panics_getRecords h.older _) fun _ _ => ?_
    exact not_panics_bind (not_panics_getRecords h.newer _) fun _ _ => not_panics_ok _
  · intro hminute
    exact panics_bind (panics_bind hminute _) _

theorem panics_sendRequest_iff {tick : Tick X} (hjoined : ¬ Panics tick.joined)
    {request : Result (Option (List (EndpointId X)))} :
    Panics (sendRequest tick request).2 ↔ Panics request := by
  unfold sendRequest
  split
  · next fault =>
      constructor <;> rintro ⟨text, h⟩ <;>
        exact ⟨text, congrArg Except.error (Except.error.inj h)⟩
  · exact iff_of_false (not_panics_ok _) (not_panics_ok _)
  · exact iff_of_false hjoined (not_panics_ok _)

/-- A round of a bubble merge panics in clock minute 0 of a build with overflow checks. -/
theorem panics_bubble_merge_iff (self : BubbleMergeActor X) {tick : Tick X} (h : CalmMerge tick) :
    Panics (self.merge overflowChecks tick).2 ↔ overflowChecks = true ∧ tick.unixMinute = 0 := by
  rw [BubbleMergeActor.merge, panics_sendRequest_iff h.joined, ← panics_fetchRecords_iff h]
  constructor
  · contrapose
    intro hfetch
    refine not_panics_bind hfetch fun records _ => not_panics_bind h.neighbors fun neighbors _ => ?_
    dsimp only
    split
    · split
      · exact not_panics_ok _
      · exact not_panics_ok _
    · exact not_panics_ok _
  · intro hfetch
    exact panics_bind hfetch _

theorem panics_overlap_merge_iff (self : MessageOverlapMergeActor X) {tick : Tick X}
    (h : CalmMerge tick) : Panics (self.merge overflowChecks tick).2 ↔
      overflowChecks = true ∧ tick.unixMinute = 0 := by
  rw [MessageOverlapMergeActor.merge, panics_sendRequest_iff h.joined,
    ← panics_fetchRecords_iff h]
  constructor
  · contrapose
    intro hfetch
    refine not_panics_bind hfetch fun records _ =>
      not_panics_bind h.lastMessageHashes fun localHashes _ => ?_
    dsimp only
    split
    · refine not_panics_bind h.neighbors fun activeNeighbors _ => ?_
      split
      · exact not_panics_ok _
      · exact not_panics_ok _
    · exact not_panics_ok _
  · intro hfetch
    exact panics_bind hfetch _

end Panics

section Progress

variable {ι ω : Type} {actor : WorkerActor ι ω} {timer : Timer} {now opening : Nat}
  {s s₀ t : LoopState ω} {harmless : ι → Prop}

def dueBy (actor : WorkerActor ι ω) (opening : Nat) (s : LoopState ω) : Nat :=
  match s.turns.getLast? with
  | none => opening
  | some turn => turn.finished + actor.baseInterval.nanos + actor.maxJitter.nanos

structure Prompt (actor : WorkerActor ι ω) (opening : Nat) (s : LoopState ω) : Prop where
  running : s.phase = .running
  deadline : s.deadline ≤ dueBy actor opening s
  now : s.now ≤ dueBy actor opening s

/-- The wait after a round is no overflow and none that the timer cuts, whatever is drawn. -/
structure WaitFits (actor : WorkerActor ι ω) (timer : Timer) (finished : Nat) : Prop where
  nanos : actor.baseInterval.nanos + actor.maxJitter.nanos < nanosLimit
  longest : actor.baseInterval.nanos + actor.maxJitter.nanos ≤ timer.longest
  limit : finished + actor.baseInterval.nanos + actor.maxJitter.nanos < timer.limit

theorem jitterNanos_le (maxJitter : Duration) (draw : BitVec 128) :
    jitterNanos maxJitter draw ≤ maxJitter.nanos := by
  rcases maxJitter.zero_lt_or_eq_zero with hpos | rfl
  · exact (jitterNanos_lt hpos draw).le
  · exact (if_pos rfl).le

theorem resetAfter_of_waitFits {finished : Nat} (h : WaitFits actor timer finished)
    (draw : BitVec 128) : ∃ deadline, actor.resetAfter timer finished draw = .ok deadline ∧
      deadline ≤ finished + actor.baseInterval.nanos + actor.maxJitter.nanos := by
  rcases h with ⟨hnanos, hlongest, hlimit⟩
  have hjitter := jitterNanos_le actor.maxJitter draw
  exact ⟨_, (resetAfter_eq_ok_iff_of_le (by omega)).mpr ⟨rfl, by omega, by omega⟩, by omega⟩

/-- The op is a tick with a harmless round, after which the wait fits. -/
def FittingTick (actor : WorkerActor ι ω) (timer : Timer) (harmless : ι → Prop) :
    LoopOp ι → Prop
  | .tick _ input finished _ => harmless input ∧ WaitFits actor timer finished
  | .handleDropped => False
  | .cancelled => False

theorem prompt_of_step (hharmless : ∀ input, harmless input → ¬ Panics (actor.work input).2)
    (s : LoopState ω) (op : LoopOp ι) (t : LoopState ω)
    (hstep : actor.step timer s op = some t) (hop : FittingTick actor timer harmless op)
    (_ : Prompt actor opening s) : Prompt actor opening t := by
  obtain ⟨-, hsteps⟩ := steps_of_step hstep
  cases hsteps with
  | @turned fired finished deadline input draw hdue hnow hdone hafter =>
      obtain ⟨deadline', hreset', hle⟩ := resetAfter_of_waitFits hop.2 draw
      obtain rfl := Except.ok.inj ((afterRound_eq_ok_iff.mp hafter).2.symm.trans hreset')
      have hdueBy : dueBy actor opening
          ⟨finished, deadline, s.turns ++ [⟨fired, finished, (actor.work input).1⟩], .running⟩ =
            finished + actor.baseInterval.nanos + actor.maxJitter.nanos := by
        simp [dueBy]
      refine ⟨rfl, hdueBy ▸ hle, hdueBy ▸ ?_⟩
      show finished ≤ _
      omega
  | @panicked fired finished input draw fault hdue hnow hdone hafter =>
      obtain ⟨deadline, hreset, -⟩ := resetAfter_of_waitFits hop.2 draw
      cases hafter.symm.trans (afterRound_eq_ok_iff.mpr ⟨hharmless input hop.1, hreset⟩)
  | handleDropped => exact hop.elim
  | cancelled => exact hop.elim

/-- In every run of ticks that fit, with harmless rounds, the worker is running and ready for
its next round when the base interval and the largest jitter have passed. -/
def KeepsWorking (actor : WorkerActor ι ω) (timer : Timer) (now : Nat) (harmless : ι → Prop) :
    Prop :=
  ∀ (s₀ s : LoopState ω) (ops : List (LoopOp ι)), actor.start timer now = .ok s₀ →
    run (actor.step timer) s₀ ops = some s →
    (∀ op ∈ ops, FittingTick actor timer harmless op) → s.phase = .running ∧
      ∀ fired finished input draw, dueBy actor (now + actor.initialDelay.nanos) s ≤ fired →
        fired ≤ finished → ∃ t, actor.step timer s (.tick fired input finished draw) = some t ∧
          t.turns = s.turns ++ [⟨fired, finished, (actor.work input).1⟩]

theorem keepsWorking (hharmless : ∀ input, harmless input → ¬ Panics (actor.work input).2) :
    KeepsWorking actor timer now harmless := by
  intro s₀ s ops hstart hrun hops
  obtain ⟨rfl, -⟩ := start_eq_ok_iff.mp hstart
  have hprompt : Prompt actor (now + actor.initialDelay.nanos) s :=
    run_preserves_of_allSteps (prompt_of_step hharmless)
      (.of_forall (fun op hop _ => hops op hop) _) hrun ⟨rfl, le_rfl, Nat.le_add_right _ _⟩
  refine ⟨hprompt.running, fun fired finished input draw hdue hdone => ?_⟩
  obtain ⟨t, ht, -, hturns, -⟩ := exists_step_tick actor timer s hprompt.running
    (hprompt.deadline.trans hdue) (hprompt.now.trans hdue) hdone input draw
  exact ⟨t, ht, hturns⟩

end Progress

section Workers

variable {X : Externals}

end Workers

end TopicTracker.WorkerProgress
