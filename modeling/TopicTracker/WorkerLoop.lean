import TopicTracker.JitteredIntervals
import TopicTracker.SpacedTimes
import TopicTracker.StepMachine
import TopicTracker.EmittedRecords
import TopicTracker.JoinCandidates

/-!
The loops of the publisher and the two merges: work when the ticker fires, then a wait.
Instants are nanoseconds, and `Instant + Duration` panics from a limit on.
-/

namespace TopicTracker.WorkerLoop

open TopicTracker.Configuration
open TopicTracker.RustValues
open TopicTracker.RustDuration
open TopicTracker.ThirdParty
open TopicTracker.ReferenceExternals
open TopicTracker.JitteredIntervals
open TopicTracker.SpacedTimes
open TopicTracker.StepMachine
open TopicTracker.RandomOrder
open TopicTracker.RecordRetrieval
open TopicTracker.RecordPublishing
open TopicTracker.BootstrapLoop (EndpointId)
open TopicTracker.PeerMerging
open TopicTracker.JoinCandidates
open TopicTracker.RecordAdvertising
open TopicTracker.EmittedRecords

/-- `Instant + Duration`. -/
def addInstant (limit now : Nat) (duration : Duration) : Result Nat :=
  if now + duration.nanos < limit then .ok (now + duration.nanos)
  else .error (.panic "overflow when adding duration to instant")

/-- The timer of `tokio`: which instants there are, and when a ticker that is reset fires
next. It keeps a wait exactly up to a longest one, and makes no longer wait shorter than
that. -/
structure Timer where
  limit : Nat
  longest : Nat
  longest_pos : 0 < longest
  resetAfter : Nat → Duration → Result Nat
  exact : ∀ now duration, duration.nanos ≤ longest →
    resetAfter now duration = addInstant limit now duration
  long : ∀ now duration deadline, longest ≤ duration.nanos →
    resetAfter now duration = .ok deadline → now + longest ≤ deadline

/-- A worker as its `new` makes it: the waits of its loop, and what one round of its work
sends and returns. -/
structure WorkerActor (ι ω : Type) where
  initialDelay : Duration
  baseInterval : Duration
  maxJitter : Duration
  work : ι → List ω × Result Unit

/-- `PublisherActor::publish`: the put it asks for, and its result. -/
def publish {X : Externals} (rp : RecordPublisher X) (tick : PublishTick X) :
    List (Request Unit) × Result Unit :=
  match publishRequest (fun _ => rp) () tick with
  | .ok (some request) => ([request], tick.stored)
  | .ok none => ([], .ok ())
  | .error fault => ([], .error fault)

/-- `Publisher::new`. -/
def publisherActor {X : Externals} (rp : RecordPublisher X) (initialDelay : Duration)
    (config : IntervalConfig) : WorkerActor (PublishTick X) (Request Unit) where
  initialDelay := initialDelay
  baseInterval := tickerBase config.baseInterval
  maxJitter := config.maxJitter
  work := publish rp

/-- `BubbleMerge::new`. -/
def bubbleMergeActor {X : Externals} (overflowChecks : Bool) (self : BubbleMergeActor X)
    (initialInterval : Duration) (config : IntervalConfig) :
    WorkerActor (Tick X) (List (EndpointId X)) where
  initialDelay := initialInterval
  baseInterval := tickerBase config.baseInterval
  maxJitter := config.maxJitter
  work := self.merge overflowChecks

/-- `MessageOverlapMerge::new`. -/
def messageOverlapMergeActor {X : Externals} (overflowChecks : Bool)
    (self : MessageOverlapMergeActor X) (initialInterval : Duration) (config : IntervalConfig) :
    WorkerActor (Tick X) (List (EndpointId X)) where
  initialDelay := initialInterval
  baseInterval := tickerBase config.baseInterval
  maxJitter := config.maxJitter
  work := self.merge overflowChecks

structure Turn (ω : Type) where
  started : Nat
  finished : Nat
  sent : List ω

inductive Phase
  | running
  | ended
  | panicked (fault : Fault)
deriving DecidableEq

structure LoopState (ω : Type) where
  now : Nat
  deadline : Nat
  turns : List (Turn ω)
  phase : Phase

/-- The branches of the `select!`. Nobody calls a worker's handle, so that `recv_async`
ends with its drop. -/
inductive LoopOp (ι : Type)
  | tick (fired : Nat) (input : ι) (finished : Nat) (draw : BitVec 128)
  | handleDropped
  | cancelled

namespace WorkerActor

variable {ι ω : Type} (self : WorkerActor ι ω) (timer : Timer)

def start (now : Nat) : Result (LoopState ω) := do
  let deadline ← addInstant timer.limit now self.initialDelay
  .ok ⟨now, deadline, [], .running⟩

/-- The wait after a round, from its end on. The ticker forgets the period and the missed
ticks of its own when it is reset. -/
def resetAfter (finished : Nat) (draw : BitVec 128) : Result Nat := do
  let nextInterval ← jitteredInterval self.baseInterval self.maxJitter draw
  timer.resetAfter finished nextInterval

/-- What follows a round. A panic of the round goes on in the loop; an error is only
logged. -/
def afterRound (input : ι) (finished : Nat) (draw : BitVec 128) : Result Nat :=
  match (self.work input).2 with
  | .error (.panic text) => .error (.panic text)
  | .error (.bail _) => self.resetAfter timer finished draw
  | .ok () => self.resetAfter timer finished draw

def step (s : LoopState ω) : LoopOp ι → Option (LoopState ω)
  | .tick fired input finished draw =>
      if s.phase = .running ∧ s.deadline ≤ fired ∧ s.now ≤ fired ∧ fired ≤ finished then
        let turns := s.turns ++ [⟨fired, finished, (self.work input).1⟩]
        match self.afterRound timer input finished draw with
        | .ok deadline => some ⟨finished, deadline, turns, .running⟩
        | .error fault => some ⟨finished, s.deadline, turns, .panicked fault⟩
      else none
  | .handleDropped => if s.phase = .running then some { s with phase := .ended } else none
  | .cancelled => if s.phase = .running then some { s with phase := .ended } else none

/-- The shortest wait between two rounds. -/
def gap : Nat := min self.baseInterval.nanos timer.longest

end WorkerActor

section Pace

variable {ι ω : Type} {actor : WorkerActor ι ω} {timer : Timer} {now : Nat}
  {s s₀ t : LoopState ω}

theorem addInstant_eq_ok_iff {limit : Nat} {duration : Duration} {later : Nat} :
    addInstant limit now duration = .ok later ↔
      now + duration.nanos = later ∧ later < limit := by
  unfold addInstant
  split
  · next hfits =>
      rw [Except.ok.injEq]
      exact ⟨fun h => h ▸ ⟨rfl, hfits⟩, And.left⟩
  · next hlong =>
      constructor
      · intro h
        cases h
      · rintro ⟨rfl, hlt⟩
        exact absurd hlt hlong

theorem resetAfter_eq_ok_iff {finished deadline : Nat} {draw : BitVec 128} :
    actor.resetAfter timer finished draw = .ok deadline ↔
      ∃ wait : Duration, wait.nanos = actor.baseInterval.nanos + jitterNanos actor.maxJitter draw ∧
        timer.resetAfter finished wait = .ok deadline := by
  unfold WorkerActor.resetAfter
  rcases jitteredInterval_cases actor.baseInterval actor.maxJitter draw with
    ⟨next, hnext, hnanos⟩ | ⟨hlong, hpanics⟩
  · rw [hnext, ok_bind]
    constructor
    · intro h
      exact ⟨next, hnanos, h⟩
    · rintro ⟨wait, hwait, h⟩
      obtain rfl := Duration.nanos_injective (hwait.trans hnanos.symm)
      exact h
  · rw [hpanics]
    constructor
    · intro h
      cases h
    · rintro ⟨wait, hwait, -⟩
      have hfits := wait.nanos_lt
      omega

theorem resetAfter_eq_ok_iff_of_le {finished deadline : Nat} {draw : BitVec 128}
    (hkept : actor.baseInterval.nanos + jitterNanos actor.maxJitter draw ≤ timer.longest) :
    actor.resetAfter timer finished draw = .ok deadline ↔
      finished + actor.baseInterval.nanos + jitterNanos actor.maxJitter draw = deadline ∧
        actor.baseInterval.nanos + jitterNanos actor.maxJitter draw < nanosLimit ∧
          deadline < timer.limit := by
  rw [resetAfter_eq_ok_iff, Nat.add_assoc]
  constructor
  · rintro ⟨wait, hwait, h⟩
    rw [timer.exact finished wait (hwait.trans_le hkept), addInstant_eq_ok_iff, hwait] at h
    exact ⟨h.1, hwait ▸ wait.nanos_lt, h.2⟩
  · rintro ⟨hdeadline, hnanos, hlimit⟩
    refine ⟨⟨_, hnanos⟩, rfl, ?_⟩
    rw [timer.exact _ _ hkept]
    exact addInstant_eq_ok_iff.mpr ⟨hdeadline, hlimit⟩

/-- However long the wait, it is no shorter than the gap. -/
theorem add_gap_le_of_resetAfter {finished deadline : Nat} {draw : BitVec 128}
    (h : actor.resetAfter timer finished draw = .ok deadline) :
    finished + actor.gap timer ≤ deadline := by
  obtain ⟨wait, hwait, h⟩ := resetAfter_eq_ok_iff.mp h
  have hbase : actor.gap timer ≤ actor.baseInterval.nanos := min_le_left _ _
  have hlongest : actor.gap timer ≤ timer.longest := min_le_right _ _
  rcases Nat.le_total wait.nanos timer.longest with hkept | hcut
  · rw [timer.exact finished wait hkept, addInstant_eq_ok_iff] at h
    omega
  · have hlong := timer.long finished wait deadline hcut h
    omega

theorem afterRound_eq_ok_iff {input : ι} {finished deadline : Nat} {draw : BitVec 128} :
    actor.afterRound timer input finished draw = .ok deadline ↔
      ¬ Panics (actor.work input).2 ∧ actor.resetAfter timer finished draw = .ok deadline := by
  unfold WorkerActor.afterRound Panics
  split <;> simp_all

inductive Steps (actor : WorkerActor ι ω) (timer : Timer) (s : LoopState ω) :
    LoopOp ι → LoopState ω → Prop
  | turned {fired finished deadline : Nat} {input : ι} {draw : BitVec 128}
      (hdue : s.deadline ≤ fired) (hnow : s.now ≤ fired) (hdone : fired ≤ finished)
      (hafter : actor.afterRound timer input finished draw = .ok deadline) :
      Steps actor timer s (.tick fired input finished draw)
        ⟨finished, deadline, s.turns ++ [⟨fired, finished, (actor.work input).1⟩], .running⟩
  | panicked {fired finished : Nat} {input : ι} {draw : BitVec 128} {fault : Fault}
      (hdue : s.deadline ≤ fired) (hnow : s.now ≤ fired) (hdone : fired ≤ finished)
      (hafter : actor.afterRound timer input finished draw = .error fault) :
      Steps actor timer s (.tick fired input finished draw)
        ⟨finished, s.deadline, s.turns ++ [⟨fired, finished, (actor.work input).1⟩],
          .panicked fault⟩
  | handleDropped : Steps actor timer s .handleDropped { s with phase := .ended }
  | cancelled : Steps actor timer s .cancelled { s with phase := .ended }

theorem steps_of_step {op : LoopOp ι} (h : actor.step timer s op = some t) :
    s.phase = .running ∧ Steps actor timer s op t := by
  cases op with
  | tick fired input finished draw =>
      obtain ⟨⟨hrunning, hdue, hnow, hdone⟩, h⟩ := Option.ite_none_right_eq_some.mp h
      refine ⟨hrunning, ?_⟩
      split at h
      · next deadline hafter =>
          obtain rfl := Option.some.inj h
          exact .turned hdue hnow hdone hafter
      · next fault hafter =>
          obtain rfl := Option.some.inj h
          exact .panicked hdue hnow hdone hafter
  | handleDropped =>
      obtain ⟨hrunning, h⟩ := Option.ite_none_right_eq_some.mp h
      obtain rfl := Option.some.inj h
      exact ⟨hrunning, .handleDropped⟩
  | cancelled =>
      obtain ⟨hrunning, h⟩ := Option.ite_none_right_eq_some.mp h
      obtain rfl := Option.some.inj h
      exact ⟨hrunning, .cancelled⟩

/-- Every round starts the gap or more after the end of the one before, and no round starts
before the ticker's first deadline. -/
structure Paced (actor : WorkerActor ι ω) (timer : Timer) (opening : Nat) (s : LoopState ω) :
    Prop where
  apart : s.turns.Pairwise fun turn later => turn.finished + actor.gap timer ≤ later.started
  ordered : ∀ turn ∈ s.turns, turn.started ≤ turn.finished
  opened : opening ≤ s.deadline ∧ ∀ turn ∈ s.turns, opening ≤ turn.started
  next : s.phase = .running → ∀ turn ∈ s.turns, turn.finished + actor.gap timer ≤ s.deadline
  worked : ∀ turn ∈ s.turns, ∃ input, turn.sent = (actor.work input).1

variable {opening : Nat}

theorem paced_of_turn (h : Paced actor timer opening s) (hrunning : s.phase = .running)
    {fired finished : Nat} (hdue : s.deadline ≤ fired) (hdone : fired ≤ finished) (input : ι)
    {deadline : Nat} {phase : Phase} (hopened : opening ≤ deadline)
    (hnext : phase = .running → finished + actor.gap timer ≤ deadline) :
    Paced actor timer opening
      ⟨finished, deadline, s.turns ++ [⟨fired, finished, (actor.work input).1⟩], phase⟩ where
  apart := by
    refine List.pairwise_append.mpr ⟨h.apart, List.pairwise_singleton _ _, ?_⟩
    intro turn hturn later hlater
    rw [List.mem_singleton.mp hlater]
    exact (h.next hrunning turn hturn).trans hdue
  ordered := by
    refine List.forall_mem_append.mpr ⟨h.ordered, ?_⟩
    exact List.forall_mem_singleton.mpr hdone
  opened := by
    refine ⟨hopened, List.forall_mem_append.mpr ⟨h.opened.2, ?_⟩⟩
    exact List.forall_mem_singleton.mpr (h.opened.1.trans hdue)
  next hphase := by
    refine List.forall_mem_append.mpr ⟨fun turn hturn => ?_, ?_⟩
    · calc turn.finished + actor.gap timer
          ≤ s.deadline := h.next hrunning turn hturn
        _ ≤ finished := hdue.trans hdone
        _ ≤ deadline := (Nat.le_add_right _ _).trans (hnext hphase)
    · exact List.forall_mem_singleton.mpr (hnext hphase)
  worked := by
    refine List.forall_mem_append.mpr ⟨h.worked, ?_⟩
    exact List.forall_mem_singleton.mpr ⟨input, rfl⟩

theorem paced_of_step (s : LoopState ω) (op : LoopOp ι) (t : LoopState ω)
    (hstep : actor.step timer s op = some t) (h : Paced actor timer opening s) :
    Paced actor timer opening t := by
  obtain ⟨hrunning, hsteps⟩ := steps_of_step hstep
  cases hsteps with
  | @turned fired finished deadline input draw hdue hnow hdone hafter =>
      have hnext := add_gap_le_of_resetAfter (afterRound_eq_ok_iff.mp hafter).2
      have hopened := h.opened.1
      exact paced_of_turn h hrunning hdue hdone _ (by omega) fun _ => hnext
  | panicked hdue hnow hdone hafter =>
      exact paced_of_turn h hrunning hdue hdone _ h.opened.1 fun hphase => by cases hphase
  | handleDropped =>
      exact ⟨h.apart, h.ordered, h.opened, fun hphase => (by cases hphase), h.worked⟩
  | cancelled => exact ⟨h.apart, h.ordered, h.opened, fun hphase => (by cases hphase), h.worked⟩

theorem start_eq_ok_iff : actor.start timer now = .ok s₀ ↔
    s₀ = ⟨now, now + actor.initialDelay.nanos, [], .running⟩ ∧
      now + actor.initialDelay.nanos < timer.limit := by
  unfold WorkerActor.start
  rw [bind_eq_ok]
  constructor
  · rintro ⟨deadline, hdeadline, h⟩
    obtain ⟨rfl, hlt⟩ := addInstant_eq_ok_iff.mp hdeadline
    exact ⟨(Except.ok.inj h).symm, hlt⟩
  · rintro ⟨rfl, hlt⟩
    exact ⟨_, addInstant_eq_ok_iff.mpr ⟨rfl, hlt⟩, rfl⟩

theorem paced_of_run (hstart : actor.start timer now = .ok s₀) {ops : List (LoopOp ι)}
    (hrun : run (actor.step timer) s₀ ops = some s) :
    Paced actor timer (now + actor.initialDelay.nanos) s := by
  refine run_preserves paced_of_step hrun ?_
  obtain ⟨rfl, -⟩ := start_eq_ok_iff.mp hstart
  exact ⟨.nil, by simp, by simp, by simp, by simp⟩

def LoopState.turnsWithin (s : LoopState ω) (lower upper : Nat) : List (Turn ω) :=
  s.turns.filter fun turn => lower ≤ turn.started ∧ turn.started < upper

/-- What the rounds that start in a window send. -/
def LoopState.sentWithin (s : LoopState ω) (lower upper : Nat) : List ω :=
  (s.turnsWithin lower upper).flatMap Turn.sent

theorem Paced.spaced (h : Paced actor timer opening s) :
    Spaced (actor.gap timer) (s.turns.map Turn.started) := by
  refine List.pairwise_map.mpr (h.apart.imp_of_mem ?_)
  intro turn later hturn _ hapart
  exact (Nat.add_le_add_right (h.ordered turn hturn) _).trans hapart

theorem Paced.turnsWithin_mul_lt (h : Paced actor timer opening s)
    (hgap : 0 < actor.gap timer) (lower upper : Nat) :
    (s.turnsWithin lower upper).length * actor.gap timer <
      upper - lower + actor.gap timer := by
  have hsub : List.Sublist ((s.turnsWithin lower upper).map Turn.started)
      (s.turns.map Turn.started) := List.filter_sublist.map _
  rw [← List.length_map (f := Turn.started)]
  refine (h.spaced.sublist hsub).length_mul_lt hgap ?_
  intro started hstarted
  obtain ⟨turn, hturn, rfl⟩ := List.mem_map.mp hstarted
  exact of_decide_eq_true (List.mem_filter.mp hturn).2

theorem Paced.sum_sentWithin_le (h : Paced actor timer opening s) {size : ω → Nat} {n : Nat}
    (hwork : ∀ input, ((actor.work input).1.map size).sum ≤ n) (lower upper : Nat) :
    ((s.sentWithin lower upper).map size).sum ≤ n * (s.turnsWithin lower upper).length := by
  have hsent : ∀ turn ∈ s.turnsWithin lower upper, (turn.sent.map size).sum ≤ n := by
    intro turn hturn
    obtain ⟨input, hinput⟩ := h.worked turn (List.mem_of_mem_filter hturn)
    rw [hinput]
    exact hwork input
  unfold LoopState.sentWithin
  generalize s.turnsWithin lower upper = turns at hsent ⊢
  induction turns with
  | nil => simp
  | cons turn turns ih =>
      obtain ⟨hfirst, hrest⟩ := List.forall_mem_cons.mp hsent
      rw [List.flatMap_cons, List.map_append, List.sum_append, List.length_cons]
      calc (turn.sent.map size).sum + ((turns.flatMap Turn.sent).map size).sum
          ≤ n + n * turns.length := Nat.add_le_add hfirst (ih hrest)
        _ = n * (turns.length + 1) := by rw [Nat.mul_succ, Nat.add_comm]

theorem exists_step_tick (actor : WorkerActor ι ω) (timer : Timer) (s : LoopState ω)
    (hrunning : s.phase = .running) {fired finished : Nat} (hdue : s.deadline ≤ fired)
    (hnow : s.now ≤ fired) (hdone : fired ≤ finished) (input : ι) (draw : BitVec 128) :
    ∃ t, actor.step timer s (.tick fired input finished draw) = some t ∧ t.now = finished ∧
      t.turns = s.turns ++ [⟨fired, finished, (actor.work input).1⟩] ∧
      ∀ deadline, actor.afterRound timer input finished draw = .ok deadline →
        t.deadline = deadline ∧ t.phase = .running := by
  have hready : s.phase = .running ∧ s.deadline ≤ fired ∧ s.now ≤ fired ∧ fired ≤ finished :=
    ⟨hrunning, hdue, hnow, hdone⟩
  simp only [WorkerActor.step, if_pos hready]
  split
  · next deadline hafter =>
      refine ⟨_, rfl, rfl, rfl, fun deadline' hdeadline' => ⟨?_, rfl⟩⟩
      exact Except.ok.inj (hafter.symm.trans hdeadline')
  · next fault hafter =>
      refine ⟨_, rfl, rfl, rfl, fun deadline hdeadline => ?_⟩
      cases hafter.symm.trans hdeadline

def oneRound (actor : WorkerActor ι ω) (input : ι) : List (LoopOp ι) :=
  [.tick actor.initialDelay.nanos input actor.initialDelay.nanos 0]

theorem exists_oneRound (actor : WorkerActor ι ω)
    (hlimit : actor.initialDelay.nanos < timer.limit) (input : ι) :
    ∃ s₀ s, actor.start timer 0 = .ok s₀ ∧
      run (actor.step timer) s₀ (oneRound actor input) = some s ∧
        s.turns =
          [⟨actor.initialDelay.nanos, actor.initialDelay.nanos, (actor.work input).1⟩] := by
  have hopening : 0 + actor.initialDelay.nanos = actor.initialDelay.nanos := Nat.zero_add _
  obtain ⟨s, hs, -, hturns, -⟩ := exists_step_tick actor timer
    ⟨0, 0 + actor.initialDelay.nanos, [], .running⟩ rfl hopening.le (Nat.zero_le _)
    (le_refl actor.initialDelay.nanos) input 0
  exact ⟨_, s, start_eq_ok_iff.mpr ⟨rfl, hopening.symm ▸ hlimit⟩,
    run_cons_eq_some_iff.mpr ⟨s, hs, rfl⟩, hturns⟩

end Pace

noncomputable def samplePublisherActor : WorkerActor (PublishTick reference) (Request Unit) :=
  publisherActor (samplePublisher 1 {}) (Duration.fromSecs 10) publisherDefaults

def thirtyYears : Duration := Duration.fromSecs (30 * 365 * 24 * 60 * 60)

/-- Seconds in 63 bits, and no wait above thirty years. -/
def sampleTimer : Timer where
  limit := 2 ^ 63 * nanosPerSec
  longest := thirtyYears.nanos
  longest_pos := by decide
  resetAfter now duration := addInstant (2 ^ 63 * nanosPerSec) now (min duration thirtyYears)
  exact now duration hkept := by rw [min_eq_left (Duration.le_iff_nanos_le.mpr hkept)]
  long now duration deadline hcut hdeadline := by
    rw [min_eq_right (Duration.le_iff_nanos_le.mpr hcut)] at hdeadline
    exact (addInstant_eq_ok_iff.mp hdeadline).1.le

section Workers

variable {X : Externals} {rp : RecordPublisher X} {timer : Timer} {now : Nat}
  {overflowChecks : Bool} {initialDelay : Duration} {config : IntervalConfig}

theorem tickerBase_pos (baseInterval : Duration) : 0 < (tickerBase baseInterval).nanos := by
  have hsecond : (Duration.fromSecs 1).nanos ≤ (tickerBase baseInterval).nanos :=
    Duration.le_iff_nanos_le.mp (le_max_right _ _)
  exact lt_of_lt_of_le (by decide) hsecond

/-- The gap between two rounds of a worker with the base interval. -/
def tickerGap (timer : Timer) (baseInterval : Duration) : Nat :=
  min (tickerBase baseInterval).nanos timer.longest

theorem tickerGap_pos (timer : Timer) (baseInterval : Duration) :
    0 < tickerGap timer baseInterval :=
  lt_min (tickerBase_pos baseInterval) timer.longest_pos

theorem mem_publish_iff {tick : PublishTick X} {request : Request Unit} :
    request ∈ (publish rp tick).1 ↔ publishRequest (fun _ => rp) () tick = .ok (some request) := by
  unfold publish
  split
  · next requested hrequest =>
      rw [hrequest, List.mem_singleton, Except.ok.injEq, Option.some.injEq, eq_comm]
  · next hnone => simp [hnone]
  · next fault hfault => simp [hfault]

theorem length_publish_le (tick : PublishTick X) : (publish rp tick).1.length ≤ 1 := by
  unfold publish
  split <;> simp

theorem sum_publish_le (tick : PublishTick X) :
    ((publish rp tick).1.map fun _ => 1).sum ≤ 1 := by
  simpa using length_publish_le tick

/-- A publisher asks for its puts a gap apart: a window as long as `n` gaps holds `n` of them
at most, and none comes before the initial delay has passed. Each is of a record of the
publisher's own. -/
theorem publisher_puts_paced {s₀ s : LoopState (Request Unit)}
    (hstart : (publisherActor rp initialDelay config).start timer now = .ok s₀)
    {ops : List (LoopOp (PublishTick X))}
    (hrun : run ((publisherActor rp initialDelay config).step timer) s₀ ops = some s)
    (lower upper : Nat) :
    (s.sentWithin lower upper).length * tickerGap timer config.baseInterval <
        upper - lower + tickerGap timer config.baseInterval ∧
      (upper ≤ now + initialDelay.nanos → s.sentWithin lower upper = []) ∧
      ∀ request ∈ s.sentWithin lower upper, request.Genuine fun _ => rp := by
  have hpaced := paced_of_run hstart hrun
  have hcount := hpaced.sum_sentWithin_le sum_publish_le lower upper
  have hrounds := hpaced.turnsWithin_mul_lt (tickerGap_pos timer config.baseInterval) lower upper
  refine ⟨?_, ?_, ?_⟩
  · refine lt_of_le_of_lt (Nat.mul_le_mul_right _ ?_) hrounds
    simpa using hcount
  · intro hearly
    refine List.eq_nil_iff_forall_not_mem.mpr fun request hrequest => ?_
    obtain ⟨turn, hturn, -⟩ := List.mem_flatMap.mp hrequest
    obtain ⟨hmem, hwithin⟩ := List.mem_filter.mp hturn
    have hbounds := of_decide_eq_true hwithin
    have hopened := hpaced.opened.2 turn hmem
    change now + initialDelay.nanos ≤ turn.started at hopened
    omega
  · intro request hrequest
    obtain ⟨turn, hturn, hsent⟩ := List.mem_flatMap.mp hrequest
    obtain ⟨tick, hwork⟩ := hpaced.worked turn (List.mem_of_mem_filter hturn)
    exact genuine_of_publishRequest (mem_publish_iff.mp (hwork ▸ hsent))

theorem publisher_puts_paced_oneRound : ∃ s₀ s,
    samplePublisherActor.start sampleTimer 0 = .ok s₀ ∧
      run (samplePublisherActor.step sampleTimer) s₀
        (oneRound samplePublisherActor (samplePublishTick [])) = some s ∧
      (s.sentWithin 0 (10 ^ 11)).length < 11 := by
  have hlimit : samplePublisherActor.initialDelay.nanos < sampleTimer.limit := by decide
  obtain ⟨s₀, s, hstart, hrun, -⟩ := exists_oneRound samplePublisherActor hlimit
    (samplePublishTick [])
  have hpaced := (publisher_puts_paced hstart hrun 0 (10 ^ 11)).1
  have hgap : tickerGap sampleTimer publisherDefaults.baseInterval = 10 ^ 10 := by decide
  rw [hgap] at hpaced
  exact ⟨s₀, s, hstart, hrun, by omega⟩

theorem flatten_sendRequest_le {tick : Tick X}
    {request : Result (Option (List (EndpointId X)))} {n : Nat}
    (h : ∀ peers, request = .ok (some peers) → peers.length ≤ n) :
    (((sendRequest tick request).1).map List.length).sum ≤ n := by
  unfold sendRequest
  split
  · exact Nat.zero_le n
  · exact Nat.zero_le n
  · next peers => simpa using h peers rfl

theorem sum_bubble_merge_le (self : BubbleMergeActor X) (tick : Tick X) :
    ((self.merge overflowChecks tick).1.map List.length).sum ≤ self.maxJoinPeers := by
  refine flatten_sendRequest_le fun peers hpeers => ?_
  obtain ⟨records, neighbors, -, -, hsample⟩ := sample_of_bubble_request hpeers
  exact hsample.length.trans_le (Nat.min_le_left _ _)

theorem sum_overlap_merge_le (self : MessageOverlapMergeActor X) (tick : Tick X) :
    ((self.merge overflowChecks tick).1.map List.length).sum ≤ self.maxJoinPeers := by
  refine flatten_sendRequest_le fun peers hpeers => ?_
  obtain ⟨records, localHashes, neighbors, -, -, hsample⟩ := sample_of_overlap_request hpeers
  exact hsample.length.trans_le (Nat.min_le_left _ _)

/-- In every window the merge rounds ask for no more peers than their limit allows. -/
def JoinsPaced (gap maxJoinPeers : Nat) (s : LoopState (List (EndpointId X))) : Prop :=
  ∀ lower upper, ∃ rounds, rounds * gap < upper - lower + gap ∧
    (s.sentWithin lower upper).flatten.length ≤ maxJoinPeers * rounds

theorem joinsPaced_of_paced {actor : WorkerActor (Tick X) (List (EndpointId X))} {opening n : Nat}
    {s : LoopState (List (EndpointId X))} (h : Paced actor timer opening s)
    (hgap : 0 < actor.gap timer)
    (hwork : ∀ tick, ((actor.work tick).1.map List.length).sum ≤ n) :
    JoinsPaced (actor.gap timer) n s := by
  intro lower upper
  refine ⟨_, h.turnsWithin_mul_lt hgap lower upper, ?_⟩
  rw [List.length_flatten]
  exact h.sum_sentWithin_le hwork lower upper

/-- Whatever the DHT says and however many neighbours come and go, a window as long as `n`
gaps sees no merge ask for more than `n` times its limit of peers. -/
theorem merge_joins_paced (overflowChecks : Bool) (timer : Timer) (now : Nat)
    (initialInterval : Duration) (config : IntervalConfig)
    {s₀ s : LoopState (List (EndpointId X))} {ops : List (LoopOp (Tick X))} :
    (∀ self : BubbleMergeActor X,
      (bubbleMergeActor overflowChecks self initialInterval config).start timer now = .ok s₀ →
      run ((bubbleMergeActor overflowChecks self initialInterval config).step timer) s₀ ops =
        some s →
        JoinsPaced (tickerGap timer config.baseInterval) self.maxJoinPeers s) ∧
    ∀ self : MessageOverlapMergeActor X,
      (messageOverlapMergeActor overflowChecks self initialInterval config).start timer now =
        .ok s₀ →
      run ((messageOverlapMergeActor overflowChecks self initialInterval config).step timer) s₀
        ops = some s →
        JoinsPaced (tickerGap timer config.baseInterval) self.maxJoinPeers s := by
  constructor
  · intro self hstart hrun
    exact joinsPaced_of_paced (paced_of_run hstart hrun) (tickerGap_pos _ _)
      (sum_bubble_merge_le self)
  · intro self hstart hrun
    exact joinsPaced_of_paced (paced_of_run hstart hrun) (tickerGap_pos _ _)
      (sum_overlap_merge_le self)

noncomputable def sampleMergeActor :
    WorkerActor (Tick reference) (List (EndpointId reference)) :=
  bubbleMergeActor true (sampleBubbleMerge {}) (Duration.fromSecs 30) bubbleMergeDefaults

theorem merge_joins_paced_oneRound : ∃ s₀ s,
    sampleMergeActor.start sampleTimer 0 = .ok s₀ ∧
      run (sampleMergeActor.step sampleTimer) s₀
        (oneRound sampleMergeActor (sampleTick (bareItems 1))) = some s ∧
      JoinsPaced (tickerGap sampleTimer bubbleMergeDefaults.baseInterval) 2 s := by
  have hlimit : sampleMergeActor.initialDelay.nanos < sampleTimer.limit := by decide
  obtain ⟨s₀, s, hstart, hrun, -⟩ := exists_oneRound sampleMergeActor hlimit
    (sampleTick (bareItems 1))
  exact ⟨s₀, s, hstart, hrun, (merge_joins_paced true sampleTimer 0 (Duration.fromSecs 30)
    bubbleMergeDefaults).1 (sampleBubbleMerge {}) hstart hrun⟩

end Workers

end TopicTracker.WorkerLoop
