import TopicTracker.WorkerLoop

namespace TopicTracker.WorkerShutdown

open TopicTracker.RustDuration
open TopicTracker.ThirdParty
open TopicTracker.ReferenceExternals
open TopicTracker.JitteredIntervals
open TopicTracker.StepMachine
open TopicTracker.RecordRetrieval
open TopicTracker.BootstrapLoop (EndpointId)
open TopicTracker.PeerMerging
open TopicTracker.JoinCandidates
open TopicTracker.RecordAdvertising
open TopicTracker.EmittedRecords
open TopicTracker.WorkerLoop

variable {ι ω : Type} {actor : WorkerActor ι ω} {timer : Timer} {now cancelledAt delay : Nat}
  {s s₀ : LoopState ω} {ops : List (LoopOp ι)}

/-- A cancelled token makes the `select!` return: at once, or when the worker comes back to
it from its round. It may still choose a tick that has fired by then, as the branches are
polled in a random order. -/
def Polled (cancelledAt delay : Nat) (s : LoopState ω) : LoopOp ι → Prop
  | .tick fired _ _ _ => fired ≤ max s.now cancelledAt + delay
  | .handleDropped => True
  | .cancelled => True

/-- A round that started after the cancellation was the only one, and the next tick is not
due until long after it. -/
structure Stopping (actor : WorkerActor ι ω) (timer : Timer) (cancelledAt : Nat)
    (s : LoopState ω) : Prop where
  rounds : ∀ upper, (s.turnsWithin cancelledAt upper).length ≤ 1
  quiet : ∀ turn ∈ s.turns, cancelledAt ≤ turn.started → cancelledAt ≤ s.now ∧
    (s.phase = .running → s.now + actor.gap timer ≤ s.deadline)

theorem not_due_of_stopping (hdelay : delay < actor.gap timer)
    (h : Stopping actor timer cancelledAt s) (hrunning : s.phase = .running) {fired : Nat}
    (hdue : s.deadline ≤ fired) (hpolled : fired ≤ max s.now cancelledAt + delay) :
    ∀ turn ∈ s.turns, turn.started < cancelledAt := by
  intro turn hturn
  by_contra hlate
  obtain ⟨hafter, hnext⟩ := h.quiet turn hturn (Nat.not_lt.mp hlate)
  have hlater := hnext hrunning
  rw [max_eq_left hafter] at hpolled
  omega

theorem stopping_of_turn (hdelay : delay < actor.gap timer)
    (h : Stopping actor timer cancelledAt s) (hrunning : s.phase = .running) {fired finished : Nat}
    (hdue : s.deadline ≤ fired) (hpolled : fired ≤ max s.now cancelledAt + delay)
    (hdone : fired ≤ finished) (sent : List ω) {deadline : Nat} {phase : Phase}
    (hdeadline : phase = .running → finished + actor.gap timer ≤ deadline) :
    Stopping actor timer cancelledAt
      ⟨finished, deadline, s.turns ++ [⟨fired, finished, sent⟩], phase⟩ := by
  have hbefore := not_due_of_stopping hdelay h hrunning hdue hpolled
  refine ⟨fun upper => ?_, List.forall_mem_append.mpr ⟨fun turn hturn hlate => ?_, ?_⟩⟩
  · have hnone : s.turnsWithin cancelledAt upper = [] := by
      refine List.filter_eq_nil_iff.mpr fun turn hturn hwithin => ?_
      have hlate := (of_decide_eq_true hwithin).1
      have hearly := hbefore turn hturn
      omega
    unfold LoopState.turnsWithin at hnone ⊢
    rw [List.filter_append, hnone, List.nil_append]
    exact List.length_filter_le _ _
  · have hearly := hbefore turn hturn
    omega
  · exact List.forall_mem_singleton.mpr fun hlate => ⟨hlate.trans hdone, hdeadline⟩

theorem stopping_of_step (hdelay : delay < actor.gap timer) (s : LoopState ω)
    (op : LoopOp ι) (t : LoopState ω) (hstep : actor.step timer s op = some t)
    (hpolled : Polled cancelledAt delay s op) (h : Stopping actor timer cancelledAt s) :
    Stopping actor timer cancelledAt t := by
  obtain ⟨hrunning, hsteps⟩ := steps_of_step hstep
  rcases hsteps with @⟨fired, finished, deadline, input, draw, hdue, -, hdone, hafter⟩ |
    @⟨fired, finished, input, draw, fault, hdue, -, hdone, -⟩ | _ | _
  · have hnext := add_gap_le_of_resetAfter (afterRound_eq_ok_iff.mp hafter).2
    exact stopping_of_turn hdelay h hrunning hdue hpolled hdone _ fun _ => hnext
  · exact stopping_of_turn hdelay h hrunning hdue hpolled hdone _ fun hphase => (by cases hphase)
  · exact ⟨h.rounds, fun turn hturn hlate =>
      ⟨(h.quiet turn hturn hlate).1, fun hphase => (by cases hphase)⟩⟩
  · exact ⟨h.rounds, fun turn hturn hlate =>
      ⟨(h.quiet turn hturn hlate).1, fun hphase => (by cases hphase)⟩⟩

theorem stopping_of_run (hdelay : delay < actor.gap timer)
    (hstart : actor.start timer now = .ok s₀) (hrun : run (actor.step timer) s₀ ops = some s)
    (hpolled : AllSteps (actor.step timer) (Polled cancelledAt delay) s₀ ops) :
    Stopping actor timer cancelledAt s := by
  refine run_preserves_of_allSteps (stopping_of_step hdelay) hpolled hrun ?_
  obtain ⟨rfl, -⟩ := start_eq_ok_iff.mp hstart
  exact ⟨fun upper => Nat.zero_le 1, fun turn hturn => (by cases hturn)⟩

/-- What a worker sends after the cancellation is bounded, and it comes from one round, the
last one: the step after it ends the worker. -/
structure StopsWithin (actor : WorkerActor ι ω) (timer : Timer) (cancelledAt delay : Nat)
    (size : ω → Nat) (n : Nat) (s : LoopState ω) : Prop where
  sent : ∀ upper, ((s.sentWithin cancelledAt upper).map size).sum ≤ n
  rounds : ∀ upper, (s.turnsWithin cancelledAt upper).length ≤ 1
  ends : ∀ turn ∈ s.turns, cancelledAt ≤ turn.started → ∀ op t,
    Polled cancelledAt delay s op → actor.step timer s op = some t → t.phase = .ended

theorem stopsWithin_of_run (hdelay : delay < actor.gap timer)
    (hstart : actor.start timer now = .ok s₀) (hrun : run (actor.step timer) s₀ ops = some s)
    (hpolled : AllSteps (actor.step timer) (Polled cancelledAt delay) s₀ ops) {size : ω → Nat}
    {n : Nat} (hwork : ∀ input, ((actor.work input).1.map size).sum ≤ n) :
    StopsWithin actor timer cancelledAt delay size n s := by
  have hstopping := stopping_of_run hdelay hstart hrun hpolled
  refine ⟨fun upper => ?_, hstopping.rounds, fun turn hturn hlate op t hop hstep => ?_⟩
  · calc ((s.sentWithin cancelledAt upper).map size).sum
        ≤ n * (s.turnsWithin cancelledAt upper).length :=
          (paced_of_run hstart hrun).sum_sentWithin_le hwork cancelledAt upper
      _ ≤ n * 1 := Nat.mul_le_mul_left n (hstopping.rounds upper)
      _ = n := Nat.mul_one n
  · obtain ⟨hrunning, hsteps⟩ := steps_of_step hstep
    rcases hsteps with ⟨hdue, -, -, -⟩ | ⟨hdue, -, -, -⟩ | _ | _
    · have hearly := not_due_of_stopping hdelay hstopping hrunning hdue hop turn hturn
      omega
    · have hearly := not_due_of_stopping hdelay hstopping hrunning hdue hop turn hturn
      omega
    · rfl
    · rfl

section Workers

variable {X : Externals}

/-- Once its token is cancelled, a publisher asks for one more put at most and a merge for
no more peers than in one request, in one last round that was due by then. -/
theorem cancelled_workers_stop (overflowChecks : Bool) (timer : Timer) (now cancelledAt : Nat)
    (initialDelay : Duration) (config : IntervalConfig)
    (hdelay : delay < tickerGap timer config.baseInterval) :
    (∀ (rp : RecordPublisher X) (s₀ s : LoopState (Request Unit))
      (ops : List (LoopOp (PublishTick X))),
      (publisherActor rp initialDelay config).start timer now = .ok s₀ →
      run ((publisherActor rp initialDelay config).step timer) s₀ ops = some s →
      AllSteps ((publisherActor rp initialDelay config).step timer)
        (Polled cancelledAt delay) s₀ ops →
      StopsWithin (publisherActor rp initialDelay config) timer cancelledAt delay
        (fun _ => 1) 1 s) ∧
    (∀ (self : BubbleMergeActor X) (s₀ s : LoopState (List (EndpointId X)))
      (ops : List (LoopOp (Tick X))),
      (bubbleMergeActor overflowChecks self initialDelay config).start timer now = .ok s₀ →
      run ((bubbleMergeActor overflowChecks self initialDelay config).step timer) s₀ ops =
        some s →
      AllSteps ((bubbleMergeActor overflowChecks self initialDelay config).step timer)
        (Polled cancelledAt delay) s₀ ops →
      StopsWithin (bubbleMergeActor overflowChecks self initialDelay config) timer cancelledAt
        delay List.length self.maxJoinPeers s) ∧
    ∀ (self : MessageOverlapMergeActor X) (s₀ s : LoopState (List (EndpointId X)))
      (ops : List (LoopOp (Tick X))),
      (messageOverlapMergeActor overflowChecks self initialDelay config).start timer now =
        .ok s₀ →
      run ((messageOverlapMergeActor overflowChecks self initialDelay config).step timer) s₀
        ops = some s →
      AllSteps ((messageOverlapMergeActor overflowChecks self initialDelay config).step timer)
        (Polled cancelledAt delay) s₀ ops →
      StopsWithin (messageOverlapMergeActor overflowChecks self initialDelay config) timer
        cancelledAt delay List.length self.maxJoinPeers s := by
  refine ⟨?_, ?_, ?_⟩
  · intro rp s₀ s ops hstart hrun hpolled
    exact stopsWithin_of_run hdelay hstart hrun hpolled sum_publish_le
  · intro self s₀ s ops hstart hrun hpolled
    exact stopsWithin_of_run hdelay hstart hrun hpolled (sum_bubble_merge_le self)
  · intro self s₀ s ops hstart hrun hpolled
    exact stopsWithin_of_run hdelay hstart hrun hpolled (sum_overlap_merge_le self)

/-- The token is cancelled while the first tick of the sample publisher fires. -/
theorem cancelled_workers_stop_oneRound : ∃ s₀ s,
    samplePublisherActor.start sampleTimer 0 = .ok s₀ ∧
      run (samplePublisherActor.step sampleTimer) s₀
        (oneRound samplePublisherActor (samplePublishTick [])) = some s ∧
      StopsWithin samplePublisherActor sampleTimer samplePublisherActor.initialDelay.nanos 0
        (fun _ => 1) 1 s := by
  have hlimit : samplePublisherActor.initialDelay.nanos < sampleTimer.limit := by decide
  have hdelay : 0 < tickerGap sampleTimer publisherDefaults.baseInterval := by decide
  obtain ⟨s₀, s, hstart, hrun, -⟩ := exists_oneRound samplePublisherActor hlimit
    (samplePublishTick [])
  have hpolled : AllSteps (samplePublisherActor.step sampleTimer)
      (Polled samplePublisherActor.initialDelay.nanos 0) s₀
      (oneRound samplePublisherActor (samplePublishTick [])) :=
    ⟨le_max_right _ _, fun t _ => trivial⟩
  exact ⟨s₀, s, hstart, hrun, (cancelled_workers_stop true sampleTimer 0 _
    (Duration.fromSecs 10) publisherDefaults hdelay).1 (samplePublisher 1 {}) s₀ s _ hstart hrun
    hpolled⟩

end Workers

end TopicTracker.WorkerShutdown
