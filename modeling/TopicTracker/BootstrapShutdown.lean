import TopicTracker.PeerJoining

namespace TopicTracker.BootstrapShutdown

open TopicTracker.Configuration
open TopicTracker.RustValues
open TopicTracker.ThirdParty
open TopicTracker.ReferenceExternals (reference)
open TopicTracker.RecordCodec
open TopicTracker.RecordRetrieval
open TopicTracker.RecordPublishing
open TopicTracker.BootstrapLoop
open TopicTracker.BootstrapTransition
open TopicTracker.BootstrapProcess
open TopicTracker.StepMachine
open TopicTracker.MinimalDisruption
open TopicTracker.CandidateCoverage
open TopicTracker.PeerJoining

variable {X : Externals} {cfg : BootstrapConfig} {rp : RecordPublisher X}

/-- How many steps a cancelled loop has left at most, the candidates that it has still to
find left out. A candidate costs a join, a wait and a check. -/
def stepsLeft : Point X → Nat
  | .headCheck => 11
  | .clock => 10
  | .fetchOlder _ => 9
  | .fetchNewer _ _ => 8
  | .preJoinCheck _ _ nodes => 3 * nodes.card + 7
  | .startJoining _ _ nodes => 3 * nodes.card + 6
  | .joining _ _ _ rest => 3 * rest.length + 8
  | .settling _ _ rest => 3 * rest.length + 7
  | .settleCheck _ _ rest => 3 * rest.length + 6
  | .confirmCheck _ _ => 5
  | .confirmWait _ _ => 4
  | .finalCheck _ _ => 3
  | .noPeersWait _ => 2
  | .pollWait _ => 2
  | .loopHead => 1
  | .exited => 0

def beforeCollecting : Point X → Bool
  | .headCheck => true
  | .clock => true
  | .fetchOlder _ => true
  | .fetchNewer _ _ => true
  | _ => false

def beforeClock : Point X → Bool
  | .headCheck => true
  | .clock => true
  | _ => false

def SeesCancelled (input : Input X) : Prop := input ≠ .tokenCancelled false

structure Winds (point next : Point X) : Prop where
  left : stepsLeft next + 1 ≤ stepsLeft point ∨
    ∃ w older current nodes, point = .fetchNewer w older ∧ next = .preJoinCheck w current nodes
  collecting : beforeCollecting next = true → beforeCollecting point = true
  clock : beforeClock next = true → beforeClock point = true

section Steps

variable {l : Loop X}

theorem Winds.of_eq {point : Point X} {l' : Loop X} {events : List (Event X)}
    {next : Loop X × List (Event X)} (h : some next = some (l', events))
    (hnext : Winds point next.1.point) : Winds point l'.point := by
  obtain rfl := Option.some.inj h
  exact hnext

theorem Winds.of_lt {point next : Point X} (hleft : stepsLeft next + 1 ≤ stepsLeft point)
    (hnext : beforeCollecting next = false) (hclock : beforeClock next = false) :
    Winds point next :=
  ⟨.inl hleft, fun h => by simp [hnext] at h, fun h => by simp [hclock] at h⟩

theorem winds_exit {point : Point X} (h : 1 ≤ stepsLeft point) : Winds point .exited :=
  .of_lt h rfl rfl

theorem winds_checkOrExit {point : Point X} {site : CheckSite} {answer : Result Bool}
    {next : Point X} (h : 1 ≤ stepsLeft point) (hnext : Winds point next) :
    Winds point (Loop.checkOrExit l site answer next).1.point := by
  cases answer with
  | error fault => exact winds_exit h
  | ok joined =>
      cases joined with
      | true => exact winds_exit h
      | false => exact hnext

theorem winds_wakeOrExit {point : Point X} {wake : Wake} {next : Point X}
    (h : 1 ≤ stepsLeft point) (hnext : Winds point next) :
    Winds point (Loop.wakeOrExit l wake next).1.point := by
  cases wake with
  | cancelled => exact winds_exit h
  | _ => exact hnext

theorem winds_nextPeer {point : Point X} {w : Window} {current : Finset Record}
    {rest : List (EndpointId X)} (h : 3 * rest.length + 6 ≤ stepsLeft point) :
    Winds point (Loop.nextPeer l w current rest).1.point := by
  cases rest with
  | nil =>
      refine .of_lt ?_ rfl rfl
      change 5 + 1 ≤ stepsLeft point
      simpa using h
  | cons peer rest =>
      refine .of_lt ?_ rfl rfl
      change 3 * rest.length + 8 + 1 ≤ stepsLeft point
      rw [List.length_cons] at h
      omega

theorem winds_fetched {w : Window} {older current : Finset Record} :
    Winds (.fetchNewer w older) (Loop.fetched rp l w older current).1.point := by
  unfold Loop.fetched
  split
  · show Winds (.fetchNewer w older) (.noPeersWait w)
    exact .of_lt (by simp [stepsLeft]) rfl rfl
  · refine ⟨.inr ⟨w, older, current, _, rfl, rfl⟩, fun h => ?_, fun h => ?_⟩
    · cases h
    · cases h

theorem winds_finalChecked {w : Window} {current current' : Finset Record}
    {answer : Result Bool} :
    Winds (.finalCheck w current) (Loop.finalChecked rp l w current' answer).1.point := by
  unfold Loop.finalChecked
  split
  · show Winds (.finalCheck w current) (.pollWait w)
    exact .of_lt (by simp [stepsLeft]) rfl rfl
  · exact winds_checkOrExit (by simp [stepsLeft]) (.of_lt (by simp [stepsLeft]) rfl rfl)

/-- Every step after the cancellation brings the end of the loop nearer. -/
theorem winds_of_step {l' : Loop X} {input : Input X} {events : List (Event X)}
    (h : l.step cfg rp input = some (l', events)) (hcancelled : SeesCancelled input) :
    Winds l.point l'.point := by
  unfold Loop.step at h
  split at h
  · next hpoint =>
      apply Winds.of_eq h
      rw [hpoint]
      exact winds_exit (by simp [stepsLeft])
  · exact absurd rfl hcancelled
  · next hpoint =>
      apply Winds.of_eq h
      rw [hpoint]
      exact winds_checkOrExit (by simp [stepsLeft])
        ⟨.inl (by simp [stepsLeft]), fun _ => rfl, fun _ => rfl⟩
  · next hpoint =>
      apply Winds.of_eq h
      rw [hpoint]
      exact ⟨.inl (by simp [stepsLeft]), fun _ => rfl, fun _ => rfl⟩
  · next hpoint =>
      apply Winds.of_eq h
      rw [hpoint]
      exact ⟨.inl (by simp [stepsLeft, Loop.goto]), fun _ => rfl, fun h => (by cases h)⟩
  · next hpoint =>
      apply Winds.of_eq h
      rw [hpoint]
      exact winds_fetched
  · next hpoint =>
      apply Winds.of_eq h
      rw [hpoint]
      exact winds_wakeOrExit (by simp [stepsLeft]) (.of_lt (by simp [stepsLeft]) rfl rfl)
  · next hpoint =>
      apply Winds.of_eq h
      rw [hpoint]
      exact winds_checkOrExit (Nat.le_add_left 1 _) (.of_lt le_rfl rfl rfl)
  · next hpoint =>
      split at h
      · next horder =>
          apply Winds.of_eq h
          rw [hpoint]
          apply winds_nextPeer
          rw [← List.toFinset_card_of_nodup horder.1, horder.2]
          exact le_rfl
      · cases h
  · next hpoint =>
      rw [hpoint]
      split at h
      · apply Winds.of_eq h
        exact .of_lt le_rfl rfl rfl
      · apply Winds.of_eq h
        exact winds_nextPeer (Nat.le_add_right _ 2)
  · next hpoint =>
      apply Winds.of_eq h
      rw [hpoint]
      exact winds_wakeOrExit (Nat.le_add_left 1 _) (.of_lt le_rfl rfl rfl)
  · next hpoint =>
      rw [hpoint]
      split at h
      · apply Winds.of_eq h
        exact winds_nextPeer le_rfl
      · apply Winds.of_eq h
        exact .of_lt (Nat.le_add_left 6 _) rfl rfl
      · apply Winds.of_eq h
        exact .of_lt (Nat.le_add_left 6 _) rfl rfl
  · next hpoint =>
      rw [hpoint]
      split at h
      · apply Winds.of_eq h
        exact .of_lt (by simp [stepsLeft, Loop.goto]) rfl rfl
      · apply Winds.of_eq h
        exact winds_checkOrExit (by simp [stepsLeft]) (.of_lt (by simp [stepsLeft]) rfl rfl)
  · next hpoint =>
      apply Winds.of_eq h
      rw [hpoint]
      exact winds_wakeOrExit (by simp [stepsLeft]) (.of_lt (by simp [stepsLeft]) rfl rfl)
  · next hpoint =>
      apply Winds.of_eq h
      rw [hpoint]
      exact winds_finalChecked
  · next hpoint =>
      apply Winds.of_eq h
      rw [hpoint]
      exact winds_wakeOrExit (by simp [stepsLeft]) (.of_lt (by simp [stepsLeft]) rfl rfl)
  · cases h

/-- An answer to a loop that finds no neighbour. What it hears of the token and how its
waits end is given. -/
def Plain (cancelled : Bool) (wake : Wake) : Input X → Prop
  | .tokenCancelled seen => seen = cancelled
  | .isJoined answer => answer = .ok false
  | .woke chosen => chosen = wake
  | _ => True

theorem exists_plain_step (cfg : BootstrapConfig) (rp : RecordPublisher X) (cancelled : Bool)
    (wake : Wake) {point : Point X} (hpoint : l.point = point) (hrunning : point ≠ .exited) :
    ∃ input, Plain cancelled wake input ∧ (l.step cfg rp input).isSome = true := by
  cases point with
  | loopHead =>
      refine ⟨.tokenCancelled cancelled, rfl, ?_⟩
      cases cancelled <;> simp [Loop.step, hpoint]
  | clock => exact ⟨.minute 0, trivial, by simp [Loop.step, hpoint]⟩
  | fetchOlder w => exact ⟨.records .cancelled, trivial, by simp [Loop.step, hpoint]⟩
  | fetchNewer w older => exact ⟨.records .cancelled, trivial, by simp [Loop.step, hpoint]⟩
  | startJoining w current nodes =>
      refine ⟨.visit nodes.toList, trivial, ?_⟩
      simp [Loop.step, hpoint, nodes.nodup_toList, nodes.toList_toFinset]
  | joining w current peer rest =>
      exact ⟨.joinPeers (.ok ()), trivial, by simp [Loop.step, hpoint]⟩
  | noPeersWait w => exact ⟨.woke wake, rfl, by simp [Loop.step, hpoint]⟩
  | settling w current rest => exact ⟨.woke wake, rfl, by simp [Loop.step, hpoint]⟩
  | confirmWait w current => exact ⟨.woke wake, rfl, by simp [Loop.step, hpoint]⟩
  | pollWait w => exact ⟨.woke wake, rfl, by simp [Loop.step, hpoint]⟩
  | exited => exact absurd rfl hrunning
  | _ => exact ⟨.isJoined (.ok false), rfl, by simp [Loop.step, hpoint]⟩

theorem exists_plain_label (cfg : BootstrapConfig) (rp : RecordPublisher X) (cancelled : Bool)
    (wake : Wake) {p : Process X} (hrunning : p.loop.point ≠ .exited) :
    ∃ input, Plain cancelled wake input ∧ (p.step cfg rp (.loop input)).isSome = true := by
  obtain ⟨input, hinput, hsome⟩ := exists_plain_step cfg rp cancelled wake rfl hrunning
  obtain ⟨⟨loop, events⟩, hloop⟩ := Option.isSome_iff_exists.mp hsome
  exact ⟨input, hinput, by simp [Process.step, hloop]⟩

end Steps

section Runs

variable {unixMinute : UInt64} {p q : Process X}

def loopSteps : Label X → Nat
  | .loop _ => 1
  | .publish _ _ => 0

def SeesCancelledStep (_ : Process X) : Label X → Prop
  | .loop input => SeesCancelled input
  | .publish _ _ => True

def candidates (rp : RecordPublisher X) (log : List (Event X)) : Finset (EndpointId X) :=
  bootstrapNodes rp (currentIteration log).records

/-- The steps that a cancelled loop has at a point in all, with those behind it. -/
def allowance (rp : RecordPublisher X) (point : Point X) (log : List (Event X)) : Nat :=
  if beforeCollecting point = true then 11 else 3 * (candidates rp log).card + 11

structure Winding (rp : RecordPublisher X) (i : Nat) (steps : Nat) (p : Process X) : Prop where
  left : steps + stepsLeft p.loop.point ≤ allowance rp p.loop.point p.log
  iteration : p.loop.iteration ≤ i + if beforeClock p.loop.point = true then 0 else 1

theorem bootstrapNodes_mono {records records' : Finset Record} (h : records ⊆ records') :
    bootstrapNodes rp records ⊆ bootstrapNodes rp records' :=
  Finset.biUnion_subset_biUnion_of_subset_left _ h

theorem candidates_append_subset (rp : RecordPublisher X) (log : List (Event X))
    {events : List (Event X)}
    (h : ∀ event ∈ events, ¬ IsClock event) :
    candidates rp log ⊆ candidates rp (log ++ events) := by
  unfold candidates
  rw [currentIteration_append]
  exact bootstrapNodes_mono (records_subset_noteAll h _)

theorem length_le_candidates {it : IterationLog X} {rest : List (EndpointId X)}
    (h : Asks rp it rest) : rest.length ≤ (bootstrapNodes rp it.records).card := by
  rw [← h.complete, List.toFinset_card_of_nodup h.nodup, List.length_append]
  exact Nat.le_add_left _ _

theorem winding_of_reachable (h : Reachable cfg rp unixMinute p) :
    Winding rp p.loop.iteration 0 p := by
  refine ⟨?_, Nat.le_add_right _ _⟩
  have hcovering := covering_of_reachable h
  rw [Nat.zero_add]
  unfold allowance candidates
  cases hpoint : p.loop.point with
  | preJoinCheck w current nodes =>
      rw [hpoint] at hcovering
      simp [stepsLeft, beforeCollecting, hcovering.1]
  | startJoining w current nodes =>
      rw [hpoint] at hcovering
      simp [stepsLeft, beforeCollecting, hcovering.1]
  | joining w current peer rest =>
      rw [hpoint] at hcovering
      have hrest := length_le_candidates hcovering
      simp only [stepsLeft, beforeCollecting, Bool.false_eq_true, if_false]
      omega
  | settling w current rest =>
      rw [hpoint] at hcovering
      have hrest := length_le_candidates hcovering
      simp only [stepsLeft, beforeCollecting, Bool.false_eq_true, if_false]
      omega
  | settleCheck w current rest =>
      rw [hpoint] at hcovering
      have hrest := length_le_candidates hcovering
      simp only [stepsLeft, beforeCollecting, Bool.false_eq_true, if_false]
      omega
  | _ => simp [stepsLeft, beforeCollecting]

theorem candidates_eq_of_preJoinCheck (h : Reachable cfg rp unixMinute p) {w : Window}
    {current : Finset Record} {nodes : Finset (EndpointId X)}
    (hpoint : p.loop.point = .preJoinCheck w current nodes) : candidates rp p.log = nodes := by
  have hcovering := covering_of_reachable h
  rw [hpoint] at hcovering
  exact hcovering.1

theorem allowance_of_collecting {point : Point X} (h : beforeCollecting point = true)
    (log : List (Event X)) : allowance rp point log = 11 := if_pos h

theorem allowance_of_collected {point : Point X} (h : ¬ beforeCollecting point = true)
    (log : List (Event X)) : allowance rp point log = 3 * (candidates rp log).card + 11 :=
  if_neg h

theorem le_allowance (point : Point X) (log : List (Event X)) : 11 ≤ allowance rp point log := by
  unfold allowance
  split
  · exact le_rfl
  · exact Nat.le_add_left _ _

theorem allowance_mono {l l' : Loop X} {input : Input X} {events : List (Event X)}
    (htransition : Transition cfg rp l input l' events) (hwinds : Winds l.point l'.point)
    (log : List (Event X)) :
    allowance rp l.point log ≤ allowance rp l'.point (log ++ events) := by
  by_cases hbefore : beforeCollecting l.point = true
  · rw [allowance_of_collecting hbefore]
    exact le_allowance _ _
  · have hafter : ¬ beforeCollecting l'.point = true := fun h => hbefore (hwinds.collecting h)
    have hevents : ∀ event ∈ events, ¬ IsClock event := by
      rcases iteration_of_transition htransition with ⟨hclock, -, -⟩ | ⟨-, hevents⟩
      · rw [hclock] at hbefore
        exact absurd rfl hbefore
      · exact hevents
    have hcard := Finset.card_le_card (candidates_append_subset rp log hevents)
    rw [allowance_of_collected hbefore, allowance_of_collected hafter]
    omega

theorem winding_of_loop {i steps : Nat} {input : Input X} (hcancelled : SeesCancelled input)
    (hstep : p.step cfg rp (.loop input) = some q) (hq : Reachable cfg rp unixMinute q)
    (h : Winding rp i steps p) : Winding rp i (steps + 1) q := by
  obtain ⟨loop, events, hloop, rfl⟩ := exists_of_step_loop hstep
  have htransition := step_transition hloop
  have hwinds := winds_of_step hloop hcancelled
  constructor
  · rcases hwinds.left with hleft | ⟨w, older, current, nodes, hpoint, hnext⟩
    · have hbefore := h.left
      have hallowed := allowance_mono htransition hwinds p.log
      change steps + 1 + stepsLeft loop.point ≤ allowance rp loop.point (p.log ++ events)
      omega
    · have hbefore := h.left
      rw [hpoint, allowance_of_collecting rfl] at hbefore
      change steps + 8 ≤ 11 at hbefore
      have hnodes := candidates_eq_of_preJoinCheck hq hnext
      change candidates rp (p.log ++ events) = nodes at hnodes
      change steps + 1 + stepsLeft loop.point ≤ allowance rp loop.point (p.log ++ events)
      rw [hnext, allowance_of_collected (by simp [beforeCollecting]), hnodes]
      change steps + 1 + (3 * nodes.card + 7) ≤ 3 * nodes.card + 11
      omega
  · have hbefore := h.iteration
    change loop.iteration ≤ i + if beforeClock loop.point = true then 0 else 1
    rcases iteration_of_transition htransition with ⟨hclock, ⟨w, hnext⟩, hlater⟩ | ⟨hsame, -⟩
    · simp only [hclock, beforeClock, if_true] at hbefore
      rw [hlater, hnext]
      exact Nat.succ_le_succ hbefore
    · rw [hsame]
      refine hbefore.trans (Nat.add_le_add_left ?_ i)
      split
      · exact Nat.zero_le _
      · next hrunning => rw [if_neg fun hlater => hrunning (hwinds.clock hlater)]

theorem winding_of_step {i steps : Nat} {label : Label X} (hcancelled : SeesCancelledStep p label)
    (hstep : p.step cfg rp label = some q) (hreach : Reachable cfg rp unixMinute p)
    (h : Winding rp i steps p) : Winding rp i (steps + loopSteps label) q := by
  cases label with
  | loop input =>
      exact winding_of_loop hcancelled hstep (reachable_of_step hreach hstep) h
  | publish id input =>
      obtain ⟨publish, task, -, -, rfl⟩ := exists_of_step_publish hstep
      refine ⟨h.left.trans (le_of_eq ?_), h.iteration⟩
      simp only [allowance, candidates]
      rw [currentIteration_append, noteAll_of_unnoted unnoted_publishEvents]

/-- A loop whose token is cancelled, wherever it stands, begins at most one iteration
more and takes at most eleven steps and three for each candidate of its last iteration,
whatever the DHT, gossip and the clock answer and whichever branch a wait takes; until it
has exited, some answer lets it go on. -/
theorem cancelled_loop_ends {labels : List (Label X)} (h : Reachable cfg rp unixMinute p)
    (hcancelled : ∀ label ∈ labels, label ≠ .loop (.tokenCancelled false))
    (hrun : run (Process.step cfg rp) p labels = some q) :
    (labels.map loopSteps).sum ≤ 3 * (candidates rp q.log).card + 11 ∧
      q.loop.iteration ≤ p.loop.iteration + 1 ∧
      (q.loop.point ≠ .exited →
        ∃ input, SeesCancelled input ∧ (q.step cfg rp (.loop input)).isSome = true) := by
  have hsteps : AllSteps (Process.step cfg rp) SeesCancelledStep p labels := by
    refine .of_forall (fun label hlabel s => ?_) p
    cases label with
    | loop input => exact fun hinput => hcancelled _ hlabel (congrArg Label.loop hinput)
    | publish id input => trivial
  have hwinding : Reachable cfg rp unixMinute q ∧
      Winding rp p.loop.iteration (0 + (labels.map loopSteps).sum) q := by
    refine run_spends_of_allSteps (P := fun steps m => Reachable cfg rp unixMinute m ∧
      Winding rp p.loop.iteration steps m) ?_ hsteps hrun ⟨h, winding_of_reachable h⟩
    rintro steps s label t hstep hC ⟨hreach, hs⟩
    exact ⟨reachable_of_step hreach hstep, winding_of_step hC hstep hreach hs⟩
  obtain ⟨-, hleft, hiteration⟩ := hwinding
  rw [Nat.zero_add] at hleft
  refine ⟨?_, hiteration.trans (Nat.add_le_add_left ?_ _), fun hrunning => ?_⟩
  · refine (Nat.le_of_add_right_le hleft).trans ?_
    unfold allowance
    split
    · exact Nat.le_add_left _ _
    · exact le_rfl
  · split
    · exact Nat.zero_le 1
    · exact le_rfl
  · obtain ⟨input, hinput, hsome⟩ := exists_plain_label cfg rp true .cancelled hrunning
    refine ⟨input, ?_, hsome⟩
    rintro rfl
    cases hinput

end Runs

/-- While it joins the first of two peers, the token is cancelled; the attempt succeeds and
the wait behind it does not notice yet. -/
def cancelledWhileJoining : List (Label reference) :=
  [.loop (.joinPeers (.ok ())), .loop (.woke .slept), .loop (.isJoined (.ok false)),
    .loop (.joinPeers (.ok ())), .loop (.woke .cancelled)]

theorem cancelled_loop_ends_while_joining :
    ∃ p ∈ run (Process.step {} (samplePublisher 2 {}))
        (Process.start {} (samplePublisher 2 {}) 7) twoPeersRun,
      ∃ q ∈ run (Process.step {} (samplePublisher 2 {})) p cancelledWhileJoining,
        q.loop.point = .exited ∧ (cancelledWhileJoining.map loopSteps).sum ≤
          3 * (candidates (samplePublisher 2 {}) q.log).card + 11 := by
  have hrun : ∃ p ∈ run (Process.step {} (samplePublisher 2 {}))
        (Process.start {} (samplePublisher 2 {}) 7) twoPeersRun,
      ∃ q ∈ run (Process.step {} (samplePublisher 2 {})) p cancelledWhileJoining,
        q.loop.point = .exited := by
    decide +kernel
  obtain ⟨p, hp, q, hq, hexited⟩ := hrun
  refine ⟨p, hp, q, hq, hexited, (cancelled_loop_ends ⟨twoPeersRun, hp⟩ ?_ hq).1⟩
  simp [cancelledWhileJoining]

end TopicTracker.BootstrapShutdown
