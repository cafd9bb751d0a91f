import TopicTracker.BootstrapShutdown

namespace TopicTracker.BootstrapProgress

open TopicTracker.Configuration
open TopicTracker.RustValues
open TopicTracker.ThirdParty
open TopicTracker.ReferenceExternals (reference)
open TopicTracker.RecordCodec
open TopicTracker.EncryptedRecordCodec (zeroDraw)
open TopicTracker.RecordRetrieval
open TopicTracker.RecordPublishing
open TopicTracker.BootstrapLoop
open TopicTracker.BootstrapTransition
open TopicTracker.BootstrapProcess
open TopicTracker.StepMachine
open TopicTracker.CandidateCoverage
open TopicTracker.PeerJoining
open TopicTracker.BootstrapShutdown

variable {X : Externals} {cfg : BootstrapConfig} {rp : RecordPublisher X}

/-- Nothing is cancelled, and no check fails or finds a neighbour. The DHT, the clock and
the joins may answer what they like. -/
def Fruitless : Input X → Prop
  | .tokenCancelled cancelled => cancelled = false
  | .isJoined answer => answer = .ok false
  | .woke wake => wake ≠ .cancelled
  | _ => True

theorem fruitless_of_plain {input : Input X} (h : Plain false .slept input) :
    Fruitless input := by
  cases input with
  | woke wake =>
      obtain rfl : wake = .slept := h
      show Wake.slept ≠ .cancelled
      decide
  | _ => exact h

def begun (l : Loop X) : Nat := l.iteration + if beforeClock l.point = true then 1 else 0

/-- The steps that are due until the next loop head, if no iteration has more than `m`
candidates. -/
def due (m : Nat) (point : Point X) : Nat :=
  stepsLeft point + if beforeCollecting point = true then 3 * m else 0

theorem begun_le (l : Loop X) : begun l ≤ l.iteration + 1 := by
  unfold begun
  split
  · exact le_rfl
  · exact Nat.le_succ _

theorem one_le_due (m : Nat) {point : Point X} (h : point ≠ .exited) : 1 ≤ due m point := by
  refine le_trans ?_ (Nat.le_add_right _ _)
  cases point with
  | exited => exact absurd rfl h
  | _ => simp [stepsLeft]

section Steps

variable {l l' : Loop X} {input : Input X} {events : List (Event X)} {m : Nat}

theorem not_interrupts_of_fruitless (h : Fruitless input) : ¬ Interrupts input := by
  intro hinterrupts
  cases input with
  | tokenCancelled cancelled => cases h.symm.trans hinterrupts
  | isJoined answer =>
      obtain rfl : answer = .ok false := h
      exact hinterrupts
  | woke wake => exact h hinterrupts
  | _ => exact hinterrupts

theorem not_exited_of_transition (h : Transition cfg rp l input l' events)
    (hfruitless : Fruitless input) : l'.point ≠ .exited := by
  cases h with
  | tick unixMinute hpoint => simp
  | readOlder w answer hpoint => simp [Loop.goto]
  | noRecords w answer hpoint hnone => simp [Loop.goto]
  | collected w older answer hpoint => simp [Loop.goto]
  | notJoined w current hpoint => simp [Loop.goto]
  | settled w current rest hpoint => simp
  | moved input next events hpoint hnext hquiet =>
      rintro rfl
      exact hnext
  | joined site hpoint hsite => cases hfruitless
  | interrupted input events hpoint hinput hquiet =>
      exact absurd hinput (not_interrupts_of_fruitless hfruitless)

theorem goto_clock_of_headCheck (hpoint : l.point = .headCheck)
    (h : l.step cfg rp input = some (l', events)) (hfruitless : Fruitless input) :
    l' = l.goto .clock := by
  cases input with
  | isJoined answer =>
      obtain rfl : answer = .ok false := hfruitless
      simp only [Loop.step, hpoint, Loop.checkOrExit, Option.some.injEq, Prod.mk.injEq] at h
      exact h.1.symm
  | _ => simp [Loop.step, hpoint] at h

theorem iteration_of_clock (hpoint : l.point = .clock)
    (h : l.step cfg rp input = some (l', events)) : l'.iteration = l.iteration + 1 := by
  cases input with
  | minute unixMinute =>
      simp only [Loop.step, hpoint, Option.some.injEq, Prod.mk.injEq] at h
      rw [← h.1]
  | _ => simp [Loop.step, hpoint] at h

theorem begun_mono (h : l.step cfg rp input = some (l', events)) (hfruitless : Fruitless input) :
    begun l ≤ begun l' := by
  have hsame : l.iteration ≤ l'.iteration := by
    rcases iteration_of_transition (step_transition h) with ⟨-, -, hnext⟩ | ⟨hsame, -⟩
    · exact hnext.symm ▸ Nat.le_succ _
    · exact hsame.ge
  cases hpoint : l.point with
  | headCheck =>
      obtain rfl := goto_clock_of_headCheck hpoint h hfruitless
      simp [begun, hpoint, Loop.goto, beforeClock]
  | clock =>
      have hnext := iteration_of_clock hpoint h
      simp only [begun, hpoint, beforeClock, if_true]
      omega
  | _ => simpa [begun, hpoint, beforeClock] using hsame.trans (Nat.le_add_right _ _)

theorem due_of_step (h : l.step cfg rp input = some (l', events)) (hseen : SeesCancelled input)
    (hnodes : ∀ w current nodes, l'.point = .preJoinCheck w current nodes → nodes.card ≤ m) :
    due m l'.point + 1 ≤ due m l.point := by
  have hwinds := winds_of_step h hseen
  rcases hwinds.left with hleft | ⟨w, older, current, nodes, hpoint, hnext⟩
  · have hcollecting := hwinds.collecting
    unfold due
    split
    · next hlater =>
        rw [if_pos (hcollecting hlater)]
        omega
    · omega
  · have hcard := hnodes w current nodes hnext
    rw [hpoint, hnext]
    show 3 * nodes.card + 7 + 0 + 1 ≤ 8 + 3 * m
    omega

theorem of_loopHead (h : l.step cfg rp (.tokenCancelled false) = some (l', events)) :
    l.point = .loopHead ∧ l' = l.goto .headCheck := by
  cases hpoint : l.point with
  | loopHead =>
      simp only [Loop.step, hpoint, Option.some.injEq, Prod.mk.injEq] at h
      exact ⟨rfl, h.1.symm⟩
  | _ => simp [Loop.step, hpoint] at h

/-- The steps taken so far and those due are paid for by the iterations begun. -/
def Paid (m steps : Nat) (l : Loop X) : Prop :=
  steps + due m l.point ≤ begun l * (3 * m + 11) + 1

theorem paid_of_step {steps : Nat} (h : l.step cfg rp input = some (l', events))
    (hfruitless : Fruitless input)
    (hnodes : ∀ w current nodes, l'.point = .preJoinCheck w current nodes → nodes.card ≤ m)
    (hpaid : Paid m steps l) : Paid m (steps + 1) l' := by
  unfold Paid at hpaid ⊢
  by_cases hseen : SeesCancelled input
  · have hdue := due_of_step h hseen hnodes
    have hbegun := Nat.mul_le_mul_right (3 * m + 11) (begun_mono h hfruitless)
    omega
  · obtain rfl := not_not.mp hseen
    obtain ⟨hpoint, rfl⟩ := of_loopHead h
    have hbegun : begun (l.goto .headCheck) = begun l + 1 := by
      simp [begun, hpoint, Loop.goto, beforeClock]
    rw [hbegun, Nat.succ_mul]
    rw [hpoint] at hpaid
    change steps + 1 ≤ _ at hpaid
    show steps + 1 + (11 + 3 * m) ≤ _
    omega

end Steps

section Runs

variable {unixMinute : UInt64} {p q : Process X} {m : Nat}

def FruitlessStep : Label X → Prop
  | .loop input => Fruitless input
  | .publish _ _ => True

def FewCandidates (rp : RecordPublisher X) (m : Nat) (p : Process X) : Prop :=
  (candidates rp p.log).card ≤ m

instance FewCandidates.decidable (rp : RecordPublisher X) (m : Nat) :
    DecidablePred (FewCandidates rp m) :=
  fun p => inferInstanceAs (Decidable ((candidates rp p.log).card ≤ m))

theorem paid_of_label {steps : Nat} {label : Label X} (hstep : p.step cfg rp label = some q)
    (hfruitless : FruitlessStep label) (hfew : FewCandidates rp m q)
    (hreach : Reachable cfg rp unixMinute p) (hpaid : Paid m steps p.loop) :
    Paid m (steps + loopSteps label) q.loop := by
  cases label with
  | loop input =>
      have hq := reachable_of_step hreach hstep
      have hnodes : ∀ w current nodes, q.loop.point = .preJoinCheck w current nodes →
          nodes.card ≤ m := by
        intro w current nodes hpoint
        rw [← candidates_eq_of_preJoinCheck hq hpoint]
        exact hfew
      obtain ⟨loop, events, hloop, rfl⟩ := exists_of_step_loop hstep
      exact paid_of_step hloop hfruitless hnodes hpaid
  | publish id input =>
      obtain ⟨publish, task, -, -, rfl⟩ := exists_of_step_publish hstep
      exact hpaid

theorem not_exited_of_step {label : Label X} (hstep : p.step cfg rp label = some q)
    (hfruitless : FruitlessStep label) (h : p.loop.point ≠ .exited) : q.loop.point ≠ .exited := by
  cases label with
  | loop input =>
      obtain ⟨loop, events, hloop, rfl⟩ := exists_of_step_loop hstep
      exact not_exited_of_transition (step_transition hloop) hfruitless
  | publish id input =>
      obtain ⟨publish, task, -, -, rfl⟩ := exists_of_step_publish hstep
      exact h

/-- Whatever the DHT, the clock and the joins answer, a bootstrap loop that finds no
neighbour goes on for ever: it does not exit, it can always take a step, and it begins
another iteration each eleven steps and three for each candidate. -/
theorem keeps_searching {labels : List (Label X)}
    (hrun : run (Process.step cfg rp) (Process.start cfg rp unixMinute) labels = some p)
    (hfruitless : ∀ label ∈ labels, FruitlessStep label)
    (hfew : Throughout (Process.step cfg rp) (FewCandidates rp m)
      (Process.start cfg rp unixMinute) labels) :
    (labels.map loopSteps).sum ≤ (p.loop.iteration + 1) * (3 * m + 11) ∧
      p.loop.point ≠ .exited ∧
      ∃ input, Fruitless input ∧ (p.step cfg rp (.loop input)).isSome = true := by
  have hsteps : AllSteps (Process.step cfg rp) (fun s label => FruitlessStep label ∧
      (FewCandidates rp m s ∧ ∀ t ∈ s.step cfg rp label, FewCandidates rp m t))
      (Process.start cfg rp unixMinute) labels :=
    (AllSteps.of_forall (fun label hlabel _ => hfruitless label hlabel) _).and hfew.allSteps
  have hinvariant : (Reachable cfg rp unixMinute p ∧ p.loop.point ≠ .exited) ∧
      Paid m (0 + (labels.map loopSteps).sum) p.loop := by
    refine run_spends_of_allSteps (P := fun steps q =>
      (Reachable cfg rp unixMinute q ∧ q.loop.point ≠ .exited) ∧ Paid m steps q.loop) ?_ hsteps
      hrun ⟨⟨⟨[], rfl⟩, by simp [Process.start, startLoop]⟩, ?_⟩
    · rintro steps s label t hstep ⟨hlabel, -, hnext⟩ ⟨⟨hreach, hrunning⟩, hpaid⟩
      exact ⟨⟨reachable_of_step hreach hstep, not_exited_of_step hstep hlabel hrunning⟩,
        paid_of_label hstep hlabel (hnext t hstep) hreach hpaid⟩
    · simp [Paid, due, begun, Process.start, startLoop, stepsLeft, beforeCollecting, beforeClock]
  obtain ⟨⟨-, hrunning⟩, hpaid⟩ := hinvariant
  obtain ⟨input, hinput, hsome⟩ := exists_plain_label cfg rp false .slept hrunning
  refine ⟨?_, hrunning, input, fruitless_of_plain hinput, hsome⟩
  have hdue := one_le_due m hrunning
  have hbegun := Nat.mul_le_mul_right (3 * m + 11) (begun_le p.loop)
  unfold Paid at hpaid
  omega

end Runs

def aloneRun : List (Label reference) :=
  [.loop (.tokenCancelled false), .loop (.isJoined (.ok false)), .loop (.minute 7),
    .loop (.records .cancelled), .loop (.records (.ready (.ok []))),
    .publish 0 (.read .cancelled zeroDraw), .loop (.woke .slept),
    .loop (.tokenCancelled false), .loop (.isJoined (.ok false)), .loop (.minute 8)]

theorem keeps_searching_alone :
    ∃ p ∈ run (Process.step {} (samplePublisher 2 {}))
        (Process.start {} (samplePublisher 2 {}) 7) aloneRun,
      (aloneRun.map loopSteps).sum ≤ (p.loop.iteration + 1) * 11 ∧ p.loop.point ≠ .exited := by
  have hrun : ∃ p ∈ run (Process.step {} (samplePublisher 2 {}))
        (Process.start {} (samplePublisher 2 {}) 7) aloneRun,
      Throughout (Process.step {} (samplePublisher 2 {})) (FewCandidates (samplePublisher 2 {}) 0)
        (Process.start {} (samplePublisher 2 {}) 7) aloneRun := by
    decide +kernel
  obtain ⟨p, hp, hfew⟩ := hrun
  have hfruitless : ∀ label ∈ aloneRun, FruitlessStep label := by
    simp [aloneRun, FruitlessStep, Fruitless]
  obtain ⟨hsteps, hrunning, -⟩ := keeps_searching hp hfruitless hfew
  exact ⟨p, hp, hsteps, hrunning⟩

end TopicTracker.BootstrapProgress
