import TopicTracker.BootstrapProcess

namespace TopicTracker.BootstrapOutcome

open TopicTracker.Configuration
open TopicTracker.RustValues
open TopicTracker.ThirdParty
open TopicTracker.ReferenceExternals (reference)
open TopicTracker.RecordCodec
open TopicTracker.EncryptedRecordCodec (zeroDraw)
open TopicTracker.RecordRetrieval
open TopicTracker.RecordPublishing
open TopicTracker.BootstrapLoop
open TopicTracker.BootstrapTransition
open TopicTracker.BootstrapProcess
open TopicTracker.StepMachine

variable {X : Externals} {cfg : BootstrapConfig} {rp : RecordPublisher X} {p q : Process X}

/-- Before the loop exits, nothing is signalled and the success flag says whether
some settle check found a neighbour. -/
structure Pending (p : Process X) : Prop where
  silent : ∀ result, .signalled result ∉ p.log
  flag : p.loop.isJoinedRet = true ↔ .checked .settle (.ok true) ∈ p.log

def Neutral (event : Event X) : Prop :=
  event ≠ .checked .settle (.ok true) ∧ ∀ result, event ≠ .signalled result

theorem Neutral.of_quiet {event : Event X} (h : Quiet event) : Neutral event := by
  constructor
  · rintro rfl
    exact h
  · rintro result rfl
    exact h

theorem Neutral.of_startupEvents {unixMinute : UInt64} {event : Event X}
    (h : event ∈ startupEvents cfg rp unixMinute) : Neutral event := by
  rcases mem_startupEvents h with rfl | ⟨content, rfl⟩
  · simp [Neutral]
  · simp [Neutral]

theorem Neutral.of_publishIfDue {l : Loop X} {w : Window} {current : Finset Record}
    {event : Event X} (h : event ∈ (Loop.publishIfDue rp l w current).2) :
    Neutral event := by
  obtain ⟨content, rfl⟩ := mem_publishIfDue h
  simp [Neutral]

theorem Neutral.of_publishEvents {id : Nat} {task : PublishTask} {input : PublishInput}
    {event : Event X} (h : event ∈ publishEvents rp id task input) : Neutral event := by
  rcases mem_publishEvents h with ⟨answer, draw, -, -, -, rfl⟩ | ⟨put, -, -, rfl⟩
  · simp [Neutral]
  · simp [Neutral]

theorem Pending.append (h : Pending p) {loop : Loop X} {publishes : List Publish}
    {events : List (Event X)} (hflag : loop.isJoinedRet = p.loop.isJoinedRet)
    (hneutral : ∀ event ∈ events, Neutral event) :
    Pending ⟨loop, publishes, p.log ++ events⟩ where
  silent result hmem := by
    rcases List.mem_append.mp hmem with hmem | hmem
    · exact h.silent result hmem
    · exact (hneutral _ hmem).2 result rfl
  flag := by
    have hnew : .checked .settle (.ok true) ∉ events := fun hmem => (hneutral _ hmem).1 rfl
    change loop.isJoinedRet = true ↔ .checked .settle (.ok true) ∈ p.log ++ events
    rw [hflag, h.flag, List.mem_append, or_iff_left hnew]

theorem pending_start (unixMinute : UInt64) : Pending (Process.start cfg rp unixMinute) where
  silent result hmem := (Neutral.of_startupEvents hmem).2 result rfl
  flag := by
    constructor
    · intro h
      cases h
    · intro hmem
      exact absurd rfl (Neutral.of_startupEvents hmem).1

theorem pending_of_transition {input : Input X} {loop : Loop X} {events : List (Event X)}
    (h : Transition cfg rp p.loop input loop events) (hp : Pending p)
    (hrunning : loop.point ≠ .exited) :
    Pending ⟨loop, p.publishes ++ events.filterMap spawned, p.log ++ events⟩ := by
  cases h with
  | tick unixMinute hpoint => exact hp.append rfl (by simp [Neutral])
  | readOlder w answer hpoint => exact hp.append rfl (by simp [Neutral])
  | noRecords w answer hpoint hnone =>
      refine hp.append (publishIfDue_isJoinedRet p.loop w ∅) (List.forall_mem_cons.mpr ⟨?_, ?_⟩)
      · simp [Neutral]
      · exact fun event => Neutral.of_publishIfDue
  | collected w older answer hpoint => exact hp.append rfl (by simp [Neutral])
  | notJoined w current hpoint =>
      refine hp.append (publishIfDue_isJoinedRet p.loop w current)
        (List.forall_mem_cons.mpr ⟨?_, ?_⟩)
      · simp [Neutral]
      · exact fun event => Neutral.of_publishIfDue
  | settled w current rest hpoint =>
      refine ⟨?_, by simp⟩
      simpa using hp.silent
  | moved input next events hpoint hnext hquiet =>
      exact hp.append rfl fun event hevent => .of_quiet (hquiet event hevent)
  | joined site hpoint hsite => exact absurd rfl hrunning
  | interrupted input events hpoint hinput hquiet => exact absurd rfl hrunning

theorem pending_of_reachable {unixMinute : UInt64} (h : Reachable cfg rp unixMinute p)
    (hrunning : p.loop.point ≠ .exited) : Pending p := by
  revert hrunning
  refine h.induction (P := fun p => p.loop.point ≠ .exited → Pending p)
    (fun _ => pending_start unixMinute) (step_preserves ?_ ?_)
  · intro p input loop events htransition hp
    exact pending_of_transition htransition (hp htransition.running)
  · intro p id input publish task _ _ hp hrunning
    exact (hp hrunning).append rfl fun event => Neutral.of_publishEvents

/-- The result sent when `input` ends the loop is `Ok` exactly when that input is a
membership check that found a neighbour, and `Err` only for a cancellation or a
check that failed. -/
def Truthful (q : Process X) (input : Input X) : Prop :=
  (.signalled (.ok ()) ∈ q.log ↔ input = .isJoined (.ok true)) ∧
    ∀ fault, .signalled (.error fault) ∈ q.log → Interrupts input

theorem truthful_of_joined {site : CheckSite} (hp : Pending p) {loop : Loop X}
    {publishes : List Publish} :
    Truthful ⟨loop, publishes, p.log ++ [.checked site (.ok true), .signalled (.ok ())]⟩
      (.isJoined (.ok true)) := by
  refine ⟨by simp, ?_⟩
  intro fault hmem
  simp [hp.silent] at hmem

theorem not_joined_of_interrupts {input : Input X} (h : Interrupts input) :
    input ≠ .isJoined (.ok true) := by
  rintro rfl
  exact h

theorem signalled_of_interrupted {events : List (Event X)} (hp : Pending p)
    (hquiet : ∀ event ∈ events, Quiet event) (result : Result Unit) :
    .signalled result ∈ p.log ++ (events ++ (Loop.exit p.loop).2) ↔
      result = if p.loop.isJoinedRet then .ok ()
        else .error (.bail "Bootstrap process failed or was cancelled") := by
  have hnew : .signalled result ∉ events := fun hmem =>
    (Neutral.of_quiet (hquiet _ hmem)).2 result rfl
  simp [hp.silent, hnew, Loop.exit]

def peerItem : List MutableItem :=
  match publishRecord (samplePublisher 1 {})
    (Record.signContent reference (zeroBytes 32) 7 ⟨[]⟩ (List.Vector.replicate 32 1))
    (.ready (.ok [])) zeroDraw with
  | .ok (some put) => [put.item]
  | _ => []

/-- A node finds its only peer, loses it before the confirming check and waits. -/
def flappingRun : List (Label reference) :=
  [.loop (.tokenCancelled false), .loop (.isJoined (.ok false)), .loop (.minute 7),
    .loop (.records (.ready (.ok []))), .loop (.records (.ready (.ok peerItem))),
    .loop (.isJoined (.ok false)), .loop (.visit [sampleEndpoint 1]),
    .loop (.joinPeers (.ok ())), .loop (.woke .slept), .loop (.isJoined (.ok true)),
    .loop (.isJoined (.ok false))]

theorem exists_flappingRun :
    ∃ p ∈ run (Process.step {} (samplePublisher 2 {}))
        (Process.start {} (samplePublisher 2 {}) 7) flappingRun,
      ∃ q ∈ p.step {} (samplePublisher 2 {}) (.loop (.woke .cancelled)),
        q.loop.point = .exited ∧ .signalled (.ok ()) ∈ q.log := by
  decide +kernel

/-- The outcome is truthful unless the loop is interrupted after some settle check
had found a neighbour. -/
theorem truthful_iff {unixMinute : UInt64} {input : Input X}
    (hreach : Reachable cfg rp unixMinute p) (hstep : p.step cfg rp (.loop input) = some q)
    (hexited : q.loop.point = .exited) :
    Truthful q input ↔
      input = .isJoined (.ok true) ∨ .checked .settle (.ok true) ∉ p.log := by
  obtain ⟨loop, events, hloop, rfl⟩ := exists_of_step_loop hstep
  have htransition := step_transition hloop
  have hp := pending_of_reachable hreach htransition.running
  cases htransition with
  | tick unixMinute hpoint => cases hexited
  | readOlder w answer hpoint => cases hexited
  | noRecords w answer hpoint hnone => cases hexited
  | collected w older answer hpoint => cases hexited
  | notJoined w current hpoint => cases hexited
  | settled w current rest hpoint => cases hexited
  | moved input next events hpoint hnext hquiet =>
      obtain rfl : next = .exited := hexited
      exact hnext.elim
  | joined site hpoint hsite => simp [truthful_of_joined hp]
  | interrupted input events hpoint hinput hquiet =>
      have hresult := signalled_of_interrupted hp hquiet
      rw [or_iff_right (not_joined_of_interrupts hinput), ← hp.flag, Truthful]
      simp only [hresult, not_joined_of_interrupts hinput, iff_false]
      constructor
      · rintro ⟨hok, -⟩ hflag
        simp [hflag] at hok
      · intro hflag
        simp [hflag, hinput]

theorem truthful_iff_flappingRun :
    ∃ p ∈ run (Process.step {} (samplePublisher 2 {}))
        (Process.start {} (samplePublisher 2 {}) 7) flappingRun,
      ∃ q ∈ p.step {} (samplePublisher 2 {}) (.loop (.woke .cancelled)),
        q.loop.point = .exited ∧
          (Truthful q (.woke .cancelled) ↔
            Input.woke (X := reference) .cancelled = .isJoined (.ok true) ∨
              .checked .settle (.ok true) ∉ p.log) := by
  obtain ⟨p, hp, q, hq, hexited, -⟩ := exists_flappingRun
  exact ⟨p, hp, q, hq, hexited, truthful_iff ⟨flappingRun, hp⟩ hq hexited⟩

theorem cancelled_after_settle_reports_ok :
    ∃ p ∈ run (Process.step {} (samplePublisher 2 {}))
        (Process.start {} (samplePublisher 2 {}) 7) flappingRun,
      ∃ q ∈ p.step {} (samplePublisher 2 {}) (.loop (.woke .cancelled)),
        q.loop.point = .exited ∧ ¬ Truthful q (.woke .cancelled) := by
  obtain ⟨p, hp, q, hq, hexited, hsignalled⟩ := exists_flappingRun
  refine ⟨p, hp, q, hq, hexited, fun htruthful => ?_⟩
  cases htruthful.1.mp hsignalled

end TopicTracker.BootstrapOutcome
