import TopicTracker.JoinFanOut

namespace TopicTracker.MinimalDisruption

open TopicTracker.Configuration
open TopicTracker.RustValues
open TopicTracker.ThirdParty
open TopicTracker.ReferenceExternals (reference)
open TopicTracker.RecordCodec
open TopicTracker.RecordRetrieval
open TopicTracker.RecordPublishing
open TopicTracker.BootstrapLoop
open TopicTracker.BootstrapTransition
open TopicTracker.StepMachine
open TopicTracker.BootstrapProcess
open TopicTracker.JoinSteps
open TopicTracker.JoinFanOut

variable {X : Externals}

def noteRequest (asked : List (EndpointId X)) : Event X → List (EndpointId X)
  | .clock _ => []
  | .joinRequested peers => asked ++ peers
  | _ => asked

/-- The peers asked to join since the clock was last read, which starts an iteration. -/
def askedInIteration (log : List (Event X)) : List (EndpointId X) :=
  log.foldl noteRequest []

/-- The end of a membership check, the start and the end of a join attempt. -/
def AboutJoining : Event X → Prop
  | .checked _ _ => True
  | .joinRequested _ => True
  | .joinCompleted _ => True
  | _ => False

/-- A membership check that answered false, and no attempt or other check since. -/
def Cleared (log : List (Event X)) : Prop :=
  ∃ past site recent, log = past ++ .checked site (.ok false) :: recent ∧
    ∀ event ∈ recent, ¬ AboutJoining event

/-- Every join request and the events before it are related. -/
def Requests (P : List (Event X) → List (EndpointId X) → Prop) (log : List (Event X)) : Prop :=
  ∀ before peers, before ++ [.joinRequested peers] <+: log → P before peers

/-- A request for one peer that the iteration has not asked for yet. -/
structure SingleRequest (before : List (Event X)) (peers : List (EndpointId X)) : Prop where
  single : peers.length = 1
  fresh : ∀ peer ∈ peers, peer ∉ askedInIteration before

/-- Whether the topic has a neighbour when the event after some events happens, as
the checks report it. -/
def Reported (connected : List (Event X) → Prop) (log : List (Event X)) : Prop :=
  ∀ before site answer, before ++ [.checked site (.ok answer)] <+: log →
    (answer = true ↔ connected before)

def IsAttempt : Event X → Prop
  | .joinRequested _ => True
  | .joinCompleted _ => True
  | _ => False

/-- At some moment after the last attempt the topic had no neighbour. -/
def AloneSinceAttempt (connected : List (Event X) → Prop) (log : List (Event X)) : Prop :=
  ∃ past recent, log = past ++ recent ∧ (∀ event ∈ recent, ¬ IsAttempt event) ∧ ¬ connected past

/-- What `start_bootstrap` says about joining peers. -/
structure MinimallyDisruptive (log : List (Event X)) : Prop where
  single : Requests SingleRequest log
  cleared : Requests (fun before _ => Cleared before) log
  alone : ∀ connected, Reported connected log →
    Requests (fun before _ => AloneSinceAttempt connected before) log

section Log

variable {log events : List (Event X)} {event : Event X}

theorem askedInIteration_append :
    askedInIteration (log ++ events) = events.foldl noteRequest (askedInIteration log) :=
  List.foldl_append

theorem noteRequest_eq (h : KeepsAsked event) (asked : List (EndpointId X)) :
    noteRequest asked event = asked := by
  cases event with
  | clock unixMinute => exact h.elim
  | joinRequested peers => exact h.elim
  | _ => rfl

theorem askedInIteration_append_of_keeps (log : List (Event X))
    (h : ∀ event ∈ events, KeepsAsked event) :
    askedInIteration (log ++ events) = askedInIteration log := by
  rw [askedInIteration_append]
  induction events generalizing log with
  | nil => rfl
  | cons event events ih =>
      obtain ⟨hfirst, hrest⟩ := List.forall_mem_cons.mp h
      rw [List.foldl_cons, noteRequest_eq hfirst]
      exact ih log hrest

theorem last_or_earlier {before : List (Event X)} {event' : Event X}
    (h : before ++ [event'] <+: log ++ [event]) :
    (before = log ∧ event' = event) ∨ before ++ [event'] <+: log := by
  rcases List.prefix_concat_iff.mp h with heq | hearlier
  · obtain ⟨hlog, hlast⟩ := List.append_inj' heq rfl
    exact .inl ⟨hlog, List.singleton_injective hlast⟩
  · exact .inr hearlier

theorem requests_append_singleton {P : List (Event X) → List (EndpointId X) → Prop} :
    Requests P (log ++ [event]) ↔
      Requests P log ∧ ∀ peers, event = .joinRequested peers → P log peers := by
  constructor
  · intro h
    refine ⟨fun before peers hearlier => h before peers (List.prefix_append_of_prefix hearlier), ?_⟩
    rintro peers rfl
    exact h log peers List.prefix_rfl
  · rintro ⟨hlog, hevent⟩ before peers hwithin
    rcases last_or_earlier hwithin with ⟨rfl, hlast⟩ | hearlier
    · exact hevent peers hlast.symm
    · exact hlog before peers hearlier

theorem Requests.append_of_keeps {P : List (Event X) → List (EndpointId X) → Prop}
    (h : Requests P log) (hevents : ∀ event ∈ events, KeepsAsked event) :
    Requests P (log ++ events) := by
  induction events generalizing log with
  | nil => rwa [List.append_nil]
  | cons event events ih =>
      obtain ⟨hfirst, hrest⟩ := List.forall_mem_cons.mp hevents
      rw [List.append_cons]
      refine ih (requests_append_singleton.mpr ⟨h, ?_⟩) hrest
      rintro peers rfl
      exact hfirst.elim

theorem requests_nil (P : List (Event X) → List (EndpointId X) → Prop) : Requests P [] := by
  intro before peers hearlier
  simp at hearlier

theorem Cleared.append (h : Cleared log) (hevents : ∀ event ∈ events, ¬ AboutJoining event) :
    Cleared (log ++ events) := by
  obtain ⟨past, site, recent, rfl, hrecent⟩ := h
  refine ⟨past, site, recent ++ events, by simp, ?_⟩
  intro event hevent
  rcases List.mem_append.mp hevent with hevent | hevent
  · exact hrecent event hevent
  · exact hevents event hevent

theorem cleared_of_checked (log : List (Event X)) (site : CheckSite) :
    Cleared (log ++ [.checked site (.ok false)]) :=
  ⟨log, site, [], rfl, by simp⟩

theorem eq_nil_of_attempt_last {last : Event X} {past recent : List (Event X)}
    (heq : log ++ [last] = past ++ recent) (hlast : IsAttempt last)
    (hrecent : ∀ event ∈ recent, ¬ IsAttempt event) : recent = [] := by
  rcases List.eq_nil_or_concat recent with rfl | ⟨recent, event, rfl⟩
  · rfl
  · rw [List.concat_eq_append, ← List.append_assoc] at heq
    obtain rfl := List.singleton_injective (List.append_inj' heq rfl).2
    exact absurd hlast (hrecent last (by simp))

theorem IsAttempt.aboutJoining (h : IsAttempt event) : AboutJoining event := by
  cases event with
  | joinRequested peers => trivial
  | joinCompleted result => trivial
  | _ => exact h.elim

theorem not_isAttempt_of_checked {site : CheckSite} {recent : List (Event X)}
    (hrecent : ∀ event ∈ recent, ¬ AboutJoining event) :
    ∀ event ∈ (.checked site (.ok false) :: recent : List (Event X)), ¬ IsAttempt event := by
  intro event hevent hattempt
  rcases List.mem_cons.mp hevent with rfl | hevent
  · exact hattempt
  · exact hrecent event hevent hattempt.aboutJoining

theorem not_cleared_of_completed (log : List (Event X)) (result : Result Unit) :
    ¬ Cleared (log ++ [.joinCompleted result]) := by
  rintro ⟨past, site, recent, heq, hrecent⟩
  cases eq_nil_of_attempt_last heq trivial (not_isAttempt_of_checked hrecent)

theorem alone_of_cleared (h : Requests (fun before _ => Cleared before) log)
    {connected : List (Event X) → Prop} (hreported : Reported connected log) :
    Requests (fun before _ => AloneSinceAttempt connected before) log := by
  intro before peers hearlier
  obtain ⟨past, site, recent, rfl, hrecent⟩ := h before peers hearlier
  refine ⟨past, _, rfl, not_isAttempt_of_checked hrecent, ?_⟩
  intro hconnected
  have hcheck : past ++ [.checked site (.ok false)] <+: log := by
    refine List.IsPrefix.trans ⟨recent ++ [.joinRequested peers], ?_⟩ hearlier
    simp
  cases (hreported past site false hcheck).mpr hconnected

end Log

structure Asking (point : Point X) (log : List (Event X)) : Prop where
  single : Requests SingleRequest log
  distinct : (askedInIteration log ++ peersLeft point).Nodup
  unasked : Unjoined point → askedInIteration log = []

structure Checking (point : Point X) (log : List (Event X)) : Prop where
  cleared : Requests (fun before _ => Cleared before) log
  start : IsStartJoining point → Cleared log

section Invariant

variable {point next : Point X} {log events : List (Event X)}

theorem Asking.append (h : Asking point log) (hkeeps : ∀ event ∈ events, KeepsAsked event) :
    Asking point (log ++ events) where
  single := h.single.append_of_keeps hkeeps
  distinct := by
    rw [askedInIteration_append_of_keeps _ hkeeps]
    exact h.distinct
  unasked hunjoined := by
    rw [askedInIteration_append_of_keeps _ hkeeps]
    exact h.unasked hunjoined

theorem Asking.goto (h : Asking point log) (hnext : KeepsPeers point next) :
    Asking next log where
  single := h.single
  distinct := by
    rcases hnext.left with hleft | hleft
    · rw [hleft, List.append_nil]
      exact h.distinct.of_append_left
    · rw [hleft]
      exact h.distinct
  unasked hunjoined := h.unasked (hnext.unjoined hunjoined)

theorem asking_request {peer : EndpointId X} {rest : List (EndpointId X)} (w : Window)
    (current : Finset Record) (h : Requests SingleRequest log)
    (hdistinct : (askedInIteration log ++ peer :: rest).Nodup) :
    Asking (.joining w current peer rest) (log ++ [.joinRequested [peer]]) where
  single := by
    refine requests_append_singleton.mpr ⟨h, ?_⟩
    rintro peers ⟨⟩
    refine ⟨rfl, ?_⟩
    intro asked hasked hbefore
    obtain rfl := List.mem_singleton.mp hasked
    exact (List.disjoint_of_nodup_append hdistinct) hbefore List.mem_cons_self
  distinct := by
    rw [List.append_cons] at hdistinct
    rwa [askedInIteration_append]
  unasked hunjoined := hunjoined.elim

theorem Asking.ask_next {event : Event X} {peer : EndpointId X} {rest : List (EndpointId X)}
    (h : Asking point log) (w : Window) (current : Finset Record)
    (hleft : peersLeft point = peer :: rest) (hevent : KeepsAsked event) :
    Asking (.joining w current peer rest) (log ++ [event, .joinRequested [peer]]) := by
  have hevents : ∀ event' ∈ [event], KeepsAsked event' := by simpa using hevent
  have hdistinct := h.distinct
  rw [hleft] at hdistinct
  rw [List.append_cons]
  refine asking_request w current (h.single.append_of_keeps hevents) ?_
  rw [askedInIteration_append_of_keeps _ hevents]
  exact hdistinct

theorem asking_of_joinStep {input : Input X} (h : Asking point log)
    (hstep : JoinStep point input next events) : Asking next (log ++ events) := by
  cases hstep with
  | ticked unixMinute w =>
      have hasked : askedInIteration (log ++ [.clock unixMinute]) = [] := by
        rw [askedInIteration_append]
        rfl
      refine ⟨?_, ?_, fun _ => hasked⟩
      · exact requests_append_singleton.mpr ⟨h.single, fun peers heq => by cases heq⟩
      · rw [hasked]
        exact List.nodup_nil
  | kept input next events hnext hevents => exact (h.append hevents).goto hnext
  | cleared w current nodes hpoint =>
      have hevents : ∀ event ∈ [Event.checked (X := X) .preJoin (.ok false)],
          KeepsAsked event := by
        simp [KeepsAsked]
      have hasked := askedInIteration_append_of_keeps log hevents
      refine ⟨h.single.append_of_keeps hevents, ?_, fun _ => ?_⟩
      · rw [hasked, show peersLeft (.startJoining w current nodes) = [] from rfl,
          List.append_nil]
        exact h.distinct.of_append_left
      · rw [hasked]
        exact h.unasked (by rw [hpoint]; trivial)
  | first w current nodes peer rest hpoint hnodup =>
      refine asking_request w current h.single ?_
      rw [h.unasked (by rw [hpoint]; trivial)]
      exact hnodup
  | next w current peer rest hpoint =>
      exact h.ask_next w current (by rw [hpoint]; rfl) (by simp [KeepsAsked])
  | skipped w current failed peer rest fault hpoint =>
      exact h.ask_next w current (by rw [hpoint]; rfl) (by simp [KeepsAsked])

/-- A failed join attempt with candidates left: the next one is asked for without a
check. -/
def SkipsCheck (point : Point X) (input : Input X) : Prop :=
  (∃ fault, input = .joinPeers (.error fault)) ∧ peersLeft point ≠ []

theorem checking_request {peer : EndpointId X} {rest : List (EndpointId X)} (w : Window)
    (current : Finset Record) (h : Requests (fun before _ => Cleared before) log)
    (hcleared : Cleared log) :
    Checking (.joining w current peer rest) (log ++ [.joinRequested [peer]]) :=
  ⟨requests_append_singleton.mpr ⟨h, fun _ _ => hcleared⟩, fun hstart => hstart.elim⟩

theorem checking_of_joinStep {input : Input X} (h : Checking point log)
    (hchecked : ¬ SkipsCheck point input) (hstep : JoinStep point input next events) :
    Checking next (log ++ events) := by
  cases hstep with
  | ticked unixMinute w =>
      refine ⟨requests_append_singleton.mpr ⟨h.cleared, ?_⟩, fun hstart => hstart.elim⟩
      intro peers heq
      cases heq
  | kept input next events hnext hevents =>
      exact ⟨h.cleared.append_of_keeps hevents, fun hstart => absurd hstart hnext.start⟩
  | cleared w current nodes hpoint =>
      exact ⟨h.cleared.append_of_keeps (by simp [KeepsAsked]),
        fun _ => cleared_of_checked log .preJoin⟩
  | first w current nodes peer rest hpoint hnodup =>
      exact checking_request w current h.cleared (h.start (by rw [hpoint]; trivial))
  | next w current peer rest hpoint =>
      rw [List.append_cons]
      exact checking_request w current (h.cleared.append_of_keeps (by simp [KeepsAsked]))
        (cleared_of_checked log .settle)
  | skipped w current failed peer rest fault hpoint =>
      exact absurd ⟨⟨fault, rfl⟩, by simp [hpoint, peersLeft]⟩ hchecked

theorem Checking.append (h : Checking point log) (hkeeps : ∀ event ∈ events, KeepsAsked event)
    (hevents : ∀ event ∈ events, ¬ AboutJoining event) : Checking point (log ++ events) :=
  ⟨h.cleared.append_of_keeps hkeeps, fun hstart => (h.start hstart).append hevents⟩

end Invariant

section Runs

variable {cfg : BootstrapConfig} {rp : RecordPublisher X} {p q : Process X}
  {unixMinute : UInt64}

theorem not_aboutJoining_publishEvents {id : Nat} {task : PublishTask} {input : PublishInput} :
    ∀ event ∈ publishEvents rp id task input, ¬ AboutJoining event := by
  intro event hevent
  rcases mem_publishEvents hevent with ⟨answer, draw, -, -, -, rfl⟩ | ⟨put, -, -, rfl⟩
  · exact not_false
  · exact not_false

theorem asking_start :
    Asking (Process.start cfg rp unixMinute).loop.point (Process.start cfg rp unixMinute).log := by
  have hnil : Asking (.loopHead : Point X) [] :=
    ⟨requests_nil _, List.nodup_nil, fun hunjoined => hunjoined.elim⟩
  change Asking .loopHead (startupEvents cfg rp unixMinute)
  rcases startupEvents_eq cfg rp unixMinute with hnone | ⟨events, hsome, hevents⟩
  · rwa [hnone]
  · rw [hsome]
    have hclock := asking_of_joinStep hnil (.ticked unixMinute ⟨unixMinute, 0, true⟩)
    exact (hclock.goto (.of_idle rfl id id)).append hevents

theorem checking_start : Checking (Process.start cfg rp unixMinute).loop.point
    (Process.start cfg rp unixMinute).log := by
  refine ⟨?_, fun hstart => hstart.elim⟩
  change Requests _ (startupEvents cfg rp unixMinute)
  rcases startupEvents_eq cfg rp unixMinute with hnone | ⟨events, hsome, hevents⟩
  · rw [hnone]
    exact requests_nil _
  · rw [hsome]
    refine Requests.append_of_keeps (requests_append_singleton.mpr ⟨requests_nil _, ?_⟩) hevents
    intro peers heq
    cases heq

theorem asking_of_reachable (h : Reachable cfg rp unixMinute p) : Asking p.loop.point p.log := by
  refine h.induction (P := fun p => Asking p.loop.point p.log) asking_start ?_
  intro p label q hstep hp
  cases label with
  | loop input =>
      obtain ⟨loop, events, hloop, rfl⟩ := exists_of_step_loop hstep
      exact asking_of_joinStep hp (step_joinStep hloop)
  | publish id input =>
      obtain ⟨publish, task, -, -, rfl⟩ := exists_of_step_publish hstep
      exact hp.append keepsAsked_publishEvents

def Rechecks (p : Process X) : Label X → Prop
  | .loop input => ¬ SkipsCheck p.loop.point input
  | .publish _ _ => True

theorem rechecks_of_succeeds {label : Label X}
    (h : ∀ fault, label ≠ .loop (.joinPeers (.error fault))) : Rechecks p label := by
  cases label with
  | loop input =>
      rintro ⟨⟨fault, rfl⟩, -⟩
      exact h fault rfl
  | publish id input => trivial

theorem checking_of_step {label : Label X} (hstep : p.step cfg rp label = some q)
    (hchecked : Rechecks p label) (hp : Checking p.loop.point p.log) :
    Checking q.loop.point q.log := by
  cases label with
  | loop input =>
      obtain ⟨loop, events, hloop, rfl⟩ := exists_of_step_loop hstep
      exact checking_of_joinStep hp hchecked (step_joinStep hloop)
  | publish id input =>
      obtain ⟨publish, task, -, -, rfl⟩ := exists_of_step_publish hstep
      exact hp.append keepsAsked_publishEvents not_aboutJoining_publishEvents

theorem log_prefix_of_step {label : Label X} (hstep : p.step cfg rp label = some q) :
    p.log <+: q.log := by
  cases label with
  | loop input =>
      obtain ⟨loop, events, -, rfl⟩ := exists_of_step_loop hstep
      exact List.prefix_append _ _
  | publish id input =>
      obtain ⟨publish, task, -, -, rfl⟩ := exists_of_step_publish hstep
      exact List.prefix_append _ _

theorem log_prefix_of_run {labels : List (Label X)}
    (hrun : run (Process.step cfg rp) p labels = some q) : p.log <+: q.log := by
  refine run_preserves (P := fun m => p.log <+: m.log) ?_ hrun List.prefix_rfl
  intro m label n hstep hm
  exact hm.trans (log_prefix_of_step hstep)

/-- A failed join attempt with candidates left is followed at once by a request. -/
theorem log_of_skipsCheck {input : Input X} (hstep : p.step cfg rp (.loop input) = some q)
    (hskips : SkipsCheck p.loop.point input) : ∃ fault peer,
      q.log = p.log ++ [.joinCompleted (.error fault)] ++ [.joinRequested [peer]] := by
  obtain ⟨⟨fault, rfl⟩, hleft⟩ := hskips
  obtain ⟨loop, events, hloop, rfl⟩ := exists_of_step_loop hstep
  cases hpoint : p.loop.point with
  | joining w current failed rest =>
      rw [hpoint] at hleft
      obtain ⟨peer, rest, rfl⟩ := List.exists_cons_of_ne_nil hleft
      simp only [Loop.step, hpoint, Loop.nextPeer, Option.some.injEq, Prod.mk.injEq] at hloop
      obtain ⟨rfl, rfl⟩ := hloop
      exact ⟨fault, peer, List.append_cons ..⟩
  | _ => simp [Loop.step, hpoint] at hloop

theorem not_cleared_of_skipsCheck {input : Input X}
    (hstep : p.step cfg rp (.loop input) = some q) (hskips : SkipsCheck p.loop.point input) :
    ¬ Requests (fun before _ => Cleared before) q.log := by
  obtain ⟨fault, peer, hlog⟩ := log_of_skipsCheck hstep hskips
  intro hcleared
  refine not_cleared_of_completed p.log (.error fault) (hcleared _ [peer] ?_)
  rw [hlog]

/-- A run asks for one peer at a time, never twice in an iteration and only on a check
that found no neighbour since the last attempt, exactly when no join attempt fails
while candidates are left. -/
theorem minimallyDisruptive_iff {labels : List (Label X)}
    (hrun : run (Process.step cfg rp) (Process.start cfg rp unixMinute) labels = some p) :
    MinimallyDisruptive p.log ↔
      AllSteps (Process.step cfg rp) Rechecks (Process.start cfg rp unixMinute) labels := by
  constructor
  · intro h
    by_contra hskips
    obtain ⟨before, label, after, m, n, -, -, hskip, hstep, hafter⟩ :=
      exists_step_of_not_allSteps hrun hskips
    cases label with
    | loop input =>
        refine not_cleared_of_skipsCheck hstep (not_not.mp hskip) ?_
        intro past peers hearlier
        exact h.cleared past peers (hearlier.trans (log_prefix_of_run hafter))
    | publish id input => exact hskip trivial
  · intro hrechecks
    have hasking := asking_of_reachable ⟨labels, hrun⟩
    have hchecking : Checking p.loop.point p.log :=
      run_preserves_of_allSteps (P := fun p => Checking p.loop.point p.log)
        (fun s label t hstep hchecked hs => checking_of_step hstep hchecked hs) hrechecks hrun
        checking_start
    exact ⟨hasking.single, hchecking.cleared,
      fun connected hreported => alone_of_cleared hchecking.cleared hreported⟩

end Runs

def twoPeersRun : List (Label reference) :=
  [.loop (.tokenCancelled false), .loop (.isJoined (.ok false)), .loop (.minute 7),
    .loop (.records (.ready (.ok []))),
    .loop (.records (.ready (.ok (bareItems 1 ++ bareItems 3)))),
    .loop (.isJoined (.ok false)), .loop (.visit [sampleEndpoint 1, sampleEndpoint 3])]

/-- The first attempt ends without a neighbour, so the second peer is asked for. -/
def settledJoinRun : List (Label reference) :=
  twoPeersRun ++ [.loop (.joinPeers (.ok ())), .loop (.woke .slept), .loop (.isJoined (.ok false))]

theorem minimallyDisruptive_settledJoinRun :
    ∃ p ∈ run (Process.step {} (samplePublisher 2 {}))
        (Process.start {} (samplePublisher 2 {}) 7) settledJoinRun,
      p.log.filterMap joinRequested = [[sampleEndpoint 1], [sampleEndpoint 3]] ∧
        MinimallyDisruptive p.log := by
  have hrun : ∃ p ∈ run (Process.step {} (samplePublisher 2 {}))
        (Process.start {} (samplePublisher 2 {}) 7) settledJoinRun,
      p.log.filterMap joinRequested = [[sampleEndpoint 1], [sampleEndpoint 3]] := by
    decide +kernel
  obtain ⟨p, hp, hrequests⟩ := hrun
  refine ⟨p, hp, hrequests, (minimallyDisruptive_iff hp).mpr (AllSteps.of_forall ?_ _)⟩
  intro label hlabel m
  apply rechecks_of_succeeds
  rintro fault rfl
  simp [settledJoinRun, twoPeersRun] at hlabel

section FailedJoin

variable {log : List (Event X)} {event : Event X}

def checkAnswer : Event X → Option Bool
  | .checked _ (.ok answer) => some answer
  | _ => none

theorem Reported.append_singleton {connected : List (Event X) → Prop}
    (h : Reported connected log)
    (hevent : ∀ answer, checkAnswer event = some answer → (answer = true ↔ connected log)) :
    Reported connected (log ++ [event]) := by
  intro before site answer hwithin
  rcases last_or_earlier hwithin with ⟨rfl, rfl⟩ | hearlier
  · exact hevent answer rfl
  · exact h before site answer hearlier

def ConnectedByAttempt (log : List (Event X)) : Prop :=
  ∃ event ∈ log, joinRequested event ≠ none

theorem reported_before_attempts
    (hlog : ∀ event ∈ log, joinRequested event = none ∧ checkAnswer event ≠ some true) :
    Reported ConnectedByAttempt log := by
  rintro before site answer ⟨after, rfl⟩
  constructor
  · rintro rfl
    exact absurd rfl (hlog (.checked site (.ok true)) (by simp)).2
  · rintro ⟨event, hevent, hrequest⟩
    exact absurd (hlog event (by simp [hevent])).1 hrequest

/-- The second request goes out although a neighbour connected during the first attempt. -/
theorem not_alone_of_failed_attempt {peers next : List (EndpointId X)} {fault : Fault}
    (hlog : ∀ event ∈ log, joinRequested event = none ∧ checkAnswer event ≠ some true) :
    ¬ MinimallyDisruptive
      (log ++ [.joinRequested peers, .joinCompleted (.error fault), .joinRequested next]) := by
  intro h
  have hattempt : Reported ConnectedByAttempt
      (log ++ [.joinRequested peers] ++ [.joinCompleted (.error fault)] ++
        [.joinRequested next]) := by
    have hbefore := reported_before_attempts hlog
    refine Reported.append_singleton (.append_singleton (hbefore.append_singleton ?_) ?_) ?_
    · intro answer hanswer
      cases hanswer
    · intro answer hanswer
      cases hanswer
    · intro answer hanswer
      cases hanswer
  have hlast : log ++ [.joinRequested peers] ++ [.joinCompleted (.error fault)] ++
      [.joinRequested next] =
        log ++ [.joinRequested peers, .joinCompleted (.error fault), .joinRequested next] := by
    simp
  rw [← hlast] at h
  obtain ⟨past, recent, heq, hrecent, halone⟩ :=
    h.alone ConnectedByAttempt hattempt _ next List.prefix_rfl
  obtain rfl := eq_nil_of_attempt_last heq trivial hrecent
  rw [List.append_nil] at heq
  apply halone
  rw [← heq]
  exact ⟨.joinRequested peers, by simp, Option.some_ne_none peers⟩

end FailedJoin

def joinTimeout : Fault := .bail "join_peers timed out"

/-- The attempt to join the first of two peers times out. -/
def failedJoinRun : List (Label reference) :=
  twoPeersRun ++ [.loop (.joinPeers (.error joinTimeout))]

theorem failedJoin_disrupts :
    ∃ p ∈ run (Process.step {} (samplePublisher 2 {}))
        (Process.start {} (samplePublisher 2 {}) 7) failedJoinRun,
      ¬ MinimallyDisruptive p.log := by
  have hrun : ∃ p ∈ run (Process.step {} (samplePublisher 2 {}))
        (Process.start {} (samplePublisher 2 {}) 7) failedJoinRun,
      (∀ event ∈ p.log.take 7, joinRequested event = none ∧ checkAnswer event ≠ some true) ∧
        p.log.drop 7 = [.joinRequested [sampleEndpoint 1], .joinCompleted (.error joinTimeout),
          .joinRequested [sampleEndpoint 3]] := by
    decide +kernel
  obtain ⟨p, hp, hbefore, hattempts⟩ := hrun
  refine ⟨p, hp, ?_⟩
  rw [← List.take_append_drop 7 p.log, hattempts]
  exact not_alone_of_failed_attempt hbefore

end TopicTracker.MinimalDisruption
