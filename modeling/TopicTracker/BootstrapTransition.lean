import TopicTracker.BootstrapLoop

namespace TopicTracker.BootstrapTransition

open TopicTracker.Configuration
open TopicTracker.RustValues
open TopicTracker.ThirdParty
open TopicTracker.RecordCodec
open TopicTracker.RecordRetrieval
open TopicTracker.BootstrapLoop

variable {X : Externals}

namespace Point

/-- The window of an iteration and the records of its newer slot, once fetched. -/
def fetched : Point X → Option (Window × Finset Record)
  | .preJoinCheck w current _ => some (w, current)
  | .startJoining w current _ => some (w, current)
  | .joining w current _ _ => some (w, current)
  | .settling w current _ => some (w, current)
  | .settleCheck w current _ => some (w, current)
  | .confirmCheck w current => some (w, current)
  | .confirmWait w current => some (w, current)
  | .finalCheck w current => some (w, current)
  | _ => none

def window : Point X → Option Window
  | .fetchOlder w => some w
  | .fetchNewer w _ => some w
  | .noPeersWait w => some w
  | .pollWait w => some w
  | point => (fetched point).map Prod.fst

def Ended (w : Window) (point : Point X) : Prop :=
  point = .noPeersWait w ∨ point = .pollWait w

/-- Points entered by a step that reads nothing, publishes nothing and stays in
the loop. -/
def Follows (point : Point X) : Point X → Prop
  | .loopHead => ∃ w, Ended w point
  | .headCheck => point = .loopHead
  | .clock => point = .headCheck
  | .startJoining w current nodes => point = .preJoinCheck w current nodes
  | .joining w current _ _ => fetched point = some (w, current)
  | .settling w current _ => fetched point = some (w, current)
  | .settleCheck w current _ => fetched point = some (w, current)
  | .confirmCheck w current => fetched point = some (w, current)
  | .confirmWait w current => fetched point = some (w, current)
  | .finalCheck w current => fetched point = some (w, current)
  | _ => False

theorem window_of_fetched {point : Point X} {w : Window} {current : Finset Record}
    (h : fetched point = some (w, current)) : window point = some w := by
  cases point <;> simp_all [fetched, window]

theorem Follows.window_eq {point next : Point X} (h : Follows point next)
    (hended : ∀ w, ¬ Ended w point) : window next = window point := by
  cases next with
  | loopHead => exact absurd h.choose_spec (hended _)
  | headCheck => rw [show point = .loopHead from h]; rfl
  | clock => rw [show point = .headCheck from h]; rfl
  | startJoining w current nodes => rw [show point = .preJoinCheck w current nodes from h]; rfl
  | joining w current peer rest => exact (window_of_fetched h).symm
  | settling w current rest => exact (window_of_fetched h).symm
  | settleCheck w current rest => exact (window_of_fetched h).symm
  | confirmCheck w current => exact (window_of_fetched h).symm
  | confirmWait w current => exact (window_of_fetched h).symm
  | finalCheck w current => exact (window_of_fetched h).symm
  | fetchOlder w => exact h.elim
  | fetchNewer w older => exact h.elim
  | noPeersWait w => exact h.elim
  | preJoinCheck w current nodes => exact h.elim
  | pollWait w => exact h.elim
  | exited => exact h.elim

theorem Follows.fetched_of {point next : Point X} (h : Follows point next) {w : Window}
    {current : Finset Record} (hnext : fetched next = some (w, current)) :
    fetched point = some (w, current) := by
  cases next with
  | startJoining w' current' nodes =>
      rw [show point = .preJoinCheck w' current' nodes from h]
      exact hnext
  | joining w' current' peer rest => exact Eq.trans h hnext
  | settling w' current' rest => exact Eq.trans h hnext
  | settleCheck w' current' rest => exact Eq.trans h hnext
  | confirmCheck w' current' => exact Eq.trans h hnext
  | confirmWait w' current' => exact Eq.trans h hnext
  | finalCheck w' current' => exact Eq.trans h hnext
  | preJoinCheck w' current' nodes => exact h.elim
  | _ => cases hnext

theorem Ended.window_eq {point : Point X} {w : Window} (h : Ended w point) :
    window point = some w := by
  rcases h with rfl | rfl
  · rfl
  · rfl

theorem Follows.window_of_ended {point next : Point X} (h : Follows point next) {w : Window}
    (hended : Ended w point) : window next = none := by
  cases next with
  | loopHead => rfl
  | headCheck => rfl
  | clock => rfl
  | _ => rcases hended with rfl | rfl <;> cases h

theorem Follows.window_of {point next : Point X} (h : Follows point next) {w : Window}
    (hnext : window next = some w) : window point = some w := by
  by_cases hended : ∃ w', Ended w' point
  · rcases hended with ⟨w', hw'⟩
    rw [h.window_of_ended hw'] at hnext
    cases hnext
  · rw [← h.window_eq fun w' hw' => hended ⟨w', hw'⟩]
    exact hnext

theorem Follows.not_ended {point next : Point X} (h : Follows point next) (w : Window) :
    ¬ Ended w next := by
  rintro (rfl | rfl)
  · exact h
  · exact h

end Point

/-- Membership checks and joins, except a settle check that found a neighbour. -/
def Quiet : Event X → Prop
  | .checked .settle (.ok true) => False
  | .checked _ _ => True
  | .joinRequested _ => True
  | .joinCompleted _ => True
  | _ => False

def Interrupts : Input X → Prop
  | .tokenCancelled cancelled => cancelled = true
  | .isJoined (.error _) => True
  | .woke wake => wake = .cancelled
  | _ => False

inductive Transition (cfg : BootstrapConfig) (rp : RecordPublisher X) (l : Loop X) :
    Input X → Loop X → List (Event X) → Prop
  | tick (unixMinute : UInt64) :
      l.point = .clock →
      Transition cfg rp l (.minute unixMinute)
        { l with
          point := .fetchOlder (Window.select cfg l.lastPublishedUnixMinute unixMinute)
          iteration := l.iteration + 1 }
        [.clock unixMinute]
  | readOlder (w : Window) (answer : Awaited (List MutableItem)) :
      l.point = .fetchOlder w →
      Transition cfg rp l (.records answer)
        (l.goto (.fetchNewer w (unwrapOrDefault (rp.getRecords w.older answer))))
        [.read (.older l.iteration) w.older (rp.getRecords w.older answer)]
  | noRecords (w : Window) (answer : Awaited (List MutableItem)) :
      l.point = .fetchNewer w ∅ →
      unwrapOrDefault (rp.getRecords w.newer answer) = ∅ →
      Transition cfg rp l (.records answer)
        ((Loop.publishIfDue rp l w ∅).1.goto (.noPeersWait w))
        (.read (.newer l.iteration) w.newer (rp.getRecords w.newer answer) ::
          (Loop.publishIfDue rp l w ∅).2)
  | collected (w : Window) (older : Finset Record) (answer : Awaited (List MutableItem)) :
      l.point = .fetchNewer w older →
      Transition cfg rp l (.records answer)
        (l.goto (.preJoinCheck w (unwrapOrDefault (rp.getRecords w.newer answer))
          (bootstrapNodes rp (older ∪ unwrapOrDefault (rp.getRecords w.newer answer)))))
        [.read (.newer l.iteration) w.newer (rp.getRecords w.newer answer)]
  | notJoined (w : Window) (current : Finset Record) :
      l.point = .finalCheck w current →
      Transition cfg rp l (.isJoined (.ok false))
        ((Loop.publishIfDue rp l w current).1.goto (.pollWait w))
        (.checked .final (.ok false) :: (Loop.publishIfDue rp l w current).2)
  | settled (w : Window) (current : Finset Record) (rest : List (EndpointId X)) :
      l.point = .settleCheck w current rest →
      Transition cfg rp l (.isJoined (.ok true))
        { l with point := .confirmCheck w current, isJoinedRet := true }
        [.checked .settle (.ok true)]
  | moved (input : Input X) (next : Point X) (events : List (Event X)) :
      l.point ≠ .exited → Point.Follows l.point next → (∀ event ∈ events, Quiet event) →
      Transition cfg rp l input (l.goto next) events
  | joined (site : CheckSite) :
      l.point ≠ .exited → site ≠ .settle →
      Transition cfg rp l (.isJoined (.ok true))
        { l with point := .exited, isJoinedRet := true }
        [.checked site (.ok true), .signalled (.ok ())]
  | interrupted (input : Input X) (events : List (Event X)) :
      l.point ≠ .exited → Interrupts input → (∀ event ∈ events, Quiet event) →
      Transition cfg rp l input (Loop.exit l).1 (events ++ (Loop.exit l).2)

variable {cfg : BootstrapConfig} {rp : RecordPublisher X} {l : Loop X}

theorem Transition.running {input : Input X} {l' : Loop X} {events : List (Event X)}
    (h : Transition cfg rp l input l' events) : l.point ≠ .exited := by
  cases h with
  | tick unixMinute hpoint => simp [hpoint]
  | readOlder w answer hpoint => simp [hpoint]
  | noRecords w answer hpoint hnone => simp [hpoint]
  | collected w older answer hpoint => simp [hpoint]
  | notJoined w current hpoint => simp [hpoint]
  | settled w current rest hpoint => simp [hpoint]
  | moved input next events hpoint hnext hquiet => exact hpoint
  | joined site hpoint hsite => exact hpoint
  | interrupted input events hpoint hinput hquiet => exact hpoint

theorem Transition.of_eq {input : Input X} {l' : Loop X} {events : List (Event X)}
    {next : Loop X × List (Event X)} (h : some next = some (l', events))
    (hnext : Transition cfg rp l input next.1 next.2) : Transition cfg rp l input l' events := by
  obtain rfl := Option.some.inj h
  exact hnext

theorem transition_checkOrExit {site : CheckSite} {answer : Result Bool} (next : Point X)
    (hpoint : l.point ≠ .exited) (hsite : site ≠ .settle) (hnext : Point.Follows l.point next) :
    Transition cfg rp l (.isJoined answer) (Loop.checkOrExit l site answer next).1
      (Loop.checkOrExit l site answer next).2 := by
  have hquiet : ∀ event ∈ [Event.checked (X := X) site answer], Quiet event := by
    cases site <;> simp_all [Quiet]
  match answer with
  | .ok false => exact .moved _ next _ hpoint hnext hquiet
  | .ok true => exact .joined site hpoint hsite
  | .error e => exact .interrupted (.isJoined (.error e)) _ hpoint trivial hquiet

theorem transition_wakeOrExit {wake : Wake} {next : Point X} (hpoint : l.point ≠ .exited)
    (hnext : Point.Follows l.point next) :
    Transition cfg rp l (.woke wake) (Loop.wakeOrExit l wake next).1
      (Loop.wakeOrExit l wake next).2 := by
  have hquiet : ∀ event ∈ ([] : List (Event X)), Quiet event := by simp
  cases wake with
  | slept => exact .moved _ next _ hpoint hnext hquiet
  | joined => exact .moved _ next _ hpoint hnext hquiet
  | cancelled => exact .interrupted (.woke .cancelled) [] hpoint rfl hquiet

theorem transition_nextPeer {w : Window} {current : Finset Record} {input : Input X}
    (events : List (Event X)) (hfetched : Point.fetched l.point = some (w, current))
    (hquiet : ∀ event ∈ events, Quiet event) (order : List (EndpointId X)) :
    Transition cfg rp l input (Loop.nextPeer l w current order).1
      (events ++ (Loop.nextPeer l w current order).2) := by
  have hpoint : l.point ≠ .exited := by
    intro h
    simp [h, Point.fetched] at hfetched
  cases order with
  | nil =>
      rw [Loop.nextPeer, List.append_nil]
      exact .moved _ _ _ hpoint hfetched hquiet
  | cons peer rest =>
      refine .moved _ _ _ hpoint hfetched ?_
      rintro event hevent
      rcases List.mem_append.mp hevent with hevent | hevent
      · exact hquiet event hevent
      · obtain rfl := List.mem_singleton.mp hevent
        trivial

theorem transition_fetched {w : Window} {older : Finset Record}
    {answer : Awaited (List MutableItem)} (hpoint : l.point = .fetchNewer w older) :
    Transition cfg rp l (.records answer)
      (Loop.fetched rp l w older (unwrapOrDefault (rp.getRecords w.newer answer))).1
      (.read (.newer l.iteration) w.newer (rp.getRecords w.newer answer) ::
        (Loop.fetched rp l w older (unwrapOrDefault (rp.getRecords w.newer answer))).2) := by
  unfold Loop.fetched
  split
  · next hnone =>
      rw [Finset.union_eq_empty] at hnone
      rw [hnone.1] at hpoint
      rw [hnone.2]
      exact .noRecords w answer hpoint hnone.2
  · exact .collected w older answer hpoint

theorem transition_joining {w : Window} {current : Finset Record} {peer : EndpointId X}
    {rest : List (EndpointId X)} {result : Result Unit} {l' : Loop X} {events : List (Event X)}
    (hpoint : l.point = .joining w current peer rest)
    (h : l.step cfg rp (.joinPeers result) = some (l', events)) :
    Transition cfg rp l (.joinPeers result) l' events := by
  have hfetched : Point.fetched l.point = some (w, current) := by simp [hpoint, Point.fetched]
  have hquiet : ∀ event ∈ [Event.joinCompleted (X := X) result], Quiet event := by simp [Quiet]
  simp only [Loop.step, hpoint] at h
  cases result with
  | ok =>
      apply Transition.of_eq h
      exact .moved _ _ _ (by simp [hpoint]) hfetched hquiet
  | error e =>
      apply Transition.of_eq h
      exact transition_nextPeer _ hfetched hquiet rest

theorem transition_settleCheck {w : Window} {current : Finset Record}
    {rest : List (EndpointId X)} {answer : Result Bool} {l' : Loop X} {events : List (Event X)}
    (hpoint : l.point = .settleCheck w current rest)
    (h : l.step cfg rp (.isJoined answer) = some (l', events)) :
    Transition cfg rp l (.isJoined answer) l' events := by
  have hfetched : Point.fetched l.point = some (w, current) := by simp [hpoint, Point.fetched]
  simp only [Loop.step, hpoint] at h
  match answer with
  | .ok false =>
      apply Transition.of_eq h
      exact transition_nextPeer [.checked .settle (.ok false)] hfetched (by simp [Quiet]) rest
  | .ok true =>
      apply Transition.of_eq h
      exact .settled w current rest hpoint
  | .error e =>
      apply Transition.of_eq h
      exact .moved _ _ _ (by simp [hpoint]) hfetched (by simp [Quiet])

theorem transition_confirmCheck {w : Window} {current : Finset Record}
    {answer : Result Bool} {l' : Loop X} {events : List (Event X)}
    (hpoint : l.point = .confirmCheck w current)
    (h : l.step cfg rp (.isJoined answer) = some (l', events)) :
    Transition cfg rp l (.isJoined answer) l' events := by
  have hfetched : Point.fetched l.point = some (w, current) := by simp [hpoint, Point.fetched]
  simp only [Loop.step, hpoint] at h
  match answer with
  | .ok true =>
      apply Transition.of_eq h
      exact .moved _ _ _ (by simp [hpoint]) hfetched (by simp [Quiet])
  | .ok false =>
      apply Transition.of_eq h
      exact transition_checkOrExit _ (by simp [hpoint]) (by simp) hfetched
  | .error e =>
      apply Transition.of_eq h
      exact transition_checkOrExit (.confirmWait w current) (by simp [hpoint])
        (by simp) hfetched

theorem transition_finalCheck {w : Window} {current : Finset Record}
    {answer : Result Bool} {l' : Loop X} {events : List (Event X)}
    (hpoint : l.point = .finalCheck w current)
    (h : l.step cfg rp (.isJoined answer) = some (l', events)) :
    Transition cfg rp l (.isJoined answer) l' events := by
  simp only [Loop.step, hpoint] at h
  apply Transition.of_eq h
  match answer with
  | .ok false => exact .notJoined w current hpoint
  | .ok true => exact .joined .final (by simp [hpoint]) (by simp)
  | .error e =>
      exact .interrupted (.isJoined (.error e)) [.checked .final (.error e)] (by simp [hpoint])
        trivial (by simp [Quiet])

/-- Every step of the loop is one of the transitions. -/
theorem step_transition {l' : Loop X} {input : Input X} {events : List (Event X)}
    (h : l.step cfg rp input = some (l', events)) : Transition cfg rp l input l' events := by
  have hstep := h
  unfold Loop.step at h
  split at h
  · next hpoint =>
      apply Transition.of_eq h
      exact .interrupted _ [] (by simp [hpoint]) rfl (by simp)
  · next hpoint =>
      apply Transition.of_eq h
      exact .moved _ _ _ (by simp [hpoint]) hpoint (by simp)
  · next hpoint =>
      apply Transition.of_eq h
      exact transition_checkOrExit _ (by simp [hpoint]) (by simp) hpoint
  · next hpoint =>
      apply Transition.of_eq h
      exact .tick _ hpoint
  · next hpoint =>
      apply Transition.of_eq h
      exact .readOlder _ _ hpoint
  · next hpoint =>
      apply Transition.of_eq h
      exact transition_fetched hpoint
  · next hpoint =>
      apply Transition.of_eq h
      exact transition_wakeOrExit (by simp [hpoint]) ⟨_, .inl hpoint⟩
  · next hpoint =>
      apply Transition.of_eq h
      exact transition_checkOrExit _ (by simp [hpoint]) (by simp) hpoint
  · next hpoint =>
      split at h
      · apply Transition.of_eq h
        exact transition_nextPeer [] (by simp [hpoint, Point.fetched]) (by simp) _
      · cases h
  · next hpoint => exact transition_joining hpoint hstep
  · next hpoint =>
      apply Transition.of_eq h
      exact transition_wakeOrExit (by simp [hpoint])
        (by simp [hpoint, Point.Follows, Point.fetched])
  · next hpoint => exact transition_settleCheck hpoint hstep
  · next hpoint => exact transition_confirmCheck hpoint hstep
  · next hpoint =>
      apply Transition.of_eq h
      exact transition_wakeOrExit (by simp [hpoint])
        (by simp [hpoint, Point.Follows, Point.fetched])
  · next hpoint => exact transition_finalCheck hpoint hstep
  · next hpoint =>
      apply Transition.of_eq h
      exact transition_wakeOrExit (by simp [hpoint]) ⟨_, .inr hpoint⟩
  · cases h

end TopicTracker.BootstrapTransition
