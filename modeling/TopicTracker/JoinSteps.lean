import TopicTracker.BootstrapProcess

namespace TopicTracker.JoinSteps

open TopicTracker.Configuration
open TopicTracker.RustValues
open TopicTracker.ThirdParty
open TopicTracker.RecordCodec
open TopicTracker.RecordRetrieval
open TopicTracker.RecordPublishing
open TopicTracker.BootstrapLoop
open TopicTracker.BootstrapProcess

variable {X : Externals}

def KeepsAsked : Event X → Prop
  | .clock _ => False
  | .joinRequested _ => False
  | _ => True

def peersLeft : Point X → List (EndpointId X)
  | .joining _ _ _ rest => rest
  | .settling _ _ rest => rest
  | .settleCheck _ _ rest => rest
  | _ => []

def Unjoined : Point X → Prop
  | .fetchOlder _ => True
  | .fetchNewer _ _ => True
  | .preJoinCheck _ _ _ => True
  | .startJoining _ _ _ => True
  | _ => False

def IsStartJoining : Point X → Prop
  | .startJoining _ _ _ => True
  | _ => False

structure KeepsPeers (point next : Point X) : Prop where
  left : peersLeft next = [] ∨ peersLeft next = peersLeft point
  unjoined : Unjoined next → Unjoined point
  start : ¬ IsStartJoining next

/-- What a step of the loop means for the peers it asks for. -/
inductive JoinStep (point : Point X) : Input X → Point X → List (Event X) → Prop
  | ticked (unixMinute : UInt64) (w : Window) :
      JoinStep point (.minute unixMinute) (.fetchOlder w) [.clock unixMinute]
  | kept (input : Input X) (next : Point X) (events : List (Event X)) :
      KeepsPeers point next → (∀ event ∈ events, KeepsAsked event) →
      JoinStep point input next events
  | cleared (w : Window) (current : Finset Record) (nodes : Finset (EndpointId X)) :
      point = .preJoinCheck w current nodes →
      JoinStep point (.isJoined (.ok false)) (.startJoining w current nodes)
        [.checked .preJoin (.ok false)]
  | first (w : Window) (current : Finset Record) (nodes : Finset (EndpointId X))
      (peer : EndpointId X) (rest : List (EndpointId X)) :
      point = .startJoining w current nodes → (peer :: rest).Nodup →
      JoinStep point (.visit (peer :: rest)) (.joining w current peer rest)
        [.joinRequested [peer]]
  | next (w : Window) (current : Finset Record) (peer : EndpointId X)
      (rest : List (EndpointId X)) :
      point = .settleCheck w current (peer :: rest) →
      JoinStep point (.isJoined (.ok false)) (.joining w current peer rest)
        [.checked .settle (.ok false), .joinRequested [peer]]
  | skipped (w : Window) (current : Finset Record) (failed peer : EndpointId X)
      (rest : List (EndpointId X)) (fault : Fault) :
      point = .joining w current failed (peer :: rest) →
      JoinStep point (.joinPeers (.error fault)) (.joining w current peer rest)
        [.joinCompleted (.error fault), .joinRequested [peer]]

theorem KeepsPeers.of_idle {point next : Point X} (hleft : peersLeft next = [])
    (hunjoined : ¬ Unjoined next) (hstart : ¬ IsStartJoining next) : KeepsPeers point next :=
  ⟨.inl hleft, fun h => absurd h hunjoined, hstart⟩

section Steps

variable {cfg : BootstrapConfig} {rp : RecordPublisher X} {l : Loop X}

theorem JoinStep.of_eq {point : Point X} {input : Input X} {l' : Loop X}
    {events : List (Event X)} {next : Loop X × List (Event X)} (h : some next = some (l', events))
    (hnext : JoinStep point input next.1.point next.2) :
    JoinStep point input l'.point events := by
  obtain rfl := Option.some.inj h
  exact hnext

theorem joinStep_exit (input : Input X) (events : List (Event X))
    (hevents : ∀ event ∈ events, KeepsAsked event) :
    JoinStep l.point input .exited (events ++ (Loop.exit l).2) := by
  refine .kept _ _ _ (.of_idle rfl id id) ?_
  intro event hevent
  rcases List.mem_append.mp hevent with hevent | hevent
  · exact hevents event hevent
  · rw [List.mem_singleton.mp hevent]
    trivial

theorem joinStep_checkOrExit {site : CheckSite} {answer : Result Bool} {next : Point X}
    (hnext : JoinStep l.point (.isJoined (.ok false)) next [.checked site (.ok false)]) :
    JoinStep l.point (.isJoined answer) (Loop.checkOrExit l site answer next).1.point
      (Loop.checkOrExit l site answer next).2 := by
  have hchecked : ∀ event ∈ [Event.checked (X := X) site answer], KeepsAsked event := by
    simp [KeepsAsked]
  match answer with
  | .ok false => exact hnext
  | .ok true => exact joinStep_exit (l := { l with isJoinedRet := true }) _ _ hchecked
  | .error fault => exact joinStep_exit _ _ hchecked

theorem joinStep_kept_checkOrExit {site : CheckSite} {answer : Result Bool} (next : Point X)
    (hnext : KeepsPeers l.point next) :
    JoinStep l.point (.isJoined answer) (Loop.checkOrExit l site answer next).1.point
      (Loop.checkOrExit l site answer next).2 :=
  joinStep_checkOrExit (.kept _ _ _ hnext (by simp [KeepsAsked]))

theorem joinStep_wakeOrExit {wake : Wake} {next : Point X} (hnext : KeepsPeers l.point next) :
    JoinStep l.point (.woke wake) (Loop.wakeOrExit l wake next).1.point
      (Loop.wakeOrExit l wake next).2 := by
  cases wake with
  | cancelled => exact joinStep_exit _ [] (by simp)
  | _ => exact .kept _ _ _ hnext (by simp [Loop.wakeOrExit])

theorem keepsAsked_publishIfDue (w : Window) (current : Finset Record) :
    ∀ event ∈ (Loop.publishIfDue rp l w current).2, KeepsAsked event := by
  intro event hevent
  obtain ⟨content, rfl⟩ := mem_publishIfDue hevent
  trivial

theorem joinStep_fetched {w : Window} {older : Finset Record} {reader : Reader}
    {slot : UInt64} {result : Result (Finset Record)} (answer : Awaited (List MutableItem))
    (current : Finset Record) (hpoint : l.point = .fetchNewer w older) :
    JoinStep l.point (.records answer) (Loop.fetched rp l w older current).1.point
      (.read reader slot result :: (Loop.fetched rp l w older current).2) := by
  unfold Loop.fetched
  split
  · refine .kept _ _ _ (.of_idle rfl id id) ?_
    exact List.forall_mem_cons.mpr ⟨trivial, keepsAsked_publishIfDue w current⟩
  · refine .kept _ _ _ ⟨.inl rfl, fun _ => ?_, id⟩ (by simp [KeepsAsked])
    rw [hpoint]
    trivial

theorem joinStep_finalChecked {w : Window} {current : Finset Record} (answer : Result Bool) :
    JoinStep l.point (.isJoined answer) (Loop.finalChecked rp l w current answer).1.point
      (Loop.finalChecked rp l w current answer).2 := by
  unfold Loop.finalChecked
  split
  · refine .kept _ _ _ (.of_idle rfl id id) ?_
    exact List.forall_mem_cons.mpr ⟨trivial, keepsAsked_publishIfDue w current⟩
  · exact joinStep_kept_checkOrExit _ (.of_idle rfl id id)

theorem joinStep_visit {w : Window} {current : Finset Record} {nodes : Finset (EndpointId X)}
    {order : List (EndpointId X)} (hpoint : l.point = .startJoining w current nodes)
    (hnodup : order.Nodup) :
    JoinStep l.point (.visit order) (Loop.nextPeer l w current order).1.point
      (Loop.nextPeer l w current order).2 := by
  cases order with
  | nil => exact .kept _ _ _ (.of_idle rfl id id) (by simp [Loop.nextPeer])
  | cons peer rest => exact .first w current nodes peer rest hpoint hnodup

theorem joinStep_joining {w : Window} {current : Finset Record} {peer : EndpointId X}
    {rest : List (EndpointId X)} {result : Result Unit} {l' : Loop X} {events : List (Event X)}
    (hpoint : l.point = .joining w current peer rest)
    (h : l.step cfg rp (.joinPeers result) = some (l', events)) :
    JoinStep l.point (.joinPeers result) l'.point events := by
  simp only [Loop.step, hpoint] at h
  cases result with
  | ok =>
      apply JoinStep.of_eq h
      exact .kept _ _ _ ⟨.inr (by rw [hpoint]; rfl), False.elim, id⟩ (by simp [KeepsAsked])
  | error fault =>
      apply JoinStep.of_eq h
      cases rest with
      | nil =>
          exact .kept _ _ _ (.of_idle rfl id id) (by simp [Loop.nextPeer, KeepsAsked])
      | cons next rest => exact .skipped w current peer next rest fault hpoint

theorem joinStep_settleCheck {w : Window} {current : Finset Record}
    {rest : List (EndpointId X)} {answer : Result Bool} {l' : Loop X} {events : List (Event X)}
    (hpoint : l.point = .settleCheck w current rest)
    (h : l.step cfg rp (.isJoined answer) = some (l', events)) :
    JoinStep l.point (.isJoined answer) l'.point events := by
  simp only [Loop.step, hpoint] at h
  cases answer with
  | error fault =>
      apply JoinStep.of_eq h
      exact .kept _ _ _ (.of_idle rfl id id) (by simp [KeepsAsked])
  | ok joined =>
      cases joined with
      | true =>
          apply JoinStep.of_eq h
          exact .kept _ _ _ (.of_idle rfl id id) (by simp [KeepsAsked])
      | false =>
          apply JoinStep.of_eq h
          cases rest with
          | nil =>
              exact .kept _ _ _ (.of_idle rfl id id) (by simp [Loop.nextPeer, KeepsAsked])
          | cons next rest => exact .next w current next rest hpoint

theorem joinStep_confirmCheck {w : Window} {current : Finset Record} {answer : Result Bool}
    {l' : Loop X} {events : List (Event X)} (hpoint : l.point = .confirmCheck w current)
    (h : l.step cfg rp (.isJoined answer) = some (l', events)) :
    JoinStep l.point (.isJoined answer) l'.point events := by
  simp only [Loop.step, hpoint] at h
  cases answer with
  | error fault =>
      apply JoinStep.of_eq h
      exact joinStep_kept_checkOrExit (.confirmWait w current) (.of_idle rfl id id)
  | ok joined =>
      cases joined with
      | true =>
          apply JoinStep.of_eq h
          exact .kept _ _ _ (.of_idle rfl id id) (by simp [KeepsAsked])
      | false =>
          apply JoinStep.of_eq h
          exact joinStep_kept_checkOrExit _ (.of_idle rfl id id)

theorem step_joinStep {l' : Loop X} {input : Input X} {events : List (Event X)}
    (h : l.step cfg rp input = some (l', events)) :
    JoinStep l.point input l'.point events := by
  have hstep := h
  unfold Loop.step at h
  split at h
  · apply JoinStep.of_eq h
    exact joinStep_exit _ [] (by simp)
  · apply JoinStep.of_eq h
    exact .kept _ _ _ (.of_idle rfl id id) (by simp)
  · apply JoinStep.of_eq h
    exact joinStep_kept_checkOrExit _ (.of_idle rfl id id)
  · apply JoinStep.of_eq h
    exact .ticked _ _
  · next hpoint =>
      apply JoinStep.of_eq h
      exact .kept _ _ _ ⟨.inl rfl, fun _ => by rw [hpoint]; trivial, id⟩ (by simp [KeepsAsked])
  · next hpoint =>
      apply JoinStep.of_eq h
      exact joinStep_fetched _ _ hpoint
  · apply JoinStep.of_eq h
    exact joinStep_wakeOrExit (.of_idle rfl id id)
  · next hpoint =>
      apply JoinStep.of_eq h
      exact joinStep_checkOrExit (.cleared _ _ _ hpoint)
  · next hpoint =>
      split at h
      · next horder =>
          apply JoinStep.of_eq h
          exact joinStep_visit hpoint horder.1
      · cases h
  · next hpoint => exact joinStep_joining hpoint hstep
  · next hpoint =>
      apply JoinStep.of_eq h
      exact joinStep_wakeOrExit ⟨.inr (by rw [hpoint]; rfl), False.elim, id⟩
  · next hpoint => exact joinStep_settleCheck hpoint hstep
  · next hpoint => exact joinStep_confirmCheck hpoint hstep
  · apply JoinStep.of_eq h
    exact joinStep_wakeOrExit (.of_idle rfl id id)
  · apply JoinStep.of_eq h
    exact joinStep_finalChecked _
  · apply JoinStep.of_eq h
    exact joinStep_wakeOrExit (.of_idle rfl id id)
  · cases h

end Steps

section Process

variable {cfg : BootstrapConfig} {rp : RecordPublisher X} {unixMinute : UInt64}

theorem keepsAsked_publishEvents {id : Nat} {task : PublishTask} {input : PublishInput} :
    ∀ event ∈ publishEvents rp id task input, KeepsAsked event := by
  intro event hevent
  rcases mem_publishEvents hevent with ⟨answer, draw, -, -, -, rfl⟩ | ⟨put, -, -, rfl⟩
  · trivial
  · trivial

theorem startupEvents_eq (cfg : BootstrapConfig) (rp : RecordPublisher X) (unixMinute : UInt64) :
    startupEvents cfg rp unixMinute = [] ∨
    ∃ events, startupEvents cfg rp unixMinute = [.clock unixMinute] ++ events ∧
      ∀ event ∈ events, KeepsAsked event := by
  unfold startupEvents
  split
  · refine .inr ⟨_, rfl, ?_⟩
    intro event hevent
    obtain ⟨content, rfl⟩ := mem_initiate hevent
    trivial
  · exact .inl rfl

end Process

end TopicTracker.JoinSteps
