import TopicTracker.JoinSteps
import TopicTracker.JoinCandidates
import Mathlib.Data.Set.Card

namespace TopicTracker.JoinFanOut

open TopicTracker.Configuration
open TopicTracker.RustValues
open TopicTracker.ThirdParty
open TopicTracker.ReferenceExternals (reference)
open TopicTracker.RandomOrder
open TopicTracker.RecordCodec
open TopicTracker.RecordRetrieval
open TopicTracker.RecordPublishing
open TopicTracker.BootstrapLoop
open TopicTracker.BootstrapProcess
open TopicTracker.JoinSteps
open TopicTracker.PeerMerging
open TopicTracker.JoinCandidates

variable {X : Externals} {cfg : BootstrapConfig} {rp : RecordPublisher X} {overflowChecks : Bool}

def joinRequested : Event X → Option (List (EndpointId X))
  | .joinRequested peers => some peers
  | _ => none

def SinglePeers (events : List (Event X)) : Prop :=
  ∀ peers ∈ events.filterMap joinRequested, peers.length = 1

theorem SinglePeers.append {events events' : List (Event X)} (h : SinglePeers events)
    (h' : SinglePeers events') : SinglePeers (events ++ events') := by
  intro peers hpeers
  rw [List.filterMap_append] at hpeers
  rcases List.mem_append.mp hpeers with hpeers | hpeers
  · exact h peers hpeers
  · exact h' peers hpeers

theorem SinglePeers.of_none {events : List (Event X)}
    (h : ∀ event ∈ events, joinRequested event = none) : SinglePeers events := by
  intro peers hpeers
  rw [List.filterMap_eq_nil_iff.mpr h] at hpeers
  cases hpeers

theorem joinRequested_eq_none {event : Event X} (h : KeepsAsked event) :
    joinRequested event = none := by
  cases event with
  | joinRequested peers => exact h.elim
  | _ => rfl

theorem SinglePeers.of_keeps {events : List (Event X)}
    (h : ∀ event ∈ events, KeepsAsked event) : SinglePeers events :=
  .of_none fun event hevent => joinRequested_eq_none (h event hevent)

theorem SinglePeers.cons {event : Event X} {events : List (Event X)} (h : SinglePeers events)
    (hevent : KeepsAsked event) : SinglePeers (event :: events) := by
  intro peers hpeers
  rw [List.filterMap_cons_none (joinRequested_eq_none hevent)] at hpeers
  exact h peers hpeers

theorem singlePeers_request (peer : EndpointId X) :
    SinglePeers [.joinRequested [peer]] := by
  intro peers hpeers
  obtain rfl : peers = [peer] := by simpa [joinRequested] using hpeers
  rfl

theorem singlePeers_of_joinStep {point next : Point X} {input : Input X}
    {events : List (Event X)} (h : JoinStep point input next events) : SinglePeers events := by
  cases h with
  | ticked unixMinute w => exact .of_none (by simp [joinRequested])
  | kept input next events hnext hevents => exact .of_keeps hevents
  | cleared w current nodes hpoint => exact .of_keeps (by simp [KeepsAsked])
  | first w current nodes peer rest hpoint hnodup => exact singlePeers_request peer
  | next w current peer rest hpoint =>
      exact (singlePeers_request peer).cons trivial
  | skipped w current failed peer rest fault hpoint =>
      exact (singlePeers_request peer).cons trivial

theorem singlePeers_of_step {l l' : Loop X} {input : Input X} {events : List (Event X)}
    (h : l.step cfg rp input = some (l', events)) : SinglePeers events :=
  singlePeers_of_joinStep (step_joinStep h)

theorem singlePeers_startupEvents (cfg : BootstrapConfig) (rp : RecordPublisher X)
    (unixMinute : UInt64) : SinglePeers (startupEvents cfg rp unixMinute) := by
  rcases startupEvents_eq cfg rp unixMinute with hnone | ⟨events, hsome, hevents⟩
  · rw [hnone]
    exact .of_none (by simp)
  · rw [hsome]
    exact .append (.of_none (by simp [joinRequested])) (.of_keeps hevents)

theorem singlePeers_of_reachable {unixMinute : UInt64} {p : Process X}
    (h : Reachable cfg rp unixMinute p) : SinglePeers p.log := by
  refine h.induction (P := fun p => SinglePeers p.log) (singlePeers_startupEvents cfg rp _) ?_
  intro p label q hstep hp
  cases label with
  | loop input =>
      obtain ⟨loop, events, hloop, rfl⟩ := exists_of_step_loop hstep
      exact hp.append (singlePeers_of_step hloop)
  | publish id input =>
      obtain ⟨publish, task, -, -, rfl⟩ := exists_of_step_publish hstep
      exact hp.append (.of_keeps keepsAsked_publishEvents)

/-- The join requests of a node: those of its bootstrap process and those of the
ticks of the merges its configuration starts. -/
def joinRequests (overflowChecks : Bool) (rp : RecordPublisher X) (p : Process X)
    (bubbleTicks overlapTicks : List (Tick X)) : List (List (EndpointId X)) :=
  p.log.filterMap joinRequested ++
    ((startBubbleMerge rp).toList.flatMap fun actor =>
        bubbleTicks.flatMap fun tick => (actor.merge overflowChecks tick).1) ++
      (startMessageOverlapMerge rp).toList.flatMap fun actor =>
        overlapTicks.flatMap fun tick => (actor.merge overflowChecks tick).1

/-- The merge's own limit is within `limit`, or the tick finds too few peers to
exceed it. -/
def BubbleWithin (overflowChecks : Bool) (limit : Nat) (actor : BubbleMergeActor X)
    (tick : Tick X) : Prop :=
  actor.maxJoinPeers ≤ limit ∨
    ∀ records neighbors, fetchRecords overflowChecks actor.recordPublisher tick = .ok records →
      tick.neighbors = .ok neighbors → neighbors.card < actor.minNeighbors →
        (Joinable actor.recordPublisher records \ neighbors).ncard ≤ limit

def OverlapWithin (overflowChecks : Bool) (limit : Nat) (actor : MessageOverlapMergeActor X)
    (tick : Tick X) : Prop :=
  actor.maxJoinPeers ≤ limit ∨
    ∀ records localHashes neighbors,
      fetchRecords overflowChecks actor.recordPublisher tick = .ok records →
      tick.lastMessageHashes = .ok localHashes → tick.neighbors = .ok neighbors →
        (Joinable actor.recordPublisher (peersToJoin X localHashes records) \ neighbors).ncard ≤
          limit

theorem requestsSample_within_iff {limit maxJoinPeers : Nat} {s : Finset (EndpointId X)}
    {requests : List (List (EndpointId X))} (h : RequestsSample maxJoinPeers s requests) :
    (∀ peers ∈ requests, peers.length ≤ limit) ↔ maxJoinPeers ≤ limit ∨ s.card ≤ limit := by
  rw [← min_le_iff]
  by_cases hs : s = ∅
  · rw [h.empty hs, hs]
    simp
  · obtain ⟨peers, hrequests, hsample⟩ := h.nonempty hs
    rw [hrequests]
    simp [hsample.length]

theorem within_of_fault {limit : Nat} {tick : Tick X}
    {request : Result (Option (List (EndpointId X)))} {fault : Fault} {condition : Prop}
    (hrequest : request = .error fault) (hcondition : condition) :
    (∀ peers ∈ (sendRequest tick request).1, peers.length ≤ limit) ↔ condition := by
  rw [hrequest]
  exact iff_of_true (fun peers hpeers => by cases hpeers) hcondition

theorem bubble_within_iff (limit : Nat) (actor : BubbleMergeActor X) (tick : Tick X) :
    (∀ peers ∈ (actor.merge overflowChecks tick).1, peers.length ≤ limit) ↔
      BubbleWithin overflowChecks limit actor tick := by
  cases hrecords : fetchRecords overflowChecks actor.recordPublisher tick with
  | error fault =>
      apply within_of_fault
      · rw [BubbleMergeActor.request, hrecords, error_bind]
      · exact .inr (by simp [hrecords])
  | ok records =>
      cases hneighbors : tick.neighbors with
      | error fault =>
          apply within_of_fault
          · rw [BubbleMergeActor.request, hrecords, ok_bind, hneighbors, error_bind]
          · exact .inr (by simp [hneighbors])
      | ok neighbors =>
          by_cases hfew : neighbors.card < actor.minNeighbors
          · rw [requestsSample_within_iff (bubble_requests hrecords hneighbors hfew)]
            rw [← Set.ncard_coe_finset, coe_bubble_candidates]
            simp [BubbleWithin, hrecords, hneighbors, hfew]
          · rw [bubble_requests_of_enough hneighbors (not_lt.mp hfew)]
            exact iff_of_true (by simp) (.inr (by simp [hneighbors, hfew]))

theorem overlap_within_iff (limit : Nat) (actor : MessageOverlapMergeActor X) (tick : Tick X) :
    (∀ peers ∈ (actor.merge overflowChecks tick).1, peers.length ≤ limit) ↔
      OverlapWithin overflowChecks limit actor tick := by
  cases hrecords : fetchRecords overflowChecks actor.recordPublisher tick with
  | error fault =>
      apply within_of_fault
      · rw [MessageOverlapMergeActor.request, hrecords, error_bind]
      · exact .inr (by simp [hrecords])
  | ok records =>
      cases hhashes : tick.lastMessageHashes with
      | error fault =>
          apply within_of_fault
          · rw [MessageOverlapMergeActor.request, hrecords, ok_bind, hhashes, error_bind]
          · exact .inr (by simp [hhashes])
      | ok localHashes =>
          cases hneighbors : tick.neighbors with
          | error fault =>
              have hnone : (actor.merge overflowChecks tick).1 = [] := by
                by_cases hselected : peersToJoin X localHashes records = ∅ <;>
                  simp [MessageOverlapMergeActor.merge, MessageOverlapMergeActor.request,
                    hrecords, hhashes, hneighbors, hselected, sendRequest]
              rw [hnone]
              exact iff_of_true (by simp) (.inr (by simp [hneighbors]))
          | ok neighbors =>
              rw [requestsSample_within_iff (overlap_requests hrecords hhashes hneighbors)]
              rw [← Set.ncard_coe_finset, coe_overlap_candidates]
              simp [OverlapWithin, hrecords, hhashes, hneighbors]

/-- Every join request of a node stays within the configured number of peers exactly
when each tick of its merges meets the condition; the bootstrap loop always does. -/
theorem joinRequests_within_iff {unixMinute : UInt64} {p : Process X}
    (hconfig : rp.config.Obtainable)
    (hreachable : Reachable rp.config.bootstrapConfig rp unixMinute p)
    (bubbleTicks overlapTicks : List (Tick X)) :
    (∀ peers ∈ joinRequests overflowChecks rp p bubbleTicks overlapTicks,
      peers.length ≤ rp.config.maxJoinPeerCount) ↔
      (∀ actor ∈ startBubbleMerge rp, ∀ tick ∈ bubbleTicks,
        BubbleWithin overflowChecks rp.config.maxJoinPeerCount actor tick) ∧
      ∀ actor ∈ startMessageOverlapMerge rp, ∀ tick ∈ overlapTicks,
        OverlapWithin overflowChecks rp.config.maxJoinPeerCount actor tick := by
  have hloop : ∀ peers ∈ p.log.filterMap joinRequested,
      peers.length ≤ rp.config.maxJoinPeerCount := by
    intro peers hpeers
    rw [singlePeers_of_reachable hreachable peers hpeers]
    exact hconfig.maxJoinPeerCount_pos
  simp only [← bubble_within_iff, ← overlap_within_iff, joinRequests, List.mem_append,
    List.mem_flatMap, Option.mem_toList]
  constructor
  · intro h
    exact ⟨fun actor hactor tick htick peers hpeers =>
        h peers (.inl (.inr ⟨actor, hactor, tick, htick, hpeers⟩)),
      fun actor hactor tick htick peers hpeers =>
        h peers (.inr ⟨actor, hactor, tick, htick, hpeers⟩)⟩
  · rintro ⟨hbubble, hoverlap⟩ peers
      ((hpeers | ⟨actor, hactor, tick, htick, hpeers⟩) | ⟨actor, hactor, tick, htick, hpeers⟩)
    · exact hloop peers hpeers
    · exact hbubble actor hactor tick htick peers hpeers
    · exact hoverlap actor hactor tick htick peers hpeers

theorem default_obtainable : Config.Obtainable {} := ⟨{}, .default, rfl⟩

theorem joinRequests_within_default :
    ¬ ∃ peers ∈ joinRequests true (samplePublisher 2 {})
        (Process.start {} (samplePublisher 2 {}) 7) [sampleTick (bareItems 1)] [],
      4 < peers.length := by
  rintro ⟨peers, hpeers, hmany⟩
  have hconfig : (samplePublisher 2 {}).config.Obtainable := default_obtainable
  have hreachable : Reachable {} (samplePublisher 2 {}) 7
      (Process.start {} (samplePublisher 2 {}) 7) := ⟨[], rfl⟩
  refine Nat.not_le.mpr hmany
    ((joinRequests_within_iff hconfig hreachable [sampleTick (bareItems 1)] []).mpr
      ⟨?_, by simp⟩ peers hpeers)
  intro actor hactor tick htick
  obtain rfl := Option.some.inj hactor
  exact .inl (by decide)

def onePeerConfig : Config := (Config.setMaxJoinPeerCount {} 1).build

theorem onePeerConfig_obtainable : onePeerConfig.Obtainable :=
  ⟨_, .maxJoinPeerCount 1 .default, rfl⟩

theorem exists_bare_candidate {seed : UInt8} {items : List MutableItem}
    (hne : (samplePublisher seed {}).pubKey ≠ (samplePublisher 2 onePeerConfig).pubKey)
    (hitems : bareItems seed ⊆ items) :
    ∃ node ∈ (sampleBubbleMerge onePeerConfig).candidates ∅
      (sampleRecords (samplePublisher 2 onePeerConfig) items),
      node.bytes = (samplePublisher seed {}).pubKey := by
  obtain ⟨item, hitem, hvalid⟩ := exists_mem_bareItems hne
  obtain ⟨node, hnode, hbytes⟩ :=
    exists_sample_candidate (sampleBubbleMerge onePeerConfig) (hitems hitem) hvalid
  exact ⟨node, hnode, hbytes⟩

/-- The merges ignore `max_join_peer_count`: set to 1, a bubble merge that finds two
publishers asks to join both. -/
theorem two_peers_requested_at_once :
    onePeerConfig.Obtainable ∧ onePeerConfig.maxJoinPeerCount = 1 ∧
      ∃ peers ∈ joinRequests true (samplePublisher 2 onePeerConfig)
        (Process.start onePeerConfig.bootstrapConfig (samplePublisher 2 onePeerConfig) 7)
        [sampleTick (bareItems 1 ++ bareItems 3)] [], peers.length = 2 := by
  refine ⟨onePeerConfig_obtainable, rfl, ?_⟩
  have hne : (samplePublisher 1 {}).pubKey ≠ (samplePublisher 2 onePeerConfig).pubKey := by decide
  have hne' : (samplePublisher 3 {}).pubKey ≠ (samplePublisher 2 onePeerConfig).pubKey := by decide
  have hleft : bareItems 1 ⊆ bareItems 1 ++ bareItems 3 := List.subset_append_left _ _
  have hright : bareItems 3 ⊆ bareItems 1 ++ bareItems 3 := List.subset_append_right _ _
  generalize bareItems 1 ++ bareItems 3 = items at hleft hright ⊢
  obtain ⟨node, hnode, hbytes⟩ := exists_bare_candidate hne hleft
  obtain ⟨node', hnode', hbytes'⟩ := exists_bare_candidate hne' hright
  have hdistinct : node ≠ node' := by
    rintro rfl
    rw [hbytes] at hbytes'
    exact absurd hbytes' (by decide)
  have hcard := Finset.one_lt_card.mpr ⟨node, hnode, node', hnode', hdistinct⟩
  have hfew : (∅ : Finset (EndpointId reference)).card < 4 := by decide
  have hsample : RequestsSample (sampleBubbleMerge onePeerConfig).maxJoinPeers
      ((sampleBubbleMerge onePeerConfig).candidates ∅
        (sampleRecords (samplePublisher 2 onePeerConfig) items))
      ((sampleBubbleMerge onePeerConfig).merge true (sampleTick items)).1 :=
    bubble_requests (fetchRecords_sampleTick _ items) rfl hfew
  obtain ⟨peers, hpeers, hpeersSample⟩ := hsample.nonempty (Finset.ne_empty_of_mem hnode)
  have hstarted : sampleBubbleMerge onePeerConfig ∈
      startBubbleMerge (samplePublisher 2 onePeerConfig) := rfl
  refine ⟨peers, ?_, ?_⟩
  · refine List.mem_append_left _ (List.mem_append_right _ ?_)
    refine List.mem_flatMap.mpr ⟨_, Option.mem_toList.mpr hstarted, ?_⟩
    refine List.mem_flatMap.mpr ⟨_, List.mem_singleton_self _, ?_⟩
    rw [hpeers]
    exact List.mem_singleton_self peers
  · rw [hpeersSample.length]
    exact min_eq_left hcard

end TopicTracker.JoinFanOut
