import TopicTracker.PeerMerging

namespace TopicTracker.JoinCandidates

open TopicTracker.Configuration
open TopicTracker.RustValues
open TopicTracker.ThirdParty
open TopicTracker.ReferenceExternals (reference)
open TopicTracker.RandomOrder
open TopicTracker.RecordCodec
open TopicTracker.EncryptedRecordCodec (zeroDraw)
open TopicTracker.RecordRetrieval
open TopicTracker.RecordPublishing
open TopicTracker.BootstrapLoop
open TopicTracker.PeerMerging

variable {X : Externals} {overflowChecks : Bool}

/-- The record is published by the key or lists it among its active peers. -/
def Names (X : Externals) (record : Record) (key : Bytes 32) : Prop :=
  record.pubKey = key ∨ ∃ content, record.content.decodeTo X.gossipContent = .ok content ∧
    key ∈ content.activePeers.toList ∧ key ≠ zeroBytes 32

/-- The valid endpoint keys other than the own one that some record names. -/
def Joinable (rp : RecordPublisher X) (records : Finset Record) : Set (EndpointId X) :=
  {node | node.bytes ≠ rp.pubKey ∧ ∃ record ∈ records, Names X record node.bytes}

theorem fromBytes_eq_some_iff {bytes : Bytes 32} {node : EndpointId X} :
    EndpointId.fromBytes X bytes = some node ↔ node.bytes = bytes := by
  unfold EndpointId.fromBytes
  constructor
  · intro h
    split at h
    · rw [← Option.some.inj h]
    · cases h
  · rintro rfl
    exact dif_pos node.valid

theorem names_iff_of_ok {record : Record} {content : GossipRecordContent}
    (hcontent : record.content.decodeTo X.gossipContent = .ok content) {key : Bytes 32} :
    Names X record key ↔
      record.pubKey = key ∨ key ∈ content.activePeers.toList ∧ key ≠ zeroBytes 32 := by
  simp [Names, hcontent]

theorem names_iff_of_error {record : Record} {fault : Fault}
    (hcontent : record.content.decodeTo X.gossipContent = .error fault) {key : Bytes 32} :
    Names X record key ↔ record.pubKey = key := by
  simp [Names, hcontent]

theorem mem_candidateKeys_iff {rp : RecordPublisher X} {record : Record} {key : Bytes 32} :
    key ∈ candidateKeys rp record ↔
      record.pubKey = key ∨ key ≠ rp.pubKey ∧ Names X record key := by
  unfold candidateKeys
  split
  · next content hcontent =>
      rw [names_iff_of_ok hcontent]
      simp only [List.mem_cons, List.mem_filter, decide_eq_true_eq]
      rw [eq_comm (a := key) (b := record.pubKey)]
      tauto
  · next fault hcontent =>
      rw [names_iff_of_error hcontent, List.mem_singleton]
      rw [eq_comm (a := key) (b := record.pubKey)]
      tauto

/-- The bootstrap loop relies on records that are not the node's own. -/
theorem coe_bootstrapNodes {rp : RecordPublisher X} {records : Finset Record}
    (hother : ∀ record ∈ records, record.pubKey ≠ rp.pubKey) :
    (bootstrapNodes rp records : Set (EndpointId X)) = Joinable rp records := by
  ext node
  simp only [bootstrapNodes, Finset.mem_coe, Finset.mem_biUnion, List.mem_toFinset,
    List.mem_filterMap, fromBytes_eq_some_iff, exists_eq_right', Joinable, Set.mem_ofPred_eq]
  constructor
  · rintro ⟨record, hrecord, hkey⟩
    rcases mem_candidateKeys_iff.mp hkey with hpublisher | ⟨hne, hnames⟩
    · exact ⟨hpublisher ▸ hother record hrecord, record, hrecord, .inl hpublisher⟩
    · exact ⟨hne, record, hrecord, hnames⟩
  · rintro ⟨hne, record, hrecord, hnames⟩
    exact ⟨record, hrecord, mem_candidateKeys_iff.mpr (.inr ⟨hne, hnames⟩)⟩

section BubbleMerge

variable {self : BubbleMergeActor X} {neighbors : Finset (EndpointId X)}
  {records : Finset Record} {record : Record} {node : EndpointId X}

theorem mem_image_bytes_iff : node.bytes ∈ neighbors.image EndpointId.bytes ↔ node ∈ neighbors := by
  have hinjective : Function.Injective (EndpointId.bytes : EndpointId X → Bytes 32) := by
    rintro ⟨bytes, hvalid⟩ ⟨bytes', hvalid'⟩ rfl
    rfl
  exact hinjective.mem_finset_image

/-- The publisher of a record is left out here and comes back with `pub_keys.push`. -/
theorem mem_activePeers_iff : node ∈ self.activePeers neighbors record ↔
    node.bytes ≠ record.pubKey ∧ node.bytes ≠ self.recordPublisher.pubKey ∧ node ∉ neighbors ∧
      Names X record node.bytes := by
  unfold BubbleMergeActor.activePeers
  split
  · next content hcontent =>
      simp only [List.mem_filterMap, Option.ite_none_left_eq_some, fromBytes_eq_some_iff]
      rw [names_iff_of_ok hcontent]
      constructor
      · rintro ⟨peer, hpeer, hkept, rfl⟩
        simp only [not_or, mem_image_bytes_iff] at hkept
        exact ⟨hkept.2.2.1, hkept.2.2.2, hkept.2.1, .inr ⟨hpeer, hkept.1⟩⟩
      · rintro ⟨hpublisher, hown, hneighbor, hnamed⟩
        have hpeer := hnamed.resolve_left (Ne.symm hpublisher)
        refine ⟨node.bytes, hpeer.1, ?_, rfl⟩
        simp only [not_or, mem_image_bytes_iff]
        exact ⟨hpeer.2, hneighbor, hpublisher, hown⟩
  · next fault hcontent =>
      rw [names_iff_of_error hcontent]
      simp only [List.not_mem_nil, false_iff]
      rintro ⟨hpublisher, -, -, heq⟩
      exact hpublisher heq.symm

theorem mem_pubKeys_of_publisher (h : node.bytes = record.pubKey) :
    node ∈ self.pubKeys neighbors record ↔
      node.bytes ≠ self.recordPublisher.pubKey ∧ node ∉ neighbors := by
  have hnode : EndpointId.fromBytes X record.pubKey = some node := fromBytes_eq_some_iff.mpr h
  have hactive : node ∉ self.activePeers neighbors record :=
    fun hmem => (mem_activePeers_iff.mp hmem).1 h
  simp only [BubbleMergeActor.pubKeys, hnode]
  split
  · next hkept => exact iff_of_true (List.mem_append_right _ List.mem_cons_self) hkept
  · next hkept => exact iff_of_false hactive hkept

theorem mem_pubKeys_of_ne_publisher (h : node.bytes ≠ record.pubKey) :
    node ∈ self.pubKeys neighbors record ↔ node ∈ self.activePeers neighbors record := by
  unfold BubbleMergeActor.pubKeys
  split
  · next pubKey hpubKey =>
      have hne : node ≠ pubKey := by
        rintro rfl
        exact h (fromBytes_eq_some_iff.mp hpubKey)
      split
      · simp [hne]
      · exact Iff.rfl
  · exact Iff.rfl

theorem mem_pubKeys_iff : node ∈ self.pubKeys neighbors record ↔
    node.bytes ≠ self.recordPublisher.pubKey ∧ node ∉ neighbors ∧ Names X record node.bytes := by
  by_cases h : node.bytes = record.pubKey
  · have hnames : Names X record node.bytes := .inl h.symm
    rw [mem_pubKeys_of_publisher h, and_iff_left hnames]
  · rw [mem_pubKeys_of_ne_publisher h, mem_activePeers_iff, and_iff_right h]

theorem coe_bubble_candidates : (self.candidates neighbors records : Set (EndpointId X)) =
    Joinable self.recordPublisher records \ neighbors := by
  ext node
  simp only [BubbleMergeActor.candidates, Finset.mem_coe, Finset.mem_biUnion,
    List.mem_toFinset, mem_pubKeys_iff, Joinable, Set.mem_sdiff, Set.mem_ofPred_eq]
  constructor
  · rintro ⟨record, hrecord, hown, hneighbor, hnames⟩
    exact ⟨⟨hown, record, hrecord, hnames⟩, hneighbor⟩
  · rintro ⟨⟨hown, record, hrecord, hnames⟩, hneighbor⟩
    exact ⟨record, hrecord, hown, hneighbor, hnames⟩

end BubbleMerge

section MessageOverlapMerge

variable {self : MessageOverlapMergeActor X} {neighbors : Finset (EndpointId X)}
  {selected : Finset Record} {record : Record} {node : EndpointId X}

theorem mem_peers_iff : node ∈ self.peers record ↔
    node.bytes ≠ self.recordPublisher.pubKey ∧ Names X record node.bytes := by
  have hparsed : ∀ bytes, (node ∈ (EndpointId.fromBytes X bytes).toList.filter fun pubKey =>
      pubKey.bytes ≠ self.recordPublisher.pubKey) ↔
        bytes = node.bytes ∧ node.bytes ≠ self.recordPublisher.pubKey := by
    intro bytes
    rw [List.mem_filter, Option.mem_toList, fromBytes_eq_some_iff, decide_eq_true_eq,
      eq_comm (a := bytes)]
  unfold MessageOverlapMergeActor.peers
  split
  · next content hcontent =>
      rw [names_iff_of_ok hcontent, List.mem_append, hparsed, List.mem_flatMap]
      constructor
      · rintro (⟨hpublisher, hown⟩ | ⟨peer, hpeer, hnode⟩)
        · exact ⟨hown, .inl hpublisher⟩
        · split at hnode
          · cases hnode
          · next hzero =>
              obtain ⟨rfl, hown⟩ := (hparsed peer).mp hnode
              exact ⟨hown, .inr ⟨hpeer, hzero⟩⟩
      · rintro ⟨hown, hpublisher | ⟨hpeer, hzero⟩⟩
        · exact .inl ⟨hpublisher, hown⟩
        · refine .inr ⟨node.bytes, hpeer, ?_⟩
          rw [if_neg hzero]
          exact (hparsed node.bytes).mpr ⟨rfl, hown⟩
  · next fault hcontent =>
      rw [names_iff_of_error hcontent, hparsed, and_comm]

theorem coe_overlap_candidates : (self.candidates neighbors selected : Set (EndpointId X)) =
    Joinable self.recordPublisher selected \ neighbors := by
  ext node
  simp only [MessageOverlapMergeActor.candidates, Finset.mem_coe, Finset.mem_biUnion,
    List.mem_toFinset, List.mem_filter, decide_eq_true_eq, mem_peers_iff, Joinable,
    Set.mem_sdiff, Set.mem_ofPred_eq]
  constructor
  · rintro ⟨record, hrecord, ⟨hown, hnames⟩, hneighbor⟩
    exact ⟨⟨hown, record, hrecord, hnames⟩, hneighbor⟩
  · rintro ⟨⟨hown, record, hrecord, hnames⟩, hneighbor⟩
    exact ⟨record, hrecord, ⟨hown, hnames⟩, hneighbor⟩

end MessageOverlapMerge

/-- One request for as many members of the set as the limit allows, and none for
the empty set. -/
structure RequestsSample (limit : Nat) (s : Finset (EndpointId X))
    (requests : List (List (EndpointId X))) : Prop where
  empty : s = ∅ → requests = []
  nonempty : s ≠ ∅ → ∃ peers, requests = [peers] ∧ Sample limit s peers

theorem RequestsSample.exists_toFinset_eq {limit : Nat} {s : Finset (EndpointId X)}
    {requests : List (List (EndpointId X))} (h : RequestsSample limit s requests) (hne : s ≠ ∅)
    (hlimit : s.card ≤ limit) : ∃ peers, requests = [peers] ∧ peers.toFinset = s := by
  obtain ⟨peers, hpeers, hsample⟩ := h.nonempty hne
  exact ⟨peers, hpeers, hsample.toFinset_eq hlimit⟩

theorem sendRequest_length_le (tick : Tick X)
    (request : Result (Option (List (EndpointId X)))) :
    (sendRequest tick request).1.length ≤ 1 := by
  unfold sendRequest
  split <;> simp

theorem requestsSample_sendRequest (tick : Tick X) (limit : Nat) (s : Finset (EndpointId X)) :
    RequestsSample limit s (sendRequest tick
      (if s ≠ ∅ then .ok (some (joinPeers tick.shuffle (tick.order.visit s) (some limit)))
        else .ok none)).1 where
  empty hs := by rw [if_neg (not_not.mpr hs), sendRequest]
  nonempty hs := by
    rw [if_pos hs, sendRequest]
    exact ⟨_, rfl, Sample.of_shuffle tick.order tick.shuffle s limit⟩

theorem bubble_requests {self : BubbleMergeActor X} {tick : Tick X} {records : Finset Record}
    {neighbors : Finset (EndpointId X)}
    (hrecords : fetchRecords overflowChecks self.recordPublisher tick = .ok records)
    (hneighbors : tick.neighbors = .ok neighbors) (hfew : neighbors.card < self.minNeighbors) :
    RequestsSample self.maxJoinPeers (self.candidates neighbors records)
      (self.merge overflowChecks tick).1 := by
  have hsample := requestsSample_sendRequest tick self.maxJoinPeers
    (self.candidates neighbors records)
  by_cases hempty : records = ∅
  · have hnone : self.candidates neighbors records = ∅ := by
      rw [hempty, BubbleMergeActor.candidates, Finset.biUnion_empty]
    refine ⟨fun _ => ?_, fun hne => absurd hnone hne⟩
    simp [BubbleMergeActor.merge, BubbleMergeActor.request, hrecords, hneighbors, hempty,
      sendRequest]
  · simpa only [BubbleMergeActor.merge, BubbleMergeActor.request, hrecords, hneighbors, ok_bind,
      if_pos (And.intro hfew hempty)] using hsample

theorem bubble_requests_of_enough {self : BubbleMergeActor X} {tick : Tick X}
    {neighbors : Finset (EndpointId X)} (hneighbors : tick.neighbors = .ok neighbors)
    (henough : self.minNeighbors ≤ neighbors.card) : (self.merge overflowChecks tick).1 = [] := by
  unfold BubbleMergeActor.merge BubbleMergeActor.request
  cases fetchRecords overflowChecks self.recordPublisher tick with
  | error fault => rfl
  | ok records =>
      have hfew : ¬ (neighbors.card < self.minNeighbors ∧ records ≠ ∅) := by
        rintro ⟨hlt, -⟩
        omega
      simp only [ok_bind, hneighbors, if_neg hfew, sendRequest]

theorem overlap_requests {self : MessageOverlapMergeActor X} {tick : Tick X}
    {records : Finset Record} {localHashes : List (Bytes 32)}
    {neighbors : Finset (EndpointId X)}
    (hrecords : fetchRecords overflowChecks self.recordPublisher tick = .ok records)
    (hhashes : tick.lastMessageHashes = .ok localHashes)
    (hneighbors : tick.neighbors = .ok neighbors) :
    RequestsSample self.maxJoinPeers
      (self.candidates neighbors (peersToJoin X localHashes records))
      (self.merge overflowChecks tick).1 := by
  have hsample := requestsSample_sendRequest tick self.maxJoinPeers
    (self.candidates neighbors (peersToJoin X localHashes records))
  by_cases hempty : peersToJoin X localHashes records = ∅
  · have hnone : self.candidates neighbors (peersToJoin X localHashes records) = ∅ := by
      rw [hempty, MessageOverlapMergeActor.candidates, Finset.biUnion_empty]
    refine ⟨fun _ => ?_, fun hne => absurd hnone hne⟩
    simp [MessageOverlapMergeActor.merge, MessageOverlapMergeActor.request, hrecords, hhashes,
      hempty, sendRequest]
  · simpa only [MessageOverlapMergeActor.merge, MessageOverlapMergeActor.request, hrecords,
      hhashes, hneighbors, ok_bind, if_pos hempty] using hsample

theorem request_of_mem_sendRequest {tick : Tick X}
    {request : Result (Option (List (EndpointId X)))} {peers : List (EndpointId X)}
    (h : peers ∈ (sendRequest tick request).1) : request = .ok (some peers) := by
  unfold sendRequest at h
  split at h
  · cases h
  · cases h
  · rw [List.mem_singleton.mp h]

theorem sample_of_bubble_request {self : BubbleMergeActor X} {tick : Tick X}
    {peers : List (EndpointId X)} (h : self.request overflowChecks tick = .ok (some peers)) :
    ∃ records neighbors, fetchRecords overflowChecks self.recordPublisher tick = .ok records ∧
      tick.neighbors = .ok neighbors ∧
      Sample self.maxJoinPeers (self.candidates neighbors records) peers := by
  obtain ⟨records, hrecords, h⟩ := bind_eq_ok.mp h
  obtain ⟨neighbors, hneighbors, h⟩ := bind_eq_ok.mp h
  dsimp only at h
  split at h
  · split at h
    · obtain rfl := Option.some.inj (Except.ok.inj h)
      exact ⟨records, neighbors, hrecords, hneighbors,
        Sample.of_shuffle tick.order tick.shuffle _ _⟩
    · cases h
  · cases h

theorem sample_of_overlap_request {self : MessageOverlapMergeActor X} {tick : Tick X}
    {peers : List (EndpointId X)} (h : self.request overflowChecks tick = .ok (some peers)) :
    ∃ records localHashes neighbors,
      fetchRecords overflowChecks self.recordPublisher tick = .ok records ∧
      tick.neighbors = .ok neighbors ∧ Sample self.maxJoinPeers
        (self.candidates neighbors (peersToJoin X localHashes records)) peers := by
  obtain ⟨records, hrecords, h⟩ := bind_eq_ok.mp h
  obtain ⟨localHashes, -, h⟩ := bind_eq_ok.mp h
  dsimp only at h
  split at h
  · obtain ⟨activeNeighbors, hneighbors, h⟩ := bind_eq_ok.mp h
    split at h
    · obtain rfl := Option.some.inj (Except.ok.inj h)
      exact ⟨records, localHashes, activeNeighbors, hrecords, hneighbors,
        Sample.of_shuffle tick.order tick.shuffle _ _⟩
    · cases h
  · cases h

theorem peersToJoin_subset {localHashes : List (Bytes 32)} {records : Finset Record} :
    peersToJoin X localHashes records ⊆ records := by
  unfold peersToJoin
  split
  · exact Finset.filter_subset _ _
  · exact Finset.empty_subset _

def AsksOthers (overflowChecks : Bool) (rp : RecordPublisher X) (tick : Tick X)
    (peers : List (EndpointId X)) : Prop :=
  ∃ records neighbors, fetchRecords overflowChecks rp tick = .ok records ∧
    tick.neighbors = .ok neighbors ∧ peers.Nodup ∧
      ∀ peer ∈ peers, peer ∈ Joinable rp records ∧ peer ∉ neighbors

theorem asksOthers_of_bubble {self : BubbleMergeActor X} {tick : Tick X}
    {peers : List (EndpointId X)} (hpeers : peers ∈ (self.merge overflowChecks tick).1) :
    AsksOthers overflowChecks self.recordPublisher tick peers := by
  obtain ⟨records, neighbors, hrecords, hneighbors, hsample⟩ :=
    sample_of_bubble_request (request_of_mem_sendRequest hpeers)
  refine ⟨records, neighbors, hrecords, hneighbors, hsample.nodup, fun peer hpeer => ?_⟩
  have hmem := hsample.subset peer hpeer
  rw [← Finset.mem_coe, coe_bubble_candidates] at hmem
  exact ⟨hmem.1, hmem.2⟩

theorem asksOthers_of_overlap {self : MessageOverlapMergeActor X} {tick : Tick X}
    {peers : List (EndpointId X)} (hpeers : peers ∈ (self.merge overflowChecks tick).1) :
    AsksOthers overflowChecks self.recordPublisher tick peers := by
  obtain ⟨records, localHashes, neighbors, hrecords, hneighbors, hsample⟩ :=
    sample_of_overlap_request (request_of_mem_sendRequest hpeers)
  refine ⟨records, neighbors, hrecords, hneighbors, hsample.nodup, fun peer hpeer => ?_⟩
  have hmem := hsample.subset peer hpeer
  rw [← Finset.mem_coe, coe_overlap_candidates] at hmem
  obtain ⟨⟨hown, record, hrecord, hnames⟩, hneighbor⟩ := hmem
  exact ⟨⟨hown, record, peersToJoin_subset hrecord, hnames⟩, hneighbor⟩

theorem pubKey_ne_of_getRecords {rp : RecordPublisher X} {unixMinute : UInt64}
    {answer : Awaited (List MutableItem)} {records : Finset Record}
    (h : rp.getRecords unixMinute answer = .ok records) :
    ∀ record ∈ records, record.pubKey ≠ rp.pubKey := by
  obtain ⟨items, -, rfl⟩ := getRecords_eq_ok_iff.mp h
  intro record hrecord
  obtain ⟨item, -, encryptedRecord, -, -, -, hown⟩ := (mem_recordsOf_iff.mp hrecord).valid
  exact hown

theorem pubKey_ne_of_unwrapOrDefault {rp : RecordPublisher X} {unixMinute : UInt64}
    {answer : Awaited (List MutableItem)} :
    ∀ record ∈ unwrapOrDefault (rp.getRecords unixMinute answer),
      record.pubKey ≠ rp.pubKey := by
  cases h : rp.getRecords unixMinute answer with
  | error fault => simp [unwrapOrDefault]
  | ok records => exact pubKey_ne_of_getRecords h

theorem exists_step_of_fetchNewer (cfg : BootstrapConfig) {rp : RecordPublisher X} {l : Loop X}
    {w : Window} {older : Finset Record} (answer : Awaited (List MutableItem))
    (hpoint : l.point = .fetchNewer w older)
    (hne : older ∪ unwrapOrDefault (rp.getRecords w.newer answer) ≠ ∅) :
    ∃ l' events, l.step cfg rp (.records answer) = some (l', events) ∧
      l'.point = .preJoinCheck w (unwrapOrDefault (rp.getRecords w.newer answer))
        (bootstrapNodes rp (older ∪ unwrapOrDefault (rp.getRecords w.newer answer))) := by
  refine ⟨(Loop.fetched rp l w older (unwrapOrDefault (rp.getRecords w.newer answer))).1,
    .read (.newer l.iteration) w.newer (rp.getRecords w.newer answer) ::
      (Loop.fetched rp l w older (unwrapOrDefault (rp.getRecords w.newer answer))).2, ?_, ?_⟩
  · simp only [Loop.step, hpoint]
  · rw [Loop.fetched, if_neg hne]
    rfl

theorem coe_collected_nodes {cfg : BootstrapConfig} {rp : RecordPublisher X} {l l₁ l₂ : Loop X}
    {w w' : Window} {older newer : Awaited (List MutableItem)} {events₁ events₂ : List (Event X)}
    {current : Finset Record} {nodes : Finset (EndpointId X)} (hpoint : l.point = .fetchOlder w)
    (hfirst : l.step cfg rp (.records older) = some (l₁, events₁))
    (hsecond : l₁.step cfg rp (.records newer) = some (l₂, events₂))
    (hnodes : l₂.point = .preJoinCheck w' current nodes) :
    (nodes : Set (EndpointId X)) = Joinable rp
      (unwrapOrDefault (rp.getRecords w.older older) ∪
        unwrapOrDefault (rp.getRecords w.newer newer)) := by
  simp only [Loop.step, hpoint, Option.some.injEq, Prod.mk.injEq] at hfirst
  rcases hfirst with ⟨rfl, -⟩
  simp only [Loop.step, Loop.goto, Option.some.injEq, Prod.mk.injEq] at hsecond
  rcases hsecond with ⟨rfl, -⟩
  unfold Loop.fetched at hnodes
  split at hnodes
  · simp [Loop.goto] at hnodes
  · simp only [Loop.goto, Point.preJoinCheck.injEq] at hnodes
    rcases hnodes with ⟨-, -, rfl⟩
    apply coe_bootstrapNodes
    intro record hrecord
    rcases Finset.mem_union.mp hrecord with holder | hnewer
    · exact pubKey_ne_of_unwrapOrDefault record holder
    · exact pubKey_ne_of_unwrapOrDefault record hnewer

/-- A tick in minute 7 of a node without neighbours, whose current slot holds the
given items and whose previous slot is empty. -/
noncomputable def sampleTick (items : List MutableItem) : Tick reference where
  unixMinute := 7
  older := .ready (.ok [])
  newer := .ready (.ok items)
  neighbors := .ok ∅
  lastMessageHashes := .ok []
  order := .toList _
  shuffle := Shuffle.identity _
  joined := .ok ()

def sampleBubbleMerge (config : Config) : BubbleMergeActor reference :=
  ⟨samplePublisher 2 config, 2, 4⟩

def sampleRecords (rp : RecordPublisher reference) (items : List MutableItem) : Finset Record :=
  recordsOf rp 6 [] ∪ recordsOf rp 7 items

theorem fetchRecords_sampleTick (rp : RecordPublisher reference) (items : List MutableItem) :
    fetchRecords overflowChecks rp (sampleTick items) = .ok (sampleRecords rp items) := by
  cases overflowChecks <;> rfl

theorem exists_sample_candidate (self : BubbleMergeActor reference) {items : List MutableItem}
    {item : MutableItem} {record : Record} (hitem : item ∈ items)
    (hvalid : self.recordPublisher.Valid 7 item record) :
    ∃ node ∈ self.candidates ∅ (sampleRecords self.recordPublisher items),
      node.bytes = record.pubKey := by
  obtain ⟨found, hfound, hkey⟩ := exists_mem_recordsOf hitem hvalid
  rcases hvalid with ⟨encryptedRecord, -, -, -, hown⟩
  refine ⟨⟨record.pubKey, rfl⟩, ?_, rfl⟩
  rw [← Finset.mem_coe, coe_bubble_candidates]
  exact ⟨⟨hown, found, Finset.mem_union_right _ hfound, .inl hkey⟩, by simp⟩

/-- The nodes the bootstrap loop collects, the candidates of a bubble merge and
those of an overlap merge are the joinable keys of the records each works on, the
merges leaving their neighbours out; a merge tick sends at most one request, for as
many of its candidates as its limit allows. -/
theorem candidates_agree (X : Externals) (overflowChecks : Bool) :
    (∀ (cfg : BootstrapConfig) (rp : RecordPublisher X) (l l₁ l₂ : Loop X) (w w' : Window)
      (older newer : Awaited (List MutableItem)) (events₁ events₂ : List (Event X))
      (current : Finset Record) (nodes : Finset (EndpointId X)),
      l.point = .fetchOlder w → l.step cfg rp (.records older) = some (l₁, events₁) →
      l₁.step cfg rp (.records newer) = some (l₂, events₂) →
      l₂.point = .preJoinCheck w' current nodes →
      (nodes : Set (EndpointId X)) = Joinable rp
        (unwrapOrDefault (rp.getRecords w.older older) ∪
          unwrapOrDefault (rp.getRecords w.newer newer))) ∧
    (∀ (self : BubbleMergeActor X) (tick : Tick X) (records : Finset Record)
      (neighbors : Finset (EndpointId X)),
      fetchRecords overflowChecks self.recordPublisher tick = .ok records →
      tick.neighbors = .ok neighbors →
      (self.candidates neighbors records : Set (EndpointId X)) =
          Joinable self.recordPublisher records \ neighbors ∧
        (neighbors.card < self.minNeighbors → RequestsSample self.maxJoinPeers
          (self.candidates neighbors records) (self.merge overflowChecks tick).1) ∧
        (self.minNeighbors ≤ neighbors.card → (self.merge overflowChecks tick).1 = [])) ∧
    (∀ (self : MessageOverlapMergeActor X) (tick : Tick X) (records : Finset Record)
      (localHashes : List (Bytes 32)) (neighbors : Finset (EndpointId X)),
      fetchRecords overflowChecks self.recordPublisher tick = .ok records →
      tick.lastMessageHashes = .ok localHashes → tick.neighbors = .ok neighbors →
      (self.candidates neighbors (peersToJoin X localHashes records) : Set (EndpointId X)) =
          Joinable self.recordPublisher (peersToJoin X localHashes records) \ neighbors ∧
        RequestsSample self.maxJoinPeers
          (self.candidates neighbors (peersToJoin X localHashes records))
          (self.merge overflowChecks tick).1) ∧
    (∀ (self : BubbleMergeActor X) (tick : Tick X),
      (self.merge overflowChecks tick).1.length ≤ 1) ∧
    ∀ (self : MessageOverlapMergeActor X) (tick : Tick X),
      (self.merge overflowChecks tick).1.length ≤ 1 := by
  refine ⟨?_, ?_, ?_, fun self tick => sendRequest_length_le tick _,
    fun self tick => sendRequest_length_le tick _⟩
  · intro cfg rp l l₁ l₂ w w' older newer events₁ events₂ current nodes hpoint hfirst hsecond
    exact coe_collected_nodes hpoint hfirst hsecond
  · intro self tick records neighbors hrecords hneighbors
    exact ⟨coe_bubble_candidates, bubble_requests hrecords hneighbors,
      bubble_requests_of_enough hneighbors⟩
  · intro self tick records localHashes neighbors hrecords hhashes hneighbors
    exact ⟨coe_overlap_candidates, overlap_requests hrecords hhashes hneighbors⟩

/-- The reference primitives, for which one key is no endpoint id. -/
def pickyReference : Externals :=
  { reference with isEndpointId := fun bytes => bytes ≠ List.Vector.replicate 32 5 }

def pickyPublisher (seed : UInt8) : RecordPublisher pickyReference :=
  .new pickyReference ⟨zeroBytes 32⟩ (List.Vector.replicate 32 seed) none [] {}

/-- Five active peers: publisher 2, its neighbour 3, an unused entry, a key that is no
endpoint id, and node 4. -/
def mixedContent : GossipRecordContent where
  activePeers := ⟨[2, 3, 0, 5, 4].map (List.Vector.replicate 32), rfl⟩
  lastMessageHashes := ⟨[9, 0, 0, 0, 0].map (List.Vector.replicate 32), rfl⟩

/-- The items of a slot into which publisher 1 has put the record with these peers. -/
def mixedItems : List MutableItem :=
  let put : Result (Option DhtPut) := do
    let record ← Record.sign pickyReference pickyReference.gossipContent (zeroBytes 32) 7
      mixedContent (pickyPublisher 1).signingKey
    publishRecordCachedRecords (pickyPublisher 1) record (some ∅) .cancelled zeroDraw
  match put with
  | .ok (some put) => [put.item]
  | _ => []

def neighborThree : EndpointId pickyReference := ⟨List.Vector.replicate 32 3, by decide⟩

noncomputable def mixedTick : Tick pickyReference where
  unixMinute := 7
  older := .ready (.ok [])
  newer := .ready (.ok mixedItems)
  neighbors := .ok {neighborThree}
  lastMessageHashes := .ok [List.Vector.replicate 32 8]
  order := .toList _
  shuffle := Shuffle.identity _
  joined := .ok ()

def mixedRecords : Finset Record :=
  recordsOf (pickyPublisher 2) 6 [] ∪ recordsOf (pickyPublisher 2) 7 mixedItems

theorem fetchRecords_mixedTick :
    fetchRecords true (pickyPublisher 2) mixedTick = .ok mixedRecords := rfl

def keys (seeds : List UInt8) : Finset (Bytes 32) :=
  (seeds.map (List.Vector.replicate 32)).toFinset

theorem bubble_candidates_mixedRecords :
    (BubbleMergeActor.candidates ⟨pickyPublisher 2, 2, 4⟩ {neighborThree} mixedRecords).image
      EndpointId.bytes = keys [1, 4] := by
  decide +kernel

theorem overlap_candidates_mixedRecords :
    (MessageOverlapMergeActor.candidates ⟨pickyPublisher 2, 2⟩ {neighborThree}
      (peersToJoin pickyReference [List.Vector.replicate 32 8] mixedRecords)).image
        EndpointId.bytes = keys [1, 4] := by
  decide +kernel

def beforeReads : Loop pickyReference := ⟨.fetchOlder ⟨7, 0, true⟩, 7, false, 1⟩

/-- Of the keys in the record, the loop collects 1, 3 and 4, and each merge asks for 1
and 4. -/
theorem candidates_agree_mixedRecord :
    (∃ r₁ ∈ beforeReads.step {} (pickyPublisher 2) (.records (.ready (.ok []))),
      ∃ r₂ ∈ r₁.1.step {} (pickyPublisher 2) (.records (.ready (.ok mixedItems))),
        ∃ current nodes, r₂.1.point = .preJoinCheck ⟨7, 0, true⟩ current nodes ∧
          (nodes : Set (EndpointId pickyReference)) = Joinable (pickyPublisher 2) mixedRecords ∧
          nodes.image EndpointId.bytes = keys [1, 3, 4]) ∧
    (∃ peers, (BubbleMergeActor.merge ⟨pickyPublisher 2, 2, 4⟩ true mixedTick).1 = [peers] ∧
      peers.toFinset.image EndpointId.bytes = keys [1, 4]) ∧
    ∃ peers, (MessageOverlapMergeActor.merge ⟨pickyPublisher 2, 2⟩ true mixedTick).1 = [peers] ∧
      peers.toFinset.image EndpointId.bytes = keys [1, 4] := by
  obtain ⟨hloop, hbubble, hoverlap, -⟩ := candidates_agree pickyReference true
  refine ⟨?_, ?_, ?_⟩
  · have hread : unwrapOrDefault ((pickyPublisher 2).getRecords
          (Window.older ⟨7, 0, true⟩) (.ready (.ok []))) ∪
        unwrapOrDefault ((pickyPublisher 2).getRecords (Window.newer ⟨7, 0, true⟩)
          (.ready (.ok mixedItems))) = mixedRecords := by
      decide +kernel
    have hsome : mixedRecords ≠ ∅ := by decide +kernel
    rw [← hread]
    obtain ⟨l₁, events₁, hfirst, hnewer⟩ : ∃ l₁ events₁, beforeReads.step {} (pickyPublisher 2)
        (.records (.ready (.ok []))) = some (l₁, events₁) ∧ l₁.point = .fetchNewer ⟨7, 0, true⟩
          (unwrapOrDefault ((pickyPublisher 2).getRecords (Window.older ⟨7, 0, true⟩)
            (.ready (.ok [])))) := ⟨_, _, rfl, rfl⟩
    obtain ⟨l₂, events₂, hsecond, hpoint⟩ :=
      exists_step_of_fetchNewer {} (.ready (.ok mixedItems)) hnewer (hread.symm ▸ hsome)
    have hnodes := hloop {} (pickyPublisher 2) beforeReads l₁ l₂ ⟨7, 0, true⟩ _ _ _ _ _ _ _ rfl
      hfirst hsecond hpoint
    exact ⟨_, hfirst, _, hsecond, _, _, hpoint, hnodes, by decide +kernel⟩
  · obtain ⟨-, hrequests, -⟩ := hbubble ⟨pickyPublisher 2, 2, 4⟩ mixedTick mixedRecords
      {neighborThree} fetchRecords_mixedTick rfl
    obtain ⟨peers, hpeers, heq⟩ :=
      (hrequests (by decide)).exists_toFinset_eq (by decide +kernel) (by decide +kernel)
    exact ⟨peers, hpeers, by rw [heq, bubble_candidates_mixedRecords]⟩
  · obtain ⟨-, hrequests⟩ := hoverlap ⟨pickyPublisher 2, 2⟩ mixedTick mixedRecords
      [List.Vector.replicate 32 8] {neighborThree} fetchRecords_mixedTick rfl rfl
    obtain ⟨peers, hpeers, heq⟩ :=
      hrequests.exists_toFinset_eq (by decide +kernel) (by decide +kernel)
    exact ⟨peers, hpeers, by rw [heq, overlap_candidates_mixedRecords]⟩

end TopicTracker.JoinCandidates
