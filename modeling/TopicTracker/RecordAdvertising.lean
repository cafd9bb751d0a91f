import TopicTracker.PeerMerging

namespace TopicTracker.RecordAdvertising

open TopicTracker.RustValues
open TopicTracker.ThirdParty
open TopicTracker.ReferenceExternals (reference reference_encodesContentLosslessly)
open TopicTracker.RandomOrder
open TopicTracker.RecordCodec
open TopicTracker.EncryptedRecordCodec
open TopicTracker.RecordRetrieval
open TopicTracker.RecordPublishing
open TopicTracker.BootstrapLoop
open TopicTracker.PeerMerging

variable {X : Externals}

/-- `array[..src.len()].copy_from_slice(&src)`, which panics when `src` is longer. -/
def copyFromSlice {n : Nat} (array : List.Vector (Bytes 32) n) (src : List (Bytes 32)) :
    Result (List.Vector (Bytes 32) n) :=
  if h : src.length ≤ n then
    .ok ⟨src ++ array.toList.drop src.length, by
      rw [List.length_append, List.length_drop, List.Vector.toList_length]
      omega⟩
  else .error (.panic "range end index out of range for slice")

/-- The environment of one call of `publish`, up to how its put ends. -/
structure PublishTick (X : Externals) where
  unixMinute : UInt64
  neighbors : Result (Finset (EndpointId X))
  order : IterationOrder (EndpointId X)
  lastMessageHashes : Result (List (Bytes 32))
  answer : Awaited (List MutableItem)
  draw : EncryptionDraw
  stored : Result Unit

def activePeers (order : IterationOrder (EndpointId X)) (neighbors : Finset (EndpointId X)) :
    List (Bytes 32) :=
  ((order.visit neighbors).filterMap fun pubKey =>
    (tryIntoArray 32 pubKey.bytes.toList).toOption).take maxRecordPeers

def advertisedHashes (lastMessageHashes : List (Bytes 32)) : List (Bytes 32) :=
  (lastMessageHashes.filterMap fun hash =>
    (tryIntoArray 32 hash.toList).toOption).take maxMessageHashes

def recordContent (activePeers lastMessageHashes : List (Bytes 32)) :
    Result GossipRecordContent := do
  let activePeers ←
    copyFromSlice (List.Vector.replicate maxRecordPeers (zeroBytes 32)) activePeers
  let lastMessageHashes ←
    copyFromSlice (List.Vector.replicate maxMessageHashes (zeroBytes 32)) lastMessageHashes
  .ok ⟨activePeers, lastMessageHashes⟩

/-- `RecordPublisher::new_record`. -/
def newRecord (self : RecordPublisher X) (unixMinute : UInt64)
    (recordContent : GossipRecordContent) : Result Record :=
  Record.sign X X.gossipContent self.topicId.hash unixMinute recordContent self.signingKey

/-- The part of `PublisherActor::publish` before its `publish_record`. -/
def createRecord (self : RecordPublisher X) (tick : PublishTick X) : Result Record := do
  let neighbors ← tick.neighbors
  let hashes ← tick.lastMessageHashes
  let content ← recordContent (activePeers tick.order neighbors) (advertisedHashes hashes)
  newRecord self tick.unixMinute content

def remotePeers (content : GossipRecordContent) : List (Bytes 32) :=
  content.activePeers.toList.filter fun peer => peer ≠ zeroBytes 32

theorem copyFromSlice_zero {n : Nat} {src : List (Bytes 32)} (h : src.length ≤ n) :
    ∃ array, copyFromSlice (List.Vector.replicate n (zeroBytes 32)) src = .ok array ∧
      array.toList = src ++ List.replicate (n - src.length) (zeroBytes 32) := by
  refine ⟨_, dif_pos h, ?_⟩
  show src ++ (List.replicate n (zeroBytes 32)).drop src.length = _
  rw [List.drop_replicate]

theorem filter_ne_zero_append (src : List (Bytes 32)) (n : Nat) :
    ((src ++ List.replicate n (zeroBytes 32)).filter fun bytes => bytes ≠ zeroBytes 32) =
      src.filter fun bytes => bytes ≠ zeroBytes 32 := by
  rw [List.filter_append, List.filter_replicate]
  simp

theorem activePeers_eq (order : IterationOrder (EndpointId X))
    (neighbors : Finset (EndpointId X)) :
    activePeers order neighbors =
      ((order.visit neighbors).take maxRecordPeers).map EndpointId.bytes := by
  have hmap : ((order.visit neighbors).filterMap fun pubKey =>
      (tryIntoArray 32 pubKey.bytes.toList).toOption) =
        (order.visit neighbors).map EndpointId.bytes := by
    simp [Except.toOption, ← List.filterMap_eq_map']
  rw [activePeers, hmap, List.map_take]

theorem advertisedHashes_eq (hashes : List (Bytes 32)) :
    advertisedHashes hashes = hashes.take maxMessageHashes := by
  have hmap : (hashes.filterMap fun hash => (tryIntoArray 32 hash.toList).toOption) = hashes := by
    simp [Except.toOption]
  rw [advertisedHashes, hmap]

/-- The arrays take what fits and are padded with zeros, so nothing panics. -/
theorem recordContent_eq_ok (peers hashes : List (Bytes 32))
    (hpeers : peers.length ≤ maxRecordPeers) (hhashes : hashes.length ≤ maxMessageHashes) :
    ∃ content, recordContent peers hashes = .ok content ∧
      remotePeers content = peers.filter (fun peer => peer ≠ zeroBytes 32) ∧
      remoteHashes content = hashes.filter fun hash => hash ≠ zeroBytes 32 := by
  obtain ⟨peerArray, hpeerArray, hpeerList⟩ := copyFromSlice_zero hpeers
  obtain ⟨hashArray, hhashArray, hhashList⟩ := copyFromSlice_zero hhashes
  refine ⟨⟨peerArray, hashArray⟩, ?_, ?_, ?_⟩
  · rw [recordContent, hpeerArray, hhashArray, ok_bind, ok_bind]
  · rw [remotePeers, hpeerList, filter_ne_zero_append]
  · rw [remoteHashes, hhashList, filter_ne_zero_append]

/-- The record decodes to the given non-zero peers and hashes. -/
def Advertises (X : Externals) (record : Record) (peers hashes : List (Bytes 32)) : Prop :=
  ∃ content, record.content.decodeTo X.gossipContent = .ok content ∧
    remotePeers content = peers ∧ remoteHashes content = hashes

theorem Advertises.hashes_unique {record : Record} {peers peers' hashes hashes' : List (Bytes 32)}
    (h : Advertises X record peers hashes) (h' : Advertises X record peers' hashes') :
    hashes = hashes' := by
  obtain ⟨content, hcontent, -, rfl⟩ := h
  obtain ⟨content', hcontent', -, rfl⟩ := h'
  rw [Except.ok.inj (hcontent.symm.trans hcontent')]

theorem newRecord_decodes (hX : EncodesContentLosslessly X) (self : RecordPublisher X)
    (unixMinute : UInt64) (content : GossipRecordContent) :
    ∃ record, newRecord self unixMinute content = .ok record ∧
      record.content.decodeTo X.gossipContent = .ok content := by
  obtain ⟨bytes, hencode, hdecode⟩ := hX content
  have hcontent : RecordContent.fromArbitrary X.gossipContent content = .ok ⟨bytes⟩ := by
    rw [RecordContent.fromArbitrary, hencode, ok_bind]
  exact ⟨_, sign_eq_ok_iff.mpr ⟨⟨bytes⟩, hcontent, rfl⟩, hdecode⟩

theorem createRecord_advertises (hX : EncodesContentLosslessly X) (self : RecordPublisher X)
    {tick : PublishTick X} {neighbors : Finset (EndpointId X)} {hashes : List (Bytes 32)}
    (hneighbors : tick.neighbors = .ok neighbors) (hhashes : tick.lastMessageHashes = .ok hashes) :
    ∃ record, createRecord self tick = .ok record ∧
      Advertises X record
        ((activePeers tick.order neighbors).filter fun peer => peer ≠ zeroBytes 32)
        ((hashes.take maxMessageHashes).filter fun hash => hash ≠ zeroBytes 32) := by
  have hpeers : (activePeers tick.order neighbors).length ≤ maxRecordPeers :=
    List.length_take_le _ _
  have hwindow : (advertisedHashes hashes).length ≤ maxMessageHashes :=
    List.length_take_le _ _
  obtain ⟨content, hcontent, hremotePeers, hremoteHashes⟩ :=
    recordContent_eq_ok _ _ hpeers hwindow
  obtain ⟨record, hrecord, hdecode⟩ := newRecord_decodes hX self tick.unixMinute content
  refine ⟨record, ?_, content, hdecode, hremotePeers, ?_⟩
  · rw [createRecord, hneighbors, hhashes, ok_bind, ok_bind, hcontent, ok_bind, hrecord]
  · rw [hremoteHashes, advertisedHashes_eq]

theorem mem_peersToJoin_iff {record : Record} {peers hashes localHashes : List (Bytes 32)}
    {records : Finset Record} (h : Advertises X record peers hashes) (hrecord : record ∈ records) :
    record ∈ peersToJoin X localHashes records ↔
      localHashes ≠ [] ∧ hashes ≠ [] ∧ localHashes.Disjoint hashes := by
  rcases h with ⟨content, hcontent, -, rfl⟩
  have hselect : nonOverlapping X localHashes record = true ↔
      remoteHashes content ≠ [] ∧ localHashes.Disjoint (remoteHashes content) := by
    rw [nonOverlapping, hcontent]
    simp only [Bool.and_eq_true, Bool.not_eq_true', List.isEmpty_eq_false_iff, List.all_eq_true,
      List.contains_eq_mem, decide_eq_false_iff_not, List.disjoint_right]
  unfold peersToJoin
  by_cases hlocal : localHashes = []
  · simp [hlocal]
  · simp [hlocal, hrecord, hselect]

theorem filter_activePeers {order : IterationOrder (EndpointId X)}
    {neighbors : Finset (EndpointId X)} (hzero : ∀ node ∈ neighbors, node.bytes ≠ zeroBytes 32) :
    ((activePeers order neighbors).filter fun peer => peer ≠ zeroBytes 32) =
      ((order.visit neighbors).take maxRecordPeers).map EndpointId.bytes := by
  rw [activePeers_eq]
  apply List.filter_eq_self.mpr
  intro peer hpeer
  obtain ⟨node, hnode, rfl⟩ := List.mem_map.mp hpeer
  have hmem : node ∈ neighbors := (order.mem_visit neighbors).mp (List.mem_of_mem_take hnode)
  exact decide_eq_true (hzero node hmem)

theorem filter_window {hashes : List (Bytes 32)} (hlength : hashes.length ≤ maxMessageHashes)
    (hzero : ∀ hash ∈ hashes, hash ≠ zeroBytes 32) :
    ((hashes.take maxMessageHashes).filter fun hash => hash ≠ zeroBytes 32) = hashes := by
  rw [List.take_of_length_le hlength]
  apply List.filter_eq_self.mpr
  intro hash hhash
  exact decide_eq_true (hzero hash hhash)

/-- What a node may advertise: a window of bounded size and no all-zero key or hash. -/
structure Advertisable (neighbors : Finset (EndpointId X)) (window : List (Bytes 32)) : Prop where
  length : window.length ≤ maxMessageHashes
  neighbors_ne_zero : ∀ node ∈ neighbors, node.bytes ≠ zeroBytes 32
  window_ne_zero : ∀ hash ∈ window, hash ≠ zeroBytes 32

/-- The published record gives back the advertised neighbours and the window, so the
overlap test on it compares the two windows and is the same in both directions. -/
theorem advertisement_roundtrip (hX : EncodesContentLosslessly X) (self : RecordPublisher X)
    (tick : PublishTick X) (neighbors : Finset (EndpointId X)) (window : List (Bytes 32))
    (hneighbors : tick.neighbors = .ok neighbors) (hwindow : tick.lastMessageHashes = .ok window)
    (hadvertisable : Advertisable neighbors window) :
    ∃ record, createRecord self tick = .ok record ∧
      (∃ nodes, Sample maxRecordPeers neighbors nodes ∧
        Advertises X record (nodes.map EndpointId.bytes) window) ∧
      (∀ localHashes records, record ∈ records →
        (record ∈ peersToJoin X localHashes records ↔
          localHashes ≠ [] ∧ window ≠ [] ∧ localHashes.Disjoint window)) ∧
      ∀ (other : RecordPublisher X) (otherTick : PublishTick X)
        (otherNeighbors : Finset (EndpointId X)) (otherWindow : List (Bytes 32)),
        otherTick.neighbors = .ok otherNeighbors →
        otherTick.lastMessageHashes = .ok otherWindow →
        Advertisable otherNeighbors otherWindow →
        ∃ otherRecord, createRecord other otherTick = .ok otherRecord ∧
          ∀ records, record ∈ records → otherRecord ∈ records →
            (record ∈ peersToJoin X otherWindow records ↔
              otherRecord ∈ peersToJoin X window records) := by
  obtain ⟨record, hrecord, hadvertises⟩ := createRecord_advertises hX self hneighbors hwindow
  rw [filter_activePeers hadvertisable.neighbors_ne_zero,
    filter_window hadvertisable.length hadvertisable.window_ne_zero] at hadvertises
  have hselected : ∀ localHashes records, record ∈ records →
      (record ∈ peersToJoin X localHashes records ↔
        localHashes ≠ [] ∧ window ≠ [] ∧ localHashes.Disjoint window) :=
    fun localHashes records hmem => mem_peersToJoin_iff hadvertises hmem
  refine ⟨record, hrecord, ⟨_, Sample.of_take tick.order neighbors maxRecordPeers, hadvertises⟩,
    hselected, ?_⟩
  intro other otherTick otherNeighbors otherWindow hother hotherWindow hotherAdvertisable
  obtain ⟨otherRecord, hotherRecord, hotherAdvertises⟩ :=
    createRecord_advertises hX other hother hotherWindow
  rw [filter_window hotherAdvertisable.length hotherAdvertisable.window_ne_zero]
    at hotherAdvertises
  refine ⟨otherRecord, hotherRecord, fun records hmem hotherMem => ?_⟩
  rw [hselected otherWindow records hmem, mem_peersToJoin_iff hotherAdvertises hotherMem]
  constructor
  · rintro ⟨hlocal, hremote, hdisjoint⟩
    exact ⟨hremote, hlocal, hdisjoint.symm⟩
  · rintro ⟨hlocal, hremote, hdisjoint⟩
    exact ⟨hremote, hlocal, hdisjoint.symm⟩

/-- A call of `publish` in minute 7 by a node without neighbours. -/
noncomputable def samplePublishTick (window : List (Bytes 32)) : PublishTick reference where
  unixMinute := 7
  neighbors := .ok ∅
  order := .toList _
  lastMessageHashes := .ok window
  answer := .ready (.ok [])
  draw := zeroDraw
  stored := .ok ()

def sevenNeighbors : Finset (EndpointId reference) :=
  ([2, 3, 4, 5, 6, 7, 8].map sampleEndpoint).toFinset

def sampleWindow : List (Bytes 32) := [10, 11, 12].map (List.Vector.replicate 32)

theorem advertisement_roundtrip_sevenNeighbors :
    ∃ (record : Record) (nodes : List (EndpointId reference)), createRecord (samplePublisher 1 {})
        { samplePublishTick sampleWindow with neighbors := .ok sevenNeighbors } = .ok record ∧
      Advertises reference record (nodes.map EndpointId.bytes) sampleWindow ∧
      nodes.length = 5 ∧ (∀ node ∈ nodes, node ∈ sevenNeighbors) ∧
      record ∉ peersToJoin reference [List.Vector.replicate 32 12] {record} ∧
      record ∈ peersToJoin reference [List.Vector.replicate 32 13] {record} := by
  have hwindow : sampleWindow.all (fun hash => hash ≠ zeroBytes 32) = true := by decide +kernel
  have hadvertisable : Advertisable sevenNeighbors sampleWindow :=
    ⟨by decide, by decide +kernel, fun hash hhash =>
      of_decide_eq_true (List.all_eq_true.mp hwindow hash hhash)⟩
  obtain ⟨record, hrecord, ⟨nodes, hsample, hadvertises⟩, hselected, -⟩ :=
    advertisement_roundtrip reference_encodesContentLosslessly (samplePublisher 1 {})
      { samplePublishTick sampleWindow with neighbors := .ok sevenNeighbors } sevenNeighbors
      sampleWindow rfl rfl hadvertisable
  have hseven : sevenNeighbors.card = 7 := by decide +kernel
  refine ⟨record, nodes, hrecord, hadvertises, ?_, hsample.subset, ?_, ?_⟩
  · rw [hsample.length, hseven]
    rfl
  · rw [hselected _ _ (Finset.mem_singleton_self record), List.singleton_disjoint]
    decide +kernel
  · rw [hselected _ _ (Finset.mem_singleton_self record), List.singleton_disjoint]
    decide +kernel

end TopicTracker.RecordAdvertising
