import TopicTracker.MinuteSlots
import TopicTracker.RandomOrder

namespace TopicTracker.PeerMerging

open TopicTracker.RustValues
open TopicTracker.ThirdParty
open TopicTracker.RandomOrder
open TopicTracker.RecordCodec
open TopicTracker.RecordRetrieval
open TopicTracker.BootstrapLoop
open TopicTracker.MinuteSlots

variable {X : Externals}

/-- The peers `join_peers` asks the gossip sender for. -/
def joinPeers {α : Type} (shuffle : Shuffle α) (peers : List α) (maxPeers : Option Nat) :
    List α :=
  match maxPeers with
  | some maxPeers => (shuffle.shuffle peers).take maxPeers
  | none => peers

/-- The environment of one tick: the clock, the answers to the awaits of `merge`, the
order of its hash set, the shuffle it draws and how its join request ends. -/
structure Tick (X : Externals) where
  unixMinute : UInt64
  older : Awaited (List MutableItem)
  newer : Awaited (List MutableItem)
  neighbors : Result (Finset (EndpointId X))
  lastMessageHashes : Result (List (Bytes 32))
  order : IterationOrder (EndpointId X)
  shuffle : Shuffle (EndpointId X)
  joined : Result Unit

def fetchRecords (overflowChecks : Bool) (rp : RecordPublisher X) (tick : Tick X) :
    Result (Finset Record) := do
  let slots ← mergeSlots overflowChecks tick.unixMinute
  let records ← rp.getRecords slots.1 tick.older
  let newer ← rp.getRecords slots.2 tick.newer
  .ok (records ∪ newer)

/-- The join requests a tick sends, and the result of `merge`. -/
def sendRequest (tick : Tick X) : Result (Option (List (EndpointId X))) →
    List (List (EndpointId X)) × Result Unit
  | .error fault => ([], .error fault)
  | .ok none => ([], .ok ())
  | .ok (some peers) => ([peers], tick.joined)

structure BubbleMergeActor (X : Externals) where
  recordPublisher : RecordPublisher X
  maxJoinPeers : Nat
  minNeighbors : Nat

namespace BubbleMergeActor

variable (self : BubbleMergeActor X)

def activePeers (neighbors : Finset (EndpointId X)) (record : Record) :
    List (EndpointId X) :=
  match record.content.decodeTo X.gossipContent with
  | .ok content => content.activePeers.toList.filterMap fun activePeer =>
      if activePeer = zeroBytes 32 ∨ activePeer ∈ neighbors.image EndpointId.bytes ∨
          activePeer = record.pubKey ∨ activePeer = self.recordPublisher.pubKey then none
      else EndpointId.fromBytes X activePeer
  | .error _ => []

def pubKeys (neighbors : Finset (EndpointId X)) (record : Record) : List (EndpointId X) :=
  match EndpointId.fromBytes X record.pubKey with
  | some pubKey =>
      if pubKey.bytes ≠ self.recordPublisher.pubKey ∧ pubKey ∉ neighbors then
        self.activePeers neighbors record ++ [pubKey]
      else self.activePeers neighbors record
  | none => self.activePeers neighbors record

def candidates (neighbors : Finset (EndpointId X)) (records : Finset Record) :
    Finset (EndpointId X) :=
  records.biUnion fun record => (self.pubKeys neighbors record).toFinset

def request (overflowChecks : Bool) (tick : Tick X) : Result (Option (List (EndpointId X))) := do
  let records ← fetchRecords overflowChecks self.recordPublisher tick
  let neighbors ← tick.neighbors
  if neighbors.card < self.minNeighbors ∧ records ≠ ∅ then
    let pubKeys := self.candidates neighbors records
    if pubKeys ≠ ∅ then
      .ok (some (joinPeers tick.shuffle (tick.order.visit pubKeys) (some self.maxJoinPeers)))
    else .ok none
  else .ok none

def merge (overflowChecks : Bool) (tick : Tick X) :
    List (List (EndpointId X)) × Result Unit :=
  sendRequest tick (self.request overflowChecks tick)

end BubbleMergeActor

/-- The actor `start_bubble_merge` starts. -/
def startBubbleMerge (rp : RecordPublisher X) : Option (BubbleMergeActor X) :=
  match rp.config.mergeConfig.bubbleMerge with
  | .enabled config => some ⟨rp, config.maxJoinPeers, config.minNeighbors⟩
  | .disabled => none

structure MessageOverlapMergeActor (X : Externals) where
  recordPublisher : RecordPublisher X
  maxJoinPeers : Nat

/-- The actor `start_message_overlap_merge` starts. -/
def startMessageOverlapMerge (rp : RecordPublisher X) : Option (MessageOverlapMergeActor X) :=
  match rp.config.mergeConfig.messageOverlapMerge with
  | .enabled config => some ⟨rp, config.maxJoinPeers⟩
  | .disabled => none

/-- The hashes a record carries in its fixed array. -/
def remoteHashes (content : GossipRecordContent) : List (Bytes 32) :=
  content.lastMessageHashes.toList.filter fun hash => hash ≠ zeroBytes 32

/-- The filter of `MessageOverlapMergeActor::merge`. -/
def nonOverlapping (X : Externals) (localHashes : List (Bytes 32)) (record : Record) : Bool :=
  match record.content.decodeTo X.gossipContent with
  | .ok content =>
      !(remoteHashes content).isEmpty &&
        (remoteHashes content).all fun hash => !localHashes.contains hash
  | .error _ => false

/-- The records selected by a node with these message hashes. -/
def peersToJoin (X : Externals) (localHashes : List (Bytes 32)) (records : Finset Record) :
    Finset Record :=
  if !localHashes.isEmpty then
    records.filter fun record => nonOverlapping X localHashes record = true
  else ∅

namespace MessageOverlapMergeActor

variable (self : MessageOverlapMergeActor X)

/-- The valid keys of one record other than the node's own. -/
def peers (record : Record) : List (EndpointId X) :=
  let publisher := (EndpointId.fromBytes X record.pubKey).toList.filter fun pubKey =>
    pubKey.bytes ≠ self.recordPublisher.pubKey
  match record.content.decodeTo X.gossipContent with
  | .ok content =>
      publisher ++ content.activePeers.toList.flatMap fun activePeer =>
        if activePeer = zeroBytes 32 then []
        else (EndpointId.fromBytes X activePeer).toList.filter fun pubKey =>
          pubKey.bytes ≠ self.recordPublisher.pubKey
  | .error _ => publisher

def candidates (activeNeighbors : Finset (EndpointId X)) (selected : Finset Record) :
    Finset (EndpointId X) :=
  selected.biUnion fun record =>
    ((self.peers record).filter fun pubKey => pubKey ∉ activeNeighbors).toFinset

def request (overflowChecks : Bool) (tick : Tick X) : Result (Option (List (EndpointId X))) := do
  let records ← fetchRecords overflowChecks self.recordPublisher tick
  let localHashes ← tick.lastMessageHashes
  let selected := peersToJoin X localHashes records
  if selected ≠ ∅ then
    let activeNeighbors ← tick.neighbors
    let pubKeys := self.candidates activeNeighbors selected
    if pubKeys ≠ ∅ then
      .ok (some (joinPeers tick.shuffle (tick.order.visit pubKeys) (some self.maxJoinPeers)))
    else .ok none
  else .ok none

def merge (overflowChecks : Bool) (tick : Tick X) :
    List (List (EndpointId X)) × Result Unit :=
  sendRequest tick (self.request overflowChecks tick)

end MessageOverlapMergeActor

end TopicTracker.PeerMerging
