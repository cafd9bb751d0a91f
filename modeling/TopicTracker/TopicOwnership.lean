import Mathlib.Data.Finset.Basic
import Mathlib.Data.Finset.Card
import Mathlib.Logic.Relation

/-!
Who owns the handle of the topic actor: the values of a topic's lifetime, from
the actor spawned in `Topic::new` to the last sender or receiver. The actors behind
senders and receivers own none of these values.
-/

namespace TopicTracker.TopicOwnership

inductive Worker
  | publisher
  | bubbleMerge
  | messageOverlapMerge
deriving DecidableEq

/-- The part of the configuration that decides which tasks a topic starts. -/
structure Setup where
  asyncBootstrap : Bool
  publisher : Bool
  bubbleMerge : Bool
  messageOverlapMerge : Bool

/-- The enabled workers in the order in which `spawn_workers` starts them. -/
def Setup.workers (setup : Setup) : List Worker :=
  (if setup.publisher then [.publisher] else []) ++
    ((if setup.bubbleMerge then [.bubbleMerge] else []) ++
      if setup.messageOverlapMerge then [.messageOverlapMerge] else [])

inductive Side
  | sender
  | receiver
deriving DecidableEq

inductive Holder
  | user
  | topicNew
  | bootstrapActor
  | bootstrapTask
  | worker (worker : Worker)
deriving DecidableEq

/-- A `GossipSender` or `GossipReceiver`. Its `_topic_keep_alive` names the
allocation of an `Arc<Topic>`. -/
structure Channel where
  holder : Holder
  side : Side
  topicKeepAlive : Option Nat
deriving DecidableEq

/-- A call of `gossip_sender` or `gossip_receiver` that the topic actor has not
answered. It owns its `topic_ref` also after the caller has gone. -/
structure TopicCall where
  side : Side
  topicRef : Nat
  abandoned : Bool
deriving DecidableEq

/-- `spawn_workers`: the workers still to start, and whether the weak handle is
upgraded for a call that starts the first of them. -/
structure Spawning where
  remaining : List Worker
  calling : Bool
deriving DecidableEq

/-- How far `Topic::new` has come after spawning the topic actor. -/
inductive NewStage
  | bootstrapping
  | awaitingReceiver
  | awaitingJoined
  | spawning (work : Spawning)
  | returned
  | failed
  | abandoned
deriving DecidableEq

/-- The background task that `Topic::new` spawns. -/
inductive StartupStage
  | notSpawned
  | waiting
  | spawning (work : Spawning)
  | finished
  | failed
deriving DecidableEq

structure TopicState where
  new : NewStage
  startup : StartupStage
  topics : Nat
  channels : List Channel
  calls : List TopicCall
  nextTopicRef : Nat
  actorDropped : Bool
  cancelled : Bool
deriving DecidableEq

inductive UserOp
  | cloneTopic
  | dropTopic
  | request (side : Side)
  | abandon (call : Nat)
  | cloneChannel (channel : Nat)
  | dropChannel (channel : Nat)

/-- How the next await of `Topic::new` ends. -/
inductive NewOp
  | bootstrapped (ok : Bool)
  | gotReceiver (ok : Bool)
  | joined (ok : Bool)
  | abandon

inductive Spawner
  | topicNew
  | startupTask
deriving DecidableEq

/-- How the call that starts a worker ends: with the worker, without it because
its failure is tolerated, or with an error. -/
inductive WorkerOutcome
  | started
  | skipped
  | failed
deriving DecidableEq

inductive SpawnOp
  | upgrade
  | answered (outcome : WorkerOutcome)
  | done

inductive TopicOp
  | user (op : UserOp)
  | answer (call : Nat) (ok : Bool)
  | new (op : NewOp)
  | spawn (who : Spawner) (op : SpawnOp)
  | bootstrapReported (ok : Bool)
  | bootstrapActorEnded
  | bootstrapTaskEnded
  | workerEnded (worker : Worker)
  | tokenCancelled

def Spawning.handles (work : Spawning) : Nat := if work.calling then 1 else 0

def NewStage.handles : NewStage → Nat
  | .bootstrapping => 1
  | .awaitingReceiver => 1
  | .awaitingJoined => 1
  | .spawning work => 1 + work.handles
  | .returned => 0
  | .failed => 0
  | .abandoned => 0

def StartupStage.handles : StartupStage → Nat
  | .spawning work => work.handles
  | _ => 0

/-- The channels a worker is built with. -/
def Worker.sides : Worker → List Side
  | .publisher => [.receiver]
  | .bubbleMerge => [.sender, .receiver]
  | .messageOverlapMerge => [.sender, .receiver]

namespace TopicState

def start : TopicState where
  new := .bootstrapping
  startup := .notSpawned
  topics := 0
  channels := [⟨.bootstrapActor, .sender, none⟩, ⟨.bootstrapActor, .receiver, none⟩]
  calls := []
  nextTopicRef := 0
  actorDropped := false
  cancelled := false

/-- The live allocations of an `Arc<Topic>`. -/
def topicRefs (s : TopicState) : Finset Nat :=
  (s.calls.map TopicCall.topicRef ++ s.channels.filterMap Channel.topicKeepAlive).toFinset

/-- The strong count of the `Arc<Handle<TopicActor>>`. -/
def handleCount (s : TopicState) : Nat :=
  s.topics + s.new.handles + s.startup.handles + s.topicRefs.card

def dropHeldBy (s : TopicState) (holder : Holder) : TopicState :=
  { s with channels := s.channels.filter fun channel => channel.holder ≠ holder }

/-- Clones of the channels stored in the bootstrap actor. -/
def cloneChannels (s : TopicState) (sides : List Side) (holder : Holder) : List Channel :=
  (s.channels.filter fun channel => channel.holder = .bootstrapActor ∧ channel.side ∈ sides).map
    fun channel => { channel with holder := holder }

def user (s : TopicState) : UserOp → Option TopicState
  | .cloneTopic => if 0 < s.topics then some { s with topics := s.topics + 1 } else none
  | .dropTopic => if 0 < s.topics then some { s with topics := s.topics - 1 } else none
  | .request side =>
      if 0 < s.topics then
        some { s with
          calls := s.calls ++ [⟨side, s.nextTopicRef, false⟩]
          nextTopicRef := s.nextTopicRef + 1 }
      else none
  | .abandon i => do
      let call ← s.calls[i]?
      some { s with calls := s.calls.set i { call with abandoned := true } }
  | .cloneChannel i => do
      let channel ← s.channels[i]?
      if channel.holder = .user then some { s with channels := s.channels ++ [channel] } else none
  | .dropChannel i => do
      let channel ← s.channels[i]?
      if channel.holder = .user then some { s with channels := s.channels.eraseIdx i } else none

/-- The topic actor answers a call; the clone it hands out keeps the topic alive. -/
def answer (s : TopicState) (i : Nat) (ok : Bool) : Option TopicState := do
  let call ← s.calls[i]?
  let handedOut : List Channel :=
    if ok ∧ ¬ call.abandoned then
      (s.cloneChannels [call.side] .user).map fun channel =>
        { channel with topicKeepAlive := some call.topicRef }
    else []
  some { s with calls := s.calls.eraseIdx i, channels := s.channels ++ handedOut }

def endNew (s : TopicState) (stage : NewStage) : TopicState :=
  { s.dropHeldBy .topicNew with new := stage }

def returnTopic (s : TopicState) : TopicState :=
  { s.endNew .returned with topics := s.topics + 1 }

/-- `spawn_workers` ends with an error, which cancels the token. -/
def spawnFailed (s : TopicState) : Spawner → TopicState
  | .topicNew => { s.endNew .failed with cancelled := true }
  | .startupTask => { s with startup := .failed, cancelled := true }

def setSpawning (s : TopicState) (work : Spawning) : Spawner → TopicState
  | .topicNew => { s with new := .spawning work }
  | .startupTask => { s with startup := .spawning work }

/-- The start of `spawn_workers`. -/
def beginSpawn (setup : Setup) (s : TopicState) (who : Spawner) : TopicState :=
  if s.cancelled then s.spawnFailed who else s.setSpawning ⟨setup.workers, false⟩ who

def newOp (setup : Setup) (s : TopicState) (op : NewOp) : Option TopicState :=
  match s.new, op with
  | .bootstrapping, .bootstrapped false => some (s.endNew .failed)
  | .bootstrapping, .bootstrapped true =>
      let s : TopicState := { s with
        startup := .waiting
        channels := s.channels ++ s.cloneChannels [.sender, .receiver] .bootstrapTask }
      some (if setup.asyncBootstrap then s.returnTopic else { s with new := .awaitingReceiver })
  | .awaitingReceiver, .gotReceiver false => some (s.endNew .failed)
  | .awaitingReceiver, .gotReceiver true =>
      some { s with
        new := .awaitingJoined
        channels := s.channels ++ s.cloneChannels [.receiver] .topicNew }
  | .awaitingJoined, .joined false => some (s.endNew .failed)
  | .awaitingJoined, .joined true => some ((s.dropHeldBy .topicNew).beginSpawn setup .topicNew)
  | .returned, .abandon => none
  | .failed, .abandon => none
  | .abandoned, .abandon => none
  | _, .abandon => some (s.endNew .abandoned)
  | _, _ => none

def spawning (s : TopicState) : Spawner → Option Spawning
  | .topicNew =>
      match s.new with
      | .spawning work => some work
      | _ => none
  | .startupTask =>
      match s.startup with
      | .spawning work => some work
      | _ => none

def spawnOp (s : TopicState) (who : Spawner) (op : SpawnOp) : Option TopicState := do
  let work ← s.spawning who
  match op, work with
  | .upgrade, ⟨worker :: rest, false⟩ =>
      if 0 < s.handleCount then some (s.setSpawning ⟨worker :: rest, true⟩ who)
      else some (s.spawnFailed who)
  | .answered .started, ⟨worker :: rest, true⟩ =>
      some ({ s with channels := s.channels ++ s.cloneChannels worker.sides (.worker worker)
        }.setSpawning ⟨rest, false⟩ who)
  | .answered .skipped, ⟨_ :: rest, true⟩ => some (s.setSpawning ⟨rest, false⟩ who)
  | .answered .failed, ⟨_ :: _, true⟩ => some (s.spawnFailed who)
  | .done, ⟨[], false⟩ =>
      match who with
      | .topicNew => some s.returnTopic
      | .startupTask => some { s with startup := .finished }
  | _, _ => none

/-- `wait_for_bootstrap` in the background task. -/
def bootstrapReported (setup : Setup) (s : TopicState) (ok : Bool) : Option TopicState :=
  match s.startup with
  | .waiting =>
      if ok then
        some (if setup.asyncBootstrap then s.beginSpawn setup .startupTask
          else { s with startup := .finished })
      else some { s with startup := .failed, cancelled := true }
  | _ => none

def effect (setup : Setup) (s : TopicState) : TopicOp → Option TopicState
  | .user op => s.user op
  | .answer i ok => s.answer i ok
  | .new op => s.newOp setup op
  | .spawn who op => s.spawnOp who op
  | .bootstrapReported ok => s.bootstrapReported setup ok
  | .bootstrapActorEnded =>
      if s.actorDropped = true then some (s.dropHeldBy .bootstrapActor) else none
  | .bootstrapTaskEnded => some (s.dropHeldBy .bootstrapTask)
  | .workerEnded worker => some (s.dropHeldBy (.worker worker))
  | .tokenCancelled => some { s with cancelled := true }

/-- `TopicActor::drop`. The bootstrap actor and the workers lose their handles with
it and end some time later. -/
def dropActor (s : TopicState) : TopicState :=
  { s with actorDropped := true, cancelled := true }

/-- The actor is dropped when the last handle is gone. -/
def release (s : TopicState) : TopicState :=
  if s.handleCount = 0 ∧ s.actorDropped = false then s.dropActor else s

def step (setup : Setup) (s : TopicState) (op : TopicOp) : Option TopicState :=
  (s.effect setup op).map release

end TopicState

/-- What can own something in the lifetime of a topic. -/
inductive Value
  | holder (holder : Holder)
  | startupTask
  | topicActor
  | channel (index : Nat)
  | call (index : Nat)
  | topicRef (allocation : Nat)
  | handle
deriving DecidableEq

/-- The ownership edges of a state. -/
inductive Owns (s : TopicState) : Value → Value → Prop
  | userTopic : 0 < s.topics → Owns s (.holder .user) .handle
  | newLocal : 0 < s.new.handles → Owns s (.holder .topicNew) .handle
  | newBootstrap : 0 < s.new.handles → Owns s (.holder .topicNew) (.holder .bootstrapActor)
  | startupUpgrade : 0 < s.startup.handles → Owns s .startupTask .handle
  | handleActor : s.actorDropped = false → Owns s .handle .topicActor
  | actorBootstrap : s.actorDropped = false → Owns s .topicActor (.holder .bootstrapActor)
  | actorWorker (worker : Worker) : s.actorDropped = false →
      Owns s .topicActor (.holder (.worker worker))
  | heldChannel (i : Nat) (channel : Channel) : s.channels[i]? = some channel →
      Owns s (.holder channel.holder) (.channel i)
  | keepAlive (i : Nat) (channel : Channel) (allocation : Nat) : s.channels[i]? = some channel →
      channel.topicKeepAlive = some allocation → Owns s (.channel i) (.topicRef allocation)
  | callTopic (i : Nat) (call : TopicCall) : s.calls[i]? = some call →
      Owns s (.call i) (.topicRef call.topicRef)
  | allocatedTopic (allocation : Nat) : allocation ∈ s.topicRefs →
      Owns s (.topicRef allocation) .handle

end TopicTracker.TopicOwnership
