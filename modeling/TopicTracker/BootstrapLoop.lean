import TopicTracker.RecordPublishing
import Mathlib.Data.Finset.Union

/-!
The bootstrap task spawned by `start_bootstrap`, as a machine that stops at every
await and every read of its environment and continues with the answer.
-/

namespace TopicTracker.BootstrapLoop

open TopicTracker.Configuration
open TopicTracker.RustValues
open TopicTracker.ThirdParty
open TopicTracker.ReferenceExternals (reference)
open TopicTracker.TopicKeys
open TopicTracker.RecordCodec
open TopicTracker.RecordRetrieval
open TopicTracker.RecordPublishing

structure EndpointId (X : Externals) where
  bytes : Bytes 32
  valid : X.isEndpointId bytes = true
deriving DecidableEq

variable {X : Externals}

def EndpointId.fromBytes (X : Externals) (bytes : Bytes 32) : Option (EndpointId X) :=
  if h : X.isEndpointId bytes = true then some ⟨bytes, h⟩ else none

def sampleEndpoint (seed : UInt8) : EndpointId reference := ⟨List.Vector.replicate 32 seed, rfl⟩

/-- The keys one record contributes: its publisher and its active peers. -/
def candidateKeys (rp : RecordPublisher X) (record : Record) : List (Bytes 32) :=
  match record.content.decodeTo X.gossipContent with
  | .ok content => record.pubKey :: content.activePeers.toList.filter fun peer =>
      peer ≠ zeroBytes 32 ∧ peer ≠ rp.pubKey
  | .error _ => [record.pubKey]

def bootstrapNodes (rp : RecordPublisher X) (records : Finset Record) :
    Finset (EndpointId X) :=
  records.biUnion fun record =>
    ((candidateKeys rp record).filterMap (EndpointId.fromBytes X)).toFinset

/-- `Result::unwrap_or_default` on the outcome of `get_records`. -/
def unwrapOrDefault : Result (Finset Record) → Finset Record
  | .ok records => records
  | .error _ => ∅

/-- The locals of one iteration that are fixed once the clock is read. -/
structure Window where
  currentUnixMinute : UInt64
  unixMinuteOffset : UInt64
  useCachedNext : Bool
deriving DecidableEq

namespace Window

def older (w : Window) : UInt64 := saturatingSub w.currentUnixMinute (w.unixMinuteOffset + 1)

def newer (w : Window) : UInt64 := saturatingSub w.currentUnixMinute w.unixMinuteOffset

/-- The window of an iteration; an unpublished minute 0 marks the first run. -/
def select (cfg : BootstrapConfig) (lastPublishedUnixMinute currentUnixMinute : UInt64) :
    Window :=
  if lastPublishedUnixMinute = 0 ∧ cfg.checkOlderRecordsFirstOnStartup = true then
    ⟨currentUnixMinute, 1, false⟩
  else ⟨currentUnixMinute, 0, true⟩

end Window

/-- Where the task stands, with the locals still in use there. -/
inductive Point (X : Externals)
  | loopHead
  | headCheck
  | clock
  | fetchOlder (w : Window)
  | fetchNewer (w : Window) (older : Finset Record)
  | noPeersWait (w : Window)
  | preJoinCheck (w : Window) (current : Finset Record) (nodes : Finset (EndpointId X))
  | startJoining (w : Window) (current : Finset Record) (nodes : Finset (EndpointId X))
  | joining (w : Window) (current : Finset Record) (peer : EndpointId X)
      (rest : List (EndpointId X))
  | settling (w : Window) (current : Finset Record) (rest : List (EndpointId X))
  | settleCheck (w : Window) (current : Finset Record) (rest : List (EndpointId X))
  | confirmCheck (w : Window) (current : Finset Record)
  | confirmWait (w : Window) (current : Finset Record)
  | finalCheck (w : Window) (current : Finset Record)
  | pollWait (w : Window)
  | exited
deriving DecidableEq

/-- Which branch of a `tokio::select!` with a sleep ends a wait. -/
inductive Wake
  | slept
  | joined
  | cancelled
deriving DecidableEq

/-- What the task is told at the point where it stands. `visit` is the order in
which the hash set of bootstrap nodes is iterated. -/
inductive Input (X : Externals)
  | tokenCancelled (cancelled : Bool)
  | isJoined (answer : Result Bool)
  | minute (unixMinute : UInt64)
  | records (answer : Awaited (List MutableItem))
  | visit (order : List (EndpointId X))
  | joinPeers (result : Result Unit)
  | woke (wake : Wake)
deriving DecidableEq

inductive CheckSite
  | head
  | preJoin
  | settle
  | confirm
  | final
deriving DecidableEq

/-- Who called `get_records`: an iteration, for its older or its newer slot, or a
publish. -/
inductive Reader
  | older (iteration : Nat)
  | newer (iteration : Nat)
  | publish (id : Nat)
deriving DecidableEq

/-- What an observer of the bootstrap process sees. A publish is initiated by an
iteration, or by the startup code when there is none. -/
inductive Event (X : Externals)
  | clock (unixMinute : UInt64)
  | checked (site : CheckSite) (answer : Result Bool)
  | read (reader : Reader) (unixMinute : UInt64) (result : Result (Finset Record))
  | initiated (iteration : Option Nat) (record : Record) (cached : Option (Finset Record))
  | joinRequested (peers : List (EndpointId X))
  | joinCompleted (result : Result Unit)
  | put (id : Nat) (put : DhtPut)
  | signalled (result : Result Unit)
deriving DecidableEq

/-- The state of the task. The iteration count is not in the source; it only
names the iterations in the observed events. -/
structure Loop (X : Externals) where
  point : Point X
  lastPublishedUnixMinute : UInt64
  isJoinedRet : Bool
  iteration : Nat

namespace Loop

variable (cfg : BootstrapConfig) (rp : RecordPublisher X)

def goto (l : Loop X) (point : Point X) : Loop X := { l with point := point }

/-- Leaving the loop sends the outcome over the oneshot channel. -/
def exit (l : Loop X) : Loop X × List (Event X) :=
  (l.goto .exited, [.signalled (if l.isJoinedRet then .ok ()
    else .error (.bail "Bootstrap process failed or was cancelled"))])

/-- A membership check that leaves the loop unless the node is not joined yet. -/
def checkOrExit (l : Loop X) (site : CheckSite) (answer : Result Bool) (next : Point X) :
    Loop X × List (Event X) :=
  match answer with
  | .ok false => (l.goto next, [.checked site answer])
  | .ok true =>
      let (l, events) := exit { l with isJoinedRet := true }
      (l, .checked site answer :: events)
  | .error _ =>
      let (l, events) := exit l
      (l, .checked site answer :: events)

def wakeOrExit (l : Loop X) (wake : Wake) (next : Point X) : Loop X × List (Event X) :=
  match wake with
  | .cancelled => exit l
  | _ => (l.goto next, [])

def initiate (iteration : Option Nat) (unixMinute : UInt64)
    (cached : Option (Finset Record)) : List (Event X) :=
  match Record.sign X X.gossipContent rp.topicId.hash unixMinute emptyContent
      rp.signingKey with
  | .ok record => [.initiated iteration record cached]
  | .error _ => []

/-- Initiate a publish unless the current minute was already published. -/
def publishIfDue (l : Loop X) (w : Window) (current : Finset Record) :
    Loop X × List (Event X) :=
  if w.currentUnixMinute ≠ l.lastPublishedUnixMinute then
    ({ l with lastPublishedUnixMinute := w.currentUnixMinute },
      initiate rp (some l.iteration) w.currentUnixMinute
        (if w.useCachedNext then some current else none))
  else (l, [])

/-- Ask for the next peer of the `for` loop, or leave it when none is left. -/
def nextPeer (l : Loop X) (w : Window) (current : Finset Record) :
    List (EndpointId X) → Loop X × List (Event X)
  | [] => (l.goto (.confirmCheck w current), [])
  | peer :: rest => (l.goto (.joining w current peer rest), [.joinRequested [peer]])

/-- The end of the fetch: the no-records branch or the collected candidates. -/
def fetched (l : Loop X) (w : Window) (older current : Finset Record) :
    Loop X × List (Event X) :=
  if older ∪ current = ∅ then
    let (l, events) := publishIfDue rp l w current
    (l.goto (.noPeersWait w), events)
  else (l.goto (.preJoinCheck w current (bootstrapNodes rp (older ∪ current))), [])

def finalChecked (l : Loop X) (w : Window) (current : Finset Record) (answer : Result Bool) :
    Loop X × List (Event X) :=
  match answer with
  | .ok false =>
      let (l, events) := publishIfDue rp l w current
      (l.goto (.pollWait w), .checked .final answer :: events)
  | _ => checkOrExit l .final answer (.pollWait w)

def step (l : Loop X) (input : Input X) : Option (Loop X × List (Event X)) :=
  match l.point, input with
  | .loopHead, .tokenCancelled true => some (exit l)
  | .loopHead, .tokenCancelled false => some (l.goto .headCheck, [])
  | .headCheck, .isJoined answer => some (checkOrExit l .head answer .clock)
  | .clock, .minute unixMinute =>
      let w := Window.select cfg l.lastPublishedUnixMinute unixMinute
      some ({ l with point := .fetchOlder w, iteration := l.iteration + 1 },
        [.clock unixMinute])
  | .fetchOlder w, .records answer =>
      let result := rp.getRecords w.older answer
      some (l.goto (.fetchNewer w (unwrapOrDefault result)),
        [.read (.older l.iteration) w.older result])
  | .fetchNewer w older, .records answer =>
      let result := rp.getRecords w.newer answer
      let (l', events) := fetched rp l w older (unwrapOrDefault result)
      some (l', .read (.newer l.iteration) w.newer result :: events)
  | .noPeersWait _, .woke wake => some (wakeOrExit l wake .loopHead)
  | .preJoinCheck w current nodes, .isJoined answer =>
      some (checkOrExit l .preJoin answer (.startJoining w current nodes))
  | .startJoining w current nodes, .visit order =>
      if order.Nodup ∧ order.toFinset = nodes then some (nextPeer l w current order) else none
  | .joining w current _ rest, .joinPeers result =>
      match result with
      | .ok () => some (l.goto (.settling w current rest), [.joinCompleted result])
      | .error _ =>
          let (l, events) := nextPeer l w current rest
          some (l, .joinCompleted result :: events)
  | .settling w current rest, .woke wake =>
      some (wakeOrExit l wake (.settleCheck w current rest))
  | .settleCheck w current rest, .isJoined answer =>
      match answer with
      | .ok false =>
          let (l, events) := nextPeer l w current rest
          some (l, .checked .settle answer :: events)
      | .ok true =>
          some ({ l with point := .confirmCheck w current, isJoinedRet := true },
            [.checked .settle answer])
      | .error _ => some (l.goto (.confirmCheck w current), [.checked .settle answer])
  | .confirmCheck w current, .isJoined answer =>
      match answer with
      | .ok true => some (l.goto (.finalCheck w current), [.checked .confirm answer])
      | _ => some (checkOrExit l .confirm answer (.confirmWait w current))
  | .confirmWait w current, .woke wake => some (wakeOrExit l wake (.finalCheck w current))
  | .finalCheck w current, .isJoined answer => some (finalChecked rp l w current answer)
  | .pollWait _, .woke wake => some (wakeOrExit l wake .loopHead)
  | _, _ => none

end Loop

end TopicTracker.BootstrapLoop
