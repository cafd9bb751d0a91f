import TopicTracker.BootstrapLoop
import TopicTracker.BroadcastChannel
import TopicTracker.StepMachine

/-!
The gossip receiver: the actor that handles gossip events and the values that read
its two channels, with `clone`, `next` and `joined` cut at the points where another
task can come in between. The arm of one event has no such point.
-/

namespace TopicTracker.GossipReceiver

open TopicTracker.RustValues
open TopicTracker.ThirdParty
open TopicTracker.StepMachine
open TopicTracker.BroadcastChannel
open TopicTracker.BootstrapLoop (EndpointId)

inductive Event (X : Externals)
  | received (content : List UInt8)
  | neighborUp (pubKey : EndpointId X)
  | neighborDown (pubKey : EndpointId X)
  | lagged
deriving DecidableEq

inductive ChannelError
  | closed
  | lagged (skipped : Nat)
deriving DecidableEq

def channelCapacity : Nat := 64

/-- The receiving ends of one `GossipReceiver` as positions in what was sent; `none`
is the end of a channel that `clone` made and whose only sender is dropped. -/
structure Channels where
  nextChannelReceiver : Option Nat
  joinChannelReceiver : Option Nat
deriving DecidableEq

inductive JoinedStage
  | asking
  | answered (isJoined : Bool)
  | waiting
deriving DecidableEq

/-- The call that borrows a receiver. A `joined` remembers how much had happened
when it began. -/
inductive Call
  | idle
  | next
  | joined (since : Nat) (stage : JoinedStage)
deriving DecidableEq

/-- How far `new` (the first two) or `clone` has come, with the receiving ends it has. -/
inductive Stage
  | constructed
  | droppedJoinTx
  | upgradingNext
  | subscribingNext
  | droppingNext (next : Nat)
  | upgradingJoin (next : Option Nat)
  | subscribingJoin (next : Option Nat)
  | droppingJoin (next : Option Nat) (join : Nat)
deriving DecidableEq

inductive Handle
  | building (origin : Option Nat) (stage : Stage)
  | live (channels : Channels) (call : Call)
  | dropped
deriving DecidableEq

inductive Action
  | sendNextNone
  | sendJoinNone
  | cancel
  | dropNextSender
  | dropJoinSender
deriving DecidableEq

/-- The ways the loop of the actor ends. -/
inductive StopCause
  | streamEnd
  | streamError
  | cancelled
  | handlesGone
deriving DecidableEq

def StopCause.actions : StopCause → List Action
  | .streamEnd => [.sendJoinNone, .sendNextNone, .cancel]
  | .streamError => [.sendNextNone, .sendJoinNone, .cancel]
  | .cancelled => [.sendJoinNone, .sendNextNone]
  | .handlesGone => []

/-- What is left to do after the loop: its last actions, then the drop of the actor. -/
def StopCause.todo (cause : StopCause) : List Action :=
  cause.actions ++ [.dropNextSender, .dropJoinSender]

inductive Phase
  | running
  | stopping (cause : StopCause) (todo : List Action)
deriving DecidableEq

/-- What has happened: events processed, calls returned, the actor dropped. -/
inductive Entry (X : Externals)
  | processed (event : Event X)
  | nextReturned (receiver : Nat) (result : Except ChannelError (Event X))
  | joinedReturned (receiver : Nat) (since : Nat) (result : Except ChannelError Unit)
  | actorDropped

structure State (X : Externals) where
  neighbors : Finset (EndpointId X)
  lastMessageHashes : List (Bytes 32)
  next : List (Option (Event X))
  join : List (Option Unit)
  cancelled : Bool
  phase : Phase
  handles : List Handle
  history : List (Entry X)

variable {X : Externals}

def Stage.holdsNextSender : Stage → Bool
  | .constructed | .droppedJoinTx | .subscribingNext | .droppingNext _ => true
  | _ => false

def Stage.holdsJoinSender : Stage → Bool
  | .constructed | .subscribingJoin _ | .droppingJoin _ _ => true
  | _ => false

def Handle.holdsNextSender : Handle → Bool
  | .building _ stage => stage.holdsNextSender
  | _ => false

def Handle.holdsJoinSender : Handle → Bool
  | .building _ stage => stage.holdsJoinSender
  | _ => false

/-- The actor drops a sender that it still has. -/
def Phase.holds (sender : Action) : Phase → Bool
  | .running => true
  | .stopping _ todo => todo.contains sender

namespace State

def start (neighbors : Finset (EndpointId X)) (cancelled : Bool) : State X where
  neighbors := neighbors
  lastMessageHashes := []
  next := []
  join := []
  cancelled := cancelled
  phase := .running
  handles := [.building none .constructed]
  history := []

def nextSenders (s : State X) : Nat :=
  (s.phase.holds .dropNextSender).toNat + s.handles.countP Handle.holdsNextSender

def joinSenders (s : State X) : Nat :=
  (s.phase.holds .dropJoinSender).toNat + s.handles.countP Handle.holdsJoinSender

def isJoined (s : State X) : Bool := decide s.neighbors.Nonempty

def borrowed (s : State X) (i : Nat) : Bool :=
  s.handles.any fun
    | .building origin _ => origin == some i
    | _ => false

end State

def pushMessageHash (lastMessageHashes : List (Bytes 32)) (hash : Bytes 32) :
    List (Bytes 32) :=
  (if lastMessageHashes.length = maxMessageHashes then lastMessageHashes.tail
    else lastMessageHashes) ++ [hash]

/-- The arm of one gossip event, with what iroh-gossip does to its neighbours. -/
def State.handleEvent (s : State X) (event : Event X) : State X :=
  let s := match event with
    | .received content =>
      { s with
        lastMessageHashes := pushMessageHash s.lastMessageHashes (X.sha512 content)
        join := s.join ++ [some ()] }
    | .neighborUp pubKey =>
      { s with neighbors := insert pubKey s.neighbors, join := s.join ++ [some ()] }
    | .neighborDown pubKey => { s with neighbors := s.neighbors.erase pubKey }
    | .lagged => s
  { s with next := s.next ++ [some event], history := s.history ++ [.processed event] }

/-- Which arm of the loop can break: that of the token once it is cancelled, that of the
requests once every handle is gone. -/
def State.canStop (s : State X) : StopCause → Bool
  | .streamEnd | .streamError => true
  | .cancelled => s.cancelled
  | .handlesGone => s.handles.all (· = .dropped)

def State.perform (s : State X) : Action → State X
  | .sendNextNone => { s with next := s.next ++ [none] }
  | .sendJoinNone => { s with join := s.join ++ [none] }
  | .cancel => { s with cancelled := true }
  | .dropNextSender => s
  | .dropJoinSender => { s with history := s.history ++ [.actorDropped] }

/-- The next step of `new` or `clone`. -/
def Stage.advance (s : State X) (origin : Option Nat) : Stage → Handle
  | .constructed => .building origin .droppedJoinTx
  | .droppedJoinTx => .live ⟨some 0, some 0⟩ .idle
  | .upgradingNext =>
    .building origin (if s.nextSenders = 0 then .upgradingJoin none else .subscribingNext)
  | .subscribingNext => .building origin (.droppingNext s.next.length)
  | .droppingNext next => .building origin (.upgradingJoin (some next))
  | .upgradingJoin next =>
    if s.joinSenders = 0 then .live ⟨next, none⟩ .idle
    else .building origin (.subscribingJoin next)
  | .subscribingJoin next => .building origin (.droppingJoin next s.join.length)
  | .droppingJoin next join => .live ⟨next, some join⟩ .idle

/-- One poll of `recv` on a receiving end. -/
def pollRecv {α : Type} (sent : List (Option α)) (senders : Nat) (position : Option Nat) :
    Received (Option α) × Option Nat :=
  match position with
  | some position =>
    ((recv channelCapacity sent senders position).1,
      some (recv channelCapacity sent senders position).2)
  | none => (.closed, none)

/-- The result of `next` and of the wait in `joined`; `none` while `recv` is pending. -/
def channelResult {α : Type} : Received (Option α) → Option (Except ChannelError α)
  | .value (some event) => some (.ok event)
  | .value none => some (.error .closed)
  | .lagged skipped => some (.error (.lagged skipped))
  | .closed => some (.error .closed)
  | .pending => none

theorem channelResult_eq_none_iff {α : Type} {received : Received (Option α)} :
    channelResult received = none ↔ received = .pending := by
  cases received with
  | value event => cases event <;> simp [channelResult]
  | _ => simp [channelResult]

def State.pollNext (s : State X) (channels : Channels) :
    Option (Except ChannelError (Event X)) × Channels :=
  let received := pollRecv s.next s.nextSenders channels.nextChannelReceiver
  (channelResult received.1, { channels with nextChannelReceiver := received.2 })

def State.pollJoin (s : State X) (channels : Channels) :
    Option (Except ChannelError Unit) × Channels :=
  let received := pollRecv s.join s.joinSenders channels.joinChannelReceiver
  (channelResult received.1, { channels with joinChannelReceiver := received.2 })

inductive HandleOp
  | build
  | next
  | joined
  | answer
  | refuse
  | resume
  | poll
  | abandon
  | drop
deriving DecidableEq

/-- What an operation on one receiver makes of it, and what it reports. The running
actor answers the question of a `joined`, a stopped one fails it. -/
def State.move (s : State X) (i : Nat) : Handle → HandleOp → Option (Handle × Option (Entry X))
  | .building origin stage, .build => some (stage.advance s origin, none)
  | .live channels .idle, .next =>
    if s.borrowed i then none else some (.live channels .next, none)
  | .live channels .idle, .joined =>
    if s.borrowed i then none
    else some (.live channels (.joined s.history.length .asking), none)
  | .live _ .idle, .drop => if s.borrowed i then none else some (.dropped, none)
  | .live channels .next, .poll =>
    (s.pollNext channels).1.map fun result =>
      (.live (s.pollNext channels).2 .idle, some (.nextReturned i result))
  | .live channels (.joined since .asking), .answer =>
    if s.phase = .running then
      some (.live channels (.joined since (.answered s.isJoined)), none)
    else none
  | .live channels (.joined since .asking), .refuse =>
    if s.phase = .running then none
    else some (.live channels .idle, some (.joinedReturned i since (.error .closed)))
  | .live channels (.joined since (.answered true)), .resume =>
    some (.live channels .idle, some (.joinedReturned i since (.ok ())))
  | .live channels (.joined since (.answered false)), .resume =>
    some (.live channels (.joined since .waiting), none)
  | .live channels (.joined since .waiting), .poll =>
    (s.pollJoin channels).1.map fun result =>
      (.live (s.pollJoin channels).2 .idle, some (.joinedReturned i since result))
  | .live channels .next, .abandon => some (.live channels .idle, none)
  | .live channels (.joined _ _), .abandon => some (.live channels .idle, none)
  | _, _ => none

inductive Op (X : Externals)
  | event (event : Event X)
  | query
  | stop (cause : StopCause)
  | act
  | cancelToken
  | clone (i : Nat)
  | handle (i : Nat) (op : HandleOp)

def step (s : State X) : Op X → Option (State X)
  | .event event => if s.phase = .running then some (s.handleEvent event) else none
  | .query => if s.phase = .running then some s else none
  | .stop cause =>
    if s.phase = .running ∧ s.canStop cause then
      some { s with phase := .stopping cause cause.todo }
    else none
  | .act =>
    match s.phase with
    | .stopping cause (action :: todo) =>
      some { s.perform action with phase := .stopping cause todo }
    | _ => none
  | .cancelToken => some { s with cancelled := true }
  | .clone i =>
    match s.handles[i]? with
    | some (.live _ .idle) =>
      some { s with handles := s.handles ++ [.building (some i) .upgradingNext] }
    | _ => none
  | .handle i op =>
    s.handles[i]?.bind fun handle => (s.move i handle op).map fun moved =>
      { s with handles := s.handles.set i moved.1, history := s.history ++ moved.2.toList }

def Reachable (s : State X) : Prop :=
  ∃ neighbors cancelled ops, run step (State.start neighbors cancelled) ops = some s

theorem pushMessageHash_of_lt {lastMessageHashes : List (Bytes 32)} {hash : Bytes 32}
    (h : lastMessageHashes.length < maxMessageHashes) :
    pushMessageHash lastMessageHashes hash = lastMessageHashes ++ [hash] := by
  rw [pushMessageHash, if_neg (Nat.ne_of_lt h)]

/-- What an operation makes of the window: messages received enter it, and nothing else. -/
def windowAfter (lastMessageHashes : List (Bytes 32)) : Op X → List (Bytes 32)
  | .event (.received content) => pushMessageHash lastMessageHashes (X.sha512 content)
  | _ => lastMessageHashes

theorem lastMessageHashes_of_step {s t : State X} {op : Op X} (h : step s op = some t) :
    t.lastMessageHashes = windowAfter s.lastMessageHashes op := by
  cases op with
  | event event =>
      obtain ⟨-, hstate⟩ := Option.ite_none_right_eq_some.mp h
      obtain rfl := Option.some.inj hstate
      cases event <;> rfl
  | query =>
      obtain ⟨-, hstate⟩ := Option.ite_none_right_eq_some.mp h
      exact Option.some.inj hstate ▸ rfl
  | stop cause =>
      obtain ⟨-, hstate⟩ := Option.ite_none_right_eq_some.mp h
      exact Option.some.inj hstate ▸ rfl
  | act =>
      simp only [step] at h
      split at h
      · rename_i cause action todo hphase
        obtain rfl := Option.some.inj h
        cases action <;> rfl
      · cases h
  | cancelToken => exact Option.some.inj h ▸ rfl
  | clone i =>
      simp only [step] at h
      split at h
      · exact Option.some.inj h ▸ rfl
      · cases h
  | handle i op =>
      obtain ⟨handle, hget, hmoved⟩ := Option.bind_eq_some_iff.mp h
      obtain ⟨moved, hmove, rfl⟩ := Option.map_eq_some_iff.mp hmoved
      rfl

/-- Everything an operation on one receiver can do. -/
inductive Moves (s : State X) (i : Nat) : Handle → HandleOp → Handle → Option (Entry X) → Prop
  | build (origin stage) :
    Moves s i (.building origin stage) .build (stage.advance s origin) none
  | next (channels) : Moves s i (.live channels .idle) .next (.live channels .next) none
  | joined (channels) :
    Moves s i (.live channels .idle) .joined
      (.live channels (.joined s.history.length .asking)) none
  | drop (channels) : Moves s i (.live channels .idle) .drop .dropped none
  | nextReturns (channels result) (hresult : (s.pollNext channels).1 = some result) :
    Moves s i (.live channels .next) .poll (.live (s.pollNext channels).2 .idle)
      (some (.nextReturned i result))
  | answer (channels since) (hrunning : s.phase = .running) :
    Moves s i (.live channels (.joined since .asking)) .answer
      (.live channels (.joined since (.answered s.isJoined))) none
  | refuse (channels since) (hstopped : s.phase ≠ .running) :
    Moves s i (.live channels (.joined since .asking)) .refuse (.live channels .idle)
      (some (.joinedReturned i since (.error .closed)))
  | isJoined (channels since) :
    Moves s i (.live channels (.joined since (.answered true))) .resume (.live channels .idle)
      (some (.joinedReturned i since (.ok ())))
  | wait (channels since) :
    Moves s i (.live channels (.joined since (.answered false))) .resume
      (.live channels (.joined since .waiting)) none
  | joinReturns (channels since result) (hresult : (s.pollJoin channels).1 = some result) :
    Moves s i (.live channels (.joined since .waiting)) .poll
      (.live (s.pollJoin channels).2 .idle) (some (.joinedReturned i since result))
  | abandon (channels call) : Moves s i (.live channels call) .abandon (.live channels .idle) none

theorem moves_of_move {s : State X} {i : Nat} {handle : Handle} {op : HandleOp}
    {moved : Handle × Option (Entry X)} (h : s.move i handle op = some moved) :
    Moves s i handle op moved.1 moved.2 := by
  unfold State.move at h
  split at h
  · exact Option.some.inj h ▸ .build _ _
  · obtain ⟨-, hmoved⟩ := Option.ite_none_left_eq_some.mp h
    exact Option.some.inj hmoved ▸ .next _
  · obtain ⟨-, hmoved⟩ := Option.ite_none_left_eq_some.mp h
    exact Option.some.inj hmoved ▸ .joined _
  · obtain ⟨-, hmoved⟩ := Option.ite_none_left_eq_some.mp h
    exact Option.some.inj hmoved ▸ .drop _
  · obtain ⟨result, hresult, rfl⟩ := Option.map_eq_some_iff.mp h
    exact .nextReturns _ _ hresult
  · obtain ⟨hrunning, hmoved⟩ := Option.ite_none_right_eq_some.mp h
    exact Option.some.inj hmoved ▸ .answer _ _ hrunning
  · obtain ⟨hstopped, hmoved⟩ := Option.ite_none_left_eq_some.mp h
    exact Option.some.inj hmoved ▸ .refuse _ _ hstopped
  · exact Option.some.inj h ▸ .isJoined _ _
  · exact Option.some.inj h ▸ .wait _ _
  · obtain ⟨result, hresult, rfl⟩ := Option.map_eq_some_iff.mp h
    exact .joinReturns _ _ _ hresult
  · exact Option.some.inj h ▸ .abandon _ _
  · exact Option.some.inj h ▸ .abandon _ _
  · cases h

/-- Everything a step can do. -/
inductive Steps (s : State X) : State X → Prop
  | event (event) (hrunning : s.phase = .running) : Steps s (s.handleEvent event)
  | query : Steps s s
  | stop (cause) (hrunning : s.phase = .running) (hcause : s.canStop cause = true) :
    Steps s { s with phase := .stopping cause cause.todo }
  | act (cause action todo) (hphase : s.phase = .stopping cause (action :: todo)) :
    Steps s { s.perform action with phase := .stopping cause todo }
  | cancelToken : Steps s { s with cancelled := true }
  | clone (i channels) (hget : s.handles[i]? = some (.live channels .idle)) :
    Steps s { s with handles := s.handles ++ [.building (some i) .upgradingNext] }
  | handle (i op handle handle' entry) (hget : s.handles[i]? = some handle)
      (hmove : Moves s i handle op handle' entry) :
    Steps s { s with handles := s.handles.set i handle', history := s.history ++ entry.toList }

theorem steps_of_step {s t : State X} {op : Op X} (h : step s op = some t) : Steps s t := by
  cases op with
  | event event =>
      obtain ⟨hrunning, hstate⟩ := Option.ite_none_right_eq_some.mp h
      exact Option.some.inj hstate ▸ .event event hrunning
  | query =>
      obtain ⟨-, hstate⟩ := Option.ite_none_right_eq_some.mp h
      exact Option.some.inj hstate ▸ .query
  | stop cause =>
      obtain ⟨⟨hrunning, hcause⟩, hstate⟩ := Option.ite_none_right_eq_some.mp h
      exact Option.some.inj hstate ▸ .stop cause hrunning hcause
  | act =>
      simp only [step] at h
      split at h
      · rename_i cause action todo hphase
        exact Option.some.inj h ▸ .act cause action todo hphase
      · cases h
  | cancelToken => exact Option.some.inj h ▸ .cancelToken
  | clone i =>
      simp only [step] at h
      split at h
      · rename_i channels hget
        exact Option.some.inj h ▸ .clone i channels hget
      · cases h
  | handle i op =>
      obtain ⟨handle, hget, hmoved⟩ := Option.bind_eq_some_iff.mp h
      obtain ⟨moved, hmove, rfl⟩ := Option.map_eq_some_iff.mp hmoved
      exact .handle i op handle moved.1 moved.2 hget (moves_of_move hmove)

theorem step_handle {s : State X} {i : Nat} {op : HandleOp} {handle : Handle}
    {moved : Handle × Option (Entry X)} (hget : s.handles[i]? = some handle)
    (hmove : s.move i handle op = some moved) :
    step s (.handle i op) = some { s with
      handles := s.handles.set i moved.1, history := s.history ++ moved.2.toList } := by
  rw [step, hget, Option.bind_some, hmove, Option.map_some]

theorem Steps.getElem? {s t : State X} (h : Steps s t) {i : Nat} {handle : Handle}
    (hget : s.handles[i]? = some handle) : ∃ handle', t.handles[i]? = some handle' ∧
      (handle' = handle ∨ ∃ op entry, Moves s i handle op handle' entry) := by
  have hlt : i < s.handles.length := (List.getElem?_eq_some_iff.mp hget).1
  cases h with
  | event event hrunning =>
      refine ⟨handle, ?_, .inl rfl⟩
      cases event <;> exact hget
  | query => exact ⟨handle, hget, .inl rfl⟩
  | stop cause hrunning hcause => exact ⟨handle, hget, .inl rfl⟩
  | act cause action todo hphase =>
      refine ⟨handle, ?_, .inl rfl⟩
      cases action <;> exact hget
  | cancelToken => exact ⟨handle, hget, .inl rfl⟩
  | clone j channels horigin =>
      refine ⟨handle, ?_, .inl rfl⟩
      show (s.handles ++ _)[i]? = some handle
      rw [List.getElem?_append_left hlt, hget]
  | handle j op moved moved' entry hmoved hmove =>
      by_cases hij : j = i
      · subst hij
        obtain rfl : moved = handle := Option.some.inj (hmoved.symm.trans hget)
        exact ⟨moved', List.getElem?_set_self hlt, .inr ⟨op, entry, hmove⟩⟩
      · refine ⟨handle, ?_, .inl rfl⟩
        show (s.handles.set j moved')[i]? = some handle
        rw [List.getElem?_set_ne hij, hget]

def Reported (s t : State X) : Option (Entry X) → Prop
  | some (.nextReturned i result) => ∃ channels,
      s.handles[i]? = some (.live channels .next) ∧ (s.pollNext channels).1 = some result ∧
        t.handles[i]? = some (.live (s.pollNext channels).2 .idle)
  | some (.joinedReturned i since result) => ∃ channels stage,
      s.handles[i]? = some (.live channels (.joined since stage)) ∧
        (stage = .asking → result = .error .closed)
  | some .actorDropped => t.phase ≠ .running
  | _ => True

theorem Steps.reported {s t : State X} (h : Steps s t) : ∃ entry : Option (Entry X),
    t.history = s.history ++ entry.toList ∧ Reported s t entry := by
  cases h with
  | event event hrunning =>
      refine ⟨some (.processed event), ?_, trivial⟩
      cases event <;> rfl
  | act cause action todo hphase =>
      cases action with
      | dropJoinSender => exact ⟨some .actorDropped, rfl, fun hrunning => by cases hrunning⟩
      | _ => exact ⟨none, (List.append_nil _).symm, trivial⟩
  | handle i op moved moved' entry hget hmove =>
      refine ⟨entry, rfl, ?_⟩
      have hlt : i < s.handles.length := (List.getElem?_eq_some_iff.mp hget).1
      cases hmove with
      | nextReturns channels result hresult =>
          exact ⟨channels, hget, hresult, List.getElem?_set_self hlt⟩
      | refuse channels since hstopped => exact ⟨channels, .asking, hget, fun _ => rfl⟩
      | isJoined channels since =>
          exact ⟨channels, .answered true, hget, fun hstage => by cases hstage⟩
      | joinReturns channels since result hresult =>
          exact ⟨channels, .waiting, hget, fun hstage => by cases hstage⟩
      | _ => trivial
  | _ => exact ⟨none, (List.append_nil _).symm, trivial⟩

theorem Steps.running {s t : State X} (h : Steps s t) (ht : t.phase = .running) :
    s.phase = .running := by
  cases h with
  | event event hrunning => exact hrunning
  | query => exact ht
  | stop cause hrunning hcause => exact hrunning
  | act cause action todo hphase => cases ht
  | cancelToken => exact ht
  | clone i channels hget => exact ht
  | handle i op moved moved' entry hget hmove => exact ht

theorem State.nextSenders_ne_zero {s : State X} (h : s.phase = .running) :
    s.nextSenders ≠ 0 := by
  rw [State.nextSenders, h]
  exact Nat.ne_of_gt (Nat.lt_add_right _ Nat.one_pos)

theorem State.joinSenders_ne_zero {s : State X} (h : s.phase = .running) :
    s.joinSenders ≠ 0 := by
  rw [State.joinSenders, h]
  exact Nat.ne_of_gt (Nat.lt_add_right _ Nat.one_pos)

theorem Reachable.run {s t : State X} {ops : List (Op X)} (h : Reachable s)
    (hrun : run step s ops = some t) : Reachable t := by
  rcases h with ⟨neighbors, cancelled, before, hbefore⟩
  refine ⟨neighbors, cancelled, before ++ ops, ?_⟩
  rw [run_append, hbefore, Option.bind_some, hrun]

theorem Reachable.induction {P : State X → Prop}
    (hstart : ∀ neighbors cancelled, P (State.start neighbors cancelled))
    (hstep : ∀ s t, Reachable s → Steps s t → P s → P t) {s : State X} (h : Reachable s) :
    P s := by
  rcases h with ⟨neighbors, cancelled, ops, hrun⟩
  have hkeeps : ∀ s op t, step s op = some t → Reachable s ∧ P s → Reachable t ∧ P t := by
    rintro s op t ht ⟨hreachable, hs⟩
    have hone : StepMachine.run step s [op] = some t :=
      run_cons_eq_some_iff.mpr ⟨t, ht, rfl⟩
    exact ⟨hreachable.run hone, hstep s t hreachable (steps_of_step ht) hs⟩
  have hstarted : Reachable (State.start neighbors cancelled) :=
    ⟨neighbors, cancelled, [], rfl⟩
  exact (run_preserves hkeeps hrun ⟨hstarted, hstart neighbors cancelled⟩).2

/-- A property of every receiver is kept when what happens to the others cannot
break it, a clone begins with it and an operation on a receiver keeps its own. -/
theorem Steps.forall_handles {P Q : Handle → Prop} {s t : State X} (h : Steps s t)
    (hframe : ∀ handle, P handle → Q handle)
    (hclone : ∀ i, Q (.building (some i) .upgradingNext))
    (hmove : ∀ {i op handle handle' entry}, Moves s i handle op handle' entry →
      P handle → P handle')
    (hs : ∀ handle ∈ s.handles, P handle) : ∀ handle ∈ t.handles, Q handle := by
  have hold : ∀ handle ∈ s.handles, Q handle :=
    fun handle hhandle => hframe handle (hs handle hhandle)
  cases h with
  | event event hrunning => cases event <;> exact hold
  | query => exact hold
  | stop cause hrunning hcause => exact hold
  | act cause action todo hphase => cases action <;> exact hold
  | cancelToken => exact hold
  | clone i channels hget =>
      intro handle hhandle
      rcases List.mem_append.mp hhandle with hmem | hnew
      · exact hold handle hmem
      · obtain rfl := List.mem_singleton.mp hnew
        exact hclone i
  | handle i op moved moved' entry hget hmoved =>
      intro handle hhandle
      rcases List.mem_or_eq_of_mem_set hhandle with hmem | rfl
      · exact hold handle hmem
      · exact hframe handle (hmove hmoved (hs moved (List.mem_of_getElem? hget)))

theorem Reachable.forall_handles {P : State X → Handle → Prop}
    (hstart : ∀ s, P s (.building none .constructed))
    (hframe : ∀ {s t handle}, Steps s t → P s handle → P t handle)
    (hclone : ∀ s i, P s (.building (some i) .upgradingNext))
    (hmove : ∀ {s i op handle handle' entry}, Moves s i handle op handle' entry →
      P s handle → P s handle')
    {s : State X} (h : Reachable s) : ∀ handle ∈ s.handles, P s handle := by
  apply h.induction (P := fun s => ∀ handle ∈ s.handles, P s handle)
  · intro neighbors cancelled handle hhandle
    obtain rfl := List.mem_singleton.mp hhandle
    exact hstart _
  · intro s t _ hstep hs
    exact hstep.forall_handles (fun handle => hframe hstep) (hclone t) hmove hs

end TopicTracker.GossipReceiver
