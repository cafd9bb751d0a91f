import TopicTracker.DhtRetries

namespace TopicTracker.DhtClient

open TopicTracker.RustValues
open TopicTracker.RustDuration
open TopicTracker.JitteredIntervals
open TopicTracker.RecordRetrieval
open TopicTracker.RecordPublishing
open TopicTracker.DhtRetries

inductive Request
  | get (address : SlotAddress) (moreRecentThan : Option Int)
  | putMutable (put : DhtPut)
deriving DecidableEq

/-- A call and what it meets. A `get` that times out has no items. -/
inductive Call
  | get (address : SlotAddress) (moreRecentThan : Option Int) (reset : Result Unit)
      (items : Option (List MutableItem))
  | putMutable (put : DhtPut) (env : Environment)

def Call.request : Call → Request
  | .get address moreRecentThan _ _ => .get address moreRecentThan
  | .putMutable put _ => .putMutable put

/-- What the actor does to the outside in a call of either kind. -/
inductive ActorEvent
  | dht (event : Event)
  | fetched (address : SlotAddress) (moreRecentThan : Option Int)
      (items : Option (List MutableItem))
deriving DecidableEq

def built : ActorEvent := .dht (.reset (.ok ()))

def ActorEvent.UsesClient : ActorEvent → Prop
  | .dht (.attempted _ _) => True
  | .fetched _ _ _ => True
  | _ => False

structure Fetch where
  dht : Option Unit
  events : List ActorEvent
  result : Result (List MutableItem)

/-- `DhtActor::get` after its reset. -/
def fetch (address : SlotAddress) (moreRecentThan : Option Int)
    (items : Option (List MutableItem)) : Option Unit → Fetch
  | none => ⟨none, [], .error (.bail "DHT not initialized")⟩
  | some client =>
      ⟨some client, [.fetched address moreRecentThan items],
        match items with
        | some items => .ok items
        | none => .error (.bail "DHT get operation timed out")⟩

/-- `DhtActor::get`. -/
def get (address : SlotAddress) (moreRecentThan : Option Int) (resetResult : Result Unit)
    (items : Option (List MutableItem)) (dht : Option Unit) : Fetch :=
  match dht with
  | some client => fetch address moreRecentThan items (some client)
  | none =>
    match resetResult with
    | .error fault => ⟨none, [.dht (.reset (.error fault))], .error fault⟩
    | .ok () =>
      let rest := fetch address moreRecentThan items (reset none resetResult)
      { rest with events := .dht (.reset (.ok ())) :: rest.events }

/-- A request with all that its call did and gave back. -/
inductive Answer
  | get (address : SlotAddress) (moreRecentThan : Option Int) (fetch : Fetch)
  | putMutable (put : DhtPut) (outcome : Outcome)

namespace Answer

def request : Answer → Request
  | .get address moreRecentThan _ => .get address moreRecentThan
  | .putMutable put _ => .putMutable put

def dht : Answer → Option Unit
  | .get _ _ fetch => fetch.dht
  | .putMutable _ outcome => outcome.dht

def events : Answer → List ActorEvent
  | .get _ _ fetch => fetch.events
  | .putMutable _ outcome => outcome.events.map .dht

end Answer

/-- What the caller of a handle gets to know of a fault: `actor_helper` catches a panic of the
call and answers with an error that tells of it. -/
def caught (panicError : String → String) : Fault → Fault
  | .panic text => .bail (panicError text)
  | .bail text => .bail text

def Answer.caught (panicError : String → String) : Answer → Answer
  | .get address moreRecentThan fetch =>
      .get address moreRecentThan
        { fetch with result := fetch.result.mapError (DhtClient.caught panicError) }
  | .putMutable put outcome =>
      .putMutable put
        { outcome with result := outcome.result.mapError (DhtClient.caught panicError) }

structure Actor where
  dht : Option Unit
  answers : List Answer

variable {w : Nat} (config : DhtConfig w) (panicError : String → String)

/-- The actor that `Dht::new` spawns. -/
def Actor.new : Actor := ⟨none, []⟩

/-- How a call ends in the actor. -/
def answerCall (dht : Option Unit) : Call → Answer
  | .get address moreRecentThan reset items =>
      .get address moreRecentThan (get address moreRecentThan reset items dht)
  | .putMutable put env => .putMutable put (putMutable config put env dht)

/-- A panic leaves the actor with what its call has made of it. -/
def Actor.step (s : Actor) (call : Call) : Actor :=
  let answer := answerCall config s.dht call
  ⟨answer.dht, s.answers ++ [answer.caught panicError]⟩

def Actor.serve (calls : List Call) (s : Actor) : Actor :=
  calls.foldl (Actor.step config panicError) s

def Actor.events (s : Actor) : List ActorEvent := s.answers.flatMap Answer.events

/-- What a call ends with is what it has done: the items are those that came in time, a put is
`Ok` when an attempt was stored, and a fault has its reason. -/
def Answer.Explained : Answer → Prop
  | .get address moreRecentThan fetch =>
      (∀ items, fetch.result = .ok items ↔
        .fetched address moreRecentThan (some items) ∈ fetch.events) ∧
      ∀ fault, fetch.result = .error fault →
        (fault = .bail "DHT get operation timed out" ∧
          .fetched address moreRecentThan none ∈ fetch.events) ∨
        .dht (.reset (.error fault)) ∈ fetch.events
  | .putMutable put outcome =>
      (.attempted put .stored ∈ outcome.events → outcome.result = .ok ()) ∧
      (outcome.result = .ok () →
        .attempted put .stored ∈ outcome.events ∨ config.retries = BitVec.allOnes w) ∧
      (∀ fault, outcome.result = .error fault →
        fault = .bail "failed to publish record" ∨
          fault = .panic "overflow when adding durations" ∨
          .reset (.error fault) ∈ outcome.events) ∧
      (∀ other attempt, .attempted other attempt ∈ outcome.events → other = put) ∧
      (outcomes outcome.events).length ≤ (1 + config.retries).toNat

variable {config} {put : DhtPut} {env : Environment}

/-- What `n` attempts do from a client on, when there is one at least. -/
structure LoopSound (put : DhtPut) (n : Nat) (outcome : Outcome) : Prop where
  kept : outcome.dht = some ()
  stored : outcome.result = .ok () ↔ .attempted put .stored ∈ outcome.events
  failed : ∀ fault, outcome.result = .error fault →
    fault = .bail "failed to publish record" ∨ fault = .panic "overflow when adding durations" ∨
      .reset (.error fault) ∈ outcome.events
  own : ∀ other attempt, .attempted other attempt ∈ outcome.events → other = put
  bounded : (outcomes outcome.events).length ≤ n

theorem eq_panic_of_dhtRetryInterval {retryInterval : IntervalConfig} {draw : BitVec 128}
    {fault : Fault} (h : dhtRetryInterval retryInterval draw = .error fault) :
    fault = .panic "overflow when adding durations" := by
  rcases jitteredInterval_cases retryInterval.baseInterval retryInterval.maxJitter draw with
    ⟨next, hnext, -⟩ | ⟨-, hpanics⟩
  · cases h.symm.trans hnext
  · exact Except.error.inj (h.symm.trans hpanics)

theorem LoopSound.of_retry {n : Nat} {outcome : Outcome} {attempt : Attempt}
    {interval : Duration} (h : LoopSound put n outcome) (hattempt : attempt ≠ .stored) :
    LoopSound put (n + 1) { outcome with
      events := .attempted put attempt :: .reset (.ok ()) :: .slept interval ::
        outcome.events } := by
  refine ⟨h.kept, ?_, ?_, ?_, Nat.succ_le_succ h.bounded⟩
  · rw [h.stored]
    simp [hattempt.symm]
  · intro fault hfault
    have hreason := h.failed fault hfault
    simp only [List.mem_cons]
    tauto
  · intro other attempt' hmem
    simp only [List.mem_cons, Event.attempted.injEq, reduceCtorEq, false_or] at hmem
    rcases hmem with ⟨rfl, -⟩ | hlater
    · rfl
    · exact h.own other attempt' hlater

theorem attempts_loopSound {i n : Nat} (hrange : i + n = config.retries.toNat) :
    LoopSound put (n + 1) (attempts config put env i (n + 1) (some ())) := by
  induction n generalizing i with
  | zero =>
      have hlast : BitVec.ofNat w i = config.retries := (ofNat_eq_retries_iff hrange.le).mpr hrange
      have hiterates := iterates_attempts config put env i 0
      generalize attempts config put env i (0 + 1) (some ()) = outcome at hiterates ⊢
      cases hiterates with
      | stored hstored => constructor <;> simp [hstored, outcomes]
      | exhausted hattempt _ => constructor <;> simp [hattempt.symm, outcomes]
      | resetFailed _ hmore _ _ => exact absurd hlast hmore
      | overflowed _ hmore _ _ _ => exact absurd hlast hmore
      | retried _ hmore _ _ _ => exact absurd hlast hmore
  | succ n ih =>
      have hiterates := iterates_attempts config put env i (n + 1)
      generalize attempts config put env i (n + 1 + 1) (some ()) = outcome at hiterates ⊢
      cases hiterates with
      | stored hstored => constructor <;> simp [hstored, outcomes]
      | exhausted hattempt _ => constructor <;> simp [hattempt.symm, outcomes]
      | resetFailed hattempt _ fault _ =>
          constructor <;> simp [hattempt.symm, outcomes]
      | overflowed hattempt _ _ fault hinterval =>
          obtain rfl := eq_panic_of_dhtRetryInterval hinterval
          constructor <;> simp [hattempt.symm, outcomes]
      | retried hattempt _ _ interval _ =>
          exact (ih (i := i + 1) (by omega)).of_retry hattempt

structure Handled (config : DhtConfig w) (dht : Option Unit) (answer : Answer) : Prop where
  client : answer.dht = some () ↔ dht = some () ∨ built ∈ answer.events
  ready : ∀ before event after, answer.events = before ++ event :: after → event.UsesClient →
    dht = some () ∨ built ∈ before
  explained : answer.Explained config

theorem ready_of_cons {events : List ActorEvent} (before : List ActorEvent) (event : ActorEvent)
    (after : List ActorEvent) (h : built :: events = before ++ event :: after)
    (huses : event.UsesClient) : built ∈ before := by
  cases before with
  | nil =>
      obtain rfl := (List.cons.inj h).1
      exact huses.elim
  | cons first before =>
      obtain rfl := (List.cons.inj h).1
      exact List.mem_cons_self

theorem handled_of_resetFailed {answer : Answer} {fault : Fault} (hdht : answer.dht = none)
    (hevents : answer.events = [.dht (.reset (.error fault))])
    (hexplained : answer.Explained config) : Handled config none answer := by
  refine ⟨?_, ?_, hexplained⟩
  · rw [hdht, hevents]
    simp [built]
  · intro before event after hsplit huses
    have hmem : event ∈ answer.events := hsplit ▸ List.mem_append_right _ List.mem_cons_self
    rw [hevents] at hmem
    obtain rfl := List.mem_singleton.mp hmem
    exact huses.elim

theorem handled_of_client {answer : Answer} {dht : Option Unit} (hdht : answer.dht = some ())
    (hfirst : dht = some () ∨ ∃ events, answer.events = built :: events)
    (hexplained : answer.Explained config) : Handled config dht answer := by
  refine ⟨iff_of_true hdht ?_, ?_, hexplained⟩
  · rcases hfirst with hclient | ⟨events, hevents⟩
    · exact .inl hclient
    · exact .inr (hevents ▸ List.mem_cons_self)
  · intro before event after hsplit huses
    rcases hfirst with hclient | ⟨events, hevents⟩
    · exact .inl hclient
    · exact .inr (ready_of_cons before event after (hevents.symm.trans hsplit) huses)

theorem handled_get (address : SlotAddress) (moreRecentThan : Option Int)
    (resetResult : Result Unit) (items : Option (List MutableItem)) (dht : Option Unit) :
    Handled config dht (.get address moreRecentThan
      (get address moreRecentThan resetResult items dht)) := by
  cases dht with
  | some client =>
      refine handled_of_client rfl (.inl rfl) ?_
      cases items <;> simp [Answer.Explained, get, fetch, eq_comm]
  | none =>
      cases resetResult with
      | error fault =>
          refine handled_of_resetFailed rfl rfl ?_
          simp [Answer.Explained, get]
      | ok client =>
          refine handled_of_client rfl (.inr ⟨_, rfl⟩) ?_
          cases items <;> simp [Answer.Explained, get, fetch, reset, eq_comm]

/-- The attempts of a call with a client, if there are any to make. -/
theorem attempts_explained (config : DhtConfig w) (put : DhtPut) (env : Environment) :
    (attempts config put env 0 (1 + config.retries).toNat (some ())).dht = some () ∧
      (Answer.putMutable put
        (attempts config put env 0 (1 + config.retries).toNat (some ()))).Explained config := by
  by_cases hretries : config.retries = BitVec.allOnes w
  · have hnone : (1 + config.retries).toNat = 0 := by rw [hretries, toNat_one_add_allOnes]
    rw [hnone, attempts]
    refine ⟨rfl, ?_⟩
    simp [Answer.Explained, hretries, outcomes]
  · have hsound : LoopSound put (1 + config.retries).toNat
        (attempts config put env 0 (1 + config.retries).toNat (some ())) := by
      rw [toNat_one_add_of_ne hretries]
      exact attempts_loopSound (Nat.zero_add _)
    exact ⟨hsound.kept, hsound.stored.mpr, fun hok => .inl (hsound.stored.mp hok),
      hsound.failed, hsound.own, hsound.bounded⟩

theorem Answer.Explained.of_reset {outcome : Outcome}
    (h : (Answer.putMutable put outcome).Explained config) :
    (Answer.putMutable put
      { outcome with events := .reset (.ok ()) :: outcome.events }).Explained config := by
  obtain ⟨hstored, hok, hfailed, hown, hbounded⟩ := h
  refine ⟨?_, ?_, ?_, ?_, hbounded⟩
  · simpa using hstored
  · simpa using hok
  · simpa using hfailed
  · simpa using hown

theorem handled_putMutable (put : DhtPut) (env : Environment) (dht : Option Unit) :
    Handled config dht (.putMutable put (putMutable config put env dht)) := by
  obtain ⟨hkept, hexplained⟩ := attempts_explained config put env
  cases dht with
  | some client => exact handled_of_client hkept (.inl rfl) hexplained
  | none =>
      cases hreset : env.reset 0 with
      | error fault =>
          have hfailed : putMutable config put env none =
              ⟨none, [.reset (.error fault)], .error fault⟩ := by
            rw [putMutable, hreset]
          rw [hfailed]
          refine handled_of_resetFailed rfl rfl ?_
          simp [Answer.Explained, outcomes]
      | ok client =>
          have hbuilt : putMutable config put env none =
              { attempts config put env 0 (1 + config.retries).toNat (some ()) with
                events := .reset (.ok ()) ::
                  (attempts config put env 0 (1 + config.retries).toNat (some ())).events } := by
            rw [putMutable, hreset]
            rfl
          rw [hbuilt]
          exact handled_of_client hkept (.inr ⟨_, rfl⟩) hexplained.of_reset

theorem handled_answerCall (dht : Option Unit) (call : Call) :
    Handled config dht (answerCall config dht call) := by
  cases call with
  | get address moreRecentThan resetResult items =>
      exact handled_get address moreRecentThan resetResult items dht
  | putMutable put env => exact handled_putMutable put env dht

variable {panicError : String → String} {s : Actor}

@[simp] theorem Answer.caught_events (answer : Answer) :
    (answer.caught panicError).events = answer.events := by
  cases answer <;> rfl

theorem request_answerCall (dht : Option Unit) (call : Call) :
    ((answerCall config dht call).caught panicError).request = call.request := by
  cases call <;> rfl

/-- The answer is one that the calls of the actor explain, with a panic told as an error. -/
def Answer.Justified (config : DhtConfig w) (panicError : String → String) (answer : Answer) :
    Prop :=
  ∃ ended : Answer, ended.Explained config ∧ answer = ended.caught panicError

/-- The actor has its client since the first reset that succeeded, and has sent nothing
before. -/
structure Sound (config : DhtConfig w) (panicError : String → String) (s : Actor) : Prop where
  client : s.dht = some () ↔ built ∈ s.events
  ready : ∀ before event after, s.events = before ++ event :: after → event.UsesClient →
    built ∈ before
  justified : ∀ answer ∈ s.answers, answer.Justified config panicError

theorem Sound.step (h : Sound config panicError s) (call : Call) :
    Sound config panicError (s.step config panicError call) := by
  have hhandled : Handled config s.dht (answerCall config s.dht call) :=
    handled_answerCall s.dht call
  unfold Actor.step
  generalize answerCall config s.dht call = answer at hhandled ⊢
  have hevents : Actor.events ⟨answer.dht, s.answers ++ [answer.caught panicError]⟩ =
      s.events ++ answer.events := by
    simp [Actor.events]
  refine ⟨?_, ?_, ?_⟩
  · rw [hevents, List.mem_append, ← h.client]
    exact hhandled.client
  · intro before event after hsplit huses
    rw [hevents] at hsplit
    rcases List.append_eq_append_iff.mp hsplit with ⟨more, rfl, hmore⟩ | ⟨more, hmore, hrest⟩
    · rcases hhandled.ready more event after hmore huses with hclient | hbuilt
      · exact List.mem_append_left _ (h.client.mp hclient)
      · exact List.mem_append_right _ hbuilt
    · cases more with
      | nil =>
          rw [List.append_nil] at hmore
          rcases hhandled.ready [] event after hrest.symm huses with hclient | hbuilt
          · exact hmore ▸ h.client.mp hclient
          · cases hbuilt
      | cons first more =>
          obtain rfl := (List.cons.inj hrest).1
          exact h.ready before event more hmore huses
  · exact List.forall_mem_append.mpr
      ⟨h.justified, List.forall_mem_singleton.mpr ⟨answer, hhandled.explained, rfl⟩⟩

theorem Sound.serve (h : Sound config panicError s) (calls : List Call) :
    Sound config panicError (s.serve config panicError calls) := by
  induction calls generalizing s with
  | nil => exact h
  | cons call calls ih => exact ih (h.step call)

theorem requests_serve (calls : List Call) (s : Actor) :
    (s.serve config panicError calls).answers.map Answer.request =
      s.answers.map Answer.request ++ calls.map Call.request := by
  induction calls generalizing s with
  | nil => exact (List.append_nil _).symm
  | cons call calls ih =>
      have hstep : (s.step config panicError call).answers.map Answer.request =
          s.answers.map Answer.request ++ [call.request] := by
        rw [Actor.step, List.map_append, List.map_singleton, request_answerCall]
      calc ((s.step config panicError call).serve config panicError calls).answers.map
            Answer.request
          = s.answers.map Answer.request ++ [call.request] ++ calls.map Call.request := by
            rw [ih, hstep]
        _ = s.answers.map Answer.request ++ (call :: calls).map Call.request := by
            rw [List.append_assoc, List.singleton_append, List.map_cons]

/-- Whatever is asked of the actor and however the network behaves, all calls are answered in
their order, those after a panic too, nothing is sent before a client was built, the client is
there from the first reset that succeeds on, and every answer is explained by what its call
did. -/
theorem calls_answered (config : DhtConfig w) (panicError : String → String)
    (calls : List Call) :
    let s := Actor.new.serve config panicError calls
    s.answers.map Answer.request = calls.map Call.request ∧
      (s.dht = some () ↔ built ∈ s.events) ∧
      (∀ before event after, s.events = before ++ event :: after → event.UsesClient →
        built ∈ before) ∧
      ∀ answer ∈ s.answers, answer.Justified config panicError := by
  have hnew : Sound config panicError Actor.new := by
    refine ⟨?_, ?_, by simp [Actor.new]⟩
    · simp [Actor.new, Actor.events]
    · intro before event after hsplit _
      simp [Actor.new, Actor.events] at hsplit
  have hsound := hnew.serve calls
  exact ⟨requests_serve calls Actor.new, hsound.client, hsound.ready, hsound.justified⟩

/-- The first call cannot build a client and the second one can. Its put fails once, and the
wait after that is too long. -/
def lateClient : List Call :=
  [.get emptyPut.address none (.error (.bail "no socket")) (some []),
    .putMutable emptyPut ⟨fun _ => .timedOut, fun _ => .ok (), fun _ => 1⟩,
    .get emptyPut.address none (.ok ()) (some [emptyPut.item])]

example : let config : DhtConfig 64 := ⟨3, Duration.largest, Duration.fromSecs 1⟩
    let s := Actor.new.serve config (fun text => text) lateClient
    s.answers.map Answer.events = [[.dht (.reset (.error (.bail "no socket")))],
      [built, .dht (.attempted emptyPut .timedOut), built],
      [.fetched emptyPut.address none (some [emptyPut.item])]] := by
  decide +kernel

end TopicTracker.DhtClient
