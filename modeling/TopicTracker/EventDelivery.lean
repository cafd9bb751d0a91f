import TopicTracker.ChannelClosing

namespace TopicTracker.EventDelivery

open TopicTracker.ThirdParty
open TopicTracker.ReferenceExternals (reference)
open TopicTracker.StepMachine
open TopicTracker.BroadcastChannel
open TopicTracker.BootstrapLoop (EndpointId)
open TopicTracker.GossipReceiver
open TopicTracker.ChannelClosing

variable {X : Externals} {s t : State X}

def processedEvent : Entry X → Option (Event X)
  | .processed event => some event
  | _ => none

def processed (history : List (Entry X)) : List (Event X) := history.filterMap processedEvent

def answer : Except ChannelError (Event X) → Received (Event X)
  | .ok event => .value event
  | .error (.lagged skipped) => .lagged skipped
  | .error .closed => .closed

def answerTo (i : Nat) : Entry X → Option (Received (Event X))
  | .nextReturned receiver result => if receiver = i then some (answer result) else none
  | _ => none

def answers (i : Nat) (history : List (Entry X)) : List (Received (Event X)) :=
  history.filterMap (answerTo i)

/-- One place of the channel may be taken by the `None` at its end. -/
def keptEvents : Nat := channelCapacity - 1

theorem processed_append (history entries : List (Entry X)) :
    processed (history ++ entries) = processed history ++ processed entries :=
  List.filterMap_append

theorem answers_append (i : Nat) (history entries : List (Entry X)) :
    answers i (history ++ entries) = answers i history ++ answers i entries :=
  List.filterMap_append

theorem processed_moves {i : Nat} {op : HandleOp} {handle handle' : Handle}
    {entry : Option (Entry X)} (h : Moves s i handle op handle' entry) :
    processed entry.toList = [] := by
  cases h <;> rfl

/-- The event channel was sent what was processed, and a `None` when it ended. -/
def NextHolds (s : State X) : Prop :=
  s.next = (processed s.history).map some ∨
    s.next = (processed s.history).map some ++ [none] ∧ NextEnded s

theorem next_of_steps (hstep : Steps s t) (hstopping : Stopping s) :
    (t.next = s.next ∧ processed t.history = processed s.history) ∨
    (∃ event, s.phase = .running ∧ t.next = s.next ++ [some event] ∧
      processed t.history = processed s.history ++ [event]) ∨
    (t.next = s.next ++ [none] ∧ processed t.history = processed s.history ∧
      ¬ NextEnded s ∧ NextEnded t) := by
  cases hstep with
  | event event hrunning =>
      refine .inr (.inl ⟨event, hrunning, ?_, ?_⟩)
      · cases event <;> rfl
      · cases event <;> exact processed_append _ _
  | act cause action todo hphase =>
      by_cases haction : action = .sendNextNone
      · subst haction
        refine .inr (.inr ⟨rfl, rfl, ?_, cause, todo, rfl, ?_⟩)
        · rintro ⟨cause', todo', hphase', hmem⟩
          rw [hphase] at hphase'
          cases hphase'
          exact hmem List.mem_cons_self
        · exact not_mem_todo (hstopping.todo cause _ hphase)
      · refine .inl ⟨perform_next s haction, ?_⟩
        cases action with
        | dropJoinSender => exact (processed_append _ _).trans (List.append_nil _)
        | _ => rfl
  | handle i op handle handle' entry hget hmove =>
      refine .inl ⟨rfl, ?_⟩
      rw [processed_append, processed_moves hmove, List.append_nil]
  | _ => exact .inl ⟨rfl, rfl⟩

theorem nextHolds_of_reachable (h : Reachable s) : NextHolds s := by
  apply h.induction (P := NextHolds)
  · intro neighbors cancelled
    exact .inl rfl
  · intro s t hreachable hstep hs
    rcases next_of_steps hstep (stopping_of_reachable hreachable) with
      ⟨hnext, hprocessed⟩ | ⟨event, hrunning, hnext, hprocessed⟩ |
      ⟨hnext, hprocessed, hopen, hended⟩
    · rcases hs with hs | ⟨hs, hended⟩
      · exact .inl (by rw [hnext, hprocessed, hs])
      · exact .inr ⟨by rw [hnext, hprocessed, hs], (hended.of_steps hstep).1⟩
    · rcases hs with hs | ⟨-, hended⟩
      · exact .inl (by rw [hnext, hprocessed, hs, List.map_append, List.map_singleton])
      · exact absurd hrunning hended.not_running
    · rcases hs with hs | ⟨-, hended'⟩
      · exact .inr ⟨by rw [hnext, hprocessed, hs], hended⟩
      · exact absurd hended' hopen

theorem NextHolds.length_le (h : NextHolds s) :
    (processed s.history).length ≤ s.next.length ∧
      s.next.length ≤ (processed s.history).length + 1 := by
  rcases h with h | ⟨h, -⟩
  · rw [h, List.length_map]
    exact ⟨Nat.le_refl _, Nat.le_succ _⟩
  · rw [h, List.length_append, List.length_map]
    exact ⟨Nat.le_succ _, Nat.le_refl _⟩

theorem NextHolds.length_eq (h : NextHolds s) (hrunning : s.phase = .running) :
    s.next.length = (processed s.history).length := by
  rcases h with h | ⟨-, hended⟩
  · rw [h, List.length_map]
  · exact absurd hrunning hended.not_running

theorem NextHolds.getElem? (h : NextHolds s) {position : Nat} {event : Event X}
    (hget : s.next[position]? = some (some event)) :
    (processed s.history)[position]? = some event := by
  rcases h with h | ⟨h, -⟩
  · rw [h, List.getElem?_map] at hget
    simpa using hget
  · rw [h, List.getElem?_append] at hget
    split at hget
    · rw [List.getElem?_map] at hget
      simpa using hget
    · rw [List.getElem?_singleton] at hget
      split at hget <;> cases hget

theorem NextHolds.le_of_none (h : NextHolds s) {position : Nat}
    (hget : s.next[position]? = some none) : (processed s.history).length ≤ position := by
  by_contra hlt
  have hevent : ∃ event, s.next[position]? = some (some event) := by
    have hmap : ((processed s.history).map some)[position]? =
        some (some (processed s.history)[position]) := by
      rw [List.getElem?_map, List.getElem?_eq_getElem (Nat.not_le.mp hlt)]
      rfl
    rcases h with h | ⟨h, -⟩
    · exact ⟨_, h ▸ hmap⟩
    · refine ⟨(processed s.history)[position], ?_⟩
      rw [h, List.getElem?_append_left (by simpa using hlt), hmap]
  obtain ⟨event, hevent⟩ := hevent
  cases hget.symm.trans hevent

/-- The receiving end for events that a receiver has, if it has got one yet. -/
def nextEnd : Handle → Option (Option Nat)
  | .building _ .constructed | .building _ .droppedJoinTx => some (some 0)
  | .building _ .upgradingNext | .building _ .subscribingNext => none
  | .building _ (.droppingNext next) => some (some next)
  | .building _ (.upgradingJoin next) | .building _ (.subscribingJoin next)
  | .building _ (.droppingJoin next _) => some next
  | .live channels _ => some channels.nextChannelReceiver
  | .dropped => none

def Unsubscribed : Handle → Prop
  | .building _ .upgradingNext | .building _ .subscribingNext => True
  | _ => False

/-- The receiver that subscribes to the events in a step, and how many of them have been
processed before. A clone that finds no sender gets a channel that is closed. -/
def subscriptions (s : State X) : Op X → List (Nat × Nat)
  | .handle i .build =>
      match s.handles[i]? with
      | some (.building _ .upgradingNext) =>
          if s.nextSenders = 0 then [(i, (processed s.history).length)] else []
      | some (.building _ .subscribingNext) => [(i, (processed s.history).length)]
      | _ => []
  | _ => []

/-- The subscriptions of a run. The receiver of `new` subscribes before the actor is
spawned. -/
def subscribed (neighbors : Finset (EndpointId X)) (cancelled : Bool) (ops : List (Op X)) :
    List (Nat × Nat) :=
  (0, 0) :: outputs step subscriptions (State.start neighbors cancelled) ops

/-- What receiver `i` was told accounts for the events from `start` to `position`, and it
goes on from there. -/
structure Follows (s : State X) (i : Nat) (handle : Handle) (start position : Nat) : Prop where
  replays : Replays keptEvents (processed s.history) start (answers i s.history) position
  start_le : start ≤ (processed s.history).length
  unread : ∀ next, nextEnd handle = some (some next) →
    next ≤ s.next.length ∧ position = min next (processed s.history).length
  ended : nextEnd handle = some none ∨ .closed ∈ answers i s.history →
    position = (processed s.history).length ∧ s.phase ≠ .running

theorem Follows.of_frame {i : Nat} {handle : Handle} {start position : Nat}
    (h : Follows s i handle start position) (hholds : NextHolds s) (events : List (Event X))
    (hprocessed : processed t.history = processed s.history ++ events)
    (hevents : events ≠ [] → s.phase = .running) (hnext : s.next.length ≤ t.next.length)
    (hrunning : t.phase = .running → s.phase = .running)
    (hanswers : answers i t.history = answers i s.history) :
    Follows t i handle start position where
  replays := by
    rw [hprocessed, hanswers]
    exact h.replays.append_sent events
  start_le := by
    rw [hprocessed, List.length_append]
    exact Nat.le_add_right_of_le h.start_le
  unread next hend := by
    obtain ⟨hle, hposition⟩ := h.unread next hend
    refine ⟨hle.trans hnext, ?_⟩
    rw [hprocessed, List.length_append]
    rcases List.eq_nil_or_concat events with rfl | ⟨before, last, rfl⟩
    · exact hposition
    · have hlength := hholds.length_eq (hevents (by simp))
      omega
  ended hclosed := by
    rw [hanswers] at hclosed
    obtain ⟨hposition, hstopped⟩ := h.ended hclosed
    refine ⟨?_, mt hrunning hstopped⟩
    have hnone : events = [] := not_not.mp (mt hevents hstopped)
    rw [hprocessed, hnone, List.append_nil]
    exact hposition

theorem Follows.of_quiet {i : Nat} {handle handle' : Handle} {start position : Nat}
    (h : Follows s i handle start position) (hholds : NextHolds s) {entry : Option (Entry X)}
    (hentry : processed entry.toList = []) (hanswer : answers i entry.toList = [])
    (hend : nextEnd handle' = nextEnd handle ∨ nextEnd handle' = none) (handles : List Handle) :
    Follows { s with handles := handles, history := s.history ++ entry.toList } i handle'
      start position := by
  have hkept : Follows { s with handles := handles, history := s.history ++ entry.toList } i
      handle start position := by
    refine h.of_frame hholds [] ?_ (fun hne => absurd rfl hne) (Nat.le_refl _) id ?_
    · rw [processed_append, hentry]
    · rw [answers_append, hanswer, List.append_nil]
  refine ⟨hkept.replays, hkept.start_le, ?_, ?_⟩
  · intro next hnext
    rcases hend with hend | hend
    · exact hkept.unread next (hend ▸ hnext)
    · rw [hend] at hnext
      cases hnext
  · intro hclosed
    rcases hend with hend | hend
    · exact hkept.ended (hend ▸ hclosed)
    · rw [hend] at hclosed
      exact hkept.ended (.inr (hclosed.resolve_left (by simp)))

theorem follows_subscribed {i : Nat} {handle : Handle} (hholds : NextHolds s)
    (hnone : answers i s.history = []) (hend : nextEnd handle = some (some s.next.length) ∨
      (nextEnd handle = some none ∧ s.phase ≠ .running)) :
    Follows s i handle (processed s.history).length (processed s.history).length where
  replays := hnone ▸ .nil
  start_le := Nat.le_refl _
  unread next hnext := by
    rcases hend with hend | ⟨hend, -⟩
    · obtain rfl : s.next.length = next := by simpa [hend] using hnext
      exact ⟨Nat.le_refl _, (Nat.min_eq_right hholds.length_le.1).symm⟩
    · rw [hend] at hnext
      cases hnext
  ended hclosed := by
    rw [hnone] at hclosed
    rcases hend with hend | ⟨-, hstopped⟩
    · rw [hend] at hclosed
      simp at hclosed
    · exact ⟨rfl, hstopped⟩

theorem nextEnd_advance {origin : Option Nat} {stage : Stage}
    (h : ¬ Unsubscribed (.building origin stage)) :
    nextEnd (stage.advance s origin) = nextEnd (.building origin stage) ∧
      ¬ Unsubscribed (stage.advance s origin) := by
  cases stage with
  | upgradingNext => exact absurd trivial h
  | subscribingNext => exact absurd trivial h
  | upgradingJoin next =>
      simp only [Stage.advance]
      split
      · exact ⟨rfl, id⟩
      · exact ⟨rfl, id⟩
  | _ => exact ⟨rfl, id⟩

theorem Follows.of_answer {i : Nat} {handle : Handle} {start position position' : Nat}
    (h : Follows s i handle start position) {result : Except ChannelError (Event X)}
    {received : Received (Event X)} (hanswer : answer result = received)
    (hreplays : Replays keptEvents (processed s.history) start
      (answers i s.history ++ [received]) position') (hle : position ≤ position')
    {next : Option Nat} (hunread : ∀ unread, next = some unread →
      unread ≤ s.next.length ∧ position' = min unread (processed s.history).length)
    (hended : next = none ∨ received = .closed →
      position' = (processed s.history).length ∧ s.phase ≠ .running)
    (join : Option Nat) (handles : List Handle) :
    Follows { s with handles := handles, history := s.history ++ [.nextReturned i result] } i
      (.live ⟨next, join⟩ .idle) start position' := by
  have hprocessed : processed (s.history ++ [.nextReturned i result]) = processed s.history :=
    (processed_append _ _).trans (List.append_nil _)
  have hanswers : answers i (s.history ++ [.nextReturned i result]) =
      answers i s.history ++ [received] := by
    rw [answers_append, ← hanswer]
    simp [answers, answerTo]
  refine ⟨?_, hprocessed ▸ h.start_le, ?_, ?_⟩
  · rw [hprocessed, hanswers]
    exact hreplays
  · intro unread hnext
    rw [hprocessed]
    exact hunread unread (Option.some.inj hnext)
  · intro hend
    show position' = (processed (s.history ++ [.nextReturned i result])).length ∧
      s.phase ≠ .running
    rw [hprocessed]
    rcases hend with hnone | hmem
    · exact hended (.inl (Option.some.inj hnone))
    · rw [hanswers] at hmem
      rcases List.mem_append.mp hmem with hbefore | hlast
      · obtain ⟨hall, hstopped⟩ := h.ended (.inr hbefore)
        have hbound : position' ≤ (processed s.history).length := hreplays.le_length h.start_le
        exact ⟨Nat.le_antisymm hbound (hall ▸ hle), hstopped⟩
      · exact hended (.inr (List.mem_singleton.mp hlast).symm)

/-- What one call of `next` returns, and where it leaves the receiver. -/
theorem follows_pollNext {i : Nat} {channels : Channels} {start position : Nat}
    (h : Follows s i (.live channels .next) start position) (hreachable : Reachable s)
    {result : Except ChannelError (Event X)} (hresult : (s.pollNext channels).1 = some result)
    (handles : List Handle) :
    ∃ position, Follows { s with
      handles := handles, history := s.history ++ [.nextReturned i result] } i
      (.live (s.pollNext channels).2 .idle) start position := by
  have hholds := nextHolds_of_reachable hreachable
  have hstopping := stopping_of_reachable hreachable
  have hlength := hholds.length_le
  have hkept : keptEvents + 1 = channelCapacity := rfl
  have hclosed : answer (X := X) (.error .closed) = .closed := rfl
  rcases channels with ⟨next, join⟩
  cases next with
  | none =>
      obtain rfl : .error .closed = result := Option.some.inj hresult
      exact ⟨position, h.of_answer hclosed h.replays.closed (Nat.le_refl _)
        (fun _ hnext => by cases hnext) (fun _ => h.ended (.inl rfl)) join handles⟩
  | some next =>
      obtain ⟨hle, hposition⟩ := h.unread next rfl
      rcases recv_cases channelCapacity s.next s.nextSenders next with
        ⟨hlag, hrecv⟩ | ⟨event, hget, -, hrecv⟩ | ⟨hend, hrecv⟩
      · -- the end marker is never among what a receiver skips
        simp only [State.pollNext, pollRecv, hrecv, channelResult, Option.some.injEq] at hresult ⊢
        subst hresult
        have hanswer : answer (X := X)
          (.error (.lagged (s.next.length - channelCapacity - next))) =
            .lagged (s.next.length - channelCapacity - next) := rfl
        have hread : position = next := by omega
        refine ⟨_, h.of_answer hanswer (h.replays.lagged (by omega)) (Nat.le_add_right _ _) ?_ ?_
          join handles⟩
        · intro unread hunread
          obtain rfl := Option.some.inj hunread
          omega
        · rintro (hnone | hend)
          · cases hnone
          · cases hend
      · have hlt : next < s.next.length := (List.getElem?_eq_some_iff.mp hget).1
        simp only [State.pollNext, pollRecv, hrecv] at hresult ⊢
        cases event with
        | none =>
            obtain rfl : .error .closed = result := Option.some.inj hresult
            have hended := (hstopping.sentinel next hget).2
            have hnone := hholds.le_of_none hget
            have hall : position = (processed s.history).length := by omega
            refine ⟨position, h.of_answer hclosed h.replays.closed (Nat.le_refl _) ?_
              (fun _ => ⟨hall, hended.not_running⟩) join handles⟩
            intro unread hunread
            obtain rfl := Option.some.inj hunread
            omega
        | some event =>
            obtain rfl : .ok event = result := Option.some.inj hresult
            have hanswer : answer (.ok event) = .value event := rfl
            have hevent := hholds.getElem? hget
            have hnext : next < (processed s.history).length :=
              (List.getElem?_eq_some_iff.mp hevent).1
            have hread : position = next := by omega
            refine ⟨_, h.of_answer hanswer (h.replays.value (hread ▸ hevent)) (Nat.le_succ _)
              ?_ ?_ join handles⟩
            · intro unread hunread
              obtain rfl := Option.some.inj hunread
              omega
            · rintro (hnone | hend)
              · cases hnone
              · cases hend
      · simp only [State.pollNext, pollRecv, hrecv] at hresult ⊢
        by_cases hsenders : s.nextSenders = 0
        · rw [if_pos hsenders] at hresult
          obtain rfl : .error .closed = result := Option.some.inj hresult
          have hended := nextEnded_of_senders hstopping hsenders
          have hall : position = (processed s.history).length := by omega
          refine ⟨position, h.of_answer hclosed h.replays.closed (Nat.le_refl _) ?_
            (fun _ => ⟨hall, hended.not_running⟩) join handles⟩
          intro unread hunread
          obtain rfl := Option.some.inj hunread
          exact ⟨hle, hposition⟩
        · rw [if_neg hsenders] at hresult
          cases hresult

theorem follows_moves {i : Nat} {op : HandleOp} {handle handle' : Handle}
    {entry : Option (Entry X)} {start position : Nat} (h : Follows s i handle start position)
    (hsubscribed : ¬ Unsubscribed handle) (hreachable : Reachable s)
    (hmove : Moves s i handle op handle' entry) (handles : List Handle) :
    ¬ Unsubscribed handle' ∧ ∃ position, Follows { s with
      handles := handles, history := s.history ++ entry.toList } i handle' start position := by
  have hholds := nextHolds_of_reachable hreachable
  cases hmove with
  | build origin stage =>
      obtain ⟨hend, hstill⟩ := nextEnd_advance (s := s) hsubscribed
      exact ⟨hstill, position, h.of_quiet hholds rfl rfl (.inl hend) handles⟩
  | drop channels =>
      refine ⟨id, position, h.of_quiet hholds rfl rfl (.inr ?_) handles⟩
      rfl
  | nextReturns channels result hresult =>
      exact ⟨id, follows_pollNext h hreachable hresult handles⟩
  | _ =>
      refine ⟨id, position, h.of_quiet hholds rfl rfl (.inl ?_) handles⟩
      rfl

variable {log : List (Nat × Nat)}

/-- Nobody has been answered on the receiver, which has never subscribed. -/
def Unheard (log : List (Nat × Nat)) (s : State X) (i : Nat) : Prop :=
  answers i s.history = [] ∧ i ∉ log.map Prod.fst

/-- Every receiver that has subscribed, once, is followed from there, and no other has been
answered. -/
structure Followed (log : List (Nat × Nat)) (s : State X) : Prop where
  reachable : Reachable s
  once : (log.map Prod.fst).Nodup
  follows : ∀ i handle, s.handles[i]? = some handle → ¬ Unsubscribed handle →
    ∃ start position, (i, start) ∈ log ∧ Follows s i handle start position
  waiting : ∀ i, (∀ handle ∈ s.handles[i]?, Unsubscribed handle) → Unheard log s i

theorem Followed.of_frame (h : Followed log s) (hstep : Steps s t) (hreachable : Reachable t)
    (clones : List Handle) (hhandles : t.handles = s.handles ++ clones)
    (hclones : ∀ clone ∈ clones, Unsubscribed clone)
    (hanswers : ∀ i, answers i t.history = answers i s.history) : Followed log t := by
  have hholds := nextHolds_of_reachable h.reachable
  have hsent : ∃ events, processed t.history = processed s.history ++ events ∧
      (events ≠ [] → s.phase = .running) ∧ s.next.length ≤ t.next.length := by
    rcases next_of_steps hstep (stopping_of_reachable h.reachable) with
      ⟨hnext, hsame⟩ | ⟨event, hrunning, hnext, hmore⟩ | ⟨hnext, hsame, -, -⟩
    · exact ⟨[], by rw [hsame, List.append_nil], fun hne => absurd rfl hne, hnext ▸ le_rfl⟩
    · exact ⟨[event], hmore, fun _ => hrunning, by rw [hnext]; simp⟩
    · exact ⟨[], by rw [hsame, List.append_nil], fun hne => absurd rfl hne, by rw [hnext]; simp⟩
  obtain ⟨events, hevents, hrunning, hnext⟩ := hsent
  refine ⟨hreachable, h.once, ?_, ?_⟩
  · intro i handle hget hsubscribed
    rw [hhandles, List.getElem?_append] at hget
    split at hget
    · obtain ⟨start, position, hmem, hfollows⟩ := h.follows i handle hget hsubscribed
      exact ⟨start, position, hmem,
        hfollows.of_frame hholds events hevents hrunning hnext hstep.running (hanswers i)⟩
    · exact absurd (hclones handle (List.mem_of_getElem? hget)) hsubscribed
  · intro i hunsubscribed
    rw [Unheard, hanswers]
    refine h.waiting i fun handle hget => hunsubscribed handle ?_
    rw [hhandles]
    exact List.getElem?_append_left (List.getElem?_eq_some_iff.mp hget).1 ▸ hget

theorem answers_moves_of_ne {i j : Nat} {op : HandleOp} {handle handle' : Handle}
    {entry : Option (Entry X)} (hmove : Moves s i handle op handle' entry) (hne : j ≠ i) :
    answers j (s.history ++ entry.toList) = answers j s.history := by
  rw [answers_append]
  cases hmove with
  | nextReturns channels result hresult => simp [answers, answerTo, Ne.symm hne]
  | _ => exact List.append_nil _

theorem Followed.of_handle (h : Followed log s) {i : Nat} {op : HandleOp}
    {handle handle' : Handle} {entry : Option (Entry X)} (hget : s.handles[i]? = some handle)
    (hmove : Moves s i handle op handle' entry)
    (ht : t = { s with
      handles := s.handles.set i handle', history := s.history ++ entry.toList })
    (hreachable : Reachable t) (more : List (Nat × Nat)) (hmore : ∀ entry ∈ more, entry.1 = i)
    (honce : ((log ++ more).map Prod.fst).Nodup)
    (hfollows : ¬ Unsubscribed handle' → ∃ start position, (i, start) ∈ log ++ more ∧
      Follows t i handle' start position)
    (hwaiting : Unsubscribed handle' → Unheard (log ++ more) t i) :
    Followed (log ++ more) t := by
  have hlt : i < s.handles.length := (List.getElem?_eq_some_iff.mp hget).1
  have hself : t.handles[i]? = some handle' := by simp [ht, hlt]
  have hothers : ∀ j, j ≠ i → t.handles[j]? = s.handles[j]? := by
    intro j hne
    rw [ht]
    exact List.getElem?_set_ne (Ne.symm hne)
  have hanswers : ∀ j, j ≠ i → answers j t.history = answers j s.history := by
    intro j hne
    rw [ht]
    exact answers_moves_of_ne hmove hne
  refine ⟨hreachable, honce, ?_, ?_⟩
  · intro j moved hmoved hsubscribed
    by_cases hij : j = i
    · subst hij
      obtain rfl := Option.some.inj (hself.symm.trans hmoved)
      exact hfollows hsubscribed
    · rw [hothers j hij] at hmoved
      obtain ⟨start, position, hmem, hfollowed⟩ := h.follows j moved hmoved hsubscribed
      refine ⟨start, position, List.mem_append_left _ hmem, hfollowed.of_frame
        (nextHolds_of_reachable h.reachable) [] ?_ (fun hne => absurd rfl hne) (ht ▸ le_rfl)
        (ht ▸ id) (hanswers j hij)⟩
      rw [ht]
      show processed (s.history ++ entry.toList) = _
      rw [processed_append, processed_moves hmove]
  · intro j hunsubscribed
    by_cases hij : j = i
    · subst hij
      exact hwaiting (hunsubscribed handle' hself)
    · rw [hothers j hij] at hunsubscribed
      obtain ⟨hnone, hnever⟩ := h.waiting j hunsubscribed
      refine ⟨(hanswers j hij).trans hnone, ?_⟩
      rw [List.map_append, List.mem_append, not_or]
      refine ⟨hnever, fun hmem => ?_⟩
      obtain ⟨subscription, hsubscription, rfl⟩ := List.mem_map.mp hmem
      exact hij (hmore subscription hsubscription)

theorem subscriptions_of_not_unsubscribed {i : Nat} {op : HandleOp} {handle : Handle}
    (hget : s.handles[i]? = some handle) (h : ¬ Unsubscribed handle) :
    subscriptions s (.handle i op) = [] := by
  cases op with
  | build =>
      simp only [subscriptions, hget]
      split
      · next heq => exact absurd (Option.some.inj heq ▸ trivial) h
      · next heq => exact absurd (Option.some.inj heq ▸ trivial) h
      · rfl
  | _ => rfl

theorem Followed.of_subscribing (h : Followed log s) {i : Nat} {handle handle' : Handle}
    (hget : s.handles[i]? = some handle) (hmove : Moves s i handle .build handle' none)
    (ht : t = { s with
      handles := s.handles.set i handle'
      history := s.history ++ (none : Option (Entry X)).toList })
    (hreachable : Reachable t) (hunheard : Unheard log s i)
    (hsubscribed : ¬ Unsubscribed handle') (hend : nextEnd handle' = some (some s.next.length) ∨
      (nextEnd handle' = some none ∧ s.phase ≠ .running)) :
    Followed (log ++ [(i, (processed s.history).length)]) t := by
  have hholds := nextHolds_of_reachable h.reachable
  refine h.of_handle hget hmove ht hreachable _ (by simp) ?_ (fun _ => ?_)
    fun hunsubscribed => absurd hunsubscribed hsubscribed
  · rw [List.map_append, List.map_singleton]
    refine List.nodup_append.mpr ⟨h.once, List.nodup_singleton _, ?_⟩
    rintro j hj k hk rfl
    have hsame : j = i := List.mem_singleton.mp hk
    exact hunheard.2 (hsame ▸ hj)
  · have hfollows : Follows t i handle' (processed s.history).length
        (processed s.history).length := by
      rw [ht]
      exact (follows_subscribed hholds hunheard.1 hend).of_quiet hholds rfl rfl (.inl rfl) _
    exact ⟨_, _, List.mem_append_right _ (List.mem_singleton_self _), hfollows⟩

theorem Followed.of_unsubscribed (h : Followed log s) {i : Nat} {op : HandleOp}
    {handle handle' : Handle} {entry : Option (Entry X)} (hget : s.handles[i]? = some handle)
    (hunsubscribed : Unsubscribed handle) (hmove : Moves s i handle op handle' entry)
    (ht : t = { s with
      handles := s.handles.set i handle', history := s.history ++ entry.toList })
    (hreachable : Reachable t) : Followed (log ++ subscriptions s (.handle i op)) t := by
  have hunheard : Unheard log s i := by
    refine h.waiting i fun other hother => ?_
    obtain rfl := Option.some.inj (hget.symm.trans hother)
    exact hunsubscribed
  cases hmove with
  | build origin stage =>
      cases stage with
      | upgradingNext =>
          by_cases hsenders : s.nextSenders = 0
          · have hsubscribes : subscriptions s (.handle i .build) =
                [(i, (processed s.history).length)] := by
              simp [subscriptions, hget, hsenders]
            have hadvance : Stage.upgradingNext.advance s origin =
                .building origin (.upgradingJoin none) := by
              simp [Stage.advance, hsenders]
            have hstopped : s.phase ≠ .running :=
              fun hrunning => State.nextSenders_ne_zero hrunning hsenders
            have hmove := Moves.build (s := s) (i := i) origin .upgradingNext
            rw [hadvance] at ht hmove
            rw [hsubscribes]
            exact h.of_subscribing hget hmove ht hreachable hunheard id (.inr ⟨rfl, hstopped⟩)
          · have hsubscribes : subscriptions s (.handle i .build) = [] := by
              simp [subscriptions, hget, hsenders]
            have hadvance : Stage.upgradingNext.advance s origin =
                .building origin .subscribingNext := by
              simp [Stage.advance, hsenders]
            have hmove := Moves.build (s := s) (i := i) origin .upgradingNext
            rw [hadvance] at ht hmove
            rw [hsubscribes]
            refine h.of_handle hget hmove ht hreachable [] (by simp) ?_
              (fun hsubscribed => absurd trivial hsubscribed) fun _ => ?_
            · rw [List.append_nil]
              exact h.once
            · rw [List.append_nil, ht]
              refine ⟨?_, hunheard.2⟩
              exact (answers_append i _ _).trans ((List.append_nil _).trans hunheard.1)
      | subscribingNext =>
          have hsubscribes : subscriptions s (.handle i .build) =
              [(i, (processed s.history).length)] := by
            simp [subscriptions, hget]
          rw [hsubscribes]
          exact h.of_subscribing hget (.build origin .subscribingNext) ht hreachable hunheard id
            (.inl rfl)
      | _ => exact hunsubscribed.elim
  | _ => exact hunsubscribed.elim

theorem followed_of_step (log : List (Nat × Nat)) (s : State X) (op : Op X) (t : State X)
    (hstep : step s op = some t) (h : Followed log s) :
    Followed (log ++ subscriptions s op) t := by
  have hreachable : Reachable t :=
    h.reachable.run (run_cons_eq_some_iff.mpr ⟨t, hstep, run_nil t⟩)
  have hsteps := steps_of_step hstep
  have hframe : ∀ clones, t.handles = s.handles ++ clones →
      (∀ clone ∈ clones, Unsubscribed clone) →
      (∀ i, answers i t.history = answers i s.history) → Followed (log ++ []) t := by
    intro clones hhandles hclones hanswers
    rw [List.append_nil]
    exact h.of_frame hsteps hreachable clones hhandles hclones hanswers
  cases op with
  | handle i op =>
      obtain ⟨handle, hget, hmoved⟩ := Option.bind_eq_some_iff.mp hstep
      obtain ⟨moved, hmove, ht⟩ := Option.map_eq_some_iff.mp hmoved
      have hmoves := moves_of_move hmove
      by_cases hunsubscribed : Unsubscribed handle
      · exact h.of_unsubscribed hget hunsubscribed hmoves ht.symm hreachable
      · obtain ⟨start, position, hmem, hfollows⟩ := h.follows i handle hget hunsubscribed
        obtain ⟨hsubscribed, position', hfollows'⟩ :=
          follows_moves hfollows hunsubscribed h.reachable hmoves (s.handles.set i moved.1)
        rw [subscriptions_of_not_unsubscribed hget hunsubscribed]
        refine h.of_handle hget hmoves ht.symm hreachable [] (by simp) ?_ (fun _ => ?_)
          fun hstill => absurd hstill hsubscribed
        · rw [List.append_nil]
          exact h.once
        · rw [List.append_nil, ← ht]
          exact ⟨start, position', hmem, hfollows'⟩
  | clone i =>
      simp only [step] at hstep
      split at hstep
      · obtain rfl := Option.some.inj hstep
        refine hframe _ rfl ?_ fun i => rfl
        intro clone hclone
        obtain rfl := List.mem_singleton.mp hclone
        trivial
      · cases hstep
  | event event =>
      obtain ⟨-, hstate⟩ := Option.ite_none_right_eq_some.mp hstep
      obtain rfl := Option.some.inj hstate
      refine hframe [] ?_ (by simp) fun i => ?_
      · cases event <;> exact (List.append_nil _).symm
      · cases event <;> exact (answers_append i _ _).trans (List.append_nil _)
  | act =>
      simp only [step] at hstep
      split at hstep
      · next cause action todo hphase =>
          obtain rfl := Option.some.inj hstep
          refine hframe [] ?_ (by simp) fun i => ?_
          · cases action <;> exact (List.append_nil _).symm
          · cases action with
            | dropJoinSender => exact (answers_append i _ _).trans (List.append_nil _)
            | _ => rfl
      · cases hstep
  | query =>
      obtain ⟨-, hstate⟩ := Option.ite_none_right_eq_some.mp hstep
      obtain rfl := Option.some.inj hstate
      exact hframe [] (List.append_nil _).symm (by simp) fun i => rfl
  | stop cause =>
      obtain ⟨-, hstate⟩ := Option.ite_none_right_eq_some.mp hstep
      obtain rfl := Option.some.inj hstate
      exact hframe [] (List.append_nil _).symm (by simp) fun i => rfl
  | cancelToken =>
      obtain rfl := Option.some.inj hstep
      exact hframe [] (List.append_nil _).symm (by simp) fun i => rfl

variable {neighbors : Finset (EndpointId X)} {cancelled : Bool} {ops : List (Op X)}

theorem followed_of_run (hrun : run step (State.start neighbors cancelled) ops = some s) :
    Followed (subscribed neighbors cancelled ops) s := by
  have hstart : Followed [(0, 0)] (State.start neighbors cancelled) := by
    refine ⟨⟨neighbors, cancelled, [], rfl⟩, List.nodup_singleton _, ?_, ?_⟩
    · intro i handle hget _
      obtain ⟨rfl, rfl⟩ : i = 0 ∧ Handle.building none .constructed = handle := by
        rw [State.start, List.getElem?_singleton] at hget
        simpa using hget
      exact ⟨0, 0, List.mem_singleton_self _, .nil, le_rfl,
        by simp [nextEnd, State.start, processed], by simp [nextEnd, answers, State.start]⟩
    · intro i hunsubscribed
      refine ⟨rfl, fun hmem => ?_⟩
      obtain rfl : i = 0 := by simpa using hmem
      exact hunsubscribed (.building none .constructed) rfl
  exact run_accumulates followed_of_step hrun hstart

/-- A receiver subscribes once, and what `next` has returned on it accounts, without a gap
and without a repetition, for the events processed from then on: handed out in order, counted
as left out by a `Lagged`, or not reached yet. `Closed` comes after the last of them, and a
clone that has not subscribed yet has got no answer. -/
theorem events_delivered (hrun : run step (State.start neighbors cancelled) ops = some s)
    {i : Nat} {handle : Handle} (hget : s.handles[i]? = some handle) :
    (Unsubscribed handle → answers i s.history = [] ∧
      ∀ start, (i, start) ∉ subscribed neighbors cancelled ops) ∧
    (¬ Unsubscribed handle → ∃ start position,
      (∀ other, (i, other) ∈ subscribed neighbors cancelled ops ↔ other = start) ∧
      Replays keptEvents (processed s.history) start (answers i s.history) position ∧
      position ≤ (processed s.history).length ∧
      (.closed ∈ answers i s.history → position = (processed s.history).length) ∧
      (valuesOf (answers i s.history)).Sublist
        (((processed s.history).drop start).take (position - start)) ∧
      start + (valuesOf (answers i s.history)).length + totalSkipped (answers i s.history) =
        position) := by
  have hfollowed := followed_of_run hrun
  constructor
  · intro hunsubscribed
    obtain ⟨hnone, hnever⟩ := hfollowed.waiting i fun other hother => by
      obtain rfl := Option.some.inj (hget.symm.trans hother)
      exact hunsubscribed
    exact ⟨hnone, fun start hmem => hnever (List.mem_map_of_mem hmem)⟩
  · intro hsubscribed
    obtain ⟨start, position, hmem, hfollows⟩ := hfollowed.follows i handle hget hsubscribed
    have hreplays := hfollows.replays
    refine ⟨start, position, fun other => ⟨fun hother => ?_, fun hsame => hsame ▸ hmem⟩,
      hreplays, hreplays.le_length hfollows.start_le, fun hclosed =>
        (hfollows.ended (.inr hclosed)).1, hreplays.values_sublist, hreplays.account⟩
    exact congrArg Prod.snd (List.inj_on_of_nodup_map hfollowed.once hother hmem rfl)

/-- Two events, a clone in between, the end of the stream, and both receivers read on. -/
def clonedBetweenEvents : List (Op reference) :=
  [.handle 0 .build, .handle 0 .build, .event .lagged, .clone 0, .handle 1 .build,
    .handle 1 .build, .handle 1 .build, .handle 1 .build, .handle 1 .build, .handle 1 .build,
    .event (.received [7]), .handle 1 .next, .handle 1 .poll, .stop .streamEnd, .act, .act,
    .handle 1 .next, .handle 1 .poll]

theorem events_delivered_clonedBetweenEvents : ∃ s,
    run step (State.start ∅ false) clonedBetweenEvents = some s ∧
      subscribed ∅ false clonedBetweenEvents = [(0, 0), (1, 1)] ∧
      answers 1 s.history = [.value (.received [7]), .closed] ∧ ∃ position,
      Replays keptEvents (processed s.history) 1 (answers 1 s.history) position ∧
        position = (processed s.history).length := by
  obtain ⟨s, hrun, hanswers, channels, call, hget⟩ : ∃ s,
      run step (State.start ∅ false) clonedBetweenEvents = some s ∧
        answers 1 s.history = [.value (.received [7]), .closed] ∧
        ∃ channels call, s.handles[1]? = some (.live channels call) :=
    ⟨_, rfl, rfl, _, _, rfl⟩
  have hsubscribed : subscribed ∅ false clonedBetweenEvents = [(0, 0), (1, 1)] := by decide
  obtain ⟨start, position, honce, hreplays, -, hclosed, -, -⟩ :=
    (events_delivered hrun hget).2 id
  obtain rfl : 1 = start := (honce 1).mp (by rw [hsubscribed]; simp)
  exact ⟨s, hrun, hsubscribed, hanswers, position, hreplays, hclosed (by rw [hanswers]; simp)⟩

end TopicTracker.EventDelivery
