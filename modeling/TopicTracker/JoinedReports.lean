import TopicTracker.JoinWakeup

namespace TopicTracker.JoinedReports

open TopicTracker.RustValues
open TopicTracker.StepMachine
open TopicTracker.BroadcastChannel
open TopicTracker.ThirdParty
open TopicTracker.ReferenceExternals (reference)
open TopicTracker.BootstrapLoop (EndpointId)
open TopicTracker.GossipReceiver
open TopicTracker.JoinWakeup

variable {X : Externals}

def IsJoinEvent : Event X → Prop
  | .received _ => True
  | .neighborUp _ => True
  | _ => False

def noteNeighbor (neighbors : Finset (EndpointId X)) : Entry X → Finset (EndpointId X)
  | .processed (.neighborUp pubKey) => insert pubKey neighbors
  | .processed (.neighborDown pubKey) => neighbors.erase pubKey
  | _ => neighbors

/-- The neighbours that those at the start have become after the first entries. -/
def neighborsAt (neighbors : Finset (EndpointId X)) (history : List (Entry X)) (moment : Nat) :
    Finset (EndpointId X) :=
  (history.take moment).foldl noteNeighbor neighbors

/-- Since a moment the topic has had a neighbour or an event that announces one. -/
def HappenedSince (neighbors : Finset (EndpointId X)) (history : List (Entry X)) (since : Nat) :
    Prop :=
  (∃ moment, since ≤ moment ∧ moment ≤ history.length ∧
      (neighborsAt neighbors history moment).Nonempty) ∨
    ∃ k event, since ≤ k ∧ history[k]? = some (.processed event) ∧ IsJoinEvent event

def ToldToStop (s : State X) : Prop := s.cancelled = true ∨ s.phase ≠ .running

def Justified (neighbors : Finset (EndpointId X)) (s : State X) (since : Nat) :
    Except ChannelError Unit → Prop
  | .ok () => HappenedSince neighbors s.history since
  | .error _ => ToldToStop s

/-- If the step returns from a `joined` call, the result is justified. -/
def ReturnsJustified (neighbors : Finset (EndpointId X)) (s : State X) (op : Op X) : Prop :=
  ∀ t i since result, step s op = some t →
    t.history = s.history ++ [.joinedReturned i since result] → Justified neighbors s since result

def unread (s : State X) (channels : Channels) : Nat :=
  match channels.joinChannelReceiver with
  | some position => s.join.length - position
  | none => 0

/-- A call does not begin without a neighbour on values that it could still read, and
does not read when it has fallen behind. -/
def TimelyOn (s : State X) : Option Handle → HandleOp → Prop
  | some (.live channels .idle), .joined => s.phase = .running → s.neighbors = ∅ →
      unread s channels = 0 ∨ channelCapacity < unread s channels
  | some (.live channels (.joined _ .waiting)), .poll =>
      ToldToStop s ∨ unread s channels ≤ channelCapacity
  | _, _ => True

def Timely (s : State X) : Op X → Prop
  | .handle i op => TimelyOn s s.handles[i]? op
  | _ => True

section History

variable {neighbors : Finset (EndpointId X)} {history : List (Entry X)} {since : Nat}

theorem HappenedSince.append (h : HappenedSince neighbors history since)
    (entries : List (Entry X)) : HappenedSince neighbors (history ++ entries) since := by
  rcases h with ⟨moment, hsince, hle, hneighbors⟩ | ⟨k, event, hsince, hget, hevent⟩
  · refine .inl ⟨moment, hsince, ?_, ?_⟩
    · rw [List.length_append]
      exact Nat.le_add_right_of_le hle
    · rwa [neighborsAt, List.take_append_of_le_length hle]
  · refine .inr ⟨k, event, hsince, ?_, hevent⟩
    rw [List.getElem?_append_left (List.getElem?_eq_some_iff.mp hget).1, hget]

theorem happenedSince_of_event {event : Event X} (hevent : IsJoinEvent event)
    (hsince : since ≤ history.length) :
    HappenedSince neighbors (history ++ [.processed event]) since :=
  .inr ⟨history.length, event, hsince, List.getElem?_concat_length, hevent⟩

theorem neighborsAt_length :
    neighborsAt neighbors history history.length = history.foldl noteNeighbor neighbors := by
  rw [neighborsAt, List.take_length]

theorem happenedSince_of_neighbors (hsince : since ≤ history.length)
    (h : (history.foldl noteNeighbor neighbors).Nonempty) :
    HappenedSince neighbors history since :=
  .inl ⟨history.length, hsince, le_rfl, by rwa [neighborsAt_length]⟩

theorem not_happenedSince_length (h : history.foldl noteNeighbor neighbors = ∅) :
    ¬ HappenedSince neighbors history history.length := by
  rintro (⟨moment, hsince, hle, hneighbors⟩ | ⟨k, event, hsince, hget, -⟩)
  · obtain rfl : moment = history.length := le_antisymm hle hsince
    rw [neighborsAt_length, h] at hneighbors
    exact Finset.not_nonempty_empty hneighbors
  · rw [List.getElem?_eq_none hsince] at hget
    cases hget

end History

variable {s t : State X}

theorem neighbors_of_steps (h : Steps s t) : ∃ entries, t.history = s.history ++ entries ∧
    t.neighbors = entries.foldl noteNeighbor s.neighbors := by
  cases h with
  | event event hrunning =>
      refine ⟨[.processed event], ?_, ?_⟩
      · cases event <;> rfl
      · cases event <;> rfl
  | query => exact ⟨[], (List.append_nil _).symm, rfl⟩
  | stop cause hrunning hcause => exact ⟨[], (List.append_nil _).symm, rfl⟩
  | act cause action todo hphase =>
      cases action with
      | dropJoinSender => exact ⟨[.actorDropped], rfl, rfl⟩
      | _ => exact ⟨[], (List.append_nil _).symm, rfl⟩
  | cancelToken => exact ⟨[], (List.append_nil _).symm, rfl⟩
  | clone i channels hget => exact ⟨[], (List.append_nil _).symm, rfl⟩
  | handle i op moved moved' entry hget hmove =>
      refine ⟨entry.toList, rfl, ?_⟩
      cases hmove <;> rfl

theorem join_of_steps (h : Steps s t) : t.join = s.join ∨
    (t.join = s.join ++ [none] ∧ t.phase ≠ .running) ∨
    ∃ event, IsJoinEvent event ∧ t.join = s.join ++ [some ()] ∧
      t.history = s.history ++ [.processed event] := by
  cases h with
  | event event hrunning =>
      cases event with
      | received content => exact .inr (.inr ⟨.received content, trivial, rfl, rfl⟩)
      | neighborUp pubKey => exact .inr (.inr ⟨.neighborUp pubKey, trivial, rfl, rfl⟩)
      | neighborDown pubKey => exact .inl rfl
      | lagged => exact .inl rfl
  | act cause action todo hphase =>
      cases action with
      | sendJoinNone => exact .inr (.inl ⟨rfl, fun hrunning => by cases hrunning⟩)
      | _ => exact .inl rfl
  | _ => exact .inl rfl

theorem not_running_of_none_mem (h : Reachable s) (hnone : none ∈ s.join) :
    s.phase ≠ .running := by
  revert hnone
  refine h.induction (P := fun s => none ∈ s.join → s.phase ≠ .running) ?_ ?_
  · intro neighbors cancelled hnone
    cases hnone
  · intro s t _ hstep hs hnone
    rcases join_of_steps hstep with hsame | ⟨-, hstopped⟩ | ⟨event, -, hjoin, -⟩
    · exact mt hstep.running (hs (hsame ▸ hnone))
    · exact hstopped
    · rw [hjoin, List.mem_append] at hnone
      exact mt hstep.running (hs (hnone.resolve_right (by simp)))

def NothingUnread (s : State X) (channels : Channels) : Prop :=
  ∃ position, channels.joinChannelReceiver = some position ∧
    ∀ k, position ≤ k → s.join[k]? ≠ some (some ())

def Overrun (s : State X) (channels : Channels) : Prop :=
  ∃ position, channels.joinChannelReceiver = some position ∧
    position + channelCapacity < s.join.length

def Warranted (neighbors : Finset (EndpointId X)) (s : State X) : Handle → Prop
  | .live channels (.joined since stage) => since ≤ s.history.length ∧
      (stage = .answered true → HappenedSince neighbors s.history since) ∧
      (HappenedSince neighbors s.history since ∨ NothingUnread s channels ∨ Overrun s channels ∨
        s.phase ≠ .running ∧ stage = .asking)
  | _ => True

theorem NothingUnread.of_steps {channels : Channels} (hstep : Steps s t)
    (h : NothingUnread s channels) {neighbors : Finset (EndpointId X)} {since : Nat}
    (hsince : since ≤ s.history.length) :
    HappenedSince neighbors t.history since ∨ NothingUnread t channels := by
  obtain ⟨position, hposition, hunread⟩ := h
  rcases join_of_steps hstep with hsame | ⟨hjoin, -⟩ | ⟨event, hevent, -, hhistory⟩
  · exact .inr ⟨position, hposition, fun k hk => hsame ▸ hunread k hk⟩
  · refine .inr ⟨position, hposition, fun k hk hget => ?_⟩
    rw [hjoin, List.getElem?_append] at hget
    split at hget
    · exact hunread k hk hget
    · rw [List.getElem?_singleton] at hget
      split at hget <;> cases hget
  · rw [hhistory]
    exact .inl (happenedSince_of_event hevent hsince)

theorem Overrun.of_steps {channels : Channels} (hstep : Steps s t) (h : Overrun s channels) :
    Overrun t channels := by
  obtain ⟨position, hposition, hlt⟩ := h
  exact ⟨position, hposition, lt_of_lt_of_le hlt (length_join_le hstep)⟩

theorem Warranted.of_steps {neighbors : Finset (EndpointId X)} {handle : Handle}
    (hstep : Steps s t) (h : Warranted neighbors s handle) : Warranted neighbors t handle := by
  cases handle with
  | live channels call =>
      cases call with
      | joined since stage =>
          obtain ⟨hsince, hanswered, hreason⟩ := h
          obtain ⟨entries, hhistory, -⟩ := neighbors_of_steps hstep
          have hkeep : HappenedSince neighbors s.history since →
              HappenedSince neighbors t.history since := by
            intro hhappened
            rw [hhistory]
            exact hhappened.append entries
          refine ⟨?_, fun htrue => hkeep (hanswered htrue), ?_⟩
          · rw [hhistory, List.length_append]
            exact Nat.le_add_right_of_le hsince
          · rcases hreason with hhappened | hunread | hoverrun | ⟨hstopped, hasking⟩
            · exact .inl (hkeep hhappened)
            · exact (hunread.of_steps hstep hsince).imp_right .inl
            · exact .inr (.inr (.inl (hoverrun.of_steps hstep)))
            · exact .inr (.inr (.inr ⟨mt hstep.running hstopped, hasking⟩))
      | _ => trivial
  | _ => trivial

theorem warranted_advance (neighbors : Finset (EndpointId X)) (s : State X)
    (origin : Option Nat) (stage : Stage) :
    Warranted neighbors s (stage.advance s origin) := by
  cases stage with
  | upgradingJoin next =>
      show Warranted neighbors s (if s.joinSenders = 0 then _ else _)
      split <;> trivial
  | _ => trivial

theorem nothingUnread_or_overrun {channels : Channels} {position : Nat}
    (hposition : channels.joinChannelReceiver = some position)
    (h : unread s channels = 0 ∨ channelCapacity < unread s channels) :
    NothingUnread s channels ∨ Overrun s channels := by
  rw [unread, hposition] at h
  rcases h with hread | hbehind
  · refine .inl ⟨position, hposition, fun k hk hget => ?_⟩
    have hlt := (List.getElem?_eq_some_iff.mp hget).1
    have hread : s.join.length - position = 0 := hread
    omega
  · refine .inr ⟨position, hposition, ?_⟩
    have hbehind : channelCapacity < s.join.length - position := hbehind
    omega

theorem warranted_joined {neighbors : Finset (EndpointId X)} {channels : Channels}
    (hneighbors : s.neighbors = s.history.foldl noteNeighbor neighbors)
    (hsubscribed : JoinSubscribed s (.live channels .idle))
    (htimely : TimelyOn s (some (.live channels .idle)) .joined) :
    Warranted neighbors s (.live channels (.joined s.history.length .asking)) := by
  refine ⟨le_rfl, (fun hstage => by cases hstage), ?_⟩
  by_cases hrunning : s.phase = .running
  · by_cases halone : s.neighbors = ∅
    · obtain ⟨position, hposition, -, -⟩ := hsubscribed hrunning
      rcases nothingUnread_or_overrun hposition (htimely hrunning halone) with
        hunread | hoverrun
      · exact .inr (.inl hunread)
      · exact .inr (.inr (.inl hoverrun))
    · refine .inl (happenedSince_of_neighbors le_rfl ?_)
      rw [← hneighbors]
      exact Finset.nonempty_iff_ne_empty.mpr halone
  · exact .inr (.inr (.inr ⟨hrunning, rfl⟩))

theorem warranted_moves {neighbors : Finset (EndpointId X)} {i : Nat} {op : HandleOp}
    {handle handle' : Handle} {entry : Option (Entry X)}
    (hneighbors : s.neighbors = s.history.foldl noteNeighbor neighbors)
    (hsubscribed : JoinSubscribed s handle) (htimely : TimelyOn s (some handle) op)
    (hmove : Moves s i handle op handle' entry) (h : Warranted neighbors s handle) :
    Warranted neighbors s handle' := by
  cases hmove with
  | build origin stage => exact warranted_advance neighbors s origin stage
  | joined channels => exact warranted_joined hneighbors hsubscribed htimely
  | answer channels since hrunning =>
      obtain ⟨hsince, -, hreason⟩ := h
      refine ⟨hsince, ?_, ?_⟩
      · intro hanswered
        have hjoined : s.isJoined = true := JoinedStage.answered.inj hanswered
        apply happenedSince_of_neighbors hsince
        rw [← hneighbors]
        exact of_decide_eq_true hjoined
      · exact hreason.imp_right fun hrest => hrest.imp_right fun hrest =>
          hrest.imp_right fun hstopped => absurd hrunning hstopped.1
  | wait channels since =>
      obtain ⟨hsince, -, hreason⟩ := h
      refine ⟨hsince, (fun hstage => by cases hstage), ?_⟩
      exact hreason.imp_right fun hrest => hrest.imp_right fun hrest =>
        hrest.imp_right fun hasking => by cases hasking.2
  | _ => trivial

structure Tracked (neighbors : Finset (EndpointId X)) (s : State X) : Prop where
  reachable : Reachable s
  followed : s.neighbors = s.history.foldl noteNeighbor neighbors
  warranted : ∀ handle ∈ s.handles, Warranted neighbors s handle

theorem tracked_start (neighbors : Finset (EndpointId X)) (cancelled : Bool) :
    Tracked neighbors (State.start neighbors cancelled) := by
  refine ⟨⟨neighbors, cancelled, [], rfl⟩, rfl, ?_⟩
  intro handle hhandle
  obtain rfl := List.mem_singleton.mp hhandle
  trivial

theorem neighbors_eq_foldl {neighbors : Finset (EndpointId X)} (hstep : Steps s t)
    (h : s.neighbors = s.history.foldl noteNeighbor neighbors) :
    t.neighbors = t.history.foldl noteNeighbor neighbors := by
  obtain ⟨entries, hhistory, hneighbors⟩ := neighbors_of_steps hstep
  rw [hhistory, List.foldl_append, ← h, hneighbors]

theorem entry_of_append {history : List (Entry X)} {entry : Option (Entry X)} {last : Entry X}
    (h : history ++ entry.toList = history ++ [last]) : entry = some last := by
  rw [List.append_cancel_left_eq] at h
  cases entry with
  | none => cases h
  | some entry => rw [List.singleton_injective h]

/-- Steps that move no receiver: they may start a clone, and no call returns. -/
structure Unmoved (s t : State X) : Prop where
  handles : ∀ handle ∈ t.handles,
    handle ∈ s.handles ∨ ∃ i, handle = .building (some i) .upgradingNext
  history : ∀ i since result, t.history ≠ s.history ++ [.joinedReturned i since result]

theorem unmoved_of_same (entry : Option (Entry X)) (hhandles : t.handles = s.handles)
    (hhistory : t.history = s.history ++ entry.toList)
    (hentry : ∀ i since result, entry ≠ some (.joinedReturned i since result)) :
    Unmoved s t := by
  refine ⟨fun handle hhandle => .inl (hhandles ▸ hhandle), ?_⟩
  intro i since result heq
  rw [hhistory] at heq
  exact hentry i since result (entry_of_append heq)

theorem moves_or_unmoved {op : Op X} (h : step s op = some t) :
    (∃ i handleOp before after entry, op = .handle i handleOp ∧
      s.handles[i]? = some before ∧ Moves s i before handleOp after entry ∧
      t = { s with handles := s.handles.set i after, history := s.history ++ entry.toList }) ∨
      Unmoved s t := by
  have hsame : Unmoved s s := unmoved_of_same none rfl (List.append_nil _).symm (by simp)
  cases op with
  | event event =>
      obtain ⟨-, hstate⟩ := Option.ite_none_right_eq_some.mp h
      obtain rfl := Option.some.inj hstate
      right
      apply unmoved_of_same (some (.processed event))
      · cases event <;> rfl
      · cases event <;> rfl
      · simp
  | query =>
      obtain ⟨-, hstate⟩ := Option.ite_none_right_eq_some.mp h
      obtain rfl := Option.some.inj hstate
      exact .inr hsame
  | stop cause =>
      obtain ⟨-, hstate⟩ := Option.ite_none_right_eq_some.mp h
      obtain rfl := Option.some.inj hstate
      exact .inr ⟨hsame.handles, hsame.history⟩
  | act =>
      simp only [step] at h
      split at h
      · rename_i cause action todo hphase
        obtain rfl := Option.some.inj h
        right
        cases action with
        | dropJoinSender => exact unmoved_of_same (some .actorDropped) rfl rfl (by simp)
        | _ => exact ⟨hsame.handles, hsame.history⟩
      · cases h
  | cancelToken =>
      obtain rfl := Option.some.inj h
      exact .inr ⟨hsame.handles, hsame.history⟩
  | clone i =>
      simp only [step] at h
      split at h
      · obtain rfl := Option.some.inj h
        refine .inr ⟨fun handle hhandle => ?_, hsame.history⟩
        exact (List.mem_append.mp hhandle).imp_right fun hnew => ⟨i, List.mem_singleton.mp hnew⟩
      · cases h
  | handle i handleOp =>
      obtain ⟨before, hget, hmoved⟩ := Option.bind_eq_some_iff.mp h
      obtain ⟨moved, hmove, rfl⟩ := Option.map_eq_some_iff.mp hmoved
      exact .inl ⟨i, handleOp, before, moved.1, moved.2, rfl, hget, moves_of_move hmove, rfl⟩

theorem Tracked.of_step {neighbors : Finset (EndpointId X)} {op : Op X}
    (hstep : step s op = some t) (htimely : Timely s op) (h : Tracked neighbors s) :
    Tracked neighbors t := by
  have hsteps := steps_of_step hstep
  have hone : run step s [op] = some t := run_cons_eq_some_iff.mpr ⟨t, hstep, rfl⟩
  refine ⟨h.reachable.run hone, neighbors_eq_foldl hsteps h.followed, ?_⟩
  intro handle hhandle
  refine Warranted.of_steps hsteps ?_
  rcases moves_or_unmoved hstep with
    ⟨i, handleOp, before, after, entry, rfl, hget, hmove, rfl⟩ | hunmoved
  · rcases List.mem_or_eq_of_mem_set hhandle with hold | rfl
    · exact h.warranted handle hold
    · have hmem := List.mem_of_getElem? hget
      rw [Timely, hget] at htimely
      exact warranted_moves h.followed (joinSubscribed_of_reachable h.reachable before hmem)
        htimely hmove (h.warranted before hmem)
  · rcases hunmoved.handles handle hhandle with hold | ⟨i, rfl⟩
    · exact h.warranted handle hold
    · trivial

theorem return_cases {op : Op X} {i since : Nat} {result : Except ChannelError Unit}
    (hstep : step s op = some t)
    (hhistory : t.history = s.history ++ [.joinedReturned i since result]) :
    (s.phase ≠ .running ∧ result = .error .closed) ∨
      (∃ channels, s.handles[i]? = some (.live channels (.joined since (.answered true))) ∧
        result = .ok ()) ∨
      ∃ channels, op = .handle i .poll ∧
        s.handles[i]? = some (.live channels (.joined since .waiting)) ∧
        (s.pollJoin channels).1 = some result := by
  rcases moves_or_unmoved hstep with
    ⟨j, handleOp, before, after, entry, rfl, hget, hmove, rfl⟩ | hunmoved
  · have hentry := entry_of_append hhistory
    cases hmove with
    | refuse channels since' hstopped =>
        cases hentry
        exact .inl ⟨hstopped, rfl⟩
    | isJoined channels since' =>
        cases hentry
        exact .inr (.inl ⟨channels, hget, rfl⟩)
    | joinReturns channels since' result' hresult =>
        cases hentry
        exact .inr (.inr ⟨channels, rfl, hget, hresult⟩)
    | _ => cases hentry
  · exact absurd hhistory (hunmoved.history i since result)

theorem pollJoin_cases {channels : Channels} {result : Except ChannelError Unit}
    (h : (s.pollJoin channels).1 = some result) :
    (result = .ok () ∧ ¬ Overrun s channels ∧ ¬ NothingUnread s channels) ∨
      (∃ skipped, result = .error (.lagged skipped) ∧ Overrun s channels) ∨
      (result = .error .closed ∧
        (channels.joinChannelReceiver = none ∨ none ∈ s.join ∨ s.joinSenders = 0)) := by
  rcases channels with ⟨next, join⟩
  cases join with
  | none => exact .inr (.inr ⟨(Option.some.inj h).symm, .inl rfl⟩)
  | some position =>
      simp only [State.pollJoin, pollRecv] at h
      rcases recv_cases channelCapacity s.join s.joinSenders position with
        ⟨hlag, hrecv⟩ | ⟨value, hget, -, hrecv⟩ | ⟨-, hrecv⟩
      · rw [hrecv] at h
        exact .inr (.inl ⟨_, (Option.some.inj h).symm, position, rfl, hlag⟩)
      · rw [hrecv] at h
        cases value with
        | none =>
            exact .inr (.inr ⟨(Option.some.inj h).symm, .inr (.inl (List.mem_of_getElem? hget))⟩)
        | some value =>
            refine .inl ⟨(Option.some.inj h).symm, ?_, ?_⟩
            · rintro ⟨position', hposition, hlag⟩
              obtain rfl := Option.some.inj hposition
              rw [recv_of_lagging hlag] at hrecv
              cases hrecv
            · rintro ⟨position', hposition, hunread⟩
              obtain rfl := Option.some.inj hposition
              exact hunread position le_rfl hget
      · rw [hrecv] at h
        by_cases hsenders : s.joinSenders = 0
        · rw [if_pos hsenders] at h
          exact .inr (.inr ⟨(Option.some.inj h).symm, .inr (.inr hsenders)⟩)
        · rw [if_neg hsenders] at h
          cases h

theorem not_running_of_end (hreachable : Reachable s) {channels : Channels} {call : Call}
    (hsubscribed : JoinSubscribed s (.live channels call))
    (h : channels.joinChannelReceiver = none ∨ none ∈ s.join ∨ s.joinSenders = 0) :
    s.phase ≠ .running := by
  intro hrunning
  rcases h with hnone | hnone | hsenders
  · obtain ⟨position, hposition, -, -⟩ := hsubscribed hrunning
    rw [hnone] at hposition
    cases hposition
  · exact not_running_of_none_mem hreachable hnone hrunning
  · exact State.joinSenders_ne_zero hrunning hsenders

theorem overrun_iff {channels : Channels} :
    Overrun s channels ↔ channelCapacity < unread s channels := by
  rw [Overrun, unread]
  cases channels.joinChannelReceiver with
  | none => simp
  | some position =>
      simp only [Option.some.injEq, exists_eq_left']
      omega

theorem Tracked.justified {neighbors : Finset (EndpointId X)} {op : Op X}
    (h : Tracked neighbors s) (htimely : Timely s op) : ReturnsJustified neighbors s op := by
  intro t i since result hstep hhistory
  rcases return_cases hstep hhistory with
    ⟨hstopped, rfl⟩ | ⟨channels, hget, rfl⟩ | ⟨channels, rfl, hget, hresult⟩
  · exact .inr hstopped
  · exact (h.warranted _ (List.mem_of_getElem? hget)).2.1 rfl
  · have hmem := List.mem_of_getElem? hget
    obtain ⟨-, -, hreason⟩ := h.warranted _ hmem
    rw [Timely, hget] at htimely
    rcases pollJoin_cases hresult with
      ⟨rfl, hinTime, hread⟩ | ⟨skipped, rfl, hoverrun⟩ | ⟨rfl, hend⟩
    · rcases hreason with hhappened | hunread | hoverrun | ⟨-, hasking⟩
      · exact hhappened
      · exact absurd hunread hread
      · exact absurd hoverrun hinTime
      · cases hasking
    · rcases htimely with htold | hinTime
      · exact htold
      · exact absurd (overrun_iff.mp hoverrun) (Nat.not_lt.mpr hinTime)
    · have hsubscribed := joinSubscribed_of_reachable h.reachable _ hmem
      exact .inr (not_running_of_end h.reachable hsubscribed hend)

theorem exists_step_handle {i : Nat} {op : HandleOp} {handle : Handle}
    {moved : Handle × Option (Entry X)} (hget : s.handles[i]? = some handle)
    (hmove : s.move i handle op = some moved) : ∃ t, step s (.handle i op) = some t ∧
      t.handles[i]? = some moved.1 ∧ t.join = s.join ∧
      t.history = s.history ++ moved.2.toList :=
  ⟨_, step_handle hget hmove,
    List.getElem?_set_self (List.getElem?_eq_some_iff.mp hget).1, rfl, rfl⟩

theorem pollJoin_of_unread {channels : Channels} (hnone : none ∉ s.join)
    (hunread : 0 < unread s channels) (hinTime : unread s channels ≤ channelCapacity) :
    (s.pollJoin channels).1 = some (.ok ()) := by
  rcases channels with ⟨next, join⟩
  cases join with
  | none => exact absurd hunread (Nat.lt_irrefl 0)
  | some position =>
      have hunread : 0 < s.join.length - position := hunread
      have hinTime : s.join.length - position ≤ channelCapacity := hinTime
      have hlt : position < s.join.length := by omega
      have hget := List.getElem?_eq_getElem hlt
      have hvalue : s.join[position] ≠ none := fun heq => hnone (heq ▸ List.getElem_mem hlt)
      obtain ⟨value, hvalue⟩ := Option.ne_none_iff_exists'.mp hvalue
      rw [hvalue] at hget
      simp only [State.pollJoin, pollRecv]
      rw [recv_of_kept (by omega) hget]
      rfl

/-- A call that begins without a neighbour and finds an older announcement returns at
once when nothing comes in between. -/
theorem stale_run {channels : Channels} {since i : Nat}
    (hget : s.handles[i]? = some (.live channels (.joined since .asking)))
    (hrunning : s.phase = .running) (halone : s.neighbors = ∅) (hnone : none ∉ s.join)
    (hunread : 0 < unread s channels) (hinTime : unread s channels ≤ channelCapacity) :
    ∃ m t, run step s [.handle i .answer, .handle i .resume] = some m ∧
      step m (.handle i .poll) = some t ∧ m.history = s.history ∧
      t.history = m.history ++ [.joinedReturned i since (.ok ())] := by
  have hanswer : s.move i (.live channels (.joined since .asking)) .answer =
      some (.live channels (.joined since (.answered false)), none) := by
    have hjoined : s.isJoined = false := by simp [State.isJoined, halone]
    simp [State.move, hrunning, hjoined]
  obtain ⟨l, hl, hgetl, hjoinl, hhistoryl⟩ := exists_step_handle hget hanswer
  have hresume : l.move i (.live channels (.joined since (.answered false))) .resume =
      some (.live channels (.joined since .waiting), none) := rfl
  obtain ⟨m, hm, hgetm, hjoinm, hhistorym⟩ := exists_step_handle hgetl hresume
  have hjoin : m.join = s.join := hjoinm.trans hjoinl
  have hpoll : (m.pollJoin channels).1 = some (.ok ()) := by
    have hsame : unread m channels = unread s channels := by rw [unread, unread, hjoin]
    apply pollJoin_of_unread
    · rwa [hjoin]
    · rwa [hsame]
    · rwa [hsame]
  have hreturn : m.move i (.live channels (.joined since .waiting)) .poll =
      some (.live (m.pollJoin channels).2 .idle, some (.joinedReturned i since (.ok ()))) := by
    rw [State.move, hpoll]
    rfl
  obtain ⟨t, ht, -, -, hhistory⟩ := exists_step_handle hgetm hreturn
  refine ⟨m, t, ?_, ht, ?_, hhistory⟩
  · exact run_cons_eq_some_iff.mpr ⟨l, hl, run_cons_eq_some_iff.mpr ⟨m, hm, rfl⟩⟩
  · simp [hhistorym, hhistoryl]

theorem untimely_cases {op : Op X} (h : ¬ Timely s op) :
    (∃ i channels, op = .handle i .joined ∧ s.handles[i]? = some (.live channels .idle) ∧
      s.phase = .running ∧ s.neighbors = ∅ ∧ 0 < unread s channels ∧
        unread s channels ≤ channelCapacity) ∨
      ∃ i channels since, op = .handle i .poll ∧
        s.handles[i]? = some (.live channels (.joined since .waiting)) ∧ ¬ ToldToStop s ∧
          channelCapacity < unread s channels := by
  cases op with
  | handle i handleOp =>
      change ¬ TimelyOn s s.handles[i]? handleOp at h
      unfold TimelyOn at h
      split at h
      · rename_i channels hget
        simp only [not_forall, not_or, not_lt, exists_prop] at h
        obtain ⟨hrunning, halone, hunread, hinTime⟩ := h
        exact .inl ⟨i, channels, rfl, hget, hrunning, halone, Nat.pos_of_ne_zero hunread, hinTime⟩
      · rename_i channels since hget
        rw [not_or, not_le] at h
        exact .inr ⟨i, channels, since, rfl, hget, h.1, h.2⟩
      · exact absurd trivial h
  | _ => exact absurd trivial h

theorem followed_of_run {neighbors : Finset (EndpointId X)} {cancelled : Bool}
    {ops : List (Op X)} (hrun : run step (State.start neighbors cancelled) ops = some s) :
    s.neighbors = s.history.foldl noteNeighbor neighbors :=
  run_preserves (P := fun s => s.neighbors = s.history.foldl noteNeighbor neighbors)
    (fun _ _ _ hstep hs => neighbors_eq_foldl (steps_of_step hstep) hs) hrun rfl

theorem step_joined_eq {i : Nat} {channels : Channels}
    (hget : s.handles[i]? = some (.live channels .idle))
    (hstep : step s (.handle i .joined) = some t) :
    t = { s with
      handles := s.handles.set i (.live channels (.joined s.history.length .asking)) } := by
  rw [step, hget, Option.bind_some, Option.map_eq_some_iff] at hstep
  obtain ⟨moved, hmove, rfl⟩ := hstep
  obtain ⟨-, hmoved⟩ := Option.ite_none_left_eq_some.mp hmove
  obtain rfl := Option.some.inj hmoved
  simp

theorem unjustified_of_stale {neighbors : Finset (EndpointId X)} {cancelled : Bool}
    {ops : List (Op X)} {i : Nat} {channels : Channels}
    (hrun : run step (State.start neighbors cancelled) ops = some s)
    (hstep : step s (.handle i .joined) = some t)
    (hget : s.handles[i]? = some (.live channels .idle)) (hrunning : s.phase = .running)
    (halone : s.neighbors = ∅) (hunread : 0 < unread s channels)
    (hinTime : unread s channels ≤ channelCapacity) :
    ∃ rest u, run step t rest = some u ∧
      ¬ AllSteps step (ReturnsJustified neighbors) (State.start neighbors cancelled)
        (ops ++ .handle i .joined :: rest) := by
  have hfollowed := followed_of_run hrun
  have hnone : none ∉ s.join := fun hmem =>
    not_running_of_none_mem ⟨neighbors, cancelled, ops, hrun⟩ hmem hrunning
  have ht := step_joined_eq hget hstep
  have hgett : t.handles[i]? =
      some (.live channels (.joined s.history.length .asking)) := by
    rw [ht]
    exact List.getElem?_set_self (List.getElem?_eq_some_iff.mp hget).1
  obtain ⟨m, u, hm, hu, hhistory, hreturn⟩ := stale_run hgett (by rw [ht]; exact hrunning)
    (by rw [ht]; exact halone) (by rw [ht]; exact hnone) (by rw [ht]; exact hunread)
    (by rw [ht]; exact hinTime)
  have hsame : m.history = s.history := by rw [hhistory, ht]
  have hbefore : run step (State.start neighbors cancelled)
      (ops ++ .handle i .joined :: [.handle i .answer, .handle i .resume]) = some m := by
    rw [run_append, hrun, Option.bind_some]
    exact run_cons_eq_some_iff.mpr ⟨t, hstep, hm⟩
  have hunjustified : ¬ Justified neighbors m s.history.length (.ok ()) := by
    rw [Justified, hsame]
    apply not_happenedSince_length
    rw [← hfollowed]
    exact halone
  refine ⟨[.handle i .answer, .handle i .resume] ++ [.handle i .poll], u, ?_, ?_⟩
  · rw [run_append, hm, Option.bind_some]
    exact run_cons_eq_some_iff.mpr ⟨u, hu, rfl⟩
  · intro hall
    rw [← List.cons_append, ← List.append_assoc] at hall
    exact hunjustified (hall.of_run_append hbefore u i _ _ hu hreturn)

/-- A call that has fallen behind fails although nobody has told the actor to stop. -/
theorem exists_lagged_return {i since : Nat} {channels : Channels}
    (hget : s.handles[i]? = some (.live channels (.joined since .waiting)))
    (hbehind : channelCapacity < unread s channels) :
    ∃ u skipped, step s (.handle i .poll) = some u ∧
      u.history = s.history ++ [.joinedReturned i since (.error (.lagged skipped))] := by
  obtain ⟨position, hposition, hlag⟩ := overrun_iff.mpr hbehind
  have hpoll : (s.pollJoin channels).1 =
      some (.error (.lagged (s.join.length - channelCapacity - position))) := by
    simp only [State.pollJoin, pollRecv, hposition]
    rw [recv_of_lagging hlag]
    rfl
  have hmove : s.move i (.live channels (.joined since .waiting)) .poll =
      some (.live (s.pollJoin channels).2 .idle, some (.joinedReturned i since
        (.error (.lagged (s.join.length - channelCapacity - position))))) := by
    rw [State.move, hpoll]
    rfl
  obtain ⟨u, hu, -, -, hhistory⟩ := exists_step_handle hget hmove
  exact ⟨u, _, hu, hhistory⟩

/-- What `joined` returns is justified in every run whose steps are all timely, and every
other step can be followed by an unjustified return. -/
theorem joined_reports {neighbors : Finset (EndpointId X)} {cancelled : Bool}
    {ops : List (Op X)} (hrun : run step (State.start neighbors cancelled) ops = some s) :
    (AllSteps step Timely (State.start neighbors cancelled) ops →
      AllSteps step (ReturnsJustified neighbors) (State.start neighbors cancelled) ops) ∧
    ∀ op t, step s op = some t → ¬ Timely s op → ∃ rest u, run step t rest = some u ∧
      ¬ AllSteps step (ReturnsJustified neighbors) (State.start neighbors cancelled)
        (ops ++ op :: rest) := by
  constructor
  · intro htimely
    exact htimely.imp (P := Tracked neighbors) (fun s op t hstep hop hs => hs.of_step hstep hop)
      (fun s op hop hs => hs.justified hop) (tracked_start neighbors cancelled)
  · intro op t hstep huntimely
    rcases untimely_cases huntimely with
      ⟨i, channels, rfl, hget, hrunning, halone, hunread, hinTime⟩ |
        ⟨i, channels, since, rfl, hget, hfree, hbehind⟩
    · exact unjustified_of_stale hrun hstep hget hrunning halone hunread hinTime
    · obtain ⟨u, skipped, hu, hreturn⟩ := exists_lagged_return hget hbehind
      refine ⟨[], t, rfl, fun hall => ?_⟩
      exact hfree (hall.of_run_append hrun u i since _ hu hreturn)

def promptRun : List (Op reference) :=
  [.handle 0 .build, .handle 0 .build, .handle 0 .joined, .handle 0 .answer, .handle 0 .resume,
    .event (.neighborUp sampleEndpoint), .handle 0 .poll]

theorem timely_promptRun : AllSteps step Timely (State.start ∅ false) promptRun := by
  refine .cons trivial rfl (.cons trivial rfl (.cons ?_ rfl (.cons trivial rfl (.cons trivial rfl
    (.cons trivial rfl (.cons ?_ rfl trivial))))))
  · exact fun _ _ => .inl rfl
  · exact .inr (by decide)

theorem joined_reports_promptRun : ∃ s, run step (State.start ∅ false) promptRun = some s ∧
    s.history = [.processed (.neighborUp sampleEndpoint), .joinedReturned 0 0 (.ok ())] ∧
    AllSteps step (ReturnsJustified ∅) (State.start ∅ false) promptRun := by
  obtain ⟨s, hrun, hhistory⟩ : ∃ s, run step (State.start ∅ false) promptRun = some s ∧
      s.history = [.processed (.neighborUp sampleEndpoint), .joinedReturned 0 0 (.ok ())] :=
    ⟨_, rfl, rfl⟩
  exact ⟨s, hrun, hhistory, (joined_reports hrun).1 timely_promptRun⟩

/-- A neighbour has come and gone before the call begins. -/
def staleRun : List (Op reference) :=
  [.handle 0 .build, .handle 0 .build, .event (.neighborUp sampleEndpoint),
    .event (.neighborDown sampleEndpoint), .handle 0 .joined, .handle 0 .answer,
    .handle 0 .resume]

/-- So many announcements arrive during the call that it misses the first one. -/
def floodedRun : List (Op reference) :=
  [.handle 0 .build, .handle 0 .build, .handle 0 .joined, .handle 0 .answer, .handle 0 .resume] ++
    List.replicate 65 (.event (.neighborUp sampleEndpoint))

/-- A call reports a neighbour that has gone before it began, and a call that has missed
an announcement fails although the actor runs on. -/
theorem joined_misreports :
    (∃ s t, run step (State.start ∅ false) staleRun = some s ∧
      step s (.handle 0 .poll) = some t ∧
      t.history = s.history ++ [.joinedReturned 0 2 (.ok ())] ∧ ¬ Justified ∅ s 2 (.ok ())) ∧
    ∃ s t skipped, run step (State.start ∅ false) floodedRun = some s ∧
      step s (.handle 0 .poll) = some t ∧
      t.history = s.history ++ [.joinedReturned 0 0 (.error (.lagged skipped))] ∧
      ¬ Justified ∅ s 0 (.error (.lagged skipped)) := by
  constructor
  · have hgone : ¬ HappenedSince ∅ [.processed (.neighborUp sampleEndpoint),
        .processed (.neighborDown sampleEndpoint)] 2 := not_happenedSince_length (by decide)
    exact ⟨_, _, rfl, rfl, rfl, hgone⟩
  · have hflooded : ∃ s ∈ run step (State.start ∅ false) floodedRun,
        s.handles[0]? = some (.live ⟨some 0, some 0⟩ (.joined 0 .waiting)) ∧
          s.phase = .running ∧ s.cancelled = false ∧ s.join.length = 65 := by
      decide +kernel
    obtain ⟨s, hrun, hget, hrunning, hfree, hsent⟩ := hflooded
    have hbehind : channelCapacity < unread s ⟨some 0, some 0⟩ := by
      rw [unread, hsent]
      decide
    obtain ⟨t, skipped, ht, hhistory⟩ := exists_lagged_return hget hbehind
    refine ⟨s, t, skipped, hrun, ht, hhistory, ?_⟩
    rintro (hcancelled | hstopped)
    · rw [hfree] at hcancelled
      cases hcancelled
    · exact hstopped hrunning

end TopicTracker.JoinedReports
