import TopicTracker.GossipReceiver

namespace TopicTracker.ChannelClosing

open TopicTracker.BroadcastChannel
open TopicTracker.ThirdParty
open TopicTracker.GossipReceiver

variable {X : Externals} {s t : State X}

/-- Nothing more is sent to the event channel. -/
def NextEnded (s : State X) : Prop :=
  ∃ cause todo, s.phase = .stopping cause todo ∧ .sendNextNone ∉ todo

theorem NextEnded.not_running (h : NextEnded s) : s.phase ≠ .running := by
  rcases h with ⟨cause, todo, hphase, -⟩
  rw [hphase]
  exact fun hrunning => by cases hrunning

theorem not_mem_todo {cause : StopCause} {action : Action} {todo : List Action}
    (h : action :: todo <:+ cause.todo) : action ∉ todo := by
  have hnodup : cause.todo.Nodup := by cases cause <;> decide
  exact (List.nodup_cons.mp (hnodup.sublist h.sublist)).1

theorem sendNextNone_not_mem {cause : StopCause} {todo : List Action}
    (h : todo <:+ cause.todo) (hdropped : .dropNextSender ∉ todo) : .sendNextNone ∉ todo := by
  have hall : ∀ todo ∈ cause.todo.tails,
      Action.dropNextSender ∉ todo → Action.sendNextNone ∉ todo := by
    cases cause <;> decide
  exact hall todo ((List.mem_tails todo cause.todo).mpr h) hdropped

/-- The actions left are an end of the cause's, `None` is the last event, the token is
cancelled or about to be, and so is the drop of the actor. -/
structure Stopping (s : State X) : Prop where
  todo : ∀ cause todo, s.phase = .stopping cause todo → todo <:+ cause.todo
  sentinel : ∀ k : Nat, s.next[k]? = some none → k + 1 = s.next.length ∧ NextEnded s
  cancelled : ∀ cause todo, s.phase = .stopping cause todo → cause ≠ .handlesGone →
    s.cancelled = true ∨ .cancel ∈ todo
  dropped : ∀ cause todo, s.phase = .stopping cause todo →
    .actorDropped ∈ s.history ∨ .dropJoinSender ∈ todo

theorem Stopping.of_frame (h : Stopping s) (hphase : t.phase = s.phase) (hnext : t.next = s.next)
    (hcancelled : s.cancelled = true → t.cancelled = true) (hhistory : s.history ⊆ t.history) :
    Stopping t where
  todo cause todo ht := h.todo cause todo (hphase ▸ ht)
  sentinel k hk := by
    obtain ⟨hlast, cause, todo, hs, hmem⟩ := h.sentinel k (hnext ▸ hk)
    exact ⟨hnext ▸ hlast, cause, todo, hphase.trans hs, hmem⟩
  cancelled cause todo ht hcause :=
    (h.cancelled cause todo (hphase ▸ ht) hcause).imp_left hcancelled
  dropped cause todo ht := (h.dropped cause todo (hphase ▸ ht)).imp_left fun hmem => hhistory hmem

theorem Stopping.of_event (h : Stopping s) (hrunning : s.phase = .running) {event : Event X}
    (hphase : t.phase = .running) (hnext : t.next = s.next ++ [some event]) : Stopping t where
  todo cause todo ht := by
    rw [hphase] at ht
    cases ht
  sentinel k hk := by
    rw [hnext, List.getElem?_append] at hk
    split at hk
    · exact absurd hrunning (h.sentinel k hk).2.not_running
    · rw [List.getElem?_singleton] at hk
      split at hk <;> cases hk
  cancelled cause todo ht := by
    rw [hphase] at ht
    cases ht
  dropped cause todo ht := by
    rw [hphase] at ht
    cases ht

theorem Stopping.of_stop (h : Stopping s) (hrunning : s.phase = .running) {cause : StopCause}
    (hcause : s.canStop cause = true) :
    Stopping { s with phase := .stopping cause cause.todo } where
  todo cause' todo ht := by
    cases ht
    exact List.suffix_rfl
  sentinel k hk := absurd hrunning (h.sentinel k hk).2.not_running
  cancelled cause' todo ht hne := by
    cases ht
    cases cause with
    | streamEnd => exact .inr (by decide)
    | streamError => exact .inr (by decide)
    | cancelled => exact .inl hcause
    | handlesGone => exact absurd rfl hne
  dropped cause' todo ht := by
    cases ht
    exact .inr (List.mem_append_right _ (by decide))

theorem perform_next (s : State X) {action : Action} (h : action ≠ .sendNextNone) :
    (s.perform action).next = s.next := by
  cases action with
  | sendNextNone => exact absurd rfl h
  | _ => rfl

theorem Stopping.of_act (h : Stopping s) {cause : StopCause} {action : Action}
    {todo : List Action} (hphase : s.phase = .stopping cause (action :: todo)) :
    Stopping { s.perform action with phase := .stopping cause todo } where
  todo cause' todo' ht := by
    cases ht
    exact (List.suffix_cons action todo).trans (h.todo cause _ hphase)
  sentinel k hk := by
    have honce : action ∉ todo := not_mem_todo (h.todo cause _ hphase)
    by_cases haction : action = .sendNextNone
    · subst haction
      have hfirst : ∀ k : Nat, s.next[k]? ≠ some none := by
        intro k hk
        obtain ⟨-, cause', todo', hphase', hmem⟩ := h.sentinel k hk
        rw [hphase] at hphase'
        cases hphase'
        exact hmem List.mem_cons_self
      refine ⟨?_, cause, todo, rfl, honce⟩
      change (s.next ++ [none])[k]? = some none at hk
      show k + 1 = (s.next ++ [none]).length
      have hlt : k < (s.next ++ [none]).length := (List.getElem?_eq_some_iff.mp hk).1
      rw [List.getElem?_append] at hk
      split at hk
      · exact absurd hk (hfirst k)
      · rw [List.length_append, List.length_singleton] at hlt ⊢
        omega
    · change (s.perform action).next[k]? = some none at hk
      show k + 1 = (s.perform action).next.length ∧ _
      rw [perform_next s haction] at hk ⊢
      obtain ⟨hlast, cause', todo', hphase', hmem⟩ := h.sentinel k hk
      rw [hphase] at hphase'
      cases hphase'
      exact ⟨hlast, cause, todo, rfl, fun hin => hmem (List.mem_cons_of_mem _ hin)⟩
  cancelled cause' todo' ht hcause := by
    cases ht
    rcases h.cancelled cause _ hphase hcause with hcancelled | hmem
    · cases action <;> first | exact .inl hcancelled | exact .inl rfl
    · rcases List.mem_cons.mp hmem with rfl | hlater
      · exact .inl rfl
      · exact .inr hlater
  dropped cause' todo' ht := by
    cases ht
    rcases h.dropped cause _ hphase with hdropped | hmem
    · left
      cases action <;> first | exact hdropped | exact List.mem_append_left _ hdropped
    · rcases List.mem_cons.mp hmem with rfl | hlater
      · exact .inl (List.mem_append_right _ List.mem_cons_self)
      · exact .inr hlater

theorem stopping_of_reachable (h : Reachable s) : Stopping s := by
  refine h.induction (P := Stopping) ?_ ?_
  · intro neighbors cancelled
    refine ⟨?_, ?_, ?_, ?_⟩
    · exact fun cause todo hphase => by cases hphase
    · exact fun k hk => by cases hk
    · exact fun cause todo hphase => by cases hphase
    · exact fun cause todo hphase => by cases hphase
  · intro s t _ hstep hs
    cases hstep with
    | event event hrunning =>
        cases event <;> exact hs.of_event hrunning hrunning rfl
    | query => exact hs
    | stop cause hrunning hcause => exact hs.of_stop hrunning hcause
    | act cause action todo hphase => exact hs.of_act hphase
    | cancelToken => exact hs.of_frame rfl rfl (fun _ => rfl) (List.Subset.refl _)
    | clone i channels hget => exact hs.of_frame rfl rfl id (List.Subset.refl _)
    | handle i op moved moved' entry hget hmove =>
        exact hs.of_frame rfl rfl id (List.subset_append_left _ _)

theorem nextEnded_of_senders (h : Stopping s) (hsenders : s.nextSenders = 0) : NextEnded s := by
  have hactor : s.phase.holds .dropNextSender = false := by
    rw [State.nextSenders, Nat.add_eq_zero_iff, Bool.toNat_eq_zero] at hsenders
    exact hsenders.1
  cases hphase : s.phase with
  | running =>
      rw [hphase] at hactor
      cases hactor
  | stopping cause todo =>
      rw [hphase, Phase.holds, List.contains_eq_mem, decide_eq_false_iff_not] at hactor
      exact ⟨cause, todo, hphase, sendNextNone_not_mem (h.todo cause todo hphase) hactor⟩

theorem NextEnded.of_steps (h : NextEnded s) (hstep : Steps s t) :
    NextEnded t ∧ t.next = s.next := by
  have hstopped := h.not_running
  rcases h with ⟨cause, todo, hphase, hmem⟩
  have hkeep : s.phase = t.phase → NextEnded t :=
    fun hsame => ⟨cause, todo, hsame.symm.trans hphase, hmem⟩
  cases hstep with
  | event event hrunning => exact absurd hrunning hstopped
  | query => exact ⟨hkeep rfl, rfl⟩
  | stop cause hrunning hcause => exact absurd hrunning hstopped
  | act cause' action todo' hphase' =>
      rw [hphase] at hphase'
      cases hphase'
      refine ⟨⟨cause, todo', rfl, fun hin => hmem (List.mem_cons_of_mem _ hin)⟩, ?_⟩
      exact perform_next s fun haction => hmem (haction ▸ List.mem_cons_self)
  | cancelToken => exact ⟨hkeep rfl, rfl⟩
  | clone i channels hget => exact ⟨hkeep rfl, rfl⟩
  | handle i op moved moved' entry hget hmove => exact ⟨hkeep rfl, rfl⟩

def NextSubscribed (s : State X) : Handle → Prop
  | .building _ (.upgradingJoin next) | .building _ (.subscribingJoin next)
  | .building _ (.droppingJoin next _) => s.phase = .running → next ≠ none
  | .live channels _ => s.phase = .running → channels.nextChannelReceiver ≠ none
  | _ => True

theorem NextSubscribed.mono (hrunning : t.phase = .running → s.phase = .running)
    {handle : Handle} (h : NextSubscribed s handle) : NextSubscribed t handle := by
  cases handle with
  | building origin stage => cases stage <;> first | exact trivial | exact h ∘ hrunning
  | live channels call => exact h ∘ hrunning
  | dropped => trivial

theorem nextSubscribed_advance {origin : Option Nat} {stage : Stage}
    (h : NextSubscribed s (.building origin stage)) :
    NextSubscribed s (stage.advance s origin) := by
  cases stage with
  | constructed => trivial
  | droppedJoinTx => exact fun _ hnone => by cases hnone
  | upgradingNext =>
      show NextSubscribed s (.building origin (if s.nextSenders = 0 then _ else _))
      split
      · rename_i hclosed
        exact fun hrunning => absurd hclosed (State.nextSenders_ne_zero hrunning)
      · trivial
  | subscribingNext => trivial
  | droppingNext next => exact fun _ hnone => by cases hnone
  | upgradingJoin next =>
      show NextSubscribed s (if s.joinSenders = 0 then _ else _)
      split <;> exact h
  | subscribingJoin next => exact h
  | droppingJoin next join => exact h

theorem nextSubscribed_pollNext {channels : Channels} {call : Call}
    (h : NextSubscribed s (.live channels call)) :
    NextSubscribed s (.live (s.pollNext channels).2 .idle) := by
  intro hrunning
  obtain ⟨position, hposition⟩ := Option.ne_none_iff_exists'.mp (h hrunning)
  show (pollRecv s.next s.nextSenders channels.nextChannelReceiver).2 ≠ none
  rw [hposition, pollRecv]
  exact Option.some_ne_none _

theorem nextSubscribed_moves {i : Nat} {op : HandleOp} {handle handle' : Handle}
    {entry : Option (Entry X)} (hmove : Moves s i handle op handle' entry)
    (h : NextSubscribed s handle) : NextSubscribed s handle' := by
  cases hmove with
  | build origin stage => exact nextSubscribed_advance h
  | drop channels => trivial
  | nextReturns channels result hresult => exact nextSubscribed_pollNext h
  | _ => exact h

theorem nextSubscribed_of_reachable (h : Reachable s) :
    ∀ handle ∈ s.handles, NextSubscribed s handle := by
  apply h.forall_handles (P := NextSubscribed)
  · exact fun s => trivial
  · exact fun hstep hhandle => hhandle.mono hstep.running
  · exact fun s i => trivial
  · exact nextSubscribed_moves

/-- The receiver is there and has no more events to read, now or later. -/
def NextExhausted (s : State X) : Handle → Prop
  | .building _ _ => False
  | .live channels _ => ∀ position, channels.nextChannelReceiver = some position →
      s.next.length ≤ position ∧ NextEnded s
  | .dropped => True

theorem NextExhausted.of_steps {handle : Handle} (h : NextExhausted s handle)
    (hstep : Steps s t) : NextExhausted t handle := by
  cases handle with
  | building origin stage => exact h
  | live channels call =>
      intro position hposition
      obtain ⟨hle, hended⟩ := h position hposition
      obtain ⟨hended', hnext⟩ := hended.of_steps hstep
      exact ⟨hnext ▸ hle, hended'⟩
  | dropped => trivial

theorem NextExhausted.pollNext {channels : Channels} {call : Call}
    (h : NextExhausted s (.live channels call)) {result : Except ChannelError (Event X)}
    (hresult : (s.pollNext channels).1 = some result) :
    result = .error .closed ∧ (s.pollNext channels).2 = channels := by
  rcases channels with ⟨next, join⟩
  cases next with
  | none => exact ⟨(Option.some.inj hresult).symm, rfl⟩
  | some position =>
      have hrecv : recv channelCapacity s.next s.nextSenders position =
          (if s.nextSenders = 0 then .closed else .pending, position) :=
        recv_of_end (h position rfl).1
      simp only [State.pollNext, pollRecv, hrecv] at hresult ⊢
      refine ⟨?_, trivial⟩
      split at hresult
      · exact (Option.some.inj hresult).symm
      · cases hresult

/-- A closed result comes from `None`, from a channel without senders, or from an end
that was never subscribed. -/
theorem nextExhausted_of_closed (h : Stopping s) {channels : Channels} {call : Call}
    (hresult : (s.pollNext channels).1 = some (.error .closed)) :
    NextExhausted s (.live (s.pollNext channels).2 call) := by
  rcases channels with ⟨next, join⟩
  cases next with
  | none =>
      intro position hposition
      cases hposition
  | some position =>
      intro position' hposition'
      rcases recv_cases channelCapacity s.next s.nextSenders position with
        ⟨-, hrecv⟩ | ⟨event, hget, -, hrecv⟩ | ⟨hend, hrecv⟩
      · simp [State.pollNext, pollRecv, hrecv, channelResult] at hresult
      · simp only [State.pollNext, pollRecv, hrecv, Option.some.injEq] at hresult hposition'
        cases event with
        | none =>
            obtain ⟨hlast, hended⟩ := h.sentinel position hget
            exact ⟨hposition' ▸ hlast.ge, hended⟩
        | some event => simp [channelResult] at hresult
      · simp only [State.pollNext, pollRecv, hrecv, Option.some.injEq] at hresult hposition'
        refine ⟨hposition' ▸ hend, nextEnded_of_senders h ?_⟩
        by_contra hsenders
        rw [if_neg hsenders] at hresult
        cases hresult

theorem not_running_of_closed (h : Stopping s) {channels : Channels} {call : Call}
    (hsubscribed : NextSubscribed s (.live channels call))
    (hresult : (s.pollNext channels).1 = some (.error .closed)) : s.phase ≠ .running := by
  intro hrunning
  have hafter : NextSubscribed s (.live (s.pollNext channels).2 .idle) :=
    nextSubscribed_pollNext hsubscribed
  obtain ⟨position, hposition⟩ := Option.ne_none_iff_exists'.mp (hafter hrunning)
  have hexhausted : NextExhausted s (.live (s.pollNext channels).2 .idle) :=
    nextExhausted_of_closed h hresult
  exact (hexhausted position hposition).2.not_running hrunning

theorem nextExhausted_moves {i : Nat} {op : HandleOp} {handle handle' : Handle}
    {entry : Option (Entry X)} (hmove : Moves s i handle op handle' entry)
    (h : NextExhausted s handle) : NextExhausted s handle' := by
  cases hmove with
  | build origin stage => exact h.elim
  | drop channels => trivial
  | nextReturns channels result hresult =>
      rw [(h.pollNext hresult).2]
      exact h
  | _ => exact h

structure ClosedForGood (s : State X) : Prop where
  exhausted : ∀ i : Nat, .nextReturned i (.error .closed) ∈ s.history →
    ∃ handle, s.handles[i]? = some handle ∧ NextExhausted s handle
  later : s.history.Pairwise fun before after => ∀ i result,
    before = .nextReturned i (.error .closed) → after = .nextReturned i result →
      result = .error .closed

theorem NextExhausted.getElem? (hstep : Steps s t) {i : Nat}
    (h : ∃ handle, s.handles[i]? = some handle ∧ NextExhausted s handle) :
    ∃ handle, t.handles[i]? = some handle ∧ NextExhausted t handle := by
  rcases h with ⟨handle, hget, hexhausted⟩
  obtain ⟨handle', hget', hsame | ⟨op, entry, hmove⟩⟩ := hstep.getElem? hget
  · exact ⟨handle', hget', hsame ▸ hexhausted.of_steps hstep⟩
  · exact ⟨handle', hget', (nextExhausted_moves hmove hexhausted).of_steps hstep⟩

theorem ClosedForGood.of_steps (h : ClosedForGood s) (hstopping : Stopping s)
    (hstep : Steps s t) : ClosedForGood t := by
  obtain ⟨entry, hhistory, hreported⟩ := hstep.reported
  refine ⟨fun i hmem => ?_, ?_⟩
  · rw [hhistory, List.mem_append, Option.mem_toList] at hmem
    rcases hmem with hbefore | rfl
    · exact NextExhausted.getElem? hstep (h.exhausted i hbefore)
    · rcases hreported with ⟨channels, -, hresult, hget⟩
      exact ⟨_, hget, (nextExhausted_of_closed hstopping hresult).of_steps hstep⟩
  · rw [hhistory, List.pairwise_append]
    refine ⟨h.later, ?_, ?_⟩
    · cases entry with
      | none => exact List.Pairwise.nil
      | some entry => exact List.pairwise_singleton _ _
    · rintro before hbefore after hafter i result rfl rfl
      obtain rfl := Option.mem_toList.mp hafter
      obtain ⟨handle, hget, hexhausted⟩ := h.exhausted i hbefore
      rcases hreported with ⟨channels, hget', hresult, -⟩
      obtain rfl : handle = .live channels .next := Option.some.inj (hget.symm.trans hget')
      exact (hexhausted.pollNext hresult).1

theorem closedForGood_of_reachable (h : Reachable s) : ClosedForGood s := by
  refine h.induction (P := ClosedForGood) ?_ ?_
  · exact fun neighbors cancelled => ⟨fun i hmem => (by cases hmem), List.Pairwise.nil⟩
  · exact fun s t hreachable hstep hs => hs.of_steps (stopping_of_reachable hreachable) hstep

/-- Events that a caller can only see once the loop of the actor is over. -/
def ShowsEnd : Entry X → Prop
  | .actorDropped | .nextReturned _ (.error .closed) => True
  | _ => False

/-- A call that began after such an event is still asking. -/
def AsksAfterEnd (s : State X) : Handle → Prop
  | .live _ (.joined since stage) => since ≤ s.history.length ∧
      ((∃ entry ∈ s.history.take since, ShowsEnd entry) → stage = .asking)
  | _ => True

/-- Such an event means that the actor has stopped, and the calls of `joined` that
began after it fail. -/
structure EndSeen (s : State X) : Prop where
  stopped : ∀ entry ∈ s.history, ShowsEnd entry → s.phase ≠ .running
  handles : ∀ handle ∈ s.handles, AsksAfterEnd s handle
  returned : ∀ i since result, .joinedReturned i since result ∈ s.history →
    since ≤ s.history.length ∧
      ((∃ entry ∈ s.history.take since, ShowsEnd entry) → ∃ error, result = .error error)

theorem take_history {entries : List (Entry X)} (hhistory : t.history = s.history ++ entries)
    {since : Nat} (hsince : since ≤ s.history.length) :
    since ≤ t.history.length ∧ t.history.take since = s.history.take since := by
  rw [hhistory, List.take_append_of_le_length hsince, List.length_append]
  exact ⟨Nat.le_add_right_of_le hsince, rfl⟩

theorem AsksAfterEnd.of_append {entries : List (Entry X)} {handle : Handle}
    (h : AsksAfterEnd s handle) (hhistory : t.history = s.history ++ entries) :
    AsksAfterEnd t handle := by
  cases handle with
  | live channels call =>
      cases call with
      | joined since stage =>
          rcases h with ⟨hsince, hend⟩
          obtain ⟨hle, htake⟩ := take_history hhistory hsince
          exact ⟨hle, htake ▸ hend⟩
      | _ => trivial
  | _ => trivial

theorem asksAfterEnd_advance (s : State X) (origin : Option Nat) (stage : Stage) :
    AsksAfterEnd s (stage.advance s origin) := by
  cases stage with
  | upgradingJoin next =>
      show AsksAfterEnd s (if s.joinSenders = 0 then _ else _)
      split <;> trivial
  | _ => trivial

theorem EndSeen.moves (h : EndSeen s) {i : Nat} {op : HandleOp} {handle handle' : Handle}
    {entry : Option (Entry X)} (hmove : Moves s i handle op handle' entry)
    (hhandle : AsksAfterEnd s handle) : AsksAfterEnd s handle' := by
  cases hmove with
  | build origin stage => exact asksAfterEnd_advance s origin stage
  | joined channels => exact ⟨le_rfl, fun _ => rfl⟩
  | answer channels since hrunning =>
      refine ⟨hhandle.1, ?_⟩
      rintro ⟨entry, hmem, hshows⟩
      exact absurd hrunning (h.stopped entry (List.mem_of_mem_take hmem) hshows)
  | wait channels since => exact ⟨hhandle.1, fun hend => by cases hhandle.2 hend⟩
  | _ => trivial

theorem EndSeen.of_steps (h : EndSeen s) (hreachable : Reachable s) (hstep : Steps s t) :
    EndSeen t := by
  obtain ⟨entry, hhistory, hreported⟩ := hstep.reported
  refine ⟨fun shown hmem hshows => ?_, ?_, fun i since result hmem => ?_⟩
  · rw [hhistory, List.mem_append, Option.mem_toList] at hmem
    rcases hmem with hbefore | rfl
    · exact mt hstep.running (h.stopped shown hbefore hshows)
    · unfold ShowsEnd at hshows
      split at hshows
      · exact hreported
      · rcases hreported with ⟨channels, hget, hresult, -⟩
        have hsubscribed :=
          nextSubscribed_of_reachable hreachable _ (List.mem_of_getElem? hget)
        exact mt hstep.running
          (not_running_of_closed (stopping_of_reachable hreachable) hsubscribed hresult)
      · exact hshows.elim
  · apply hstep.forall_handles (P := AsksAfterEnd s) (Q := AsksAfterEnd t)
    · exact fun handle hhandle => hhandle.of_append hhistory
    · exact fun i => trivial
    · exact h.moves
    · exact h.handles
  · rw [hhistory, List.mem_append, Option.mem_toList] at hmem
    rcases hmem with hbefore | rfl
    · obtain ⟨hsince, hfails⟩ := h.returned i since result hbefore
      obtain ⟨hle, htake⟩ := take_history hhistory hsince
      exact ⟨hle, htake ▸ hfails⟩
    · rcases hreported with ⟨channels, stage, hget, hasking⟩
      obtain ⟨hsince, hend⟩ := h.handles _ (List.mem_of_getElem? hget)
      obtain ⟨hle, htake⟩ := take_history hhistory hsince
      exact ⟨hle, fun hshown => ⟨_, hasking (hend (htake ▸ hshown))⟩⟩

theorem endSeen_of_reachable (h : Reachable s) : EndSeen s := by
  refine h.induction (P := EndSeen) ?_ ?_
  · intro neighbors cancelled
    refine ⟨fun entry hmem => (by cases hmem), ?_, fun i since result hmem => (by cases hmem)⟩
    intro handle hhandle
    obtain rfl := List.mem_singleton.mp hhandle
    trivial
  · exact fun s t hreachable hstep hs => hs.of_steps hreachable hstep

theorem pollNext_result (s : State X) (channels : Channels)
    {result : Except ChannelError (Event X)} (hresult : (s.pollNext channels).1 = some result) :
    (∃ event, result = .ok event ∧ some event ∈ buffered channelCapacity s.next) ∨
      ∃ error, result = .error error := by
  cases result with
  | error error => exact .inr ⟨error, rfl⟩
  | ok event =>
      refine .inl ⟨event, rfl, ?_⟩
      rcases channels with ⟨next, join⟩
      cases next with
      | none => cases hresult
      | some position =>
          rcases recv_cases channelCapacity s.next s.nextSenders position with
            ⟨-, hrecv⟩ | ⟨value, -, hmem, hrecv⟩ | ⟨-, hrecv⟩
          · simp [State.pollNext, pollRecv, hrecv, channelResult] at hresult
          · simp only [State.pollNext, pollRecv, hrecv] at hresult
            cases value with
            | none => simp [channelResult] at hresult
            | some value =>
                obtain rfl : value = event := by simpa [channelResult] using hresult
                exact hmem
          · simp only [State.pollNext, pollRecv, hrecv] at hresult
            split at hresult <;> simp [channelResult] at hresult

end TopicTracker.ChannelClosing
