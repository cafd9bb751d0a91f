import TopicTracker.GossipReceiver
import TopicTracker.ReferenceExternals

namespace TopicTracker.JoinWakeup

open TopicTracker.RustValues
open TopicTracker.StepMachine
open TopicTracker.BroadcastChannel
open TopicTracker.ThirdParty
open TopicTracker.ReferenceExternals (reference)
open TopicTracker.BootstrapLoop (EndpointId)
open TopicTracker.GossipReceiver

variable {X : Externals} {s t : State X}

/-- `is_joined` has answered no, so the call reads the join channel next. -/
def AwaitsJoin : Call → Prop
  | .joined _ (.answered false) | .joined _ .waiting => True
  | _ => False

/-- A receiver of a running actor is subscribed to the join channel, and while there
is a neighbour a call that reads the channel has something in it. -/
def JoinSubscribed (s : State X) : Handle → Prop
  | .building _ (.droppingJoin _ join) => join ≤ s.join.length
  | .live channels call => s.phase = .running →
      ∃ position, channels.joinChannelReceiver = some position ∧ position ≤ s.join.length ∧
        (AwaitsJoin call → s.neighbors.Nonempty → position < s.join.length)
  | _ => True

theorem length_join_le (h : Steps s t) : s.join.length ≤ t.join.length := by
  have hpush : ∀ value : Option Unit, s.join.length ≤ (s.join ++ [value]).length := by
    intro value
    rw [List.length_append]
    exact Nat.le_add_right _ _
  cases h with
  | event event hrunning =>
      cases event with
      | received content => exact hpush _
      | neighborUp pubKey => exact hpush _
      | neighborDown pubKey => exact le_rfl
      | lagged => exact le_rfl
  | query => exact le_rfl
  | stop cause hrunning hcause => exact le_rfl
  | act cause action todo hphase =>
      cases action with
      | sendJoinNone => exact hpush _
      | _ => exact le_rfl
  | cancelToken => exact le_rfl
  | clone i channels hget => exact le_rfl
  | handle i op moved moved' entry hget hmove => exact le_rfl

/-- The first neighbour comes with a value on the join channel. -/
theorem neighbor_announced (h : Steps s t) (ht : t.neighbors.Nonempty) :
    s.neighbors.Nonempty ∨ s.join.length < t.join.length := by
  cases h with
  | event event hrunning =>
      cases event with
      | received content => exact .inl ht
      | neighborUp pubKey =>
          right
          show s.join.length < (s.join ++ [some ()]).length
          rw [List.length_append]
          exact Nat.lt_add_one _
      | neighborDown pubKey => exact .inl (ht.mono (Finset.erase_subset _ _))
      | lagged => exact .inl ht
  | query => exact .inl ht
  | stop cause hrunning hcause => exact .inl ht
  | act cause action todo hphase => cases action <;> exact .inl ht
  | cancelToken => exact .inl ht
  | clone i channels hget => exact .inl ht
  | handle i op moved moved' entry hget hmove => exact .inl ht

theorem JoinSubscribed.of_steps (hstep : Steps s t) {handle : Handle}
    (h : JoinSubscribed s handle) : JoinSubscribed t handle := by
  have hlength := length_join_le hstep
  cases handle with
  | building origin stage =>
      cases stage with
      | droppingJoin next join => exact le_trans h hlength
      | _ => trivial
  | live channels call =>
      intro hrunning
      obtain ⟨position, hposition, hle, hwake⟩ := h (hstep.running hrunning)
      refine ⟨position, hposition, hle.trans hlength, fun hawaits hneighbors => ?_⟩
      rcases neighbor_announced hstep hneighbors with hbefore | hannounced
      · exact lt_of_lt_of_le (hwake hawaits hbefore) hlength
      · exact lt_of_le_of_lt hle hannounced
  | dropped => trivial

theorem joinSubscribed_advance {origin : Option Nat} {stage : Stage}
    (h : JoinSubscribed s (.building origin stage)) :
    JoinSubscribed s (stage.advance s origin) := by
  have hidle : ∀ {next position}, position ≤ s.join.length →
      JoinSubscribed s (.live ⟨next, some position⟩ .idle) :=
    fun hle _ => ⟨_, rfl, hle, False.elim⟩
  cases stage with
  | constructed => trivial
  | droppedJoinTx => exact hidle (Nat.zero_le _)
  | upgradingNext =>
      show JoinSubscribed s (.building origin (if s.nextSenders = 0 then _ else _))
      split <;> trivial
  | subscribingNext => trivial
  | droppingNext next => trivial
  | upgradingJoin next =>
      show JoinSubscribed s (if s.joinSenders = 0 then _ else _)
      split
      · rename_i hclosed
        exact fun hrunning => absurd hclosed (State.joinSenders_ne_zero hrunning)
      · trivial
  | subscribingJoin next => exact le_refl s.join.length
  | droppingJoin next join => exact hidle h

theorem joinSubscribed_call {channels : Channels} {call call' : Call}
    (h : JoinSubscribed s (.live channels call)) (hcall : ¬ AwaitsJoin call') :
    JoinSubscribed s (.live channels call') := by
  intro hrunning
  obtain ⟨position, hposition, hle, -⟩ := h hrunning
  exact ⟨position, hposition, hle, fun hawaits => absurd hawaits hcall⟩

theorem joinSubscribed_pollJoin {channels : Channels} {call : Call}
    (h : JoinSubscribed s (.live channels call)) :
    JoinSubscribed s (.live (s.pollJoin channels).2 .idle) := by
  intro hrunning
  obtain ⟨position, hposition, hle, -⟩ := h hrunning
  refine ⟨(recv channelCapacity s.join s.joinSenders position).2, ?_, recv_position_le hle,
    fun hawaits => absurd hawaits id⟩
  show (pollRecv s.join s.joinSenders channels.joinChannelReceiver).2 = _
  rw [hposition, pollRecv]

theorem joinSubscribed_answer {channels : Channels} {since : Nat}
    (h : JoinSubscribed s (.live channels (.joined since .asking))) :
    JoinSubscribed s (.live channels (.joined since (.answered s.isJoined))) := by
  intro hrunning
  obtain ⟨position, hposition, hle, -⟩ := h hrunning
  refine ⟨position, hposition, hle, fun hawaits hneighbors => ?_⟩
  have hjoined : s.isJoined = true := decide_eq_true hneighbors
  rw [hjoined] at hawaits
  exact absurd hawaits id

theorem joinSubscribed_moves {i : Nat} {op : HandleOp} {handle handle' : Handle}
    {entry : Option (Entry X)} (hmove : Moves s i handle op handle' entry)
    (h : JoinSubscribed s handle) : JoinSubscribed s handle' := by
  cases hmove with
  | build origin stage => exact joinSubscribed_advance h
  | next channels => exact joinSubscribed_call h id
  | joined channels => exact joinSubscribed_call h id
  | drop channels => trivial
  | nextReturns channels result hresult => exact joinSubscribed_call h id
  | answer channels since hrunning => exact joinSubscribed_answer h
  | refuse channels since hstopped => exact joinSubscribed_call h id
  | isJoined channels since => exact joinSubscribed_call h id
  | wait channels since => exact h
  | joinReturns channels since result hresult => exact joinSubscribed_pollJoin h
  | abandon channels call => exact joinSubscribed_call h id

theorem joinSubscribed_of_reachable (h : Reachable s) :
    ∀ handle ∈ s.handles, JoinSubscribed s handle := by
  apply h.forall_handles (P := JoinSubscribed)
  · exact fun s => trivial
  · exact fun hstep hhandle => hhandle.of_steps hstep
  · exact fun s i => trivial
  · exact joinSubscribed_moves

/-- No reachable state has a `joined` call waiting on an empty join channel while the
actor is running and there is a neighbour. -/
theorem no_lost_wakeup (hreachable : Reachable s) (hrunning : s.phase = .running)
    (hneighbors : s.neighbors.Nonempty) :
    ¬ ∃ (i : Nat) (channels : Channels) (since : Nat),
      s.handles[i]? = some (.live channels (.joined since .waiting)) ∧
        (s.pollJoin channels).1 = none := by
  rintro ⟨i, channels, since, hget, hempty⟩
  have hsubscribed := joinSubscribed_of_reachable hreachable _ (List.mem_of_getElem? hget)
  obtain ⟨position, hposition, -, hwake⟩ := hsubscribed hrunning
  have hlt : position < s.join.length := hwake trivial hneighbors
  have hnot : (recv channelCapacity s.join s.joinSenders position).1 ≠ .pending :=
    fun hpending => absurd (recv_pending_iff.mp hpending).1 (Nat.not_le.mpr hlt)
  have hpending := channelResult_eq_none_iff.mp hempty
  rw [hposition, pollRecv] at hpending
  exact hnot hpending

def sampleEndpoint : EndpointId reference := ⟨zeroBytes 32, rfl⟩

/-- A receiver cloned for its call: the neighbour comes up between the answer of
`is_joined` and the wait. -/
def freshClone : List (Op reference) :=
  [.handle 0 .build, .handle 0 .build, .clone 0, .handle 1 .build, .handle 1 .build,
    .handle 1 .build, .handle 1 .build, .handle 1 .build, .handle 1 .build,
    .handle 1 .joined, .handle 1 .answer, .event (.neighborUp sampleEndpoint),
    .handle 1 .resume]

theorem no_lost_wakeup_freshClone : ∃ s, run step (State.start ∅ false) freshClone = some s ∧
    s.handles[1]? = some (.live ⟨some 0, some 0⟩ (.joined 0 .waiting)) ∧
    ¬ ∃ (i : Nat) (channels : Channels) (since : Nat),
      s.handles[i]? = some (.live channels (.joined since .waiting)) ∧
        (s.pollJoin channels).1 = none :=
  ⟨_, rfl, rfl, no_lost_wakeup ⟨∅, false, freshClone, rfl⟩ rfl
    ⟨sampleEndpoint, Finset.mem_insert_self _ _⟩⟩

end TopicTracker.JoinWakeup
