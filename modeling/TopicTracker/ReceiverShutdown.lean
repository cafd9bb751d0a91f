import TopicTracker.ChannelClosing
import TopicTracker.ReferenceExternals

/-!
What callers of a gossip receiver see once its actor has stopped: no call blocks,
because the channels close as soon as no clone is in the middle of subscribing.
-/

namespace TopicTracker.ReceiverShutdown

open TopicTracker.StepMachine
open TopicTracker.BroadcastChannel
open TopicTracker.ThirdParty
open TopicTracker.ReferenceExternals (reference)
open TopicTracker.GossipReceiver
open TopicTracker.ChannelClosing

variable {X : Externals} {s t : State X}

/-- How many steps `new` or `clone` still takes. -/
def stageWork : Stage → Nat
  | .constructed => 2
  | .droppedJoinTx => 1
  | .upgradingNext => 6
  | .subscribingNext => 5
  | .droppingNext _ => 4
  | .upgradingJoin _ => 3
  | .subscribingJoin _ => 2
  | .droppingJoin _ _ => 1

def handleWork : Handle → Nat
  | .building _ stage => stageWork stage
  | _ => 0

def work (s : State X) : Nat := (s.handles.map handleWork).sum

theorem handleWork_advance (s : State X) (origin : Option Nat) (stage : Stage) :
    handleWork (stage.advance s origin) < stageWork stage := by
  cases stage with
  | upgradingNext =>
      show stageWork (if s.nextSenders = 0 then _ else _) < 6
      split <;> simp only [stageWork] <;> omega
  | upgradingJoin next =>
      show handleWork (if s.joinSenders = 0 then _ else _) < 3
      split <;> simp only [handleWork, stageWork] <;> omega
  | _ => simp [Stage.advance, handleWork, stageWork]

theorem sum_map_set_lt {α : Type*} (f : α → Nat) {as : List α} {i : Nat} {a b : α}
    (hget : as[i]? = some a) (hlt : f b < f a) :
    ((as.set i b).map f).sum < (as.map f).sum := by
  induction as generalizing i with
  | nil => cases hget
  | cons head tail ih =>
      cases i with
      | zero =>
          obtain rfl : head = a := Option.some.inj hget
          exact Nat.add_lt_add_right hlt _
      | succ i => exact Nat.add_lt_add_left (ih hget) _

/-- The state after some receiver has taken one more step of `new` or `clone`. -/
structure BuiltUpon (s t : State X) : Prop where
  phase : t.phase = s.phase
  live : ∀ (i : Nat) (channels call), s.handles[i]? = some (.live channels call) →
    t.handles[i]? = some (.live channels call)

theorem exists_build {i : Nat} {origin : Option Nat} {stage : Stage}
    (hget : s.handles[i]? = some (.building origin stage)) :
    ∃ t, step s (.handle i .build) = some t ∧ work t < work s ∧ BuiltUpon s t := by
  refine ⟨_, step_handle hget rfl, ?_, rfl, fun j channels call hlive => ?_⟩
  · exact sum_map_set_lt handleWork hget (handleWork_advance s origin stage)
  · have hij : i ≠ j := by
      rintro rfl
      cases hget.symm.trans hlive
    show (s.handles.set i _)[j]? = _
    rw [List.getElem?_set_ne hij, hlive]

def Settled (s : State X) : Prop :=
  ¬ ∃ (i : Nat) (origin : Option Nat) (stage : Stage),
    s.handles[i]? = some (.building origin stage)

theorem exists_settled (s : State X) : ∃ ops t,
    (∀ op ∈ ops, ∃ i, op = .handle i .build) ∧ (Settled s → ops = []) ∧
      run step s ops = some t ∧ Settled t ∧ BuiltUpon s t := by
  induction hwork : work s using Nat.strong_induction_on generalizing s with
  | _ n ih =>
      by_cases hsettled : Settled s
      · exact ⟨[], s, fun op hop => (by cases hop), fun _ => rfl, rfl, hsettled, rfl,
          fun _ _ _ h => h⟩
      · obtain ⟨i, origin, stage, hget⟩ := not_not.mp hsettled
        obtain ⟨m, hm, hless, hphase, hlive⟩ := exists_build hget
        obtain ⟨ops, t, hbuilds, -, hrun, ht, hphase', hlive'⟩ :=
          ih (work m) (hwork ▸ hless) m rfl
        refine ⟨.handle i .build :: ops, t, ?_, fun h => absurd h hsettled, ?_, ht, ?_⟩
        · intro op hop
          rcases List.mem_cons.mp hop with rfl | hlater
          · exact ⟨i, rfl⟩
          · exact hbuilds op hlater
        · exact run_cons_eq_some_iff.mpr ⟨m, hm, hrun⟩
        · exact ⟨hphase'.trans hphase, fun j channels call h =>
            hlive' j channels call (hlive j channels call h)⟩

theorem countP_eq_zero_of_settled (h : Settled s) {p : Handle → Bool}
    (hp : ∀ handle, p handle = true → ∃ origin stage, handle = .building origin stage) :
    s.handles.countP p = 0 := by
  rw [List.countP_eq_zero]
  intro handle hmem hholds
  obtain ⟨origin, stage, rfl⟩ := hp handle hholds
  obtain ⟨i, hget⟩ := List.mem_iff_getElem?.mp hmem
  exact h ⟨i, origin, stage, hget⟩

theorem senders_eq_zero (h : Settled s) {cause : StopCause}
    (hphase : s.phase = .stopping cause []) : s.nextSenders = 0 ∧ s.joinSenders = 0 := by
  have hbuilding : ∀ handle : Handle, handle.holdsNextSender = true ∨
      handle.holdsJoinSender = true → ∃ origin stage, handle = .building origin stage := by
    intro handle hholds
    cases handle with
    | building origin stage => exact ⟨origin, stage, rfl⟩
    | live channels call => rcases hholds with hnext | hjoin <;> contradiction
    | dropped => rcases hholds with hnext | hjoin <;> contradiction
  rw [State.nextSenders, State.joinSenders, hphase,
    countP_eq_zero_of_settled h fun handle hholds => hbuilding handle (.inl hholds),
    countP_eq_zero_of_settled h fun handle hholds => hbuilding handle (.inr hholds)]
  exact ⟨rfl, rfl⟩

theorem exists_channelResult {α : Type} (sent : List (Option α)) (position : Option Nat) :
    ∃ result, channelResult (pollRecv sent 0 position).1 = some result := by
  apply Option.ne_none_iff_exists'.mp
  intro hnone
  have hpending := channelResult_eq_none_iff.mp hnone
  cases position with
  | none => cases hpending
  | some position => exact (recv_pending_iff.mp hpending).2 rfl

/-- The steps of the call itself, or of the actor's answer to it. -/
def OwnStep (i : Nat) (op : Op X) : Prop :=
  op = .handle i .poll ∨ op = .handle i .refuse ∨ op = .handle i .resume

/-- The call of a receiver, if it has one, comes to its end by its own steps after those
of the clones under way. -/
def CanReturn (s : State X) (i : Nat) : Prop :=
  ∃ builds own t, (∀ op ∈ builds, ∃ j, op = .handle j .build) ∧ (Settled s → builds = []) ∧
    (∀ op ∈ own, OwnStep i op) ∧ run step s (builds ++ own) = some t ∧
    ∃ channels, t.handles[i]? = some (.live channels .idle)

def ReturnsAlone (s : State X) (i : Nat) : Prop :=
  ∃ own t, (∀ op ∈ own, OwnStep i op) ∧ run step s own = some t ∧
    ∃ channels, t.handles[i]? = some (.live channels .idle)

theorem returnsAlone_of_move {i : Nat} {op : HandleOp} {handle : Handle} {channels : Channels}
    {entry : Option (Entry X)} (hop : OwnStep (X := X) i (.handle i op))
    (hget : s.handles[i]? = some handle)
    (hmove : s.move i handle op = some (.live channels .idle, entry)) : ReturnsAlone s i := by
  have hlt : i < s.handles.length := (List.getElem?_eq_some_iff.mp hget).1
  refine ⟨[.handle i op], _, ?_, run_cons_eq_some_iff.mpr ⟨_, step_handle hget hmove, rfl⟩,
    channels, List.getElem?_set_self hlt⟩
  intro op' hop'
  obtain rfl := List.mem_singleton.mp hop'
  exact hop

theorem Settled.set (h : Settled s) (i : Nat) {channels : Channels} {call : Call}
    {history : List (Entry X)} :
    Settled { s with handles := s.handles.set i (.live channels call), history := history } := by
  rintro ⟨j, origin, stage, hget⟩
  change (s.handles.set i (.live channels call))[j]? = _ at hget
  rw [List.getElem?_set] at hget
  split at hget
  · split at hget <;> cases hget
  · exact h ⟨j, origin, stage, hget⟩

theorem returnsAlone_waiting (h : Settled s) {cause : StopCause}
    (hphase : s.phase = .stopping cause []) {i : Nat} {channels : Channels} {since : Nat}
    (hget : s.handles[i]? = some (.live channels (.joined since .waiting))) :
    ReturnsAlone s i := by
  obtain ⟨result, hresult⟩ := exists_channelResult s.join channels.joinChannelReceiver
  rw [← (senders_eq_zero h hphase).2] at hresult
  apply returnsAlone_of_move (.inl rfl) hget
  rw [State.move, State.pollJoin, hresult, Option.map_some]

theorem returnsAlone (h : Settled s) {cause : StopCause}
    (hphase : s.phase = .stopping cause []) {i : Nat} {channels : Channels} {call : Call}
    (hget : s.handles[i]? = some (.live channels call)) : ReturnsAlone s i := by
  cases call with
  | idle => exact ⟨[], s, fun op hop => (by cases hop), rfl, channels, hget⟩
  | next =>
      obtain ⟨result, hresult⟩ := exists_channelResult s.next channels.nextChannelReceiver
      rw [← (senders_eq_zero h hphase).1] at hresult
      apply returnsAlone_of_move (.inl rfl) hget
      rw [State.move, State.pollNext, hresult, Option.map_some]
  | joined since stage =>
      cases stage with
      | asking =>
          have hstopped : s.phase ≠ .running := by
            rw [hphase]
            exact fun hrunning => by cases hrunning
          exact returnsAlone_of_move (.inr (.inl rfl)) hget (if_neg hstopped)
      | answered isJoined =>
          cases isJoined with
          | true => exact returnsAlone_of_move (.inr (.inr rfl)) hget rfl
          | false =>
              have hlt : i < s.handles.length := (List.getElem?_eq_some_iff.mp hget).1
              have hresume : step s (.handle i .resume) = some _ := step_handle hget rfl
              obtain ⟨own, t, hown, hrun, hidle⟩ :=
                returnsAlone_waiting (h.set i) hphase (List.getElem?_set_self hlt)
              refine ⟨.handle i .resume :: own, t, ?_, ?_, hidle⟩
              · intro op hop
                rcases List.mem_cons.mp hop with rfl | hlater
                · exact .inr (.inr rfl)
                · exact hown op hlater
              · exact run_cons_eq_some_iff.mpr ⟨_, hresume, hrun⟩
      | waiting => exact returnsAlone_waiting h hphase hget

theorem canReturn (s : State X) {cause : StopCause} (hphase : s.phase = .stopping cause [])
    {i : Nat} {channels : Channels} {call : Call}
    (hget : s.handles[i]? = some (.live channels call)) : CanReturn s i := by
  obtain ⟨builds, m, hbuilds, hnone, hrun, hsettled, hphase', hlive⟩ := exists_settled s
  obtain ⟨own, t, hown, hrun', hidle⟩ :=
    returnsAlone hsettled (hphase'.trans hphase) (hlive i channels call hget)
  refine ⟨builds, own, t, hbuilds, hnone, hown, ?_, hidle⟩
  rw [run_append, hrun, Option.bind_some, hrun']

/-- Once the actor has stopped, other than for want of handles, and is dropped: the token
is cancelled, no call blocks, `next` hands out what is still buffered or fails, it
fails for good once it found the channel closed, and so does every `joined` called
after that or after the drop, which is in the history. -/
theorem receiver_shutdown (hreachable : Reachable s) {cause : StopCause}
    (hdropped : s.phase = .stopping cause []) (hcause : cause ≠ .handlesGone) :
    s.cancelled = true ∧
      (∀ (i : Nat) (channels : Channels) (call : Call),
        s.handles[i]? = some (.live channels call) → CanReturn s i) ∧
      (∀ (channels : Channels) (result : Except ChannelError (Event X)),
        (s.pollNext channels).1 = some result →
          (∃ event, result = .ok event ∧ some event ∈ buffered channelCapacity s.next) ∨
            ∃ error, result = .error error) ∧
      (s.history.Pairwise fun before after => ∀ i result,
        before = .nextReturned i (.error .closed) → after = .nextReturned i result →
          ∃ error, result = .error error) ∧
      .actorDropped ∈ s.history ∧
      ∀ i since result, .joinedReturned i since result ∈ s.history →
        (∃ entry ∈ s.history.take since, ShowsEnd entry) → ∃ error, result = .error error := by
  have hstopping := stopping_of_reachable hreachable
  refine ⟨?_, fun i channels call hget => canReturn s hdropped hget,
    fun channels result => pollNext_result s channels, ?_, ?_, fun i since result hmem => ?_⟩
  · exact (hstopping.cancelled cause [] hdropped hcause).resolve_right List.not_mem_nil
  · apply (closedForGood_of_reachable hreachable).later.imp
    exact fun h i result hbefore hafter => ⟨.closed, h i result hbefore hafter⟩
  · exact (hstopping.dropped cause [] hdropped).resolve_right List.not_mem_nil
  · exact ((endSeen_of_reachable hreachable).returned i since result hmem).2

/-- The stream ends while the second clone holds a sender; the first one has read `None`
and asks once more. -/
def endDuringClone : List (Op reference) :=
  [.handle 0 .build, .handle 0 .build, .clone 0, .handle 1 .build, .handle 1 .build,
    .event (.received [1]), .handle 1 .build, .handle 1 .build, .handle 1 .build,
    .handle 1 .build, .clone 0, .handle 2 .build, .stop .streamEnd, .act, .act, .act, .act,
    .act, .handle 2 .build, .handle 1 .next, .handle 1 .poll, .handle 1 .next,
    .handle 1 .poll, .handle 1 .next]

theorem receiver_shutdown_endDuringClone : ∃ s,
    run step (State.start ∅ false) endDuringClone = some s ∧
      s.nextSenders = 1 ∧ s.cancelled = true ∧ CanReturn s 1 := by
  refine ⟨_, rfl, rfl, ?_, ?_⟩
  · exact (receiver_shutdown ⟨∅, false, endDuringClone, rfl⟩ rfl (by decide)).1
  · exact (receiver_shutdown ⟨∅, false, endDuringClone, rfl⟩ rfl (by decide)).2.1 1 _ _ rfl

end TopicTracker.ReceiverShutdown
