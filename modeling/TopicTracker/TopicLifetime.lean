import TopicTracker.StepMachine
import TopicTracker.TopicOwnership

namespace TopicTracker.TopicLifetime

open TopicTracker.StepMachine
open TopicTracker.TopicOwnership
open TopicTracker.TopicOwnership.TopicState

variable {setup : Setup} {s t : TopicState}

/-- The user's senders and receivers keep the topic alive, and no others do. -/
structure Guarded (s : TopicState) : Prop where
  user : ∀ channel ∈ s.channels, channel.holder = .user → channel.topicKeepAlive ≠ none
  internal : ∀ channel ∈ s.channels, channel.holder ≠ .user → channel.topicKeepAlive = none

theorem Guarded.of_subset (h : Guarded s) (hsub : t.channels ⊆ s.channels) : Guarded t where
  user channel hchannel := h.user channel (hsub hchannel)
  internal channel hchannel := h.internal channel (hsub hchannel)

theorem Guarded.of_append (h : Guarded s) {added : List Channel}
    (hchannels : t.channels = s.channels ++ added)
    (hadded : ∀ channel ∈ added, channel.holder = .user ↔ channel.topicKeepAlive ≠ none) :
    Guarded t where
  user channel hchannel hholder := by
    rw [hchannels] at hchannel
    rcases List.mem_append.mp hchannel with hold | hnew
    · exact h.user channel hold hholder
    · exact (hadded channel hnew).mp hholder
  internal channel hchannel hholder := by
    rw [hchannels] at hchannel
    rcases List.mem_append.mp hchannel with hold | hnew
    · exact h.internal channel hold hholder
    · exact not_not.mp (mt (hadded channel hnew).mpr hholder)

theorem Guarded.cloneChannels (h : Guarded s) (sides : List Side) {holder : Holder}
    (hholder : holder ≠ .user) (channel : Channel)
    (hchannel : channel ∈ s.cloneChannels sides holder) :
    channel.holder = .user ↔ channel.topicKeepAlive ≠ none := by
  obtain ⟨original, horiginal, rfl⟩ := List.mem_map.mp hchannel
  obtain ⟨hmem, hstored⟩ := List.mem_filter.mp horiginal
  obtain ⟨hbootstrap, -⟩ := of_decide_eq_true hstored
  have hnone : original.topicKeepAlive = none := h.internal original hmem (by simp [hbootstrap])
  exact ⟨fun huser => absurd huser hholder, fun hkeep => absurd hnone hkeep⟩

/-- What every operation keeps: the actor is marked dropped by its drop only, nothing
takes a cancellation back, and the guard stays. -/
structure Frame (s t : TopicState) : Prop where
  actorDropped : t.actorDropped = s.actorDropped
  cancelled : s.cancelled = true → t.cancelled = true
  guarded : Guarded s → Guarded t

theorem Frame.trans {m : TopicState} (h : Frame s m) (h' : Frame m t) : Frame s t where
  actorDropped := h'.actorDropped.trans h.actorDropped
  cancelled hcancelled := h'.cancelled (h.cancelled hcancelled)
  guarded hguarded := h'.guarded (h.guarded hguarded)

theorem frame_of_subset (hdropped : t.actorDropped = s.actorDropped)
    (hcancelled : s.cancelled = true → t.cancelled = true) (hsub : t.channels ⊆ s.channels) :
    Frame s t :=
  ⟨hdropped, hcancelled, fun h => h.of_subset hsub⟩

theorem frame_of_clones {sides : List Side} {holder : Holder} (hholder : holder ≠ .user)
    (hdropped : t.actorDropped = s.actorDropped) (hcancelled : t.cancelled = s.cancelled)
    (hchannels : t.channels = s.channels ++ s.cloneChannels sides holder) : Frame s t :=
  ⟨hdropped, fun h => hcancelled.trans h,
    fun h => h.of_append hchannels (h.cloneChannels sides hholder)⟩

theorem frame_dropHeldBy (s : TopicState) (holder : Holder) : Frame s (s.dropHeldBy holder) :=
  frame_of_subset rfl id (List.filter_subset_self _)

theorem frame_endNew (s : TopicState) (stage : NewStage) : Frame s (s.endNew stage) :=
  frame_of_subset rfl id (List.filter_subset_self _)

theorem frame_returnTopic (s : TopicState) : Frame s s.returnTopic :=
  frame_of_subset rfl id (List.filter_subset_self _)

theorem frame_spawnFailed (s : TopicState) (who : Spawner) : Frame s (s.spawnFailed who) := by
  cases who with
  | topicNew => exact frame_of_subset rfl (fun _ => rfl) (List.filter_subset_self _)
  | startupTask => exact frame_of_subset rfl (fun _ => rfl) (List.Subset.refl _)

theorem frame_setSpawning (s : TopicState) (work : Spawning) (who : Spawner) :
    Frame s (s.setSpawning work who) := by
  cases who with
  | topicNew => exact frame_of_subset rfl id (List.Subset.refl _)
  | startupTask => exact frame_of_subset rfl id (List.Subset.refl _)

theorem frame_beginSpawn (s : TopicState) (who : Spawner) : Frame s (s.beginSpawn setup who) := by
  unfold TopicState.beginSpawn
  split
  · exact frame_spawnFailed s who
  · exact frame_setSpawning s _ who

theorem frame_user {op : UserOp} (hstep : s.user op = some t) : Frame s t := by
  cases op <;>
    simp only [TopicState.user, Option.bind_eq_bind, Option.bind_eq_some_iff,
      Option.ite_none_right_eq_some, Option.some.injEq] at hstep
  case cloneTopic =>
    rcases hstep with ⟨-, rfl⟩
    exact frame_of_subset rfl id (List.Subset.refl _)
  case dropTopic =>
    rcases hstep with ⟨-, rfl⟩
    exact frame_of_subset rfl id (List.Subset.refl _)
  case request =>
    rcases hstep with ⟨-, rfl⟩
    exact frame_of_subset rfl id (List.Subset.refl _)
  case abandon =>
    rcases hstep with ⟨call, -, rfl⟩
    exact frame_of_subset rfl id (List.Subset.refl _)
  case cloneChannel =>
    rcases hstep with ⟨channel, hget, -, rfl⟩
    refine frame_of_subset rfl id (List.append_subset.mpr ⟨List.Subset.refl _, ?_⟩)
    exact List.cons_subset.mpr ⟨List.mem_of_getElem? hget, List.nil_subset _⟩
  case dropChannel =>
    rcases hstep with ⟨channel, -, -, rfl⟩
    exact frame_of_subset rfl id List.eraseIdx_subset

theorem frame_answer {i : Nat} {ok : Bool} (hstep : s.answer i ok = some t) : Frame s t := by
  simp only [TopicState.answer, Option.bind_eq_bind, Option.bind_eq_some_iff,
    Option.some.injEq] at hstep
  rcases hstep with ⟨call, -, rfl⟩
  refine ⟨rfl, id, fun h => h.of_append rfl ?_⟩
  intro channel hchannel
  split at hchannel
  · obtain ⟨clone, hclone, rfl⟩ := List.mem_map.mp hchannel
    obtain ⟨original, -, rfl⟩ := List.mem_map.mp hclone
    simp
  · cases hchannel

theorem frame_newOp {op : NewOp} (hstep : s.newOp setup op = some t) : Frame s t := by
  unfold TopicState.newOp at hstep
  split at hstep
  · obtain rfl := Option.some.inj hstep
    exact frame_endNew s .failed
  · obtain rfl := Option.some.inj hstep
    have hstarted : Frame s { s with
        startup := .waiting
        channels := s.channels ++ s.cloneChannels [.sender, .receiver] .bootstrapTask } :=
      frame_of_clones (by simp) rfl rfl rfl
    split
    · exact hstarted.trans (frame_returnTopic _)
    · exact hstarted.trans (frame_of_subset rfl id (List.Subset.refl _))
  · obtain rfl := Option.some.inj hstep
    exact frame_endNew s .failed
  · obtain rfl := Option.some.inj hstep
    exact frame_of_clones (by simp) rfl rfl rfl
  · obtain rfl := Option.some.inj hstep
    exact frame_endNew s .failed
  · obtain rfl := Option.some.inj hstep
    exact (frame_dropHeldBy s .topicNew).trans (frame_beginSpawn _ .topicNew)
  · cases hstep
  · cases hstep
  · cases hstep
  · obtain rfl := Option.some.inj hstep
    exact frame_endNew s .abandoned
  · cases hstep

theorem spawnOp_cases {who : Spawner} {op : SpawnOp} (hstep : s.spawnOp who op = some t) :
    ∃ work, s.spawning who = some work ∧
      ((work.calling = false ∧ 0 < s.handleCount ∧
          t = s.setSpawning { work with calling := true } who) ∨
        t = s.spawnFailed who ∨
        (∃ (worker : Worker) (rest : List Worker), work.calling = true ∧ t =
          { s with channels := s.channels ++ s.cloneChannels worker.sides (.worker worker)
            }.setSpawning ⟨rest, false⟩ who) ∨
        (∃ rest, work.calling = true ∧ t = s.setSpawning ⟨rest, false⟩ who) ∨
        (who = .topicNew ∧ t = s.returnTopic) ∨
        (who = .startupTask ∧ t = { s with startup := .finished })) := by
  simp only [TopicState.spawnOp, Option.bind_eq_bind, Option.bind_eq_some_iff] at hstep
  rcases hstep with ⟨work, hwork, hstep⟩
  refine ⟨work, hwork, ?_⟩
  split at hstep
  · split at hstep
    · next howned => exact .inl ⟨rfl, howned, (Option.some.inj hstep).symm⟩
    · exact .inr (.inl (Option.some.inj hstep).symm)
  · exact .inr (.inr (.inl ⟨_, _, rfl, (Option.some.inj hstep).symm⟩))
  · exact .inr (.inr (.inr (.inl ⟨_, rfl, (Option.some.inj hstep).symm⟩)))
  · exact .inr (.inl (Option.some.inj hstep).symm)
  · cases who with
    | topicNew => exact .inr (.inr (.inr (.inr (.inl ⟨rfl, (Option.some.inj hstep).symm⟩))))
    | startupTask => exact .inr (.inr (.inr (.inr (.inr ⟨rfl, (Option.some.inj hstep).symm⟩))))
  · cases hstep

theorem frame_spawnOp {who : Spawner} {op : SpawnOp} (hstep : s.spawnOp who op = some t) :
    Frame s t := by
  obtain ⟨work, -, ⟨-, -, rfl⟩ | rfl | ⟨worker, rest, -, rfl⟩ | ⟨rest, -, rfl⟩ | ⟨-, rfl⟩ |
    ⟨-, rfl⟩⟩ := spawnOp_cases hstep
  · exact frame_setSpawning s _ who
  · exact frame_spawnFailed s who
  · have hstarted : Frame s
        { s with channels := s.channels ++ s.cloneChannels worker.sides (.worker worker) } :=
      frame_of_clones (by simp) rfl rfl rfl
    exact hstarted.trans (frame_setSpawning _ _ who)
  · exact frame_setSpawning s _ who
  · exact frame_returnTopic s
  · exact frame_of_subset rfl id (List.Subset.refl _)

theorem frame_bootstrapReported {ok : Bool} (hstep : s.bootstrapReported setup ok = some t) :
    Frame s t := by
  unfold TopicState.bootstrapReported at hstep
  split at hstep
  · split at hstep
    · obtain rfl := Option.some.inj hstep
      split
      · exact frame_beginSpawn s .startupTask
      · exact frame_of_subset rfl id (List.Subset.refl _)
    · obtain rfl := Option.some.inj hstep
      exact frame_of_subset rfl (fun _ => rfl) (List.Subset.refl _)
  · cases hstep

theorem of_bootstrapActorEnded (hstep : s.effect setup .bootstrapActorEnded = some t) :
    s.actorDropped = true ∧ t = s.dropHeldBy .bootstrapActor := by
  simp only [TopicState.effect, Option.ite_none_right_eq_some, Option.some.injEq] at hstep
  exact ⟨hstep.1, hstep.2.symm⟩

theorem frame_effect {op : TopicOp} (hstep : s.effect setup op = some t) : Frame s t := by
  cases op with
  | user op => exact frame_user hstep
  | answer i ok => exact frame_answer hstep
  | new op => exact frame_newOp hstep
  | spawn who op => exact frame_spawnOp hstep
  | bootstrapReported ok => exact frame_bootstrapReported hstep
  | bootstrapActorEnded =>
      obtain ⟨-, rfl⟩ := of_bootstrapActorEnded hstep
      exact frame_dropHeldBy s .bootstrapActor
  | bootstrapTaskEnded =>
      obtain rfl := Option.some.inj hstep
      exact frame_dropHeldBy s .bootstrapTask
  | workerEnded worker =>
      obtain rfl := Option.some.inj hstep
      exact frame_dropHeldBy s (.worker worker)
  | tokenCancelled =>
      obtain rfl := Option.some.inj hstep
      exact frame_of_subset rfl (fun _ => rfl) (List.Subset.refl _)

theorem guarded_release (h : Guarded s) : Guarded s.release := by
  unfold TopicState.release
  split
  · exact h.of_subset (List.Subset.refl _)
  · exact h

theorem handleCount_eq_zero_iff : s.handleCount = 0 ↔
    s.topics = 0 ∧ s.new.handles = 0 ∧ s.startup.handles = 0 ∧ s.calls = [] ∧
      ∀ channel ∈ s.channels, channel.topicKeepAlive = none := by
  have hrefs : s.topicRefs.card = 0 ↔
      s.calls = [] ∧ ∀ channel ∈ s.channels, channel.topicKeepAlive = none := by
    rw [Finset.card_eq_zero, TopicState.topicRefs, List.toFinset_eq_empty_iff,
      List.append_eq_nil_iff, List.map_eq_nil_iff, List.filterMap_eq_nil_iff]
  rw [← hrefs, TopicState.handleCount]
  omega

theorem handleCount_pos_of_user {op : UserOp} (hstep : s.user op = some t) (h : Guarded s) :
    0 < s.handleCount := by
  apply Nat.pos_of_ne_zero
  intro hzero
  obtain ⟨htopics, -, -, hcalls, hchannels⟩ := handleCount_eq_zero_iff.mp hzero
  cases op with
  | cloneTopic => simp [TopicState.user, htopics] at hstep
  | dropTopic => simp [TopicState.user, htopics] at hstep
  | request side => simp [TopicState.user, htopics] at hstep
  | abandon i => simp [TopicState.user, hcalls] at hstep
  | cloneChannel i =>
      simp only [TopicState.user, Option.bind_eq_bind, Option.bind_eq_some_iff,
        Option.ite_none_right_eq_some] at hstep
      rcases hstep with ⟨channel, hget, hholder, -⟩
      have hmem : channel ∈ s.channels := List.mem_of_getElem? hget
      exact h.user channel hmem hholder (hchannels channel hmem)
  | dropChannel i =>
      simp only [TopicState.user, Option.bind_eq_bind, Option.bind_eq_some_iff,
        Option.ite_none_right_eq_some] at hstep
      rcases hstep with ⟨channel, hget, hholder, -⟩
      have hmem : channel ∈ s.channels := List.mem_of_getElem? hget
      exact h.user channel hmem hholder (hchannels channel hmem)

theorem new_handles_pos_of_newOp {op : NewOp} (hstep : s.newOp setup op = some t) :
    0 < s.new.handles := by
  unfold TopicState.newOp at hstep
  cases hnew : s.new with
  | bootstrapping => simp [NewStage.handles]
  | awaitingReceiver => simp [NewStage.handles]
  | awaitingJoined => simp [NewStage.handles]
  | spawning work =>
      rw [NewStage.handles]
      omega
  | returned => cases op <;> simp [hnew] at hstep
  | failed => cases op <;> simp [hnew] at hstep
  | abandoned => cases op <;> simp [hnew] at hstep

theorem handleCount_of_subset (hzero : s.handleCount = 0) (htopics : t.topics = s.topics)
    (hnew : t.new.handles = s.new.handles) (hstartup : t.startup.handles = 0)
    (hcalls : t.calls = s.calls) (hsub : t.channels ⊆ s.channels) : t.handleCount = 0 := by
  obtain ⟨h₁, h₂, -, h₄, h₅⟩ := handleCount_eq_zero_iff.mp hzero
  exact handleCount_eq_zero_iff.mpr ⟨htopics.trans h₁, hnew.trans h₂, hstartup,
    hcalls.trans h₄, fun channel hchannel => h₅ channel (hsub hchannel)⟩

theorem handleCount_dropHeldBy (hzero : s.handleCount = 0) (holder : Holder) :
    (s.dropHeldBy holder).handleCount = 0 :=
  handleCount_of_subset hzero rfl rfl (handleCount_eq_zero_iff.mp hzero).2.2.1 rfl
    (List.filter_subset_self _)

theorem spawning_startup {work : Spawning} (hwork : s.spawning .startupTask = some work) :
    s.startup = .spawning work := by
  unfold TopicState.spawning at hwork
  dsimp only at hwork
  split at hwork
  · next work' hstartup =>
      rw [hstartup, Option.some.inj hwork]
  · cases hwork

theorem spawning_topicNew {work : Spawning} (hwork : s.spawning .topicNew = some work) :
    s.new = .spawning work := by
  unfold TopicState.spawning at hwork
  dsimp only at hwork
  split at hwork
  · next work' hnew => rw [hnew, Option.some.inj hwork]
  · cases hwork

theorem handleCount_spawnOp {who : Spawner} {op : SpawnOp}
    (hstep : s.spawnOp who op = some t) (hzero : s.handleCount = 0) : t.handleCount = 0 := by
  obtain ⟨-, hnew, hstartup, -⟩ := handleCount_eq_zero_iff.mp hzero
  obtain ⟨work, hwork, hcases⟩ := spawnOp_cases hstep
  cases who with
  | topicNew =>
      rw [spawning_topicNew hwork, NewStage.handles] at hnew
      omega
  | startupTask =>
      have hidle : work.calling ≠ true := by
        intro hcalling
        simp [spawning_startup hwork, StartupStage.handles, Spawning.handles, hcalling] at hstartup
      rcases hcases with ⟨-, hpos, -⟩ | rfl | ⟨worker, rest, hcalling, -⟩ | ⟨rest, hcalling, -⟩ |
        ⟨hwho, -⟩ | ⟨-, rfl⟩
      · omega
      · exact handleCount_of_subset hzero rfl rfl rfl rfl (List.Subset.refl _)
      · exact absurd hcalling hidle
      · exact absurd hcalling hidle
      · cases hwho
      · exact handleCount_of_subset hzero rfl rfl rfl rfl (List.Subset.refl _)

theorem handleCount_bootstrapReported {ok : Bool}
    (hstep : s.bootstrapReported setup ok = some t) (hzero : s.handleCount = 0) :
    t.handleCount = 0 := by
  unfold TopicState.bootstrapReported at hstep
  split at hstep
  · split at hstep
    · obtain rfl := Option.some.inj hstep
      split
      · unfold TopicState.beginSpawn
        split
        · exact handleCount_of_subset hzero rfl rfl rfl rfl (List.Subset.refl _)
        · exact handleCount_of_subset hzero rfl rfl rfl rfl (List.Subset.refl _)
      · exact handleCount_of_subset hzero rfl rfl rfl rfl (List.Subset.refl _)
    · obtain rfl := Option.some.inj hstep
      exact handleCount_of_subset hzero rfl rfl rfl rfl (List.Subset.refl _)
  · cases hstep

theorem handleCount_effect {op : TopicOp} (hstep : s.effect setup op = some t)
    (h : Guarded s) (hzero : s.handleCount = 0) : t.handleCount = 0 := by
  cases op with
  | user op =>
      have hpos := handleCount_pos_of_user hstep h
      omega
  | answer i ok =>
      obtain ⟨-, -, -, hcalls, -⟩ := handleCount_eq_zero_iff.mp hzero
      simp [TopicState.effect, TopicState.answer, hcalls] at hstep
  | new op =>
      have hpos := new_handles_pos_of_newOp hstep
      obtain ⟨-, hnew, -⟩ := handleCount_eq_zero_iff.mp hzero
      omega
  | spawn who op => exact handleCount_spawnOp hstep hzero
  | bootstrapReported ok => exact handleCount_bootstrapReported hstep hzero
  | bootstrapActorEnded =>
      obtain ⟨-, rfl⟩ := of_bootstrapActorEnded hstep
      exact handleCount_dropHeldBy hzero .bootstrapActor
  | bootstrapTaskEnded =>
      obtain rfl := Option.some.inj hstep
      exact handleCount_dropHeldBy hzero .bootstrapTask
  | workerEnded worker =>
      obtain rfl := Option.some.inj hstep
      exact handleCount_dropHeldBy hzero (.worker worker)
  | tokenCancelled =>
      obtain rfl := Option.some.inj hstep
      exact hzero

structure Sound (s : TopicState) : Prop where
  guarded : Guarded s
  dropped : s.actorDropped = true ↔ s.handleCount = 0
  cancelled : s.actorDropped = true → s.cancelled = true

theorem sound_of_step (s : TopicState) (op : TopicOp) (t : TopicState)
    (hstep : s.step setup op = some t) (h : Sound s) : Sound t := by
  obtain ⟨m, heffect, rfl⟩ := Option.map_eq_some_iff.mp hstep
  have hframe := frame_effect heffect
  have hzero : m.actorDropped = true → m.handleCount = 0 := by
    intro hdropped
    rw [hframe.actorDropped] at hdropped
    exact handleCount_effect heffect h.guarded (h.dropped.mp hdropped)
  refine ⟨guarded_release (hframe.guarded h.guarded), ?_, ?_⟩
  · unfold TopicState.release
    split
    · next hlast =>
        have hcount : m.dropActor.handleCount = 0 := hlast.1
        exact ⟨fun _ => hcount, fun _ => rfl⟩
    · next hlast =>
        refine ⟨hzero, fun hcount => ?_⟩
        by_contra hdropped
        exact hlast ⟨hcount, Bool.eq_false_iff.mpr hdropped⟩
  · unfold TopicState.release
    split
    · exact fun _ => rfl
    · intro hdropped
      exact hframe.cancelled (h.cancelled (hframe.actorDropped ▸ hdropped))

theorem sound_start : Sound TopicState.start where
  guarded := ⟨by simp [TopicState.start], by simp [TopicState.start]⟩
  dropped := by decide
  cancelled := by decide

theorem sound_of_run {ops : List TopicOp}
    (hrun : run (TopicState.step setup) TopicState.start ops = some s) : Sound s :=
  run_preserves sound_of_step hrun sound_start

/-- The strong count is 0 exactly when no ownership edge leads to the handle. -/
theorem handleCount_eq_zero_iff_not_owns :
    s.handleCount = 0 ↔ ∀ value, ¬ Owns s value .handle := by
  constructor
  · intro hzero value howns
    obtain ⟨htopics, hnew, hstartup, -, -⟩ := handleCount_eq_zero_iff.mp hzero
    cases howns with
    | userTopic hpos => omega
    | newLocal hpos => omega
    | startupUpgrade hpos => omega
    | allocatedTopic allocation hlive =>
        have hcard : 0 < s.topicRefs.card := Finset.card_pos.mpr ⟨allocation, hlive⟩
        rw [TopicState.handleCount] at hzero
        omega
  · intro hnone
    have htopics : ¬ 0 < s.topics := fun hpos => hnone _ (.userTopic hpos)
    have hnew : ¬ 0 < s.new.handles := fun hpos => hnone _ (.newLocal hpos)
    have hstartup : ¬ 0 < s.startup.handles := fun hpos => hnone _ (.startupUpgrade hpos)
    have hrefs : s.topicRefs = ∅ := by
      apply Finset.eq_empty_of_forall_notMem
      intro allocation hlive
      exact hnone _ (.allocatedTopic allocation hlive)
    rw [TopicState.handleCount, hrefs, Finset.card_empty]
    omega

def IsTask : Value → Prop
  | .holder .bootstrapActor => True
  | .holder .bootstrapTask => True
  | .holder (.worker _) => True
  | .startupTask => True
  | .topicActor => True
  | _ => False

/-- What a task can reach while it has no call in progress. -/
def Internal (s : TopicState) : Value → Prop
  | .channel i => ∀ channel, s.channels[i]? = some channel → channel.topicKeepAlive = none
  | value => IsTask value

theorem Internal.not_owns_handle {value : Value} (h : Internal s value)
    (hstartup : s.startup.handles = 0) : ¬ Owns s value .handle := by
  intro howns
  cases howns with
  | userTopic hpos => exact h
  | newLocal hpos => exact h
  | startupUpgrade hpos => omega
  | allocatedTopic allocation hlive => exact h

theorem Internal.of_owns {value owned : Value} (h : Internal s value) (hguarded : Guarded s)
    (hstartup : s.startup.handles = 0) (howns : Owns s value owned) : Internal s owned := by
  cases howns with
  | userTopic hpos => exact h.elim
  | newLocal hpos => exact h.elim
  | newBootstrap hpos => exact h.elim
  | startupUpgrade hpos => omega
  | handleActor hlive => exact h.elim
  | actorBootstrap hlive => trivial
  | actorWorker worker hlive => trivial
  | heldChannel i channel hget =>
      intro channel' hget'
      obtain rfl := Option.some.inj (hget.symm.trans hget')
      refine hguarded.internal channel (List.mem_of_getElem? hget) ?_
      intro huser
      rw [huser] at h
      exact h
  | keepAlive i channel allocation hget hkeep =>
      rw [h channel hget] at hkeep
      cases hkeep
  | callTopic i call hget => exact h.elim
  | allocatedTopic allocation hlive => exact h.elim

theorem internal_of_reachable {root value : Value} (hroot : IsTask root)
    (hguarded : Guarded s) (hstartup : s.startup.handles = 0)
    (hreach : Relation.ReflTransGen (Owns s) root value) : Internal s value := by
  induction hreach with
  | refl =>
      cases root with
      | channel i => exact hroot.elim
      | _ => exact hroot
  | tail _ howns ih => exact ih.of_owns hguarded hstartup howns

def UserHolds (s : TopicState) : Prop :=
  0 < s.topics ∨ ∃ channel ∈ s.channels, channel.holder = .user

def NoCallInProgress (s : TopicState) : Prop :=
  s.new.handles = 0 ∧ s.startup.handles = 0 ∧ s.calls = []

/-- The topic actor is alive while the user holds anything of the topic. Once the
user holds nothing and no call is in progress, no task can reach an owner of the
handle, so the actor is dropped and the token cancelled. -/
theorem topicActor_lifetime {ops : List TopicOp}
    (hrun : run (TopicState.step setup) TopicState.start ops = some s) :
    (UserHolds s → s.actorDropped = false) ∧
      (¬ UserHolds s → NoCallInProgress s →
        (∀ root, IsTask root → ∀ value, Relation.ReflTransGen (Owns s) root value →
          ¬ Owns s value .handle) ∧
        (∀ value, ¬ Owns s value .handle) ∧ s.actorDropped = true ∧ s.cancelled = true) := by
  have hsound := sound_of_run hrun
  constructor
  · intro hholds
    apply Bool.eq_false_iff.mpr
    intro hdropped
    obtain ⟨htopics, -, -, -, hchannels⟩ := handleCount_eq_zero_iff.mp (hsound.dropped.mp hdropped)
    rcases hholds with hpos | ⟨channel, hchannel, hholder⟩
    · omega
    · exact hsound.guarded.user channel hchannel hholder (hchannels channel hchannel)
  · rintro hholds ⟨hnew, hstartup, hcalls⟩
    have hzero : s.handleCount = 0 := by
      refine handleCount_eq_zero_iff.mpr ⟨?_, hnew, hstartup, hcalls, ?_⟩
      · exact Nat.eq_zero_of_not_pos fun hpos => hholds (.inl hpos)
      · intro channel hchannel
        exact hsound.guarded.internal channel hchannel
          fun hholder => hholds (.inr ⟨channel, hchannel, hholder⟩)
    have hdropped := hsound.dropped.mpr hzero
    refine ⟨?_, handleCount_eq_zero_iff_not_owns.mp hzero, hdropped, hsound.cancelled hdropped⟩
    intro root hroot value hreach
    exact (internal_of_reachable hroot hsound.guarded hstartup hreach).not_owns_handle hstartup

def splitThenDrop : List TopicOp :=
  [.new (.bootstrapped true), .user (.request .sender), .answer 0 true, .user .dropTopic,
    .user (.cloneChannel 4), .user (.dropChannel 4)]

theorem topicActor_lifetime_splitThenDrop :
    ∃ s t : TopicState,
      run (TopicState.step ⟨true, true, true, true⟩) TopicState.start splitThenDrop = some s ∧
      s.actorDropped = false ∧
      run (TopicState.step ⟨true, true, true, true⟩) TopicState.start
        (splitThenDrop ++ [.user (.dropChannel 4)]) = some t ∧
      t.actorDropped = true ∧ t.cancelled = true := by
  have halive : ∃ s ∈ run (TopicState.step ⟨true, true, true, true⟩) TopicState.start
      splitThenDrop, ∃ channel ∈ s.channels, channel.holder = .user := by
    decide
  have hgone : ∃ t ∈ run (TopicState.step ⟨true, true, true, true⟩) TopicState.start
      (splitThenDrop ++ [.user (.dropChannel 4)]),
      (t.topics = 0 ∧ ∀ channel ∈ t.channels, channel.holder ≠ .user) ∧
        t.new.handles = 0 ∧ t.startup.handles = 0 ∧ t.calls = [] := by
    decide
  rcases halive with ⟨s, hs, hholds⟩
  rcases hgone with ⟨t, ht, ⟨htopics, hchannels⟩, hidle⟩
  have hnone : ¬ UserHolds t := by
    rintro (hpos | ⟨channel, hchannel, hholder⟩)
    · omega
    · exact hchannels channel hchannel hholder
  obtain ⟨-, -, hdropped, hcancelled⟩ := (topicActor_lifetime ht).2 hnone hidle
  exact ⟨s, t, hs, (topicActor_lifetime hs).1 (.inr hholds), ht, hdropped, hcancelled⟩

end TopicTracker.TopicLifetime
