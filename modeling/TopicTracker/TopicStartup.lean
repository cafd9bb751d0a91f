import TopicTracker.TopicLifetime

namespace TopicTracker.TopicStartup

open TopicTracker.StepMachine
open TopicTracker.TopicOwnership
open TopicTracker.TopicOwnership.TopicState
open TopicTracker.TopicLifetime

variable {setup : Setup} {s t : TopicState}

/-- Nothing outside of `Topic::new` and the background task holds the handle. -/
def Unshared (s : TopicState) : Prop :=
  s.topics = 0 ∧ s.calls = [] ∧ ∀ channel ∈ s.channels, channel.topicKeepAlive = none

/-- Before `Topic::new` returns its topic nobody shares the handle. The background task
starts workers in the asynchronous mode only, where `Topic::new` has returned by
then, and its failures cancel the token. -/
structure Startup (setup : Setup) (s : TopicState) : Prop where
  unshared : s.new ≠ .returned → Unshared s
  returned : setup.asyncBootstrap = true → s.startup ≠ .notSpawned → s.new = .returned
  spawning : ∀ work, s.startup = .spawning work → setup.asyncBootstrap = true
  failed : s.startup = .failed → s.cancelled = true

theorem startup_start : Startup setup TopicState.start where
  unshared _ := ⟨rfl, rfl, by simp [TopicState.start]⟩
  returned _ h := absurd rfl h
  spawning work h := by cases h
  failed h := by cases h

theorem Unshared.of_subset (h : Unshared s) (htopics : t.topics = s.topics)
    (hcalls : t.calls = s.calls) (hsub : t.channels ⊆ s.channels) : Unshared t :=
  ⟨htopics.trans h.1, hcalls.trans h.2.1, fun channel hchannel => h.2.2 channel (hsub hchannel)⟩

theorem Unshared.of_clones (h : Unshared s) {sides : List Side} {holder : Holder}
    (htopics : t.topics = s.topics) (hcalls : t.calls = s.calls)
    (hchannels : t.channels = s.channels ++ s.cloneChannels sides holder) : Unshared t := by
  refine ⟨htopics.trans h.1, hcalls.trans h.2.1, fun channel hchannel => ?_⟩
  rw [hchannels] at hchannel
  rcases List.mem_append.mp hchannel with hold | hnew
  · exact h.2.2 channel hold
  · obtain ⟨original, horiginal, rfl⟩ := List.mem_map.mp hnew
    exact h.2.2 original (List.mem_of_mem_filter horiginal)

theorem Startup.of_frame (h : Startup setup s) (hframe : Frame s t) (hnew : t.new = s.new)
    (hstartup : t.startup = s.startup) (hunshared : s.new ≠ .returned → Unshared t) :
    Startup setup t where
  unshared hne := hunshared (hnew ▸ hne)
  returned hasync hne := by
    rw [hnew]
    exact h.returned hasync (hstartup ▸ hne)
  spawning work hwork := h.spawning work (hstartup ▸ hwork)
  failed hfailed := hframe.cancelled (h.failed (hstartup ▸ hfailed))

theorem Startup.of_startup (h : Startup setup s) (hspawned : s.startup ≠ .notSpawned)
    (hnew : t.new = s.new) (hunshared : s.new ≠ .returned → Unshared t)
    (hspawning : ∀ work, t.startup = .spawning work → setup.asyncBootstrap = true)
    (hfailed : t.startup = .failed → t.cancelled = true) : Startup setup t where
  unshared hne := hunshared (hnew ▸ hne)
  returned hasync _ := hnew.trans (h.returned hasync hspawned)
  spawning := hspawning
  failed := hfailed

theorem Startup.of_new (h : Startup setup s) (hframe : Frame s t) (hopen : s.new ≠ .returned)
    (hstartup : t.startup = s.startup) (hunshared : t.new ≠ .returned → Unshared t) :
    Startup setup t where
  unshared := hunshared
  returned hasync hne := absurd (h.returned hasync (hstartup ▸ hne)) hopen
  spawning work hwork := h.spawning work (hstartup ▸ hwork)
  failed hfailed := hframe.cancelled (h.failed (hstartup ▸ hfailed))

theorem Startup.unshared_handleCount (h : Startup setup s) (hopen : s.new ≠ .returned) :
    s.handleCount = s.new.handles := by
  obtain ⟨htopics, hcalls, hchannels⟩ := h.unshared hopen
  have hrefs : s.topicRefs = ∅ := by
    rw [TopicState.topicRefs, List.toFinset_eq_empty_iff, List.append_eq_nil_iff,
      List.map_eq_nil_iff, List.filterMap_eq_nil_iff]
    exact ⟨hcalls, hchannels⟩
  have hstartup : s.startup.handles = 0 := by
    cases hstage : s.startup with
    | spawning work =>
        have hreturned := h.returned (h.spawning work hstage) (by simp [hstage])
        exact absurd hreturned hopen
    | _ => rfl
  rw [TopicState.handleCount, htopics, hstartup, hrefs, Finset.card_empty]
  omega

/-- A user acts on a topic, a call or a channel of its own, and not on the two tasks. -/
theorem user_spec {op : UserOp} (hstep : s.user op = some t) :
    (t.new = s.new ∧ t.startup = s.startup) ∧
      (0 < s.topics ∨ s.calls ≠ [] ∨ ∃ channel ∈ s.channels, channel.holder = .user) := by
  cases op <;>
    simp only [TopicState.user, Option.bind_eq_bind, Option.bind_eq_some_iff,
      Option.ite_none_right_eq_some, Option.some.injEq] at hstep
  case cloneTopic =>
    rcases hstep with ⟨hpos, rfl⟩
    exact ⟨⟨rfl, rfl⟩, .inl hpos⟩
  case dropTopic =>
    rcases hstep with ⟨hpos, rfl⟩
    exact ⟨⟨rfl, rfl⟩, .inl hpos⟩
  case request =>
    rcases hstep with ⟨hpos, rfl⟩
    exact ⟨⟨rfl, rfl⟩, .inl hpos⟩
  case abandon =>
    rcases hstep with ⟨call, hget, rfl⟩
    exact ⟨⟨rfl, rfl⟩, .inr (.inl (List.ne_nil_of_mem (List.mem_of_getElem? hget)))⟩
  case cloneChannel =>
    rcases hstep with ⟨channel, hget, hholder, rfl⟩
    exact ⟨⟨rfl, rfl⟩, .inr (.inr ⟨channel, List.mem_of_getElem? hget, hholder⟩)⟩
  case dropChannel =>
    rcases hstep with ⟨channel, hget, hholder, rfl⟩
    exact ⟨⟨rfl, rfl⟩, .inr (.inr ⟨channel, List.mem_of_getElem? hget, hholder⟩)⟩

theorem new_returned_of_user {op : UserOp} (hstep : s.user op = some t) (hguarded : Guarded s)
    (h : Startup setup s) : s.new = .returned := by
  by_contra hopen
  obtain ⟨htopics, hcalls, hchannels⟩ := h.unshared hopen
  rcases (user_spec hstep).2 with hpos | hne | ⟨channel, hmem, hholder⟩
  · exact absurd htopics (Nat.ne_of_gt hpos)
  · exact hne hcalls
  · exact hguarded.user channel hmem hholder (hchannels channel hmem)

theorem Unshared.endNew (h : Unshared s) (stage : NewStage) : Unshared (s.endNew stage) :=
  h.of_subset rfl rfl (List.filter_subset_self _)

theorem Startup.endNew (h : Startup setup s) (hopen : s.new ≠ .returned) (stage : NewStage) :
    Startup setup (s.endNew stage) :=
  h.of_new (frame_endNew s stage) hopen rfl fun _ => (h.unshared hopen).endNew stage

theorem Startup.spawnFailed (h : Startup setup s) (hopen : s.new ≠ .returned) :
    Startup setup (s.spawnFailed .topicNew) :=
  h.of_new (frame_spawnFailed s .topicNew) hopen rfl
    fun _ => (h.unshared hopen).of_subset rfl rfl (List.filter_subset_self _)

theorem Startup.setSpawning (h : Startup setup s) (hopen : s.new ≠ .returned)
    (work : Spawning) : Startup setup (s.setSpawning work .topicNew) :=
  h.of_new (frame_setSpawning s work .topicNew) hopen rfl
    fun _ => (h.unshared hopen).of_subset rfl rfl (List.Subset.refl _)

theorem Startup.beginSpawn (h : Startup setup s) (hopen : s.new ≠ .returned) :
    Startup setup (s.beginSpawn setup .topicNew) := by
  unfold TopicState.beginSpawn
  split
  · exact h.spawnFailed hopen
  · exact h.setSpawning hopen _

theorem new_open_of_newOp {op : NewOp} (hstep : s.newOp setup op = some t) :
    s.new ≠ .returned := by
  intro hreturned
  have hpos := new_handles_pos_of_newOp hstep
  simp [hreturned, NewStage.handles] at hpos

theorem startup_newOp {op : NewOp} (hstep : s.newOp setup op = some t) (h : Startup setup s) :
    Startup setup t := by
  have hframe := frame_newOp hstep
  have hopen := new_open_of_newOp hstep
  have hunshared := h.unshared hopen
  unfold TopicState.newOp at hstep
  split at hstep
  · obtain rfl := Option.some.inj hstep
    exact h.endNew hopen .failed
  · obtain rfl := Option.some.inj hstep
    split
    · exact ⟨fun hne => absurd rfl hne, fun _ _ => rfl, fun work hwork => (by cases hwork),
        fun hfailed => (by cases hfailed)⟩
    · next hsync =>
        exact ⟨fun _ => hunshared.of_clones rfl rfl rfl,
          fun hasync _ => absurd hasync hsync, fun work hwork => (by cases hwork),
          fun hfailed => (by cases hfailed)⟩
  · obtain rfl := Option.some.inj hstep
    exact h.endNew hopen .failed
  · obtain rfl := Option.some.inj hstep
    exact h.of_new hframe hopen rfl fun _ => hunshared.of_clones rfl rfl rfl
  · obtain rfl := Option.some.inj hstep
    exact h.endNew hopen .failed
  · obtain rfl := Option.some.inj hstep
    have hdropped : Startup setup (s.dropHeldBy .topicNew) :=
      h.of_new (frame_dropHeldBy s .topicNew) hopen rfl
        fun _ => hunshared.of_subset rfl rfl (List.filter_subset_self _)
    exact hdropped.beginSpawn hopen
  · cases hstep
  · cases hstep
  · cases hstep
  · obtain rfl := Option.some.inj hstep
    exact h.endNew hopen .abandoned
  · cases hstep

theorem startup_spawnOp_topicNew {op : SpawnOp} (hstep : s.spawnOp .topicNew op = some t)
    (h : Startup setup s) : Startup setup t := by
  have hframe := frame_spawnOp hstep
  obtain ⟨work, hwork, hcases⟩ := spawnOp_cases hstep
  have hopen : s.new ≠ .returned := by simp [spawning_topicNew hwork]
  rcases hcases with ⟨-, -, rfl⟩ | rfl | ⟨worker, rest, -, rfl⟩ | ⟨rest, -, rfl⟩ | ⟨-, rfl⟩ |
    ⟨hwho, -⟩
  · exact h.setSpawning hopen _
  · exact h.spawnFailed hopen
  · exact h.of_new hframe hopen rfl fun _ => (h.unshared hopen).of_clones rfl rfl rfl
  · exact h.setSpawning hopen _
  · exact h.of_new hframe hopen rfl fun hne => absurd rfl hne
  · cases hwho

theorem startup_spawnOp_startupTask {op : SpawnOp}
    (hstep : s.spawnOp .startupTask op = some t) (h : Startup setup s) : Startup setup t := by
  obtain ⟨work, hwork, hcases⟩ := spawnOp_cases hstep
  have hstage := spawning_startup hwork
  have hspawned : s.startup ≠ .notSpawned := by simp [hstage]
  have hasync := h.spawning work hstage
  have hreturned := h.returned hasync hspawned
  have hshared : s.new ≠ .returned → Unshared t := fun hopen => absurd hreturned hopen
  rcases hcases with ⟨-, -, rfl⟩ | rfl | ⟨worker, rest, -, rfl⟩ | ⟨rest, -, rfl⟩ | ⟨hwho, -⟩ |
    ⟨-, rfl⟩
  · exact h.of_startup hspawned rfl hshared (fun _ _ => hasync) (fun hfailed => by cases hfailed)
  · exact h.of_startup hspawned rfl hshared (fun _ _ => hasync) (fun _ => rfl)
  · exact h.of_startup hspawned rfl hshared (fun _ _ => hasync) (fun hfailed => by cases hfailed)
  · exact h.of_startup hspawned rfl hshared (fun _ _ => hasync) (fun hfailed => by cases hfailed)
  · cases hwho
  · exact h.of_startup hspawned rfl hshared (fun _ _ => hasync) (fun hfailed => by cases hfailed)

theorem startup_bootstrapReported {ok : Bool}
    (hstep : s.bootstrapReported setup ok = some t) (h : Startup setup s) :
    Startup setup t := by
  unfold TopicState.bootstrapReported at hstep
  split at hstep
  · next hwaiting =>
      have hspawned : s.startup ≠ .notSpawned := by simp [hwaiting]
      split at hstep
      · obtain rfl := Option.some.inj hstep
        split
        · next hasync =>
            unfold TopicState.beginSpawn
            split
            · exact h.of_startup hspawned rfl h.unshared (fun _ _ => hasync) (fun _ => rfl)
            · exact h.of_startup hspawned rfl h.unshared (fun _ _ => hasync)
                (fun hfailed => by cases hfailed)
        · exact h.of_startup hspawned rfl h.unshared (fun work hwork => by cases hwork)
            (fun hfailed => by cases hfailed)
      · obtain rfl := Option.some.inj hstep
        exact h.of_startup hspawned rfl h.unshared (fun work hwork => by cases hwork)
          (fun _ => rfl)
  · cases hstep

theorem Startup.dropHeldBy (h : Startup setup s) (holder : Holder) :
    Startup setup (s.dropHeldBy holder) :=
  h.of_frame (frame_dropHeldBy s holder) rfl rfl
    fun hopen => (h.unshared hopen).of_subset rfl rfl (List.filter_subset_self _)

theorem startup_effect {op : TopicOp} (hstep : s.effect setup op = some t)
    (hguarded : Guarded s) (h : Startup setup s) : Startup setup t := by
  have hframe := frame_effect hstep
  cases op with
  | user op =>
      have hreturned := new_returned_of_user hstep hguarded h
      obtain ⟨hnew, hstartup⟩ := (user_spec hstep).1
      exact h.of_frame hframe hnew hstartup fun hopen => absurd hreturned hopen
  | answer i ok =>
      simp only [TopicState.effect, TopicState.answer, Option.bind_eq_bind,
        Option.bind_eq_some_iff, Option.some.injEq] at hstep
      rcases hstep with ⟨call, hget, rfl⟩
      apply h.of_frame hframe rfl rfl
      intro hopen
      have hcalls : s.calls = [] := (h.unshared hopen).2.1
      simp [hcalls] at hget
  | new op => exact startup_newOp hstep h
  | spawn who op =>
      cases who with
      | topicNew => exact startup_spawnOp_topicNew hstep h
      | startupTask => exact startup_spawnOp_startupTask hstep h
  | bootstrapReported ok => exact startup_bootstrapReported hstep h
  | bootstrapActorEnded =>
      obtain ⟨-, rfl⟩ := of_bootstrapActorEnded hstep
      exact h.dropHeldBy .bootstrapActor
  | bootstrapTaskEnded =>
      obtain rfl := Option.some.inj hstep
      exact h.dropHeldBy .bootstrapTask
  | workerEnded worker =>
      obtain rfl := Option.some.inj hstep
      exact h.dropHeldBy (.worker worker)
  | tokenCancelled =>
      obtain rfl := Option.some.inj hstep
      exact h.of_frame hframe rfl rfl h.unshared

theorem Startup.release (h : Startup setup s) : Startup setup s.release := by
  unfold TopicState.release
  split
  · exact ⟨h.unshared, h.returned, h.spawning, fun _ => rfl⟩
  · exact h

theorem startup_of_step (s : TopicState) (op : TopicOp) (t : TopicState)
    (hstep : s.step setup op = some t) (h : Sound s ∧ Startup setup s) :
    Sound t ∧ Startup setup t := by
  refine ⟨sound_of_step s op t hstep h.1, ?_⟩
  obtain ⟨m, heffect, rfl⟩ := Option.map_eq_some_iff.mp hstep
  exact (startup_effect heffect h.1.guarded h.2).release

theorem cancelled_of_step (s : TopicState) (op : TopicOp) (t : TopicState)
    (hstep : s.step setup op = some t) (h : s.cancelled = true) : t.cancelled = true := by
  obtain ⟨m, heffect, rfl⟩ := Option.map_eq_some_iff.mp hstep
  unfold TopicState.release
  split
  · rfl
  · exact (frame_effect heffect).cancelled h

/-- In both modes and for every order of the steps of `Topic::new` and of the
background task, a failure of either leaves the token cancelled for good: by an
explicit cancel, or because the failed `Topic::new` held the last handle. -/
theorem failed_startup_cancels {ops : List TopicOp}
    (hrun : run (TopicState.step setup) TopicState.start ops = some s)
    (hfailed : s.new = .failed ∨ s.startup = .failed) :
    s.cancelled = true ∧
      ∀ later t, run (TopicState.step setup) s later = some t → t.cancelled = true := by
  obtain ⟨hsound, hstartup⟩ := run_preserves startup_of_step hrun ⟨sound_start, startup_start⟩
  have hcancelled : s.cancelled = true := by
    rcases hfailed with hnew | hstage
    · have hopen : s.new ≠ .returned := by simp [hnew]
      have hzero : s.handleCount = 0 := by
        rw [hstartup.unshared_handleCount hopen, hnew]
        rfl
      exact hsound.cancelled (hsound.dropped.mpr hzero)
    · exact hstartup.failed hstage
  exact ⟨hcancelled, fun later t hlater => run_preserves cancelled_of_step hlater hcancelled⟩

/-- The second worker of a waiting `Topic::new` fails to start; the background task
of an asynchronous one loses its bootstrap. -/
theorem failed_startup_cancels_sample :
    (∃ s ∈ run (TopicState.step ⟨false, true, true, true⟩) TopicState.start
        [.new (.bootstrapped true), .new (.gotReceiver true), .new (.joined true),
          .spawn .topicNew .upgrade, .spawn .topicNew (.answered .started),
          .spawn .topicNew .upgrade, .spawn .topicNew (.answered .failed)],
      s.new = .failed ∧ s.cancelled = true) ∧
      ∃ s ∈ run (TopicState.step ⟨true, true, true, true⟩) TopicState.start
          [.new (.bootstrapped true), .bootstrapReported false],
        s.startup = .failed ∧ s.cancelled = true := by
  have hnew : ∃ s ∈ run (TopicState.step ⟨false, true, true, true⟩) TopicState.start
      [.new (.bootstrapped true), .new (.gotReceiver true), .new (.joined true),
        .spawn .topicNew .upgrade, .spawn .topicNew (.answered .started),
        .spawn .topicNew .upgrade, .spawn .topicNew (.answered .failed)],
      s.new = .failed := by
    decide
  have htask : ∃ s ∈ run (TopicState.step ⟨true, true, true, true⟩) TopicState.start
      [.new (.bootstrapped true), .bootstrapReported false], s.startup = .failed := by
    decide
  rcases hnew with ⟨s, hs, hfailed⟩
  rcases htask with ⟨t, ht, hended⟩
  exact ⟨⟨s, hs, hfailed, (failed_startup_cancels hs (.inl hfailed)).1⟩,
    ⟨t, ht, hended, (failed_startup_cancels ht (.inr hended)).1⟩⟩

end TopicTracker.TopicStartup
