import TopicTracker.TopicStartup

namespace TopicTracker.WorkerStartup

open TopicTracker.StepMachine
open TopicTracker.TopicOwnership
open TopicTracker.TopicOwnership.TopicState
open TopicTracker.TopicLifetime
open TopicTracker.TopicStartup

variable {setup : Setup} {s t : TopicState} {log : List (Spawner × Worker)}

/-- Who runs `spawn_workers` in the mode of the setup. -/
def spawnerOf (setup : Setup) : Spawner :=
  if setup.asyncBootstrap then .startupTask else .topicNew

def attempted (s : TopicState) : TopicOp → List (Spawner × Worker)
  | .spawn who (.answered _) =>
      match s.spawning who with
      | some ⟨worker :: _, true⟩ => [(who, worker)]
      | _ => []
  | _ => []

def attempts (setup : Setup) (ops : List TopicOp) : List (Spawner × Worker) :=
  outputs (TopicState.step setup) attempted TopicState.start ops

/-- How far a task has come with the workers. -/
inductive Progress
  | before
  | during (work : Spawning)
  | done
  | never

def progress (s : TopicState) : Spawner → Progress
  | .topicNew =>
      match s.new with
      | .spawning work => .during work
      | .returned => .done
      | .failed => .never
      | .abandoned => .never
      | _ => .before
  | .startupTask =>
      match s.startup with
      | .notSpawned => .before
      | .waiting => .before
      | .spawning work => .during work
      | .finished => .done
      | .failed => .never

theorem progress_of_spawning {who : Spawner} {work : Spawning}
    (h : s.spawning who = some work) : progress s who = .during work := by
  cases who with
  | topicNew => rw [progress, spawning_topicNew h]
  | startupTask => rw [progress, spawning_startup h]

theorem newOp_cases {op : NewOp} (hstep : s.newOp setup op = some t) :
    (t.startup = s.startup ∧ progress t .topicNew = .never) ∨
      (s.new = .bootstrapping ∧ t.startup = .waiting ∧
        t.new = if setup.asyncBootstrap then .returned else .awaitingReceiver) ∨
      (t.startup = s.startup ∧ s.new = .awaitingReceiver ∧ t.new = .awaitingJoined) ∨
      (t.startup = s.startup ∧ s.new = .awaitingJoined ∧ op = .joined true ∧
        s.cancelled = false ∧ t.new = .spawning ⟨setup.workers, false⟩) := by
  unfold TopicState.newOp at hstep
  split at hstep
  · obtain rfl := Option.some.inj hstep
    exact .inl ⟨rfl, rfl⟩
  · next hnew =>
      obtain rfl := Option.some.inj hstep
      refine .inr (.inl ⟨hnew, ?_⟩)
      split <;> exact ⟨rfl, rfl⟩
  · obtain rfl := Option.some.inj hstep
    exact .inl ⟨rfl, rfl⟩
  · next hnew =>
      obtain rfl := Option.some.inj hstep
      exact .inr (.inr (.inl ⟨rfl, hnew, rfl⟩))
  · obtain rfl := Option.some.inj hstep
    exact .inl ⟨rfl, rfl⟩
  · next hnew =>
      obtain rfl := Option.some.inj hstep
      unfold TopicState.beginSpawn
      split
      · exact .inl ⟨rfl, rfl⟩
      · next hgoing =>
          exact .inr (.inr (.inr ⟨rfl, hnew, rfl, Bool.not_eq_true _ ▸ hgoing, rfl⟩))
  · cases hstep
  · cases hstep
  · cases hstep
  · obtain rfl := Option.some.inj hstep
    exact .inl ⟨rfl, rfl⟩
  · cases hstep

theorem bootstrapReported_cases {ok : Bool} (hstep : s.bootstrapReported setup ok = some t) :
    s.startup = .waiting ∧ t.new = s.new ∧ (t.startup = .failed ∨
      (setup.asyncBootstrap = false ∧ t.startup = .finished) ∨
      (setup.asyncBootstrap = true ∧ ok = true ∧ s.cancelled = false ∧
        t.startup = .spawning ⟨setup.workers, false⟩)) := by
  unfold TopicState.bootstrapReported at hstep
  split at hstep
  · next hwaiting =>
      refine ⟨hwaiting, ?_⟩
      split at hstep
      · next hok =>
          obtain rfl := Option.some.inj hstep
          split
          · next hasync =>
              unfold TopicState.beginSpawn
              split
              · exact ⟨rfl, .inl rfl⟩
              · next hgoing =>
                  exact ⟨rfl, .inr (.inr ⟨hasync, hok, Bool.not_eq_true _ ▸ hgoing, rfl⟩)⟩
          · next hsync => exact ⟨rfl, .inr (.inl ⟨Bool.not_eq_true _ ▸ hsync, rfl⟩)⟩
      · obtain rfl := Option.some.inj hstep
        exact ⟨rfl, .inl rfl⟩
  · cases hstep

/-- A step of `spawn_workers`, and which worker it tries to start. -/
inductive Spawns (s t : TopicState) (who : Spawner) : List (Spawner × Worker) → Prop
  | upgraded (work : Spawning) (hwork : s.spawning who = some work)
      (hprogress : progress t who = .during { work with calling := true }) : Spawns s t who []
  | ownerless (work : Spawning) (hwork : s.spawning who = some work)
      (hprogress : progress t who = .never) : Spawns s t who []
  | failed (worker : Worker) (rest : List Worker)
      (hwork : s.spawning who = some ⟨worker :: rest, true⟩)
      (hprogress : progress t who = .never) : Spawns s t who [(who, worker)]
  | tried (worker : Worker) (rest : List Worker)
      (hwork : s.spawning who = some ⟨worker :: rest, true⟩)
      (hprogress : progress t who = .during ⟨rest, false⟩) : Spawns s t who [(who, worker)]
  | finished (hwork : s.spawning who = some ⟨[], false⟩)
      (hprogress : progress t who = .done) : Spawns s t who []

theorem Spawns.exists_spawning {who : Spawner} {more : List (Spawner × Worker)}
    (h : Spawns s t who more) : ∃ work, s.spawning who = some work := by
  cases h with
  | upgraded work hwork => exact ⟨_, hwork⟩
  | ownerless work hwork => exact ⟨_, hwork⟩
  | failed worker rest hwork => exact ⟨_, hwork⟩
  | tried worker rest hwork => exact ⟨_, hwork⟩
  | finished hwork => exact ⟨_, hwork⟩

theorem Spawns.progress_ne_before {who : Spawner} {more : List (Spawner × Worker)}
    (h : Spawns s t who more) : progress t who ≠ .before := by
  intro hbefore
  cases h with
  | upgraded work _ hprogress => cases hbefore.symm.trans hprogress
  | ownerless work _ hprogress => cases hbefore.symm.trans hprogress
  | failed worker rest _ hprogress => cases hbefore.symm.trans hprogress
  | tried worker rest _ hprogress => cases hbefore.symm.trans hprogress
  | finished _ hprogress => cases hbefore.symm.trans hprogress

theorem progress_setSpawning (s : TopicState) (work : Spawning) (who : Spawner) :
    progress (s.setSpawning work who) who = .during work := by
  cases who <;> rfl

theorem progress_spawnFailed (s : TopicState) (who : Spawner) :
    progress (s.spawnFailed who) who = .never := by
  cases who <;> rfl

theorem spawns_of_spawnOp {who : Spawner} {op : SpawnOp} (hstep : s.spawnOp who op = some t) :
    Spawns s t who (attempted s (.spawn who op)) := by
  simp only [TopicState.spawnOp, Option.bind_eq_bind, Option.bind_eq_some_iff] at hstep
  obtain ⟨work, hwork, hstep⟩ := hstep
  split at hstep
  · next worker rest =>
      split at hstep
      · obtain rfl := Option.some.inj hstep
        exact .upgraded _ hwork (progress_setSpawning _ _ _)
      · obtain rfl := Option.some.inj hstep
        exact .ownerless _ hwork (progress_spawnFailed _ _)
  · next worker rest =>
      obtain rfl := Option.some.inj hstep
      rw [attempted, hwork]
      exact .tried worker rest hwork (progress_setSpawning _ _ _)
  · next worker rest =>
      obtain rfl := Option.some.inj hstep
      rw [attempted, hwork]
      exact .tried worker rest hwork (progress_setSpawning _ _ _)
  · next worker rest =>
      obtain rfl := Option.some.inj hstep
      rw [attempted, hwork]
      exact .failed worker rest hwork (progress_spawnFailed _ _)
  · cases who with
    | topicNew =>
        obtain rfl := Option.some.inj hstep
        exact .finished hwork rfl
    | startupTask =>
        obtain rfl := Option.some.inj hstep
        exact .finished hwork rfl
  · cases hstep

theorem stages_of_spawnOp {who : Spawner} {op : SpawnOp} (hstep : s.spawnOp who op = some t) :
    (who = .topicNew → t.startup = s.startup) ∧ (who = .startupTask → t.new = s.new) := by
  obtain ⟨work, -, hcases⟩ := spawnOp_cases hstep
  constructor
  · rintro rfl
    rcases hcases with ⟨-, -, rfl⟩ | rfl | ⟨worker, rest, -, rfl⟩ | ⟨rest, -, rfl⟩ | ⟨-, rfl⟩ |
      ⟨hwho, -⟩
    · rfl
    · rfl
    · rfl
    · rfl
    · rfl
    · cases hwho
  · rintro rfl
    rcases hcases with ⟨-, -, rfl⟩ | rfl | ⟨worker, rest, -, rfl⟩ | ⟨rest, -, rfl⟩ | ⟨hwho, -⟩ |
      ⟨-, rfl⟩
    · rfl
    · rfl
    · rfl
    · rfl
    · cases hwho
    · rfl

def ofTask : TopicOp → Bool
  | .new _ => true
  | .spawn _ _ => true
  | .bootstrapReported _ => true
  | _ => false

theorem stages_of_effect {op : TopicOp} (hstep : s.effect setup op = some t)
    (hother : ofTask op = false) : t.new = s.new ∧ t.startup = s.startup := by
  cases op with
  | user op => exact (user_spec hstep).1
  | answer i ok =>
      simp only [TopicState.effect, TopicState.answer, Option.bind_eq_bind,
        Option.bind_eq_some_iff, Option.some.injEq] at hstep
      obtain ⟨call, -, rfl⟩ := hstep
      exact ⟨rfl, rfl⟩
  | new op => cases hother
  | spawn who op => cases hother
  | bootstrapReported ok => cases hother
  | bootstrapActorEnded =>
      obtain ⟨-, rfl⟩ := of_bootstrapActorEnded hstep
      exact ⟨rfl, rfl⟩
  | bootstrapTaskEnded =>
      obtain rfl := Option.some.inj hstep
      exact ⟨rfl, rfl⟩
  | workerEnded worker =>
      obtain rfl := Option.some.inj hstep
      exact ⟨rfl, rfl⟩
  | tokenCancelled =>
      obtain rfl := Option.some.inj hstep
      exact ⟨rfl, rfl⟩

/-- The attempts so far, and what is left to start. -/
def Accounts (setup : Setup) (log : List (Spawner × Worker)) : Progress → Prop
  | .before => log = []
  | .during work => log.map Prod.snd ++ work.remaining = setup.workers
  | .done => log.map Prod.snd = setup.workers
  | .never => log.map Prod.snd <+: setup.workers

theorem Accounts.ordered {stage : Progress} (h : Accounts setup log stage) :
    log.map Prod.snd <+: setup.workers := by
  cases stage with
  | before =>
      obtain rfl : log = [] := h
      exact List.nil_prefix
  | during work => exact ⟨work.remaining, h⟩
  | done => exact h ▸ List.prefix_rfl
  | never => exact h

def AwaitsNeighbor (s : TopicState) : Prop :=
  s.new = .awaitingReceiver ∨ s.new = .awaitingJoined

theorem not_awaitsNeighbor (h : progress t .topicNew ≠ .before) : ¬ AwaitsNeighbor t := by
  rintro (hnew | hnew)
  · exact h (by rw [progress, hnew])
  · exact h (by rw [progress, hnew])

/-- One task starts the workers. The other one passes by that stage. -/
structure Attempts (setup : Setup) (log : List (Spawner × Worker)) (s : TopicState) : Prop where
  accounts : Accounts setup log (progress s (spawnerOf setup))
  spawner : ∀ attempt ∈ log, attempt.1 = spawnerOf setup
  single : ∀ who work, progress s who = .during work → who = spawnerOf setup
  waiting : AwaitsNeighbor s → setup.asyncBootstrap = false

theorem spawnerOf_of_async (h : setup.asyncBootstrap = true) : spawnerOf setup = .startupTask :=
  if_pos h

theorem spawnerOf_of_sync (h : setup.asyncBootstrap = false) : spawnerOf setup = .topicNew :=
  if_neg (by simp [h])

theorem Attempts.of_task (h : Attempts setup log s) (who : Spawner) {more : List (Spawner × Worker)}
    (hnew : who = .startupTask → t.new = s.new)
    (hstartup : who = .topicNew → t.startup = s.startup)
    (hsingle : ∀ work, progress t who = .during work → who = spawnerOf setup)
    (hwaiting : who = .topicNew → AwaitsNeighbor t → setup.asyncBootstrap = false)
    (hmore : more ≠ [] → who = spawnerOf setup ∧ ∀ attempt ∈ more, attempt.1 = who)
    (haccounts : who = spawnerOf setup → Accounts setup (log ++ more) (progress t who)) :
    Attempts setup (log ++ more) t := by
  have hother : ∀ other, other ≠ who → progress t other = progress s other := by
    intro other hne
    cases other with
    | topicNew =>
        cases who with
        | topicNew => exact absurd rfl hne
        | startupTask => rw [progress, progress, hnew rfl]
    | startupTask =>
        cases who with
        | topicNew => rw [progress, progress, hstartup rfl]
        | startupTask => exact absurd rfl hne
  refine ⟨?_, ?_, ?_, ?_⟩
  · by_cases heq : who = spawnerOf setup
    · exact heq ▸ haccounts heq
    · obtain rfl : more = [] := not_not.mp fun hne => heq (hmore hne).1
      rw [List.append_nil, hother _ (Ne.symm heq)]
      exact h.accounts
  · intro attempt hattempt
    rcases List.mem_append.mp hattempt with hold | hadded
    · exact h.spawner attempt hold
    · obtain ⟨hwho, htried⟩ := hmore (List.ne_nil_of_mem hadded)
      exact (htried attempt hadded).trans hwho
  · intro other work hwork
    by_cases heq : other = who
    · subst heq
      exact hsingle work hwork
    · exact h.single other work ((hother other heq).symm.trans hwork)
  · cases who with
    | topicNew => exact hwaiting rfl
    | startupTask =>
        intro hawaits
        rw [AwaitsNeighbor, hnew rfl] at hawaits
        exact h.waiting hawaits

theorem Attempts.of_stages (h : Attempts setup log s) (hnew : t.new = s.new)
    (hstartup : t.startup = s.startup) : Attempts setup log t := by
  have hsame : ∀ who, progress t who = progress s who := by
    intro who
    cases who with
    | topicNew => rw [progress, progress, hnew]
    | startupTask => rw [progress, progress, hstartup]
  refine ⟨?_, h.spawner, fun who work hwork => ?_, fun hawaits => ?_⟩
  · rw [hsame]
    exact h.accounts
  · exact h.single who work ((hsame who).symm.trans hwork)
  · rw [AwaitsNeighbor, hnew] at hawaits
    exact h.waiting hawaits

theorem Attempts.nil_of_before (h : Attempts setup log s) {who : Spawner}
    (hwho : who = spawnerOf setup) (hbefore : progress s who = .before) : log = [] := by
  have haccounts := h.accounts
  rw [← hwho, hbefore] at haccounts
  exact haccounts

theorem attempts_bootstrapped (hstartup : Startup setup s) (h : Attempts setup log s)
    (hnew : s.new = .bootstrapping) (hwaiting : t.startup = .waiting)
    (hnext : t.new = if setup.asyncBootstrap then .returned else .awaitingReceiver) :
    Attempts setup log t := by
  have hbefore : progress t .startupTask = .before := by rw [progress, hwaiting]
  cases hasync : setup.asyncBootstrap with
  | true =>
      have hunspawned : s.startup = .notSpawned := by
        by_contra hspawned
        cases hnew.symm.trans (hstartup.returned hasync hspawned)
      have hwho := spawnerOf_of_async hasync
      have hnone : log = [] := h.nil_of_before hwho.symm (by rw [progress, hunspawned])
      rw [hasync, if_pos rfl] at hnext
      have hdone : progress t .topicNew = .done := by rw [progress, hnext]
      refine ⟨?_, h.spawner, ?_, ?_⟩
      · rw [hwho, hbefore]
        exact hnone
      · intro who work hwork
        cases who with
        | topicNew => cases hdone.symm.trans hwork
        | startupTask => cases hbefore.symm.trans hwork
      · intro hawaits
        exact absurd hawaits (not_awaitsNeighbor (by simp [hdone]))
  | false =>
      have hwho := spawnerOf_of_sync hasync
      have hnone : log = [] := h.nil_of_before hwho.symm (by rw [progress, hnew])
      rw [hasync, if_neg Bool.false_ne_true] at hnext
      have hnew : progress t .topicNew = .before := by rw [progress, hnext]
      refine ⟨?_, h.spawner, ?_, fun _ => hasync⟩
      · rw [hwho, hnew]
        exact hnone
      · intro who work hwork
        cases who with
        | topicNew => cases hnew.symm.trans hwork
        | startupTask => cases hbefore.symm.trans hwork

theorem attempts_newOp {op : NewOp} (hstep : s.newOp setup op = some t)
    (hstartup : Startup setup s) (h : Attempts setup log s) : Attempts setup log t := by
  rcases newOp_cases hstep with ⟨hsame, hnever⟩ | ⟨hnew, hwaiting, hnext⟩ |
    ⟨hsame, hnew, hnext⟩ | ⟨hsame, hnew, -, -, hnext⟩
  · rw [← List.append_nil log]
    refine h.of_task .topicNew nofun (fun _ => hsame) ?_ ?_ (absurd rfl) ?_
    · intro work hwork
      cases hnever.symm.trans hwork
    · intro _ hawaits
      exact absurd hawaits (not_awaitsNeighbor (by simp [hnever]))
    · intro hwho
      rw [hnever, List.append_nil]
      exact h.accounts.ordered
  · exact attempts_bootstrapped hstartup h hnew hwaiting hnext
  · have hsync := h.waiting (.inl hnew)
    have hnone : log = [] := h.nil_of_before (spawnerOf_of_sync hsync).symm (by rw [progress, hnew])
    have hbefore : progress t .topicNew = .before := by rw [progress, hnext]
    rw [← List.append_nil log]
    refine h.of_task .topicNew nofun (fun _ => hsame) ?_ (fun _ _ => hsync) (absurd rfl) ?_
    · intro work hwork
      cases hbefore.symm.trans hwork
    · intro hwho
      rw [hbefore, hnone]
      rfl
  · have hsync := h.waiting (.inr hnew)
    have hwho := (spawnerOf_of_sync hsync).symm
    have hnone : log = [] := h.nil_of_before hwho (by rw [progress, hnew])
    have hduring : progress t .topicNew = .during ⟨setup.workers, false⟩ := by
      rw [progress, hnext]
    rw [← List.append_nil log]
    refine h.of_task .topicNew nofun (fun _ => hsame) (fun _ _ => hwho) (fun _ _ => hsync)
      (absurd rfl) fun _ => ?_
    rw [hduring, hnone]
    rfl

theorem attempts_bootstrapReported {ok : Bool} (hstep : s.bootstrapReported setup ok = some t)
    (h : Attempts setup log s) : Attempts setup log t := by
  obtain ⟨hwaiting, hnew, hnext⟩ := bootstrapReported_cases hstep
  rw [← List.append_nil log]
  rcases hnext with hfailed | ⟨hsync, hfinished⟩ | ⟨hasync, -, -, hspawning⟩
  · have hnever : progress t .startupTask = .never := by rw [progress, hfailed]
    refine h.of_task .startupTask (fun _ => hnew) nofun ?_ nofun (absurd rfl) fun hwho => ?_
    · intro work hwork
      cases hnever.symm.trans hwork
    · rw [hnever, List.append_nil]
      exact h.accounts.ordered
  · have hdone : progress t .startupTask = .done := by rw [progress, hfinished]
    refine h.of_task .startupTask (fun _ => hnew) nofun ?_ nofun (absurd rfl) fun hwho => ?_
    · intro work hwork
      cases hdone.symm.trans hwork
    · cases hwho.trans (spawnerOf_of_sync hsync)
  · have hwho := (spawnerOf_of_async hasync).symm
    have hnone : log = [] := h.nil_of_before hwho (by rw [progress, hwaiting])
    have hduring : progress t .startupTask = .during ⟨setup.workers, false⟩ := by
      rw [progress, hspawning]
    refine h.of_task .startupTask (fun _ => hnew) nofun (fun _ _ => hwho) nofun (absurd rfl)
      fun _ => ?_
    rw [hduring, hnone]
    rfl

theorem attempts_spawnOp {who : Spawner} {op : SpawnOp} (hstep : s.spawnOp who op = some t)
    (h : Attempts setup log s) : Attempts setup (log ++ attempted s (.spawn who op)) t := by
  obtain ⟨hstartup, hnew⟩ := stages_of_spawnOp hstep
  have hsingle : ∀ work, s.spawning who = some work →
      who = spawnerOf setup ∧ log.map Prod.snd ++ work.remaining = setup.workers := by
    intro work hwork
    have hduring := progress_of_spawning hwork
    have hwho := h.single who work hduring
    have haccounts := h.accounts
    rw [← hwho, hduring] at haccounts
    exact ⟨hwho, haccounts⟩
  have hspawns := spawns_of_spawnOp hstep
  generalize attempted s (.spawn who op) = more at hspawns
  obtain ⟨work, hwork⟩ := hspawns.exists_spawning
  obtain ⟨hwho, -⟩ := hsingle work hwork
  refine h.of_task who hnew hstartup (fun _ _ => hwho) ?_ ?_ fun _ => ?_
  · rintro rfl hawaits
    exact absurd hawaits (not_awaitsNeighbor hspawns.progress_ne_before)
  · intro _
    refine ⟨hwho, ?_⟩
    cases hspawns <;> simp
  · cases hspawns with
    | upgraded work hwork hprogress =>
        rw [hprogress, List.append_nil]
        exact (hsingle work hwork).2
    | ownerless work hwork hprogress =>
        rw [hprogress, List.append_nil]
        exact h.accounts.ordered
    | failed worker rest hwork hprogress =>
        rw [hprogress]
        refine ⟨rest, ?_⟩
        simpa using (hsingle _ hwork).2
    | tried worker rest hwork hprogress =>
        rw [hprogress]
        show (log ++ [(who, worker)]).map Prod.snd ++ rest = setup.workers
        simpa using (hsingle _ hwork).2
    | finished hwork hprogress =>
        rw [hprogress, List.append_nil]
        show log.map Prod.snd = setup.workers
        simpa using (hsingle _ hwork).2

theorem attempts_effect {op : TopicOp} (hstep : s.effect setup op = some t)
    (hstartup : Startup setup s) (h : Attempts setup log s) :
    Attempts setup (log ++ attempted s op) t := by
  cases op with
  | new op =>
      show Attempts setup (log ++ []) t
      rw [List.append_nil]
      exact attempts_newOp hstep hstartup h
  | spawn who op => exact attempts_spawnOp hstep h
  | bootstrapReported ok =>
      show Attempts setup (log ++ []) t
      rw [List.append_nil]
      exact attempts_bootstrapReported hstep h
  | _ =>
      obtain ⟨hnew, hstage⟩ := stages_of_effect hstep rfl
      show Attempts setup (log ++ []) t
      rw [List.append_nil]
      exact h.of_stages hnew hstage

theorem attempts_start : Attempts setup [] TopicState.start where
  accounts := by
    unfold spawnerOf
    split <;> rfl
  spawner _ hattempt := by cases hattempt
  single who work hwork := by
    cases who with
    | topicNew => cases hwork
    | startupTask => cases hwork
  waiting := by
    rintro (hnew | hnew)
    · cases hnew
    · cases hnew

theorem attempts_of_run {ops : List TopicOp}
    (hrun : run (TopicState.step setup) TopicState.start ops = some s) :
    Attempts setup (attempts setup ops) s := by
  have hboth : (Sound s ∧ Startup setup s) ∧ Attempts setup ([] ++ attempts setup ops) s := by
    refine run_accumulates (P := fun log s => (Sound s ∧ Startup setup s) ∧ Attempts setup log s)
      ?_ hrun ⟨⟨sound_start, startup_start⟩, attempts_start⟩
    rintro log s op t hstep ⟨hinvariants, h⟩
    refine ⟨startup_of_step s op t hstep hinvariants, ?_⟩
    obtain ⟨m, heffect, rfl⟩ := Option.map_eq_some_iff.mp hstep
    refine (attempts_effect heffect hinvariants.2 h).of_stages ?_ ?_
    · unfold TopicState.release
      split <;> rfl
    · unfold TopicState.release
      split <;> rfl
  exact hboth.2

theorem nodup_workers (setup : Setup) : setup.workers.Nodup := by
  have hkept : ∀ (enabled : Bool) (worker : Worker),
      List.Sublist (if enabled then [worker] else []) [worker] := by
    intro enabled worker
    cases enabled <;> simp
  have hsub : List.Sublist setup.workers [.publisher, .bubbleMerge, .messageOverlapMerge] :=
    (hkept _ _).append ((hkept _ _).append (hkept _ _))
  exact hsub.nodup (by decide)

def StartedUp (setup : Setup) (s : TopicState) : Prop :=
  if setup.asyncBootstrap then s.startup = .finished else s.new = .returned

/-- In both modes and for every order of steps, one task starts the enabled workers one
after the other, publisher first, and each at most once. When it ends well it has tried
them all. -/
theorem workers_start_in_order {ops : List TopicOp}
    (hrun : run (TopicState.step setup) TopicState.start ops = some s) :
    (attempts setup ops).map Prod.snd <+: setup.workers ∧
      ((attempts setup ops).map Prod.snd).Nodup ∧
      (∀ attempt ∈ attempts setup ops, attempt.1 = spawnerOf setup) ∧
      (StartedUp setup s → (attempts setup ops).map Prod.snd = setup.workers) := by
  have h := attempts_of_run hrun
  have hordered := h.accounts.ordered
  refine ⟨hordered, (nodup_workers setup).sublist hordered.sublist, h.spawner, ?_⟩
  intro hstarted
  have haccounts := h.accounts
  unfold StartedUp at hstarted
  split at hstarted
  · next hasync =>
      rw [spawnerOf_of_async hasync, progress, hstarted] at haccounts
      exact haccounts
  · next hsync =>
      rw [spawnerOf_of_sync (Bool.not_eq_true _ ▸ hsync), progress, hstarted] at haccounts
      exact haccounts

def tolerantStartup : List TopicOp :=
  [.new (.bootstrapped true), .new (.gotReceiver true), .new (.joined true),
    .spawn .topicNew .upgrade, .spawn .topicNew (.answered .started),
    .spawn .topicNew .upgrade, .spawn .topicNew (.answered .skipped),
    .spawn .topicNew .upgrade, .spawn .topicNew (.answered .started), .spawn .topicNew .done]

theorem workers_start_in_order_tolerant :
    (attempts ⟨false, true, true, true⟩ tolerantStartup).map Prod.snd =
      [.publisher, .bubbleMerge, .messageOverlapMerge] := by
  have hrun : ∃ s ∈ run (TopicState.step ⟨false, true, true, true⟩) TopicState.start
      tolerantStartup, s.new = .returned := by
    decide
  obtain ⟨s, hs, hreturned⟩ := hrun
  exact (workers_start_in_order hs).2.2.2 hreturned

/-- The step that can make a task start workers. -/
def Begins : TopicOp → Prop
  | .new op => op = .joined true
  | .bootstrapReported ok => ok = true
  | _ => False

def Idle (s : TopicState) : Prop := ∀ who work, progress s who ≠ .during work

theorem Idle.of_new (h : Idle s) (hstartup : t.startup = s.startup)
    (hnew : ∀ work, progress t .topicNew ≠ .during work) : Idle t := by
  intro who work hwork
  cases who with
  | topicNew => exact hnew work hwork
  | startupTask =>
      rw [progress, hstartup] at hwork
      exact h .startupTask work hwork

theorem Idle.of_startup (h : Idle s) (hnew : t.new = s.new)
    (hstartup : ∀ work, progress t .startupTask ≠ .during work) : Idle t := by
  intro who work hwork
  cases who with
  | topicNew =>
      rw [progress, hnew] at hwork
      exact h .topicNew work hwork
  | startupTask => exact hstartup work hwork

theorem idle_newOp {op : NewOp} (hstep : s.newOp setup op = some t) (h : Idle s)
    (hbegins : s.cancelled = true ∨ op ≠ .joined true) : Idle t := by
  rcases newOp_cases hstep with ⟨hsame, hnever⟩ | ⟨hnew, hwaiting, hnext⟩ |
    ⟨hsame, hnew, hnext⟩ | ⟨-, -, hop, hgoing, -⟩
  · refine h.of_new hsame fun work hwork => ?_
    cases hnever.symm.trans hwork
  · intro who work hwork
    cases who with
    | topicNew =>
        split at hnext
        · rw [progress, hnext] at hwork
          cases hwork
        · rw [progress, hnext] at hwork
          cases hwork
    | startupTask =>
        rw [progress, hwaiting] at hwork
        cases hwork
  · refine h.of_new hsame fun work hwork => ?_
    rw [progress, hnext] at hwork
    cases hwork
  · rcases hbegins with hcancelled | hnot
    · cases hgoing.symm.trans hcancelled
    · exact absurd hop hnot

theorem idle_bootstrapReported {ok : Bool} (hstep : s.bootstrapReported setup ok = some t)
    (h : Idle s) (hbegins : s.cancelled = true ∨ ok ≠ true) : Idle t := by
  obtain ⟨-, hnew, hfailed | ⟨-, hfinished⟩ | ⟨-, hok, hgoing, -⟩⟩ :=
    bootstrapReported_cases hstep
  · refine h.of_startup hnew fun work hwork => ?_
    rw [progress, hfailed] at hwork
    cases hwork
  · refine h.of_startup hnew fun work hwork => ?_
    rw [progress, hfinished] at hwork
    cases hwork
  · rcases hbegins with hcancelled | hnot
    · cases hgoing.symm.trans hcancelled
    · exact absurd hok hnot

theorem idle_effect {op : TopicOp} (hstep : s.effect setup op = some t) (h : Idle s)
    (hbegins : s.cancelled = true ∨ ¬ Begins op) : Idle t ∧ attempted s op = [] := by
  cases op with
  | new op => exact ⟨idle_newOp hstep h hbegins, rfl⟩
  | spawn who op =>
      simp only [TopicState.effect, TopicState.spawnOp, Option.bind_eq_bind,
        Option.bind_eq_some_iff] at hstep
      obtain ⟨work, hwork, -⟩ := hstep
      exact absurd (progress_of_spawning hwork) (h who work)
  | bootstrapReported ok => exact ⟨idle_bootstrapReported hstep h hbegins, rfl⟩
  | _ =>
      obtain ⟨hnew, hstage⟩ := stages_of_effect hstep rfl
      refine ⟨h.of_new hstage fun work hwork => ?_, rfl⟩
      rw [progress, hnew] at hwork
      exact h .topicNew work hwork

theorem idle_of_step {log : List (Spawner × Worker)} (s : TopicState) (op : TopicOp)
    (t : TopicState) (hstep : s.step setup op = some t)
    (hbegins : s.cancelled = true ∨ ¬ Begins op) (h : log = [] ∧ Idle s) :
    log ++ attempted s op = [] ∧ Idle t := by
  obtain ⟨m, heffect, rfl⟩ := Option.map_eq_some_iff.mp hstep
  obtain ⟨hidle, hnone⟩ := idle_effect heffect h.2 hbegins
  refine ⟨by rw [h.1, hnone]; rfl, ?_⟩
  unfold TopicState.release
  split
  · exact hidle
  · exact hidle

/-- While no task is starting workers, none begins to without the success of its bootstrap,
and none begins to at all once the token is cancelled. -/
theorem no_start_without_bootstrap (hidle : Idle s) {later : List TopicOp}
    (hrun : run (TopicState.step setup) s later = some t)
    (hlater : s.cancelled = true ∨ ∀ op ∈ later, ¬ Begins op) :
    outputs (TopicState.step setup) attempted s later = [] ∧ Idle t := by
  have hall : AllSteps (TopicState.step setup) (fun s op => s.cancelled = true ∨ ¬ Begins op)
      s later := by
    rcases hlater with hcancelled | hnone
    · exact AllSteps.imp (P := fun s => s.cancelled = true) (C := fun _ _ => True)
        (fun s op t hstep _ => cancelled_of_step s op t hstep) (fun _ _ _ => .inl)
        (.of_forall (fun _ _ _ => trivial) s) hcancelled
    · exact .of_forall (fun op hop _ => .inr (hnone op hop)) s
  exact run_accumulates_of_allSteps (P := fun log s => log = [] ∧ Idle s)
    (fun _ => idle_of_step) hall hrun ⟨rfl, hidle⟩

/-- A topic cancelled while it waits for its bootstrap, which then succeeds. -/
theorem no_start_without_bootstrap_cancelled :
    ∃ s ∈ run (TopicState.step ⟨true, true, true, true⟩) TopicState.start
        [.new (.bootstrapped true), .tokenCancelled],
      outputs (TopicState.step ⟨true, true, true, true⟩) attempted s
        [.bootstrapReported true] = [] := by
  have hrun : ∃ s ∈ run (TopicState.step ⟨true, true, true, true⟩) TopicState.start
      [.new (.bootstrapped true), .tokenCancelled], s.cancelled = true ∧
        s.new = .returned ∧ s.startup = .waiting ∧
          (run (TopicState.step ⟨true, true, true, true⟩) s
            [.bootstrapReported true]).isSome = true := by
    decide
  obtain ⟨s, hs, hcancelled, hnew, hstartup, hsome⟩ := hrun
  obtain ⟨t, ht⟩ := Option.isSome_iff_exists.mp hsome
  have hidle : Idle s := by
    intro who work hwork
    cases who with
    | topicNew =>
        rw [progress, hnew] at hwork
        cases hwork
    | startupTask =>
        rw [progress, hstartup] at hwork
        cases hwork
  exact ⟨s, hs, (no_start_without_bootstrap hidle ht (.inl hcancelled)).1⟩

end TopicTracker.WorkerStartup
