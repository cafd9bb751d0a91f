import TopicTracker.BootstrapTransition
import TopicTracker.StepMachine

namespace TopicTracker.BootstrapProcess

open TopicTracker.Configuration
open TopicTracker.RustValues
open TopicTracker.ThirdParty
open TopicTracker.RecordCodec
open TopicTracker.RecordRetrieval
open TopicTracker.RecordPublishing
open TopicTracker.BootstrapLoop
open TopicTracker.BootstrapTransition
open TopicTracker.StepMachine

structure Publish where
  iteration : Option Nat
  task : PublishTask

structure Process (X : Externals) where
  loop : Loop X
  publishes : List Publish
  log : List (Event X)

inductive Label (X : Externals)
  | loop (input : Input X)
  | publish (id : Nat) (input : PublishInput)

variable {X : Externals}

/-- `publish_record_fire_and_forget`. -/
def spawned : Event X → Option Publish
  | .initiated iteration record cached =>
      some { iteration, task := { record, cachedRecords := cached } }
  | _ => none

/-- What a publish shows when its next await ends. -/
def publishEvents (rp : RecordPublisher X) (id : Nat) (task : PublishTask) :
    PublishInput → List (Event X)
  | .read answer _ =>
      if task.stage = .reading ∧ task.cachedRecords = none then
        [.read (.publish id) task.record.unixMinute
          (rp.getRecords task.record.unixMinute answer)]
      else []
  | input => (task.storedPut input).toList.map (.put id)

/-- The publish on startup, which reads the clock once. -/
def startupEvents (cfg : BootstrapConfig) (rp : RecordPublisher X) (unixMinute : UInt64) :
    List (Event X) :=
  if cfg.publishRecordOnStartup = true then
    .clock unixMinute :: Loop.initiate rp none unixMinute none
  else []

/-- The state in which `start_bootstrap` leaves the spawned task. -/
def startLoop (X : Externals) (cfg : BootstrapConfig) (unixMinute : UInt64) : Loop X where
  point := .loopHead
  lastPublishedUnixMinute :=
    if cfg.publishRecordOnStartup = true then
      if cfg.checkOlderRecordsFirstOnStartup = true then 0 else unixMinute
    else 0
  isJoinedRet := false
  iteration := 0

namespace Process

variable (cfg : BootstrapConfig) (rp : RecordPublisher X)

def start (unixMinute : UInt64) : Process X where
  loop := startLoop X cfg unixMinute
  publishes := (startupEvents cfg rp unixMinute).filterMap spawned
  log := startupEvents cfg rp unixMinute

def step (p : Process X) : Label X → Option (Process X)
  | .loop input => do
      let (loop, events) ← p.loop.step cfg rp input
      some ⟨loop, p.publishes ++ events.filterMap spawned, p.log ++ events⟩
  | .publish id input => do
      let publish ← p.publishes[id]?
      let task ← publish.task.step rp input
      some { p with
        publishes := p.publishes.set id { publish with task := task }
        log := p.log ++ publishEvents rp id publish.task input }

end Process

variable {cfg : BootstrapConfig} {rp : RecordPublisher X} {p q : Process X}

theorem exists_of_step_loop {input : Input X} (h : p.step cfg rp (.loop input) = some q) :
    ∃ loop events, p.loop.step cfg rp input = some (loop, events) ∧
      q = ⟨loop, p.publishes ++ events.filterMap spawned, p.log ++ events⟩ := by
  simp only [Process.step, Option.bind_eq_bind, Option.bind_eq_some_iff,
    Option.some.injEq] at h
  rcases h with ⟨⟨loop, events⟩, hstep, rfl⟩
  exact ⟨loop, events, hstep, rfl⟩

theorem exists_of_step_publish {id : Nat} {input : PublishInput}
    (h : p.step cfg rp (.publish id input) = some q) :
    ∃ publish task, p.publishes[id]? = some publish ∧
      publish.task.step rp input = some task ∧
      q = { p with
        publishes := p.publishes.set id { publish with task := task }
        log := p.log ++ publishEvents rp id publish.task input } := by
  simp only [Process.step, Option.bind_eq_bind, Option.bind_eq_some_iff,
    Option.some.injEq] at h
  rcases h with ⟨publish, hpublish, task, htask, rfl⟩
  exact ⟨publish, task, hpublish, htask, rfl⟩

theorem step_preserves {P : Process X → Prop}
    (hloop : ∀ (p : Process X) input loop events, Transition cfg rp p.loop input loop events →
      P p → P ⟨loop, p.publishes ++ events.filterMap spawned, p.log ++ events⟩)
    (hpublish : ∀ (p : Process X) id input publish task, p.publishes[id]? = some publish →
      publish.task.step rp input = some task → P p →
      P { p with
        publishes := p.publishes.set id { publish with task := task }
        log := p.log ++ publishEvents rp id publish.task input })
    (p : Process X) (label : Label X) (q : Process X) (h : p.step cfg rp label = some q)
    (hp : P p) : P q := by
  cases label with
  | loop input =>
      obtain ⟨loop, events, hstep, rfl⟩ := exists_of_step_loop h
      exact hloop p input loop events (step_transition hstep) hp
  | publish id input =>
      obtain ⟨publish, task, hget, htask, rfl⟩ := exists_of_step_publish h
      exact hpublish p id input publish task hget htask hp

def Reachable (cfg : BootstrapConfig) (rp : RecordPublisher X) (unixMinute : UInt64)
    (p : Process X) : Prop :=
  ∃ labels, run (Process.step cfg rp) (Process.start cfg rp unixMinute) labels = some p

theorem Reachable.induction {P : Process X → Prop} {unixMinute : UInt64}
    (hstart : P (Process.start cfg rp unixMinute))
    (hstep : ∀ p label q, p.step cfg rp label = some q → P p → P q)
    (h : Reachable cfg rp unixMinute p) : P p := by
  rcases h with ⟨labels, hrun⟩
  exact run_preserves hstep hrun hstart

theorem reachable_of_step {unixMinute : UInt64} {label : Label X}
    (h : Reachable cfg rp unixMinute p) (hstep : p.step cfg rp label = some q) :
    Reachable cfg rp unixMinute q := by
  obtain ⟨labels, hrun⟩ := h
  refine ⟨labels ++ [label], ?_⟩
  rw [run_append, hrun]
  exact run_cons_eq_some_iff.mpr ⟨q, hstep, rfl⟩

theorem mem_publishEvents {id : Nat} {task : PublishTask} {input : PublishInput}
    {event : Event X} (h : event ∈ publishEvents rp id task input) :
    (∃ answer draw, input = .read answer draw ∧ task.stage = .reading ∧
      task.cachedRecords = none ∧
      event = .read (.publish id) task.record.unixMinute
        (rp.getRecords task.record.unixMinute answer)) ∨
    ∃ put, input = .stored ∧ task.stage = .putting put ∧ event = .put id put := by
  unfold publishEvents at h
  split at h
  · next answer draw =>
      split at h
      · next hread =>
          exact .inl ⟨answer, draw, rfl, hread.1, hread.2, List.mem_singleton.mp h⟩
      · cases h
  · obtain ⟨put, hput, rfl⟩ := List.mem_map.mp h
    obtain ⟨hinput, hstage⟩ :=
      PublishTask.storedPut_eq_some_iff.mp (Option.mem_toList.mp hput)
    exact .inr ⟨put, hinput, hstage, rfl⟩

theorem mem_initiate {iteration : Option Nat} {unixMinute : UInt64}
    {cached : Option (Finset Record)} {event : Event X}
    (h : event ∈ Loop.initiate rp iteration unixMinute cached) :
    ∃ content, event = .initiated iteration
      (Record.signContent X rp.topicId.hash unixMinute content rp.signingKey) cached := by
  unfold Loop.initiate at h
  split at h
  · next record hsign =>
      obtain ⟨content, -, rfl⟩ := sign_eq_ok_iff.mp hsign
      exact ⟨content, List.mem_singleton.mp h⟩
  · simp at h

theorem initiate_eq (hencodes : SerializesContent X) (rp : RecordPublisher X)
    (iteration : Option Nat) (unixMinute : UInt64) (cached : Option (Finset Record)) :
    ∃ content, Loop.initiate rp iteration unixMinute cached = [.initiated iteration
      (Record.signContent X rp.topicId.hash unixMinute content rp.signingKey) cached] := by
  obtain ⟨bytes, hbytes⟩ := hencodes emptyContent
  have hsign : Record.sign X X.gossipContent rp.topicId.hash unixMinute emptyContent
      rp.signingKey =
        .ok (Record.signContent X rp.topicId.hash unixMinute ⟨bytes⟩ rp.signingKey) :=
    sign_eq_ok_iff.mpr ⟨⟨bytes⟩, by rw [RecordContent.fromArbitrary, hbytes, ok_bind], rfl⟩
  exact ⟨⟨bytes⟩, by rw [Loop.initiate, hsign]⟩

theorem mem_startupEvents {unixMinute : UInt64} {event : Event X}
    (h : event ∈ startupEvents cfg rp unixMinute) :
    event = .clock unixMinute ∨ ∃ content, event = .initiated none
      (Record.signContent X rp.topicId.hash unixMinute content rp.signingKey) none := by
  unfold startupEvents at h
  split at h
  · rcases List.mem_cons.mp h with hclock | hinitiate
    · exact .inl hclock
    · exact .inr (mem_initiate hinitiate)
  · simp at h

theorem mem_publishIfDue {l : Loop X} {w : Window} {current : Finset Record}
    {event : Event X} (h : event ∈ (Loop.publishIfDue rp l w current).2) :
    ∃ content, event = .initiated (some l.iteration)
      (Record.signContent X rp.topicId.hash w.currentUnixMinute content rp.signingKey)
      (if w.useCachedNext then some current else none) := by
  unfold Loop.publishIfDue at h
  split at h
  · exact mem_initiate h
  · simp at h

section PublishIfDue

variable (l : Loop X) (w : Window) (current : Finset Record)

@[simp] theorem publishIfDue_isJoinedRet :
    (Loop.publishIfDue rp l w current).1.isJoinedRet = l.isJoinedRet := by
  unfold Loop.publishIfDue
  split <;> rfl

@[simp] theorem publishIfDue_iteration :
    (Loop.publishIfDue rp l w current).1.iteration = l.iteration := by
  unfold Loop.publishIfDue
  split <;> rfl

@[simp] theorem publishIfDue_lastPublishedUnixMinute :
    (Loop.publishIfDue rp l w current).1.lastPublishedUnixMinute = w.currentUnixMinute := by
  unfold Loop.publishIfDue
  split
  · rfl
  · next h => exact (not_not.mp h).symm

end PublishIfDue

end TopicTracker.BootstrapProcess
