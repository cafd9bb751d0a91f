import TopicTracker.BootstrapProcess

namespace TopicTracker.IterationReads

open TopicTracker.Configuration
open TopicTracker.RustValues
open TopicTracker.ThirdParty
open TopicTracker.RecordCodec
open TopicTracker.RecordRetrieval
open TopicTracker.RecordPublishing
open TopicTracker.BootstrapLoop
open TopicTracker.BootstrapTransition
open TopicTracker.BootstrapProcess

variable {X : Externals} {cfg : BootstrapConfig} {rp : RecordPublisher X}
variable {unixMinute : UInt64} {p : Process X} {log events : List (Event X)}

def SlotRead : Event X → Prop
  | .read (.older _) _ _ => True
  | .read (.newer _) _ _ => True
  | _ => False

def NoSlotRead (events : List (Event X)) : Prop :=
  ∀ event ∈ events, ¬ SlotRead event

theorem NoSlotRead.of_quiet (hquiet : ∀ event ∈ events, Quiet event) : NoSlotRead events := by
  intro event hevent hread
  have := hquiet event hevent
  unfold SlotRead at hread
  split at hread
  · exact this
  · exact this
  · exact hread

theorem NoSlotRead.of_publishIfDue {l : Loop X} {w : Window} {current : Finset Record} :
    NoSlotRead (Loop.publishIfDue rp l w current).2 := by
  intro event hevent
  obtain ⟨content, rfl⟩ := mem_publishIfDue hevent
  exact id

theorem NoSlotRead.of_publishEvents {id : Nat} {task : PublishTask} {input : PublishInput} :
    NoSlotRead (publishEvents rp id task input) := by
  intro event hevent hread
  rcases mem_publishEvents hevent with ⟨answer, draw, -, -, -, rfl⟩ | ⟨put, -, -, rfl⟩
  · exact hread
  · exact hread

theorem NoSlotRead.of_startupEvents : NoSlotRead (startupEvents cfg rp unixMinute) := by
  intro event hevent hread
  rcases mem_startupEvents hevent with rfl | ⟨content, rfl⟩
  · exact hread
  · exact hread

theorem NoSlotRead.mem_older (h : NoSlotRead events) {i : Nat} {m : UInt64}
    {result : Result (Finset Record)} :
    .read (.older i) m result ∈ log ++ events ↔ .read (.older i) m result ∈ log := by
  rw [List.mem_append]
  exact or_iff_left fun hmem => h _ hmem trivial

theorem NoSlotRead.mem_newer (h : NoSlotRead events) {i : Nat} {m : UInt64}
    {result : Result (Finset Record)} :
    .read (.newer i) m result ∈ log ++ events ↔ .read (.newer i) m result ∈ log := by
  rw [List.mem_append]
  exact or_iff_left fun hmem => h _ hmem trivial

/-- Every iteration reads its newer slot once, and its older slot is the one of the
minute before. -/
structure ReadOnce (p : Process X) : Prop where
  window : ∀ w, Point.window p.loop.point = some w → w.older = saturatingSub w.newer 1
  bounded : ∀ i m result,
    .read (.older i) m result ∈ p.log ∨ .read (.newer i) m result ∈ p.log →
      i ≤ p.loop.iteration
  beforeOlder : ∀ w, p.loop.point = .fetchOlder w → ∀ m result,
    .read (.older p.loop.iteration) m result ∉ p.log ∧
      .read (.newer p.loop.iteration) m result ∉ p.log
  beforeNewer : ∀ w older, p.loop.point = .fetchNewer w older → ∀ m result,
    (.read (.older p.loop.iteration) m result ∈ p.log → m = w.older) ∧
      .read (.newer p.loop.iteration) m result ∉ p.log
  once : ∀ i m result m' result', .read (.newer i) m result ∈ p.log →
    .read (.newer i) m' result' ∈ p.log → result' = result
  older : ∀ i m result m' result', .read (.newer i) m result ∈ p.log →
    .read (.older i) m' result' ∈ p.log → m' = saturatingSub m 1

theorem older_select (lastPublishedUnixMinute currentUnixMinute : UInt64) :
    (Window.select cfg lastPublishedUnixMinute currentUnixMinute).older =
      saturatingSub (Window.select cfg lastPublishedUnixMinute currentUnixMinute).newer 1 := by
  apply UInt64.toNat_inj.mp
  unfold Window.select
  split
  · simp only [Window.older, Window.newer, saturatingSub_toNat]
    change currentUnixMinute.toNat - 2 = currentUnixMinute.toNat - 1 - 1
    omega
  · simp only [Window.older, Window.newer, saturatingSub_toNat]
    change currentUnixMinute.toNat - 1 = currentUnixMinute.toNat - 0 - 1
    omega

theorem ReadOnce.of_noSlotRead (h : ReadOnce p) {loop : Loop X} {publishes : List Publish}
    (hread : NoSlotRead events) (hiteration : loop.iteration = p.loop.iteration)
    (hwindow : ∀ w, Point.window loop.point = some w → Point.window p.loop.point = some w)
    (holder : ∀ w, loop.point = .fetchOlder w → p.loop.point = .fetchOlder w)
    (hnewer : ∀ w older, loop.point = .fetchNewer w older →
      p.loop.point = .fetchNewer w older) :
    ReadOnce ⟨loop, publishes, p.log ++ events⟩ := by
  refine ⟨fun w hw => h.window w (hwindow w hw), ?_, ?_, ?_, ?_, ?_⟩
  · intro i m result
    rw [hread.mem_older, hread.mem_newer, hiteration]
    exact h.bounded i m result
  · intro w hw m result
    rw [hread.mem_older, hread.mem_newer, hiteration]
    exact h.beforeOlder w (holder w hw) m result
  · intro w older hw m result
    rw [hread.mem_older, hread.mem_newer, hiteration]
    exact h.beforeNewer w older (hnewer w older hw) m result
  · intro i m result m' result'
    rw [hread.mem_newer, hread.mem_newer]
    exact h.once i m result m' result'
  · intro i m result m' result'
    rw [hread.mem_newer, hread.mem_older]
    exact h.older i m result m' result'

theorem ReadOnce.of_tick (h : ReadOnce p) (m : UInt64) {publishes : List Publish} :
    ReadOnce ⟨{ p.loop with
        point := .fetchOlder (Window.select cfg p.loop.lastPublishedUnixMinute m)
        iteration := p.loop.iteration + 1 }, publishes, p.log ++ [.clock m]⟩ := by
  refine ⟨?_, ?_, ?_, fun _ _ hw => (by cases hw), by simpa using h.once, by simpa using h.older⟩
  · intro w hw
    obtain rfl := Option.some.inj hw
    exact older_select _ m
  · intro i m' result hread
    exact Nat.le_succ_of_le (h.bounded i m' result (by simpa using hread))
  · intro w hw m' result
    constructor
    · intro hmem
      exact absurd (h.bounded _ m' result (.inl (by simpa using hmem))) (Nat.not_succ_le_self _)
    · intro hmem
      exact absurd (h.bounded _ m' result (.inr (by simpa using hmem))) (Nat.not_succ_le_self _)

theorem ReadOnce.of_readOlder (h : ReadOnce p) {w : Window} (hpoint : p.loop.point = .fetchOlder w)
    (older : Finset Record) (result : Result (Finset Record)) {publishes : List Publish} :
    ReadOnce ⟨p.loop.goto (.fetchNewer w older), publishes,
      p.log ++ [.read (.older p.loop.iteration) w.older result]⟩ := by
  have hnone := h.beforeOlder w hpoint
  refine ⟨?_, ?_, fun _ hw => (by cases hw), ?_, by simpa using h.once, ?_⟩
  · intro w' hw'
    exact h.window w' (by rw [hpoint]; exact hw')
  · intro i m result' hread
    rcases hread with hread | hread
    · rcases List.mem_append.mp hread with hold | hnew
      · exact h.bounded i m result' (.inl hold)
      · have hreader := (Event.read.inj (List.mem_singleton.mp hnew)).1
        exact (Reader.older.inj hreader).le
    · exact h.bounded i m result' (.inr (by simpa using hread))
  · intro w' older' hw' m result'
    obtain ⟨rfl, -⟩ := Point.fetchNewer.inj hw'
    constructor
    · intro hread
      rcases List.mem_append.mp hread with hold | hnew
      · exact absurd hold (hnone m result').1
      · exact (Event.read.inj (List.mem_singleton.mp hnew)).2.1
    · intro hread
      exact (hnone m result').2 (by simpa [Loop.goto] using hread)
  · intro i m result' m' result'' hnewer holder
    have hbefore : .read (.newer i) m result' ∈ p.log := by simpa using hnewer
    rcases List.mem_append.mp holder with hold | hnew
    · exact h.older i m result' m' result'' hbefore hold
    · have hreader := (Event.read.inj (List.mem_singleton.mp hnew)).1
      obtain rfl := Reader.older.inj hreader
      exact absurd hbefore (hnone m result').2

theorem ReadOnce.of_readNewer (h : ReadOnce p) {w : Window} {older : Finset Record}
    (hpoint : p.loop.point = .fetchNewer w older) {result : Result (Finset Record)}
    (hrest : NoSlotRead events) {loop : Loop X} {publishes : List Publish}
    (hiteration : loop.iteration = p.loop.iteration)
    (hwindow : Point.window loop.point = some w) (holder : ∀ w, loop.point ≠ .fetchOlder w)
    (hnewer : ∀ w older, loop.point ≠ .fetchNewer w older) :
    ReadOnce ⟨loop, publishes,
      p.log ++ .read (.newer p.loop.iteration) w.newer result :: events⟩ := by
  have hbefore := h.beforeNewer w older hpoint
  have hwidth : w.older = saturatingSub w.newer 1 := h.window w (by rw [hpoint]; rfl)
  have hmemOlder : ∀ i m result', .read (.older i) m result' ∈
      p.log ++ .read (.newer p.loop.iteration) w.newer result :: events →
        .read (.older i) m result' ∈ p.log := by
    intro i m result' hread
    rw [List.append_cons, hrest.mem_older] at hread
    simpa using hread
  have hmemNewer : ∀ i m result', .read (.newer i) m result' ∈
      p.log ++ .read (.newer p.loop.iteration) w.newer result :: events →
        .read (.newer i) m result' ∈ p.log ∨
          i = p.loop.iteration ∧ m = w.newer ∧ result' = result := by
    intro i m result' hread
    rw [List.append_cons, hrest.mem_newer] at hread
    simpa using hread
  refine ⟨?_, ?_, fun w hw => absurd hw (holder w), fun w older hw => absurd hw (hnewer w older),
    ?_, ?_⟩
  · intro w' hw'
    obtain rfl := Option.some.inj (hwindow.symm.trans hw')
    exact hwidth
  · intro i m result' hread
    rw [hiteration]
    rcases hread with hread | hread
    · exact h.bounded i m result' (.inl (hmemOlder i m result' hread))
    · rcases hmemNewer i m result' hread with hold | ⟨rfl, -, -⟩
      · exact h.bounded i m result' (.inr hold)
      · exact le_rfl
  · intro i m₁ result₁ m₂ result₂ h₁ h₂
    rcases hmemNewer i m₁ result₁ h₁ with hold₁ | ⟨rfl, -, rfl⟩
    · rcases hmemNewer i m₂ result₂ h₂ with hold₂ | ⟨rfl, -, -⟩
      · exact h.once i m₁ result₁ m₂ result₂ hold₁ hold₂
      · exact absurd hold₁ (hbefore m₁ result₁).2
    · rcases hmemNewer _ m₂ result₂ h₂ with hold₂ | ⟨-, -, hsame⟩
      · exact absurd hold₂ (hbefore m₂ result₂).2
      · exact hsame
  · intro i m₁ result₁ m₂ result₂ h₁ h₂
    have hold₂ := hmemOlder i m₂ result₂ h₂
    rcases hmemNewer i m₁ result₁ h₁ with hold₁ | ⟨rfl, rfl, -⟩
    · exact h.older i m₁ result₁ m₂ result₂ hold₁ hold₂
    · rw [← hwidth]
      exact (hbefore m₂ result₂).1 hold₂

theorem readOnce_of_transition (h : ReadOnce p) {input : Input X} {loop : Loop X}
    (htransition : Transition cfg rp p.loop input loop events) :
    ReadOnce ⟨loop, p.publishes ++ events.filterMap spawned, p.log ++ events⟩ := by
  cases htransition with
  | tick m hpoint => exact h.of_tick m
  | readOlder w answer hpoint => exact h.of_readOlder hpoint _ _
  | noRecords w answer hpoint hnone =>
      exact h.of_readNewer hpoint .of_publishIfDue (publishIfDue_iteration _ _ _) rfl
        (fun _ hw => by cases hw) fun _ _ hw => by cases hw
  | collected w older answer hpoint =>
      exact h.of_readNewer hpoint (by simp [NoSlotRead]) rfl rfl
        (fun _ hw => by cases hw) fun _ _ hw => by cases hw
  | notJoined w current hpoint =>
      refine h.of_noSlotRead ?_ (publishIfDue_iteration _ _ _) ?_ (fun _ hw => by cases hw)
        fun _ _ hw => by cases hw
      · exact List.forall_mem_cons.mpr ⟨id, NoSlotRead.of_publishIfDue⟩
      · intro w' hw'
        obtain rfl := Option.some.inj hw'
        rw [hpoint]
        rfl
  | settled w current rest hpoint =>
      refine h.of_noSlotRead (by simp [NoSlotRead, SlotRead]) rfl ?_ (fun _ hw => by cases hw)
        fun _ _ hw => by cases hw
      intro w' hw'
      rw [hpoint]
      exact hw'
  | moved input next events hpoint hnext hquiet =>
      refine h.of_noSlotRead (.of_quiet hquiet) rfl (fun w hw => hnext.window_of hw) ?_ ?_
      · rintro w rfl
        exact hnext.elim
      · rintro w older rfl
        exact hnext.elim
  | joined site hpoint hsite =>
      exact h.of_noSlotRead (by simp [NoSlotRead, SlotRead]) rfl (fun _ hw => by cases hw)
        (fun _ hw => by cases hw) fun _ _ hw => by cases hw
  | interrupted input events hpoint hinput hquiet =>
      refine h.of_noSlotRead ?_ rfl (fun _ hw => by cases hw) (fun _ hw => by cases hw)
        fun _ _ hw => by cases hw
      exact List.forall_mem_append.mpr ⟨NoSlotRead.of_quiet hquiet, by simp [Loop.exit, SlotRead]⟩

theorem readOnce_start : ReadOnce (Process.start cfg rp unixMinute) := by
  have hnone : NoSlotRead (Process.start cfg rp unixMinute).log := .of_startupEvents
  refine ⟨fun _ hw => (by cases hw), ?_, fun _ hw => (by cases hw), fun _ _ hw => (by cases hw),
    fun _ _ _ _ _ hread => absurd trivial (hnone _ hread),
    fun _ _ _ _ _ hread => absurd trivial (hnone _ hread)⟩
  rintro i m result (hread | hread)
  · exact absurd trivial (hnone _ hread)
  · exact absurd trivial (hnone _ hread)

theorem readOnce_of_reachable (h : Reachable cfg rp unixMinute p) : ReadOnce p :=
  h.induction readOnce_start (step_preserves
    (fun _ _ _ _ htransition hp => readOnce_of_transition hp htransition)
    fun _ _ _ _ _ _ _ hp => hp.of_noSlotRead .of_publishEvents rfl (fun _ hw => hw)
      (fun _ hw => hw) fun _ _ hw => hw)

end TopicTracker.IterationReads
