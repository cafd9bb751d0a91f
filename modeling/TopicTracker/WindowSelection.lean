import TopicTracker.BootstrapPublishing
import TopicTracker.BootstrapReads

namespace TopicTracker.WindowSelection

open TopicTracker.Configuration
open TopicTracker.RustValues
open TopicTracker.ThirdParty
open TopicTracker.ReferenceExternals
open TopicTracker.RecordCodec
open TopicTracker.RecordRetrieval
open TopicTracker.RecordPublishing
open TopicTracker.BootstrapLoop
open TopicTracker.BootstrapTransition
open TopicTracker.BootstrapProcess
open TopicTracker.BootstrapPublishing
open TopicTracker.BootstrapReads
open TopicTracker.IterationReads
open TopicTracker.StepMachine

variable {X : Externals} {cfg : BootstrapConfig} {rp : RecordPublisher X}
variable {unixMinute : UInt64} {p : Process X} {log events : List (Event X)}

def startupReadings (cfg : BootstrapConfig) : Nat :=
  if cfg.publishRecordOnStartup = true then 1 else 0

def iterationMinutes (cfg : BootstrapConfig) (log : List (Event X)) : List UInt64 :=
  (clockReadings log).drop (startupReadings cfg)

def slotRead (i : Nat) : Event X → Option UInt64
  | .read (.older j) unixMinute _ => if j = i then some unixMinute else none
  | .read (.newer j) unixMinute _ => if j = i then some unixMinute else none
  | _ => none

def slotsRead (log : List (Event X)) (i : Nat) : List UInt64 := log.filterMap (slotRead i)

/-- The window of iteration `i`, counted from 1, at a clock minute. -/
def windowOf (cfg : BootstrapConfig) (i : Nat) (unixMinute : UInt64) : Window :=
  if i = 1 ∧ cfg.checkOlderRecordsFirstOnStartup = true then ⟨unixMinute, 1, false⟩
  else ⟨unixMinute, 0, true⟩

def expectedSlots (cfg : BootstrapConfig) (i : Nat) (unixMinute : UInt64) : List UInt64 :=
  if i = 1 ∧ cfg.checkOlderRecordsFirstOnStartup = true then
    [saturatingSub unixMinute 2, saturatingSub unixMinute 1]
  else [saturatingSub unixMinute 1, unixMinute]

theorem slots_windowOf (cfg : BootstrapConfig) (i : Nat) (m : UInt64) :
    [(windowOf cfg i m).older, (windowOf cfg i m).newer] = expectedSlots cfg i m := by
  unfold windowOf expectedSlots
  split
  · rfl
  · have hzero : saturatingSub m 0 = m := by simp [saturatingSub]
    rw [Window.older, Window.newer, hzero]
    rfl

def Fetching : Point X → Prop
  | .fetchOlder _ => True
  | .fetchNewer _ _ => True
  | _ => False

/-- What of its slots an iteration has read when it stands at a point. -/
def readSoFar (point : Point X) (slots : List UInt64) : List UInt64 :=
  match point with
  | .fetchOlder _ => []
  | .fetchNewer _ _ => slots.take 1
  | _ => slots

theorem readSoFar_of_not_fetching {point : Point X} (h : ¬ Fetching point)
    (slots : List UInt64) : readSoFar point slots = slots := by
  cases point <;> first | rfl | exact absurd trivial h

theorem readSoFar_prefix_slots (point : Point X) (slots : List UInt64) :
    readSoFar point slots <+: slots := by
  cases point with
  | fetchOlder w => exact List.nil_prefix
  | fetchNewer w older => exact List.take_prefix 1 slots
  | _ => exact List.prefix_rfl

theorem not_fetching_of_follows {point next : Point X} (h : Point.Follows point next) :
    ¬ Fetching point ∧ ¬ Fetching next := by
  cases next with
  | loopHead =>
      refine ⟨?_, id⟩
      rcases h with ⟨w, rfl | rfl⟩
      · exact id
      · exact id
  | headCheck =>
      obtain rfl : point = .loopHead := h
      exact ⟨id, id⟩
  | clock =>
      obtain rfl : point = .headCheck := h
      exact ⟨id, id⟩
  | startJoining w current nodes =>
      obtain rfl : point = .preJoinCheck w current nodes := h
      exact ⟨id, id⟩
  | _ => cases point <;> first | exact ⟨id, id⟩ | cases h

theorem exists_records_of_fetching {l l' : Loop X} {input : Input X}
    (h : l.step cfg rp input = some (l', events)) (hfetching : Fetching l.point) :
    ∃ answer, input = .records answer := by
  cases hpoint : l.point with
  | fetchOlder w =>
      cases input with
      | records answer => exact ⟨answer, rfl⟩
      | _ => simp [Loop.step, hpoint] at h
  | fetchNewer w older =>
      cases input with
      | records answer => exact ⟨answer, rfl⟩
      | _ => simp [Loop.step, hpoint] at h
  | _ =>
      rw [hpoint] at hfetching
      exact hfetching.elim

theorem not_fetching_of_exited {l l' : Loop X} {input : Input X}
    (h : l.step cfg rp input = some (l', events)) (hexited : l'.point = .exited) :
    ¬ Fetching l.point := by
  intro hfetching
  obtain ⟨answer, rfl⟩ := exists_records_of_fetching h hfetching
  cases step_transition h with
  | moved input next events hpoint hnext hquiet =>
      exact (not_fetching_of_follows hnext).1 hfetching
  | interrupted input events hpoint hinput hquiet => exact hinput.elim
  | _ => cases hexited

@[simp] theorem slotsRead_append (i : Nat) :
    slotsRead (log ++ events) i = slotsRead log i ++ slotsRead events i :=
  List.filterMap_append

theorem slotsRead_of_noSlotRead (h : NoSlotRead events) (i : Nat) : slotsRead events i = [] := by
  apply List.filterMap_eq_nil_iff.mpr
  intro event hevent
  have hnone := h event hevent
  unfold slotRead
  split
  · exact absurd trivial hnone
  · exact absurd trivial hnone
  · rfl

/-- The window of every iteration so far is the one of its number, and it has read its
slots. An iteration that continues leaves its minute behind as published. -/
structure Selected (cfg : BootstrapConfig) (p : Process X) : Prop where
  started : startupReadings cfg ≤ (clockReadings p.log).length
  counted : (iterationMinutes cfg p.log).length = p.loop.iteration
  first : p.loop.iteration = 0 → cfg.checkOlderRecordsFirstOnStartup = true →
    p.loop.lastPublishedUnixMinute = 0
  window : ∀ w, Point.window p.loop.point = some w → ∃ m,
    (iterationMinutes cfg p.log).getLast? = some m ∧ w = windowOf cfg p.loop.iteration m
  continued : p.loop.iteration ≠ 0 → Point.window p.loop.point = none →
    p.loop.point ≠ .exited → p.loop.lastPublishedUnixMinute ∈ clockReadings p.log
  ended : ∀ w, Point.Ended w p.loop.point →
    p.loop.lastPublishedUnixMinute = w.currentUnixMinute
  reads : ∀ i m, (iterationMinutes cfg p.log)[i]? = some m → slotsRead p.log (i + 1) =
    if i + 1 = p.loop.iteration then readSoFar p.loop.point (expectedSlots cfg (i + 1) m)
    else expectedSlots cfg (i + 1) m
  unread : ∀ i, i = 0 ∨ p.loop.iteration < i → slotsRead p.log i = []

theorem windowOf_currentUnixMinute (cfg : BootstrapConfig) (i : Nat) (m : UInt64) :
    (windowOf cfg i m).currentUnixMinute = m := by
  unfold windowOf
  split <;> rfl

theorem iterationMinutes_append (h : startupReadings cfg ≤ (clockReadings log).length) :
    iterationMinutes cfg (log ++ events) = iterationMinutes cfg log ++ clockReadings events := by
  rw [iterationMinutes, clockReadings_append, List.drop_append_of_le_length h, iterationMinutes]

theorem Selected.exists_minute (h : Selected cfg p) {w : Window}
    (hwindow : Point.window p.loop.point = some w) : ∃ i,
      p.loop.iteration = i + 1 ∧
        (iterationMinutes cfg p.log)[i]? = some w.currentUnixMinute ∧
        w = windowOf cfg (i + 1) w.currentUnixMinute := by
  obtain ⟨m, hlast, hw⟩ := h.window w hwindow
  have hm : w.currentUnixMinute = m := hw ▸ windowOf_currentUnixMinute cfg _ m
  rw [List.getLast?_eq_getElem?, h.counted] at hlast
  have hpositive : 0 < p.loop.iteration := by
    rw [← h.counted]
    exact Nat.zero_lt_of_lt (List.getElem?_eq_some_iff.mp hlast).1
  obtain ⟨i, hi⟩ := Nat.exists_eq_add_one.mpr hpositive
  rw [hi, Nat.add_sub_cancel] at hlast
  exact ⟨i, hi, hm ▸ hlast, hm ▸ hi ▸ hw⟩

theorem Selected.of_events (h : Selected cfg p) {loop : Loop X} {publishes : List Publish}
    (hclock : clockReadings events = []) (hiteration : loop.iteration = p.loop.iteration)
    (hfirst : p.loop.iteration = 0 →
      loop.lastPublishedUnixMinute = p.loop.lastPublishedUnixMinute)
    (hwindow : ∀ w, Point.window loop.point = some w → Point.window p.loop.point = some w)
    (hcontinued : p.loop.iteration ≠ 0 → Point.window loop.point = none →
      loop.point ≠ .exited → loop.lastPublishedUnixMinute ∈ clockReadings p.log)
    (hended : ∀ w, Point.Ended w loop.point →
      loop.lastPublishedUnixMinute = w.currentUnixMinute)
    (hreads : ∀ i m, i + 1 = p.loop.iteration → (iterationMinutes cfg p.log)[i]? = some m →
      readSoFar p.loop.point (expectedSlots cfg (i + 1) m) ++ slotsRead events (i + 1) =
        readSoFar loop.point (expectedSlots cfg (i + 1) m))
    (hother : ∀ i, i = 0 ∨ i ≠ p.loop.iteration → slotsRead events i = []) :
    Selected cfg ⟨loop, publishes, p.log ++ events⟩ := by
  have hreadings : clockReadings (p.log ++ events) = clockReadings p.log := by
    rw [clockReadings_append, hclock, List.append_nil]
  have hminutes : iterationMinutes cfg (p.log ++ events) = iterationMinutes cfg p.log := by
    rw [iterationMinutes, hreadings, iterationMinutes]
  refine ⟨hreadings ▸ h.started, ?_, ?_, ?_, ?_, hended, ?_, ?_⟩
  · rw [hminutes, hiteration]
    exact h.counted
  · intro hzero holder
    rw [hfirst (hiteration.symm.trans hzero)]
    exact h.first (hiteration.symm.trans hzero) holder
  · intro w hw
    rw [hminutes, hiteration]
    exact h.window w (hwindow w hw)
  · intro hpositive hnone hrunning
    rw [hreadings]
    exact hcontinued (hiteration ▸ hpositive) hnone hrunning
  · intro i m hm
    rw [hminutes] at hm
    rw [slotsRead_append, h.reads i m hm, hiteration]
    by_cases hcurrent : i + 1 = p.loop.iteration
    · rw [if_pos hcurrent, if_pos hcurrent]
      exact hreads i m hcurrent hm
    · rw [if_neg hcurrent, if_neg hcurrent, hother (i + 1) (.inr hcurrent), List.append_nil]
  · intro i hi
    rw [hiteration] at hi
    have hne : i = 0 ∨ i ≠ p.loop.iteration := hi.imp_right Nat.ne_of_gt
    rw [slotsRead_append, h.unread i hi, hother i hne, List.append_nil]

theorem Selected.of_noSlotRead (h : Selected cfg p) {loop : Loop X} {publishes : List Publish}
    (hclock : clockReadings events = []) (hnone : NoSlotRead events)
    (hiteration : loop.iteration = p.loop.iteration)
    (hlast : loop.lastPublishedUnixMinute = p.loop.lastPublishedUnixMinute)
    (hpoint : loop.point = p.loop.point ∨ ¬ Fetching p.loop.point ∧ ¬ Fetching loop.point)
    (hwindow : ∀ w, Point.window loop.point = some w → Point.window p.loop.point = some w)
    (hcontinued : p.loop.iteration ≠ 0 → Point.window loop.point = none →
      loop.point ≠ .exited → p.loop.lastPublishedUnixMinute ∈ clockReadings p.log)
    (hended : ∀ w, Point.Ended w loop.point → Point.Ended w p.loop.point) :
    Selected cfg ⟨loop, publishes, p.log ++ events⟩ := by
  refine h.of_events hclock hiteration (fun _ => hlast) hwindow ?_ ?_ ?_
    fun i _ => slotsRead_of_noSlotRead hnone i
  · intro hpositive hout hrunning
    rw [hlast]
    exact hcontinued hpositive hout hrunning
  · intro w hw
    rw [hlast]
    exact h.ended w (hended w hw)
  · intro i m _ _
    rw [slotsRead_of_noSlotRead hnone, List.append_nil]
    rcases hpoint with hsame | ⟨hbefore, hafter⟩
    · rw [hsame]
    · rw [readSoFar_of_not_fetching hbefore, readSoFar_of_not_fetching hafter]

theorem slotsRead_older (i : Nat) (m : UInt64) (result : Result (Finset Record)) (j : Nat) :
    slotsRead [Event.read (X := X) (.older i) m result] j = if i = j then [m] else [] := by
  by_cases hij : i = j <;> simp [slotsRead, slotRead, hij]

theorem slotsRead_newer (i : Nat) (m : UInt64) (result : Result (Finset Record)) (j : Nat) :
    slotsRead [Event.read (X := X) (.newer i) m result] j = if i = j then [m] else [] := by
  by_cases hij : i = j <;> simp [slotsRead, slotRead, hij]

theorem select_eq_windowOf (h : Selected cfg p) (hpositive : ∀ m ∈ clockReadings p.log, m ≠ 0)
    (hpoint : p.loop.point = .clock) (m : UInt64) :
    Window.select cfg p.loop.lastPublishedUnixMinute m =
      windowOf cfg (p.loop.iteration + 1) m := by
  have hfirstRun : cfg.checkOlderRecordsFirstOnStartup = true →
      (p.loop.lastPublishedUnixMinute = 0 ↔ p.loop.iteration + 1 = 1) := by
    intro holder
    constructor
    · intro hzero
      by_contra hlater
      have hread := h.continued (fun hnone => hlater (hnone ▸ rfl)) (by rw [hpoint]; rfl)
        (by rw [hpoint]; simp)
      exact hpositive _ hread hzero
    · intro hone
      exact h.first (Nat.succ.inj hone) holder
  unfold Window.select windowOf
  by_cases holder : cfg.checkOlderRecordsFirstOnStartup = true
  · simp only [holder, and_true, hfirstRun holder]
  · rw [if_neg fun hboth => holder hboth.2, if_neg fun hboth => holder hboth.2]

theorem Selected.of_tick (h : Selected cfg p) (hpositive : ∀ m ∈ clockReadings p.log, m ≠ 0)
    (hpoint : p.loop.point = .clock) (m : UInt64) {publishes : List Publish} :
    Selected cfg ⟨{ p.loop with
        point := .fetchOlder (Window.select cfg p.loop.lastPublishedUnixMinute m)
        iteration := p.loop.iteration + 1 }, publishes, p.log ++ [.clock m]⟩ := by
  have hreadings : clockReadings [Event.clock (X := X) m] = [m] := rfl
  have hminutes : iterationMinutes cfg (p.log ++ [.clock m]) =
      iterationMinutes cfg p.log ++ [m] := iterationMinutes_append h.started
  have hunread : ∀ i, slotsRead (p.log ++ [.clock m]) i = slotsRead p.log i := by
    intro i
    rw [slotsRead_append]
    exact List.append_nil _
  refine ⟨?_, ?_, ?_, ?_, ?_, ?_, ?_, ?_⟩
  · change startupReadings cfg ≤ (clockReadings (p.log ++ [.clock m])).length
    rw [clockReadings_append, List.length_append]
    exact Nat.le_add_right_of_le h.started
  · rw [hminutes, List.length_append, h.counted]
    rfl
  · intro hzero
    cases hzero
  · intro w hw
    obtain rfl := Option.some.inj hw
    refine ⟨m, ?_, select_eq_windowOf h hpositive hpoint m⟩
    rw [hminutes, List.getLast?_concat]
  · intro _ hnone
    cases hnone
  · rintro w (hw | hw)
    · cases hw
    · cases hw
  · intro i m' hm'
    rw [hminutes] at hm'
    rw [hunread]
    by_cases hcurrent : i + 1 = p.loop.iteration + 1
    · rw [if_pos hcurrent]
      exact h.unread (i + 1) (.inr (hcurrent ▸ Nat.lt_succ_self _))
    · have hlt : i < (iterationMinutes cfg p.log).length := by
        have hle := (List.getElem?_eq_some_iff.mp hm').1
        rw [List.length_append, List.length_singleton, h.counted] at hle
        rw [h.counted]
        omega
      rw [List.getElem?_append_left hlt] at hm'
      rw [if_neg hcurrent, h.reads i m' hm', hpoint]
      exact ite_self _
  · intro i hi
    rw [hunread]
    exact h.unread i (hi.imp_right Nat.lt_of_succ_lt)

theorem Selected.of_readOlder (h : Selected cfg p) {w : Window}
    (hpoint : p.loop.point = .fetchOlder w) (older : Finset Record)
    (result : Result (Finset Record)) {publishes : List Publish} :
    Selected cfg ⟨p.loop.goto (.fetchNewer w older), publishes,
      p.log ++ [.read (.older p.loop.iteration) w.older result]⟩ := by
  have hwindow : Point.window p.loop.point = some w := by
    rw [hpoint]
    rfl
  obtain ⟨i, hi, hminute, hw⟩ := h.exists_minute hwindow
  refine h.of_events rfl rfl (fun _ => rfl) ?_ ?_ ?_ ?_ ?_
  · intro w' hw'
    rw [hwindow]
    exact hw'
  · intro _ hnone
    cases hnone
  · rintro w' (hw' | hw')
    · cases hw'
    · cases hw'
  · intro j m hj hm
    obtain rfl : j = i := Nat.succ.inj (hj.trans hi)
    obtain rfl := Option.some.inj (hm.symm.trans hminute)
    rw [slotsRead_older, if_pos hi, hpoint, ← slots_windowOf, ← hw]
    rfl
  · intro j hj
    rw [slotsRead_older, if_neg]
    rintro rfl
    rcases hj with hzero | hne
    · omega
    · exact hne rfl

theorem Selected.of_readNewer (h : Selected cfg p) {w : Window} {older : Finset Record}
    (hpoint : p.loop.point = .fetchNewer w older) {result : Result (Finset Record)}
    {loop : Loop X} {publishes : List Publish} (hclock : clockReadings events = [])
    (hnone : NoSlotRead events) (hiteration : loop.iteration = p.loop.iteration)
    (hwindow : Point.window loop.point = some w) (hfetched : ¬ Fetching loop.point)
    (hended : ∀ w', Point.Ended w' loop.point →
      loop.lastPublishedUnixMinute = w'.currentUnixMinute) :
    Selected cfg ⟨loop, publishes,
      p.log ++ .read (.newer p.loop.iteration) w.newer result :: events⟩ := by
  have hbefore : Point.window p.loop.point = some w := by
    rw [hpoint]
    rfl
  obtain ⟨i, hi, hminute, hw⟩ := h.exists_minute hbefore
  have hslots : ∀ j, slotsRead (.read (.newer p.loop.iteration) w.newer result :: events) j =
      if p.loop.iteration = j then [w.newer] else [] := by
    intro j
    rw [← List.singleton_append, slotsRead_append, slotsRead_newer,
      slotsRead_of_noSlotRead hnone, List.append_nil]
  refine h.of_events ?_ hiteration ?_ ?_ ?_ hended ?_ ?_
  · rw [← List.singleton_append, clockReadings_append, hclock]
    rfl
  · intro hzero
    omega
  · intro w' hw'
    rw [hbefore, ← hwindow]
    exact hw'
  · intro _ hout
    cases hout.symm.trans hwindow
  · intro j m hj hm
    obtain rfl : j = i := Nat.succ.inj (hj.trans hi)
    obtain rfl := Option.some.inj (hm.symm.trans hminute)
    rw [hslots, if_pos hi, hpoint, readSoFar_of_not_fetching hfetched, ← slots_windowOf, ← hw]
    rfl
  · intro j hj
    rw [hslots, if_neg]
    rintro rfl
    rcases hj with hzero | hne
    · omega
    · exact hne rfl

theorem Selected.of_exit (h : Selected cfg p) {loop : Loop X} {publishes : List Publish}
    (hclock : clockReadings events = []) (hnone : NoSlotRead events)
    (hiteration : loop.iteration = p.loop.iteration)
    (hlast : loop.lastPublishedUnixMinute = p.loop.lastPublishedUnixMinute)
    (hexited : loop.point = .exited) (hfetched : ¬ Fetching p.loop.point) :
    Selected cfg ⟨loop, publishes, p.log ++ events⟩ := by
  refine h.of_noSlotRead hclock hnone hiteration hlast (.inr ⟨hfetched, ?_⟩) ?_ ?_ ?_
  · rw [hexited]
    exact id
  · intro w hw
    rw [hexited] at hw
    cases hw
  · intro _ _ hrunning
    exact absurd hexited hrunning
  · intro w hw
    rw [hexited] at hw
    rcases hw with hw | hw
    · cases hw
    · cases hw

theorem Selected.of_move (h : Selected cfg p) {next : Point X} {publishes : List Publish}
    (hrunning : p.loop.point ≠ .exited) (hnext : Point.Follows p.loop.point next)
    (hclock : clockReadings events = []) (hnone : NoSlotRead events) :
    Selected cfg ⟨p.loop.goto next, publishes, p.log ++ events⟩ := by
  refine h.of_noSlotRead hclock hnone rfl rfl (.inr (not_fetching_of_follows hnext))
    (fun w hw => hnext.window_of hw) ?_ fun w hw => absurd hw (hnext.not_ended w)
  intro hpositive hout _
  by_cases hended : ∃ w, Point.Ended w p.loop.point
  · rcases hended with ⟨w, hw⟩
    obtain ⟨i, -, hminute, -⟩ := h.exists_minute hw.window_eq
    rw [h.ended w hw]
    exact List.mem_of_mem_drop (List.mem_of_getElem? hminute)
  · have hsame := hnext.window_eq fun w hw => hended ⟨w, hw⟩
    exact h.continued hpositive (hsame ▸ hout) hrunning

/-- The end of an iteration publishes its minute, if that is due, and keeps it. -/
theorem Selected.of_notJoined (h : Selected cfg p) {w : Window} {current : Finset Record}
    (hpoint : p.loop.point = .finalCheck w current) {publishes : List Publish} :
    Selected cfg ⟨(Loop.publishIfDue rp p.loop w current).1.goto (.pollWait w), publishes,
      p.log ++ .checked .final (.ok false) :: (Loop.publishIfDue rp p.loop w current).2⟩ := by
  have hwindow : Point.window p.loop.point = some w := by
    rw [hpoint]
    rfl
  obtain ⟨i, hi, -, -⟩ := h.exists_minute hwindow
  have hnone : NoSlotRead (X := X) (.checked .final (.ok false) ::
      (Loop.publishIfDue rp p.loop w current).2) :=
    List.forall_mem_cons.mpr ⟨id, NoSlotRead.of_publishIfDue⟩
  refine h.of_events (clockReadings_publishIfDue p.loop w current)
    (publishIfDue_iteration _ _ _) ?_ ?_ ?_ ?_ ?_ fun j _ => slotsRead_of_noSlotRead hnone j
  · intro hzero
    omega
  · intro w' hw'
    rw [hwindow]
    exact hw'
  · intro _ hout
    cases hout
  · rintro w' (hw' | hw')
    · cases hw'
    · cases hw'
      exact publishIfDue_lastPublishedUnixMinute _ _ _
  · intro j m _ _
    rw [slotsRead_of_noSlotRead hnone, List.append_nil, hpoint]
    rfl

theorem clockReadings_of_quiet (hquiet : ∀ event ∈ events, Quiet event) :
    clockReadings events = [] :=
  clockReadings_of_silent fun event hevent => .of_quiet (hquiet event hevent)

theorem selected_of_transition (h : Selected cfg p)
    (hpositive : ∀ m ∈ clockReadings p.log, m ≠ 0) {input : Input X} {loop : Loop X}
    (hexit : loop.point = .exited → ¬ Fetching p.loop.point)
    (htransition : Transition cfg rp p.loop input loop events) :
    Selected cfg ⟨loop, p.publishes ++ events.filterMap spawned, p.log ++ events⟩ := by
  cases htransition with
  | tick m hpoint => exact h.of_tick hpositive hpoint m
  | readOlder w answer hpoint => exact h.of_readOlder hpoint _ _
  | noRecords w answer hpoint hnone =>
      refine h.of_readNewer hpoint (clockReadings_publishIfDue _ _ _) .of_publishIfDue
        (publishIfDue_iteration _ _ _) rfl id ?_
      rintro w' (hw' | hw')
      · cases hw'
        exact publishIfDue_lastPublishedUnixMinute _ _ _
      · cases hw'
  | collected w older answer hpoint =>
      refine h.of_readNewer hpoint rfl (by simp [NoSlotRead]) rfl rfl id ?_
      rintro w' (hw' | hw')
      · cases hw'
      · cases hw'
  | notJoined w current hpoint => exact h.of_notJoined hpoint
  | settled w current rest hpoint =>
      refine h.of_noSlotRead rfl (by simp [NoSlotRead, SlotRead]) rfl rfl ?_ ?_ ?_ ?_
      · rw [hpoint]
        exact .inr ⟨id, id⟩
      · intro w' hw'
        rw [hpoint]
        exact hw'
      · intro _ hout
        cases hout
      · rintro w' (hw' | hw')
        · cases hw'
        · cases hw'
  | moved input next events hpoint hnext hquiet =>
      exact h.of_move hpoint hnext (clockReadings_of_quiet hquiet) (.of_quiet hquiet)
  | joined site hpoint hsite =>
      exact h.of_exit rfl (by simp [NoSlotRead, SlotRead]) rfl rfl rfl (hexit rfl)
  | interrupted input events hpoint hinput hquiet =>
      refine h.of_exit ?_ ?_ rfl rfl rfl (hexit rfl)
      · rw [clockReadings_append, clockReadings_of_quiet hquiet]
        rfl
      · exact List.forall_mem_append.mpr
          ⟨NoSlotRead.of_quiet hquiet, by simp [Loop.exit, SlotRead]⟩

theorem clockReadings_startupEvents (cfg : BootstrapConfig) (rp : RecordPublisher X)
    (unixMinute : UInt64) :
    (clockReadings (startupEvents cfg rp unixMinute)).length = startupReadings cfg := by
  unfold startupEvents startupReadings
  split
  · have hnone : clockReadings (Loop.initiate rp none unixMinute none) = [] := by
      apply List.filterMap_eq_nil_iff.mpr
      intro event hevent
      obtain ⟨content, rfl⟩ := mem_initiate hevent
      rfl
    rw [← List.singleton_append, clockReadings_append, hnone]
    rfl
  · rfl

theorem selected_start : Selected cfg (Process.start cfg rp unixMinute) := by
  have hreadings := clockReadings_startupEvents cfg rp unixMinute
  have hminutes : iterationMinutes cfg (Process.start cfg rp unixMinute).log = [] :=
    List.drop_eq_nil_of_le hreadings.le
  have hnone : NoSlotRead (Process.start cfg rp unixMinute).log := .of_startupEvents
  refine ⟨hreadings.ge, ?_, ?_, ?_, ?_, ?_, ?_, fun i _ => slotsRead_of_noSlotRead hnone i⟩
  · rw [hminutes]
    rfl
  · intro _ holder
    simp [Process.start, startLoop, holder]
  · intro w hw
    cases hw
  · intro hpositive
    exact absurd rfl hpositive
  · rintro w (hw | hw)
    · cases hw
    · cases hw
  · intro i m hm
    rw [hminutes] at hm
    cases hm

theorem Selected.of_publish (h : Selected cfg p) {id : Nat} {task : PublishTask}
    {input : PublishInput} {publishes : List Publish} :
    Selected cfg ⟨p.loop, publishes, p.log ++ publishEvents rp id task input⟩ := by
  refine h.of_noSlotRead ?_ .of_publishEvents rfl rfl (.inl rfl) (fun _ hw => hw) h.continued
    fun _ hw => hw
  apply clockReadings_of_silent
  intro event hevent
  rcases mem_publishEvents hevent with ⟨answer, draw, -, -, -, rfl⟩ | ⟨put, -, -, rfl⟩
  · simp [Silent]
  · simp [Silent]

theorem selected_of_reachable (h : Reachable cfg rp unixMinute p)
    (hpositive : ∀ m ∈ clockReadings p.log, m ≠ 0) : Selected cfg p := by
  revert hpositive
  refine h.induction (P := fun p => (∀ m ∈ clockReadings p.log, m ≠ 0) → Selected cfg p)
    (fun _ => selected_start) ?_
  intro p label q hstep hp hpositive
  cases label with
  | loop input =>
      obtain ⟨loop, events, hloop, rfl⟩ := exists_of_step_loop hstep
      have hbefore : ∀ m ∈ clockReadings p.log, m ≠ 0 := by
        intro m hm
        exact hpositive m (clockReadings_append ▸ List.mem_append_left _ hm)
      exact selected_of_transition (hp hbefore) hbefore (not_fetching_of_exited hloop)
        (step_transition hloop)
  | publish id input =>
      obtain ⟨publish, task, -, -, rfl⟩ := exists_of_step_publish hstep
      have hbefore : ∀ m ∈ clockReadings p.log, m ≠ 0 := by
        intro m hm
        exact hpositive m (clockReadings_append ▸ List.mem_append_left _ hm)
      exact (hp hbefore).of_publish

/-- The iteration that first reaches the fetch reads the slots of two minutes and one
minute ago, if the older ones come first; every other iteration reads those of the
previous and the current minute. Cached records are handed to a publish only as the
outcome of the iteration's read of the slot of the record's own minute. -/
theorem window_selection (h : Reachable cfg rp unixMinute p)
    (hpositive : ∀ m ∈ clockReadings p.log, m ≠ 0) :
    (∀ i m, (iterationMinutes cfg p.log)[i]? = some m →
      slotsRead p.log (i + 1) <+: expectedSlots cfg (i + 1) m ∧
        (i + 1 ≠ p.loop.iteration ∨ ¬ Fetching p.loop.point →
          slotsRead p.log (i + 1) = expectedSlots cfg (i + 1) m)) ∧
      (∀ i, i = 0 ∨ (iterationMinutes cfg p.log).length < i → slotsRead p.log i = []) ∧
      ∀ publish ∈ p.publishes, HandedOver p.log publish := by
  have hselected := selected_of_reachable h hpositive
  refine ⟨?_, ?_, (tracked_of_reachable h).handed⟩
  · intro i m hm
    rw [hselected.reads i m hm]
    by_cases hcurrent : i + 1 = p.loop.iteration
    · rw [if_pos hcurrent]
      refine ⟨readSoFar_prefix_slots _ _, ?_⟩
      rintro (hne | hfetched)
      · exact absurd hcurrent hne
      · exact readSoFar_of_not_fetching hfetched _
    · rw [if_neg hcurrent]
      exact ⟨List.prefix_rfl, fun _ => rfl⟩
  · rw [hselected.counted]
    exact hselected.unread

def olderFirstRun : List (Label reference) :=
  quietIteration 8 ++ .loop (.woke .slept) :: quietIteration 7

theorem window_selection_olderFirstRun :
    ∃ p, run (Process.step olderFirst (samplePublisher 2 {}))
        (Process.start olderFirst (samplePublisher 2 {}) 7) olderFirstRun = some p ∧
      slotsRead p.log 1 = [6, 7] ∧ slotsRead p.log 2 = [6, 7] := by
  have hrun : ∃ p ∈ run (Process.step olderFirst (samplePublisher 2 {}))
      (Process.start olderFirst (samplePublisher 2 {}) 7) olderFirstRun,
      clockReadings p.log = [7, 8, 7] ∧ p.loop.point = .noPeersWait ⟨7, 0, true⟩ := by
    decide +kernel
  rcases hrun with ⟨p, hp, hreadings, hpoint⟩
  have hpositive : ∀ m ∈ clockReadings p.log, m ≠ 0 := by simp [hreadings]
  have hfetched : ¬ Fetching p.loop.point := by
    rw [hpoint]
    exact id
  have hminutes : iterationMinutes olderFirst p.log = [8, 7] := by
    rw [iterationMinutes, hreadings]
    rfl
  obtain ⟨hslots, -, -⟩ := window_selection ⟨olderFirstRun, hp⟩ hpositive
  exact ⟨p, hp, (hslots 0 8 (by rw [hminutes]; rfl)).2 (.inr hfetched),
    (hslots 1 7 (by rw [hminutes]; rfl)).2 (.inr hfetched)⟩

end TopicTracker.WindowSelection
