import TopicTracker.BootstrapProcess

namespace TopicTracker.BootstrapPublishing

open TopicTracker.Configuration
open TopicTracker.RustValues
open TopicTracker.ThirdParty
open TopicTracker.ReferenceExternals
open TopicTracker.RecordCodec
open TopicTracker.RecordRetrieval
open TopicTracker.RecordPublishing
open TopicTracker.BootstrapLoop
open TopicTracker.BootstrapTransition
open TopicTracker.BootstrapProcess
open TopicTracker.StepMachine

variable {X : Externals} {cfg : BootstrapConfig} {rp : RecordPublisher X}
variable {unixMinute : UInt64} {p : Process X} {log events : List (Event X)}

def clockReadings (log : List (Event X)) : List UInt64 :=
  log.filterMap fun
    | .clock unixMinute => some unixMinute
    | _ => none

def initiatedMinutes (log : List (Event X)) : List UInt64 :=
  log.filterMap fun
    | .initiated _ record _ => some record.unixMinute
    | _ => none

@[simp] theorem clockReadings_append :
    clockReadings (log ++ events) = clockReadings log ++ clockReadings events :=
  List.filterMap_append

@[simp] theorem initiatedMinutes_append :
    initiatedMinutes (log ++ events) = initiatedMinutes log ++ initiatedMinutes events :=
  List.filterMap_append

/-- The clock never shows minute 0 and never goes back. -/
structure Steady (log : List (Event X)) : Prop where
  positive : ∀ m ∈ clockReadings log, m ≠ 0
  nondecreasing : (clockReadings log).Pairwise (· ≤ ·)

theorem Steady.of_append (h : Steady (log ++ events)) : Steady log where
  positive m hm := h.positive m (by simp [hm])
  nondecreasing := by
    have := h.nondecreasing
    rw [clockReadings_append] at this
    exact (List.pairwise_append.mp this).1

theorem Steady.le_getLast (h : Steady log) {m last : UInt64} (hm : m ∈ clockReadings log)
    (hlast : (clockReadings log).getLast? = some last) : m ≤ last := by
  obtain ⟨front, hfront⟩ := List.getLast?_eq_some_iff.mp hlast
  have hsorted := h.nondecreasing
  rw [hfront] at hm hsorted
  rcases List.mem_append.mp hm with hm | hm
  · exact (List.pairwise_append.mp hsorted).2.2 m hm last (by simp)
  · rw [List.mem_singleton.mp hm]
    exact UInt64.le_refl last

/-- Both startup flags are set and the first iteration still runs in the minute
of the startup publish. -/
def RepeatsStartupMinute (cfg : BootstrapConfig) (unixMinute : UInt64)
    (log : List (Event X)) : Prop :=
  cfg.publishRecordOnStartup = true ∧ cfg.checkOlderRecordsFirstOnStartup = true ∧
    (clockReadings log)[1]? = some unixMinute

theorem RepeatsStartupMinute.append (h : RepeatsStartupMinute cfg unixMinute log) :
    RepeatsStartupMinute cfg unixMinute (log ++ events) := by
  rcases h with ⟨hpublish, holder, hsecond⟩
  refine ⟨hpublish, holder, ?_⟩
  rw [clockReadings_append, List.getElem?_append_left (List.getElem?_eq_some_iff.mp hsecond).1]
  exact hsecond

def Silent (event : Event X) : Prop :=
  (∀ m, event ≠ .clock m) ∧ ∀ iteration record cached, event ≠ .initiated iteration record cached

theorem Silent.of_quiet {event : Event X} (h : Quiet event) : Silent event := by
  constructor
  · rintro m rfl
    exact h
  · rintro iteration record cached rfl
    exact h

theorem clockReadings_of_silent (h : ∀ event ∈ events, Silent event) :
    clockReadings events = [] := by
  apply List.filterMap_eq_nil_iff.mpr
  intro event hevent
  split
  · next m => exact absurd rfl ((h _ hevent).1 m)
  · rfl

theorem initiatedMinutes_of_silent (h : ∀ event ∈ events, Silent event) :
    initiatedMinutes events = [] := by
  apply List.filterMap_eq_nil_iff.mpr
  intro event hevent
  split
  · next iteration record cached => exact absurd rfl ((h _ hevent).2 iteration record cached)
  · rfl

structure FirstRun (cfg : BootstrapConfig) (unixMinute : UInt64) (p : Process X) : Prop where
  publishOnStartup : cfg.publishRecordOnStartup = true
  checkOlderFirst : cfg.checkOlderRecordsFirstOnStartup = true
  initiated : initiatedMinutes p.log = [unixMinute]
  readings : p.loop.point ≠ .exited → clockReadings p.log =
    unixMinute :: ((Point.window p.loop.point).map Window.currentUnixMinute).toList

/-- What ties `last_published_unix_minute` to the publishes initiated so far. -/
structure Paced (cfg : BootstrapConfig) (unixMinute : UInt64) (p : Process X) : Prop where
  increasing : ¬ RepeatsStartupMinute cfg unixMinute p.log →
    (initiatedMinutes p.log).Pairwise (· < ·)
  read : ∀ m ∈ initiatedMinutes p.log, m ∈ clockReadings p.log
  published : p.loop.lastPublishedUnixMinute ≠ 0 →
    p.loop.lastPublishedUnixMinute ∈ initiatedMinutes p.log ∧
      ∀ m ∈ initiatedMinutes p.log, m ≤ p.loop.lastPublishedUnixMinute
  unpublished : p.loop.lastPublishedUnixMinute = 0 →
    (initiatedMinutes p.log = [] ∧ cfg.publishRecordOnStartup = false) ∨
      FirstRun cfg unixMinute p
  afterFirst : p.loop.lastPublishedUnixMinute ≠ 0 → cfg.publishRecordOnStartup = true →
    cfg.checkOlderRecordsFirstOnStartup = true → ∃ first rest,
      clockReadings p.log = unixMinute :: first :: rest ∧
        (first = unixMinute → 2 ≤ (initiatedMinutes p.log).count unixMinute)
  window : ∀ w, Point.window p.loop.point = some w →
    (clockReadings p.log).getLast? = some w.currentUnixMinute
  ended : ∀ w, Point.Ended w p.loop.point →
    w.currentUnixMinute = p.loop.lastPublishedUnixMinute

theorem Paced.of_silent (h : Paced cfg unixMinute p) {loop : Loop X}
    {publishes : List Publish} (hsilent : ∀ event ∈ events, Silent event)
    (hlast : loop.lastPublishedUnixMinute = p.loop.lastPublishedUnixMinute)
    (hwindow : ∀ w, Point.window loop.point = some w → Point.window p.loop.point = some w)
    (hended : ∀ w, Point.Ended w loop.point → Point.Ended w p.loop.point)
    (hfirst : loop.lastPublishedUnixMinute = 0 → loop.point ≠ .exited →
      p.loop.point ≠ .exited ∧ Point.window loop.point = Point.window p.loop.point) :
    Paced cfg unixMinute ⟨loop, publishes, p.log ++ events⟩ := by
  have hreadings : clockReadings (p.log ++ events) = clockReadings p.log := by
    rw [clockReadings_append, clockReadings_of_silent hsilent, List.append_nil]
  have hinitiated : initiatedMinutes (p.log ++ events) = initiatedMinutes p.log := by
    rw [initiatedMinutes_append, initiatedMinutes_of_silent hsilent, List.append_nil]
  constructor
  · simpa [RepeatsStartupMinute, hreadings, hinitiated] using h.increasing
  · simpa [hreadings, hinitiated] using h.read
  · simpa [hinitiated, hlast] using h.published
  · intro hzero
    rcases h.unpublished (hlast.symm.trans hzero) with ⟨hnone, hstartup⟩ | hrun
    · exact .inl ⟨hinitiated.trans hnone, hstartup⟩
    · refine .inr ⟨hrun.publishOnStartup, hrun.checkOlderFirst, hinitiated.trans hrun.initiated,
        fun hexited => ?_⟩
      obtain ⟨hrunning, hsame⟩ := hfirst hzero hexited
      change clockReadings (p.log ++ events) = _
      rw [hreadings, hrun.readings hrunning, ← hsame]
  · simpa [hreadings, hinitiated, hlast] using h.afterFirst
  · intro w hw
    rw [← h.window w (hwindow w hw), ← hreadings]
  · intro w hw
    exact (h.ended w (hended w hw)).trans hlast.symm

theorem initiatedMinutes_publishIfDue (hencodes : SerializesContent X) (l : Loop X)
    (w : Window) (current : Finset Record) :
    initiatedMinutes (Loop.publishIfDue rp l w current).2 =
      if w.currentUnixMinute ≠ l.lastPublishedUnixMinute then [w.currentUnixMinute] else [] := by
  unfold Loop.publishIfDue
  split
  · obtain ⟨content, hinitiate⟩ := initiate_eq hencodes rp (some l.iteration)
      w.currentUnixMinute (if w.useCachedNext then some current else none)
    rw [hinitiate]
    rfl
  · rfl

theorem clockReadings_publishIfDue (l : Loop X) (w : Window) (current : Finset Record) :
    clockReadings (Loop.publishIfDue rp l w current).2 = [] := by
  apply List.filterMap_eq_nil_iff.mpr
  intro event hevent
  obtain ⟨content, rfl⟩ := mem_publishIfDue hevent
  rfl

/-- Whatever was initiated before lies in an earlier minute than a due publish. -/
theorem Paced.initiated_lt (h : Paced cfg unixMinute p) (hsteady : Steady p.log)
    (hrepeats : ¬ RepeatsStartupMinute cfg unixMinute p.log) {w : Window}
    (hwindow : Point.window p.loop.point = some w)
    (hdue : w.currentUnixMinute ≠ p.loop.lastPublishedUnixMinute) :
    ∀ m ∈ initiatedMinutes p.log, m < w.currentUnixMinute := by
  intro m hm
  have hle : m ≤ w.currentUnixMinute := hsteady.le_getLast (h.read m hm) (h.window w hwindow)
  apply UInt64.lt_of_le_of_ne hle
  rintro rfl
  have hrunning : p.loop.point ≠ .exited := by
    intro hexited
    rw [hexited] at hwindow
    cases hwindow
  by_cases hzero : p.loop.lastPublishedUnixMinute = 0
  · rcases h.unpublished hzero with ⟨hnone, -⟩ | hrun
    · rw [hnone] at hm
      cases hm
    · have hsame : w.currentUnixMinute = unixMinute := by
        rw [hrun.initiated] at hm
        exact List.mem_singleton.mp hm
      refine hrepeats ⟨hrun.publishOnStartup, hrun.checkOlderFirst, ?_⟩
      rw [hrun.readings hrunning, hwindow, ← hsame]
      rfl
  · obtain ⟨hlast, hgreatest⟩ := h.published hzero
    exact hdue (UInt64.le_antisymm (hgreatest _ hm)
      (hsteady.le_getLast (h.read _ hlast) (h.window w hwindow)))

section Due

variable {w : Window} {current : Finset Record} {event : Event X}

theorem clockReadings_concat_publishIfDue (l : Loop X) (hsilent : Silent event) :
    clockReadings (log ++ event :: (Loop.publishIfDue rp l w current).2) =
      clockReadings log := by
  have hevent : clockReadings [event] = [] := clockReadings_of_silent (by simpa using hsilent)
  rw [List.append_cons, clockReadings_append, clockReadings_append, hevent,
    clockReadings_publishIfDue, List.append_nil, List.append_nil]

theorem initiatedMinutes_concat_publishIfDue (hencodes : SerializesContent X) (l : Loop X)
    (hsilent : Silent event) :
    initiatedMinutes (log ++ event :: (Loop.publishIfDue rp l w current).2) =
      initiatedMinutes log ++
        if w.currentUnixMinute ≠ l.lastPublishedUnixMinute then [w.currentUnixMinute]
          else [] := by
  have hevent : initiatedMinutes [event] = [] :=
    initiatedMinutes_of_silent (by simpa using hsilent)
  rw [List.append_cons, initiatedMinutes_append, initiatedMinutes_append, hevent,
    initiatedMinutes_publishIfDue hencodes, List.append_nil]

theorem Paced.mem_initiated (h : Paced cfg unixMinute p) (hpositive : w.currentUnixMinute ≠ 0) :
    w.currentUnixMinute ∈ initiatedMinutes p.log ++
      if w.currentUnixMinute ≠ p.loop.lastPublishedUnixMinute then [w.currentUnixMinute]
        else [] := by
  split
  · simp
  · next hdue =>
      rw [not_not.mp hdue, List.append_nil]
      exact (h.published (not_not.mp hdue ▸ hpositive)).1

theorem Paced.second_of_publishIfDue (h : Paced cfg unixMinute p)
    (hwindow : Point.window p.loop.point = some w) (hpositive : w.currentUnixMinute ≠ 0)
    (hpublish : cfg.publishRecordOnStartup = true)
    (holder : cfg.checkOlderRecordsFirstOnStartup = true) :
    ∃ first rest, clockReadings p.log = unixMinute :: first :: rest ∧
      (first = unixMinute → 2 ≤ (initiatedMinutes p.log ++
        if w.currentUnixMinute ≠ p.loop.lastPublishedUnixMinute then [w.currentUnixMinute]
          else []).count unixMinute) := by
  by_cases hzero : p.loop.lastPublishedUnixMinute = 0
  · rcases h.unpublished hzero with ⟨-, hstartup⟩ | hrun
    · rw [hpublish] at hstartup
      cases hstartup
    · have hrunning : p.loop.point ≠ .exited := by
        intro hexited
        rw [hexited] at hwindow
        cases hwindow
      refine ⟨w.currentUnixMinute, [], ?_, ?_⟩
      · rw [hrun.readings hrunning, hwindow]
        rfl
      · rintro hsame
        rw [hzero, if_pos hpositive, hrun.initiated, hsame]
        simp
  · obtain ⟨first, rest, hreadings, hcount⟩ := h.afterFirst hzero hpublish holder
    refine ⟨first, rest, hreadings, fun hsame => ?_⟩
    rw [List.count_append]
    exact Nat.le_add_right_of_le (hcount hsame)

theorem Paced.of_publishIfDue (hencodes : SerializesContent X)
    (h : Paced cfg unixMinute p) (hsteady : Steady p.log) {point : Point X}
    {publishes : List Publish} (hwindow : Point.window p.loop.point = some w)
    (hsilent : Silent event) (hpoint : Point.Ended w point) :
    Paced cfg unixMinute
      ⟨(Loop.publishIfDue rp p.loop w current).1.goto point, publishes,
        p.log ++ event :: (Loop.publishIfDue rp p.loop w current).2⟩ := by
  have hcurrent : (clockReadings p.log).getLast? = some w.currentUnixMinute := h.window w hwindow
  have hpositive : w.currentUnixMinute ≠ 0 :=
    hsteady.positive _ (List.mem_of_getLast? hcurrent)
  have hlast : ((Loop.publishIfDue rp p.loop w current).1.goto point).lastPublishedUnixMinute =
      w.currentUnixMinute := publishIfDue_lastPublishedUnixMinute p.loop w current
  have hread : ∀ m ∈ initiatedMinutes p.log ++
      (if w.currentUnixMinute ≠ p.loop.lastPublishedUnixMinute then [w.currentUnixMinute]
        else []), m ∈ clockReadings p.log := by
    intro m hm
    rcases List.mem_append.mp hm with hm | hm
    · exact h.read m hm
    · split at hm
      · rw [List.mem_singleton.mp hm]
        exact List.mem_of_getLast? hcurrent
      · cases hm
  refine ⟨?_, ?_, ?_, ?_, ?_, ?_, ?_⟩ <;>
    simp only [RepeatsStartupMinute, clockReadings_concat_publishIfDue p.loop hsilent,
      initiatedMinutes_concat_publishIfDue hencodes p.loop hsilent, hlast]
  · intro hrepeats
    split
    · next hdue =>
        refine List.pairwise_append.mpr ⟨h.increasing hrepeats, List.pairwise_singleton _ _, ?_⟩
        intro m hm m' hm'
        rw [List.mem_singleton.mp hm']
        exact h.initiated_lt hsteady hrepeats hwindow hdue m hm
    · simpa using h.increasing hrepeats
  · exact hread
  · intro _
    exact ⟨h.mem_initiated hpositive, fun m hm => hsteady.le_getLast (hread m hm) hcurrent⟩
  · exact fun hzero => absurd hzero hpositive
  · exact fun _ => h.second_of_publishIfDue hwindow hpositive
  · intro w' hw'
    rcases hpoint with rfl | rfl
    · rw [← Option.some.inj hw', hcurrent]
    · rw [← Option.some.inj hw', hcurrent]
  · rintro w' (hw' | hw')
    · rcases hpoint with rfl | rfl
      · cases hw'
        rfl
      · cases hw'
    · rcases hpoint with rfl | rfl
      · cases hw'
      · cases hw'
        rfl

end Due

theorem Paced.of_tick (h : Paced cfg unixMinute p) {m : UInt64} {publishes : List Publish}
    (hpoint : p.loop.point = .clock) :
    Paced cfg unixMinute
      ⟨{ p.loop with
          point := .fetchOlder (Window.select cfg p.loop.lastPublishedUnixMinute m)
          iteration := p.loop.iteration + 1 }, publishes, p.log ++ [.clock m]⟩ := by
  have hreadings : clockReadings (p.log ++ [.clock m]) = clockReadings p.log ++ [m] := by
    rw [clockReadings_append]
    rfl
  have hinitiated : initiatedMinutes (p.log ++ [.clock m]) = initiatedMinutes p.log := by
    rw [initiatedMinutes_append]
    exact List.append_nil _
  have hselect : (Window.select cfg p.loop.lastPublishedUnixMinute m).currentUnixMinute = m := by
    unfold Window.select
    split <;> rfl
  constructor
  · intro hrepeats
    rw [hinitiated]
    exact h.increasing fun h' => hrepeats h'.append
  · intro m' hm'
    change m' ∈ clockReadings (p.log ++ [.clock m])
    rw [hreadings]
    exact List.mem_append_left _ (h.read m' (hinitiated ▸ hm'))
  · simpa [hinitiated] using h.published
  · intro hzero
    rcases h.unpublished hzero with ⟨hnone, hstartup⟩ | hrun
    · exact .inl ⟨hinitiated.trans hnone, hstartup⟩
    · refine .inr ⟨hrun.publishOnStartup, hrun.checkOlderFirst, hinitiated.trans hrun.initiated,
        fun _ => ?_⟩
      have hfirst := hrun.readings (by simp [hpoint])
      rw [hpoint] at hfirst
      change clockReadings (p.log ++ [.clock m]) = _
      rw [hreadings, hfirst]
      simp [Point.window, Point.fetched, hselect]
  · intro hlast hpublish holder
    obtain ⟨first, rest, hfirst, hcount⟩ := h.afterFirst hlast hpublish holder
    refine ⟨first, rest ++ [m], ?_, ?_⟩
    · change clockReadings (p.log ++ [.clock m]) = _
      rw [hreadings, hfirst, List.cons_append, List.cons_append]
    · rwa [hinitiated]
  · intro w hw
    obtain rfl := Option.some.inj hw
    change (clockReadings (p.log ++ [.clock m])).getLast? = _
    rw [hreadings, hselect, List.getLast?_concat]
  · rintro w (hw | hw)
    · cases hw
    · cases hw

theorem Paced.of_same_window (h : Paced cfg unixMinute p) (hrunning : p.loop.point ≠ .exited)
    {loop : Loop X} {publishes : List Publish} (hsilent : ∀ event ∈ events, Silent event)
    (hlast : loop.lastPublishedUnixMinute = p.loop.lastPublishedUnixMinute)
    (hsame : Point.window loop.point = Point.window p.loop.point)
    (hended : ∀ w, ¬ Point.Ended w loop.point) :
    Paced cfg unixMinute ⟨loop, publishes, p.log ++ events⟩ :=
  h.of_silent hsilent hlast (fun _ hw => hsame ▸ hw) (fun w hw => absurd hw (hended w))
    fun _ _ => ⟨hrunning, hsame⟩

theorem Paced.of_exit (h : Paced cfg unixMinute p) {loop : Loop X} {publishes : List Publish}
    (hsilent : ∀ event ∈ events, Silent event)
    (hlast : loop.lastPublishedUnixMinute = p.loop.lastPublishedUnixMinute)
    (hexited : loop.point = .exited) :
    Paced cfg unixMinute ⟨loop, publishes, p.log ++ events⟩ := by
  refine h.of_silent hsilent hlast ?_ ?_ fun _ hrunning => absurd hexited hrunning
  · intro w hw
    rw [hexited] at hw
    cases hw
  · intro w hw
    have hwindow := hw.window_eq
    rw [hexited] at hwindow
    cases hwindow

theorem Paced.of_move (h : Paced cfg unixMinute p) (hsteady : Steady p.log)
    (hrunning : p.loop.point ≠ .exited) {next : Point X} {publishes : List Publish}
    (hnext : Point.Follows p.loop.point next) (hsilent : ∀ event ∈ events, Silent event) :
    Paced cfg unixMinute ⟨p.loop.goto next, publishes, p.log ++ events⟩ := by
  by_cases hended : ∃ w, Point.Ended w p.loop.point
  · rcases hended with ⟨w, hw⟩
    have hpositive : p.loop.lastPublishedUnixMinute ≠ 0 := by
      rw [← h.ended w hw]
      exact hsteady.positive _ (List.mem_of_getLast? (h.window w hw.window_eq))
    refine h.of_silent hsilent rfl ?_ ?_ fun hzero => absurd hzero hpositive
    · intro w' hw'
      have hnone : Point.window next = none := hnext.window_of_ended hw
      cases hnone.symm.trans hw'
    · exact fun w' hw' => absurd hw' (hnext.not_ended w')
  · exact h.of_same_window hrunning hsilent rfl
      (hnext.window_eq fun w hw => hended ⟨w, hw⟩) hnext.not_ended

theorem Paced.of_transition (hencodes : SerializesContent X) (h : Paced cfg unixMinute p)
    (hsteady : Steady p.log) {input : Input X} {loop : Loop X}
    (htransition : Transition cfg rp p.loop input loop events) :
    Paced cfg unixMinute
      ⟨loop, p.publishes ++ events.filterMap spawned, p.log ++ events⟩ := by
  have hrunning := htransition.running
  cases htransition with
  | tick m hpoint => exact h.of_tick hpoint
  | readOlder w answer hpoint =>
      exact h.of_same_window hrunning (by simp [Silent]) rfl (by rw [hpoint]; rfl)
        (by simp [Loop.goto, Point.Ended])
  | noRecords w answer hpoint hnone =>
      exact h.of_publishIfDue hencodes hsteady (by rw [hpoint]; rfl)
        (by simp [Silent]) (.inl rfl)
  | collected w older answer hpoint =>
      exact h.of_same_window hrunning (by simp [Silent]) rfl (by rw [hpoint]; rfl)
        (by simp [Loop.goto, Point.Ended])
  | notJoined w current hpoint =>
      exact h.of_publishIfDue hencodes hsteady (by rw [hpoint]; rfl)
        (by simp [Silent]) (.inr rfl)
  | settled w current rest hpoint =>
      exact h.of_same_window hrunning (by simp [Silent]) rfl (by rw [hpoint]; rfl)
        (by simp [Point.Ended])
  | moved input next events hpoint hnext hquiet =>
      exact h.of_move hsteady hrunning hnext fun event hevent => .of_quiet (hquiet event hevent)
  | joined site hpoint hsite => exact h.of_exit (by simp [Silent]) rfl rfl
  | interrupted input events hpoint hinput hquiet =>
      refine h.of_exit (fun event hevent => ?_) rfl rfl
      rcases List.mem_append.mp hevent with hevent | hevent
      · exact .of_quiet (hquiet event hevent)
      · rw [List.mem_singleton.mp hevent]
        simp [Silent]

theorem Paced.of_publish (h : Paced cfg unixMinute p) {id : Nat} {publishes : List Publish}
    {task : PublishTask} {input : PublishInput} :
    Paced cfg unixMinute
      ⟨p.loop, publishes, p.log ++ publishEvents rp id task input⟩ := by
  refine h.of_silent (fun event hevent => ?_) rfl (fun _ hw => hw) (fun _ hw => hw)
    fun _ hrunning => ⟨hrunning, rfl⟩
  rcases mem_publishEvents hevent with ⟨answer, draw, -, -, -, rfl⟩ | ⟨put, -, -, rfl⟩
  · simp [Silent]
  · simp [Silent]

theorem paced_start (hencodes : SerializesContent X)
    (hsteady : Steady (Process.start cfg rp unixMinute).log) :
    Paced cfg unixMinute (Process.start cfg rp unixMinute) := by
  obtain ⟨content, hinitiate⟩ := initiate_eq hencodes rp none unixMinute none
  have hwindow : ∀ w, Point.window (Process.start cfg rp unixMinute).loop.point ≠ some w := by
    intro w hw
    cases hw
  have hended : ∀ w, ¬ Point.Ended w (Process.start cfg rp unixMinute).loop.point :=
    fun w hw => hwindow w hw.window_eq
  cases hpublish : cfg.publishRecordOnStartup with
  | false =>
      have hlog : (Process.start cfg rp unixMinute).log = [] := by
        simp [Process.start, startupEvents, hpublish]
      have hlast : (Process.start cfg rp unixMinute).loop.lastPublishedUnixMinute = 0 := by
        simp [Process.start, startLoop, hpublish]
      refine ⟨?_, ?_, fun h => absurd hlast h, fun _ => .inl ⟨?_, hpublish⟩,
        fun h => absurd hlast h, fun w hw => absurd hw (hwindow w),
        fun w hw => absurd hw (hended w)⟩
      all_goals simp [hlog, initiatedMinutes]
  | true =>
      have hlog : (Process.start cfg rp unixMinute).log = [.clock unixMinute, .initiated none
          (Record.signContent X rp.topicId.hash unixMinute content rp.signingKey) none] := by
        simp [Process.start, startupEvents, hpublish, hinitiate]
      have hreadings : clockReadings (Process.start cfg rp unixMinute).log = [unixMinute] := by
        rw [hlog]
        rfl
      have hinitiated : initiatedMinutes (Process.start cfg rp unixMinute).log = [unixMinute] := by
        rw [hlog]
        rfl
      have hlast : (Process.start cfg rp unixMinute).loop.lastPublishedUnixMinute =
          if cfg.checkOlderRecordsFirstOnStartup = true then 0 else unixMinute := by
        simp [Process.start, startLoop, hpublish]
      have hpositive : unixMinute ≠ 0 := hsteady.positive _ (by simp [hreadings])
      refine ⟨by simp [hinitiated], by simp [hinitiated, hreadings], ?_, ?_, ?_,
        fun w hw => absurd hw (hwindow w), fun w hw => absurd hw (hended w)⟩
      · rw [hlast]
        split
        · exact fun h => absurd rfl h
        · simp [hinitiated]
      · rw [hlast]
        split
        · next holder =>
            intro _
            exact .inr ⟨hpublish, holder, hinitiated, fun _ => hreadings⟩
        · exact fun h => absurd h hpositive
      · intro hne _ holder
        rw [hlast, if_pos holder] at hne
        exact absurd rfl hne

theorem paced_of_reachable (hencodes : SerializesContent X)
    (hreach : Reachable cfg rp unixMinute p) (hsteady : Steady p.log) :
    Paced cfg unixMinute p := by
  revert hsteady
  refine hreach.induction (P := fun p => Steady p.log → Paced cfg unixMinute p)
    (paced_start hencodes) (step_preserves ?_ ?_)
  · intro p input loop events htransition hp hsteady
    have hsteady' : Steady p.log := Steady.of_append hsteady
    exact (hp hsteady').of_transition hencodes hsteady' htransition
  · intro p id input publish task _ _ hp hsteady
    exact (hp (Steady.of_append hsteady)).of_publish

/-- At most one publish for each minute, and one by the end of every iteration
that has not joined. -/
def OncePerMinute (p : Process X) : Prop :=
  (∀ m, (initiatedMinutes p.log).count m ≤ 1) ∧
    ∀ w, Point.Ended w p.loop.point → (initiatedMinutes p.log).count w.currentUnixMinute = 1

/-- The process keeps to one publish a minute unless both startup flags are set
and its first iteration runs in the minute of the startup publish; then it has
published twice by the end of that iteration. -/
theorem oncePerMinute_unless_repeatsStartupMinute (hencodes : SerializesContent X)
    (hreach : Reachable cfg rp unixMinute p) (hsteady : Steady p.log) :
    (¬ RepeatsStartupMinute cfg unixMinute p.log → OncePerMinute p) ∧
      ∀ w, Point.Ended w p.loop.point →
        (OncePerMinute p ↔ ¬ RepeatsStartupMinute cfg unixMinute p.log) := by
  have hpaced := paced_of_reachable hencodes hreach hsteady
  have hpositive : ∀ w, Point.Ended w p.loop.point → w.currentUnixMinute ≠ 0 := by
    intro w hended
    exact hsteady.positive _ (List.mem_of_getLast? (hpaced.window w hended.window_eq))
  have honce : ¬ RepeatsStartupMinute cfg unixMinute p.log → OncePerMinute p := by
    intro hrepeats
    have hnodup : (initiatedMinutes p.log).Nodup :=
      (hpaced.increasing hrepeats).imp fun hlt => UInt64.ne_of_lt hlt
    refine ⟨List.nodup_iff_count_le_one.mp hnodup, fun w hended => ?_⟩
    have hlast := hpositive w hended
    rw [hpaced.ended w hended] at hlast ⊢
    exact List.count_eq_one_of_mem hnodup (hpaced.published hlast).1
  refine ⟨honce, fun w hended => ⟨fun hproperty hrepeats => ?_, honce⟩⟩
  rcases hrepeats with ⟨hpublish, holder, hsecond⟩
  obtain ⟨first, rest, hreadings, hcount⟩ := hpaced.afterFirst
    (hpaced.ended w hended ▸ hpositive w hended) hpublish holder
  rw [hreadings] at hsecond
  have htwice := hcount (Option.some.inj hsecond)
  have hatMost := hproperty.1 unixMinute
  omega

def quietIteration (minute : UInt64) : List (Label reference) :=
  [.loop (.tokenCancelled false), .loop (.isJoined (.ok false)), .loop (.minute minute),
    .loop (.records (.ready (.ok []))), .loop (.records (.ready (.ok [])))]

theorem oncePerMinute_of_default_config :
    ∃ p, Reachable {} (samplePublisher 2 {}) 7 p ∧ Steady p.log ∧
      Point.Ended ⟨8, 0, true⟩ p.loop.point ∧ OncePerMinute p := by
  have hrun : ∃ p ∈ run (Process.step {} (samplePublisher 2 {}))
      (Process.start {} (samplePublisher 2 {}) 7) (quietIteration 8),
      clockReadings p.log = [7, 8] ∧ p.loop.point = .noPeersWait ⟨8, 0, true⟩ := by
    decide +kernel
  rcases hrun with ⟨p, hp, hreadings, hpoint⟩
  have hsteady : Steady p.log := ⟨by simp [hreadings], by simp [hreadings]⟩
  refine ⟨p, ⟨_, hp⟩, hsteady, .inl hpoint, ?_⟩
  refine (oncePerMinute_unless_repeatsStartupMinute reference_serializesContent ⟨_, hp⟩
    hsteady).1 ?_
  rintro ⟨-, holder, -⟩
  cases holder

def olderFirst : BootstrapConfig := { checkOlderRecordsFirstOnStartup := true }

theorem published_twice_in_startup_minute :
    ∃ p, Reachable olderFirst (samplePublisher 2 {}) 7 p ∧ Steady p.log ∧
      ¬ OncePerMinute p := by
  have hrun : ∃ p ∈ run (Process.step olderFirst (samplePublisher 2 {}))
      (Process.start olderFirst (samplePublisher 2 {}) 7) (quietIteration 7),
      clockReadings p.log = [7, 7] ∧ initiatedMinutes p.log = [7, 7] := by
    decide +kernel
  rcases hrun with ⟨p, hp, hreadings, hinitiated⟩
  refine ⟨p, ⟨_, hp⟩, ⟨by simp [hreadings], by simp [hreadings]⟩, fun hproperty => ?_⟩
  have htwice := hproperty.1 7
  rw [hinitiated] at htwice
  exact absurd htwice (by decide)

end TopicTracker.BootstrapPublishing
