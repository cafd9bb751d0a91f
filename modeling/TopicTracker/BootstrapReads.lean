import TopicTracker.IterationReads

namespace TopicTracker.BootstrapReads

open TopicTracker.Configuration
open TopicTracker.RustValues
open TopicTracker.ThirdParty
open TopicTracker.ReferenceExternals
open TopicTracker.RecordCodec
open TopicTracker.EncryptedRecordCodec
open TopicTracker.RecordRetrieval
open TopicTracker.RecordPublishing
open TopicTracker.BootstrapLoop
open TopicTracker.BootstrapTransition
open TopicTracker.BootstrapProcess
open TopicTracker.IterationReads
open TopicTracker.StepMachine

variable {X : Externals} {cfg : BootstrapConfig} {rp : RecordPublisher X}
variable {unixMinute : UInt64} {p : Process X} {log log' events : List (Event X)}

def Selectable (w : Window) : Prop :=
  w.useCachedNext = true → w.newer = w.currentUnixMinute

theorem selectable_select (lastPublishedUnixMinute currentUnixMinute : UInt64) :
    Selectable (Window.select cfg lastPublishedUnixMinute currentUnixMinute) := by
  unfold Window.select
  split
  · intro h
    cases h
  · intro _
    simp [Window.newer, saturatingSub]

/-- The records were handed over by an iteration that had read the slot of the
record's own minute, and stand for the outcome of that read. -/
def HandedOver (log : List (Event X)) (publish : Publish) : Prop :=
  ∀ records, publish.task.cachedRecords = some records → ∃ i result,
    publish.iteration = some i ∧
      .read (.newer i) publish.task.record.unixMinute result ∈ log ∧
      unwrapOrDefault result = records

def Admitted (rp : RecordPublisher X) (log : List (Event X)) (id : Nat) (publish : Publish)
    (put : DhtPut) : Prop :=
  put.address = rp.slotAddress publish.task.record.unixMinute ∧ ∃ records,
    records.card < rp.maxBootstrapRecords ∧
      (publish.task.cachedRecords = some records ∨
        publish.task.cachedRecords = none ∧
          .read (.publish id) publish.task.record.unixMinute (.ok records) ∈ log)

theorem HandedOver.mono {publish : Publish} (h : HandedOver log publish) (hsub : log ⊆ log') :
    HandedOver log' publish := by
  intro records hrecords
  obtain ⟨i, result, hi, hread, hresult⟩ := h records hrecords
  exact ⟨i, result, hi, hsub hread, hresult⟩

theorem Admitted.mono {id : Nat} {publish : Publish} {put : DhtPut}
    (h : Admitted rp log id publish put) (hsub : log ⊆ log') :
    Admitted rp log' id publish put := by
  rcases h with ⟨haddress, records, hfree, hcached | ⟨hnone, hread⟩⟩
  · exact ⟨haddress, records, hfree, .inl hcached⟩
  · exact ⟨haddress, records, hfree, .inr ⟨hnone, hsub hread⟩⟩

theorem HandedOver.of_task {publish publish' : Publish} (h : HandedOver log publish)
    (hiteration : publish'.iteration = publish.iteration)
    (hrecord : publish'.task.record = publish.task.record)
    (hcached : publish'.task.cachedRecords = publish.task.cachedRecords) :
    HandedOver log publish' := by
  intro records hrecords
  rw [hiteration, hrecord]
  exact h records (hcached ▸ hrecords)

theorem Admitted.of_task {id : Nat} {publish publish' : Publish} {put : DhtPut}
    (h : Admitted rp log id publish put)
    (hrecord : publish'.task.record = publish.task.record)
    (hcached : publish'.task.cachedRecords = publish.task.cachedRecords) :
    Admitted rp log id publish' put := by
  unfold Admitted
  rw [hrecord, hcached]
  exact h

structure Tracked (rp : RecordPublisher X) (p : Process X) : Prop where
  window : ∀ w, Point.window p.loop.point = some w → Selectable w
  fetched : ∀ w current, Point.fetched p.loop.point = some (w, current) → ∃ result,
    .read (.newer p.loop.iteration) w.newer result ∈ p.log ∧ unwrapOrDefault result = current
  handed : ∀ publish ∈ p.publishes, HandedOver p.log publish
  putting : ∀ id publish put, p.publishes[id]? = some publish →
    publish.task.stage = .putting put → Admitted rp p.log id publish put
  stored : ∀ id put, .put id put ∈ p.log → ∃ publish,
    p.publishes[id]? = some publish ∧ Admitted rp p.log id publish put
  own : ∀ id m result, .read (.publish id) m result ∈ p.log → ∃ publish,
    p.publishes[id]? = some publish ∧ publish.task.cachedRecords = none

/-- The loop never puts nor reads for a publish, and a publish it spawns starts by
reading, with records that the iteration has just read or none. -/
structure Spawns (log events : List (Event X)) : Prop where
  noPut : ∀ id put, .put id put ∉ events
  noOwnRead : ∀ id m result, .read (.publish id) m result ∉ events
  reading : ∀ publish ∈ events.filterMap spawned, publish.task.stage = .reading
  handed : ∀ publish ∈ events.filterMap spawned, HandedOver (log ++ events) publish

theorem spawned_eq_some_iff {event : Event X} {publish : Publish} :
    spawned event = some publish ↔ publish.task.stage = .reading ∧
      event = .initiated publish.iteration publish.task.record publish.task.cachedRecords := by
  cases event with
  | initiated iteration record cached =>
      simp only [spawned, Option.some.injEq, Event.initiated.injEq]
      constructor
      · rintro rfl
        exact ⟨rfl, rfl, rfl, rfl⟩
      · rintro ⟨hstage, rfl, rfl, rfl⟩
        rw [← hstage]
  | _ => simp [spawned]

theorem Spawns.of_not_initiated (hput : ∀ id put, .put id put ∉ events)
    (hread : ∀ id m result, .read (.publish id) m result ∉ events)
    (hinitiated : ∀ iteration record cached, .initiated iteration record cached ∉ events) :
    Spawns log events := by
  have hnone : events.filterMap spawned = [] := by
    apply List.filterMap_eq_nil_iff.mpr
    intro event hevent
    apply Option.eq_none_iff_forall_ne_some.mpr
    intro publish hpublish
    obtain ⟨-, rfl⟩ := spawned_eq_some_iff.mp hpublish
    exact hinitiated _ _ _ hevent
  exact ⟨hput, hread, by simp [hnone], by simp [hnone]⟩

theorem Spawns.of_quiet (hquiet : ∀ event ∈ events, Quiet event) : Spawns log events :=
  .of_not_initiated (fun _ _ hmem => hquiet _ hmem) (fun _ _ _ hmem => hquiet _ hmem)
    fun _ _ _ hmem => hquiet _ hmem

theorem Spawns.of_publishIfDue {l : Loop X} {w : Window} {current : Finset Record}
    {event : Event X} (hselectable : Selectable w)
    (hput : ∀ id put, event ≠ .put id put)
    (hownRead : ∀ id m result, event ≠ .read (.publish id) m result)
    (hinitiated : ∀ iteration record cached, event ≠ .initiated iteration record cached)
    (hread : ∃ result, .read (.newer l.iteration) w.newer result ∈ log ++ [event] ∧
      unwrapOrDefault result = current) :
    Spawns log (event :: (Loop.publishIfDue rp l w current).2) := by
  have hspawned : ∀ publish ∈ (event :: (Loop.publishIfDue rp l w current).2).filterMap spawned,
      publish.task.stage = .reading ∧ ∃ content, publish.iteration = some l.iteration ∧
        publish.task.record =
          Record.signContent X rp.topicId.hash w.currentUnixMinute content rp.signingKey ∧
        publish.task.cachedRecords = if w.useCachedNext then some current else none := by
    intro publish hpublish
    obtain ⟨event', hevent', heq⟩ := List.mem_filterMap.mp hpublish
    obtain ⟨hstage, rfl⟩ := spawned_eq_some_iff.mp heq
    rcases List.mem_cons.mp hevent' with hevent' | hevent'
    · exact absurd hevent'.symm (hinitiated _ _ _)
    · obtain ⟨content, hcontent⟩ := mem_publishIfDue hevent'
      obtain ⟨hiteration, hrecord, hcached⟩ := Event.initiated.inj hcontent
      exact ⟨hstage, content, hiteration, hrecord, hcached⟩
  refine ⟨?_, ?_, fun publish hpublish => (hspawned publish hpublish).1, ?_⟩
  · intro id put hmem
    rcases List.mem_cons.mp hmem with hmem | hmem
    · exact hput id put hmem.symm
    · obtain ⟨content, hcontent⟩ := mem_publishIfDue hmem
      cases hcontent
  · intro id m result hmem
    rcases List.mem_cons.mp hmem with hmem | hmem
    · exact hownRead id m result hmem.symm
    · obtain ⟨content, hcontent⟩ := mem_publishIfDue hmem
      cases hcontent
  · intro publish hpublish records hrecords
    obtain ⟨-, content, hiteration, hrecord, hcached⟩ := hspawned publish hpublish
    rw [hcached] at hrecords
    cases huse : w.useCachedNext with
    | false => simp [huse] at hrecords
    | true =>
        rcases hread with ⟨result, hmem, hresult⟩
        have hcurrent : current = records := by simpa [huse] using hrecords
        refine ⟨l.iteration, result, hiteration, ?_, hresult.trans hcurrent⟩
        rw [hrecord, List.append_cons, List.mem_append]
        change .read (.newer l.iteration) w.currentUnixMinute result ∈ log ++ [event] ∨ _
        rw [← hselectable huse]
        exact .inl hmem

theorem Tracked.of_loop (h : Tracked rp p) {loop : Loop X} (hspawns : Spawns p.log events)
    (hwindow : ∀ w, Point.window loop.point = some w → Selectable w)
    (hfetched : ∀ w current, Point.fetched loop.point = some (w, current) → ∃ result,
      .read (.newer loop.iteration) w.newer result ∈ p.log ++ events ∧
        unwrapOrDefault result = current) :
    Tracked rp ⟨loop, p.publishes ++ events.filterMap spawned, p.log ++ events⟩ := by
  have hsub : p.log ⊆ p.log ++ events := List.subset_append_left p.log events
  have hkept : ∀ (id : Nat) (publish : Publish), p.publishes[id]? = some publish →
      (p.publishes ++ events.filterMap spawned)[id]? = some publish := fun id publish hget =>
    (List.getElem?_append_left (List.getElem?_eq_some_iff.mp hget).1).trans hget
  refine ⟨hwindow, hfetched, ?_, ?_, ?_, ?_⟩
  · intro publish hpublish
    rcases List.mem_append.mp hpublish with hold | hnew
    · exact (h.handed publish hold).mono hsub
    · exact hspawns.handed publish hnew
  · intro id publish put hget hstage
    rcases List.mem_append.mp (List.mem_of_getElem? hget) with hold | hnew
    · by_cases hid : id < p.publishes.length
      · rw [List.getElem?_append_left hid] at hget
        exact (h.putting id publish put hget hstage).mono hsub
      · rw [List.getElem?_append_right (not_lt.mp hid)] at hget
        have hreading := hspawns.reading publish (List.mem_of_getElem? hget)
        rw [hreading] at hstage
        cases hstage
    · rw [hspawns.reading publish hnew] at hstage
      cases hstage
  · intro id put hput
    rcases List.mem_append.mp hput with hold | hnew
    · obtain ⟨publish, hget, hadmitted⟩ := h.stored id put hold
      exact ⟨publish, hkept id publish hget, hadmitted.mono hsub⟩
    · exact absurd hnew (hspawns.noPut id put)
  · intro id m result hread
    rcases List.mem_append.mp hread with hold | hnew
    · obtain ⟨publish, hget, hnone⟩ := h.own id m result hold
      exact ⟨publish, hkept id publish hget, hnone⟩
    · exact absurd hnew (hspawns.noOwnRead id m result)

theorem tracked_of_transition (h : Tracked rp p) {input : Input X} {loop : Loop X}
    (htransition : Transition cfg rp p.loop input loop events) :
    Tracked rp ⟨loop, p.publishes ++ events.filterMap spawned, p.log ++ events⟩ := by
  cases htransition with
  | tick m hpoint =>
      refine h.of_loop (.of_not_initiated (by simp) (by simp) (by simp)) ?_ ?_
      · intro w hw
        obtain rfl := Option.some.inj hw
        exact selectable_select _ m
      · intro w current hfetched
        cases hfetched
  | readOlder w answer hpoint =>
      refine h.of_loop (.of_not_initiated (by simp) (by simp) (by simp)) ?_ ?_
      · intro w' hw'
        exact h.window w' (by rw [hpoint]; exact hw')
      · intro w' current hfetched
        cases hfetched
  | noRecords w answer hpoint hnone =>
      have hselectable : Selectable w := h.window w (by rw [hpoint]; rfl)
      refine h.of_loop (.of_publishIfDue hselectable (by simp) (by simp) (by simp)
        ⟨_, by simp, hnone⟩) ?_ ?_
      · intro w' hw'
        obtain rfl := Option.some.inj hw'
        exact hselectable
      · intro w' current hfetched
        cases hfetched
  | collected w older answer hpoint =>
      refine h.of_loop (.of_not_initiated (by simp) (by simp) (by simp)) ?_ ?_
      · intro w' hw'
        exact h.window w' (by rw [hpoint]; exact hw')
      · intro w' current hfetched
        obtain ⟨rfl, rfl⟩ := Prod.mk.inj (Option.some.inj hfetched)
        exact ⟨_, by simp [Loop.goto], rfl⟩
  | notJoined w current hpoint =>
      have hselectable : Selectable w := h.window w (by rw [hpoint]; rfl)
      obtain ⟨result, hread, hresult⟩ := h.fetched w current (by rw [hpoint]; rfl)
      refine h.of_loop (.of_publishIfDue hselectable (by simp) (by simp) (by simp)
        ⟨result, by simp [hread], hresult⟩) ?_ ?_
      · intro w' hw'
        obtain rfl := Option.some.inj hw'
        exact hselectable
      · intro w' current hfetched
        cases hfetched
  | settled w current rest hpoint =>
      refine h.of_loop (.of_not_initiated (by simp) (by simp) (by simp)) ?_ ?_
      · intro w' hw'
        exact h.window w' (by rw [hpoint]; exact hw')
      · intro w' current' hfetched
        obtain ⟨result, hread, hresult⟩ := h.fetched w' current' (by rw [hpoint]; exact hfetched)
        exact ⟨result, List.mem_append_left _ hread, hresult⟩
  | moved input next events hpoint hnext hquiet =>
      refine h.of_loop (.of_quiet hquiet) ?_ ?_
      · intro w' hw'
        exact h.window w' (hnext.window_of hw')
      · intro w' current' hfetched
        obtain ⟨result, hread, hresult⟩ := h.fetched w' current' (hnext.fetched_of hfetched)
        exact ⟨result, List.mem_append_left _ hread, hresult⟩
  | joined site hpoint hsite =>
      exact h.of_loop (.of_not_initiated (by simp) (by simp) (by simp)) (fun _ hw => by cases hw)
        fun _ _ hfetched => by cases hfetched
  | interrupted input events hpoint hinput hquiet =>
      refine h.of_loop (.of_not_initiated ?_ ?_ ?_) (fun _ hw => by cases hw)
        fun _ _ hfetched => by cases hfetched
      · intro id put hmem
        rcases List.mem_append.mp hmem with hmem | hmem
        · exact hquiet _ hmem
        · cases List.mem_singleton.mp hmem
      · intro id m result hmem
        rcases List.mem_append.mp hmem with hmem | hmem
        · exact hquiet _ hmem
        · cases List.mem_singleton.mp hmem
      · intro iteration record cached hmem
        rcases List.mem_append.mp hmem with hmem | hmem
        · exact hquiet _ hmem
        · cases List.mem_singleton.mp hmem

theorem admitted_of_read {log : List (Event X)} {id : Nat} {publish : Publish}
    {answer : Awaited (List MutableItem)} {draw : EncryptionDraw} {put : DhtPut}
    (hstage : publish.task.stage = .reading)
    (hput : publishRecordCachedRecords rp publish.task.record publish.task.cachedRecords
      answer draw = .ok (some put)) :
    Admitted rp (log ++ publishEvents rp id publish.task (.read answer draw)) id publish put := by
  obtain ⟨records, hcounted, hfree, -, -, -, haddress, -⟩ := publish_eq_some_iff.mp hput
  refine ⟨haddress, records, hfree, ?_⟩
  cases hcached : publish.task.cachedRecords with
  | some cached =>
      rw [hcached] at hcounted
      exact .inl (congrArg some (Except.ok.inj hcounted))
  | none =>
      rw [hcached] at hcounted
      have hread : rp.getRecords publish.task.record.unixMinute answer = .ok records := hcounted
      refine .inr ⟨rfl, List.mem_append_right _ ?_⟩
      simp [publishEvents, hstage, hcached, hread]

theorem admitted_of_stage {id : Nat} {input : PublishInput} {publish : Publish}
    {task : PublishTask} {put : DhtPut} (hstep : publish.task.step rp input = some task)
    (hstage : task.stage = .putting put) :
    Admitted rp (log ++ publishEvents rp id publish.task input) id publish put := by
  rcases PublishTask.step_cases hstep with
    ⟨answer, draw, rfl, hreading, rfl⟩ | ⟨put', -, -, rfl⟩ | ⟨-, rfl⟩
  · exact admitted_of_read hreading (stageAfterCheck_eq_putting_iff.mp hstage)
  · cases hstage
  · cases hstage

theorem tracked_of_publish (h : Tracked rp p) {id : Nat} {input : PublishInput}
    {publish : Publish} {task : PublishTask} (hget : p.publishes[id]? = some publish)
    (hstep : publish.task.step rp input = some task) :
    Tracked rp
      { p with
        publishes := p.publishes.set id { publish with task := task }
        log := p.log ++ publishEvents rp id publish.task input } := by
  have hsub : p.log ⊆ p.log ++ publishEvents rp id publish.task input :=
    List.subset_append_left _ _
  have hid : id < p.publishes.length := (List.getElem?_eq_some_iff.mp hget).1
  obtain ⟨hrecord, hcached⟩ := PublishTask.step_keeps hstep
  -- A publish keeps its record and its cached records, so only the log grows for it.
  have hkept : ∀ (j : Nat) (other : Publish), p.publishes[j]? = some other →
      ∃ other' : Publish,
      (p.publishes.set id { publish with task := task })[j]? = some other' ∧
        other'.task.record = other.task.record ∧
        other'.task.cachedRecords = other.task.cachedRecords := by
    intro j other hother
    rcases eq_or_ne id j with rfl | hne
    · obtain rfl := Option.some.inj (hget.symm.trans hother)
      exact ⟨_, List.getElem?_set_self hid, hrecord, hcached⟩
    · exact ⟨other, (List.getElem?_set_ne hne).trans hother, rfl, rfl⟩
  refine ⟨h.window, ?_, ?_, ?_, ?_, ?_⟩
  · intro w current hfetched
    obtain ⟨result, hread, hresult⟩ := h.fetched w current hfetched
    exact ⟨result, hsub hread, hresult⟩
  · intro other hother
    rcases List.mem_or_eq_of_mem_set hother with hother | rfl
    · exact (h.handed other hother).mono hsub
    · exact ((h.handed publish (List.mem_of_getElem? hget)).mono hsub).of_task rfl hrecord hcached
  · intro j other put hother hstage
    rcases eq_or_ne id j with rfl | hne
    · obtain rfl := Option.some.inj ((List.getElem?_set_self hid).symm.trans hother)
      exact (admitted_of_stage hstep hstage).of_task hrecord hcached
    · rw [List.getElem?_set_ne hne] at hother
      exact (h.putting j other put hother hstage).mono hsub
  · intro j put hput
    have hadmitted : ∃ other, p.publishes[j]? = some other ∧ Admitted rp p.log j other put := by
      rcases List.mem_append.mp hput with hold | hnew
      · exact h.stored j put hold
      · rcases mem_publishEvents hnew with ⟨answer, draw, -, -, -, heq⟩ | ⟨put', -, hstage, heq⟩
        · cases heq
        · obtain ⟨rfl, rfl⟩ := Event.put.inj heq
          exact ⟨publish, hget, h.putting _ publish _ hget hstage⟩
    rcases hadmitted with ⟨other, hother, hadmitted⟩
    obtain ⟨other', hother', hrecord', hcached'⟩ := hkept j other hother
    exact ⟨other', hother', (hadmitted.mono hsub).of_task hrecord' hcached'⟩
  · intro j m result hread
    have hown : ∃ other, p.publishes[j]? = some other ∧ other.task.cachedRecords = none := by
      rcases List.mem_append.mp hread with hold | hnew
      · exact h.own j m result hold
      · rcases mem_publishEvents hnew with ⟨answer, draw, -, -, hnone, heq⟩ | ⟨put, -, -, heq⟩
        · obtain ⟨hreader, -, -⟩ := Event.read.inj heq
          obtain rfl := Reader.publish.inj hreader
          exact ⟨publish, hget, hnone⟩
        · cases heq
    rcases hown with ⟨other, hother, hnone⟩
    obtain ⟨other', hother', -, hcached'⟩ := hkept j other hother
    exact ⟨other', hother', hcached'.trans hnone⟩

theorem tracked_start : Tracked rp (Process.start cfg rp unixMinute) := by
  have hspawned : ∀ publish ∈ (Process.start cfg rp unixMinute).publishes,
      publish.task.stage = .reading ∧ publish.task.cachedRecords = none := by
    intro publish hpublish
    obtain ⟨event, hevent, heq⟩ := List.mem_filterMap.mp hpublish
    obtain ⟨hstage, rfl⟩ := spawned_eq_some_iff.mp heq
    rcases mem_startupEvents hevent with hevent | ⟨content, hevent⟩
    · cases hevent
    · exact ⟨hstage, (Event.initiated.inj hevent).2.2⟩
  refine ⟨fun _ hw => (by cases hw), fun _ _ hfetched => (by cases hfetched), ?_, ?_, ?_, ?_⟩
  · intro publish hpublish records hrecords
    rw [(hspawned publish hpublish).2] at hrecords
    cases hrecords
  · intro id publish put hget hstage
    rw [(hspawned publish (List.mem_of_getElem? hget)).1] at hstage
    cases hstage
  · intro id put hput
    rcases mem_startupEvents hput with hput | ⟨content, hput⟩
    · cases hput
    · cases hput
  · intro id m result hread
    rcases mem_startupEvents hread with hread | ⟨content, hread⟩
    · cases hread
    · cases hread

theorem tracked_of_reachable (h : Reachable cfg rp unixMinute p) : Tracked rp p :=
  h.induction tracked_start (step_preserves
    (fun _ _ _ _ htransition hp => tracked_of_transition hp htransition)
    fun _ _ _ _ _ hget hstep hp => tracked_of_publish hp hget hstep)

/-- Some read of the record's minute, by the publish or by the iteration that
initiated it, succeeded and left room under the cap, and the put goes to the slot
of that minute. -/
def Justified (rp : RecordPublisher X) (p : Process X) (id : Nat) (put : DhtPut) : Prop :=
  ∃ publish, p.publishes[id]? = some publish ∧
    put.address = rp.slotAddress publish.task.record.unixMinute ∧ ∃ reader records,
      .read reader publish.task.record.unixMinute (.ok records) ∈ p.log ∧
      records.card < rp.maxBootstrapRecords ∧
      (reader = .publish id ∨ ∃ i, publish.iteration = some i ∧
        (reader = .older i ∨ reader = .newer i))

/-- The publish was handed the outcome of a read of its minute that failed. -/
def UsesFailedRead (p : Process X) (id : Nat) : Prop :=
  ∃ publish i fault, p.publishes[id]? = some publish ∧ publish.iteration = some i ∧
    publish.task.cachedRecords.isSome = true ∧
      .read (.newer i) publish.task.record.unixMinute (.error fault) ∈ p.log

theorem justified_of_not_usesFailedRead (hreach : Reachable cfg rp unixMinute p) {id : Nat}
    {put : DhtPut} (hput : .put id put ∈ p.log) (hread : ¬ UsesFailedRead p id) :
    Justified rp p id put := by
  have htracked := tracked_of_reachable hreach
  obtain ⟨publish, hget, haddress, records, hfree, hcached | ⟨hnone, hown⟩⟩ :=
    htracked.stored id put hput
  · obtain ⟨i, result, hi, hnewer, hresult⟩ :=
      htracked.handed publish (List.mem_of_getElem? hget) records hcached
    cases result with
    | ok fetched =>
        obtain rfl : fetched = records := hresult
        exact ⟨publish, hget, haddress, .newer i, fetched, hnewer, hfree,
          .inr ⟨i, hi, .inr rfl⟩⟩
    | error fault =>
        exact absurd ⟨publish, i, fault, hget, hi, by rw [hcached]; rfl, hnewer⟩ hread
  · exact ⟨publish, hget, haddress, .publish id, records, hown, hfree, .inl rfl⟩

/-- A failed read of the newer slot leaves an iteration no other read of that minute,
except in minute 0. -/
theorem not_justified_of_usesFailedRead (hreach : Reachable cfg rp unixMinute p) {id : Nat}
    {put : DhtPut} {publish : Publish} (hget : p.publishes[id]? = some publish)
    (hminute : publish.task.record.unixMinute ≠ 0) (hread : UsesFailedRead p id) :
    ¬ Justified rp p id put := by
  have honce := readOnce_of_reachable hreach
  rcases hread with ⟨failed, i, fault, hfailed, hi, hcached, herror⟩
  obtain rfl : publish = failed := Option.some.inj (hget.symm.trans hfailed)
  rintro ⟨justified, hjustified, -, reader, records, hsuccess, -, hreader⟩
  obtain rfl : publish = justified := Option.some.inj (hget.symm.trans hjustified)
  rcases hreader with rfl | ⟨j, hj, hreader⟩
  · obtain ⟨own, hown, hnone⟩ := (tracked_of_reachable hreach).own id _ _ hsuccess
    obtain rfl : publish = own := Option.some.inj (hget.symm.trans hown)
    rw [hnone] at hcached
    cases hcached
  · obtain rfl : i = j := Option.some.inj (hi.symm.trans hj)
    rcases hreader with rfl | rfl
    · have hearlier := congrArg UInt64.toNat (honce.older i _ _ _ _ herror hsuccess)
      rw [saturatingSub_toNat] at hearlier
      change _ = publish.task.record.unixMinute.toNat - 1 at hearlier
      refine hminute (UInt64.toNat_inj.mp ?_)
      change publish.task.record.unixMinute.toNat = 0
      omega
    · cases honce.once i _ _ _ _ herror hsuccess

/-- Every put of the process is justified by a read, unless its publish was handed
the outcome of a failed one; then, after minute 0, it is not. -/
theorem put_justified_iff_not_usesFailedRead (hreach : Reachable cfg rp unixMinute p) {id : Nat}
    {put : DhtPut} (hput : .put id put ∈ p.log) :
    (¬ UsesFailedRead p id → Justified rp p id put) ∧
      ∀ publish, p.publishes[id]? = some publish → publish.task.record.unixMinute ≠ 0 →
        (Justified rp p id put ↔ ¬ UsesFailedRead p id) := by
  have hjustified := justified_of_not_usesFailedRead hreach hput
  refine ⟨hjustified, fun publish hget hminute => ⟨fun h hread => ?_, hjustified⟩⟩
  exact not_justified_of_usesFailedRead hreach hget hminute hread h

def isPut : Event X → Bool
  | .put _ _ => true
  | _ => false

def isSuccessfulRead : Event X → Bool
  | .read _ _ (.ok _) => true
  | _ => false

theorem startup_put_justified :
    ∃ p id put, Reachable {} (samplePublisher 2 {}) 7 p ∧ .put id put ∈ p.log ∧
      ¬ UsesFailedRead p id ∧ Justified (samplePublisher 2 {}) p id put := by
  have hrun : ∃ p ∈ run (Process.step {} (samplePublisher 2 {}))
      (Process.start {} (samplePublisher 2 {}) 7)
      [.publish 0 (.read (.ready (.ok [])) zeroDraw), .publish 0 .stored],
      p.publishes.map Publish.iteration = [none] ∧ p.log.any isPut = true := by
    decide +kernel
  rcases hrun with ⟨p, hp, hiteration, hput⟩
  obtain ⟨event, hmem, hevent⟩ := List.any_eq_true.mp hput
  cases event with
  | put id put =>
      have hread : ¬ UsesFailedRead p id := by
        rintro ⟨publish, i, fault, hget, hi, -, -⟩
        have hnone : publish.iteration ∈ p.publishes.map Publish.iteration :=
          List.mem_map_of_mem (List.mem_of_getElem? hget)
        rw [hiteration, hi] at hnone
        cases List.mem_singleton.mp hnone
      exact ⟨p, id, put, ⟨_, hp⟩, hmem, hread,
        (put_justified_iff_not_usesFailedRead ⟨_, hp⟩ hmem).1 hread⟩
  | _ => cases hevent

def noStartupPublish : BootstrapConfig := { publishRecordOnStartup := false }

def failedReads : List (Label reference) :=
  [.loop (.tokenCancelled false), .loop (.isJoined (.ok false)), .loop (.minute 7),
    .loop (.records (.ready (.error (.bail "timeout")))),
    .loop (.records (.ready (.error (.bail "timeout")))),
    .publish 0 (.read .cancelled zeroDraw), .publish 0 .stored]

theorem failed_reads_reach_put :
    ∃ p id put, Reachable noStartupPublish (samplePublisher 2 {}) 7 p ∧
      .put id put ∈ p.log ∧ ¬ Justified (samplePublisher 2 {}) p id put := by
  have hrun : ∃ p ∈ run (Process.step noStartupPublish (samplePublisher 2 {}))
      (Process.start noStartupPublish (samplePublisher 2 {}) 7) failedReads,
      p.log.any isPut = true ∧ p.log.any isSuccessfulRead = false := by
    decide +kernel
  rcases hrun with ⟨p, hp, hput, hread⟩
  obtain ⟨event, hmem, hevent⟩ := List.any_eq_true.mp hput
  cases event with
  | put id put =>
      refine ⟨p, id, put, ⟨_, hp⟩, hmem, ?_⟩
      rintro ⟨publish, -, -, reader, records, hsuccess, -, -⟩
      have hany : p.log.any isSuccessfulRead = true := List.any_eq_true.mpr ⟨_, hsuccess, rfl⟩
      rw [hread] at hany
      cases hany
  | _ => cases hevent

end TopicTracker.BootstrapReads
