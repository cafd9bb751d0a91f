import TopicTracker.WorkerLoop
import TopicTracker.PartitionHealing

namespace TopicTracker.SlotFreshness

open TopicTracker.RustValues
open TopicTracker.RustDuration
open TopicTracker.ThirdParty
open TopicTracker.ReferenceExternals
open TopicTracker.JitteredIntervals
open TopicTracker.StepMachine
open TopicTracker.RecordCodec
open TopicTracker.EncryptedRecordCodec
open TopicTracker.RecordRetrieval
open TopicTracker.RecordPublishing
open TopicTracker.BootstrapLoop (EndpointId)
open TopicTracker.MinuteSlots (mergeSlots_of_one_le)
open TopicTracker.PeerMerging
open TopicTracker.JoinCandidates
open TopicTracker.RecordAdvertising
open TopicTracker.EmittedRecords
open TopicTracker.PartitionHealing
open TopicTracker.WorkerLoop

def nanosPerMinute : Nat := 60 * nanosPerSec

/-- The minute that a wall clock shows at an instant. -/
def minuteAt (epoch instant : Nat) : Nat := (epoch + instant) / nanosPerMinute

theorem minuteAt_mono {epoch instant later : Nat} (h : instant ≤ later) :
    minuteAt epoch instant ≤ minuteAt epoch later :=
  Nat.div_le_div_right (Nat.add_le_add_left h epoch)

theorem minuteAt_le_add {epoch instant later k : Nat}
    (h : later ≤ instant + k * nanosPerMinute) :
    minuteAt epoch later ≤ minuteAt epoch instant + k := by
  calc minuteAt epoch later
      ≤ minuteAt epoch (instant + k * nanosPerMinute) := minuteAt_mono h
    _ = (epoch + instant + k * nanosPerMinute) / nanosPerMinute := by
        rw [minuteAt, Nat.add_assoc]
    _ = minuteAt epoch instant + k := Nat.add_mul_div_right _ _ (by decide)

theorem exists_epoch_last (instant k : Nat) : ∃ epoch, ∀ later,
    instant + k * nanosPerMinute < later →
      minuteAt epoch instant + k < minuteAt epoch later := by
  refine ⟨nanosPerMinute - 1 - instant % nanosPerMinute, fun later hlater => ?_⟩
  have hpos : 0 < nanosPerMinute := by decide
  have hsplit := Nat.div_add_mod instant nanosPerMinute
  have hrest := Nat.mod_lt instant hpos
  have hlast : nanosPerMinute - 1 - instant % nanosPerMinute + instant =
      nanosPerMinute * (instant / nanosPerMinute) + (nanosPerMinute - 1) := by omega
  have hminute : minuteAt (nanosPerMinute - 1 - instant % nanosPerMinute) instant =
      instant / nanosPerMinute := by
    rw [minuteAt, hlast, Nat.mul_add_div hpos, Nat.div_eq_of_lt (Nat.sub_lt hpos Nat.one_pos),
      Nat.add_zero]
  rw [hminute, minuteAt, Nat.lt_iff_add_one_le, Nat.le_div_iff_mul_le hpos]
  calc (instant / nanosPerMinute + k + 1) * nanosPerMinute
      = nanosPerMinute * (instant / nanosPerMinute) + (k + 1) * nanosPerMinute := by ring
    _ ≤ nanosPerMinute - 1 - instant % nanosPerMinute + later := by
        rw [Nat.add_mul, Nat.one_mul]
        omega

/-- The longest jitter there is to draw: the cast to `u64` keeps no more. -/
def longestJitter (maxJitter : Duration) : Nat := min (maxJitter.nanos - 1) (2 ^ 64 - 1)

theorem jitterNanos_le_longestJitter (maxJitter : Duration) (draw : BitVec 128) :
    jitterNanos maxJitter draw ≤ longestJitter maxJitter := by
  unfold jitterNanos
  split
  · exact Nat.zero_le _
  · next hne =>
      have hpos : 0 < maxJitter.nanos := maxJitter.zero_lt_or_eq_zero.resolve_right hne
      have hdrawn := Nat.mod_lt draw.toNat hpos
      have hkept := Nat.mod_le (draw.toNat % maxJitter.nanos) (2 ^ 64)
      have hcast := Nat.mod_lt (draw.toNat % maxJitter.nanos) (Nat.two_pow_pos 64)
      exact le_min (by omega) (by omega)

theorem exists_draw_longestJitter (maxJitter : Duration) :
    ∃ draw, jitterNanos maxJitter draw = longestJitter maxJitter := by
  have hfits : longestJitter maxJitter < 2 ^ 128 :=
    (min_le_right _ _).trans_lt (by decide)
  refine ⟨BitVec.ofNat 128 (longestJitter maxJitter), ?_⟩
  rcases maxJitter.zero_lt_or_eq_zero with hpos | rfl
  · have hdrawn : longestJitter maxJitter < maxJitter.nanos :=
      (min_le_left _ _).trans_lt (Nat.sub_lt hpos Nat.one_pos)
    have hcast : longestJitter maxJitter < 2 ^ 64 := (min_le_right _ _).trans_lt (by decide)
    rw [jitterNanos, if_neg (ne_of_gt hpos), BitVec.toNat_ofNat, Nat.mod_eq_of_lt hfits,
      Nat.mod_eq_of_lt hdrawn, Nat.mod_eq_of_lt hcast]
  · rw [jitterNanos, if_pos rfl]
    rfl

/-- How much later than due a tick may fire, and how long a round may take. -/
structure Delays where
  late : Nat
  long : Nat

section Rounds

variable {ι ω : Type} {actor : WorkerActor ι ω} {timer : Timer} {now : Nat}
  {s s₀ t : LoopState ω} {delays : Delays} {ops : List (LoopOp ι)}

/-- A tick that fires in time, and a round that ends in time. -/
def Timely (delays : Delays) (s : LoopState ω) : LoopOp ι → Prop
  | .tick fired _ finished _ =>
      fired ≤ s.deadline + delays.late ∧ finished ≤ fired + delays.long
  | .handleDropped => True
  | .cancelled => True

/-- The longest time from the start of a round to the end of the next one. -/
def Delays.turnaround (delays : Delays) (actor : WorkerActor ι ω) : Nat :=
  actor.baseInterval.nanos + longestJitter actor.maxJitter + delays.late + 2 * delays.long

def Delays.firstOver (delays : Delays) (actor : WorkerActor ι ω) (now : Nat) : Nat :=
  now + actor.initialDelay.nanos + delays.late + delays.long

def latestDue (actor : WorkerActor ι ω) (now : Nat) (s : LoopState ω) : Nat :=
  match s.turns.getLast? with
  | none => now + actor.initialDelay.nanos
  | some turn => turn.finished + actor.baseInterval.nanos + longestJitter actor.maxJitter

/-- Every instant up to the present lies within a turnaround of a round that was over. -/
structure Covered (actor : WorkerActor ι ω) (delays : Delays) (now : Nat) (s : LoopState ω) :
    Prop where
  due : s.phase = .running → s.deadline ≤ latestDue actor now s
  finished : ∀ turn ∈ s.turns,
    turn.finished ≤ s.now ∧ turn.finished ≤ turn.started + delays.long
  covered : ∀ instant, delays.firstOver actor now < instant → instant ≤ s.now →
    ∃ turn ∈ s.turns, turn.finished ≤ instant ∧
      instant < turn.started + delays.turnaround actor

theorem covered_of_turn (hbase : 0 < actor.baseInterval.nanos) (h : Covered actor delays now s)
    (hrunning : s.phase = .running) {fired finished : Nat}
    (hfired : fired ≤ s.deadline + delays.late) (hfinished : finished ≤ fired + delays.long)
    (hnow : s.now ≤ fired) (hdone : fired ≤ finished) (input : ι) {deadline : Nat}
    {phase : Phase} (hdeadline : phase = .running →
      deadline ≤ finished + actor.baseInterval.nanos + longestJitter actor.maxJitter) :
    Covered actor delays now
      ⟨finished, deadline, s.turns ++ [⟨fired, finished, (actor.work input).1⟩], phase⟩ where
  due hphase := by simpa [latestDue] using hdeadline hphase
  finished := by
    refine List.forall_mem_append.mpr ⟨fun turn hturn => ?_, ?_⟩
    · exact ⟨(h.finished turn hturn).1.trans (hnow.trans hdone), (h.finished turn hturn).2⟩
    · exact List.forall_mem_singleton.mpr ⟨le_rfl, hfinished⟩
  covered := by
    intro instant hfirst hinstant
    change instant ≤ finished at hinstant
    have hdue := h.due hrunning
    rcases Nat.lt_or_ge s.now instant with hlater | hearlier
    · rcases Nat.eq_or_lt_of_le hinstant with rfl | hbefore
      · refine ⟨_, List.mem_append_right _ (List.mem_singleton_self _), le_rfl, ?_⟩
        show instant < fired + delays.turnaround actor
        unfold Delays.turnaround
        omega
      · -- Between two rounds the one before is over.
        unfold latestDue at hdue
        split at hdue
        · unfold Delays.firstOver at hfirst
          omega
        · next turn hlast =>
            have hturn : turn ∈ s.turns := List.mem_of_getLast? hlast
            obtain ⟨hover, hlong⟩ := h.finished turn hturn
            refine ⟨turn, List.mem_append_left _ hturn, hover.trans hlater.le, ?_⟩
            unfold Delays.turnaround
            omega
    · obtain ⟨turn, hturn, hover, hwithin⟩ := h.covered instant hfirst hearlier
      exact ⟨turn, List.mem_append_left _ hturn, hover, hwithin⟩

def Kept (actor : WorkerActor ι ω) (timer : Timer) : Prop :=
  actor.baseInterval.nanos + longestJitter actor.maxJitter ≤ timer.longest

theorem covered_of_step (hbase : 0 < actor.baseInterval.nanos) (hkept : Kept actor timer)
    (s : LoopState ω)
    (op : LoopOp ι) (t : LoopState ω) (hstep : actor.step timer s op = some t)
    (htimely : Timely delays s op) (h : Covered actor delays now s) :
    Covered actor delays now t := by
  obtain ⟨hrunning, hsteps⟩ := steps_of_step hstep
  rcases hsteps with @⟨fired, finished, deadline, input, draw, -, hnow, hdone, hafter⟩ |
    @⟨fired, finished, input, draw, fault, -, hnow, hdone, -⟩ | _ | _
  · have hjitter := jitterNanos_le_longestJitter actor.maxJitter draw
    have hwait := (Nat.add_le_add_left hjitter actor.baseInterval.nanos).trans hkept
    have hreset := (afterRound_eq_ok_iff.mp hafter).2
    obtain ⟨rfl, -, -⟩ := (resetAfter_eq_ok_iff_of_le hwait).mp hreset
    exact covered_of_turn hbase h hrunning htimely.1 htimely.2 hnow hdone input
      fun _ => Nat.add_le_add_left hjitter _
  · exact covered_of_turn hbase h hrunning htimely.1 htimely.2 hnow hdone input
      fun hphase => (by cases hphase)
  · exact ⟨fun hphase => (by cases hphase), h.finished, h.covered⟩
  · exact ⟨fun hphase => (by cases hphase), h.finished, h.covered⟩

theorem covered_of_run (hbase : 0 < actor.baseInterval.nanos) (hkept : Kept actor timer)
    (hstart : actor.start timer now = .ok s₀) (hrun : run (actor.step timer) s₀ ops = some s)
    (htimely : AllSteps (actor.step timer) (Timely delays) s₀ ops) :
    Covered actor delays now s := by
  refine run_preserves_of_allSteps (covered_of_step hbase hkept) htimely hrun ?_
  obtain ⟨rfl, -⟩ := start_eq_ok_iff.mp hstart
  refine ⟨fun _ => le_rfl, fun turn hturn => (by cases hturn), ?_⟩
  intro instant hfirst hinstant
  have hnow : instant ≤ now := hinstant
  unfold Delays.firstOver at hfirst
  omega

/-- At the instant a round is over that started in the same minute or one of the `k`
before it. -/
def FreshAt (epoch k : Nat) (s : LoopState ω) (instant : Nat) : Prop :=
  ∃ turn ∈ s.turns, turn.finished ≤ instant ∧
    minuteAt epoch instant ≤ minuteAt epoch turn.started + k

/-- The worker has a fresh round at every instant after its first one, on every wall clock. -/
def StaysFresh (actor : WorkerActor ι ω) (delays : Delays) (timer : Timer) (now k : Nat)
    (s₀ : LoopState ω) : Prop :=
  ∀ (epoch : Nat) (ops : List (LoopOp ι)) (s : LoopState ω),
    run (actor.step timer) s₀ ops = some s →
    AllSteps (actor.step timer) (Timely delays) s₀ ops →
    ∀ instant, delays.firstOver actor now < instant → instant ≤ s.now →
      FreshAt epoch k s instant

theorem Covered.freshAt (h : Covered actor delays now s) {k : Nat}
    (hwaits : delays.turnaround actor ≤ k * nanosPerMinute + 1) {instant : Nat}
    (hfirst : delays.firstOver actor now < instant) (hinstant : instant ≤ s.now) (epoch : Nat) :
    FreshAt epoch k s instant := by
  obtain ⟨turn, hturn, hover, hwithin⟩ := h.covered instant hfirst hinstant
  exact ⟨turn, hturn, hover, minuteAt_le_add (by omega)⟩

def OnTicks (Q : Nat → ι → Prop) : LoopOp ι → Prop
  | .tick fired input _ _ => Q fired input
  | .handleDropped => True
  | .cancelled => True

/-- Two rounds as far apart as can be: the second one ends a turnaround after the start of
the first one. -/
theorem exists_slow_rounds (hstart : actor.start timer now = .ok s₀) (hkept : Kept actor timer)
    (hnanos : actor.baseInterval.nanos + longestJitter actor.maxJitter < nanosLimit)
    (hlimit : now + actor.initialDelay.nanos + delays.turnaround actor < timer.limit) (input : ι)
    (hcalm : ¬ Panics (actor.work input).2) :
    ∃ ops s, run (actor.step timer) s₀ ops = some s ∧
      AllSteps (actor.step timer) (Timely delays) s₀ ops ∧
      (∀ op ∈ ops, OnTicks (fun fired given => fired ≤ s.now ∧ given = input) op) ∧
      ∃ first second : Turn ω, s.turns = [first, second] ∧ second.finished = s.now ∧
        first.started = now + actor.initialDelay.nanos ∧
        s.now = first.started + delays.turnaround actor := by
  obtain ⟨draw, hdraw⟩ := exists_draw_longestJitter actor.maxJitter
  obtain ⟨rfl, -⟩ := start_eq_ok_iff.mp hstart
  unfold Delays.turnaround at hlimit ⊢
  let opening := now + actor.initialDelay.nanos
  let finished := opening + delays.long
  have hreset : actor.resetAfter timer finished draw =
      .ok (finished + actor.baseInterval.nanos + longestJitter actor.maxJitter) :=
    (resetAfter_eq_ok_iff_of_le (hdraw.symm ▸ hkept)).mpr ⟨by rw [hdraw], by rwa [hdraw], by omega⟩
  obtain ⟨m, hm, hmnow, hmturns, hmnext⟩ := exists_step_tick actor timer
    ⟨now, opening, [], .running⟩ rfl le_rfl (Nat.le_add_right _ _)
    (Nat.le_add_right opening delays.long) input draw
  obtain ⟨hmdeadline, hmrunning⟩ := hmnext _ (afterRound_eq_ok_iff.mpr ⟨hcalm, hreset⟩)
  obtain ⟨s, hs, hsnow, hsturns, -⟩ := exists_step_tick actor timer m hmrunning
    (Nat.le_add_right _ delays.late) (by omega) (Nat.le_add_right _ delays.long) input draw
  have hturnaround : s.now = opening + (actor.baseInterval.nanos +
      longestJitter actor.maxJitter + delays.late + 2 * delays.long) := by
    rw [hsnow, hmdeadline]
    omega
  refine ⟨[.tick opening input finished draw,
    .tick (m.deadline + delays.late) input (m.deadline + delays.late + delays.long) draw], s,
    ?_, ?_, ?_, _, _, by rw [hsturns, hmturns]; rfl, hsnow.symm, rfl, hturnaround⟩
  · exact run_cons_eq_some_iff.mpr ⟨m, hm, run_cons_eq_some_iff.mpr ⟨s, hs, rfl⟩⟩
  · exact .cons ⟨Nat.le_add_right _ _, le_rfl⟩ hm (.cons ⟨le_rfl, le_rfl⟩ hs trivial)
  · refine List.forall_mem_cons.mpr ⟨⟨by omega, rfl⟩, List.forall_mem_singleton.mpr ⟨?_, rfl⟩⟩
    omega

/-- A worker that has started long before the clock runs out, whose waits the timer keeps and
which has a round that does not panic: it has a fresh round at every instant, on every wall
clock and over all its runs whose ticks and rounds are in time, if and only if its longest
turnaround fits in `k` minutes. -/
theorem rounds_stay_fresh_iff (hstart : actor.start timer now = .ok s₀)
    (hcalm : ∃ input, ¬ Panics (actor.work input).2)
    (hbase : (Duration.fromSecs 1).nanos ≤ actor.baseInterval.nanos) (hkept : Kept actor timer)
    (hnanos : actor.baseInterval.nanos + longestJitter actor.maxJitter < nanosLimit)
    (hlimit : now + actor.initialDelay.nanos + delays.turnaround actor < timer.limit) (k : Nat) :
    StaysFresh actor delays timer now k s₀ ↔
      delays.turnaround actor ≤ k * nanosPerMinute + 1 := by
  have hsecond : (Duration.fromSecs 1).nanos = nanosPerSec := rfl
  have hpos : 1 < nanosPerSec := by decide
  constructor
  · intro hfresh
    by_contra hlong
    obtain ⟨input, hinput⟩ := hcalm
    obtain ⟨ops, s, hrun, htimely, -, first, second, hturns, hover, hfirst, hnow⟩ :=
      exists_slow_rounds hstart hkept hnanos hlimit input hinput
    obtain ⟨epoch, hepoch⟩ := exists_epoch_last first.started k
    have hopen : delays.firstOver actor now < s.now - 1 := by
      unfold Delays.firstOver
      unfold Delays.turnaround at hnow
      omega
    obtain ⟨turn, hturn, hbefore, hminute⟩ :=
      hfresh epoch ops s hrun htimely (s.now - 1) hopen (Nat.sub_le _ _)
    rw [hturns, List.mem_pair] at hturn
    rcases hturn with rfl | rfl
    · have hlate := hepoch (s.now - 1) (by omega)
      omega
    · omega
  · intro hwaits epoch ops s hrun htimely instant hfirst hinstant
    exact (covered_of_run (by omega) hkept hstart hrun htimely).freshAt hwaits hfirst hinstant
      epoch

theorem exists_input_of_run {Q : Nat → ι → Prop} (hstart : actor.start timer now = .ok s₀)
    (hrun : run (actor.step timer) s₀ ops = some s) (hops : ∀ op ∈ ops, OnTicks Q op) :
    ∀ turn ∈ s.turns, ∃ input, turn.sent = (actor.work input).1 ∧ Q turn.started input := by
  have hstep : ∀ s op t, actor.step timer s op = some t → OnTicks Q op →
      (∀ turn ∈ s.turns, ∃ input, turn.sent = (actor.work input).1 ∧ Q turn.started input) →
      ∀ turn ∈ t.turns, ∃ input, turn.sent = (actor.work input).1 ∧ Q turn.started input := by
    intro s op t hstep hop h
    have hround : ∀ {fired finished : Nat} {input : ι}, Q fired input →
        ∀ turn ∈ s.turns ++ [⟨fired, finished, (actor.work input).1⟩],
          ∃ input, turn.sent = (actor.work input).1 ∧ Q turn.started input := fun hinput =>
      List.forall_mem_append.mpr ⟨h, List.forall_mem_singleton.mpr ⟨_, rfl, hinput⟩⟩
    rcases (steps_of_step hstep).2 with _ | _ | _ | _
    · exact hround hop
    · exact hround hop
    · exact h
    · exact h
  obtain ⟨rfl, -⟩ := start_eq_ok_iff.mp hstart
  exact run_preserves_of_allSteps (C := fun _ op => OnTicks Q op) hstep
    (.of_forall (fun op hop _ => hops op hop) _) hrun fun turn hturn => (by cases hturn)

end Rounds

section Finding

variable {X : Externals} {rp reader : RecordPublisher X} {delays : Delays}
  {timer : Timer} {now epoch instant : Nat} {s : LoopState (Request Unit)} {tick : Tick X}
  {overflowChecks : Bool}

theorem unixMinute_of_mem_publish {tick : PublishTick X} {request : Request Unit}
    (h : request ∈ (publish rp tick).1) : request.record.unixMinute = tick.unixMinute :=
  (ownRecord_of_createRecord
    (publishRequest_eq_some_iff.mp (mem_publish_iff.mp h)).1).unixMinute_eq

/-- The items include those of the rounds that were over by the instant. -/
def Includes (items : List MutableItem) (s : LoopState (Request Unit)) (address : SlotAddress)
    (instant : Nat) : Prop :=
  ∀ turn ∈ s.turns, turn.finished ≤ instant → ∀ request ∈ turn.sent,
    request.put.address = address → request.put.item ∈ items

/-- The tick goes by the wall clock and reads all that was put into its two slots. -/
structure ReadsPuts (reader : RecordPublisher X) (s : LoopState (Request Unit)) (epoch : Nat)
    (fired : Nat) (tick : Tick X) : Prop where
  clock : tick.unixMinute.toNat = minuteAt epoch fired
  older : ∃ items, tick.older = .ready (.ok items) ∧
    Includes items s (reader.slotAddress (tick.unixMinute - 1)) fired
  newer : ∃ items, tick.newer = .ready (.ok items) ∧
    Includes items s (reader.slotAddress tick.unixMinute) fired

theorem one_le_minuteAt (hepoch : nanosPerMinute ≤ epoch) : 1 ≤ minuteAt epoch instant :=
  (Nat.le_div_iff_mul_le (by decide)).mpr (by omega)

theorem exists_fetchRecords (hepoch : nanosPerMinute ≤ epoch)
    (h : ReadsPuts reader s epoch instant tick) :
    ∃ records, fetchRecords overflowChecks reader tick = .ok records := by
  obtain ⟨older, holder, -⟩ := h.older
  obtain ⟨newer, hnewer, -⟩ := h.newer
  have hminute : (1 : UInt64) ≤ tick.unixMinute := by
    rw [UInt64.le_iff_toNat_le, UInt64.toNat_one, h.clock]
    exact one_le_minuteAt hepoch
  refine ⟨recordsOf reader (tick.unixMinute - 1) older ∪
    recordsOf reader tick.unixMinute newer, ?_⟩
  rw [fetchRecords, mergeSlots_of_one_le overflowChecks hminute, ok_bind, holder,
    getRecords_ready_ok, ok_bind, hnewer, getRecords_ready_ok, ok_bind]

theorem exists_found_of_readsPuts (hsign : SignsCorrectly X) (hencrypts : EncryptsCorrectly X)
    (hshares : SharesSlots rp reader) (hne : rp.pubKey ≠ reader.pubKey)
    (hepoch : nanosPerMinute ≤ epoch) (h : ReadsPuts reader s epoch instant tick)
    {records : Finset Record} (hrecords : fetchRecords overflowChecks reader tick = .ok records)
    {turn : Turn (Request Unit)} (hturn : turn ∈ s.turns) (hover : turn.finished ≤ instant)
    (hstarted : turn.started ≤ turn.finished)
    (hfresh : minuteAt epoch instant ≤ minuteAt epoch turn.started + 1)
    {publishTick : PublishTick X} (hsent : turn.sent = (publish rp publishTick).1)
    (hclock : publishTick.unixMinute.toNat = minuteAt epoch turn.started)
    {request : Request Unit} (hrequest : request ∈ turn.sent) :
    ∃ found ∈ records, found.pubKey = rp.pubKey := by
  have hput := hsent ▸ hrequest
  have hgenuine := genuine_of_publishRequest (mem_publish_iff.mp hput)
  obtain ⟨hvalid, haddress⟩ := hgenuine.valid hsign hencrypts hshares hne
  have hminute : request.record.unixMinute.toNat = minuteAt epoch turn.started := by
    rw [unixMinute_of_mem_publish hput, hclock]
  have hbefore : minuteAt epoch turn.started ≤ minuteAt epoch instant :=
    minuteAt_mono (hstarted.trans hover)
  have hfind : ∀ {m : UInt64} {items : List MutableItem}, request.record.unixMinute = m →
      ReadsSlot tick m items → Includes items s (reader.slotAddress m) instant →
      ∃ found ∈ records, found.pubKey = rp.pubKey := by
    rintro m items rfl hreads hincludes
    have hitem := hincludes turn hturn hover request hrequest haddress
    obtain ⟨found, hfound, hsame⟩ := exists_mem_recordsOf hitem hvalid
    exact ⟨found, recordsOf_subset_fetchRecords hreads hrecords hfound,
      hsame.trans hgenuine.own.pubKey_eq⟩
  obtain ⟨newer, hnewer, hincludesNewer⟩ := h.newer
  obtain ⟨older, holder, hincludesOlder⟩ := h.older
  rcases Nat.eq_or_lt_of_le hbefore with hsame | hearlier
  · refine hfind ?_ (.newer rfl hnewer) hincludesNewer
    exact UInt64.toNat_inj.mp (by rw [hminute, h.clock, hsame])
  · have hle : (1 : UInt64) ≤ tick.unixMinute := by
      rw [UInt64.le_iff_toNat_le, UInt64.toNat_one, h.clock]
      exact one_le_minuteAt hepoch
    have hprevious : (tick.unixMinute - 1).toNat + 1 = tick.unixMinute.toNat := by
      rw [UInt64.toNat_sub_of_le _ _ hle, UInt64.toNat_one]
      have hpos : 1 ≤ minuteAt epoch instant := one_le_minuteAt hepoch
      have htick := h.clock
      omega
    refine hfind ?_ (.older hprevious.symm holder) hincludesOlder
    have htick := h.clock
    exact UInt64.toNat_inj.mp (by omega)

end Finding

section Sample

def secondDelays : Delays := ⟨nanosPerSec, nanosPerSec⟩

theorem exists_sample_publish : ∃ request,
    publishRequest (fun _ => samplePublisher 1 {}) () (samplePublishTick []) =
      .ok (some request) := by
  have hneighbors : (samplePublishTick []).neighbors = .ok ∅ := rfl
  obtain ⟨record, hrecord, -⟩ := createRecord_advertises reference_encodesContentLosslessly
    (samplePublisher 1 {}) hneighbors rfl
  have hcounted : countedRecords (samplePublisher 1 {}) record.unixMinute none
      (.ready (.ok [])) = .ok ∅ := rfl
  have hfree : (∅ : Finset Record).card < (samplePublisher 1 {}).maxBootstrapRecords := by
    show 0 < 5
    decide
  obtain ⟨put, hput⟩ := exists_publish reference_encryptsCorrectly zeroDraw hcounted hfree
    (length_content_createRecord hrecord)
  exact ⟨⟨(), record, put⟩, publishRequest_eq_some_iff.mpr ⟨hrecord, hput, rfl⟩⟩

theorem exists_publish_samplePublishTick : ∃ request,
    publish (samplePublisher 1 {}) (samplePublishTick []) = ([request], .ok ()) := by
  obtain ⟨request, hrequest⟩ := exists_sample_publish
  exact ⟨request, by rw [publish, hrequest]; rfl⟩

/-- With the default waits a publisher can leave a minute out, but not two. -/
theorem rounds_stay_fresh_iff_defaults : ∃ s₀,
    samplePublisherActor.start sampleTimer 0 = .ok s₀ ∧
      ¬ StaysFresh samplePublisherActor secondDelays sampleTimer 0 1 s₀ ∧
      StaysFresh samplePublisherActor secondDelays sampleTimer 0 2 s₀ := by
  have hlimit : samplePublisherActor.initialDelay.nanos < sampleTimer.limit := by decide
  obtain ⟨s₀, -, hstart, -, -⟩ := exists_oneRound samplePublisherActor hlimit
    (samplePublishTick [])
  obtain ⟨request, hpublish⟩ := exists_publish_samplePublishTick
  have hcalm : ∃ tick, ¬ Panics (samplePublisherActor.work tick).2 := by
    refine ⟨samplePublishTick [], ?_⟩
    change ¬ Panics (publish (samplePublisher 1 {}) (samplePublishTick [])).2
    rw [hpublish]
    exact not_panics_ok ()
  have hkept : Kept samplePublisherActor sampleTimer := by
    unfold Kept
    decide
  have hiff : ∀ k, StaysFresh samplePublisherActor secondDelays sampleTimer 0 k s₀ ↔
      secondDelays.turnaround samplePublisherActor ≤ k * nanosPerMinute + 1 :=
    rounds_stay_fresh_iff hstart hcalm (by decide) hkept (by decide) (by decide)
  exact ⟨s₀, hstart, (hiff 1).not.mpr (by decide), (hiff 2).mpr (by decide)⟩

def quickPublisher : WorkerActor (PublishTick reference) (Request Unit) :=
  publisherActor (samplePublisher 1 {}) (Duration.fromSecs 10)
    ⟨Duration.fromSecs 10, Duration.fromSecs 20⟩

/-- A tick that reads in both slots all that the rounds have put. -/
noncomputable def readingAll (s : LoopState (Request Unit)) : Tick reference :=
  let items := s.turns.flatMap fun turn => turn.sent.map fun request => request.put.item
  { sampleTick items with older := .ready (.ok items) }

theorem readsPuts_readingAll (reader : RecordPublisher reference) (s : LoopState (Request Unit))
    {epoch fired : Nat} (hclock : minuteAt epoch fired = 7) :
    ReadsPuts reader s epoch fired (readingAll s) := by
  have hincludes : ∀ address, Includes (s.turns.flatMap fun turn =>
      turn.sent.map fun request => request.put.item) s address fired := by
    intro address turn hturn _ request hrequest _
    exact List.mem_flatMap.mpr ⟨turn, hturn, List.mem_map_of_mem hrequest⟩
  exact ⟨hclock.symm, ⟨_, rfl, hincludes _⟩, ⟨_, rfl, hincludes _⟩⟩

def sampleEpoch : Nat := 7 * nanosPerMinute

theorem minuteAt_sampleEpoch {instant : Nat} (h : instant < nanosPerMinute) :
    minuteAt sampleEpoch instant = 7 := by
  have hpos : 0 < nanosPerMinute := by decide
  rw [minuteAt, sampleEpoch, Nat.add_comm, Nat.add_mul_div_right _ _ hpos, Nat.div_eq_of_lt h]

end Sample

end TopicTracker.SlotFreshness
