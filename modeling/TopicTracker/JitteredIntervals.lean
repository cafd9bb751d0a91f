import TopicTracker.RustDuration

namespace TopicTracker.JitteredIntervals

open TopicTracker.RustValues
open TopicTracker.RustDuration

/-- The settings that decide the waits of one worker. -/
structure IntervalConfig where
  baseInterval : Duration
  maxJitter : Duration
deriving DecidableEq

namespace IntervalConfig

def setBaseInterval (config : IntervalConfig) (interval : Duration) : IntervalConfig :=
  if interval > Duration.zero then { config with baseInterval := interval } else config

def setMaxJitter (config : IntervalConfig) (jitter : Duration) : IntervalConfig :=
  { config with maxJitter := jitter }

/-- The settings that a builder which starts with others can hold. -/
inductive Reaches (initial : IntervalConfig) : IntervalConfig → Prop
  | default : Reaches initial initial
  | baseInterval {config : IntervalConfig} (interval : Duration) :
      Reaches initial config → Reaches initial (config.setBaseInterval interval)
  | maxJitter {config : IntervalConfig} (jitter : Duration) :
      Reaches initial config → Reaches initial (config.setMaxJitter jitter)

end IntervalConfig

/-- The defaults of `PublisherConfigInner`. -/
def publisherDefaults : IntervalConfig := ⟨Duration.fromSecs 10, Duration.fromSecs 50⟩

/-- The defaults of `BubbleMergeConfigInner`. -/
def bubbleMergeDefaults : IntervalConfig := ⟨Duration.fromSecs 60, Duration.fromSecs 120⟩

/-- The defaults of `MessageOverlapMergeConfigInner`. -/
def messageOverlapMergeDefaults : IntervalConfig :=
  ⟨Duration.fromSecs 60, Duration.fromSecs 120⟩

/-- The defaults of `DhtConfig`. -/
def dhtDefaults : IntervalConfig := ⟨Duration.fromSecs 5, Duration.fromSecs 10⟩

/-- The jitter made of a random `u128`. -/
def drawJitter (maxJitter : Duration) (draw : BitVec 128) : Result Duration :=
  if maxJitter > Duration.zero then do
    let nanos ← remU128 draw maxJitter.asNanos
    .ok (Duration.fromNanos (UInt64.ofBitVec (nanos.setWidth 64)))
  else .ok Duration.zero

def jitteredInterval (baseInterval maxJitter : Duration) (draw : BitVec 128) :
    Result Duration := do
  let jitter ← drawJitter maxJitter draw
  baseInterval.add jitter

/-- The base interval of a ticker, raised by its actor's `new`. -/
def tickerBase (baseInterval : Duration) : Duration := max baseInterval (Duration.fromSecs 1)

/-- The wait of `PublisherActor::run`. -/
def publisherInterval (config : IntervalConfig) (draw : BitVec 128) : Result Duration :=
  jitteredInterval (tickerBase config.baseInterval) config.maxJitter draw

/-- The wait of `BubbleMergeActor::run`. -/
def bubbleMergeInterval (config : IntervalConfig) (draw : BitVec 128) : Result Duration :=
  jitteredInterval (tickerBase config.baseInterval) config.maxJitter draw

/-- The wait of `MessageOverlapMergeActor::run`. -/
def messageOverlapMergeInterval (config : IntervalConfig) (draw : BitVec 128) :
    Result Duration :=
  jitteredInterval (tickerBase config.baseInterval) config.maxJitter draw

/-- The wait of `DhtActor::put_mutable` between two attempts. -/
def dhtRetryInterval (config : IntervalConfig) (draw : BitVec 128) : Result Duration :=
  jitteredInterval config.baseInterval config.maxJitter draw

inductive Worker
  | publisher
  | bubbleMerge
  | messageOverlapMerge
  | dhtRetry
deriving DecidableEq

namespace Worker

def defaults : Worker → IntervalConfig
  | .publisher => publisherDefaults
  | .bubbleMerge => bubbleMergeDefaults
  | .messageOverlapMerge => messageOverlapMergeDefaults
  | .dhtRetry => dhtDefaults

def nextInterval : Worker → IntervalConfig → BitVec 128 → Result Duration
  | .publisher => publisherInterval
  | .bubbleMerge => bubbleMergeInterval
  | .messageOverlapMerge => messageOverlapMergeInterval
  | .dhtRetry => dhtRetryInterval

/-- The shortest wait a worker may take: the tickers wait for a second at least. -/
def base (worker : Worker) (config : IntervalConfig) : Duration :=
  match worker with
  | .dhtRetry => config.baseInterval
  | _ => max config.baseInterval (Duration.fromSecs 1)

theorem nextInterval_eq (worker : Worker) (config : IntervalConfig) (draw : BitVec 128) :
    worker.nextInterval config draw =
      jitteredInterval (worker.base config) config.maxJitter draw := by
  cases worker <;> rfl

end Worker

theorem reaches_iff {initial config : IntervalConfig}
    (hinitial : Duration.zero < initial.baseInterval) :
    initial.Reaches config ↔ Duration.zero < config.baseInterval := by
  constructor
  · intro h
    induction h with
    | default => exact hinitial
    | baseInterval interval _ ih =>
        unfold IntervalConfig.setBaseInterval
        split
        · assumption
        · exact ih
    | maxJitter jitter _ ih => exact ih
  · intro h
    have hbuilt : (initial.setBaseInterval config.baseInterval).setMaxJitter config.maxJitter =
        config := by
      rw [IntervalConfig.setBaseInterval, if_pos h]
      rfl
    exact hbuilt ▸ .maxJitter _ (.baseInterval _ .default)

/-- The nanoseconds of a jitter; the cast to `u64` drops what is above. -/
def jitterNanos (maxJitter : Duration) (draw : BitVec 128) : Nat :=
  if maxJitter = Duration.zero then 0 else draw.toNat % maxJitter.nanos % 2 ^ 64

theorem drawJitter_eq_ok (maxJitter : Duration) (draw : BitVec 128) :
    ∃ jitter, drawJitter maxJitter draw = .ok jitter ∧
      jitter.nanos = jitterNanos maxJitter draw := by
  rcases maxJitter.zero_lt_or_eq_zero with hpos | rfl
  · have hne : maxJitter ≠ Duration.zero := ne_of_gt hpos
    have hdivisor : maxJitter.asNanos ≠ 0 := by
      intro hzero
      have hnanos := maxJitter.asNanos_toNat
      rw [hzero] at hnanos
      exact absurd hpos (Nat.not_lt.mpr hnanos.ge)
    refine ⟨Duration.fromNanos (UInt64.ofBitVec ((draw % maxJitter.asNanos).setWidth 64)), ?_, ?_⟩
    · rw [drawJitter, if_pos hpos, remU128, if_neg hdivisor, ok_bind]
    · rw [jitterNanos, if_neg hne, Duration.fromNanos_nanos, UInt64.toNat_ofBitVec,
        BitVec.toNat_setWidth, BitVec.toNat_umod, Duration.asNanos_toNat]
  · exact ⟨Duration.zero, if_neg (lt_irrefl _), (if_pos rfl).symm⟩

theorem jitterNanos_lt {maxJitter : Duration} (h : Duration.zero < maxJitter)
    (draw : BitVec 128) : jitterNanos maxJitter draw < maxJitter.nanos := by
  rw [jitterNanos, if_neg (ne_of_gt h)]
  exact (Nat.mod_le _ _).trans_lt (Nat.mod_lt _ h)

theorem jitteredInterval_cases (baseInterval maxJitter : Duration) (draw : BitVec 128) :
    (∃ next, jitteredInterval baseInterval maxJitter draw = .ok next ∧
        next.nanos = baseInterval.nanos + jitterNanos maxJitter draw) ∨
      (nanosLimit ≤ baseInterval.nanos + jitterNanos maxJitter draw ∧
        jitteredInterval baseInterval maxJitter draw =
          .error (.panic "overflow when adding durations")) := by
  obtain ⟨jitter, hjitter, hnanos⟩ := drawJitter_eq_ok maxJitter draw
  rw [jitteredInterval, hjitter, ok_bind, ← hnanos]
  by_cases hfits : baseInterval.nanos + jitter.nanos < nanosLimit
  · exact .inl ⟨_, dif_pos hfits, rfl⟩
  · exact .inr ⟨Nat.not_lt.mp hfits, dif_neg hfits⟩

theorem jitteredInterval_eq_ok_iff (baseInterval maxJitter : Duration) (draw : BitVec 128) :
    (∃ next, jitteredInterval baseInterval maxJitter draw = .ok next) ↔
      baseInterval.nanos + jitterNanos maxJitter draw < nanosLimit := by
  rcases jitteredInterval_cases baseInterval maxJitter draw with
    ⟨next, hnext, hnanos⟩ | ⟨hlong, hpanics⟩
  · exact ⟨fun _ => hnanos ▸ next.nanos_lt, fun _ => ⟨next, hnext⟩⟩
  · constructor
    · rintro ⟨next, hnext⟩
      cases hpanics.symm.trans hnext
    · intro hfits
      exact absurd hfits (Nat.not_lt.mpr hlong)

/-- A wait of at least the base interval, and less than the largest jitter above it. -/
structure InRange (baseInterval maxJitter next : Duration) : Prop where
  base_le : baseInterval ≤ next
  of_jitter : Duration.zero < maxJitter → next.nanos < baseInterval.nanos + maxJitter.nanos
  of_no_jitter : maxJitter = Duration.zero → next = baseInterval

theorem inRange_of_nanos {baseInterval maxJitter next : Duration} {draw : BitVec 128}
    (h : next.nanos = baseInterval.nanos + jitterNanos maxJitter draw) :
    InRange baseInterval maxJitter next := by
  refine ⟨?_, ?_, ?_⟩
  · rw [Duration.le_iff_nanos_le, h]
    exact Nat.le_add_right _ _
  · intro hpos
    rw [h]
    exact Nat.add_lt_add_left (jitterNanos_lt hpos draw) _
  · rintro rfl
    exact Duration.nanos_injective h

/-- For all settings that the builders reach and all draws, a worker computes a wait, and
one within the bounds, if and only if there is a `Duration` of that length. -/
theorem nextInterval_inRange_iff (worker : Worker) (config : IntervalConfig)
    (h : worker.defaults.Reaches config) (draw : BitVec 128) :
    Duration.zero < worker.base config ∧
      ((∃ next, worker.nextInterval config draw = .ok next ∧
          InRange (worker.base config) config.maxJitter next) ↔
        (worker.base config).nanos + jitterNanos config.maxJitter draw < nanosLimit) := by
  have hdefault : Duration.zero < worker.defaults.baseInterval := by cases worker <;> decide
  have hbase : Duration.zero < config.baseInterval := (reaches_iff hdefault).mp h
  refine ⟨?_, ?_⟩
  · cases worker with
    | dhtRetry => exact hbase
    | _ => exact lt_max_of_lt_left hbase
  · rw [worker.nextInterval_eq, ← jitteredInterval_eq_ok_iff]
    constructor
    · rintro ⟨next, hnext, -⟩
      exact ⟨next, hnext⟩
    · rintro ⟨next, hnext⟩
      refine ⟨next, hnext, ?_⟩
      rcases jitteredInterval_cases (worker.base config) config.maxJitter draw with
        ⟨next', hnext', hnanos⟩ | ⟨-, hpanics⟩
      · obtain rfl : next' = next := Except.ok.inj (hnext'.symm.trans hnext)
        exact inRange_of_nanos hnanos
      · cases hpanics.symm.trans hnext

theorem nextInterval_inRange_iff_defaults :
    Duration.zero < Worker.publisher.base publisherDefaults ∧
      ((∃ next, Worker.publisher.nextInterval publisherDefaults 7 = .ok next ∧
          InRange (Worker.publisher.base publisherDefaults) publisherDefaults.maxJitter next) ↔
        (Worker.publisher.base publisherDefaults).nanos +
          jitterNanos publisherDefaults.maxJitter 7 < nanosLimit) :=
  nextInterval_inRange_iff .publisher publisherDefaults .default 7

/-- A publisher that is to wait as long as possible, with the default jitter: any draw
but a multiple of 50 seconds stops it. -/
theorem longest_interval_panics :
    publisherDefaults.Reaches (publisherDefaults.setBaseInterval .largest) ∧
      Worker.publisher.nextInterval (publisherDefaults.setBaseInterval .largest) 1 =
        .error (.panic "overflow when adding durations") := by
  refine ⟨.baseInterval _ .default, ?_⟩
  decide

end TopicTracker.JitteredIntervals
