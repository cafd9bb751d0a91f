/-!
The configuration values the modelled functions read, and the builders that set
them. Field defaults are those of the crate's `Default` implementations.
-/

namespace TopicTracker.Configuration

structure BootstrapConfig where
  maxBootstrapRecords : Nat := 5
  publishRecordOnStartup : Bool := true
  checkOlderRecordsFirstOnStartup : Bool := false
deriving DecidableEq

structure BubbleMergeConfigInner where
  minNeighbors : Nat := 4
  maxJoinPeers : Nat := 2
deriving DecidableEq

inductive BubbleMergeConfig
  | enabled (config : BubbleMergeConfigInner)
  | disabled
deriving DecidableEq

structure MessageOverlapMergeConfigInner where
  maxJoinPeers : Nat := 2
deriving DecidableEq

inductive MessageOverlapMergeConfig
  | enabled (config : MessageOverlapMergeConfigInner)
  | disabled
deriving DecidableEq

structure MergeConfig where
  bubbleMerge : BubbleMergeConfig := .enabled {}
  messageOverlapMerge : MessageOverlapMergeConfig := .enabled {}
deriving DecidableEq

inductive PublisherConfig
  | enabled
  | disabled
deriving DecidableEq

structure Config where
  bootstrapConfig : BootstrapConfig := {}
  publisherConfig : PublisherConfig := .enabled
  mergeConfig : MergeConfig := {}
  maxJoinPeerCount : Nat := 4
deriving DecidableEq

def setPositive (old new : Nat) : Nat := if new > 0 then new else old

namespace BubbleMergeConfigInner

variable (config : BubbleMergeConfigInner)

/-- `BubbleMergeConfigBuilder::min_neighbors`. -/
def setMinNeighbors (minNeighbors : Nat) : BubbleMergeConfigInner :=
  { config with minNeighbors := minNeighbors }

/-- `BubbleMergeConfigBuilder::max_join_peers`. -/
def setMaxJoinPeers (maxJoinPeers : Nat) : BubbleMergeConfigInner :=
  { config with maxJoinPeers := setPositive config.maxJoinPeers maxJoinPeers }

end BubbleMergeConfigInner

/-- `MessageOverlapMergeConfigBuilder::max_join_peers`. -/
def MessageOverlapMergeConfigInner.setMaxJoinPeers (config : MessageOverlapMergeConfigInner)
    (maxJoinPeers : Nat) : MessageOverlapMergeConfigInner :=
  { config with maxJoinPeers := setPositive config.maxJoinPeers maxJoinPeers }

namespace Config

variable (config : Config)

/-- `ConfigBuilder::max_join_peer_count`. -/
def setMaxJoinPeerCount (maxPeers : Nat) : Config :=
  { config with maxJoinPeerCount := setPositive config.maxJoinPeerCount maxPeers }

/-- `ConfigBuilder::build`. -/
def build : Config :=
  if config.bootstrapConfig.maxBootstrapRecords = 0 ∧ config.publisherConfig = .enabled then
    { config with publisherConfig := .disabled }
  else config

end Config

inductive BubbleMergeConfigInner.Obtainable : BubbleMergeConfigInner → Prop
  | default : Obtainable {}
  | minNeighbors {config : BubbleMergeConfigInner} (minNeighbors : Nat) :
      Obtainable config → Obtainable (config.setMinNeighbors minNeighbors)
  | maxJoinPeers {config : BubbleMergeConfigInner} (maxJoinPeers : Nat) :
      Obtainable config → Obtainable (config.setMaxJoinPeers maxJoinPeers)

inductive MessageOverlapMergeConfigInner.Obtainable : MessageOverlapMergeConfigInner → Prop
  | default : Obtainable {}
  | maxJoinPeers {config : MessageOverlapMergeConfigInner} (maxJoinPeers : Nat) :
      Obtainable config → Obtainable (config.setMaxJoinPeers maxJoinPeers)

inductive BubbleMergeConfig.Obtainable : BubbleMergeConfig → Prop
  | enabled {config : BubbleMergeConfigInner} : config.Obtainable → Obtainable (.enabled config)
  | disabled : Obtainable .disabled

inductive MessageOverlapMergeConfig.Obtainable : MessageOverlapMergeConfig → Prop
  | enabled {config : MessageOverlapMergeConfigInner} :
      config.Obtainable → Obtainable (.enabled config)
  | disabled : Obtainable .disabled

structure MergeConfig.Obtainable (config : MergeConfig) : Prop where
  bubbleMerge : config.bubbleMerge.Obtainable
  messageOverlapMerge : config.messageOverlapMerge.Obtainable

inductive Config.Buildable : Config → Prop
  | default : Buildable {}
  | bootstrapConfig {config : Config} (bootstrapConfig : BootstrapConfig) :
      Buildable config → Buildable { config with bootstrapConfig }
  | publisherConfig {config : Config} (publisherConfig : PublisherConfig) :
      Buildable config → Buildable { config with publisherConfig }
  | mergeConfig {config : Config} {mergeConfig : MergeConfig} (h : mergeConfig.Obtainable) :
      Buildable config → Buildable { config with mergeConfig }
  | maxJoinPeerCount {config : Config} (maxPeers : Nat) :
      Buildable config → Buildable (config.setMaxJoinPeerCount maxPeers)

def Config.Obtainable (config : Config) : Prop :=
  ∃ held : Config, held.Buildable ∧ held.build = config

theorem setPositive_pos {old : Nat} (h : 0 < old) (new : Nat) : 0 < setPositive old new := by
  unfold setPositive
  split <;> assumption

@[simp] theorem Config.build_maxJoinPeerCount (config : Config) :
    config.build.maxJoinPeerCount = config.maxJoinPeerCount := by
  unfold Config.build
  split <;> rfl

theorem Config.Obtainable.maxJoinPeerCount_pos {config : Config} (h : config.Obtainable) :
    0 < config.maxJoinPeerCount := by
  rcases h with ⟨held, hheld, rfl⟩
  rw [Config.build_maxJoinPeerCount]
  induction hheld with
  | default => decide
  | bootstrapConfig _ _ ih => exact ih
  | publisherConfig _ _ ih => exact ih
  | mergeConfig _ _ ih => exact ih
  | maxJoinPeerCount maxPeers _ ih => exact setPositive_pos ih maxPeers

theorem setPositive_self {old new : Nat} (h : 0 < new) : setPositive old new = new := if_pos h

theorem BubbleMergeConfigInner.obtainable_iff {config : BubbleMergeConfigInner} :
    config.Obtainable ↔ 0 < config.maxJoinPeers := by
  constructor
  · intro h
    induction h with
    | default => decide
    | minNeighbors _ _ ih => exact ih
    | maxJoinPeers maxJoinPeers _ ih => exact setPositive_pos ih maxJoinPeers
  · intro h
    have hbuilt : (setMinNeighbors {} config.minNeighbors).setMaxJoinPeers config.maxJoinPeers =
        config := by
      rw [setMaxJoinPeers, setPositive_self h]
      rfl
    exact hbuilt ▸ .maxJoinPeers _ (.minNeighbors _ .default)

theorem MessageOverlapMergeConfigInner.obtainable_iff
    {config : MessageOverlapMergeConfigInner} :
    config.Obtainable ↔ 0 < config.maxJoinPeers := by
  constructor
  · intro h
    induction h with
    | default => decide
    | maxJoinPeers maxJoinPeers _ ih => exact setPositive_pos ih maxJoinPeers
  · intro h
    have hbuilt : setMaxJoinPeers {} config.maxJoinPeers = config := by
      rw [setMaxJoinPeers, setPositive_self h]
    exact hbuilt ▸ .maxJoinPeers _ .default

theorem MergeConfig.obtainable_iff {config : MergeConfig} : config.Obtainable ↔
    (∀ inner, config.bubbleMerge = .enabled inner → 0 < inner.maxJoinPeers) ∧
      ∀ inner, config.messageOverlapMerge = .enabled inner → 0 < inner.maxJoinPeers := by
  obtain ⟨bubbleMerge, messageOverlapMerge⟩ := config
  constructor
  · rintro ⟨hbubble, hoverlap⟩
    constructor
    · rintro inner rfl
      obtain ⟨hinner⟩ := hbubble
      exact BubbleMergeConfigInner.obtainable_iff.mp hinner
    · rintro inner rfl
      obtain ⟨hinner⟩ := hoverlap
      exact MessageOverlapMergeConfigInner.obtainable_iff.mp hinner
  · rintro ⟨hbubble, hoverlap⟩
    constructor
    · cases bubbleMerge with
      | enabled inner => exact .enabled (BubbleMergeConfigInner.obtainable_iff.mpr (hbubble _ rfl))
      | disabled => exact .disabled
    · cases messageOverlapMerge with
      | enabled inner =>
          exact .enabled (MessageOverlapMergeConfigInner.obtainable_iff.mpr (hoverlap _ rfl))
      | disabled => exact .disabled

theorem Config.buildable_iff {config : Config} :
    config.Buildable ↔ 0 < config.maxJoinPeerCount ∧ config.mergeConfig.Obtainable := by
  constructor
  · intro h
    induction h with
    | default => exact ⟨by decide, .enabled .default, .enabled .default⟩
    | bootstrapConfig _ _ ih => exact ih
    | publisherConfig _ _ ih => exact ih
    | mergeConfig hmerge _ ih => exact ⟨ih.1, hmerge⟩
    | maxJoinPeerCount maxPeers _ ih => exact ⟨setPositive_pos ih.1 maxPeers, ih.2⟩
  · rintro ⟨hpeers, hmerge⟩
    have hbuilt : setMaxJoinPeerCount { config with maxJoinPeerCount := 4 }
        config.maxJoinPeerCount = config := by
      rw [setMaxJoinPeerCount, setPositive_self hpeers]
    exact hbuilt ▸ .maxJoinPeerCount _
      (.mergeConfig hmerge (.publisherConfig _ (.bootstrapConfig _ .default)))

/-- The invariant of the configurations: a node may join somebody, a merge that is enabled
too, and a publisher that is enabled may publish. -/
structure Config.Consistent (config : Config) : Prop where
  maxJoinPeerCount : 0 < config.maxJoinPeerCount
  bubbleMerge : ∀ inner, config.mergeConfig.bubbleMerge = .enabled inner →
    0 < inner.maxJoinPeers
  messageOverlapMerge : ∀ inner, config.mergeConfig.messageOverlapMerge = .enabled inner →
    0 < inner.maxJoinPeers
  publisher : config.bootstrapConfig.maxBootstrapRecords = 0 →
    config.publisherConfig = .disabled

theorem Config.build_consistent {config : Config} (h : config.Buildable) :
    config.build.Consistent := by
  obtain ⟨hpeers, hmerge⟩ := buildable_iff.mp h
  obtain ⟨hbubble, hoverlap⟩ := MergeConfig.obtainable_iff.mp hmerge
  unfold Config.build
  split
  · exact ⟨hpeers, hbubble, hoverlap, fun _ => rfl⟩
  · next hpublishes =>
      refine ⟨hpeers, hbubble, hoverlap, fun hzero => ?_⟩
      cases hpublisher : config.publisherConfig with
      | enabled => exact absurd ⟨hzero, hpublisher⟩ hpublishes
      | disabled => rfl

/-- The builders produce the consistent configurations and no others. -/
theorem Config.obtainable_iff_consistent (config : Config) :
    config.Obtainable ↔ config.Consistent := by
  constructor
  · rintro ⟨held, hheld, rfl⟩
    exact build_consistent hheld
  · intro h
    refine ⟨config, buildable_iff.mpr ⟨h.maxJoinPeerCount, ?_⟩, ?_⟩
    · exact MergeConfig.obtainable_iff.mpr ⟨h.bubbleMerge, h.messageOverlapMerge⟩
    · refine if_neg ?_
      rintro ⟨hzero, henabled⟩
      cases henabled.symm.trans (h.publisher hzero)

end TopicTracker.Configuration
