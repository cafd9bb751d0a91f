import TopicTracker.EmittedRecords
import TopicTracker.WorkerStartup

namespace TopicTracker.SilentNodes

open TopicTracker.Configuration
open TopicTracker.RustValues
open TopicTracker.ThirdParty
open TopicTracker.ReferenceExternals
open TopicTracker.RecordCodec
open TopicTracker.EncryptedRecordCodec
open TopicTracker.RecordRetrieval
open TopicTracker.RecordPublishing
open TopicTracker.BootstrapLoop
open TopicTracker.BootstrapProcess
open TopicTracker.StepMachine
open TopicTracker.RecordAdvertising
open TopicTracker.EmittedRecords
open TopicTracker.TopicOwnership
open TopicTracker.WorkerStartup

variable {X : Externals} {cfg : BootstrapConfig} {rp : RecordPublisher X}
  {unixMinute : UInt64} {p q : Process X}

/-- `postcard` writes fixed arrays of bytes as they are, with no length in front. -/
def EncodesContentPlainly (X : Externals) : Prop :=
  ∀ content, ∃ bytes, X.gossipContent.toAllocvec content = .ok bytes ∧
    bytes.length = 32 * maxRecordPeers + 32 * maxMessageHashes

/-- Neither the bootstrap process of a node nor its publisher ever asks for a put. -/
structure Silent (rp : RecordPublisher X) : Prop where
  bootstrap : ∀ unixMinute p, Reachable rp.config.bootstrapConfig rp unixMinute p →
    ∀ id put, .put id put ∉ p.log
  publisher : ∀ tick request, publishRequest (fun _ : Unit => rp) () tick ≠ .ok (some request)

theorem publish_ne_some (hzero : rp.maxBootstrapRecords = 0) (record : Record)
    (cached : Option (Finset Record)) (answer : Awaited (List MutableItem))
    (draw : EncryptionDraw) (put : DhtPut) :
    publishRecordCachedRecords rp record cached answer draw ≠ .ok (some put) := by
  intro hput
  obtain ⟨records, -, hfree, -⟩ := publish_eq_some_iff.mp hput
  rw [hzero] at hfree
  exact absurd hfree (Nat.not_lt_zero _)

theorem silent_of_zero (hzero : rp.maxBootstrapRecords = 0) : Silent rp where
  bootstrap unixMinute p hreachable id put hmem := by
    obtain ⟨publish, -, answer, draw, hput⟩ := (emits_of_reachable hreachable).stored id put hmem
    exact publish_ne_some hzero _ _ _ _ _ hput
  publisher tick request hrequest := by
    obtain ⟨-, hput, -⟩ := publishRequest_eq_some_iff.mp hrequest
    exact publish_ne_some hzero _ _ _ _ _ hput

theorem recordsOf_nil (rp : RecordPublisher X) (unixMinute : UInt64) :
    recordsOf rp unixMinute [] = ∅ := rfl

theorem exists_put_of_publish (hencrypts : EncryptsCorrectly X)
    (hfree : 0 < rp.maxBootstrapRecords) (h : Reachable cfg rp unixMinute p)
    {record : Record} {cached : Option (Finset Record)} {iteration : Option Nat}
    (hget : p.publishes[0]? = some ⟨iteration, record, cached, .reading⟩)
    (hcached : cached = none ∨ cached = some ∅) (hsize : record.content.bytes.length ≤ 1764) :
    ∃ q put, Reachable cfg rp unixMinute q ∧ .put 0 put ∈ q.log := by
  have hcounted : countedRecords rp record.unixMinute cached (.ready (.ok [])) = .ok ∅ := by
    rcases hcached with rfl | rfl
    · exact congrArg Except.ok (recordsOf_nil rp record.unixMinute)
    · rfl
  obtain ⟨put, hput⟩ := exists_publish hencrypts zeroDraw hcounted hfree hsize
  have hread : PublishTask.step rp ⟨record, cached, .reading⟩
      (.read (.ready (.ok [])) zeroDraw) = some ⟨record, cached, .putting put⟩ := by
    show some (⟨record, cached, PublishTask.stageAfterCheck
      (publishRecordCachedRecords rp record cached (.ready (.ok [])) zeroDraw)⟩ : PublishTask) = _
    rw [hput]
    rfl
  have hlength : 0 < p.publishes.length := (List.getElem?_eq_some_iff.mp hget).1
  have hreading : ∃ m, p.step cfg rp (.publish 0 (.read (.ready (.ok [])) zeroDraw)) = some m ∧
      m.publishes[0]? = some ⟨iteration, record, cached, .putting put⟩ := by
    simp only [Process.step, hget, hread, Option.bind_eq_bind, Option.bind_some]
    exact ⟨_, rfl, List.getElem?_set_self hlength⟩
  obtain ⟨m, hm, hputting⟩ := hreading
  have hstored : ∃ q, m.step cfg rp (.publish 0 .stored) = some q ∧ .put 0 put ∈ q.log := by
    simp only [Process.step, hputting, PublishTask.step, Option.bind_eq_bind, Option.bind_some]
    exact ⟨_, rfl, List.mem_append_right _ (List.mem_singleton.mpr rfl)⟩
  obtain ⟨q, hq, hmem⟩ := hstored
  exact ⟨q, put, reachable_of_step (reachable_of_step h hm) hq, hmem⟩

theorem initiate_plain (hplain : EncodesContentPlainly X) (rp : RecordPublisher X)
    (iteration : Option Nat) (unixMinute : UInt64) (cached : Option (Finset Record)) :
    ∃ record : Record, record.content.bytes.length ≤ 1764 ∧
      Loop.initiate rp iteration unixMinute cached = [.initiated iteration record cached] := by
  have hencodes : SerializesContent X := fun content =>
    (hplain content).imp fun _ hbytes => hbytes.1
  obtain ⟨content, hinitiate⟩ := initiate_eq hencodes rp iteration unixMinute cached
  refine ⟨_, ?_, hinitiate⟩
  have hmem : .initiated iteration
      (Record.signContent X rp.topicId.hash unixMinute content rp.signingKey) cached ∈
        Loop.initiate rp iteration unixMinute cached := hinitiate ▸ List.mem_singleton.mpr rfl
  obtain ⟨content', hcontent', hrecord⟩ := emptyRecordOf_of_initiate hmem
  rw [hrecord]
  obtain ⟨bytes, hbytes, hlength⟩ := hplain emptyContent
  rw [RecordContent.fromArbitrary, hbytes, ok_bind] at hcontent'
  obtain rfl := Except.ok.inj hcontent'
  exact hlength.trans_le (by decide)

def aloneIteration : List (Input X) :=
  [.tokenCancelled false, .isJoined (.ok false), .minute 7, .records (.ready (.ok [])),
    .records (.ready (.ok []))]

theorem exists_initiated (hplain : EncodesContentPlainly X) (cfg : BootstrapConfig)
    (rp : RecordPublisher X) : ∃ p, Reachable cfg rp 7 p ∧ ∃ iteration record cached,
      p.publishes[0]? = some ⟨iteration, record, cached, .reading⟩ ∧
        (cached = none ∨ cached = some ∅) ∧ record.content.bytes.length ≤ 1764 := by
  cases hstartup : cfg.publishRecordOnStartup with
  | true =>
      obtain ⟨record, hsize, hinitiate⟩ := initiate_plain hplain rp none 7 none
      refine ⟨_, ⟨[], rfl⟩, none, record, none, ?_, .inl rfl, hsize⟩
      rw [Process.start, startupEvents, if_pos hstartup, hinitiate]
      rfl
  | false =>
      have hrun : ∃ cached, (cached = none ∨ cached = some ∅) ∧ ∃ p,
          run (Process.step cfg rp) (Process.start cfg rp 7) (aloneIteration.map .loop) = some p ∧
            p.publishes = (Loop.initiate rp (some 1) 7 cached).filterMap spawned := by
        obtain ⟨limit, publishes, checksOlder⟩ := cfg
        obtain rfl : publishes = false := hstartup
        cases checksOlder with
        | true => exact ⟨none, .inl rfl, _, rfl, rfl⟩
        | false => exact ⟨some ∅, .inr rfl, _, rfl, rfl⟩
      obtain ⟨cached, hcached, p, hp, hpublishes⟩ := hrun
      obtain ⟨record, hsize, hinitiate⟩ := initiate_plain hplain rp (some 1) 7 cached
      refine ⟨p, ⟨_, hp⟩, some 1, record, cached, ?_, hcached, hsize⟩
      rw [hpublishes, hinitiate]
      rfl

theorem not_silent_of_pos (hencrypts : EncryptsCorrectly X) (hplain : EncodesContentPlainly X)
    (hpos : 0 < rp.maxBootstrapRecords) : ¬ Silent rp := by
  intro hsilent
  obtain ⟨p, hp, iteration, record, cached, hget, hcached, hsize⟩ :=
    exists_initiated hplain rp.config.bootstrapConfig rp
  obtain ⟨q, put, hq, hput⟩ := exists_put_of_publish hencrypts hpos hp hget hcached hsize
  exact hsilent.bootstrap 7 q hq 0 put hput

def setupOf (config : Config) (asyncBootstrap : Bool) : Setup where
  asyncBootstrap := asyncBootstrap
  publisher := config.publisherConfig = .enabled
  bubbleMerge :=
    match config.mergeConfig.bubbleMerge with
    | .enabled _ => true
    | .disabled => false
  messageOverlapMerge :=
    match config.mergeConfig.messageOverlapMerge with
    | .enabled _ => true
    | .disabled => false

theorem publisher_not_mem_workers {config : Config} (h : config.publisherConfig = .disabled)
    (asyncBootstrap : Bool) : .publisher ∉ (setupOf config asyncBootstrap).workers := by
  have hpublisher : (setupOf config asyncBootstrap).publisher = false := by
    simp [setupOf, h]
  unfold Setup.workers
  rw [hpublisher, if_neg Bool.false_ne_true, List.nil_append]
  split <;> split <;> simp

theorem publisher_not_attempted {config : Config} (h : config.publisherConfig = .disabled)
    {asyncBootstrap : Bool} {ops : List TopicOp} {s : TopicState}
    (hrun : run (TopicState.step (setupOf config asyncBootstrap)) TopicState.start ops = some s) :
    .publisher ∉ (attempts (setupOf config asyncBootstrap) ops).map Prod.snd := by
  intro hmem
  have hordered := (attempts_of_run hrun).accounts.ordered
  exact publisher_not_mem_workers h asyncBootstrap (hordered.subset hmem)

/-- A node whose configuration was built puts nothing, neither in its bootstrap nor through
a publisher, if and only if its limit is zero. Its topics try to start no publisher then. -/
theorem silent_iff_zero_limit (hencrypts : EncryptsCorrectly X)
    (hplain : EncodesContentPlainly X) (hconfig : rp.config.Obtainable) :
    (rp.maxBootstrapRecords = 0 ↔ Silent rp) ∧ (rp.maxBootstrapRecords = 0 →
      ∀ asyncBootstrap ops s,
        run (TopicState.step (setupOf rp.config asyncBootstrap)) TopicState.start ops = some s →
          .publisher ∉ (attempts (setupOf rp.config asyncBootstrap) ops).map Prod.snd) := by
  refine ⟨⟨silent_of_zero, fun hsilent => ?_⟩, fun hzero asyncBootstrap ops s hrun => ?_⟩
  · by_contra hne
    exact not_silent_of_pos hencrypts hplain (Nat.pos_of_ne_zero hne) hsilent
  · have hdisabled := ((Config.obtainable_iff_consistent rp.config).mp hconfig).publisher hzero
    exact publisher_not_attempted hdisabled hrun

theorem reference_encodesContentPlainly : EncodesContentPlainly reference := by
  intro content
  refine ⟨_, rfl, ?_⟩
  rw [List.length_append, flatten_length, flatten_length]

def mutedConfig : Config := Config.build { bootstrapConfig := { maxBootstrapRecords := 0 } }

theorem silent_iff_zero_limit_muted : Silent (samplePublisher 1 mutedConfig) := by
  have hconfig : (samplePublisher 1 mutedConfig).config.Obtainable :=
    ⟨_, .bootstrapConfig { maxBootstrapRecords := 0 } .default, rfl⟩
  exact (silent_iff_zero_limit reference_encryptsCorrectly reference_encodesContentPlainly
    hconfig).1.mp rfl

end TopicTracker.SilentNodes
