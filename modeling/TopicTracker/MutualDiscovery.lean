import TopicTracker.GroupIsolation
import TopicTracker.PeerJoining

namespace TopicTracker.MutualDiscovery

open TopicTracker.Configuration
open TopicTracker.RustValues
open TopicTracker.ThirdParty
open TopicTracker.ReferenceExternals
open TopicTracker.RecordCodec
open TopicTracker.EncryptedRecordCodec (zeroDraw)
open TopicTracker.RecordRetrieval
open TopicTracker.RecordPublishing
open TopicTracker.BootstrapLoop
open TopicTracker.BootstrapTransition
open TopicTracker.BootstrapProcess
open TopicTracker.StepMachine
open TopicTracker.EmittedRecords
open TopicTracker.MinimalDisruption
open TopicTracker.CandidateCoverage
open TopicTracker.PeerJoining
open TopicTracker.GroupIsolation (answered read_of_transition)

variable {X : Externals} {P : Type}

/-- The bootstrap processes of all nodes, and the puts that have taken effect. -/
structure Community (X : Externals) (P : Type) where
  processes : P → Process X
  stored : List DhtPut

/-- The put of a process that takes effect in a step. -/
def storedBy (p : Process X) : Label X → Option DhtPut
  | .loop _ => none
  | .publish id input => p.publishes[id]?.bind fun publish => publish.task.storedPut input

/-- The minute whose slot an iteration reads in a step, and the items in the answer. -/
def loopAnswer (p : Process X) : Label X → Option (UInt64 × List MutableItem)
  | .loop input => answered p (.loop input)
  | .publish _ _ => none

namespace Community

variable [DecidableEq P]

def start (publisher : P → RecordPublisher X) (minutes : P → UInt64) : Community X P where
  processes member :=
    Process.start (publisher member).config.bootstrapConfig (publisher member) (minutes member)
  stored := []

def step (publisher : P → RecordPublisher X) (w : Community X P) (op : P × Label X) :
    Option (Community X P) :=
  ((w.processes op.1).step (publisher op.1).config.bootstrapConfig (publisher op.1) op.2).map
    fun process =>
      { processes := Function.update w.processes op.1 process
        stored := w.stored ++ (storedBy (w.processes op.1) op.2).toList }

/-- An answer to an iteration holds whatever was put into its slot before, and perhaps
more. -/
def Complete (publisher : P → RecordPublisher X) (w : Community X P) (op : P × Label X) :
    Prop :=
  ∀ answer ∈ loopAnswer (w.processes op.1) op.2, ∀ put ∈ w.stored,
    put.address = (publisher op.1).slotAddress answer.1 → put.item ∈ answer.2

instance (publisher : P → RecordPublisher X) (w : Community X P) (op : P × Label X) :
    Decidable (Complete publisher w op) :=
  inferInstanceAs (Decidable (∀ answer ∈ loopAnswer (w.processes op.1) op.2, ∀ put ∈ w.stored,
    put.address = (publisher op.1).slotAddress answer.1 → put.item ∈ answer.2))

end Community

def PutFor (rp : RecordPublisher X) (unixMinute : UInt64) (put : DhtPut) : Prop :=
  ∃ record, OwnRecord rp unixMinute record ∧ ∃ cached answer draw,
    publishRecordCachedRecords rp record cached answer draw = .ok (some put)

def HasPut (rp : RecordPublisher X) (unixMinute : UInt64) (log : List (Event X)) : Prop :=
  ∃ id put, .put id put ∈ log ∧ PutFor rp unixMinute put

def ByIteration : Reader → Prop
  | .older _ => True
  | .newer _ => True
  | .publish _ => False

/-- After such a put, an iteration has read these records from the slot of the minute. -/
def Looks (rp : RecordPublisher X) (unixMinute : UInt64) (log : List (Event X))
    (records : Finset Record) (after : List (Event X)) : Prop :=
  ∃ before reader, log = before ++ .read reader unixMinute (.ok records) :: after ∧
    ByIteration reader ∧ HasPut rp unixMinute before

/-- It has looked and seen no record of the key. -/
def Misses (rp : RecordPublisher X) (key : Bytes 32) (unixMinute : UInt64)
    (log : List (Event X)) : Prop :=
  ∃ records after, Looks rp unixMinute log records after ∧
    ∀ record ∈ records, record.pubKey ≠ key

/-- The current iteration has looked, and is past its loop over the candidates, which no
settle check has ended. -/
structure HasLooked (rp : RecordPublisher X) (unixMinute : UInt64) (p : Process X) : Prop where
  looks : ∃ records after, Looks rp unixMinute p.log records after ∧
    ∀ event ∈ after, ¬ IsClock event
  past : pastJoining p.loop.point = true
  going : (currentIteration p.log).stoppedEarly = false

/-- An iteration of the one that has looked has asked for the other. -/
def Finds (publisher : P → RecordPublisher X) (unixMinute : UInt64) (x y : P)
    (w : Community X P) : Prop :=
  HasLooked (publisher x) unixMinute (w.processes x) →
    ∃ peer ∈ (currentIteration (w.processes x).log).asked, peer.bytes = (publisher y).pubKey

structure Mates (a b : RecordPublisher X) : Prop where
  sharesSlots : SharesSlots a b
  otherKey : a.pubKey ≠ b.pubKey

theorem Mates.symm {a b : RecordPublisher X} (h : Mates a b) : Mates b a where
  sharesSlots := ⟨h.sharesSlots.topicId.symm, h.sharesSlots.rotation.symm,
    h.sharesSlots.initialSecretHash.symm⟩
  otherKey := h.otherKey.symm

section Logs

variable {rp : RecordPublisher X} {key : Bytes 32} {m : UInt64} {log events : List (Event X)}

theorem HasPut.append (h : HasPut rp m log) (events : List (Event X)) :
    HasPut rp m (log ++ events) := by
  obtain ⟨id, put, hput, hown⟩ := h
  exact ⟨id, put, List.mem_append_left _ hput, hown⟩

theorem HasPut.of_append (h : HasPut rp m (log ++ events))
    (hevents : ∀ id put, .put id put ∉ events) : HasPut rp m log := by
  obtain ⟨id, put, hput, hown⟩ := h
  rcases List.mem_append.mp hput with hold | hnew
  · exact ⟨id, put, hold, hown⟩
  · exact absurd hnew (hevents id put)

theorem Looks.append {records : Finset Record} {after : List (Event X)}
    (h : Looks rp m log records after) (events : List (Event X)) :
    Looks rp m (log ++ events) records (after ++ events) := by
  obtain ⟨before, reader, rfl, hreader, hput⟩ := h
  exact ⟨before, reader, by rw [List.append_assoc, List.cons_append], hreader, hput⟩

/-- A miss in a longer log lies in the log itself or in what was appended. -/
theorem Misses.of_append (h : Misses rp key m (log ++ events)) :
    Misses rp key m log ∨ ∃ reader records before, ByIteration reader ∧
      .read reader m (.ok records) ∈ events ∧ before <+: events ∧ HasPut rp m (log ++ before) ∧
      ∀ record ∈ records, record.pubKey ≠ key := by
  obtain ⟨records, after, ⟨before, reader, heq, hreader, hput⟩, hnone⟩ := h
  rcases List.append_eq_append_iff.mp heq with ⟨rest, rfl, hevents⟩ | ⟨rest, hlog, hrest⟩
  · exact .inr ⟨reader, records, rest, hreader, by simp [hevents], by simp [hevents], hput, hnone⟩
  · cases rest with
    | nil =>
        obtain rfl : log = before := by simpa using hlog
        refine .inr ⟨reader, records, [], hreader, ?_, List.nil_prefix, by simpa using hput, hnone⟩
        rw [List.nil_append] at hrest
        rw [← hrest]
        exact List.mem_cons_self
    | cons event rest =>
        obtain ⟨rfl, -⟩ := List.cons.inj hrest
        exact .inl ⟨records, rest, ⟨before, reader, hlog, hreader, hput⟩, hnone⟩

end Logs

section Steps

variable {cfg : BootstrapConfig} {rp : RecordPublisher X} {p q : Process X} {label : Label X}
  {m : UInt64}

theorem put_of_step (hstep : p.step cfg rp label = some q) {id : Nat} {put : DhtPut}
    (hput : .put id put ∈ q.log) : .put id put ∈ p.log ∨ storedBy p label = some put := by
  cases label with
  | loop input =>
      obtain ⟨loop, events, hloop, rfl⟩ := exists_of_step_loop hstep
      rcases List.mem_append.mp hput with hold | hnew
      · exact .inl hold
      · exact absurd hnew (not_put_of_transition (step_transition hloop) id put)
  | publish own input =>
      obtain ⟨publish, task, hget, -, rfl⟩ := exists_of_step_publish hstep
      rcases List.mem_append.mp hput with hold | hnew
      · exact .inl hold
      · rcases mem_publishEvents hnew with ⟨answer, draw, -, -, -, heq⟩ |
          ⟨put', hinput, hstage, heq⟩
        · cases heq
        · obtain ⟨-, rfl⟩ := Event.put.inj heq
          refine .inr ?_
          rw [storedBy, hget, Option.bind_some]
          exact PublishTask.storedPut_eq_some_iff.mpr ⟨hinput, hstage⟩

theorem misses_of_step (hstep : p.step cfg rp label = some q) {key : Bytes 32}
    (h : Misses rp key m q.log) : Misses rp key m p.log ∨
      HasPut rp m p.log ∧ ∃ items, loopAnswer p label = some (m, items) ∧
        ∀ record ∈ recordsOf rp m items, record.pubKey ≠ key := by
  cases label with
  | loop input =>
      obtain ⟨loop, events, hloop, rfl⟩ := exists_of_step_loop hstep
      have htransition := step_transition hloop
      rcases h.of_append with hold | ⟨reader, records, before, -, hread, hbefore, hput, hnone⟩
      · exact .inl hold
      · obtain ⟨items, hitems, rfl⟩ := read_of_transition htransition hread
        refine .inr ⟨hput.of_append fun id put hmem => ?_, items, hitems, hnone⟩
        exact not_put_of_transition htransition id put (hbefore.subset hmem)
  | publish id input =>
      obtain ⟨publish, task, -, -, rfl⟩ := exists_of_step_publish hstep
      rcases h.of_append with hold | ⟨reader, records, before, hreader, hread, -⟩
      · exact .inl hold
      · rcases mem_publishEvents hread with ⟨answer, draw, -, -, -, heq⟩ | ⟨put, -, -, heq⟩
        · obtain ⟨rfl, -⟩ := Event.read.inj heq
          exact hreader.elim
        · cases heq

end Steps

section Runs

variable {publisher : P → RecordPublisher X} {minutes : P → UInt64} {w w' : Community X P}
  {m : UInt64}

/-- The processes run as they do alone, and whatever one has put is stored. -/
structure Settled (publisher : P → RecordPublisher X) (minutes : P → UInt64)
    (w : Community X P) : Prop where
  reachable : ∀ member, Reachable (publisher member).config.bootstrapConfig (publisher member)
    (minutes member) (w.processes member)
  stored : ∀ member id put, .put id put ∈ (w.processes member).log → put ∈ w.stored

theorem settled_start : Settled publisher minutes (Community.start publisher minutes) where
  reachable _ := ⟨[], rfl⟩
  stored member id put hput := by
    rcases mem_startupEvents hput with heq | ⟨content, heq⟩
    · cases heq
    · cases heq

theorem misses_of_not_finds (hendpoints : HonestEndpoints X) (h : Settled publisher minutes w)
    {x y : P} (hnot : ¬ Finds publisher m x y w) :
    Misses (publisher x) (publisher y).pubKey m (w.processes x).log := by
  unfold Finds at hnot
  push Not at hnot
  obtain ⟨⟨⟨records, after, hlooks, hsame⟩, hpast, hgoing⟩, hunasked⟩ := hnot
  refine ⟨records, after, hlooks, fun record hrecord hkey => ?_⟩
  obtain ⟨before, reader, hlog, hreader, -⟩ := hlooks
  have hread : record ∈ (currentIteration (w.processes x).log).records := by
    rw [hlog, List.append_cons, currentIteration_append]
    refine records_subset_noteAll hsame _ ?_
    rw [currentIteration_append]
    cases reader with
    | older iteration => exact Finset.mem_union_right _ hrecord
    | newer iteration => exact Finset.mem_union_right _ hrecord
    | publish id => exact hreader.elim
  have hendpoint : X.isEndpointId record.pubKey = true :=
    hkey ▸ isEndpointId_pubKey hendpoints (publisher y)
  obtain ⟨peer, hpeer, hbytes⟩ :=
    exists_asked_of_record (h.reachable x) hpast hgoing hread hendpoint
  exact hunasked peer hpeer (hbytes.trans hkey)

variable [DecidableEq P]

theorem Community.exists_of_step {x : P} {label : Label X}
    (h : w.step publisher (x, label) = some w') :
    ∃ q, (w.processes x).step (publisher x).config.bootstrapConfig (publisher x) label = some q ∧
      w' = ⟨Function.update w.processes x q,
        w.stored ++ (storedBy (w.processes x) label).toList⟩ := by
  obtain ⟨q, hq, rfl⟩ := Option.map_eq_some_iff.mp h
  exact ⟨q, hq, rfl⟩

theorem settled_of_step (w : Community X P) (op : P × Label X) (w' : Community X P)
    (hstep : w.step publisher op = some w') (h : Settled publisher minutes w) :
    Settled publisher minutes w' := by
  obtain ⟨x, label⟩ := op
  obtain ⟨q, hq, rfl⟩ := Community.exists_of_step hstep
  constructor
  · intro member
    show Reachable _ _ _ (Function.update w.processes x q member)
    by_cases hne : member = x
    · subst hne
      rw [Function.update_self]
      exact reachable_of_step (h.reachable member) hq
    · rw [Function.update_of_ne hne]
      exact h.reachable member
  · intro member id put hput
    change .put id put ∈ (Function.update w.processes x q member).log at hput
    by_cases hne : member = x
    · subst hne
      rw [Function.update_self] at hput
      rcases put_of_step hq hput with hold | hnew
      · exact List.mem_append_left _ (h.stored member id put hold)
      · exact List.mem_append_right _ (Option.mem_toList.mpr hnew)
    · rw [Function.update_of_ne hne] at hput
      exact List.mem_append_left _ (h.stored member id put hput)

theorem Community.log_prefix_of_step {op : P × Label X} (hstep : w.step publisher op = some w')
    (x : P) : (w.processes x).log <+: (w'.processes x).log := by
  obtain ⟨member, label⟩ := op
  obtain ⟨q, hq, rfl⟩ := Community.exists_of_step hstep
  show _ <+: (Function.update w.processes member q x).log
  by_cases hne : x = member
  · subst hne
    rw [Function.update_self]
    exact MinimalDisruption.log_prefix_of_step hq
  · rw [Function.update_of_ne hne]

def MissesMate (publisher : P → RecordPublisher X) (m : UInt64) (x y : P) (w : Community X P) :
    Prop :=
  Mates (publisher x) (publisher y) ∧
    Misses (publisher x) (publisher y).pubKey m (w.processes x).log

/-- Who looks after its own put sees the record of a mate whose put was there before. -/
theorem missesOnlyDown_of_complete (hsign : SignsCorrectly X) (hencrypts : EncryptsCorrectly X)
    (w : Community X P) (op : P × Label X) (hcomplete : w.Complete publisher op)
    (h : Settled publisher minutes w) :
    MissesOnlyDown (Community.step publisher)
      (fun x w => HasPut (publisher x) m (w.processes x).log) (MissesMate publisher m) w op := by
  rintro w' hstep x y ⟨hmates, hmisses⟩
  obtain ⟨member, label⟩ := op
  obtain ⟨q, hq, rfl⟩ := Community.exists_of_step hstep
  by_cases hne : x = member
  · subst hne
    simp only [Function.update_self] at hmisses
    rcases misses_of_step hq hmisses with hold | ⟨hown, items, hitems, hnone⟩
    · exact .inl ⟨hmates, hold⟩
    refine .inr ⟨hown, ?_⟩
    rintro ⟨id, put, hput, record, hsigned, cached, answer, draw, hpublish⟩
    obtain ⟨hvalid, haddress⟩ := valid_of_publish hsign hencrypts hmates.symm.sharesSlots
      hmates.symm.otherKey hsigned hpublish
    have hitem := hcomplete (m, items) hitems put (h.stored y id put hput) haddress
    obtain ⟨found, hfound, hkey⟩ := exists_mem_recordsOf hitem hvalid
    exact hnone found hfound (hkey.trans hsigned.pubKey_eq)
  · simp only [Function.update_of_ne hne] at hmisses
    exact .inl ⟨hmates, hmisses⟩

theorem settled_of_run {ops : List (P × Label X)}
    (hrun : run (Community.step publisher) (Community.start publisher minutes) ops = some w) :
    Settled publisher minutes w :=
  run_preserves settled_of_step hrun settled_start

theorem MissesMate.of_run {x y : P} (h : MissesMate publisher m x y w) {ops : List (P × Label X)}
    (hrun : run (Community.step publisher) w ops = some w') : MissesMate publisher m x y w' := by
  refine run_preserves (P := MissesMate publisher m x y) ?_ hrun h
  rintro w op w' hstep ⟨hmates, records, after, hlooks, hnone⟩
  obtain ⟨events, hevents⟩ := Community.log_prefix_of_step hstep x
  exact ⟨hmates, records, after ++ events, hevents ▸ hlooks.append events, hnone⟩

theorem missesMate_of_not_throughout (hendpoints : HonestEndpoints X) {ops : List (P × Label X)}
    (hrun : run (Community.step publisher) (Community.start publisher minutes) ops = some w)
    {x y : P} (hmates : Mates (publisher x) (publisher y))
    (hnot : ¬ Throughout (Community.step publisher) (Finds publisher m x y)
      (Community.start publisher minutes) ops) : MissesMate publisher m x y w := by
  by_contra hfound
  refine hnot (throughout_of_reached ?_)
  rintro before after s rfl hbefore
  by_contra hlost
  have hmissed := misses_of_not_finds hendpoints (settled_of_run hbefore) hlost
  rw [run_append, hbefore] at hrun
  exact hfound (MissesMate.of_run ⟨hmates, hmissed⟩ hrun)

end Runs

section Sample

def emptyRecord (member : Bool) : Record :=
  Record.signContent reference (zeroBytes 32) 7
    ⟨flatten emptyContent.activePeers ++ flatten emptyContent.lastMessageHashes⟩
    (samplePublishers member).signingKey

def startupPuts (member : Bool) : List DhtPut :=
  match publishRecordCachedRecords (samplePublishers member) (emptyRecord member) none
      (.ready (.ok [])) zeroDraw with
  | .ok (some put) => [put]
  | _ => []

def itemsSeen (member : Bool) : List MutableItem :=
  (startupPuts false ++ if member then startupPuts true else []).map DhtPut.item

def untilReads (member : Bool) : List (Label reference) :=
  startupPut ++ [.loop (.tokenCancelled false), .loop (.isJoined (.ok false)),
    .loop (.minute 7), .loop (.records (.ready (.ok []))),
    .loop (.records (.ready (.ok (itemsSeen member))))]

/-- The first node reads the slot when its own put is the only one. The second one puts its
record after that, finds both and asks for the first. -/
def lookingRun : List (Bool × Label reference) :=
  let joining : List (Label reference) := [.loop (.isJoined (.ok false)),
    .loop (.visit [sampleEndpoint 1]), .loop (.joinPeers (.ok ())), .loop (.woke .slept),
    .loop (.isJoined (.ok false))]
  (untilReads false).map (Prod.mk false) ++ (untilReads true ++ joining).map (Prod.mk true)

theorem exists_lookingRun : ∃ w ∈ run (Community.step samplePublishers)
      (Community.start samplePublishers fun _ => 7) lookingRun,
    (currentIteration (w.processes false).log).asked = [] ∧
    ∀ member, (∃ put ∈ startupPuts member, .put 0 put ∈ (w.processes member).log.take 7) ∧
      (w.processes member).log[7]? = some (.read (.newer 1) 7
        (.ok (recordsOf (samplePublishers member) 7 (itemsSeen member)))) ∧
      (∀ event ∈ (w.processes member).log.drop 8, ¬ IsClock event) ∧
      pastJoining (w.processes member).loop.point = true ∧
      (currentIteration (w.processes member).log).stoppedEarly = false := by
  decide +kernel

theorem hasPut_of_mem {member : Bool} {put : DhtPut} (hput : put ∈ startupPuts member) {id : Nat}
    {log : List (Event reference)} (hmem : .put id put ∈ log) :
    HasPut (samplePublishers member) 7 log := by
  refine ⟨id, put, hmem, emptyRecord member, ?_, none, .ready (.ok []), zeroDraw, ?_⟩
  · cases member <;> exact ⟨_, rfl⟩
  · unfold startupPuts at hput
    split at hput
    · next hpublish =>
        rw [List.mem_singleton.mp hput]
        exact hpublish
    · cases hput

theorem looks_of_getElem? {rp : RecordPublisher X} {m : UInt64} {log : List (Event X)} {n : Nat}
    {reader : Reader} {records : Finset Record}
    (hread : log[n]? = some (.read reader m (.ok records))) (hreader : ByIteration reader)
    (hput : HasPut rp m (log.take n)) : Looks rp m log records (log.drop (n + 1)) := by
  obtain ⟨hlt, hget⟩ := List.getElem?_eq_some_iff.mp hread
  refine ⟨log.take n, reader, ?_, hreader, hput⟩
  rw [← hget, ← List.drop_eq_getElem_cons hlt, List.take_append_drop]

theorem mates_samplePublishers : Mates (samplePublishers false) (samplePublishers true) where
  sharesSlots := ⟨rfl, rfl, rfl⟩
  otherKey := by decide

end Sample

end TopicTracker.MutualDiscovery
