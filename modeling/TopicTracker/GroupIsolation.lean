import TopicTracker.EmittedRecords
import TopicTracker.CandidateCoverage
import TopicTracker.JoinCandidates
import TopicTracker.JoinFanOut
import TopicTracker.KeySeparation

namespace TopicTracker.GroupIsolation

open TopicTracker.Configuration
open TopicTracker.RustValues
open TopicTracker.ThirdParty
open TopicTracker.ReferenceExternals
open TopicTracker.RecordCodec
open TopicTracker.EncryptedRecordCodec
open TopicTracker.RecordRetrieval
open TopicTracker.RecordPublishing
open TopicTracker.BootstrapLoop
open TopicTracker.BootstrapTransition
open TopicTracker.BootstrapProcess
open TopicTracker.StepMachine
open TopicTracker.RecordAdvertising
open TopicTracker.EmittedRecords
open TopicTracker.MinimalDisruption
open TopicTracker.CandidateCoverage
open TopicTracker.MinuteSlots
open TopicTracker.PeerMerging
open TopicTracker.JoinCandidates
open TopicTracker.JoinFanOut (joinRequested)

variable {X : Externals} {P : Type}

/-- Two nodes that track one topic and encrypt the records of a minute alike. -/
structure InGroup (a b : RecordPublisher X) (unixMinute : UInt64) : Prop where
  topicId : a.topicId = b.topicId
  encryptionKey : a.encryptionKey unixMinute = b.encryptionKey unixMinute

/-- The node cannot open the item with its key of the minute. -/
def Opaque (rp : RecordPublisher X) (unixMinute : UInt64) (item : MutableItem) : Prop :=
  ∀ encryptedRecord record, EncryptedRecord.fromBytes item.value = .ok encryptedRecord →
    encryptedRecord.decrypt X (rp.encryptionKey unixMinute) ≠ .ok record

/-- What a node finds in an answer: something that a node has asked to put, in
whatever slot, or something it cannot open. -/
def Unforgeable (rp : RecordPublisher X) (emitted : List (Request P)) (unixMinute : UInt64)
    (item : MutableItem) : Prop :=
  (∃ request ∈ emitted, request.put.item.value = item.value) ∨ Opaque rp unixMinute item

/-- The record was asked for by a node of the reader's group, for the minute read. -/
def FromGroup (publisher : P → RecordPublisher X) (emitted : List (Request P))
    (reader : RecordPublisher X) (unixMinute : UInt64) (record : Record) : Prop :=
  record.unixMinute = unixMinute ∧ ∃ request ∈ emitted, request.record = record ∧
    InGroup (publisher request.member) reader unixMinute

variable {publisher : P → RecordPublisher X} {emitted : List (Request P)}
  {rp : RecordPublisher X} {unixMinute : UInt64}

theorem FromGroup.mono {emitted' : List (Request P)} {record : Record}
    (h : FromGroup publisher emitted rp unixMinute record) (hsub : emitted ⊆ emitted') :
    FromGroup publisher emitted' rp unixMinute record := by
  obtain ⟨hminute, request, hrequest, hrecord, hgroup⟩ := h
  exact ⟨hminute, request, hsub hrequest, hrecord, hgroup⟩

theorem key_eq_of_decrypt (hopens : OpensOnlyWithKey X) {record record' : Record}
    {draw : EncryptionDraw} {key key' : Bytes 32} {e : EncryptedRecord}
    (hencrypt : encrypt X record draw key = .ok e) (hdecrypt : e.decrypt X key' = .ok record') :
    key' = key := by
  obtain ⟨dataEnc, -, hencrypt⟩ := bind_eq_ok.mp hencrypt
  obtain ⟨keyEnc, hkeyEnc, hencrypt⟩ := bind_eq_ok.mp hencrypt
  obtain rfl := Except.ok.inj hencrypt
  obtain ⟨opened, hopened, -⟩ := bind_eq_ok.mp hdecrypt
  cases hsealed : X.hpkeEncrypt (X.verifyingKey key) draw.keyEntropy draw.oneTimeKey.toList with
  | error fault =>
      rw [hsealed] at hkeyEnc
      cases hkeyEnc
  | ok sealed =>
      rw [hsealed] at hkeyEnc
      obtain rfl := Except.ok.inj hkeyEnc
      exact hopens key key' _ _ _ _ hsealed hopened

theorem fromGroup_of_valid (hencrypts : EncryptsCorrectly X) (hopens : OpensOnlyWithKey X)
    {item : MutableItem} {record : Record} (hvalid : rp.Valid unixMinute item record)
    {request : Request P} (hrequest : request ∈ emitted) (hgenuine : request.Genuine publisher)
    (hvalue : request.put.item.value = item.value) :
    FromGroup publisher emitted rp unixMinute record := by
  obtain ⟨e, hparse, hdecrypt, hverify, -⟩ := hvalid
  obtain ⟨cached, answer, draw, hput⟩ := hgenuine.put
  obtain ⟨-, -, -, e', hencrypt, hbytes, -, -⟩ := publish_eq_some_iff.mp hput
  obtain ⟨hparse', hdecrypt'⟩ := decrypt_fromBytes_of_encrypt hencrypts hencrypt hbytes
  obtain rfl : e' = e := by
    rw [hvalue] at hparse'
    exact Except.ok.inj (hparse'.symm.trans hparse)
  have hkey := key_eq_of_decrypt hopens hencrypt hdecrypt
  obtain rfl : request.record = record := by
    rw [hkey] at hdecrypt
    exact Except.ok.inj (hdecrypt'.symm.trans hdecrypt)
  obtain ⟨htopic, hminute, -, -⟩ := (verify_eq_ok_iff X request.record _ _).mp hverify
  obtain ⟨content, hsigned⟩ := hgenuine.own
  have hown : request.record.topic = (publisher request.member).topicId.hash := by
    rw [hsigned]
    rfl
  refine ⟨hminute, request, hrequest, rfl, ?_, ?_⟩
  · exact KeySeparation.topicId_hash_inj.mp (hown.symm.trans htopic)
  · rw [← hminute, ← hkey, hminute]

theorem fromGroup_of_mem_recordsOf (hencrypts : EncryptsCorrectly X)
    (hopens : OpensOnlyWithKey X) (hgenuine : ∀ request ∈ emitted, request.Genuine publisher)
    {items : List MutableItem}
    (hitems : ∀ item ∈ items, Unforgeable rp emitted unixMinute item) :
    ∀ record ∈ recordsOf rp unixMinute items,
      FromGroup publisher emitted rp unixMinute record := by
  intro record hrecord
  obtain ⟨item, hitem, hvalid⟩ := (mem_recordsOf_iff.mp hrecord).valid
  rcases hitems item hitem with ⟨request, hrequest, hvalue⟩ | hclosed
  · exact fromGroup_of_valid hencrypts hopens hvalid hrequest (hgenuine request hrequest) hvalue
  · obtain ⟨e, hparse, hdecrypt, -, -⟩ := hvalid
    exact absurd hdecrypt (hclosed e record hparse)

/-- The bootstrap processes of all nodes, and what the nodes have asked to put. -/
structure Swarm (X : Externals) (P : Type) where
  processes : P → Process X
  emitted : List (Request P)

inductive SwarmOp (X : Externals) (P : Type)
  | process (member : P) (label : Label X)
  | publisher (member : P) (tick : PublishTick X)

def requestedPut (member : P) (q : Process X) : Label X → Option (Request P)
  | .loop _ => none
  | .publish id _ => q.publishes[id]?.bind fun publish =>
      match publish.task.stage with
      | .putting put => some ⟨member, publish.task.record, put⟩
      | _ => none

/-- The minute whose slot a step reads, and the items in the answer. -/
def answered (p : Process X) : Label X → Option (UInt64 × List MutableItem)
  | .loop (.records (.ready (.ok items))) =>
      match p.loop.point with
      | .fetchOlder w => some (w.older, items)
      | .fetchNewer w _ => some (w.newer, items)
      | _ => none
  | .publish id (.read (.ready (.ok items)) _) =>
      p.publishes[id]?.map fun publish => (publish.task.record.unixMinute, items)
  | _ => none

namespace Swarm

variable [DecidableEq P]

def start (publisher : P → RecordPublisher X) (minutes : P → UInt64) : Swarm X P where
  processes member :=
    Process.start (publisher member).config.bootstrapConfig (publisher member) (minutes member)
  emitted := []

def step (publisher : P → RecordPublisher X) (w : Swarm X P) : SwarmOp X P → Option (Swarm X P)
  | .process member label =>
      ((w.processes member).step (publisher member).config.bootstrapConfig (publisher member)
        label).map fun process =>
          { processes := Function.update w.processes member process
            emitted := w.emitted ++ (requestedPut member process label).toList }
  | .publisher member tick =>
      match publishRequest publisher member tick with
      | .ok (some request) => some { w with emitted := w.emitted ++ [request] }
      | _ => some w

/-- The DHT may answer with anything but items that open for the reader although nobody
has asked to put them. -/
def HonestAnswers (publisher : P → RecordPublisher X) (w : Swarm X P) : SwarmOp X P → Prop
  | .process member label => ∀ m items, answered (w.processes member) label = some (m, items) →
      ∀ item ∈ items, Unforgeable (publisher member) w.emitted m item
  | .publisher _ _ => True

end Swarm

section Reads

variable {cfg : BootstrapConfig} {l l' : Loop X} {p q : Process X}

theorem exists_items_of_getRecords {m : UInt64} {answer : Awaited (List MutableItem)}
    {records : Finset Record} (h : rp.getRecords m answer = .ok records) :
    ∃ items, answer = .ready (.ok items) ∧ records = recordsOf rp m items := by
  obtain ⟨items, hanswer, hrecords⟩ := getRecords_eq_ok_iff.mp h
  exact ⟨items, hanswer, hrecords.symm⟩

theorem not_read_publishIfDue (l : Loop X) (w : Window) (current : Finset Record)
    (reader : Reader) (m : UInt64) (result : Result (Finset Record)) :
    .read reader m result ∉ (Loop.publishIfDue rp l w current).2 := by
  intro hmem
  obtain ⟨content, hcontent⟩ := mem_publishIfDue hmem
  cases hcontent

theorem read_of_transition {input : Input X} {events : List (Event X)}
    (h : Transition cfg rp p.loop input l' events) {reader : Reader} {m : UInt64}
    {records : Finset Record} (hread : .read reader m (.ok records) ∈ events) :
    ∃ items, answered p (.loop input) = some (m, items) ∧ records = recordsOf rp m items := by
  cases h with
  | readOlder w answer hpoint =>
      obtain ⟨-, rfl, hrecords⟩ := Event.read.inj (List.mem_singleton.mp hread)
      obtain ⟨items, rfl, rfl⟩ := exists_items_of_getRecords hrecords.symm
      exact ⟨items, by simp [answered, hpoint], rfl⟩
  | noRecords w answer hpoint hnone =>
      rcases List.mem_cons.mp hread with heq | hmem
      · obtain ⟨-, rfl, hrecords⟩ := Event.read.inj heq
        obtain ⟨items, rfl, rfl⟩ := exists_items_of_getRecords hrecords.symm
        exact ⟨items, by simp [answered, hpoint], rfl⟩
      · exact absurd hmem (not_read_publishIfDue _ _ _ _ _ _)
  | collected w older answer hpoint =>
      obtain ⟨-, rfl, hrecords⟩ := Event.read.inj (List.mem_singleton.mp hread)
      obtain ⟨items, rfl, rfl⟩ := exists_items_of_getRecords hrecords.symm
      exact ⟨items, by simp [answered, hpoint], rfl⟩
  | notJoined w current hpoint =>
      rcases List.mem_cons.mp hread with heq | hmem
      · cases heq
      · exact absurd hmem (not_read_publishIfDue _ _ _ _ _ _)
  | moved input next events hpoint hnext hquiet => exact (hquiet _ hread).elim
  | interrupted input events hpoint hinput hquiet =>
      rcases List.mem_append.mp hread with hmem | hmem
      · exact (hquiet _ hmem).elim
      · simp [Loop.exit] at hmem
  | _ => simp at hread

theorem read_of_publish {id : Nat} {input : PublishInput} {publish : Publish}
    (hget : p.publishes[id]? = some publish) {reader : Reader} {m : UInt64}
    {records : Finset Record}
    (hread : .read reader m (.ok records) ∈ publishEvents rp id publish.task input) :
    ∃ items, answered p (.publish id input) = some (m, items) ∧
      records = recordsOf rp m items := by
  rcases mem_publishEvents hread with ⟨answer, draw, rfl, -, -, heq⟩ | ⟨put, -, -, heq⟩
  · obtain ⟨-, rfl, hrecords⟩ := Event.read.inj heq
    obtain ⟨items, rfl, rfl⟩ := exists_items_of_getRecords hrecords.symm
    exact ⟨items, by simp [answered, hget], rfl⟩
  · cases heq

theorem read_of_step {label : Label X} (hstep : p.step cfg rp label = some q) {reader : Reader}
    {m : UInt64} {records : Finset Record} (hread : .read reader m (.ok records) ∈ q.log) :
    .read reader m (.ok records) ∈ p.log ∨
      ∃ items, answered p label = some (m, items) ∧ records = recordsOf rp m items := by
  cases label with
  | loop input =>
      obtain ⟨loop, events, hloop, rfl⟩ := exists_of_step_loop hstep
      rcases List.mem_append.mp hread with hold | hnew
      · exact .inl hold
      · exact .inr (read_of_transition (step_transition hloop) hnew)
  | publish id input =>
      obtain ⟨publish, task, hget, -, rfl⟩ := exists_of_step_publish hstep
      rcases List.mem_append.mp hread with hold | hnew
      · exact .inl hold
      · exact .inr (read_of_publish hget hnew)

theorem genuine_of_requestedPut {member : P} {minute : UInt64} {request : Request P}
    {label : Label X} (hq : Reachable cfg (publisher member) minute q)
    (h : requestedPut member q label = some request) : request.Genuine publisher := by
  cases label with
  | loop input => cases h
  | publish id input =>
      obtain ⟨publish, hget, h⟩ := Option.bind_eq_some_iff.mp h
      split at h
      · next put hstage =>
          obtain rfl := Option.some.inj h
          have hemits := emits_of_reachable hq
          obtain ⟨hchecked, iteration, cached, hinitiated⟩ :=
            hemits.publishes publish (List.mem_of_getElem? hget)
          obtain ⟨m, -, hempty⟩ := hemits.initiated iteration _ cached hinitiated
          obtain ⟨answer, draw, hput⟩ := hchecked put hstage
          exact ⟨hempty.own.unixMinute_eq.symm ▸ hempty.own, _, answer, draw, hput⟩
      · cases h

end Reads

section Merges

structure HonestTick (overflowChecks : Bool) (rp : RecordPublisher X) (emitted : List (Request P))
    (tick : Tick X) : Prop where
  older : ∀ slots items, mergeSlots overflowChecks tick.unixMinute = .ok slots →
    tick.older = .ready (.ok items) → ∀ item ∈ items, Unforgeable rp emitted slots.1 item
  newer : ∀ slots items, mergeSlots overflowChecks tick.unixMinute = .ok slots →
    tick.newer = .ready (.ok items) → ∀ item ∈ items, Unforgeable rp emitted slots.2 item

def Recent (overflowChecks : Bool) (tick : Tick X) (record : Record) : Prop :=
  ∃ slots, mergeSlots overflowChecks tick.unixMinute = .ok slots ∧
    (record.unixMinute = slots.1 ∨ record.unixMinute = slots.2)

def NamedInGroup (overflowChecks : Bool) (publisher : P → RecordPublisher X)
    (emitted : List (Request P)) (rp : RecordPublisher X) (tick : Tick X) (peer : EndpointId X) :
    Prop :=
  ∃ request ∈ emitted, InGroup (publisher request.member) rp request.record.unixMinute ∧
    Recent overflowChecks tick request.record ∧ Names X request.record peer.bytes

variable {overflowChecks : Bool} {tick : Tick X} {records : Finset Record}

theorem fromGroup_of_fetchRecords (hencrypts : EncryptsCorrectly X)
    (hopens : OpensOnlyWithKey X) (hgenuine : ∀ request ∈ emitted, request.Genuine publisher)
    (htick : HonestTick overflowChecks rp emitted tick)
    (hrecords : fetchRecords overflowChecks rp tick = .ok records) :
    ∀ record ∈ records, Recent overflowChecks tick record ∧
      FromGroup publisher emitted rp record.unixMinute record := by
  obtain ⟨slots, hslots, hrecords⟩ := bind_eq_ok.mp hrecords
  obtain ⟨older, holder, hrecords⟩ := bind_eq_ok.mp hrecords
  obtain ⟨newer, hnewer, hrecords⟩ := bind_eq_ok.mp hrecords
  obtain rfl := Except.ok.inj hrecords
  obtain ⟨olderItems, holderItems, rfl⟩ := exists_items_of_getRecords holder
  obtain ⟨newerItems, hnewerItems, rfl⟩ := exists_items_of_getRecords hnewer
  intro record hrecord
  rcases Finset.mem_union.mp hrecord with hmem | hmem
  · have hfrom := fromGroup_of_mem_recordsOf hencrypts hopens hgenuine
      (htick.older slots olderItems hslots holderItems) record hmem
    exact ⟨⟨slots, hslots, .inl hfrom.1⟩, hfrom.1.symm ▸ hfrom⟩
  · have hfrom := fromGroup_of_mem_recordsOf hencrypts hopens hgenuine
      (htick.newer slots newerItems hslots hnewerItems) record hmem
    exact ⟨⟨slots, hslots, .inr hfrom.1⟩, hfrom.1.symm ▸ hfrom⟩

theorem namedInGroup_of_joinable {peer : EndpointId X}
    (hrecords : ∀ record ∈ records, Recent overflowChecks tick record ∧
      FromGroup publisher emitted rp record.unixMinute record)
    (h : peer ∈ Joinable rp records) :
    NamedInGroup overflowChecks publisher emitted rp tick peer := by
  obtain ⟨-, record, hrecord, hnames⟩ := h
  obtain ⟨hrecent, -, request, hrequest, rfl, hgroup⟩ := hrecords record hrecord
  exact ⟨request, hrequest, hgroup, hrecent, hnames⟩

end Merges

section Runs

variable {minutes : P → UInt64} {w w' : Swarm X P} {overflowChecks : Bool}

structure Isolated (publisher : P → RecordPublisher X) (minutes : P → UInt64) (w : Swarm X P) :
    Prop where
  reachable : ∀ member, Reachable (publisher member).config.bootstrapConfig (publisher member)
    (minutes member) (w.processes member)
  genuine : ∀ request ∈ w.emitted, request.Genuine publisher
  reads : ∀ member reader m records, .read reader m (.ok records) ∈ (w.processes member).log →
    ∀ record ∈ records, FromGroup publisher w.emitted (publisher member) m record

theorem isolated_start : Isolated publisher minutes (Swarm.start publisher minutes) where
  reachable _ := ⟨[], rfl⟩
  genuine _ hrequest := by cases hrequest
  reads member reader m records hread := by
    rcases mem_startupEvents hread with heq | ⟨content, heq⟩
    · cases heq
    · cases heq

variable [DecidableEq P]

theorem isolated_of_process (hencrypts : EncryptsCorrectly X) (hopens : OpensOnlyWithKey X)
    (h : Isolated publisher minutes w) {member : P} {label : Label X}
    (hanswers : w.HonestAnswers publisher (.process member label))
    (hstep : w.step publisher (.process member label) = some w') :
    Isolated publisher minutes w' := by
  obtain ⟨q, hq, rfl⟩ := Option.map_eq_some_iff.mp hstep
  have hreach := reachable_of_step (h.reachable member) hq
  have hsub : w.emitted ⊆ w.emitted ++ (requestedPut member q label).toList :=
    List.subset_append_left _ _
  refine ⟨?_, ?_, ?_⟩
  · intro other
    show Reachable _ _ _ (Function.update w.processes member q other)
    by_cases hne : other = member
    · subst hne
      rw [Function.update_self]
      exact hreach
    · rw [Function.update_of_ne hne]
      exact h.reachable other
  · intro request hrequest
    rcases List.mem_append.mp hrequest with hold | hnew
    · exact h.genuine request hold
    · exact genuine_of_requestedPut hreach (Option.mem_toList.mp hnew)
  · intro other reader m records hread record hrecord
    change .read reader m (.ok records) ∈ (Function.update w.processes member q other).log at hread
    by_cases hne : other = member
    · subst hne
      rw [Function.update_self] at hread
      rcases read_of_step hq hread with hold | ⟨items, hitems, rfl⟩
      · exact (h.reads other reader m records hold record hrecord).mono hsub
      · exact (fromGroup_of_mem_recordsOf hencrypts hopens h.genuine (hanswers m items hitems)
          record hrecord).mono hsub
    · rw [Function.update_of_ne hne] at hread
      exact (h.reads other reader m records hread record hrecord).mono hsub

theorem isolated_of_step (hencrypts : EncryptsCorrectly X) (hopens : OpensOnlyWithKey X)
    (w : Swarm X P) (op : SwarmOp X P) (w' : Swarm X P) (hstep : w.step publisher op = some w')
    (hanswers : w.HonestAnswers publisher op) (h : Isolated publisher minutes w) :
    Isolated publisher minutes w' := by
  cases op with
  | process member label => exact isolated_of_process hencrypts hopens h hanswers hstep
  | publisher member tick =>
      simp only [Swarm.step] at hstep
      split at hstep
      · next request hrequest =>
          obtain rfl := Option.some.inj hstep
          refine ⟨h.reachable, ?_, fun other reader m records hread record hrecord =>
            (h.reads other reader m records hread record hrecord).mono
              (List.subset_append_left _ _)⟩
          intro other hother
          rcases List.mem_append.mp hother with hold | hnew
          · exact h.genuine other hold
          · rw [List.mem_singleton.mp hnew]
            exact genuine_of_publishRequest hrequest
      · obtain rfl := Option.some.inj hstep
        exact h

theorem isolated_of_run (hencrypts : EncryptsCorrectly X) (hopens : OpensOnlyWithKey X)
    {ops : List (SwarmOp X P)}
    (hrun : run (Swarm.step publisher) (Swarm.start publisher minutes) ops = some w)
    (hanswers : AllSteps (Swarm.step publisher) (Swarm.HonestAnswers publisher)
      (Swarm.start publisher minutes) ops) : Isolated publisher minutes w :=
  run_preserves_of_allSteps (P := Isolated publisher minutes)
    (isolated_of_step hencrypts hopens) hanswers hrun isolated_start

def GroupRequest (publisher : P → RecordPublisher X) (emitted : List (Request P))
    (rp : RecordPublisher X) (before : List (Event X)) (peers : List (EndpointId X)) : Prop :=
  ∃ peer, peers = [peer] ∧ ∃ request ∈ emitted,
    InGroup (publisher request.member) rp request.record.unixMinute ∧
      Fresh rp (currentIteration before).minute request.record ∧
      peer.bytes ∈ candidateKeys rp request.record

/-- Nodes of many topics and secrets share a DHT that drops, repeats and moves items as it
likes. Whatever order they run in, every record a node reads was asked for by a node of
its own topic and secret, and every peer that its bootstrap loop asks for is named in such
a record of the last three minutes. -/
theorem swarm_isolated (hencrypts : EncryptsCorrectly X) (hopens : OpensOnlyWithKey X)
    {ops : List (SwarmOp X P)}
    (hrun : run (Swarm.step publisher) (Swarm.start publisher minutes) ops = some w)
    (hanswers : AllSteps (Swarm.step publisher) (Swarm.HonestAnswers publisher)
      (Swarm.start publisher minutes) ops) (member : P) :
    (∀ reader m records, .read reader m (.ok records) ∈ (w.processes member).log →
      ∀ record ∈ records, FromGroup publisher w.emitted (publisher member) m record) ∧
    Requests (GroupRequest publisher w.emitted (publisher member)) (w.processes member).log := by
  have hisolated := isolated_of_run hencrypts hopens hrun hanswers
  refine ⟨hisolated.reads member, ?_⟩
  intro before peers hwithin
  obtain ⟨peer, rfl, record, hrecord, hfresh, hkey⟩ :=
    justified_of_reachable (hisolated.reachable member) before peers hwithin
  obtain ⟨reader, m, records, hread, hmem⟩ := exists_read_of_mem_records hrecord
  have hlog := hwithin.subset (List.mem_append_left _ hread)
  obtain ⟨hminute, request, hrequest, rfl, hgroup⟩ :=
    hisolated.reads member reader m records hlog record hmem
  exact ⟨peer, rfl, request, hrequest, hminute ▸ hgroup, hfresh, hkey⟩

section Sample

/-- The DHT answers with nothing but what nodes have asked to put. -/
def RepeatsPuts (w : Swarm X P) : SwarmOp X P → Prop
  | .process member label => ∀ answer ∈ (answered (w.processes member) label).toList,
      ∀ item ∈ answer.2, ∃ request ∈ w.emitted, request.put.item.value = item.value
  | .publisher _ _ => True

instance (w : Swarm X P) : ∀ op : SwarmOp X P, Decidable (RepeatsPuts w op)
  | .process member label => inferInstanceAs (Decidable (∀ answer ∈
      (answered (w.processes member) label).toList, ∀ item ∈ answer.2,
        ∃ request ∈ w.emitted, request.put.item.value = item.value))
  | .publisher _ _ => inferInstanceAs (Decidable True)

/-- Two nodes of one group, a node with another secret and a node of another topic. -/
inductive SampleMember
  | peer
  | reader
  | otherSecret
  | otherTopic
deriving DecidableEq

def sampleSwarm : SampleMember → RecordPublisher reference
  | .peer => samplePublisher 1 {}
  | .reader => samplePublisher 2 {}
  | .otherSecret => .new reference ⟨zeroBytes 32⟩ (List.Vector.replicate 32 3) none [1] {}
  | .otherTopic =>
      .new reference ⟨List.Vector.replicate 32 9⟩ (List.Vector.replicate 32 4) none [] {}

def startupPublishes : List (SwarmOp reference SampleMember) :=
  [.peer, .otherSecret, .otherTopic].map fun member =>
    .process member (.publish 0 (.read (.ready (.ok [])) zeroDraw))

def startupItems : List MutableItem :=
  match run (Swarm.step sampleSwarm) (Swarm.start sampleSwarm fun _ => 7) startupPublishes with
  | some w => w.emitted.map fun request => request.put.item
  | none => []

/-- The reader gets all three records in one answer and asks for its peer alone. -/
def findingRun : List (SwarmOp reference SampleMember) :=
  startupPublishes ++ [.loop (.tokenCancelled false), .loop (.isJoined (.ok false)),
    .loop (.minute 7), .loop (.records (.ready (.ok []))),
    .loop (.records (.ready (.ok startupItems))), .loop (.isJoined (.ok false)),
    .loop (.visit [sampleEndpoint 1])].map (.process .reader)

theorem exists_findingRun : ∃ w ∈ run (Swarm.step sampleSwarm)
      (Swarm.start sampleSwarm fun _ => 7) findingRun,
    (w.processes .reader).log.filterMap joinRequested = [[sampleEndpoint 1]] ∧
      w.emitted.map (fun request => request.member) = [.peer, .otherSecret, .otherTopic] ∧
      w.emitted.map (fun request => request.put.item) = startupItems ∧
      ∃ request ∈ w.emitted, request.member = .peer ∧ request.record.unixMinute = 7 := by
  decide +kernel

theorem honestAnswers_findingRun : AllSteps (Swarm.step sampleSwarm)
    (Swarm.HonestAnswers sampleSwarm) (Swarm.start sampleSwarm fun _ => 7) findingRun := by
  have hrepeats : AllSteps (Swarm.step sampleSwarm) RepeatsPuts
      (Swarm.start sampleSwarm fun _ => 7) findingRun := by
    decide +kernel
  refine AllSteps.imp (P := fun _ => True) (fun _ _ _ _ _ _ => trivial) ?_ hrepeats trivial
  intro w op hop _
  cases op with
  | process member label =>
      intro m items hitems item hitem
      exact .inl (hop (m, items) (Option.mem_toList.mpr hitems) item hitem)
  | publisher member tick => trivial

end Sample

theorem swarm_isolated_findingRun : ∃ w ∈ run (Swarm.step sampleSwarm)
      (Swarm.start sampleSwarm fun _ => 7) findingRun,
    w.emitted.map (fun request => request.member) = [.peer, .otherSecret, .otherTopic] ∧
    ∃ before, before ++ [.joinRequested [sampleEndpoint 1]] <+: (w.processes .reader).log ∧
      GroupRequest sampleSwarm w.emitted (sampleSwarm .reader) before [sampleEndpoint 1] := by
  obtain ⟨w, hw, hasked, hmembers, -⟩ := exists_findingRun
  obtain ⟨before, hwithin⟩ :=
    exists_before_of_joinRequested (hasked ▸ List.mem_singleton_self _)
  have hisolated := swarm_isolated reference_encryptsCorrectly reference_opensOnlyWithKey hw
    honestAnswers_findingRun .reader
  exact ⟨w, hw, hmembers, before, hwithin, hisolated.2 before _ hwithin⟩

/-- The merges of a member ask for peers that its own group names, in a record of the
tick's minute or the one before. -/
theorem merges_isolated (hencrypts : EncryptsCorrectly X) (hopens : OpensOnlyWithKey X)
    {ops : List (SwarmOp X P)}
    (hrun : run (Swarm.step publisher) (Swarm.start publisher minutes) ops = some w)
    (hanswers : AllSteps (Swarm.step publisher) (Swarm.HonestAnswers publisher)
      (Swarm.start publisher minutes) ops) {member : P} {tick : Tick X}
    (htick : HonestTick overflowChecks (publisher member) w.emitted tick) :
    (∀ self : BubbleMergeActor X, self.recordPublisher = publisher member →
      ∀ peers ∈ (self.merge overflowChecks tick).1, ∀ peer ∈ peers,
        NamedInGroup overflowChecks publisher w.emitted (publisher member) tick peer) ∧
    ∀ self : MessageOverlapMergeActor X, self.recordPublisher = publisher member →
      ∀ peers ∈ (self.merge overflowChecks tick).1, ∀ peer ∈ peers,
        NamedInGroup overflowChecks publisher w.emitted (publisher member) tick peer := by
  have hgenuine := (isolated_of_run hencrypts hopens hrun hanswers).genuine
  constructor
  · intro self hself peers hpeers peer hpeer
    obtain ⟨records, neighbors, hrecords, -, -, hjoinable⟩ := asksOthers_of_bubble hpeers
    rw [hself] at hrecords hjoinable
    exact namedInGroup_of_joinable
      (fromGroup_of_fetchRecords hencrypts hopens hgenuine htick hrecords) (hjoinable peer hpeer).1
  · intro self hself peers hpeers peer hpeer
    obtain ⟨records, neighbors, hrecords, -, -, hjoinable⟩ := asksOthers_of_overlap hpeers
    rw [hself] at hrecords hjoinable
    exact namedInGroup_of_joinable
      (fromGroup_of_fetchRecords hencrypts hopens hgenuine htick hrecords) (hjoinable peer hpeer).1

theorem merges_isolated_findingRun : ∃ w ∈ run (Swarm.step sampleSwarm)
      (Swarm.start sampleSwarm fun _ => 7) findingRun,
    w.emitted.map (fun request => request.member) = [.peer, .otherSecret, .otherTopic] ∧
    ∃ peers ∈ ((sampleBubbleMerge {}).merge true (sampleTick startupItems)).1, peers ≠ [] ∧
      ∀ peer ∈ peers, NamedInGroup true sampleSwarm w.emitted (sampleSwarm .reader)
        (sampleTick startupItems) peer := by
  obtain ⟨w, hw, -, hmembers, hitems, request, hrequest, hpeer, hminute⟩ := exists_findingRun
  have hgenuine := (isolated_of_run reference_encryptsCorrectly reference_opensOnlyWithKey hw
    honestAnswers_findingRun).genuine
  generalize startupItems = items at hitems ⊢
  have hne : (sampleSwarm .peer).pubKey ≠ (samplePublisher 2 {}).pubKey := by decide
  -- The put makes the reader's peer a candidate.
  have hitem : request.put.item ∈ items := hitems ▸ List.mem_map_of_mem hrequest
  have hshares : SharesSlots (sampleSwarm request.member) (samplePublisher 2 {}) :=
    hpeer ▸ ⟨rfl, rfl, rfl⟩
  have hvalid := (hgenuine request hrequest).valid reference_signsCorrectly
    reference_encryptsCorrectly hshares (hpeer ▸ hne)
  rw [hminute] at hvalid
  obtain ⟨node, hnode, -⟩ := exists_sample_candidate (sampleBubbleMerge {}) hitem hvalid.1
  have hfew : (∅ : Finset (EndpointId reference)).card < (sampleBubbleMerge {}).minNeighbors := by
    decide
  have hrecords : fetchRecords true (sampleBubbleMerge {}).recordPublisher (sampleTick items) =
      .ok (sampleRecords (sampleBubbleMerge {}).recordPublisher items) :=
    fetchRecords_sampleTick _ items
  obtain ⟨peers, hpeers, hsample⟩ :=
    (bubble_requests hrecords rfl hfew).nonempty (Finset.ne_empty_of_mem hnode)
  have hmem : peers ∈ ((sampleBubbleMerge {}).merge true (sampleTick items)).1 := by
    rw [hpeers]
    exact List.mem_singleton_self peers
  have htick : HonestTick true (sampleSwarm .reader) w.emitted (sampleTick items) := by
    constructor
    · rintro slots answer - hanswer item hitem
      cases hanswer
      cases hitem
    · rintro slots answer hslots hanswer item hitem
      cases hslots
      cases hanswer
      rw [← hitems] at hitem
      obtain ⟨request, hrequest, rfl⟩ := List.mem_map.mp hitem
      exact .inl ⟨request, hrequest, rfl⟩
  refine ⟨w, hw, hmembers, peers, hmem, ?_, (merges_isolated reference_encryptsCorrectly
    reference_opensOnlyWithKey hw honestAnswers_findingRun htick).1 (sampleBubbleMerge {}) rfl
      peers hmem⟩
  rintro rfl
  have hcard := Finset.card_pos.mpr ⟨node, hnode⟩
  have hlength : 0 = min 2 _ := hsample.length
  omega

end Runs

end TopicTracker.GroupIsolation
