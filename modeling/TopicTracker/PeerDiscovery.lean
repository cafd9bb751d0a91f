import TopicTracker.BootstrapProcess

namespace TopicTracker.PeerDiscovery

open TopicTracker.Configuration
open TopicTracker.RustValues
open TopicTracker.ThirdParty
open TopicTracker.ReferenceExternals
open TopicTracker.RecordCodec
open TopicTracker.EncryptedRecordCodec
open TopicTracker.RecordRetrieval
open TopicTracker.RecordPublishing
open TopicTracker.BootstrapLoop
open TopicTracker.BootstrapTransition
open TopicTracker.BootstrapProcess
open TopicTracker.StepMachine

/-- The DHT, the publishes of `a`, the records whose put has completed and the
bootstrap process of `b`. -/
structure World (X : Externals) where
  dht : SlotAddress → List MutableItem
  publishes : List PublishTask
  completed : List Record
  process : Process X

/-- `a` calls publish with a record of its own, a publish of `a` goes on, anyone
else, `b` included, stores an item, or the process of `b` goes on. -/
inductive WorldLabel (X : Externals)
  | call (unixMinute : UInt64) (content : RecordContent) (cached : Option (Finset Record))
  | publish (id : Nat) (input : PublishInput)
  | store (put : DhtPut)
  | process (label : Label X)

variable {X : Externals}

def storeItem (dht : SlotAddress → List MutableItem) (put : DhtPut) :
    SlotAddress → List MutableItem :=
  Function.update dht put.address (dht put.address ++ [put.item])

namespace World

def start (cfg : BootstrapConfig) (b : RecordPublisher X)
    (dht : SlotAddress → List MutableItem) (unixMinute : UInt64) : World X where
  dht := dht
  publishes := []
  completed := []
  process := Process.start cfg b unixMinute

def complete (w : World X) (record : Record) : Option DhtPut → World X
  | some put => { w with dht := storeItem w.dht put, completed := w.completed ++ [record] }
  | none => w

def step (cfg : BootstrapConfig) (a b : RecordPublisher X) (w : World X) :
    WorldLabel X → Option (World X)
  | .call unixMinute content cached =>
      let record := Record.signContent X a.topicId.hash unixMinute content a.signingKey
      some { w with publishes := w.publishes ++ [{ record, cachedRecords := cached }] }
  | .publish id input => do
      let task ← w.publishes[id]?
      let task' ← task.step a input
      some { w.complete task.record (task.storedPut input) with
        publishes := w.publishes.set id task' }
  | .store put => some { w with dht := storeItem w.dht put }
  | .process label => do
      let process ← w.process.step cfg b label
      some { w with process := process }

end World

variable {cfg : BootstrapConfig} {a b : RecordPublisher X} {w w' : World X}

theorem mem_storeItem {dht : SlotAddress → List MutableItem} {put : DhtPut}
    {address : SlotAddress} {item : MutableItem} (h : item ∈ dht address) :
    item ∈ storeItem dht put address := by
  unfold storeItem
  rcases eq_or_ne address put.address with rfl | hne
  · rw [Function.update_self]
    exact List.mem_append_left _ h
  · rwa [Function.update_of_ne hne]

theorem put_mem_storeItem (dht : SlotAddress → List MutableItem) (put : DhtPut) :
    put.item ∈ storeItem dht put put.address := by
  simp [storeItem]

/-- The item under which a record of `a` is found by `b`. -/
def Findable (a b : RecordPublisher X) (dht : SlotAddress → List MutableItem)
    (record : Record) : Prop :=
  record.pubKey = a.pubKey ∧ ∃ item ∈ dht (b.slotAddress record.unixMinute),
    b.Valid record.unixMinute item record

structure Published (a b : RecordPublisher X) (w : World X) : Prop where
  own : ∀ task ∈ w.publishes, OwnRecord a task.record.unixMinute task.record
  checked : ∀ task ∈ w.publishes, task.Checked a
  found : ∀ record ∈ w.completed, Findable a b w.dht record

theorem findable_of_put (hsign : SignsCorrectly X) (hencrypts : EncryptsCorrectly X)
    (hshares : SharesSlots a b) (hne : a.pubKey ≠ b.pubKey) {record : Record}
    {cached : Option (Finset Record)} {answer : Awaited (List MutableItem)}
    {draw : EncryptionDraw} {put : DhtPut} {dht : SlotAddress → List MutableItem}
    (hown : OwnRecord a record.unixMinute record)
    (hput : publishRecordCachedRecords a record cached answer draw = .ok (some put)) :
    Findable a b (storeItem dht put) record := by
  obtain ⟨hvalid, haddress⟩ := valid_of_publish hsign hencrypts hshares hne hown hput
  refine ⟨hown.pubKey_eq, put.item, ?_, hvalid⟩
  rw [← haddress]
  exact put_mem_storeItem dht put

theorem Findable.store {dht : SlotAddress → List MutableItem} {record : Record}
    (h : Findable a b dht record) (put : DhtPut) :
    Findable a b (storeItem dht put) record := by
  rcases h with ⟨hkey, item, hitem, hvalid⟩
  exact ⟨hkey, item, mem_storeItem hitem, hvalid⟩

theorem Published.set (h : Published a b w) {id : Nat} {task task' : PublishTask}
    {input : PublishInput} (hget : w.publishes[id]? = some task)
    (hstep : task.step a input = some task') :
    ∀ other ∈ w.publishes.set id task',
      OwnRecord a other.record.unixMinute other.record ∧ other.Checked a := by
  intro other hother
  rcases List.mem_or_eq_of_mem_set hother with hother | rfl
  · exact ⟨h.own other hother, h.checked other hother⟩
  · refine ⟨?_, PublishTask.checked_of_step hstep⟩
    rw [(PublishTask.step_keeps hstep).1]
    exact h.own task (List.mem_of_getElem? hget)

theorem World.exists_of_step_publish {id : Nat} {input : PublishInput}
    (h : World.step cfg a b w (.publish id input) = some w') :
    ∃ task task', w.publishes[id]? = some task ∧ task.step a input = some task' ∧
      w' = { w.complete task.record (task.storedPut input) with
        publishes := w.publishes.set id task' } := by
  simp only [World.step, Option.bind_eq_bind, Option.bind_eq_some_iff,
    Option.some.injEq] at h
  rcases h with ⟨task, hget, task', htask, rfl⟩
  exact ⟨task, task', hget, htask, rfl⟩

theorem World.exists_of_step_process {label : Label X}
    (h : World.step cfg a b w (.process label) = some w') :
    ∃ process, w.process.step cfg b label = some process ∧ w' = { w with process := process } := by
  simp only [World.step, Option.bind_eq_bind, Option.bind_eq_some_iff,
    Option.some.injEq] at h
  rcases h with ⟨process, hprocess, rfl⟩
  exact ⟨process, hprocess, rfl⟩

theorem published_of_step (hsign : SignsCorrectly X) (hencrypts : EncryptsCorrectly X)
    (hshares : SharesSlots a b) (hne : a.pubKey ≠ b.pubKey) (w : World X)
    (label : WorldLabel X) (w' : World X) (hstep : World.step cfg a b w label = some w')
    (h : Published a b w) : Published a b w' := by
  cases label with
  | call unixMinute content cached =>
      obtain rfl := Option.some.inj hstep
      refine ⟨?_, ?_, h.found⟩
      · intro task htask
        rcases List.mem_append.mp htask with htask | htask
        · exact h.own task htask
        · rw [List.mem_singleton.mp htask]
          exact ⟨content, rfl⟩
      · intro task htask put hstage
        rcases List.mem_append.mp htask with htask | htask
        · exact h.checked task htask put hstage
        · rw [List.mem_singleton.mp htask] at hstage
          cases hstage
  | publish id input =>
      obtain ⟨task, task', hget, htask, rfl⟩ := World.exists_of_step_publish hstep
      refine ⟨fun other hother => (h.set hget htask other hother).1,
        fun other hother => (h.set hget htask other hother).2, ?_⟩
      cases hstored : task.storedPut input with
      | none => exact h.found
      | some put =>
          obtain ⟨-, hstage⟩ := PublishTask.storedPut_eq_some_iff.mp hstored
          have hmem : task ∈ w.publishes := List.mem_of_getElem? hget
          obtain ⟨answer, draw, hput⟩ := h.checked task hmem put hstage
          intro record hrecord
          rcases List.mem_append.mp hrecord with hrecord | hrecord
          · exact (h.found record hrecord).store put
          · rw [List.mem_singleton.mp hrecord]
            exact findable_of_put hsign hencrypts hshares hne (h.own task hmem) hput
  | store put =>
      obtain rfl := Option.some.inj hstep
      exact ⟨h.own, h.checked, fun record hrecord => (h.found record hrecord).store put⟩
  | process label =>
      obtain ⟨process, -, rfl⟩ := World.exists_of_step_process hstep
      exact ⟨h.own, h.checked, h.found⟩

theorem mem_bootstrapNodes {rp : RecordPublisher X} {records : Finset Record} {record : Record}
    (hrecord : record ∈ records) (hvalid : X.isEndpointId record.pubKey = true) :
    ∃ node ∈ bootstrapNodes rp records, node.bytes = record.pubKey := by
  have hkey : record.pubKey ∈ candidateKeys rp record := by
    unfold candidateKeys
    split
    · exact List.mem_cons_self
    · exact List.mem_singleton_self _
  have hnode : EndpointId.fromBytes X record.pubKey = some ⟨record.pubKey, hvalid⟩ :=
    dif_pos hvalid
  exact ⟨⟨record.pubKey, hvalid⟩, Finset.mem_biUnion.mpr ⟨record, hrecord,
    List.mem_toFinset.mpr (List.mem_filterMap.mpr ⟨record.pubKey, hkey, hnode⟩)⟩, rfl⟩

def Collected (key : Bytes 32) : Point X → Prop
  | .fetchOlder _ => False
  | .fetchNewer _ older => ∃ record ∈ older, record.pubKey = key
  | .preJoinCheck _ _ nodes => ∃ node ∈ nodes, node.bytes = key
  | .startJoining _ _ nodes => ∃ node ∈ nodes, node.bytes = key
  | _ => True

/-- Iteration `i` has collected the key or is over. -/
def Carries (key : Bytes 32) (i : Nat) (l : Loop X) : Prop :=
  i ≤ l.iteration ∧ (l.iteration = i → Collected key l.point)

theorem Collected.of_follows {key : Bytes 32} {point next : Point X}
    (hnext : Point.Follows point next) (h : Collected key point) : Collected key next := by
  cases next with
  | startJoining w current nodes =>
      rw [show point = .preJoinCheck w current nodes from hnext] at h
      exact h
  | fetchOlder w => exact hnext.elim
  | fetchNewer w older => exact hnext.elim
  | preJoinCheck w current nodes => exact hnext.elim
  | _ => trivial

theorem carries_of_transition {rp : RecordPublisher X} {key : Bytes 32}
    (hvalid : X.isEndpointId key = true) {i : Nat} {l l' : Loop X} {input : Input X}
    {events : List (Event X)} (htransition : Transition cfg rp l input l' events)
    (h : Carries key i l) : Carries key i l' := by
  rcases h with ⟨hle, hcollected⟩
  cases htransition with
  | tick unixMinute hpoint =>
      refine ⟨Nat.le_succ_of_le hle, fun hsame => ?_⟩
      change l.iteration + 1 = i at hsame
      omega
  | readOlder w answer hpoint =>
      refine ⟨hle, fun hsame => ?_⟩
      have hnone := hcollected hsame
      rw [hpoint] at hnone
      exact hnone.elim
  | noRecords w answer hpoint hnone =>
      refine ⟨?_, fun _ => trivial⟩
      change i ≤ (Loop.publishIfDue rp l w ∅).1.iteration
      rwa [publishIfDue_iteration]
  | collected w older answer hpoint =>
      refine ⟨hle, fun hsame => ?_⟩
      have hfound := hcollected hsame
      rw [hpoint] at hfound
      rcases hfound with ⟨record, hrecord, rfl⟩
      exact mem_bootstrapNodes (Finset.mem_union_left _ hrecord) hvalid
  | notJoined w current hpoint =>
      refine ⟨?_, fun _ => trivial⟩
      change i ≤ (Loop.publishIfDue rp l w current).1.iteration
      rwa [publishIfDue_iteration]
  | settled w current rest hpoint => exact ⟨hle, fun _ => trivial⟩
  | moved input next events hpoint hnext hquiet =>
      exact ⟨hle, fun hsame => (hcollected hsame).of_follows hnext⟩
  | joined site hpoint hsite => exact ⟨hle, fun _ => trivial⟩
  | interrupted input events hpoint hinput hquiet => exact ⟨hle, fun _ => trivial⟩

theorem carries_of_run {key : Bytes 32} (hvalid : X.isEndpointId key = true) {i : Nat}
    {labels : List (WorldLabel X)} (hrun : run (World.step cfg a b) w labels = some w')
    (h : Carries key i w.process.loop) : Carries key i w'.process.loop := by
  refine run_preserves (P := fun w => Carries key i w.process.loop) ?_ hrun h
  intro w label w' hstep h
  cases label with
  | call unixMinute content cached =>
      obtain rfl := Option.some.inj hstep
      exact h
  | publish id input =>
      obtain ⟨task, task', -, -, rfl⟩ := World.exists_of_step_publish hstep
      cases hstored : task.storedPut input <;> exact h
  | store put =>
      obtain rfl := Option.some.inj hstep
      exact h
  | process label =>
      obtain ⟨process, hprocess, rfl⟩ := World.exists_of_step_process hstep
      exact step_preserves (P := fun p => Carries key i p.loop)
        (fun _ _ _ _ htransition h => carries_of_transition hvalid htransition h)
        (fun _ _ _ _ _ _ _ h => h) w.process label process hprocess h

/-- The iteration reads the slot of the minute next: as its newer slot in that
minute, or as its older slot in the minute after, under the normal window. -/
def ReadsNext (unixMinute : UInt64) (point : Point X) : Prop :=
  ∃ w : Window, w.unixMinuteOffset = 0 ∧
    ((∃ older, point = .fetchNewer w older ∧ w.currentUnixMinute = unixMinute) ∨
      (point = .fetchOlder w ∧ w.currentUnixMinute.toNat = unixMinute.toNat + 1))

def joiningNodes : Point X → Option (Finset (EndpointId X))
  | .startJoining _ _ nodes => some nodes
  | _ => none

theorem Collected.joiningNodes {key : Bytes 32} {point : Point X}
    {nodes : Finset (EndpointId X)} (h : Collected key point)
    (hjoining : joiningNodes point = some nodes) : ∃ node ∈ nodes, node.bytes = key := by
  cases point with
  | startJoining w current nodes' =>
      obtain rfl := Option.some.inj hjoining
      exact h
  | _ => cases hjoining

theorem carries_of_read {record : Record} {items : List MutableItem}
    (hvalid : X.isEndpointId record.pubKey = true) {p q : Process X}
    (hreads : ReadsNext record.unixMinute p.loop.point)
    (hitem : ∃ item ∈ items, b.Valid record.unixMinute item record)
    (hstep : p.step cfg b (.loop (.records (.ready (.ok items)))) = some q) :
    Carries record.pubKey q.loop.iteration q.loop := by
  rcases hitem with ⟨item, hmem, hitem⟩
  obtain ⟨found, hfound, hkey⟩ := exists_mem_recordsOf hmem hitem
  obtain ⟨loop, events, hloop, rfl⟩ := exists_of_step_loop hstep
  refine ⟨le_refl _, fun _ => ?_⟩
  rcases hreads with ⟨win, hoffset, ⟨older, hpoint, hminute⟩ | ⟨hpoint, hminute⟩⟩
  · have hnewer : win.newer = record.unixMinute := by
      simp [Window.newer, saturatingSub, hoffset, hminute]
    simp only [Loop.step, hpoint, hnewer, getRecords_ready_ok, unwrapOrDefault] at hloop
    obtain ⟨rfl, -⟩ := Prod.ext_iff.mp (Option.some.inj hloop)
    have hunion : found ∈ older ∪ recordsOf b record.unixMinute items :=
      Finset.mem_union_right _ hfound
    rw [Loop.fetched, if_neg (Finset.ne_empty_of_mem hunion), ← hkey]
    exact mem_bootstrapNodes hunion (hkey ▸ hvalid)
  · have holder : win.older = record.unixMinute := by
      apply UInt64.toNat_inj.mp
      rw [Window.older, saturatingSub_toNat, hoffset]
      change win.currentUnixMinute.toNat - 1 = _
      omega
    simp only [Loop.step, hpoint, holder, getRecords_ready_ok, unwrapOrDefault] at hloop
    obtain ⟨rfl, -⟩ := Prod.ext_iff.mp (Option.some.inj hloop)
    exact ⟨found, hfound, hkey⟩

/-- Once a put of `a` for a minute has completed, every iteration of `b` that reads
the slot of that minute completely and gets to joining has `a` among its bootstrap
nodes, however the two interleave. -/
theorem discovers_published_peer (hsign : SignsCorrectly X) (hencrypts : EncryptsCorrectly X)
    (hendpoints : HonestEndpoints X) (hshares : SharesSlots a b) (hne : a.pubKey ≠ b.pubKey)
    {dht : SlotAddress → List MutableItem} {startMinute : UInt64} {w₁ w₂ w₃ : World X}
    {before after : List (WorldLabel X)} {record : Record} {items : List MutableItem}
    {nodes : Finset (EndpointId X)}
    (hbefore : run (World.step cfg a b) (World.start cfg b dht startMinute) before = some w₁)
    (hcompleted : record ∈ w₁.completed)
    (hreads : ReadsNext record.unixMinute w₁.process.loop.point)
    (hitems : ∀ item ∈ w₁.dht (b.slotAddress record.unixMinute), item ∈ items)
    (hread : World.step cfg a b w₁ (.process (.loop (.records (.ready (.ok items))))) = some w₂)
    (hafter : run (World.step cfg a b) w₂ after = some w₃)
    (hiteration : w₃.process.loop.iteration = w₂.process.loop.iteration)
    (hjoining : joiningNodes w₃.process.loop.point = some nodes) :
    ∃ node ∈ nodes, node.bytes = a.pubKey := by
  have hstart : Published a b (World.start cfg b dht startMinute) :=
    ⟨by simp [World.start], by simp [World.start], by simp [World.start]⟩
  have hpublished := run_preserves (published_of_step hsign hencrypts hshares hne) hbefore hstart
  obtain ⟨hkey, item, hitem, hvalid⟩ := hpublished.found record hcompleted
  have hendpoint : X.isEndpointId record.pubKey = true :=
    hkey ▸ isEndpointId_pubKey hendpoints a
  obtain ⟨process, hprocess, rfl⟩ := World.exists_of_step_process hread
  have hcarries := carries_of_read hendpoint hreads ⟨item, hitems item hitem, hvalid⟩ hprocess
  have hlater := carries_of_run hendpoint hafter hcarries
  rw [← hkey]
  exact (hlater.2 hiteration).joiningNodes hjoining

def publishBeforeRead : List (WorldLabel reference) :=
  [.call 7 ⟨[]⟩ none, .process (.loop (.tokenCancelled false)),
    .publish 0 (.read (.ready (.ok [])) zeroDraw), .process (.loop (.isJoined (.ok false))),
    .process (.loop (.minute 7)), .process (.loop (.records (.ready (.ok [])))),
    .publish 0 .stored]

theorem discovers_published_peer_sample :
    ∃ w₁ w₂ w₃ : World reference, ∃ nodes,
      run (World.step {} (samplePublisher 1 {}) (samplePublisher 2 {}))
        (World.start {} (samplePublisher 2 {}) (fun _ => []) 7) publishBeforeRead = some w₁ ∧
      World.step {} (samplePublisher 1 {}) (samplePublisher 2 {}) w₁
        (.process (.loop (.records (.ready (.ok
          (w₁.dht ((samplePublisher 2 {}).slotAddress 7))))))) = some w₂ ∧
      run (World.step {} (samplePublisher 1 {}) (samplePublisher 2 {})) w₂
        [.process (.loop (.isJoined (.ok false)))] = some w₃ ∧
      joiningNodes w₃.process.loop.point = some nodes ∧
      ∃ node ∈ nodes, node.bytes = (samplePublisher 1 {}).pubKey := by
  have hrun : ∃ w₁ ∈ run (World.step {} (samplePublisher 1 {}) (samplePublisher 2 {}))
        (World.start {} (samplePublisher 2 {}) (fun _ => []) 7) publishBeforeRead,
      w₁.process.loop.point = .fetchNewer ⟨7, 0, true⟩ ∅ ∧
      (∃ record ∈ w₁.completed, record.unixMinute = 7) ∧
      ∃ w₂ ∈ World.step {} (samplePublisher 1 {}) (samplePublisher 2 {}) w₁
        (.process (.loop (.records (.ready (.ok
          (w₁.dht ((samplePublisher 2 {}).slotAddress 7))))))),
      ∃ w₃ ∈ run (World.step {} (samplePublisher 1 {}) (samplePublisher 2 {})) w₂
        [.process (.loop (.isJoined (.ok false)))],
      w₃.process.loop.iteration = w₂.process.loop.iteration ∧
        (joiningNodes w₃.process.loop.point).isSome = true := by
    decide +kernel
  obtain ⟨w₁, hbefore, hpoint, ⟨record, hcompleted, hminute⟩, w₂, hread, w₃, hafter,
    hiteration, hjoining⟩ := hrun
  obtain ⟨nodes, hnodes⟩ := Option.isSome_iff_exists.mp hjoining
  refine ⟨w₁, w₂, w₃, nodes, hbefore, hread, hafter, hnodes, ?_⟩
  have hshares : SharesSlots (samplePublisher 1 {}) (samplePublisher 2 {}) := ⟨rfl, rfl, rfl⟩
  exact discovers_published_peer reference_signsCorrectly reference_encryptsCorrectly
    reference_honestEndpoints hshares (by decide) hbefore hcompleted
    ⟨_, rfl, .inl ⟨∅, hpoint, hminute.symm⟩⟩ (fun item hitem => hminute ▸ hitem) hread hafter
    hiteration hnodes

end TopicTracker.PeerDiscovery
