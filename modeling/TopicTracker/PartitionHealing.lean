import TopicTracker.PartitionDetection
import TopicTracker.PeerDiscovery
import TopicTracker.EmittedRecords
import TopicTracker.JoinCandidates

namespace TopicTracker.PartitionHealing

open TopicTracker.Configuration
open TopicTracker.RustValues
open TopicTracker.ThirdParty
open TopicTracker.ReferenceExternals
open TopicTracker.StepMachine
open TopicTracker.RandomOrder
open TopicTracker.RecordCodec
open TopicTracker.EncryptedRecordCodec
open TopicTracker.RecordRetrieval
open TopicTracker.RecordPublishing
open TopicTracker.BootstrapLoop (EndpointId)
open TopicTracker.PeerDiscovery (storeItem mem_storeItem Findable findable_of_put)
open TopicTracker.MinuteSlots (mergeSlots_eq_ok_iff minusU64_one_eq_iff)
open TopicTracker.PeerMerging
open TopicTracker.JoinCandidates
open TopicTracker.RecordAdvertising
open TopicTracker.EmittedRecords
open TopicTracker.GossipReceiver
open TopicTracker.PartitionDetection

variable {X : Externals} {M : Type*} {N : Type} {overflowChecks : Bool}

section Windows

variable [DecidableEq M] {c d : Cluster X M}

/-- However long a part has run, its members have heard nothing but what other members
have broadcast. -/
structure HearsMembers (c : Cluster X M) : Prop where
  inFlight : ∀ member, ∀ content ∈ c.inFlight member,
    X.sha512 content ∈ otherHashes X c.broadcasts member
  window : ∀ member, ∀ hash ∈ (c.receivers member).lastMessageHashes,
    hash ∈ otherHashes X c.broadcasts member

theorem mem_of_mem_pushMessageHash {window : List (Bytes 32)} {new hash : Bytes 32}
    (h : hash ∈ pushMessageHash window new) : hash ∈ window ∨ hash = new := by
  unfold pushMessageHash at h
  rcases List.mem_append.mp h with hold | hnew
  · split at hold
    · exact .inl (List.mem_of_mem_tail hold)
    · exact .inl hold
  · exact .inr (List.mem_singleton.mp hnew)

theorem hearsMembers_broadcast (h : HearsMembers c) {sender : M} {content : List UInt8}
    (hstep : c.step (.broadcast sender content) = some d) : HearsMembers d := by
  obtain rfl := Option.some.inj hstep
  constructor
  · intro member other hother
    change other ∈ (if member = sender then _ else _) at hother
    rw [otherHashes_append]
    split at hother
    · exact List.mem_append_left _ (h.inFlight member other hother)
    · next hsender =>
        rw [if_neg hsender]
        rcases List.mem_append.mp hother with hold | hnew
        · exact List.mem_append_left _ (h.inFlight member other hold)
        · rw [List.mem_singleton.mp hnew]
          exact List.mem_append_right _ (List.mem_singleton_self _)
  · intro member hash hhash
    rw [otherHashes_append]
    exact List.mem_append_left _ (h.window member hash hhash)

theorem hearsMembers_deliver (h : HearsMembers c) {member : M} {index : Nat}
    (hstep : c.step (.deliver member index) = some d) : HearsMembers d := by
  obtain ⟨content, hcontent, hdelivered⟩ := Option.bind_eq_some_iff.mp hstep
  obtain ⟨s, hs, rfl⟩ := Option.map_eq_some_iff.mp hdelivered
  have hheard := h.inFlight member content (List.mem_of_getElem? hcontent)
  constructor
  · intro other content' hcontent'
    change content' ∈ Function.update c.inFlight member _ other at hcontent'
    by_cases hne : other = member
    · subst hne
      rw [Function.update_self] at hcontent'
      exact h.inFlight other content' (List.mem_of_mem_eraseIdx hcontent')
    · rw [Function.update_of_ne hne] at hcontent'
      exact h.inFlight other content' hcontent'
  · intro other hash hhash
    change hash ∈ (Function.update c.receivers member s other).lastMessageHashes at hhash
    by_cases hne : other = member
    · subst hne
      rw [Function.update_self, lastMessageHashes_of_step hs] at hhash
      rcases mem_of_mem_pushMessageHash hhash with hold | rfl
      · exact h.window other hash hold
      · exact hheard
    · rw [Function.update_of_ne hne] at hhash
      exact h.window other hash hhash

theorem hearsMembers_receiver (h : HearsMembers c) {member : M} {op : Op X}
    (hstep : c.step (.receiver member op) = some d) : HearsMembers d := by
  obtain ⟨hop, hmoved⟩ := Option.ite_none_left_eq_some.mp hstep
  obtain ⟨s, hs, rfl⟩ := Option.map_eq_some_iff.mp hmoved
  refine ⟨h.inFlight, fun other hash hhash => ?_⟩
  change hash ∈ (Function.update c.receivers member s other).lastMessageHashes at hhash
  by_cases hne : other = member
  · subst hne
    rw [Function.update_self, lastMessageHashes_of_step hs] at hhash
    unfold windowAfter at hhash
    split at hhash
    · exact absurd rfl hop
    · exact h.window other hash hhash
  · rw [Function.update_of_ne hne] at hhash
    exact h.window other hash hhash

theorem hearsMembers_of_step (op : ClusterOp X M) (hstep : c.step op = some d)
    (h : HearsMembers c) : HearsMembers d := by
  cases op with
  | broadcast sender content => exact hearsMembers_broadcast h hstep
  | deliver member index => exact hearsMembers_deliver h hstep
  | receiver member op => exact hearsMembers_receiver h hstep

theorem hearsMembers_start (neighbors : M → Finset (EndpointId X)) (cancelled : M → Bool) :
    HearsMembers (Cluster.start neighbors cancelled) :=
  ⟨fun _ _ hcontent => (by cases hcontent), fun _ _ hhash => by cases hhash⟩

theorem broadcasts_subset_of_step {op : ClusterOp X M} (hstep : c.step op = some d) :
    c.broadcasts ⊆ d.broadcasts := by
  cases op with
  | broadcast sender content =>
      obtain rfl := Option.some.inj hstep
      exact List.subset_append_left _ _
  | deliver member index =>
      obtain ⟨content, -, hdelivered⟩ := Option.bind_eq_some_iff.mp hstep
      obtain ⟨s, -, rfl⟩ := Option.map_eq_some_iff.mp hdelivered
      exact List.Subset.refl _
  | receiver member op =>
      obtain ⟨-, hmoved⟩ := Option.ite_none_left_eq_some.mp hstep
      obtain ⟨s, -, rfl⟩ := Option.map_eq_some_iff.mp hmoved
      exact List.Subset.refl _

end Windows

/-- Two parts of a topic, the slots that both use, what the far part has asked to put
there, and which of its puts have completed. -/
structure Parts (X : Externals) (M : Type*) (N : Type) where
  near : Cluster X M
  far : Cluster X N
  dht : SlotAddress → List MutableItem
  requested : List (Request N)
  completed : List (Request N)

inductive PartsOp (X : Externals) (M : Type*) (N : Type)
  | near (op : ClusterOp X M)
  | far (op : ClusterOp X N)
  | publish (member : N) (tick : PublishTick X)
  | stored (id : Nat)
  | store (put : DhtPut)

namespace Parts

def start (near : Cluster X M) (far : Cluster X N) : Parts X M N where
  near := near
  far := far
  dht _ := []
  requested := []
  completed := []

/-- A call of `publish` on what the member's receiver answers. -/
def publishTick (w : Parts X M N) (member : N) (tick : PublishTick X) : PublishTick X :=
  { tick with
    neighbors := .ok (w.far.receivers member).neighbors
    lastMessageHashes := .ok (w.far.receivers member).lastMessageHashes }

def step [DecidableEq M] [DecidableEq N] (publisher : N → RecordPublisher X) (w : Parts X M N) :
    PartsOp X M N → Option (Parts X M N)
  | .near op => (w.near.step op).map fun near => { w with near := near }
  | .far op => (w.far.step op).map fun far => { w with far := far }
  | .publish member tick =>
      match publishRequest publisher member (w.publishTick member tick) with
      | .ok (some request) => some { w with requested := w.requested ++ [request] }
      | _ => some w
  | .stored id => w.requested[id]?.map fun request => { w with
      dht := storeItem w.dht request.put
      completed := w.completed ++ [request] }
  | .store put => some { w with dht := storeItem w.dht put }

end Parts

variable {publisher : N → RecordPublisher X} {a : RecordPublisher X} {w w' : Parts X M N}

def farHashes (w : Parts X M N) : Set (Bytes 32) :=
  {hash | ∃ broadcast ∈ w.far.broadcasts, X.sha512 broadcast.2 = hash}

/-- A request of a node that has heard nothing but the members of the far part. -/
structure Heard (publisher : N → RecordPublisher X) (w : Parts X M N) (request : Request N) :
    Prop where
  genuine : request.Genuine publisher
  advertises : ∃ peers hashes, Advertises X request.record peers hashes ∧
    ∀ hash ∈ hashes, hash ∈ farHashes w

/-- The node finds no record of the key in the slot of a minute but those requested. -/
def Authentic (a : RecordPublisher X) (key : Bytes 32) (w : Parts X M N) : Prop :=
  ∀ m, ∀ item ∈ w.dht (a.slotAddress m), ∀ record, a.Valid m item record →
    record.pubKey = key → ∃ request ∈ w.requested, request.record = record

structure Healthy [DecidableEq M] [DecidableEq N] (publisher : N → RecordPublisher X)
    (a : RecordPublisher X) (key : Bytes 32) (w : Parts X M N) : Prop where
  near : HearsMembers w.near
  far : HearsMembers w.far
  heard : ∀ request ∈ w.requested, Heard publisher w request
  authentic : Authentic a key w
  found : ∀ request ∈ w.completed, request ∈ w.requested ∧
    Findable (publisher request.member) a w.dht request.record

/-- Nobody else can sign under the key: whoever stores an item that the node would take
for one of the key's has got it from there. -/
def Unforged (a : RecordPublisher X) (key : Bytes 32) (w : Parts X M N) : PartsOp X M N → Prop
  | .store put => ∀ m record, put.address = a.slotAddress m → a.Valid m put.item record →
      record.pubKey = key → ∃ request ∈ w.requested, request.record = record
  | _ => True

theorem Heard.mono {request : Request N} (h : Heard publisher w request)
    (hsub : w.far.broadcasts ⊆ w'.far.broadcasts) : Heard publisher w' request := by
  obtain ⟨peers, hashes, hadvertises, hheard⟩ := h.advertises
  refine ⟨h.genuine, peers, hashes, hadvertises, fun hash hhash => ?_⟩
  obtain ⟨broadcast, hbroadcast, hsame⟩ := hheard hash hhash
  exact ⟨broadcast, hsub hbroadcast, hsame⟩

theorem mem_farHashes_of_mem_otherHashes [DecidableEq N] {member : N} {hash : Bytes 32}
    (h : hash ∈ otherHashes X w.far.broadcasts member) : hash ∈ farHashes w := by
  obtain ⟨broadcast, hbroadcast, -, hsame⟩ := mem_otherHashes_iff.mp h
  exact ⟨broadcast, hbroadcast, hsame⟩

theorem heard_of_publishRequest [DecidableEq N] (hX : EncodesContentLosslessly X)
    (hfar : HearsMembers w.far) {member : N} {tick : PublishTick X} {request : Request N}
    (h : publishRequest publisher member (w.publishTick member tick) = .ok (some request)) :
    Heard publisher w request := by
  have hneighbors : (w.publishTick member tick).neighbors =
      .ok (w.far.receivers member).neighbors := rfl
  have hhashes : (w.publishTick member tick).lastMessageHashes =
      .ok (w.far.receivers member).lastMessageHashes := rfl
  obtain ⟨created, hcreated, hadvertises⟩ :=
    createRecord_advertises hX (publisher member) hneighbors hhashes
  obtain ⟨hrecord, -, -⟩ := publishRequest_eq_some_iff.mp h
  obtain rfl := Except.ok.inj (hcreated.symm.trans hrecord)
  refine ⟨genuine_of_publishRequest h, _, _, hadvertises, fun hash hhash => ?_⟩
  have hwindow := List.mem_of_mem_take (List.mem_of_mem_filter hhash)
  exact mem_farHashes_of_mem_otherHashes (hfar.window member hash hwindow)

theorem mem_storeItem_iff {dht : SlotAddress → List MutableItem} {put : DhtPut}
    {address : SlotAddress} {item : MutableItem} :
    item ∈ storeItem dht put address ↔
      item ∈ dht address ∨ put.address = address ∧ item = put.item := by
  unfold storeItem
  by_cases h : address = put.address
  · subst h
    simp
  · rw [Function.update_of_ne h]
    simp [Ne.symm h]

theorem valid_unique {m : UInt64} {item : MutableItem} {record record' : Record}
    (h : a.Valid m item record) (h' : a.Valid m item record') : record = record' :=
  Option.some.inj
    ((verifiedRecord_eq_some_iff.mpr h).symm.trans (verifiedRecord_eq_some_iff.mpr h'))

/-- The node takes no record for one of its own, so it needs nobody to vouch for them. -/
theorem unforged_own (op : PartsOp X M N) (w : Parts X M N) :
    Unforged a a.pubKey w op := by
  cases op with
  | store put =>
      rintro m record - ⟨encryptedRecord, -, -, -, hown⟩ hkey
      exact absurd hkey hown
  | _ => trivial

/-- The node of the near part is in the same group as the publishers of the far part, and
its slots of different minutes are different. -/
structure SameGroup (publisher : N → RecordPublisher X) (a : RecordPublisher X) : Prop where
  sharesSlots : ∀ member, SharesSlots (publisher member) a
  otherKey : ∀ member, (publisher member).pubKey ≠ a.pubKey
  slots : Function.Injective a.slotAddress

theorem authentic_of_stored {key : Bytes 32} (hsign : SignsCorrectly X)
    (hencrypts : EncryptsCorrectly X) (hgroup : SameGroup publisher a) (h : Authentic a key w)
    {request : Request N}
    (hrequest : request ∈ w.requested) (hgenuine : request.Genuine publisher) :
    Authentic a key { w with
      dht := storeItem w.dht request.put
      completed := w.completed ++ [request] } := by
  intro m item hitem record hvalid hkey
  rcases mem_storeItem_iff.mp hitem with hold | ⟨haddress, rfl⟩
  · exact h m item hold record hvalid hkey
  · obtain ⟨hown, hslot⟩ := hgenuine.valid hsign hencrypts
      (hgroup.sharesSlots request.member) (hgroup.otherKey request.member)
    obtain rfl := hgroup.slots (hslot.symm.trans haddress)
    exact ⟨request, hrequest, valid_unique hown hvalid⟩

/-- The tick reads these items of the slot of a minute, the current one or the one
before. -/
inductive ReadsSlot (tick : Tick X) (m : UInt64) (items : List MutableItem) : Prop
  | newer (hminute : tick.unixMinute = m) (hanswer : tick.newer = .ready (.ok items))
  | older (hminute : tick.unixMinute.toNat = m.toNat + 1)
      (hanswer : tick.older = .ready (.ok items))

theorem recordsOf_subset_fetchRecords {tick : Tick X} {m : UInt64} {items : List MutableItem}
    {records : Finset Record} (hreads : ReadsSlot tick m items)
    (hrecords : fetchRecords overflowChecks a tick = .ok records) :
    recordsOf a m items ⊆ records := by
  obtain ⟨slots, hslots, hrecords⟩ := bind_eq_ok.mp hrecords
  obtain ⟨older, holder, hrecords⟩ := bind_eq_ok.mp hrecords
  obtain ⟨newer, hnewer, hrecords⟩ := bind_eq_ok.mp hrecords
  obtain rfl := Except.ok.inj hrecords
  obtain ⟨hprevious, hcurrent⟩ := mergeSlots_eq_ok_iff.mp hslots
  cases hreads with
  | newer hminute hanswer =>
      rw [hanswer, hcurrent, hminute, getRecords_ready_ok] at hnewer
      obtain rfl := Except.ok.inj hnewer
      exact Finset.subset_union_right
  | older hminute hanswer =>
      have hle : (1 : UInt64) ≤ tick.unixMinute := by
        rw [UInt64.le_iff_toNat_le, UInt64.toNat_one]
        omega
      have hm : slots.1 = m := by
        rw [← Except.ok.inj (((minusU64_one_eq_iff _ _).mpr hle).symm.trans hprevious)]
        apply UInt64.toNat_inj.mp
        rw [saturatingSub_toNat, UInt64.toNat_one]
        omega
      rw [hanswer, hm, getRecords_ready_ok] at holder
      obtain rfl := Except.ok.inj holder
      exact Finset.subset_union_left

section Steps

variable [DecidableEq M] [DecidableEq N] {key : Bytes 32}

theorem healthy_of_step (hsign : SignsCorrectly X) (hencrypts : EncryptsCorrectly X)
    (hX : EncodesContentLosslessly X) (hgroup : SameGroup publisher a) (w : Parts X M N)
    (op : PartsOp X M N) (w' : Parts X M N) (hstep : w.step publisher op = some w')
    (hunforged : Unforged a key w op) (h : Healthy publisher a key w) :
    Healthy publisher a key w' := by
  cases op with
  | near op =>
      obtain ⟨near, hnear, rfl⟩ := Option.map_eq_some_iff.mp hstep
      exact ⟨hearsMembers_of_step op hnear h.near, h.far, fun request hrequest =>
        (h.heard request hrequest).mono (List.Subset.refl _), h.authentic, h.found⟩
  | far op =>
      obtain ⟨far, hfar, rfl⟩ := Option.map_eq_some_iff.mp hstep
      exact ⟨h.near, hearsMembers_of_step op hfar h.far, fun request hrequest =>
        (h.heard request hrequest).mono (broadcasts_subset_of_step hfar), h.authentic, h.found⟩
  | publish member tick =>
      simp only [Parts.step] at hstep
      split at hstep
      · next request hrequest =>
          obtain rfl := Option.some.inj hstep
          refine ⟨h.near, h.far, ?_, ?_, ?_⟩
          · intro other hother
            rcases List.mem_append.mp hother with hold | hnew
            · exact (h.heard other hold).mono (List.Subset.refl _)
            · rw [List.mem_singleton.mp hnew]
              exact (heard_of_publishRequest hX h.far hrequest).mono (List.Subset.refl _)
          · intro m item hitem record hvalid hkey
            obtain ⟨other, hother, hrecord⟩ := h.authentic m item hitem record hvalid hkey
            exact ⟨other, List.mem_append_left _ hother, hrecord⟩
          · intro other hother
            obtain ⟨hrequested, hfindable⟩ := h.found other hother
            exact ⟨List.mem_append_left _ hrequested, hfindable⟩
      · obtain rfl := Option.some.inj hstep
        exact h
  | stored id =>
      obtain ⟨request, hget, rfl⟩ := Option.map_eq_some_iff.mp hstep
      have hrequest := List.mem_of_getElem? hget
      have hgenuine := (h.heard request hrequest).genuine
      refine ⟨h.near, h.far, fun other hother => (h.heard other hother).mono
        (List.Subset.refl _), authentic_of_stored hsign hencrypts hgroup h.authentic hrequest
        hgenuine, ?_⟩
      intro other hother
      rcases List.mem_append.mp hother with hold | hnew
      · obtain ⟨hrequested, hfindable⟩ := h.found other hold
        exact ⟨hrequested, hfindable.store request.put⟩
      · rw [List.mem_singleton.mp hnew]
        obtain ⟨cached, answer, draw, hput⟩ := hgenuine.put
        exact ⟨hrequest, findable_of_put hsign hencrypts (hgroup.sharesSlots request.member)
          (hgroup.otherKey request.member) hgenuine.own hput⟩
  | store put =>
      obtain rfl := Option.some.inj hstep
      refine ⟨h.near, h.far, fun other hother => (h.heard other hother).mono
        (List.Subset.refl _), ?_, fun other hother => ?_⟩
      · intro m item hitem record hvalid hkey
        rcases mem_storeItem_iff.mp hitem with hold | ⟨haddress, rfl⟩
        · exact h.authentic m item hold record hvalid hkey
        · exact hunforged m record haddress hvalid hkey
      · obtain ⟨hrequested, hfindable⟩ := h.found other hother
        exact ⟨hrequested, hfindable.store put⟩

theorem healthy_start (neighbors : M → Finset (EndpointId X)) (cancelled : M → Bool)
    (farNeighbors : N → Finset (EndpointId X)) (farCancelled : N → Bool) :
    Healthy publisher a key
      (Parts.start (Cluster.start neighbors cancelled)
        (Cluster.start farNeighbors farCancelled)) where
  near := hearsMembers_start neighbors cancelled
  far := hearsMembers_start farNeighbors farCancelled
  heard _ hrequest := by cases hrequest
  authentic _ _ hitem := by cases hitem
  found _ hrequest := by cases hrequest

/-- The node has read the slot of a minute completely in a tick that ends with these
records. -/
structure SlotRead (overflowChecks : Bool) (a : RecordPublisher X) (w : Parts X M N) (m : UInt64)
    (tick : Tick X) (records : Finset Record) : Prop where
  items : ∃ items, ReadsSlot tick m items ∧
    ∀ item, item ∈ items ↔ item ∈ w.dht (a.slotAddress m)
  records : fetchRecords overflowChecks a tick = .ok records

theorem exists_found_record (h : Healthy publisher a key w) {request : Request N}
    (hcompleted : request ∈ w.completed) {tick : Tick X} {records : Finset Record}
    (hread : SlotRead overflowChecks a w request.record.unixMinute tick records) :
    ∃ found ∈ records, found.pubKey = (publisher request.member).pubKey ∧
      ∃ item ∈ w.dht (a.slotAddress request.record.unixMinute),
        a.Valid request.record.unixMinute item found := by
  obtain ⟨-, hpubKey, item, hitem, hvalid⟩ := h.found request hcompleted
  obtain ⟨items, hreads, hitems⟩ := hread.items
  obtain ⟨found, hfound, hsame⟩ := exists_mem_recordsOf ((hitems item).mpr hitem) hvalid
  obtain ⟨item', hitem', hvalid'⟩ := (mem_recordsOf_iff.mp hfound).valid
  exact ⟨found, recordsOf_subset_fetchRecords hreads hread.records hfound,
    hsame.trans hpubKey, item', (hitems item').mp hitem', hvalid'⟩

/-- The node is among the candidates of a tick, and the tick sends one request, which
names the node unless the candidates are too many. -/
structure AsksAmong (limit : Nat) (candidates : Finset (EndpointId X))
    (requests : List (List (EndpointId X))) (node : EndpointId X) : Prop where
  candidate : node ∈ candidates
  asked : ∃ peers, requests = [peers] ∧ Sample limit candidates peers ∧
    (candidates.card ≤ limit → node ∈ peers)

theorem AsksAmong.of_requestsSample {limit : Nat} {candidates : Finset (EndpointId X)}
    {requests : List (List (EndpointId X))} {node : EndpointId X}
    (h : RequestsSample limit candidates requests) (hnode : node ∈ candidates) :
    AsksAmong limit candidates requests node := by
  obtain ⟨peers, hpeers, hsample⟩ := h.nonempty (Finset.ne_empty_of_mem hnode)
  exact ⟨hnode, peers, hpeers, hsample, fun hle => hsample.mem_of_card_le hle hnode⟩

variable {neighbors : M → Finset (EndpointId X)} {cancelled : M → Bool}
  {farNeighbors : N → Finset (EndpointId X)} {farCancelled : N → Bool}
  {ops : List (PartsOp X M N)} {request : Request N} {tick : Tick X}
  {records : Finset Record} {tickNeighbors : Finset (EndpointId X)}

theorem healthy_of_run (hsign : SignsCorrectly X) (hencrypts : EncryptsCorrectly X)
    (hX : EncodesContentLosslessly X) (hgroup : SameGroup publisher a)
    (hrun : run (Parts.step publisher) (Parts.start (Cluster.start neighbors cancelled)
      (Cluster.start farNeighbors farCancelled)) ops = some w)
    (hunforged : AllSteps (Parts.step publisher) (Unforged a key)
      (Parts.start (Cluster.start neighbors cancelled)
        (Cluster.start farNeighbors farCancelled)) ops) : Healthy publisher a key w :=
  run_preserves_of_allSteps (P := Healthy publisher a key)
    (healthy_of_step hsign hencrypts hX hgroup) hunforged hrun
    (healthy_start neighbors cancelled farNeighbors farCancelled)

/-- Whatever the two parts and the writers of other items do: once a member of the far part
has put a record for a minute, a bubble merge of a node that is short of neighbours and
reads that slot asks for the member. -/
theorem bubble_merge_asks_other_part (hsign : SignsCorrectly X) (hencrypts : EncryptsCorrectly X)
    (hX : EncodesContentLosslessly X) (hendpoints : HonestEndpoints X)
    (self : BubbleMergeActor X) (hgroup : SameGroup publisher self.recordPublisher)
    (hrun : run (Parts.step publisher) (Parts.start (Cluster.start neighbors cancelled)
      (Cluster.start farNeighbors farCancelled)) ops = some w)
    (hcompleted : request ∈ w.completed)
    (hread : SlotRead overflowChecks self.recordPublisher w request.record.unixMinute tick records)
    (hneighbors : tick.neighbors = .ok tickNeighbors)
    (hfew : tickNeighbors.card < self.minNeighbors) :
    ∃ node : EndpointId X, node.bytes = (publisher request.member).pubKey ∧
      (node ∉ tickNeighbors → AsksAmong self.maxJoinPeers
        (self.candidates tickNeighbors records) (self.merge overflowChecks tick).1 node) := by
  have hhealthy := healthy_of_run hsign hencrypts hX hgroup hrun
    (.of_forall (fun op _ w => unforged_own op w) _)
  obtain ⟨found, hfound, hkey, -⟩ := exists_found_record hhealthy hcompleted hread
  refine ⟨⟨(publisher request.member).pubKey, isEndpointId_pubKey hendpoints _⟩, rfl,
    fun hnew => ?_⟩
  apply AsksAmong.of_requestsSample (bubble_requests hread.records hneighbors hfew)
  rw [← Finset.mem_coe, coe_bubble_candidates]
  exact ⟨⟨hgroup.otherKey request.member, found, hfound, .inl hkey⟩, hnew⟩

end Steps

section Sample

theorem digest_append_injective (front : List UInt8) :
    Function.Injective fun m : UInt64 => digest (front ++ (u64ToLeBytes m).toList) := by
  intro m m' h
  have htake : ∀ m : UInt64, ((digest (front ++ (u64ToLeBytes m).toList)).toList.take 8) =
      (u64ToLeBytes m).toList.reverse := by
    intro m
    show (((front ++ (u64ToLeBytes m).toList).reverse ++ List.replicate 32 0).take 32).take 8 = _
    rw [List.take_take, List.reverse_append, List.append_assoc]
    exact List.take_left' (by simp)
  apply u64ToLeBytes_injective
  apply List.Vector.toList_injective
  apply List.reverse_injective
  have hdigest : digest (front ++ (u64ToLeBytes m).toList) =
      digest (front ++ (u64ToLeBytes m').toList) := h
  rw [← htake m, ← htake m', hdigest]

theorem sample_slots_injective (seed : UInt8) :
    Function.Injective (samplePublisher seed {}).slotAddress := by
  intro m m' h
  exact digest_append_injective _ (congrArg SlotAddress.salt h)

def nearNode : RecordPublisher reference := samplePublisher 5 {}

theorem sameGroup_sample : SameGroup samplePublishers nearNode where
  sharesSlots _ := ⟨rfl, rfl, rfl⟩
  otherKey := by decide
  slots := sample_slots_injective 5

def messagesInBothParts : List (PartsOp reference Bool Bool) :=
  [.near (.broadcast true [1]), .near (.deliver false 0), .far (.broadcast true [2]),
    .far (.deliver false 0)]

def sampleParts : Parts reference Bool Bool :=
  Parts.start (Cluster.start (fun _ => ∅) fun _ => false)
    (Cluster.start (fun _ => ∅) fun _ => false)

theorem length_content_createRecord {self : RecordPublisher reference}
    {tick : PublishTick reference} {record : Record} (h : createRecord self tick = .ok record) :
    record.content.bytes.length ≤ 1764 := by
  obtain ⟨neighbors, -, h⟩ := bind_eq_ok.mp h
  obtain ⟨hashes, -, h⟩ := bind_eq_ok.mp h
  obtain ⟨content, -, h⟩ := bind_eq_ok.mp h
  obtain ⟨bytes, hbytes, rfl⟩ := sign_eq_ok_iff.mp h
  obtain rfl := Except.ok.inj hbytes
  show (flatten content.activePeers ++ flatten content.lastMessageHashes).length ≤ 1764
  rw [List.length_append, flatten_length, flatten_length]
  decide

theorem exists_sample_request (w : Parts reference Bool Bool) (member : Bool) :
    ∃ request, publishRequest samplePublishers member
        (w.publishTick member (samplePublishTick [])) = .ok (some request) ∧
      request.member = member ∧ request.record.unixMinute = 7 ∧
      Advertises reference request.record
        ((activePeers (samplePublishTick []).order (w.far.receivers member).neighbors).filter
          fun peer => peer ≠ zeroBytes 32)
        (((w.far.receivers member).lastMessageHashes.take maxMessageHashes).filter
          fun hash => hash ≠ zeroBytes 32) := by
  have hneighbors : (w.publishTick member (samplePublishTick [])).neighbors =
      .ok (w.far.receivers member).neighbors := rfl
  have hhashes : (w.publishTick member (samplePublishTick [])).lastMessageHashes =
      .ok (w.far.receivers member).lastMessageHashes := rfl
  obtain ⟨record, hrecord, hadvertises⟩ := createRecord_advertises
    reference_encodesContentLosslessly (samplePublishers member) hneighbors hhashes
  have hcounted : countedRecords (samplePublishers member) record.unixMinute none
      (.ready (.ok [])) = .ok ∅ := rfl
  have hfree : (∅ : Finset Record).card < (samplePublishers member).maxBootstrapRecords := by
    show 0 < 5
    decide
  obtain ⟨put, hput⟩ := exists_publish reference_encryptsCorrectly zeroDraw hcounted hfree
    (length_content_createRecord hrecord)
  exact ⟨⟨member, record, put⟩, publishRequest_eq_some_iff.mpr ⟨hrecord, hput, rfl⟩, rfl,
    (ownRecord_of_createRecord hrecord).unixMinute_eq, hadvertises⟩

/-- A tick in minute 7 of a node without neighbours that reads the slots as they are. -/
noncomputable def readingTick (w : Parts reference Bool Bool) : Tick reference where
  unixMinute := 7
  older := .ready (.ok (w.dht (nearNode.slotAddress 6)))
  newer := .ready (.ok (w.dht (nearNode.slotAddress 7)))
  neighbors := .ok ∅
  lastMessageHashes := .ok (w.near.receivers false).lastMessageHashes
  order := .toList _
  shuffle := Shuffle.identity _
  joined := .ok ()

theorem slotRead_readingTick (w : Parts reference Bool Bool) :
    ∃ records, SlotRead true nearNode w 7 (readingTick w) records :=
  ⟨_, ⟨_, .newer rfl rfl, fun _ => Iff.rfl⟩, rfl⟩

theorem exists_sample_run : ∃ w request,
    run (Parts.step samplePublishers) sampleParts
      (messagesInBothParts ++ [.publish false (samplePublishTick []), .stored 0]) = some w ∧
      w.requested = [request] ∧ w.completed = [request] ∧ request.member = false ∧
      request.record.unixMinute = 7 ∧
      (∃ peers, Advertises reference request.record peers [digest [2]]) ∧
      (w.near.receivers false).lastMessageHashes = [digest [1]] ∧
      w.near.broadcasts = [(true, [1])] ∧ w.far.broadcasts = [(true, [2])] := by
  obtain ⟨w, hrun, hrequested, hcompleted, hnear, hfar, hnearSaid, hfarSaid⟩ : ∃ w,
      run (Parts.step samplePublishers) sampleParts messagesInBothParts = some w ∧
        w.requested = [] ∧ w.completed = [] ∧
        (w.near.receivers false).lastMessageHashes = [digest [1]] ∧
        (w.far.receivers false).lastMessageHashes = [digest [2]] ∧
        w.near.broadcasts = [(true, [1])] ∧ w.far.broadcasts = [(true, [2])] :=
    ⟨_, rfl, rfl, rfl, rfl, rfl, rfl, rfl⟩
  obtain ⟨request, hrequest, hmember, hminute, hadvertises⟩ := exists_sample_request w false
  rw [hfar] at hadvertises
  refine ⟨{ w with
    dht := storeItem w.dht request.put
    requested := [request]
    completed := [request] }, request, ?_, rfl, rfl, hmember, hminute, ⟨_, hadvertises⟩,
    hnear, hnearSaid, hfarSaid⟩
  rw [run_append, hrun]
  refine run_cons_eq_some_iff.mpr ⟨{ w with requested := w.requested ++ [request] }, ?_, ?_⟩
  · simp only [Parts.step, hrequest]
  · refine run_cons_eq_some_iff.mpr ⟨_, ?_, rfl⟩
    simp [Parts.step, hrequested, hcompleted]

theorem bubble_merge_asks_other_part_sample : ∃ w,
    run (Parts.step samplePublishers) sampleParts
      (messagesInBothParts ++ [.publish false (samplePublishTick []), .stored 0]) = some w ∧
      ∃ peers, ((⟨nearNode, 2, 4⟩ : BubbleMergeActor reference).merge true (readingTick w)).1 =
        [peers] := by
  obtain ⟨w, request, hrun, -, hcompleted, -, hminute, -⟩ := exists_sample_run
  obtain ⟨records, hread⟩ := slotRead_readingTick w
  have hfew : (∅ : Finset (EndpointId reference)).card < 4 := by decide
  rw [← hminute] at hread
  obtain ⟨node, -, hasks⟩ := bubble_merge_asks_other_part reference_signsCorrectly
    reference_encryptsCorrectly reference_encodesContentLosslessly reference_honestEndpoints
    ⟨nearNode, 2, 4⟩ sameGroup_sample hrun (hcompleted ▸ List.mem_singleton_self _)
    hread rfl hfew
  obtain ⟨peers, hpeers, -⟩ := (hasks (Finset.notMem_empty node)).asked
  exact ⟨w, hrun, peers, hpeers⟩

end Sample

end TopicTracker.PartitionHealing
