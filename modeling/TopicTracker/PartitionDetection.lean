import TopicTracker.GossipReceiver
import TopicTracker.RecordAdvertising

/-!
What the overlap test makes of a cluster that is not partitioned: every broadcast
reaches every other member once, and no member hears itself.
-/

namespace TopicTracker.PartitionDetection

open TopicTracker.RustValues
open TopicTracker.ThirdParty
open TopicTracker.ReferenceExternals (reference reference_encodesContentLosslessly)
open TopicTracker.StepMachine
open TopicTracker.RecordCodec
open TopicTracker.RecordRetrieval (RecordPublisher samplePublisher)
open TopicTracker.BootstrapLoop (EndpointId)
open TopicTracker.PeerMerging
open TopicTracker.RecordAdvertising
open TopicTracker.GossipReceiver

/-- The members' receivers, the messages on their way to each, and who broadcast what. -/
structure Cluster (X : Externals) (M : Type*) where
  receivers : M → State X
  inFlight : M → List (List UInt8)
  broadcasts : List (M × List UInt8)

/-- Anything but the receipt of a message can happen at a receiver at any time. -/
inductive ClusterOp (X : Externals) (M : Type*)
  | broadcast (sender : M) (content : List UInt8)
  | deliver (member : M) (index : Nat)
  | receiver (member : M) (op : Op X)

variable {X : Externals} {M : Type*} [DecidableEq M]

def isReceived : Op X → Bool
  | .event (.received _) => true
  | _ => false

namespace Cluster

def start (neighbors : M → Finset (EndpointId X)) (cancelled : M → Bool) : Cluster X M where
  receivers member := State.start (neighbors member) (cancelled member)
  inFlight _ := []
  broadcasts := []

def step (c : Cluster X M) : ClusterOp X M → Option (Cluster X M)
  | .broadcast sender content => some { c with
      inFlight := fun member =>
        if member = sender then c.inFlight member else c.inFlight member ++ [content]
      broadcasts := c.broadcasts ++ [(sender, content)] }
  | .deliver member index => (c.inFlight member)[index]?.bind fun content =>
      (GossipReceiver.step (c.receivers member) (.event (.received content))).map fun s =>
        { c with
          receivers := Function.update c.receivers member s
          inFlight :=
            Function.update c.inFlight member ((c.inFlight member).eraseIdx index) }
  | .receiver member op =>
      if isReceived op then none
      else (GossipReceiver.step (c.receivers member) op).map fun s =>
        { c with receivers := Function.update c.receivers member s }

end Cluster

def otherHashes (X : Externals) (broadcasts : List (M × List UInt8)) (member : M) :
    List (Bytes 32) :=
  (broadcasts.filter fun broadcast => broadcast.1 ≠ member).map fun broadcast =>
    X.sha512 broadcast.2

theorem mem_otherHashes_iff {broadcasts : List (M × List UInt8)} {member : M}
    {hash : Bytes 32} : hash ∈ otherHashes X broadcasts member ↔
      ∃ broadcast ∈ broadcasts, broadcast.1 ≠ member ∧ X.sha512 broadcast.2 = hash := by
  simp [otherHashes, and_assoc]

theorem otherHashes_append (broadcasts : List (M × List UInt8)) (sender member : M)
    (content : List UInt8) : otherHashes X (broadcasts ++ [(sender, content)]) member =
      otherHashes X broadcasts member ++
        if member = sender then [] else [X.sha512 content] := by
  rw [otherHashes, List.filter_append, List.map_append, otherHashes]
  congr 1
  by_cases h : member = sender
  · simp [h]
  · simp [h, Ne.symm h]

theorem length_otherHashes_le (broadcasts : List (M × List UInt8)) (member : M) :
    (otherHashes X broadcasts member).length ≤ broadcasts.length := by
  rw [otherHashes, List.length_map]
  exact List.length_filter_le _ _

/-- As long as nothing has to leave a window, it holds what the others broadcast apart
from what is still on its way. -/
def WindowsComplete (c : Cluster X M) : Prop :=
  c.broadcasts.length ≤ maxMessageHashes → ∀ member,
    ((c.receivers member).lastMessageHashes ++ (c.inFlight member).map X.sha512).Perm
      (otherHashes X c.broadcasts member)

variable {c d : Cluster X M}

theorem windowsComplete_broadcast (h : WindowsComplete c) {sender : M} {content : List UInt8}
    (hstep : c.step (.broadcast sender content) = some d) : WindowsComplete d := by
  obtain rfl := Option.some.inj hstep
  intro hbound member
  have hbefore : c.broadcasts.length ≤ maxMessageHashes := by
    rw [List.length_append] at hbound
    exact Nat.le_of_add_right_le hbound
  have hmember := h hbefore member
  show ((c.receivers member).lastMessageHashes ++ (if member = sender then c.inFlight member
    else c.inFlight member ++ [content]).map X.sha512).Perm _
  rw [otherHashes_append]
  by_cases hsender : member = sender
  · rw [if_pos hsender, if_pos hsender, List.append_nil]
    exact hmember
  · rw [if_neg hsender, if_neg hsender, List.map_append, ← List.append_assoc]
    exact hmember.append_right _

theorem windowsComplete_deliver (h : WindowsComplete c) {member : M} {index : Nat}
    (hstep : c.step (.deliver member index) = some d) : WindowsComplete d := by
  obtain ⟨content, hcontent, hdelivered⟩ := Option.bind_eq_some_iff.mp hstep
  obtain ⟨s, hs, rfl⟩ := Option.map_eq_some_iff.mp hdelivered
  intro hbound other
  have hother := h hbound other
  by_cases hne : other = member
  · subst hne
    obtain ⟨hlt, rfl⟩ := List.getElem?_eq_some_iff.mp hcontent
    have herase := (List.getElem_cons_eraseIdx_perm hlt).map X.sha512
    have hroom : (c.receivers other).lastMessageHashes.length < maxMessageHashes := by
      have hlength := hother.length_eq
      rw [List.length_append, List.length_map] at hlength
      have hle : (otherHashes X c.broadcasts other).length ≤ maxMessageHashes :=
        (length_otherHashes_le c.broadcasts other).trans hbound
      omega
    show ((Function.update c.receivers other s other).lastMessageHashes ++
      (Function.update c.inFlight other _ other).map X.sha512).Perm _
    rw [Function.update_self, Function.update_self, lastMessageHashes_of_step hs, windowAfter,
      pushMessageHash_of_lt hroom, List.append_assoc]
    exact (herase.append_left _).trans hother
  · show ((Function.update c.receivers member s other).lastMessageHashes ++
      (Function.update c.inFlight member _ other).map X.sha512).Perm _
    rw [Function.update_of_ne hne, Function.update_of_ne hne]
    exact hother

theorem windowsComplete_receiver (h : WindowsComplete c) {member : M} {op : Op X}
    (hstep : c.step (.receiver member op) = some d) : WindowsComplete d := by
  obtain ⟨hop, hmoved⟩ := Option.ite_none_left_eq_some.mp hstep
  obtain ⟨s, hs, rfl⟩ := Option.map_eq_some_iff.mp hmoved
  have hwindow : s.lastMessageHashes = (c.receivers member).lastMessageHashes := by
    rw [lastMessageHashes_of_step hs]
    unfold windowAfter
    split
    · exact absurd rfl hop
    · rfl
  intro hbound other
  have hother := h hbound other
  show ((Function.update c.receivers member s other).lastMessageHashes ++ _).Perm _
  by_cases hne : other = member
  · subst hne
    rw [Function.update_self, hwindow]
    exact hother
  · rw [Function.update_of_ne hne]
    exact hother

theorem windowsComplete_of_run {neighbors : M → Finset (EndpointId X)} {cancelled : M → Bool}
    {ops : List (ClusterOp X M)}
    (hrun : run Cluster.step (Cluster.start neighbors cancelled) ops = some c) :
    WindowsComplete c := by
  refine run_preserves (P := WindowsComplete) ?_ hrun ?_
  · intro c op d hstep h
    cases op with
    | broadcast sender content => exact windowsComplete_broadcast h hstep
    | deliver member index => exact windowsComplete_deliver h hstep
    | receiver member op => exact windowsComplete_receiver h hstep
  · exact fun _ member => List.Perm.refl _

/-- Leaving aside the all-zero hash, `a` and one other member are the only ones who
spoke, and no message of `a` has the hash of another member's. -/
structure OnlyTwoSpoke (X : Externals) (broadcasts : List (M × List UInt8)) (a b : M) :
    Prop where
  spoke : ∃ broadcast ∈ broadcasts, broadcast.1 = a ∧ X.sha512 broadcast.2 ≠ zeroBytes 32
  answered : ∃ broadcast ∈ broadcasts, broadcast.1 ≠ a
  nobodyElse : ∀ broadcast ∈ broadcasts, X.sha512 broadcast.2 ≠ zeroBytes 32 →
    broadcast.1 = a ∨ broadcast.1 = b
  unlike : ∀ own ∈ broadcasts, own.1 = a → X.sha512 own.2 ≠ zeroBytes 32 →
    ∀ other ∈ broadcasts, other.1 ≠ a → X.sha512 own.2 ≠ X.sha512 other.2

def nonzeroHashes (window : List (Bytes 32)) : List (Bytes 32) :=
  window.filter fun hash => hash ≠ zeroBytes 32

theorem mem_nonzeroHashes_iff {broadcasts : List (M × List UInt8)} {member : M}
    {hash : Bytes 32} : hash ∈ nonzeroHashes (otherHashes X broadcasts member) ↔
      hash ≠ zeroBytes 32 ∧
        ∃ broadcast ∈ broadcasts, broadcast.1 ≠ member ∧ X.sha512 broadcast.2 = hash := by
  rw [nonzeroHashes, List.mem_filter, mem_otherHashes_iff, decide_eq_true_eq, and_comm]

theorem onlyTwoSpoke_of_disjoint {broadcasts : List (M × List UInt8)} {a b : M}
    (hlocal : otherHashes X broadcasts a ≠ [])
    (hremote : nonzeroHashes (otherHashes X broadcasts b) ≠ [])
    (hdisjoint : (otherHashes X broadcasts a).Disjoint
      (nonzeroHashes (otherHashes X broadcasts b))) : OnlyTwoSpoke X broadcasts a b := by
  have hnever : ∀ own ∈ broadcasts, own.1 ≠ b → X.sha512 own.2 ≠ zeroBytes 32 →
      ∀ other ∈ broadcasts, other.1 ≠ a → X.sha512 own.2 ≠ X.sha512 other.2 := by
    intro own hown hb hzero other hother ha hsame
    exact hdisjoint (mem_otherHashes_iff.mpr ⟨other, hother, ha, hsame.symm⟩)
      (mem_nonzeroHashes_iff.mpr ⟨hzero, own, hown, hb, rfl⟩)
  have hnobodyElse : ∀ broadcast ∈ broadcasts, X.sha512 broadcast.2 ≠ zeroBytes 32 →
      broadcast.1 = a ∨ broadcast.1 = b := by
    intro broadcast hmem hzero
    by_contra hneither
    obtain ⟨ha, hb⟩ := not_or.mp hneither
    exact hnever broadcast hmem hb hzero broadcast hmem ha rfl
  obtain ⟨hash, hhash⟩ := List.exists_mem_of_ne_nil _ hremote
  obtain ⟨hzero, own, hown, hb, rfl⟩ := mem_nonzeroHashes_iff.mp hhash
  have ha : own.1 = a := (hnobodyElse own hown hzero).resolve_right hb
  obtain ⟨hash, hhash⟩ := List.exists_mem_of_ne_nil _ hlocal
  obtain ⟨other, hother, hne, -⟩ := mem_otherHashes_iff.mp hhash
  refine ⟨⟨own, hown, ha, hzero⟩, ⟨other, hother, hne⟩, hnobodyElse, ?_⟩
  intro own' hown' ha' hzero'
  exact hnever own' hown' (fun hb' => hb (ha.trans (ha'.symm.trans hb'))) hzero'

theorem disjoint_iff_onlyTwoSpoke {broadcasts : List (M × List UInt8)} {a b : M} (hne : a ≠ b) :
    (otherHashes X broadcasts a ≠ [] ∧ nonzeroHashes (otherHashes X broadcasts b) ≠ [] ∧
      (otherHashes X broadcasts a).Disjoint (nonzeroHashes (otherHashes X broadcasts b))) ↔
      OnlyTwoSpoke X broadcasts a b := by
  constructor
  · rintro ⟨hlocal, hremote, hdisjoint⟩
    exact onlyTwoSpoke_of_disjoint hlocal hremote hdisjoint
  · rintro ⟨⟨own, hown, hspeaker, hzero⟩, ⟨other, hother, hnot⟩, hnobodyElse, hunlike⟩
    refine ⟨?_, ?_, ?_⟩
    · exact List.ne_nil_of_mem (mem_otherHashes_iff.mpr ⟨other, hother, hnot, rfl⟩)
    · refine List.ne_nil_of_mem (mem_nonzeroHashes_iff.mpr ⟨hzero, own, hown, ?_, rfl⟩)
      exact hspeaker ▸ hne
    · intro hash hleft hright
      obtain ⟨other, hother, hnot, hhash⟩ := mem_otherHashes_iff.mp hleft
      obtain ⟨hzero, own, hown, hb, rfl⟩ := mem_nonzeroHashes_iff.mp hright
      have ha : own.1 = a := (hnobodyElse own hown hzero).resolve_right hb
      exact hunlike own hown ha hzero other hother hnot hhash.symm

theorem eq_nil_iff_of_perm {window hashes : List (Bytes 32)} (h : window.Perm hashes) :
    window = [] ↔ hashes = [] := by
  constructor
  · rintro rfl
    exact h.nil_eq.symm
  · rintro rfl
    exact h.eq_nil

theorem disjoint_windows_iff {window window' hashes hashes' : List (Bytes 32)}
    (h : window.Perm hashes) (h' : window'.Perm hashes') :
    (window ≠ [] ∧ nonzeroHashes window' ≠ [] ∧ window.Disjoint (nonzeroHashes window')) ↔
      hashes ≠ [] ∧ nonzeroHashes hashes' ≠ [] ∧ hashes.Disjoint (nonzeroHashes hashes') := by
  have hnonzero : (nonzeroHashes window').Perm (nonzeroHashes hashes') := h'.filter _
  rw [Ne, Ne, eq_nil_iff_of_perm h, eq_nil_iff_of_perm hnonzero, h.disjoint_left,
    hnonzero.disjoint_right]

/-- Every broadcast has arrived, and each member builds a record of what it then has. -/
structure Delivered (c : Cluster X M) (tick : M → PublishTick X) : Prop where
  bound : c.broadcasts.length ≤ maxMessageHashes
  arrived : ∀ member, c.inFlight member = []
  neighbors : ∀ member, (tick member).neighbors = .ok (c.receivers member).neighbors
  lastMessageHashes : ∀ member,
    (tick member).lastMessageHashes = .ok (c.receivers member).lastMessageHashes

theorem Delivered.window_perm {tick : M → PublishTick X} (h : Delivered c tick)
    (hcomplete : WindowsComplete c) (member : M) :
    (c.receivers member).lastMessageHashes.Perm (otherHashes X c.broadcasts member) := by
  have hmember := hcomplete h.bound member
  rw [h.arrived member, List.map_nil, List.append_nil] at hmember
  exact hmember

theorem exists_records (hX : EncodesContentLosslessly X) {tick : M → PublishTick X}
    (h : Delivered c tick) (hcomplete : WindowsComplete c) (publisher : M → RecordPublisher X) :
    ∃ record : M → Record,
      (∀ member, createRecord (publisher member) (tick member) = .ok (record member)) ∧
      ∀ a b, a ≠ b → ∀ records, record b ∈ records →
        (record b ∈ peersToJoin X (c.receivers a).lastMessageHashes records ↔
          OnlyTwoSpoke X c.broadcasts a b) := by
  choose record hrecord hadvertises using fun member =>
    createRecord_advertises hX (publisher member) (h.neighbors member)
      (h.lastMessageHashes member)
  refine ⟨record, hrecord, fun a b hne records hmem => ?_⟩
  have hlength : (c.receivers b).lastMessageHashes.length ≤ maxMessageHashes := by
    rw [(h.window_perm hcomplete b).length_eq]
    exact (length_otherHashes_le c.broadcasts b).trans h.bound
  rw [mem_peersToJoin_iff (hadvertises b) hmem, List.take_of_length_le hlength,
    ← disjoint_iff_onlyTwoSpoke hne]
  exact disjoint_windows_iff (h.window_perm hcomplete a) (h.window_perm hcomplete b)

/-- In a cluster that is not partitioned no member takes another one's record for a sign
of a partition, unless exactly two members spoke and said nothing in common. -/
theorem no_false_alarm_iff (hX : EncodesContentLosslessly X)
    {neighbors : M → Finset (EndpointId X)} {cancelled : M → Bool} {ops : List (ClusterOp X M)}
    (hrun : run Cluster.step (Cluster.start neighbors cancelled) ops = some c)
    {tick : M → PublishTick X} (hdelivered : Delivered c tick)
    (publisher : M → RecordPublisher X) :
    ∃ record : M → Record,
      (∀ member, createRecord (publisher member) (tick member) = .ok (record member)) ∧
      ((∀ a b, a ≠ b → ∀ records, record b ∈ records →
          record b ∉ peersToJoin X (c.receivers a).lastMessageHashes records) ↔
        ∀ a b, a ≠ b → ¬ OnlyTwoSpoke X c.broadcasts a b) := by
  obtain ⟨record, hrecord, hselected⟩ :=
    exists_records hX hdelivered (windowsComplete_of_run hrun) publisher
  refine ⟨record, hrecord, ?_, ?_⟩
  · intro hquiet a b hne hspoke
    have hmem : record b ∈ ({record b} : Finset Record) := Finset.mem_singleton_self _
    exact hquiet a b hne _ hmem ((hselected a b hne _ hmem).mpr hspoke)
  · intro hcondition a b hne records hmem hselect
    exact hcondition a b hne ((hselected a b hne records hmem).mp hselect)

/-- The members as publishers, and what each publishes in minute 7. -/
def memberPublisher {n : Nat} (i : Fin n) : RecordPublisher reference :=
  samplePublisher (UInt8.ofNat i.val) {}

noncomputable def ticks {n : Nat} (c : Cluster reference (Fin n)) (i : Fin n) :
    PublishTick reference :=
  samplePublishTick (c.receivers i).lastMessageHashes

theorem delivered_ticks {n : Nat} {c : Cluster reference (Fin n)}
    (hbound : c.broadcasts.length ≤ maxMessageHashes) (harrived : ∀ i, c.inFlight i = [])
    (hneighbors : ∀ i, (c.receivers i).neighbors = ∅) : Delivered c (ticks c) where
  bound := hbound
  arrived := harrived
  neighbors i := by
    rw [hneighbors i]
    rfl
  lastMessageHashes _ := rfl

def threeSpeakers : List (ClusterOp reference (Fin 3)) :=
  [.broadcast 0 [1], .broadcast 1 [2], .broadcast 2 [3], .deliver 0 1, .deliver 0 0,
    .deliver 1 0, .deliver 1 0, .deliver 2 0, .deliver 2 0]

theorem no_false_alarm_threeSpeakers : ∃ c,
    run Cluster.step (Cluster.start (fun _ => ∅) fun _ => false) threeSpeakers = some c ∧
      ∃ record : Fin 3 → Record,
        (∀ i, createRecord (memberPublisher i) (ticks c i) = .ok (record i)) ∧
        ∀ a b, a ≠ b → ∀ records, record b ∈ records →
          record b ∉ peersToJoin reference (c.receivers a).lastMessageHashes records := by
  obtain ⟨c, hrun, hbroadcasts, harrived, hneighbors⟩ : ∃ c,
      run Cluster.step (Cluster.start (fun _ => ∅) fun _ => false) threeSpeakers = some c ∧
        c.broadcasts = [(0, [1]), (1, [2]), (2, [3])] ∧ (∀ i, c.inFlight i = []) ∧
        ∀ i, (c.receivers i).neighbors = ∅ :=
    ⟨_, rfl, rfl, by decide, by decide⟩
  have hdelivered : Delivered c (ticks c) :=
    delivered_ticks (hbroadcasts ▸ by decide) harrived hneighbors
  obtain ⟨record, hrecord, hquiet⟩ :=
    no_false_alarm_iff reference_encodesContentLosslessly hrun hdelivered memberPublisher
  refine ⟨c, hrun, record, hrecord, hquiet.mpr fun a b _ hspoke => ?_⟩
  have hspeakers : ∀ i : Fin 3, (i, [UInt8.ofNat (i.val + 1)]) ∈ c.broadcasts := by
    rw [hbroadcasts]
    decide
  have hnonzero : ∀ i : Fin 3,
      reference.sha512 [UInt8.ofNat (i.val + 1)] ≠ zeroBytes 32 := by decide
  have hnotTwo : ∀ a b : Fin 3, ¬ ∀ i, i = a ∨ i = b := by decide
  exact hnotTwo a b fun i => hspoke.nobodyElse _ (hspeakers i) (hnonzero i)

def twoSpeakers : List (ClusterOp reference (Fin 2)) :=
  [.broadcast 0 [1], .broadcast 1 [2], .deliver 0 0, .deliver 1 0]

theorem two_speakers_alarmed : ∃ c,
    run Cluster.step (Cluster.start (fun _ => ∅) fun _ => false) twoSpeakers = some c ∧
      Delivered c (ticks c) ∧ ∃ record : Fin 2 → Record,
        (∀ i, createRecord (memberPublisher i) (ticks c i) = .ok (record i)) ∧
        record 1 ∈ peersToJoin reference (c.receivers 0).lastMessageHashes {record 1} := by
  obtain ⟨c, hrun, hbroadcasts, harrived, hneighbors⟩ : ∃ c,
      run Cluster.step (Cluster.start (fun _ => ∅) fun _ => false) twoSpeakers = some c ∧
        c.broadcasts = [(0, [1]), (1, [2])] ∧ (∀ i, c.inFlight i = []) ∧
        ∀ i, (c.receivers i).neighbors = ∅ :=
    ⟨_, rfl, rfl, by decide, by decide⟩
  have hdelivered : Delivered c (ticks c) :=
    delivered_ticks (hbroadcasts ▸ by decide) harrived hneighbors
  obtain ⟨record, hrecord, hselected⟩ := exists_records reference_encodesContentLosslessly
    hdelivered (windowsComplete_of_run hrun) memberPublisher
  refine ⟨c, hrun, hdelivered, record, hrecord, ?_⟩
  apply (hselected 0 1 (by decide) _ (Finset.mem_singleton_self _)).mpr
  rw [hbroadcasts]
  exact ⟨⟨(0, [1]), by decide, rfl, by decide⟩, ⟨(1, [2]), by decide, by decide⟩, by decide,
    by decide⟩

end TopicTracker.PartitionDetection
