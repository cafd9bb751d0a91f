import TopicTracker.BoundedWindow
import TopicTracker.JoinWakeup
import TopicTracker.RecordAdvertising

namespace TopicTracker.MessageWindow

open TopicTracker.RustValues
open TopicTracker.ThirdParty
open TopicTracker.ReferenceExternals (reference)
open TopicTracker.StepMachine
open TopicTracker.BoundedWindow
open TopicTracker.RecordAdvertising
open TopicTracker.BootstrapLoop (EndpointId)
open TopicTracker.GossipReceiver
open TopicTracker.JoinWakeup (sampleEndpoint)

variable {X : Externals} {s t : State X}

def receivedContent : Op X → Option (List UInt8)
  | .event (.received content) => some content
  | _ => none

def receivedHashes (ops : List (Op X)) : List (Bytes 32) :=
  (ops.filterMap receivedContent).map X.sha512

theorem windowAfter_eq (window : List (Bytes 32)) (op : Op X) :
    windowAfter window op = (receivedHashes [op]).foldl (push maxMessageHashes) window := by
  cases op with
  | event event => cases event <;> rfl
  | _ => rfl

theorem receivedHashes_append (ops ops' : List (Op X)) :
    receivedHashes (ops ++ ops') = receivedHashes ops ++ receivedHashes ops' := by
  rw [receivedHashes, List.filterMap_append, List.map_append, receivedHashes, receivedHashes]

theorem lastMessageHashes_of_run {ops : List (Op X)} (hrun : run step s ops = some t) :
    t.lastMessageHashes =
      (receivedHashes ops).foldl (push maxMessageHashes) s.lastMessageHashes := by
  induction ops generalizing s with
  | nil =>
      obtain rfl : s = t := by simpa using hrun
      rfl
  | cons op ops ih =>
      obtain ⟨m, hm, hrest⟩ := run_cons_eq_some_iff.mp hrun
      rw [ih hrest, lastMessageHashes_of_step hm, windowAfter_eq, ← List.foldl_append,
        ← receivedHashes_append, List.singleton_append]

theorem windowAfter_of_not_received {window : List (Bytes 32)} {op : Op X}
    (h : receivedContent op = none) : windowAfter window op = window := by
  rw [windowAfter_eq, receivedHashes, List.filterMap_cons_none h]
  rfl

/-- After any run the window holds the hashes of the latest messages received, at most
`MAX_MESSAGE_HASHES` of them, in order. What is no message leaves it as it is, and the
publisher copies the whole of it into its array. -/
theorem message_window (neighbors : Finset (EndpointId X)) (cancelled : Bool)
    (ops : List (Op X)) (s : State X)
    (hrun : run step (State.start neighbors cancelled) ops = some s) :
    s.lastMessageHashes = (receivedHashes ops).rtake maxMessageHashes ∧
      s.lastMessageHashes.length = min maxMessageHashes (receivedHashes ops).length ∧
      (∀ op t, step s op = some t → receivedContent op = none →
        t.lastMessageHashes = s.lastMessageHashes) ∧
      ∃ array : List.Vector (Bytes 32) maxMessageHashes,
        copyFromSlice (List.Vector.replicate maxMessageHashes (zeroBytes 32))
          (advertisedHashes s.lastMessageHashes) = .ok array ∧
        array.toList.take s.lastMessageHashes.length = s.lastMessageHashes := by
  have hwindow : s.lastMessageHashes = (receivedHashes ops).rtake maxMessageHashes := by
    rw [lastMessageHashes_of_run hrun]
    exact foldl_push (by decide) (receivedHashes ops)
  have hlength : s.lastMessageHashes.length = min maxMessageHashes (receivedHashes ops).length := by
    rw [hwindow, length_rtake]
  have hbound : s.lastMessageHashes.length ≤ maxMessageHashes := hlength ▸ Nat.min_le_left _ _
  refine ⟨hwindow, hlength, ?_, ?_⟩
  · intro op t hstep hother
    rw [lastMessageHashes_of_step hstep, windowAfter_of_not_received hother]
  · rw [advertisedHashes_eq, List.take_of_length_le hbound]
    obtain ⟨array, hcopied, hcontent⟩ := copyFromSlice_zero hbound
    refine ⟨array, hcopied, ?_⟩
    rw [hcontent, List.take_left]

def sevenMessages : List (Op reference) :=
  [.event (.received [1]), .event (.neighborUp sampleEndpoint), .event (.received [2]), .query,
    .event (.received [3]), .event .lagged, .event (.received [1]), .event (.received [4]),
    .event (.neighborDown sampleEndpoint), .query, .event (.received [5]),
    .event (.received [6])]

theorem message_window_sevenMessages : ∃ s,
    run step (State.start ∅ false) sevenMessages = some s ∧
      s.lastMessageHashes = [[3], [1], [4], [5], [6]].map reference.sha512 :=
  ⟨_, rfl, (message_window ∅ false sevenMessages _ rfl).1⟩

end TopicTracker.MessageWindow
