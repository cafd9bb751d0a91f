import Mathlib.Algebra.Ring.Nat
import Mathlib.Data.List.Basic
import Mathlib.Data.List.TakeDrop

/-!
A bounded broadcast channel. Every receiver has its own position in the sequence of
all values sent so far; the channel keeps the last `capacity` of them, a receiver
that has fallen behind them skips to the oldest one kept, and a channel without
senders is closed.
-/

namespace TopicTracker.BroadcastChannel

variable {α : Type*}

/-- The answer to a receiver. -/
inductive Received (α : Type*)
  | value (a : α)
  | lagged (skipped : Nat)
  | closed
  | pending
deriving DecidableEq

/-- What a receiver at a position gets, and the position it moves to. -/
def recv (capacity : Nat) (sent : List α) (senders position : Nat) : Received α × Nat :=
  if position + capacity < sent.length then
    (.lagged (sent.length - capacity - position), sent.length - capacity)
  else
    match sent[position]? with
    | some a => (.value a, position + 1)
    | none => (if senders = 0 then .closed else .pending, position)

def buffered (capacity : Nat) (sent : List α) : List α := sent.drop (sent.length - capacity)

variable {capacity senders position : Nat} {sent : List α}

theorem recv_of_lagging (h : position + capacity < sent.length) :
    recv capacity sent senders position =
      (.lagged (sent.length - capacity - position), sent.length - capacity) := if_pos h

theorem recv_of_kept {a : α} (h : sent.length ≤ position + capacity)
    (hget : sent[position]? = some a) :
    recv capacity sent senders position = (.value a, position + 1) := by
  rw [recv, if_neg (Nat.not_lt.mpr h), hget]

theorem recv_of_end (h : sent.length ≤ position) :
    recv capacity sent senders position =
      (if senders = 0 then .closed else .pending, position) := by
  have hkept : ¬ position + capacity < sent.length := by omega
  rw [recv, if_neg hkept, List.getElem?_eq_none h]

theorem recv_cases (capacity : Nat) (sent : List α) (senders position : Nat) :
    (position + capacity < sent.length ∧ recv capacity sent senders position =
        (.lagged (sent.length - capacity - position), sent.length - capacity)) ∨
      (∃ a, sent[position]? = some a ∧ a ∈ buffered capacity sent ∧
        recv capacity sent senders position = (.value a, position + 1)) ∨
      (sent.length ≤ position ∧ recv capacity sent senders position =
        (if senders = 0 then .closed else .pending, position)) := by
  by_cases hlag : position + capacity < sent.length
  · exact .inl ⟨hlag, recv_of_lagging hlag⟩
  · by_cases hend : sent.length ≤ position
    · exact .inr (.inr ⟨hend, recv_of_end hend⟩)
    · have hlt : position < sent.length := Nat.not_le.mp hend
      have hget : sent[position]? = some sent[position] := List.getElem?_eq_getElem hlt
      refine .inr (.inl ⟨sent[position], hget, ?_, recv_of_kept (Nat.not_lt.mp hlag) hget⟩)
      rw [buffered, List.mem_iff_getElem?]
      refine ⟨position - (sent.length - capacity), ?_⟩
      rw [List.getElem?_drop, ← hget]
      congr 1
      omega

theorem recv_pending_iff : (recv capacity sent senders position).1 = .pending ↔
    sent.length ≤ position ∧ senders ≠ 0 := by
  rcases recv_cases capacity sent senders position with ⟨hlag, h⟩ | ⟨a, hget, -, h⟩ | ⟨hend, h⟩
  · rw [h]
    simp only [reduceCtorEq, false_iff]
    omega
  · have hlt := (List.getElem?_eq_some_iff.mp hget).1
    rw [h]
    simp only [reduceCtorEq, false_iff]
    omega
  · rw [h]
    by_cases hsenders : senders = 0 <;> simp [hend, hsenders]

theorem recv_position_le (h : position ≤ sent.length) :
    (recv capacity sent senders position).2 ≤ sent.length := by
  rcases recv_cases capacity sent senders position with ⟨-, heq⟩ | ⟨a, hget, -, heq⟩ | ⟨-, heq⟩
  · rw [heq]
    exact Nat.sub_le _ _
  · rw [heq]
    exact (List.getElem?_eq_some_iff.mp hget).1
  · rw [heq]
    exact h

/-- The answers to a receiver that began at `start` account for what was sent from there
on: each value is the next one, and `lagged` counts consecutive ones that were left out
when at least `kept` newer ones had been sent. -/
inductive Replays (kept : Nat) (sent : List α) (start : Nat) : List (Received α) → Nat → Prop
  | nil : Replays kept sent start [] start
  | value {answers : List (Received α)} {position : Nat} {a : α} :
      Replays kept sent start answers position → sent[position]? = some a →
      Replays kept sent start (answers ++ [.value a]) (position + 1)
  | lagged {answers : List (Received α)} {position skipped : Nat} :
      Replays kept sent start answers position → position + skipped + kept ≤ sent.length →
      Replays kept sent start (answers ++ [.lagged skipped]) (position + skipped)
  | closed {answers : List (Received α)} {position : Nat} :
      Replays kept sent start answers position →
      Replays kept sent start (answers ++ [.closed]) position

def valuesOf (answers : List (Received α)) : List α :=
  answers.filterMap fun
    | .value a => some a
    | _ => none

def skippedBy : Received α → Nat
  | .lagged skipped => skipped
  | _ => 0

def totalSkipped (answers : List (Received α)) : Nat := (answers.map skippedBy).sum

theorem valuesOf_append (answers : List (Received α)) (answer : Received α) :
    valuesOf (answers ++ [answer]) = valuesOf answers ++ valuesOf [answer] :=
  List.filterMap_append

theorem totalSkipped_append (answers : List (Received α)) (answer : Received α) :
    totalSkipped (answers ++ [answer]) = totalSkipped answers + skippedBy answer := by
  simp [totalSkipped]

theorem take_drop_succ {start : Nat} {a : α} (hstart : start ≤ position)
    (hget : sent[position]? = some a) :
    (sent.drop start).take (position + 1 - start) =
      (sent.drop start).take (position - start) ++ [a] := by
  have hnext : (sent.drop start)[position - start]? = some a := by
    rw [List.getElem?_drop, Nat.add_sub_cancel' hstart, hget]
  rw [Nat.sub_add_comm hstart, List.take_add_one, hnext]
  rfl

namespace Replays

variable {kept start : Nat} {answers : List (Received α)}

theorem append_sent (h : Replays kept sent start answers position) (more : List α) :
    Replays kept (sent ++ more) start answers position := by
  induction h with
  | nil => exact .nil
  | value _ hget ih =>
      refine ih.value ?_
      rw [List.getElem?_append_left (List.getElem?_eq_some_iff.mp hget).1, hget]
  | lagged _ hkept ih =>
      refine ih.lagged ?_
      rw [List.length_append]
      omega
  | closed _ ih => exact ih.closed

theorem le_length (h : Replays kept sent start answers position) (hstart : start ≤ sent.length) :
    position ≤ sent.length := by
  induction h with
  | nil => exact hstart
  | value _ hget _ => exact (List.getElem?_eq_some_iff.mp hget).1
  | lagged _ hkept _ => omega
  | closed _ ih => exact ih

theorem start_le (h : Replays kept sent start answers position) : start ≤ position := by
  induction h with
  | nil => exact Nat.le_refl _
  | value _ _ ih => exact Nat.le_succ_of_le ih
  | lagged _ _ ih => exact Nat.le_add_right_of_le ih
  | closed _ ih => exact ih

/-- Every value is handed out or counted as left out, and none twice. -/
theorem account (h : Replays kept sent start answers position) :
    start + (valuesOf answers).length + totalSkipped answers = position := by
  induction h with
  | nil => rfl
  | value _ _ ih =>
      rw [valuesOf_append, totalSkipped_append, List.length_append, ← ih]
      simp only [valuesOf, skippedBy, List.filterMap_cons, List.filterMap_nil,
        List.length_singleton]
      omega
  | lagged _ _ ih =>
      rw [valuesOf_append, totalSkipped_append, List.length_append, ← ih]
      simp only [valuesOf, skippedBy, List.filterMap_cons, List.filterMap_nil, List.length_nil]
      omega
  | closed _ ih =>
      rw [valuesOf_append, totalSkipped_append, List.length_append, ← ih]
      rfl

theorem values_sublist (h : Replays kept sent start answers position) :
    (valuesOf answers).Sublist ((sent.drop start).take (position - start)) := by
  induction h with
  | nil => exact List.nil_sublist _
  | value h hget ih =>
      rw [valuesOf_append, take_drop_succ h.start_le hget]
      exact ih.append (List.Sublist.refl _)
  | lagged _ _ ih =>
      rw [valuesOf_append]
      refine (List.append_nil _).symm ▸ ih.trans ?_
      exact (List.take_prefix_take_left (by omega)).sublist
  | closed _ ih =>
      rw [valuesOf_append]
      exact (List.append_nil _).symm ▸ ih

end Replays

end TopicTracker.BroadcastChannel
