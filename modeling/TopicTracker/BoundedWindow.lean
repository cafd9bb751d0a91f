import Mathlib.Data.List.DropRight

namespace TopicTracker.BoundedWindow

variable {α : Type*} {capacity : Nat}

def push (capacity : Nat) (window : List α) (a : α) : List α :=
  (if window.length = capacity then window.tail else window) ++ [a]

theorem length_rtake (n : Nat) (as : List α) : (as.rtake n).length = min n as.length := by
  rw [List.rtake, List.length_drop]
  omega

theorem rtake_of_length_le {n : Nat} {as : List α} (h : as.length ≤ n) : as.rtake n = as := by
  rw [List.rtake, Nat.sub_eq_zero_of_le h, List.drop_zero]

theorem push_rtake (hcapacity : 0 < capacity) (as : List α) (a : α) :
    push capacity (as.rtake capacity) a = (as ++ [a]).rtake capacity := by
  by_cases hroom : as.length < capacity
  · have hlength : (as ++ [a]).length ≤ capacity := by
      rw [List.length_append]
      exact hroom
    rw [rtake_of_length_le hroom.le, rtake_of_length_le hlength, push,
      if_neg (Nat.ne_of_lt hroom)]
  · have hfull : (as.rtake capacity).length = capacity := by
      rw [length_rtake]
      omega
    obtain ⟨n, rfl⟩ := Nat.exists_eq_add_one.mpr hcapacity
    have hoffset : as.length - (n + 1) + 1 = as.length - n := by omega
    rw [push, if_pos hfull, List.rtake_concat_succ]
    congr 1
    rw [List.rtake, List.rtake, List.tail_drop, hoffset]

theorem foldl_push (hcapacity : 0 < capacity) (as : List α) :
    as.foldl (push capacity) [] = as.rtake capacity := by
  induction as using List.reverseRecOn with
  | nil => rw [List.foldl_nil, List.rtake_nil]
  | append_singleton as a ih =>
      rw [List.foldl_append, ih]
      exact push_rtake hcapacity as a

end TopicTracker.BoundedWindow
