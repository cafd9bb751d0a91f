import Mathlib.Algebra.Order.Group.Nat
import Mathlib.Algebra.Group.Action.Defs
import Mathlib.Data.List.Pairwise

namespace TopicTracker.SpacedTimes

variable {α : Type*} [AddCommMonoid α] [PartialOrder α]

/-- The times come in order, each at least the gap after all before it. -/
def Spaced (gap : α) (times : List α) : Prop := times.Pairwise fun a b => a + gap ≤ b

theorem Spaced.sublist {gap : α} {times times' : List α} (h : Spaced gap times)
    (hsub : List.Sublist times' times) : Spaced gap times' :=
  List.Pairwise.sublist hsub h

/-- Spaced times between two bounds. The gap is spent once more than there are distances
between them, so it is also allowed above the upper bound. -/
theorem Spaced.add_nsmul_lt [IsOrderedCancelAddMonoid α] {gap : α} {times : List α}
    (h : Spaced gap times) {lower upper : α} (hbounds : lower < upper + gap)
    (hwithin : ∀ t ∈ times, lower ≤ t ∧ t < upper) :
    lower + times.length • gap < upper + gap := by
  induction times generalizing lower with
  | nil => simpa using hbounds
  | cons t times ih =>
      obtain ⟨hlater, hspaced⟩ := List.pairwise_cons.mp h
      obtain ⟨⟨hlower, hupper⟩, hrest⟩ := List.forall_mem_cons.mp hwithin
      have hnext : t + gap < upper + gap := add_lt_add_of_lt_of_le hupper le_rfl
      have htail := ih hspaced hnext fun t' ht' => ⟨hlater t' ht', (hrest t' ht').2⟩
      calc lower + (times.length + 1) • gap
          ≤ t + (times.length + 1) • gap := by gcongr
        _ = t + gap + times.length • gap := by rw [succ_nsmul', add_assoc]
        _ < upper + gap := htail

theorem Spaced.length_mul_lt {gap : Nat} {times : List Nat} (h : Spaced gap times)
    (hgap : 0 < gap) {lower upper : Nat} (hwithin : ∀ t ∈ times, lower ≤ t ∧ t < upper) :
    times.length * gap < upper - lower + gap := by
  rcases Nat.lt_or_ge lower (upper + gap) with hbounds | hempty
  · have hlt := h.add_nsmul_lt hbounds hwithin
    rw [smul_eq_mul] at hlt
    cases times with
    | nil =>
        rw [List.length_nil, Nat.zero_mul]
        exact Nat.lt_add_left _ hgap
    | cons t times =>
        have hfirst := hwithin t List.mem_cons_self
        omega
  · have hnone : times = [] := by
      refine List.eq_nil_iff_forall_not_mem.mpr fun t ht => ?_
      have hboth := hwithin t ht
      omega
    rw [hnone, List.length_nil, Nat.zero_mul]
    exact Nat.lt_add_left _ hgap

end TopicTracker.SpacedTimes
