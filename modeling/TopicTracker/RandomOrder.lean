import Mathlib.Data.Finset.Card

/-!
Values listed in an order that nobody promises: how a hash set is iterated, how a
list is shuffled, and what a prefix of such a list holds.
-/

namespace TopicTracker.RandomOrder

variable {α : Type*}

/-- An order in which each set over `α` is iterated. -/
structure IterationOrder (α : Type*) where
  visit : Finset α → List α
  coe_visit : ∀ s, (visit s : Multiset α) = s.val

/-- A shuffle: it permutes every list it is given. -/
structure Shuffle (α : Type*) where
  shuffle : List α → List α
  perm : ∀ xs, (shuffle xs).Perm xs

noncomputable def IterationOrder.toList (α : Type*) : IterationOrder α :=
  ⟨Finset.toList, Finset.coe_toList⟩

def Shuffle.identity (α : Type*) : Shuffle α := ⟨id, List.Perm.refl⟩

namespace IterationOrder

variable (order : IterationOrder α) (s : Finset α)

theorem nodup_visit : (order.visit s).Nodup := by
  have hval : (order.visit s : Multiset α).Nodup := by
    rw [order.coe_visit]
    exact s.nodup
  exact Multiset.coe_nodup.mp hval

@[simp] theorem mem_visit {a : α} : a ∈ order.visit s ↔ a ∈ s := by
  rw [← Multiset.mem_coe, order.coe_visit, Finset.mem_val]

@[simp] theorem length_visit : (order.visit s).length = s.card := by
  rw [← Multiset.coe_card, order.coe_visit, Finset.card_val]

end IterationOrder

/-- Distinct members of a set, as many as the limit allows. -/
structure Sample (limit : Nat) (s : Finset α) (xs : List α) : Prop where
  nodup : xs.Nodup
  subset : ∀ a ∈ xs, a ∈ s
  length : xs.length = min limit s.card

theorem Sample.of_take (order : IterationOrder α) (s : Finset α) (limit : Nat) :
    Sample limit s ((order.visit s).take limit) where
  nodup := (order.nodup_visit s).sublist (List.take_sublist _ _)
  subset a ha := (order.mem_visit s).mp (List.mem_of_mem_take ha)
  length := by rw [List.length_take, order.length_visit]

theorem Sample.of_shuffle (order : IterationOrder α) (shuffle : Shuffle α) (s : Finset α)
    (limit : Nat) : Sample limit s ((shuffle.shuffle (order.visit s)).take limit) where
  nodup := by
    have hnodup := (shuffle.perm (order.visit s)).nodup_iff.mpr (order.nodup_visit s)
    exact hnodup.sublist (List.take_sublist _ _)
  subset a ha := by
    have hmem := (shuffle.perm (order.visit s)).mem_iff.mp (List.mem_of_mem_take ha)
    exact (order.mem_visit s).mp hmem
  length := by
    rw [List.length_take, (shuffle.perm (order.visit s)).length_eq, order.length_visit]

theorem Sample.toFinset_eq [DecidableEq α] {limit : Nat} {s : Finset α} {xs : List α}
    (h : Sample limit s xs) (hlimit : s.card ≤ limit) : xs.toFinset = s := by
  have hsubset : xs.toFinset ⊆ s := fun x hx => h.subset x (List.mem_toFinset.mp hx)
  have hcard : xs.toFinset.card = s.card := by
    rw [List.toFinset_card_of_nodup h.nodup, h.length, min_eq_right hlimit]
  exact Finset.eq_of_subset_of_card_le hsubset hcard.ge

theorem Sample.mem_of_card_le [DecidableEq α] {limit : Nat} {s : Finset α} {xs : List α} {a : α}
    (h : Sample limit s xs) (hlimit : s.card ≤ limit) (ha : a ∈ s) : a ∈ xs := by
  rw [← h.toFinset_eq hlimit] at ha
  exact List.mem_toFinset.mp ha

end TopicTracker.RandomOrder
