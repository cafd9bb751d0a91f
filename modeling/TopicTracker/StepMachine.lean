import Mathlib.Algebra.Ring.Nat
import Mathlib.Data.Option.Basic
import Mathlib.Data.List.Induction
import Mathlib.Order.Basic

/-!
Machines that answer every input with their next state or refuse it, their runs
on input lists, and the induction rules for what a run preserves.
-/

namespace TopicTracker.StepMachine

variable {σ ι : Type*}

/-- The state after a list of inputs, if none of them is refused. -/
def run (step : σ → ι → Option σ) : σ → List ι → Option σ
  | s, [] => some s
  | s, i :: is => (step s i).bind fun t => run step t is

variable {step : σ → ι → Option σ}

@[simp] theorem run_nil (s : σ) : run step s [] = some s := rfl

theorem run_cons_eq_some_iff {s t : σ} {i : ι} {is : List ι} :
    run step s (i :: is) = some t ↔ ∃ m, step s i = some m ∧ run step m is = some t := by
  simp [run, Option.bind_eq_some_iff]

theorem run_append (s : σ) (is js : List ι) :
    run step s (is ++ js) = (run step s is).bind fun t => run step t js := by
  induction is generalizing s with
  | nil => rfl
  | cons i is ih =>
      rw [List.cons_append, run, run, Option.bind_assoc]
      congr 1
      funext t
      exact ih t

/-- Every input of a run meets the condition in the state that it finds. -/
def AllSteps (step : σ → ι → Option σ) (C : σ → ι → Prop) : σ → List ι → Prop
  | _, [] => True
  | s, i :: is => C s i ∧ ∀ t ∈ step s i, AllSteps step C t is

instance AllSteps.decidable {C : σ → ι → Prop} [∀ s i, Decidable (C s i)] :
    ∀ (s : σ) (is : List ι), Decidable (AllSteps step C s is)
  | _, [] => isTrue trivial
  | s, i :: is =>
      have : DecidablePred fun t => AllSteps step C t is := fun t => decidable t is
      inferInstanceAs (Decidable (C s i ∧ ∀ t ∈ step s i, AllSteps step C t is))

theorem AllSteps.of_forall {C : σ → ι → Prop} {is : List ι} (h : ∀ i ∈ is, ∀ s, C s i) (s : σ) :
    AllSteps step C s is := by
  induction is generalizing s with
  | nil => trivial
  | cons i is ih =>
      obtain ⟨hfirst, hrest⟩ := List.forall_mem_cons.mp h
      exact ⟨hfirst s, fun t _ => ih hrest t⟩

theorem AllSteps.and {C D : σ → ι → Prop} {s : σ} {is : List ι} (hC : AllSteps step C s is)
    (hD : AllSteps step D s is) : AllSteps step (fun s i => C s i ∧ D s i) s is := by
  induction is generalizing s with
  | nil => trivial
  | cons i is ih => exact ⟨⟨hC.1, hD.1⟩, fun t ht => ih (hC.2 t ht) (hD.2 t ht)⟩

theorem AllSteps.cons {C : σ → ι → Prop} {s t : σ} {i : ι} {is : List ι} (hC : C s i)
    (hstep : step s i = some t) (hrest : AllSteps step C t is) :
    AllSteps step C s (i :: is) := by
  refine ⟨hC, fun t' ht' => ?_⟩
  obtain rfl : t = t' := Option.some.inj (hstep.symm.trans ht')
  exact hrest

theorem AllSteps.of_run_append {C : σ → ι → Prop} {s m : σ} {before : List ι} {i : ι}
    {after : List ι} (h : AllSteps step C s (before ++ i :: after))
    (hrun : run step s before = some m) : C m i := by
  induction before generalizing s with
  | nil =>
      obtain rfl : s = m := by simpa using hrun
      exact h.1
  | cons j before ih =>
      obtain ⟨n, hn, hrest⟩ := run_cons_eq_some_iff.mp hrun
      exact ih (h.2 n hn) hrest

/-- A condition on the steps that follows from another one under an invariant. -/
theorem AllSteps.imp {P : σ → Prop} {C D : σ → ι → Prop}
    (hstep : ∀ s i t, step s i = some t → C s i → P s → P t)
    (himp : ∀ s i, C s i → P s → D s i) {s : σ} {is : List ι} (hC : AllSteps step C s is)
    (hs : P s) : AllSteps step D s is := by
  induction is generalizing s with
  | nil => trivial
  | cons i is ih =>
      exact ⟨himp s i hC.1 hs, fun t ht => ih (hC.2 t ht) (hstep s i t ht hC.1 hs)⟩

theorem run_preserves_of_allSteps {P : σ → Prop} {C : σ → ι → Prop}
    (hstep : ∀ s i t, step s i = some t → C s i → P s → P t) {s t : σ} {is : List ι}
    (hC : AllSteps step C s is) (hrun : run step s is = some t) (hs : P s) : P t := by
  induction is generalizing s with
  | nil =>
      obtain rfl : s = t := by simpa using hrun
      exact hs
  | cons i is ih =>
      obtain ⟨m, hm, hrest⟩ := run_cons_eq_some_iff.mp hrun
      exact ih (hC.2 m hm) hrest (hstep s i m hm hC.1 hs)

theorem run_preserves {P : σ → Prop} (hstep : ∀ s i t, step s i = some t → P s → P t)
    {s t : σ} {is : List ι} (hrun : run step s is = some t) (hs : P s) : P t :=
  run_preserves_of_allSteps (C := fun _ _ => True) (fun s i t ht _ => hstep s i t ht)
    (AllSteps.of_forall (fun _ _ _ => trivial) s) hrun hs

/-- Induction along a run for an invariant that also counts what the inputs cost. -/
theorem run_spends_of_allSteps {P : Nat → σ → Prop} {C : σ → ι → Prop} {cost : ι → Nat}
    (hstep : ∀ n s i t, step s i = some t → C s i → P n s → P (n + cost i) t) {n : Nat}
    {s t : σ} {is : List ι} (hC : AllSteps step C s is) (hrun : run step s is = some t)
    (hs : P n s) : P (n + (is.map cost).sum) t := by
  induction is generalizing n s with
  | nil =>
      obtain rfl : s = t := by simpa using hrun
      exact hs
  | cons i is ih =>
      obtain ⟨m, hm, hrest⟩ := run_cons_eq_some_iff.mp hrun
      rw [List.map_cons, List.sum_cons, ← Nat.add_assoc]
      exact ih (hC.2 m hm) hrest (hstep n s i m hm hC.1 hs)

/-- What the inputs of a run put out, each in the state that it finds. -/
def outputs {ο : Type*} (step : σ → ι → Option σ) (out : σ → ι → List ο) : σ → List ι → List ο
  | _, [] => []
  | s, i :: is => out s i ++ (step s i).elim [] fun t => outputs step out t is

/-- Induction along a run for an invariant of the state and of what was put out so far. -/
theorem run_accumulates_of_allSteps {ο : Type*} {out : σ → ι → List ο} {P : List ο → σ → Prop}
    {C : σ → ι → Prop}
    (hstep : ∀ log s i t, step s i = some t → C s i → P log s → P (log ++ out s i) t)
    {log : List ο} {s t : σ} {is : List ι} (hC : AllSteps step C s is)
    (hrun : run step s is = some t) (hs : P log s) : P (log ++ outputs step out s is) t := by
  induction is generalizing log s with
  | nil =>
      obtain rfl : s = t := by simpa using hrun
      simpa [outputs] using hs
  | cons i is ih =>
      obtain ⟨m, hm, hrest⟩ := run_cons_eq_some_iff.mp hrun
      rw [outputs, hm, Option.elim_some, ← List.append_assoc]
      exact ih (hC.2 m hm) hrest (hstep log s i m hm hC.1 hs)

theorem run_accumulates {ο : Type*} {out : σ → ι → List ο} {P : List ο → σ → Prop}
    (hstep : ∀ log s i t, step s i = some t → P log s → P (log ++ out s i) t)
    {log : List ο} {s t : σ} {is : List ι} (hrun : run step s is = some t) (hs : P log s) :
    P (log ++ outputs step out s is) t :=
  run_accumulates_of_allSteps (C := fun _ _ => True) (fun log s i t ht _ => hstep log s i t ht)
    (AllSteps.of_forall (fun _ _ _ => trivial) s) hrun hs

/-- A run with a step that does not meet the condition, split at such a step. -/
theorem exists_step_of_not_allSteps {C : σ → ι → Prop} {s t : σ} {is : List ι}
    (hrun : run step s is = some t) (hC : ¬ AllSteps step C s is) :
    ∃ before i after m n, is = before ++ i :: after ∧ run step s before = some m ∧
      ¬ C m i ∧ step m i = some n ∧ run step n after = some t := by
  induction is generalizing s with
  | nil => exact absurd trivial hC
  | cons i is ih =>
      obtain ⟨n, hn, hrest⟩ := run_cons_eq_some_iff.mp hrun
      by_cases hfirst : C s i
      · have hlater : ¬ AllSteps step C n is := fun hall => hC (.cons hfirst hn hall)
        obtain ⟨before, j, after, m, n', rfl, hbefore, hviolates, hstep, hafter⟩ :=
          ih hrest hlater
        exact ⟨i :: before, j, after, m, n', rfl,
          run_cons_eq_some_iff.mpr ⟨n, hn, hbefore⟩, hviolates, hstep, hafter⟩
      · exact ⟨[], i, is, s, n, rfl, rfl, hfirst, hn, hrest⟩

def Throughout (step : σ → ι → Option σ) (P : σ → Prop) : σ → List ι → Prop
  | s, [] => P s
  | s, i :: is => P s ∧ ∀ t ∈ step s i, Throughout step P t is

instance Throughout.decidable {P : σ → Prop} [DecidablePred P] :
    ∀ (s : σ) (is : List ι), Decidable (Throughout step P s is)
  | s, [] => inferInstanceAs (Decidable (P s))
  | s, i :: is =>
      have : DecidablePred fun t => Throughout step P t is := fun t => decidable t is
      inferInstanceAs (Decidable (P s ∧ ∀ t ∈ step s i, Throughout step P t is))

theorem Throughout.head {P : σ → Prop} {s : σ} {is : List ι}
    (h : Throughout step P s is) : P s := by
  cases is with
  | nil => exact h
  | cons i is => exact h.1

theorem Throughout.allSteps {Q : σ → Prop} {s : σ} {is : List ι} (h : Throughout step Q s is) :
    AllSteps step (fun s i => Q s ∧ ∀ t ∈ step s i, Q t) s is := by
  induction is generalizing s with
  | nil => trivial
  | cons i is ih =>
      exact ⟨⟨h.1, fun t ht => (h.2 t ht).head⟩, fun t ht => ih (h.2 t ht)⟩

theorem run_preserves_of_throughout {P Q : σ → Prop}
    (hstep : ∀ s i t, step s i = some t → Q s → Q t → P s → P t)
    {s t : σ} {is : List ι} (hQ : Throughout step Q s is) (hrun : run step s is = some t)
    (hs : P s) : P t :=
  run_preserves_of_allSteps (fun s i t ht hC => hstep s i t ht hC.1 (hC.2 t ht)) hQ.allSteps
    hrun hs

theorem throughout_of_reached {P : σ → Prop} {s : σ} {is : List ι}
    (h : ∀ before after t, is = before ++ after → run step s before = some t → P t) :
    Throughout step P s is := by
  induction is generalizing s with
  | nil => exact h [] [] s rfl rfl
  | cons i is ih =>
      refine ⟨h [] (i :: is) s rfl rfl, fun t ht => ih ?_⟩
      rintro before after u rfl hrun
      exact h (i :: before) after u rfl (run_cons_eq_some_iff.mpr ⟨t, ht, hrun⟩)

section Flags

variable {κ : Type*} {raised : κ → σ → Prop} {missed : κ → κ → σ → Prop}

/-- Who misses the flag of another in this step has raised its own before, and the other
one is still down. -/
def MissesOnlyDown (step : σ → ι → Option σ) (raised : κ → σ → Prop)
    (missed : κ → κ → σ → Prop) (s : σ) (i : ι) : Prop :=
  ∀ t ∈ step s i, ∀ x y, missed x y t → missed x y s ∨ raised x s ∧ ¬ raised y s

/-- Of two that raise a flag for good and look for the other's afterwards, one at least
sees it. -/
theorem run_not_both_missed
    (hraised : ∀ s i t, step s i = some t → ∀ x, raised x s → raised x t) {s t : σ}
    {is : List ι} (hmisses : AllSteps step (MissesOnlyDown step raised missed) s is)
    (hrun : run step s is = some t) (hs : ∀ x y, ¬ missed x y s) (x y : κ) :
    ¬ (missed x y t ∧ missed y x t) := by
  -- Whoever has missed a flag has its own up, so nobody can miss that one any more.
  have hinvariant : (∀ x y, missed x y t → raised x t) ∧
      ∀ x y, ¬ (missed x y t ∧ missed y x t) := by
    refine run_preserves_of_allSteps (P := fun t => (∀ x y, missed x y t → raised x t) ∧
      ∀ x y, ¬ (missed x y t ∧ missed y x t)) ?_ hmisses hrun
      ⟨fun x y hmissed => absurd hmissed (hs x y), fun x y hboth => hs x y hboth.1⟩
    rintro s i t ht hstep ⟨hown, hnot⟩
    constructor
    · intro x y hmissed
      rcases hstep t ht x y hmissed with hold | ⟨hup, -⟩
      · exact hraised s i t ht x (hown x y hold)
      · exact hraised s i t ht x hup
    · rintro x y ⟨hxy, hyx⟩
      rcases hstep t ht x y hxy with hxy | ⟨hx, hy⟩
      · rcases hstep t ht y x hyx with hyx | ⟨-, hx⟩
        · exact hnot x y ⟨hxy, hyx⟩
        · exact hx (hown x y hxy)
      · rcases hstep t ht y x hyx with hyx | ⟨-, hx'⟩
        · exact hy (hown y x hyx)
        · exact hx' hx
  exact hinvariant.2 x y

end Flags

end TopicTracker.StepMachine
