import Mathlib.Logic.Function.Basic
import Mathlib.Data.List.Basic

/-!
# A map of machines

A service that keeps one small machine for each key in a map. An input names its key, and its output
and the machine's next state depend on that machine alone. `outputs_at`: of all that goes through the
map, the outputs at a key are those of the key's machine on the inputs at the key.
-/

namespace Keyed

variable {κ ι ο σ : Type} [DecidableEq κ]

/-- The outputs of a machine. -/
def outputs (step : σ → ι → ο × σ) : σ → List ι → List ο
  | _, [] => []
  | s, i :: l => (step s i).1 :: outputs step (step s i).2 l

/-- An input at `k`. -/
def stepAt (step : σ → ι → ο × σ) (m : κ → σ) (k : κ) (i : ι) : ο × (κ → σ) :=
  ((step (m k) i).1, Function.update m k (step (m k) i).2)

/-- The outputs of the map, each with its key. -/
def outputsAt (step : σ → ι → ο × σ) : (κ → σ) → List (κ × ι) → List (κ × ο)
  | _, [] => []
  | m, (k, i) :: l => (k, (stepAt step m k i).1) :: outputsAt step (stepAt step m k i).2 l

/-- The state that a machine comes to. -/
def run (step : σ → ι → ο × σ) : σ → List ι → σ :=
  List.foldl fun s i => (step s i).2

/-- The map that the inputs leave. -/
def runAt (step : σ → ι → ο × σ) : (κ → σ) → List (κ × ι) → κ → σ :=
  List.foldl fun m p => (stepAt step m p.1 p.2).2

/-- What a list of pairs has at `k`. -/
def select {α : Type} (k : κ) (l : List (κ × α)) : List α :=
  l.filterMap fun p => if p.1 = k then some p.2 else none

@[simp] theorem select_nil {α : Type} (k : κ) : select k ([] : List (κ × α)) = [] := rfl

theorem select_cons_self {α : Type} (k : κ) (a : α) (l : List (κ × α)) :
    select k ((k, a) :: l) = a :: select k l := by
  simp [select]

theorem select_cons_ne {α : Type} {j k : κ} (h : j ≠ k) (a : α) (l : List (κ × α)) :
    select k ((j, a) :: l) = select k l := by
  simp [select, h]

/-- The values may be mapped before or after. -/
theorem select_map {α β : Type} (k : κ) (f : α → β) (l : List (κ × α)) :
    select k (l.map fun p => (p.1, f p.2)) = (select k l).map f := by
  rw [select, select, List.filterMap_map, List.map_filterMap]
  congr 1
  funext p
  by_cases h : p.1 = k
  · simp [h]
  · simp [h]

/-- A machine that another one simulates step by step gives the same outputs. -/
theorem outputs_of_sim {σ' : Type} {step : σ → ι → ο × σ} {step' : σ' → ι → ο × σ'} (f : σ → σ')
    (h : ∀ s i, step' (f s) i = ((step s i).1, f (step s i).2)) (s : σ) (l : List ι) :
    outputs step' (f s) l = outputs step s l := by
  induction l generalizing s with
  | nil => rfl
  | cons i l ih => rw [outputs, outputs, h, ih]

/-- An input at another key leaves the machine of `k` as it is. -/
theorem stepAt_ne (step : σ → ι → ο × σ) {j k : κ} (h : j ≠ k) (m : κ → σ) (i : ι) :
    (stepAt step m j i).2 k = m k := Function.update_of_ne (Ne.symm h) _ _

/-- A machine comes where the inputs at its key bring it. -/
theorem run_at (step : σ → ι → ο × σ) (k : κ) (l : List (κ × ι)) (m : κ → σ) :
    runAt step m l k = run step (m k) (select k l) := by
  induction l generalizing m with
  | nil => rfl
  | cons p l ih =>
    obtain ⟨j, i⟩ := p
    rw [runAt, List.foldl_cons, ← runAt, ih]
    by_cases h : j = k
    · subst h
      rw [select_cons_self, run, List.foldl_cons]
      simp [stepAt]
    · rw [select_cons_ne h, stepAt_ne step h]

/-- **Machines do not interfere.** -/
theorem outputs_at (step : σ → ι → ο × σ) (k : κ) (l : List (κ × ι)) (m : κ → σ) :
    select k (outputsAt step m l) = outputs step (m k) (select k l) := by
  induction l generalizing m with
  | nil => rfl
  | cons p l ih =>
    obtain ⟨j, i⟩ := p
    rw [outputsAt]
    by_cases h : j = k
    · subst h
      rw [select_cons_self, select_cons_self, ih, outputs]
      simp [stepAt]
    · rw [select_cons_ne h, select_cons_ne h, ih, stepAt_ne step h]

end Keyed
