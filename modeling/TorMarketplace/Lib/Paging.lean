import Mathlib.Data.List.Basic

/-!
# Pages of a sorted list

`page le limit offset l` is a window of `l` sorted by `le`. In a strict total order a value stands in the
window that its `rank`, the number of values before it, falls into (`mem_page_iff`). So whoever reads one
page after the other, of lists that may grow between two readings, comes past everything that was there at
first (`window_of_mono`): a value's rank only grows, and each page that does not have it lies before it.
-/

namespace Paging

variable {α : Type} {le : α → α → Bool} {l l' : List α} {x : α} {limit offset : ℕ}

/-- `ORDER BY … LIMIT ? OFFSET ?`. -/
def page (le : α → α → Bool) (limit offset : ℕ) (l : List α) : List α :=
  ((l.mergeSort le).drop offset).take limit

/-- The number of values of the list before `x`. -/
def rank (le : α → α → Bool) (l : List α) (x : α) : ℕ := l.countP fun y => !le x y

/-- A total preorder, as a test. -/
structure IsOrder (le : α → α → Bool) : Prop where
  trans : ∀ a b c, le a b = true → le b c = true → le a c = true
  total : ∀ a b, (le a b || le b a) = true

/-- No two values of the list are of one rank. -/
def Strict (le : α → α → Bool) (l : List α) : Prop := l.Pairwise fun a b => ¬ (le a b = true ∧ le b a = true)

theorem IsOrder.refl (h : IsOrder le) (a : α) : le a a = true := by simpa using h.total a a

/-- Where a value stands in a list. -/
theorem mem_window {a b : List α} (ha : x ∉ a) (hb : x ∉ b) :
    x ∈ ((a ++ x :: b).drop offset).take limit ↔ offset ≤ a.length ∧ a.length < offset + limit := by
  have hat : ∀ i, (a ++ x :: b)[i]? = some x ↔ i = a.length := by
    intro i
    rcases Nat.lt_trichotomy i a.length with hlt | rfl | hgt
    · rw [List.getElem?_append_left hlt]
      exact iff_of_false (fun h => ha (List.mem_of_getElem? h)) (by omega)
    · simp
    · obtain ⟨k, rfl⟩ := Nat.exists_eq_add_of_lt hgt
      rw [List.getElem?_append_right (by omega), show a.length + k + 1 - a.length = k + 1 by omega,
        List.getElem?_cons_succ]
      exact iff_of_false (fun h => hb (List.mem_of_getElem? h)) (by omega)
  rw [List.mem_iff_getElem?]
  constructor
  · rintro ⟨i, hi⟩
    rw [List.getElem?_take] at hi
    split at hi
    · rename_i hlt
      rw [List.getElem?_drop, hat] at hi
      omega
    · exact absurd hi (by simp)
  · rintro ⟨hlow, hhigh⟩
    refine ⟨a.length - offset, ?_⟩
    rw [List.getElem?_take, if_pos (by omega), List.getElem?_drop, hat]
    omega

/-- **A value is on the page that its rank falls into.** -/
theorem mem_page_iff (hle : IsOrder le) (hstrict : Strict le l) (hx : x ∈ l) :
    x ∈ page le limit offset l ↔ offset ≤ rank le l x ∧ rank le l x < offset + limit := by
  have hperm : (l.mergeSort le).Perm l := List.mergeSort_perm l le
  have hsorted : (l.mergeSort le).Pairwise fun a b => le a b = true :=
    List.pairwise_mergeSort hle.trans hle.total l
  have hsame : Strict le (l.mergeSort le) :=
    (hperm.pairwise_iff fun h h' => h ⟨h'.2, h'.1⟩).mpr hstrict
  obtain ⟨a, b, hsplit⟩ := List.append_of_mem (hperm.mem_iff.mpr hx)
  rw [hsplit, List.pairwise_append, List.pairwise_cons] at hsorted
  rw [hsplit, Strict, List.pairwise_append, List.pairwise_cons] at hsame
  obtain ⟨_, ⟨hafter, _⟩, hbefore⟩ := hsorted
  obtain ⟨_, ⟨hnotAfter, _⟩, hnotBefore⟩ := hsame
  have ha : ∀ y ∈ a, le x y = false := fun y hy => Bool.eq_false_iff.mpr fun h =>
    hnotBefore y hy x List.mem_cons_self ⟨hbefore y hy x List.mem_cons_self, h⟩
  have hrank : rank le l x = a.length := by
    rw [rank, ← hperm.countP_eq, hsplit, List.countP_append, List.countP_cons,
      List.countP_eq_length.mpr fun y hy => by simp [ha y hy],
      List.countP_eq_zero.mpr fun y hy => by simp [hafter y hy]]
    simp [hle.refl x]
  rw [page, hsplit, hrank]
  refine mem_window (fun hin => ?_) fun hin => ?_
  · exact absurd (hle.refl x) (by simp [ha x hin])
  · exact hnotAfter x hin ⟨hle.refl x, hle.refl x⟩

/-- A value of the list is not before itself. -/
theorem rank_lt_length (hle : IsOrder le) (hx : x ∈ l) : rank le l x < l.length := by
  refine Nat.lt_of_le_of_ne List.countP_le_length fun heq => ?_
  have hself := List.countP_eq_length.mp heq x hx
  simp [hle.refl x] at hself

theorem length_page (le : α → α → Bool) (limit offset : ℕ) (l : List α) :
    (page le limit offset l).length = min limit (l.length - offset) := by
  simp [page]

/-- **A rank that only grows falls into a window**, if the last window reaches beyond it. -/
theorem window_of_mono {r : ℕ → ℕ} {n k : ℕ} (hmono : ∀ i < k, r i ≤ r (i + 1))
    (hlast : r k < k * n + n) : ∃ i ≤ k, i * n ≤ r i ∧ r i < i * n + n := by
  induction k with
  | zero => exact ⟨0, Nat.le_refl 0, by omega, hlast⟩
  | succ k ih =>
    by_cases hlow : (k + 1) * n ≤ r (k + 1)
    · exact ⟨k + 1, Nat.le_refl _, hlow, hlast⟩
    · have hstep := hmono k (by omega)
      have hmul : (k + 1) * n = k * n + n := Nat.succ_mul k n
      obtain ⟨i, hi, hwindow⟩ := ih (fun i hi => hmono i (by omega)) (by omega)
      exact ⟨i, by omega, hwindow⟩

end Paging
