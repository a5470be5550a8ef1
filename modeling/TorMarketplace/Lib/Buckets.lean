import Mathlib.Data.List.Basic

/-!
# Nonces in buckets

A cache of the values that were used, in buckets. Each use of a value drops the buckets that are no
longer `live`, clears the bucket it goes into if that is `full`, and tells whether the value is new
there. `check_refuses`: what is in a live bucket that is not full is refused; `remembers_check`: a
use makes the cache forget only what it drops or clears.
-/

namespace Buckets

variable {κ ν : Type} [DecidableEq κ]

/-- The values in the bucket `k`. -/
def bucket (c : List (κ × List ν)) (k : κ) : List ν := (c.lookup k).getD []

theorem bucket_filter (p : κ → Bool) (c : List (κ × List ν)) (k : κ) :
    bucket (c.filter fun e => p e.1) k = if p k then bucket c k else [] := by
  induction c with
  | nil => simp [bucket]
  | cons e c ih =>
    obtain ⟨j, l⟩ := e
    unfold bucket at ih ⊢
    by_cases hj : k = j
    · subst hj
      by_cases hp : p k = true
      · simp [hp]
      · simpa [List.filter_cons, hp] using ih
    · have hlookup : ((j, l) :: c).lookup k = c.lookup k := by
        rw [List.lookup_cons, beq_false_of_ne hj]
      rw [hlookup, ← ih, List.filter_cons]
      split
      · rw [List.lookup_cons, beq_false_of_ne hj]
      · rfl

theorem bucket_cons (l : List ν) (c : List (κ × List ν)) (j k : κ) :
    bucket ((k, l) :: c) j = if j = k then l else bucket c j := by
  unfold bucket
  rw [List.lookup_cons]
  by_cases h : j = k
  · simp [h]
  · simp [h, beq_false_of_ne h]

variable [DecidableEq ν]

/-- Whether `n` is new in the bucket `k`, and the cache after its use. -/
def check (live : κ → Bool) (full : List ν → Bool) (c : List (κ × List ν)) (k : κ) (n : ν) :
    Bool × List (κ × List ν) :=
  let kept := c.filter fun e => live e.1
  let entry := if full (bucket kept k) then [] else bucket kept k
  let others := kept.filter fun e => e.1 ≠ k
  if entry.contains n then (false, (k, entry) :: others) else (true, (k, n :: entry) :: others)

variable {live : κ → Bool} {full : List ν → Bool} {c : List (κ × List ν)} {j k : κ} {m n : ν}

/-- The bucket that a use goes into, before the value is added. -/
def entry (live : κ → Bool) (full : List ν → Bool) (c : List (κ × List ν)) (k : κ) : List ν :=
  if live k then (if full (bucket c k) then [] else bucket c k) else []

theorem check_eq (hnil : full [] = false) :
    check live full c k n =
      (decide (n ∉ entry live full c k),
        (k, if n ∈ entry live full c k then entry live full c k else n :: entry live full c k) ::
          (c.filter fun e => live e.1).filter fun e => e.1 ≠ k) := by
  have hentry : (if full (bucket (c.filter fun e => live e.1) k) then []
      else bucket (c.filter fun e => live e.1) k) = entry live full c k := by
    unfold entry
    rw [bucket_filter]
    by_cases hlive : live k = true
    · simp [hlive]
    · simp [hlive, hnil]
  simp only [check, hentry, List.contains_iff_mem]
  by_cases h : n ∈ entry live full c k
  · simp [h]
  · simp [h]

/-- **A value in a live bucket that is not full is refused.** -/
theorem check_refuses (hnil : full [] = false) (hlive : live k = true)
    (hfull : full (bucket c k) = false) (h : n ∈ bucket c k) :
    (check live full c k n).1 = false := by
  rw [check_eq hnil, entry, hlive, hfull]
  simpa using h

/-- A value is remembered from its use on. -/
theorem mem_check_self (hnil : full [] = false) : n ∈ bucket (check live full c k n).2 k := by
  rw [check_eq hnil, bucket_cons, if_pos rfl]
  split
  · assumption
  · exact List.mem_cons_self

/-- **A use makes the cache forget only** the buckets that it drops and the one that it clears. -/
theorem remembers_check (hnil : full [] = false) (hlive : live j = true)
    (hfull : j = k → full (bucket c k) = false) (h : m ∈ bucket c j) :
    m ∈ bucket (check live full c k n).2 j := by
  rw [check_eq hnil, bucket_cons]
  by_cases hj : j = k
  · subst hj
    have hentry : m ∈ entry live full c j := by
      rw [entry, hlive, hfull rfl]
      simpa using h
    rw [if_pos rfl]
    split
    · exact hentry
    · exact List.mem_cons_of_mem n hentry
  · rw [if_neg hj, bucket_filter (fun b => decide (b ≠ k)), if_pos (decide_eq_true hj),
      bucket_filter, if_pos hlive]
    exact h

omit [DecidableEq ν] in
theorem mem_of_mem_entry (h : m ∈ entry live full c k) : m ∈ bucket c k := by
  unfold entry at h
  split at h
  · split at h
    · exact absurd h List.not_mem_nil
    · exact h
  · exact absurd h List.not_mem_nil

/-- A value that is refused is in the cache. -/
theorem mem_of_check_refuses (hnil : full [] = false) (h : (check live full c k n).1 = false) :
    n ∈ bucket c k := by
  rw [check_eq hnil] at h
  exact mem_of_mem_entry (by simpa using h)

/-- **A value comes into the cache by a use that finds it new.** -/
theorem mem_of_mem_check (hnil : full [] = false) (h : m ∈ bucket (check live full c k n).2 j) :
    m ∈ bucket c j ∨ (j = k ∧ m = n ∧ (check live full c k n).1 = true) := by
  rw [check_eq hnil, bucket_cons] at h
  by_cases hj : j = k
  · subst hj
    rw [if_pos rfl] at h
    by_cases hn : n ∈ entry live full c j
    · rw [if_pos hn] at h
      exact .inl (mem_of_mem_entry h)
    · rw [if_neg hn] at h
      rcases List.mem_cons.mp h with rfl | h
      · exact .inr ⟨rfl, rfl, by rw [check_eq hnil]; exact decide_eq_true hn⟩
      · exact .inl (mem_of_mem_entry h)
  · rw [if_neg hj, bucket_filter (fun b => decide (b ≠ k)), if_pos (decide_eq_true hj), bucket_filter] at h
    split at h
    · exact .inl h
    · exact absurd h List.not_mem_nil

end Buckets
