import Mathlib.Data.List.Nodup

/-!
# Tables with a primary key

A table is a list of rows of which no two have one key. `find` is the query by key, `insert` adds a row
whose key is free, and `update` replaces the rows that match by what is made of them, which leaves
their keys as they are.
-/

variable {K R : Type}

/-- Rows under their keys, in some order. -/
structure Table (key : R → K) where
  rows : List R
  nodup : (rows.map key).Nodup

/-- An update: what it matches, and what it makes of a row. -/
structure Table.Update (key : R → K) where
  matchesRow : R → Bool
  set : R → R
  key_set : ∀ r, key (set r) = key r

namespace Table

variable {key : R → K} [DecidableEq K]

def empty (key : R → K) : Table key where
  rows := []
  nodup := List.nodup_nil

def find (t : Table key) (k : K) : Option R := t.rows.find? fun r => key r = k

/-- The table with one row more, if its key is free. -/
def insert (t : Table key) (r : R) : Option (Table key) :=
  if h : key r ∈ t.rows.map key then none
  else some
    { rows := t.rows ++ [r]
      nodup := by
        rw [List.map_append]
        refine List.nodup_append.mpr ⟨t.nodup, List.nodup_singleton _, fun a ha b hb hab => ?_⟩
        obtain rfl := List.mem_singleton.mp hb
        exact h (hab ▸ ha) }

/-- One row after an update. -/
def Update.apply (u : Update key) (r : R) : R := if u.matchesRow r then u.set r else r

omit [DecidableEq K] in
theorem Update.key_apply (u : Update key) (r : R) : key (u.apply r) = key r := by
  unfold Update.apply
  split
  · exact u.key_set r
  · rfl

def update (t : Table key) (u : Update key) : Table key where
  rows := t.rows.map u.apply
  nodup := by
    have hkey : key ∘ u.apply = key := funext u.key_apply
    rw [List.map_map, hkey]
    exact t.nodup

/-- The number of rows that an update matches. -/
def affected (t : Table key) (u : Update key) : Nat := t.rows.countP u.matchesRow

variable {t t' : Table key} {k : K} {r : R} {u : Update key}

theorem mem_of_find (h : t.find k = some r) : r ∈ t.rows ∧ key r = k := by
  unfold find at h
  have hkey := List.find?_some h
  exact ⟨List.mem_of_find?_eq_some h, of_decide_eq_true hkey⟩

theorem find_of_mem (h : r ∈ t.rows) : t.find (key r) = some r := by
  obtain ⟨rows, hnd⟩ := t
  unfold find
  induction rows with
  | nil => exact absurd h List.not_mem_nil
  | cons r' rows ih =>
    rw [List.map_cons, List.nodup_cons] at hnd
    rcases List.mem_cons.mp h with rfl | h
    · simp
    · have hne : key r' ≠ key r := fun heq => hnd.1 (heq ▸ List.mem_map_of_mem h)
      simpa [List.find?_cons, hne] using ih hnd.2 h

theorem find_update (t : Table key) (u : Update key) (k : K) :
    (t.update u).find k = (t.find k).map u.apply := by
  obtain ⟨rows, _⟩ := t
  simp only [find, update, List.find?_map, Function.comp_def, Update.key_apply]

theorem find_insert (h : t.insert r = some t') (k : K) :
    t.find (key r) = none ∧ t'.find k = if k = key r then some r else t.find k := by
  unfold insert at h
  split at h
  · exact absurd h (by simp)
  · rename_i hfree
    obtain rfl := Option.some.inj h
    have hnone : t.find (key r) = none := List.find?_eq_none.mpr fun r' hr' hkey =>
      hfree (of_decide_eq_true hkey ▸ List.mem_map_of_mem hr')
    refine ⟨hnone, ?_⟩
    simp only [find] at hnone ⊢
    rw [List.find?_append]
    by_cases heq : k = key r
    · subst heq
      rw [hnone]
      simp
    · have hne : ¬ key r = k := fun h => heq h.symm
      simp [heq, hne]

theorem mem_insert {r' : R} (h : t.insert r = some t') (hr' : r' ∈ t'.rows) : r' = r ∨ r' ∈ t.rows := by
  unfold insert at h
  split at h
  · exact absurd h (by simp)
  obtain rfl := Option.some.inj h
  rcases List.mem_append.mp hr' with hold | hnew
  · exact .inr hold
  · exact .inl (List.mem_singleton.mp hnew)

/-- A row can be inserted if its key is free. -/
theorem insert_eq_none : t.insert r = none ↔ (t.find (key r)).isSome := by
  unfold insert find
  rw [List.find?_isSome]
  split
  · rename_i h
    obtain ⟨r', hr', hkey⟩ := List.mem_map.mp h
    exact iff_of_true rfl ⟨r', hr', decide_eq_true hkey⟩
  · rename_i h
    refine iff_of_false (by simp) fun ⟨r', hr', hkey⟩ => h ?_
    exact List.mem_map.mpr ⟨r', hr', of_decide_eq_true hkey⟩

omit [DecidableEq K] in
/-- An update that matches no row changes nothing. -/
theorem update_of_none {t : Table key} {u : Update key} (h : t.affected u = 0) : t.update u = t := by
  obtain ⟨rows, hnd⟩ := t
  have hno : ∀ r ∈ rows, u.apply r = r := by
    intro r hr
    rw [Update.apply, if_neg (List.countP_eq_zero.mp h r hr)]
  simp only [update, Table.mk.injEq]
  exact (List.map_congr_left hno).trans (List.map_id rows)

/-- An update of the rows of one key affects the row that is found there, if it matches. -/
theorem affected_of_key (hk : ∀ r, u.matchesRow r = true → key r = k) :
    t.affected u = if (t.find k).any u.matchesRow then 1 else 0 := by
  obtain ⟨rows, hnd⟩ := t
  unfold affected find
  induction rows with
  | nil => rfl
  | cons r rows ih =>
    rw [List.map_cons, List.nodup_cons] at hnd
    rw [List.countP_cons, ih hnd.2, List.find?_cons]
    by_cases hkey : key r = k
    · have hnone : rows.find? (fun r => key r = k) = none := List.find?_eq_none.mpr fun r' hr' h' =>
        hnd.1 ((of_decide_eq_true h').trans hkey.symm ▸ List.mem_map_of_mem hr')
      simp [hkey, hnone]
    · have hno : u.matchesRow r = false := Bool.eq_false_iff.mpr fun h => hkey (hk r h)
      simp [hkey, hno]

end Table
