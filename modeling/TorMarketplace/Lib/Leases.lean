import Mathlib.Data.List.Nodup
import Mathlib.Data.Option.Basic

/-!
# Entries that last until they are dropped

A map as a list of entries with different keys. A change puts an entry in place of the one of its key,
or keeps those entries that pass a test: a removal, an expiry and a reset are such tests. `lookup_run`:
what was put last under a key is there after any changes without another put of that key exactly if it
passes all their tests; once dropped it does not come back.
-/

namespace Leases

variable {K V : Type} {l : List (K × V)} {k : K}

/-- No two entries have one key. -/
def Keyed (l : List (K × V)) : Prop := (l.map Prod.fst).Nodup

theorem Keyed.filter (h : Keyed l) (p : K × V → Bool) : Keyed (l.filter p) :=
  h.sublist (List.filter_sublist.map Prod.fst)

inductive Change (K V : Type) where
  | put (k : K) (v : V)
  | retain (keep : K → V → Bool)

variable [DecidableEq K]

def Change.apply (l : List (K × V)) : Change K V → List (K × V)
  | .put k v => (k, v) :: l.filter fun e => e.1 ≠ k
  | .retain keep => l.filter fun e => keep e.1 e.2

/-- The change puts an entry of the key. -/
def Change.puts (k : K) : Change K V → Bool
  | .put k' _ => k' = k
  | .retain _ => false

/-- The change keeps the entry. -/
def Change.keeps (k : K) (v : V) : Change K V → Bool
  | .put k' _ => k' ≠ k
  | .retain keep => keep k v

theorem Keyed.apply (h : Keyed l) (c : Change K V) : Keyed (c.apply l) := by
  cases c with
  | put k v =>
    refine List.nodup_cons.mpr ⟨fun hk => ?_, h.filter _⟩
    obtain ⟨e, he, hek⟩ := List.mem_map.mp hk
    exact of_decide_eq_true (List.mem_filter.mp he).2 hek
  | retain keep => exact h.filter _

/-- An entry that was found is the one of its key. -/
theorem lookup_filter (h : Keyed l) (p : K × V → Bool) :
    (l.filter p).lookup k = (l.lookup k).filter fun v => p (k, v) := by
  induction l with
  | nil => rfl
  | cons e l ih =>
    obtain ⟨k', v⟩ := e
    obtain ⟨hnew, hrest⟩ := List.nodup_cons.mp h
    by_cases hk : k = k'
    · subst hk
      cases hp : p (k, v) with
      | true => simp [hp, Option.filter]
      | false =>
        have hnone : (l.filter p).lookup k = none := by
          rw [List.lookup_eq_none_iff]
          intro e he
          have hne : e.1 ≠ k := fun heq =>
            hnew (List.mem_map.mpr ⟨e, (List.mem_filter.mp he).1, heq⟩)
          simpa using Ne.symm hne
        simp [hp, hnone, Option.filter]
    · have hne : (k == k') = false := by simpa using hk
      have ih := ih hrest
      cases hp : p (k', v) with
      | true => simp [hp, List.lookup_cons, hne, ih]
      | false => simp [hp, List.lookup_cons, hne, ih]

theorem lookup_apply (h : Keyed l) {c : Change K V} (hc : c.puts k = false) :
    (c.apply l).lookup k = (l.lookup k).filter fun v => c.keeps k v := by
  cases c with
  | put k' v =>
    have hne : k' ≠ k := of_decide_eq_false hc
    have hbeq : (k == k') = false := by simpa using hne.symm
    rw [Change.apply, List.lookup_cons, hbeq]
    simp only [lookup_filter h, Change.keeps]
    congr 1
    funext v'
    simp [hne, hne.symm]
  | retain keep => exact lookup_filter h _

theorem lookup_put (k : K) (v : V) (l : List (K × V)) : ((Change.put k v).apply l).lookup k = some v := by
  simp [Change.apply]

/-- The changes in order. -/
def run (cs : List (Change K V)) (l : List (K × V)) : List (K × V) := cs.foldl Change.apply l

theorem run_append (cs cs' : List (Change K V)) (l : List (K × V)) :
    run (cs ++ cs') l = run cs' (run cs l) := List.foldl_append

theorem run_cons (c : Change K V) (cs : List (Change K V)) (l : List (K × V)) :
    run (c :: cs) l = run cs (c.apply l) := rfl

theorem Keyed.run {cs : List (Change K V)} (h : Keyed l) : Keyed (run cs l) := by
  induction cs generalizing l with
  | nil => exact h
  | cons c cs ih => exact ih (h.apply c)

/-- **An entry lasts until it is dropped.** -/
theorem lookup_run {cs : List (Change K V)} (h : Keyed l) (hcs : ∀ c ∈ cs, c.puts k = false) :
    (run cs l).lookup k = (l.lookup k).filter fun v => cs.all fun c => c.keeps k v := by
  induction cs generalizing l with
  | nil => cases hfound : l.lookup k <;> simp [run, hfound, Option.filter]
  | cons c cs ih =>
    obtain ⟨hc, hcs⟩ := List.forall_mem_cons.mp hcs
    rw [run_cons, ih (h.apply c) hcs, lookup_apply h hc]
    cases hfound : l.lookup k with
    | none => rfl
    | some v => cases hkeep : c.keeps k v <;> simp [hkeep, Option.filter]

end Leases
