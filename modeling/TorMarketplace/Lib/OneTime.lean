import Mathlib.Data.List.Basic
import Mathlib.Data.Set.Basic

/-!
# Entries that are taken once

A store of entries under keys, as a log of events shows it: an event puts an entry under its key, in
place of whatever is there; or takes the entry of a key away; or, whatever else it does, it adds none.
`Stored op l s` says that the events `l` may have left the entries `s`.

An entry that is taken was put by the last event before that touched its key (`Stored.taken`), and no
two events take what one event has put (`Source.inj`).
-/

namespace OneTime

variable {K V E : Type}

/-- What an event does to the store. -/
inductive Op (K V : Type) where
  | put (k : K) (v : V)
  | take (k : K) (v : V)
  | other

/-- The event puts or takes an entry of the key. -/
def Op.Touches (k : K) : Op K V → Prop
  | .put k' _ => k' = k
  | .take k' _ => k' = k
  | .other => False

/-- What the event may leave of the store `s`. -/
def Op.Leaves (s s' : Set (K × V)) : Op K V → Prop
  | .put k v => ∀ x ∈ s', x = (k, v) ∨ (x ∈ s ∧ x.1 ≠ k)
  | .take k v => (k, v) ∈ s ∧ ∀ x ∈ s', x ∈ s ∧ x.1 ≠ k
  | .other => s' ⊆ s

variable {op : E → Op K V} {l : List E} {s s' : Set (K × V)} {k k' : K} {v v' : V} {i j j' : ℕ}

/-- An entry that an event leaves was there, or is the one that it puts. -/
theorem Op.Leaves.mem {o : Op K V} (h : o.Leaves s s') (hk : (k, v) ∈ s') :
    o = .put k v ∨ ((k, v) ∈ s ∧ ¬ o.Touches k) := by
  cases o with
  | put k' v' =>
    rcases h _ hk with heq | ⟨hold, hne⟩
    · cases heq
      exact .inl rfl
    · exact .inr ⟨hold, fun heq => hne heq.symm⟩
  | take k' v' =>
    obtain ⟨hold, hne⟩ := h.2 _ hk
    exact .inr ⟨hold, fun heq => hne heq.symm⟩
  | other => exact .inr ⟨h hk, id⟩

/-- The events `l`, on an empty store, may leave the entries `s`. -/
inductive Stored (op : E → Op K V) : List E → Set (K × V) → Prop
  | nil : Stored op [] ∅
  | snoc {l : List E} {s s' : Set (K × V)} {e : E} (h : Stored op l s) (he : (op e).Leaves s s') :
      Stored op (l ++ [e]) s'

/-- The event `i` of the log puts the entry, and no event after it and before `j` touches its key. -/
structure Source (op : E → Op K V) (l : List E) (i j : ℕ) (k : K) (v : V) : Prop where
  before : i < j
  put : ∃ e, l[i]? = some e ∧ op e = .put k v
  untouched : ∀ m e, i < m → m < j → l[m]? = some e → ¬ (op e).Touches k

/-- The rest of the log does not matter. -/
theorem Source.append (h : Source op l i j k v) (hj : j ≤ l.length) (rest : List E) :
    Source op (l ++ rest) i j k v where
  before := h.before
  put := by
    obtain ⟨e, he, hput⟩ := h.put
    exact ⟨e, by rw [List.getElem?_append_left (List.getElem?_eq_some_iff.mp he).1]; exact he, hput⟩
  untouched m e him hmj hm := by
    rw [List.getElem?_append_left (by omega)] at hm
    exact h.untouched m e him hmj hm

/-- **Where an entry comes from.** -/
theorem Stored.source (h : Stored op l s) (hk : (k, v) ∈ s) : ∃ i, Source op l i l.length k v := by
  induction h with
  | nil => exact absurd hk (Set.notMem_empty _)
  | @snoc l s s' e _ he ih =>
    rw [List.length_append, List.length_singleton]
    rcases he.mem hk with hput | ⟨hold, hno⟩
    · refine ⟨l.length, by omega, ⟨e, List.getElem?_concat_length, hput⟩, fun m _ hlt hlt' => ?_⟩
      omega
    · obtain ⟨i, hi⟩ := ih hold
      have hi' := hi.append le_rfl [e]
      refine ⟨i, by have := hi.before; omega, hi'.put, fun m e' him hm hget => ?_⟩
      by_cases hlast : m = l.length
      · subst hlast
        rw [List.getElem?_concat_length] at hget
        exact Option.some.inj hget ▸ hno
      · exact hi'.untouched m e' him (by omega) hget

/-- **What is taken was put**, and not touched in between. -/
theorem Stored.taken (h : Stored op l s) {e : E} (hj : l[j]? = some e) (he : op e = .take k v) :
    ∃ i, Source op l i j k v := by
  induction h with
  | nil => exact absurd hj (by simp)
  | @snoc l s s' last hl hlast ih =>
    by_cases hlt : j < l.length
    · rw [List.getElem?_append_left hlt] at hj
      obtain ⟨i, hi⟩ := ih hj
      exact ⟨i, hi.append hlt.le [last]⟩
    · have hle := (List.getElem?_eq_some_iff.mp hj).1
      rw [List.length_append, List.length_singleton] at hle
      obtain rfl : j = l.length := by omega
      rw [List.getElem?_concat_length] at hj
      obtain rfl := Option.some.inj hj
      rw [he] at hlast
      obtain ⟨i, hi⟩ := hl.source hlast.1
      exact ⟨i, hi.append le_rfl [last]⟩

/-- **What is put is taken once.** -/
theorem Source.inj {e e' : E} (h : Source op l i j k v) (h' : Source op l i j' k' v')
    (hj : l[j]? = some e) (he : op e = .take k v) (hj' : l[j']? = some e') (he' : op e' = .take k' v') :
    j = j' := by
  obtain ⟨p, hp, hput⟩ := h.put
  obtain ⟨p', hp', hput'⟩ := h'.put
  obtain rfl := Option.some.inj (hp.symm.trans hp')
  obtain ⟨rfl, rfl⟩ := Op.put.inj (hput.symm.trans hput')
  rcases lt_trichotomy j j' with hlt | heq | hlt
  · exact absurd rfl (he ▸ h'.untouched j e h.before hlt hj)
  · exact heq
  · exact absurd rfl (he' ▸ h.untouched j' e' h'.before hlt hj')

end OneTime
