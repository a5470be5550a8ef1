import Mathlib.Data.List.Basic

/-!
# Optimistic concurrency: records with a version

A store maps keys to records, and every record carries a version. `Step hit s s'` says what one
statement does to such a store under the discipline "compare the version, then replace the record
and count it up": the records of the keys in `hit` are replaced by records of the next version, every
other record stays, and a missing key may get a first record of version 1.

Under that discipline a version says everything about a record (`Step.known`, `Known.eq`): whoever
has seen version `v` of a key and finds version `v` again, finds the record it saw. A version that
was replaced never comes back (`Step.passed`), and the version counts the replacements
(`Step.counted`).
-/

namespace Versioned

variable {K R : Type} {version : R → Int} {hit : K → Prop} {s s' : K → Option R} {k : K}

/-- One statement that replaces the records of the keys in `hit`. -/
def Step (version : R → Int) (hit : K → Prop) (s s' : K → Option R) : Prop :=
  ∀ k, (hit k ∧ ∃ r r', s k = some r ∧ s' k = some r' ∧ version r' = version r + 1) ∨
    (¬ hit k ∧ (s' k = s k ∨ s k = none ∧ ∃ r, s' k = some r ∧ version r = 1))

/-- What is left to know of a record `r` of `k` that was seen at some time: it is still there, or a
record of a later version is. -/
def Known (version : R → Int) (s : K → Option R) (k : K) (r : R) : Prop :=
  ∃ r', s k = some r' ∧ (r' = r ∨ version r < version r')

/-- Version `v` of `k` has been replaced. -/
def Passed (version : R → Int) (s : K → Option R) (k : K) (v : Int) : Prop :=
  ∃ r, s k = some r ∧ v < version r

theorem Step.refl (hno : ∀ k, ¬ hit k) : Step version hit s s :=
  fun k => .inr ⟨hno k, .inl rfl⟩

theorem Step.congr {hit' : K → Prop} (h : Step version hit s s') (hiff : ∀ k, hit k ↔ hit' k) :
    Step version hit' s s' :=
  fun k => (h k).imp (fun h => ⟨(hiff k).mp h.1, h.2⟩) fun h => ⟨fun hk => h.1 ((hiff k).mpr hk), h.2⟩

/-- A record that is there is there afterwards, replaced or not. -/
theorem Step.some_cases (h : Step version hit s s') {r : R} (hr : s k = some r) :
    (hit k ∧ ∃ r', s' k = some r' ∧ version r' = version r + 1) ∨ (¬ hit k ∧ s' k = some r) := by
  rcases h k with ⟨hk, r₀, r', h₀, h', hv⟩ | ⟨hk, heq | ⟨hnone, _⟩⟩
  · obtain rfl := Option.some.inj (hr.symm.trans h₀)
    exact .inl ⟨hk, r', h', hv⟩
  · exact .inr ⟨hk, heq.trans hr⟩
  · exact absurd (hr.symm.trans hnone) (by simp)

theorem Known.of_some {r : R} (h : s k = some r) : Known version s k r := ⟨r, h, .inl rfl⟩

theorem Step.known (h : Step version hit s s') {r : R} (hr : Known version s k r) :
    Known version s' k r := by
  obtain ⟨r₁, h₁, hcase⟩ := hr
  rcases h.some_cases h₁ with ⟨_, r', h', hv⟩ | ⟨_, h'⟩
  · refine ⟨r', h', .inr ?_⟩
    rcases hcase with rfl | hlt <;> omega
  · exact ⟨r₁, h', hcase⟩

/-- **A version says everything about a record.** -/
theorem Known.eq {r r' : R} (h : Known version s k r) (hr' : s k = some r')
    (hv : version r' = version r) : r' = r := by
  obtain ⟨r₁, h₁, hcase⟩ := h
  obtain rfl := Option.some.inj (hr'.symm.trans h₁)
  rcases hcase with rfl | hlt
  · rfl
  · omega

theorem Known.le {r r' : R} (h : Known version s k r) (hr' : s k = some r') :
    version r ≤ version r' := by
  obtain ⟨r₁, h₁, hcase⟩ := h
  obtain rfl := Option.some.inj (hr'.symm.trans h₁)
  rcases hcase with rfl | hlt <;> omega

theorem Step.passed (h : Step version hit s s') {v : Int} (hv : Passed version s k v) :
    Passed version s' k v := by
  obtain ⟨r, hr, hlt⟩ := hv
  rcases h.some_cases hr with ⟨_, r', h', hv⟩ | ⟨_, h'⟩
  · exact ⟨r', h', by omega⟩
  · exact ⟨r, h', hlt⟩

/-- A replaced version is passed. -/
theorem Step.passed_of_hit (h : Step version hit s s') (hk : hit k) {r : R} (hr : s k = some r) :
    Passed version s' k (version r) := by
  rcases h.some_cases hr with ⟨_, r', h', hv⟩ | ⟨hno, _⟩
  · exact ⟨r', h', by omega⟩
  · exact absurd hk hno

/-- `n k` replacements of `k` so far, and the version of `k` says so. -/
def Counted (version : R → Int) (s : K → Option R) (n : K → Nat) : Prop :=
  ∀ k, (s k = none → n k = 0) ∧ ∀ r, s k = some r → version r = 1 + n k

/-- **The version counts the replacements.** -/
theorem Step.counted (h : Step version hit s s') {n n' : K → Nat} (hn : Counted version s n)
    (hhit : ∀ k, hit k → n' k = n k + 1) (hmiss : ∀ k, ¬ hit k → n' k = n k) :
    Counted version s' n' := by
  intro k
  obtain ⟨hnone, hsome⟩ := hn k
  rcases h k with ⟨hk, r, r', hr, hr', hv⟩ | ⟨hk, heq | ⟨hnil, r, hr, hv⟩⟩
  · have := hsome r hr
    rw [hr', hhit k hk]
    refine ⟨fun hc => absurd hc (by simp), fun r₁ h₁ => ?_⟩
    obtain rfl := Option.some.inj h₁
    push_cast
    omega
  · rw [heq, hmiss k hk]
    exact ⟨hnone, hsome⟩
  · rw [hr, hmiss k hk, hnone hnil]
    refine ⟨fun hc => absurd hc (by simp), fun r₁ h₁ => ?_⟩
    obtain rfl := Option.some.inj h₁
    simpa using hv

end Versioned
