import Mathlib.Data.List.Forall2
import TorMarketplace.Lib.Run

/-!
# Simulation of runs, process by process

A run is simulated by another run of the same machine in which some jobs are never started. `Rel`
relates the two shared states and `Sim` the processes that are in both. When a process makes a call, the
process that simulates it makes as many calls as it likes at once (`Burst`); a process that is not in
the other run changes nothing that `Rel` sees.

`change` is what an observer notes of a step from one state to the next, and `log` what it notes of a
run. `Simulation.run` gives for each run another with the processes that remain and with the same log.
-/

namespace Interleave

variable {I : Interface} {σ χ J ε ρ O α β : Type}

/-! ## Logs -/

/-- What the observer has noted of the events. -/
def log (change : σ → σ → Option O) (l : List (Event I σ J)) : List O :=
  l.filterMap fun ev => change ev.before ev.after

theorem log_snoc (change : σ → σ → Option O) (l : List (Event I σ J)) (ev : Event I σ J) :
    log change (l ++ [ev]) = log change l ++ (change ev.before ev.after).toList := by
  rw [log, List.filterMap_append, log]
  cases h : change ev.before ev.after <;> simp [h]

/-! ## Bursts -/

/-- Calls of one process with none of another in between: from its past, its program and the shared
state to what they are in the end, with what is noted on the way. -/
inductive Burst (m : Machine I σ χ) (change : σ → σ → Option O) :
    List (Reply I) → Prog I ε ρ → σ → List O → List (Reply I) → Prog I ε ρ → σ → Prop
  | refl {past : List (Reply I)} {x : Prog I ε ρ} {s : σ} : Burst m change past x s [] past x s
  | step {past past' : List (Reply I)} {c : I.Call} {k : I.Ans c → Prog I ε ρ} {e : χ} {a : I.Ans c}
      {s s₁ s' : σ} {x' : Prog I ε ρ} {os : List O} (ha : m.answer c e s = some (a, s₁))
      (h : Burst m change (past ++ [⟨c, a⟩]) (k a) s₁ os past' x' s') :
      Burst m change past (.step c k) s ((change s s₁).toList ++ os) past' x' s'

variable {m : Machine I σ χ} {change : σ → σ → Option O} {past past' past'' : List (Reply I)}
variable {x x' x'' : Prog I ε ρ} {s s' s'' : σ} {os os' : List O}

theorem Burst.single {c : I.Call} {k : I.Ans c → Prog I ε ρ} {e : χ} {a : I.Ans c}
    (ha : m.answer c e s = some (a, s')) :
    Burst m change past (.step c k) s (change s s').toList (past ++ [⟨c, a⟩]) (k a) s' := by
  have hstep : Burst m change past (.step c k) s ((change s s').toList ++ []) (past ++ [⟨c, a⟩]) (k a) s' :=
    Burst.step ha Burst.refl
  rwa [List.append_nil] at hstep

theorem Burst.trans (h : Burst m change past x s os past' x' s')
    (h' : Burst m change past' x' s' os' past'' x'' s'') :
    Burst m change past x s (os ++ os') past'' x'' s'' := by
  induction h with
  | refl => exact h'
  | step ha _ ih =>
    rw [List.append_assoc]
    exact Burst.step ha (ih h')

/-- The first call of a burst, if nothing is noted of it. -/
theorem Burst.call {c : I.Call} {k : I.Ans c → Prog I ε ρ} {e : χ} {a : I.Ans c}
    (ha : m.answer c e s = some (a, s'')) (hnone : change s s'' = none)
    (h : Burst m change (past ++ [⟨c, a⟩]) (k a) s'' os past' x' s') :
    Burst m change past (.step c k) s os past' x' s' := by
  have hstep := Burst.step ha h
  rw [hnone] at hstep
  exact hstep

/-- A burst is part of a run. -/
theorem Burst.reachable {body : J → Prog I ε ρ} {allow : Config I σ J ε ρ → J → Prop} {s₀ : σ} {j : J}
    {pid : Nat} (h : Burst m change past x s os past' x' s') {g : Config I σ J ε ρ}
    (hg : Reachable m body allow s₀ g) (hp : g.procs[pid]? = some ⟨j, past, x⟩) (hs : g.shared = s) :
    ∃ history, Reachable m body allow s₀ ⟨s', g.procs.set pid ⟨j, past', x'⟩, history⟩ ∧
      log change history = log change g.history ++ os := by
  induction h generalizing g with
  | refl =>
    refine ⟨g.history, ?_, (List.append_nil _).symm⟩
    obtain ⟨hlt, hget⟩ := List.getElem?_eq_some_iff.mp hp
    have hset : g.procs.set pid g.procs[pid] = g.procs := List.set_getElem_self hlt
    rw [hget] at hset
    rw [hset, ← hs]
    exact hg
  | @step past past' c k e a s s₁ s' x' os ha _ ih =>
    subst hs
    have hact : g.act m pid e = some ⟨s₁, g.procs.set pid ⟨j, past ++ [⟨c, a⟩], k a⟩,
        g.history ++ [⟨pid, j, past, ⟨c, a⟩, g.shared, s₁⟩]⟩ := by
      rw [Config.act, hp]
      simp only [ha]
    have hlt := (List.getElem?_eq_some_iff.mp hp).1
    obtain ⟨history, hreach, hlog⟩ := ih (hg.act pid e hact) (List.getElem?_set_self hlt) rfl
    rw [List.set_set] at hreach
    refine ⟨history, hreach, ?_⟩
    rw [hlog, log_snoc, List.append_assoc]

/-! ## Lists with some entries left out -/

theorem filter_set_of_pos {p : α → Bool} {l : List α} {i : Nat} {a b : α} (ha : l[i]? = some a)
    (hpa : p a = true) (hpb : p b = true) :
    ∃ k, (l.filter p)[k]? = some a ∧ (l.set i b).filter p = (l.filter p).set k b := by
  induction l generalizing i with
  | nil => exact absurd ha (by simp)
  | cons x l ih =>
    cases i with
    | zero =>
      obtain rfl : x = a := by simpa using ha
      exact ⟨0, by simp [hpa], by simp [hpa, hpb]⟩
    | succ i =>
      obtain ⟨k, hk, hset⟩ := ih (by simpa using ha)
      by_cases hx : p x = true
      · exact ⟨k + 1, by simpa [hx] using hk, by simp [hx, hset]⟩
      · exact ⟨k, by simpa [hx] using hk, by simp [hx, hset]⟩

theorem filter_set_of_neg {p : α → Bool} {l : List α} {i : Nat} {a b : α} (ha : l[i]? = some a)
    (hpa : p a = false) (hpb : p b = false) : (l.set i b).filter p = l.filter p := by
  induction l generalizing i with
  | nil => rfl
  | cons x l ih =>
    cases i with
    | zero =>
      obtain rfl : x = a := by simpa using ha
      simp [hpa, hpb]
    | succ i =>
      have hset := ih (by simpa using ha)
      by_cases hx : p x = true
      · simp [hx, hset]
      · simp [hx, hset]

theorem forall₂_set {R : α → β → Prop} {l : List α} {l' : List β} (h : List.Forall₂ R l l') {i : Nat}
    {a : α} {b : β} (hab : R a b) : List.Forall₂ R (l.set i a) (l'.set i b) := by
  induction h generalizing i with
  | nil => exact List.Forall₂.nil
  | cons hxy htail ih =>
    cases i with
    | zero => exact List.Forall₂.cons hab htail
    | succ i => exact List.Forall₂.cons hxy ih

theorem forall₂_getElem? {R : α → β → Prop} {l : List α} {l' : List β} (h : List.Forall₂ R l l')
    {i : Nat} {a : α} (ha : l[i]? = some a) : ∃ b, l'[i]? = some b ∧ R a b := by
  obtain ⟨hlt, rfl⟩ := List.getElem?_eq_some_iff.mp ha
  have hlt' : i < l'.length := h.length_eq ▸ hlt
  exact ⟨l'[i], List.getElem?_eq_getElem hlt', h.get hlt hlt'⟩

/-! ## The simulation -/

/-- The jobs that `kept` picks simulate themselves in runs without the others. `Good` is what is known
of the simulated run. -/
structure Simulation (m : Machine I σ χ) (body : J → Prog I ε ρ) (kept : J → Bool)
    (Good : σ → Proc I J ε ρ → Prop) (change : σ → σ → Option O) (Rel : σ → σ → Prop)
    (Sim : Proc I J ε ρ → Proc I J ε ρ → Prop) : Prop where
  spawn : ∀ j, kept j = true → Sim ⟨j, [], body j⟩ ⟨j, [], body j⟩
  job : ∀ {p p'}, Sim p p' → p'.job = p.job
  /-- A call of a process that is left out. -/
  gone : ∀ {j past} {c : I.Call} {k : I.Ans c → Prog I ε ρ} {e a s s₁ s'}, kept j = false →
    Good s ⟨j, past, .step c k⟩ → m.answer c e s = some (a, s₁) → Rel s s' →
    Rel s₁ s' ∧ change s s₁ = none
  /-- A call of a process that remains. -/
  act : ∀ {j past} {c : I.Call} {k : I.Ans c → Prog I ε ρ} {e a s s₁ s' past' x'}, kept j = true →
    Good s ⟨j, past, .step c k⟩ → m.answer c e s = some (a, s₁) → Rel s s' →
    Sim ⟨j, past, .step c k⟩ ⟨j, past', x'⟩ →
    ∃ past'' x'' s'', Burst m change past' x' s' (change s s₁).toList past'' x'' s'' ∧
      Rel s₁ s'' ∧ Sim ⟨j, past ++ [⟨c, a⟩], k a⟩ ⟨j, past'', x''⟩

section Run

variable {body : J → Prog I ε ρ} {kept : J → Bool} {Good : σ → Proc I J ε ρ → Prop}
variable {Rel : σ → σ → Prop} {Sim : Proc I J ε ρ → Proc I J ε ρ → Prop} {s₀ : σ}
variable {g : Config I σ J ε ρ}

/-- **For each run there is one of the jobs that are kept alone, with the same log.** -/
theorem Simulation.run (H : Simulation m body kept Good change Rel Sim)
    (hgood : ∀ {g : Config I σ J ε ρ}, Reachable m body (fun _ _ => True) s₀ g →
      ∀ p ∈ g.procs, Good g.shared p)
    (hrefl : Rel s₀ s₀) (h : Reachable m body (fun _ _ => True) s₀ g) :
    ∃ g', Reachable m body (fun _ j => kept j = true) s₀ g' ∧ Rel g.shared g'.shared ∧
      List.Forall₂ Sim (g.procs.filter fun p => kept p.job) g'.procs ∧
      log change g'.history = log change g.history := by
  induction h with
  | init => exact ⟨⟨s₀, [], []⟩, Reachable.init, hrefl, List.Forall₂.nil, rfl⟩
  | @spawn g j _ _ ih =>
    obtain ⟨g', hg', hrel, hsim, hlog⟩ := ih
    by_cases hj : kept j = true
    · refine ⟨_, hg'.spawn j hj, hrel, ?_, hlog⟩
      rw [List.filter_append, List.filter_singleton, hj]
      exact List.rel_append hsim (List.Forall₂.cons (H.spawn j hj) List.Forall₂.nil)
    · refine ⟨g', hg', hrel, ?_, hlog⟩
      rw [List.filter_append, List.filter_singleton, Bool.eq_false_iff.mpr hj, cond_false,
        List.append_nil]
      exact hsim
  | @act g _ pid e hg hs ih =>
    obtain ⟨g', hg', hrel, hsim, hlog⟩ := ih
    obtain ⟨j, past, c, k, a, s₁, hp, ha, rfl⟩ := act_cases hs
    have hmem := List.mem_of_getElem? hp
    by_cases hj : kept j = true
    · obtain ⟨i, hi, hset⟩ := filter_set_of_pos (p := fun p : Proc I J ε ρ => kept p.job)
        (b := ⟨j, past ++ [⟨c, a⟩], k a⟩) hp hj hj
      -- the process of the other run that simulates this one
      obtain ⟨⟨j', past', x'⟩, hget, hproc⟩ := forall₂_getElem? hsim hi
      obtain rfl : j' = j := H.job hproc
      obtain ⟨past'', x'', s'', hburst, hrel', hsim'⟩ := H.act hj (hgood hg _ hmem) ha hrel hproc
      obtain ⟨history, hreach, hlog'⟩ := hburst.reachable hg' hget rfl
      refine ⟨_, hreach, hrel', ?_, ?_⟩
      · rw [hset]
        exact forall₂_set hsim hsim'
      · rw [hlog', hlog, log_snoc]
    · have hj' : kept j = false := Bool.eq_false_iff.mpr hj
      obtain ⟨hrel', hnone⟩ := H.gone hj' (hgood hg _ hmem) ha hrel
      refine ⟨g', hg', hrel', ?_, ?_⟩
      · rw [filter_set_of_neg hp hj' hj']
        exact hsim
      · rw [log_snoc, hnone, Option.toList_none, List.append_nil, hlog]

end Run

end Interleave
