import Mathlib.Data.List.Pairwise
import TorMarketplace.Lib.Prog

/-!
# Interleaved runs

A `Machine` gives the calls of an interface their atomic meaning on a shared state: `answer c e s`
is the answer to `c` and the state after it, for the environment's choice `e` (`none`: `e` is not a
choice for `c` in `s`). A run spawns jobs and lets the running programs make one call at a time, in
any order. A configuration keeps, besides the shared state, every process with its `past` (the calls
it made, with their answers) and the `history` of all calls in the order they took effect.

A process that is never scheduled again is one that was killed, so nothing below needs a step for
that.

Results, for every run:
* `Reachable.spec`: each process is where its program's `Spec` puts it, and `Reachable.event`: each
  call of the history satisfies that `Spec`'s call condition in the past it was made in;
* `Reachable.shared_inv`: the induction rule for a property of the shared state and the history;
* `Reachable.past_stable`: what an answer tells about the shared state, when no later call can undo
  it, is true of the state at every later call of the process that got the answer;
* `Reachable.hit_unique`: a call that marks the state and is only possible while the mark is not
  there takes effect once.
-/

namespace Interleave

/-- The atomic meaning of the calls of `I` on states `σ`, for the environment's choices `χ`. -/
structure Machine (I : Interface) (σ χ : Type) where
  answer : (c : I.Call) → χ → σ → Option (I.Ans c × σ)

variable {I : Interface} {σ χ J ε ρ : Type}

namespace Machine

/-- `a` is an answer the environment can give to `c`. -/
def May (m : Machine I σ χ) (c : I.Call) (a : I.Ans c) : Prop :=
  ∃ e s s', m.answer c e s = some (a, s')

end Machine

/-- A process: the job it was spawned for, the calls it made, and the rest of its program. -/
structure Proc (I : Interface) (J ε ρ : Type) where
  job : J
  past : List (Reply I)
  prog : Prog I ε ρ

/-- A call that took effect: who made it in which past, and the state around it. -/
structure Event (I : Interface) (σ J : Type) where
  pid : Nat
  job : J
  past : List (Reply I)
  reply : Reply I
  before : σ
  after : σ

/-- A configuration of a run. A process keeps its index in `procs` forever. -/
structure Config (I : Interface) (σ J ε ρ : Type) where
  shared : σ
  procs : List (Proc I J ε ρ)
  history : List (Event I σ J)

/-- One step of a run: a new job, or one call of process `pid`. -/
inductive Label (J χ : Type) where
  | spawn (j : J)
  | act (pid : Nat) (e : χ)

/-- The call that process `pid` makes next, answered with the environment's choice `e`. -/
def Config.act (m : Machine I σ χ) (g : Config I σ J ε ρ) (pid : Nat) (e : χ) :
    Option (Config I σ J ε ρ) :=
  match g.procs[pid]? with
  | some ⟨j, past, .step c k⟩ =>
    match m.answer c e g.shared with
    | some (a, s) => some
        { shared := s
          procs := g.procs.set pid ⟨j, past ++ [⟨c, a⟩], k a⟩
          history := g.history ++ [⟨pid, j, past, ⟨c, a⟩, g.shared, s⟩] }
    | none => none
  | _ => none

/-- The step relation of a run, as a function. -/
def Config.step (m : Machine I σ χ) (body : J → Prog I ε ρ) (g : Config I σ J ε ρ) :
    Label J χ → Option (Config I σ J ε ρ)
  | .spawn j => some { g with procs := g.procs ++ [⟨j, [], body j⟩] }
  | .act pid e => g.act m pid e

/-- The steps `ls` in order. -/
def Config.run (m : Machine I σ χ) (body : J → Prog I ε ρ) :
    List (Label J χ) → Config I σ J ε ρ → Option (Config I σ J ε ρ)
  | [], g => some g
  | l :: ls, g =>
    match g.step m body l with
    | some g' => g'.run m body ls
    | none => none

/-- The configurations of the runs from shared state `s₀` in which job `j` is only spawned in a
configuration that admits it. -/
inductive Reachable (m : Machine I σ χ) (body : J → Prog I ε ρ)
    (allow : Config I σ J ε ρ → J → Prop) (s₀ : σ) : Config I σ J ε ρ → Prop
  | init : Reachable m body allow s₀ ⟨s₀, [], []⟩
  | spawn {g : Config I σ J ε ρ} (j : J) (hg : Reachable m body allow s₀ g) (hj : allow g j) :
      Reachable m body allow s₀ { g with procs := g.procs ++ [⟨j, [], body j⟩] }
  | act {g g' : Config I σ J ε ρ} (pid : Nat) (e : χ) (hg : Reachable m body allow s₀ g)
      (hs : g.act m pid e = some g') : Reachable m body allow s₀ g'

variable {m : Machine I σ χ} {body : J → Prog I ε ρ} {allow : Config I σ J ε ρ → J → Prop} {s₀ : σ}
variable {g : Config I σ J ε ρ}

/-- What one call does to a configuration. -/
theorem act_cases {g' : Config I σ J ε ρ} {pid : Nat} {e : χ} (h : g.act m pid e = some g') :
    ∃ (j : J) (past : List (Reply I)) (c : I.Call) (k : I.Ans c → Prog I ε ρ) (a : I.Ans c) (s : σ),
      g.procs[pid]? = some ⟨j, past, .step c k⟩ ∧ m.answer c e g.shared = some (a, s) ∧
      g' = ⟨s, g.procs.set pid ⟨j, past ++ [⟨c, a⟩], k a⟩,
        g.history ++ [⟨pid, j, past, ⟨c, a⟩, g.shared, s⟩]⟩ := by
  unfold Config.act at h
  split at h
  · rename_i j past c k hp
    split at h
    · rename_i a s ha
      exact ⟨j, past, c, k, a, s, hp, ha, (Option.some.inj h).symm⟩
    · exact absurd h (by simp)
  · exact absurd h (by simp)

theorem Reachable.of_run {ls : List (Label J χ)} {g' : Config I σ J ε ρ}
    (hadm : ∀ j, Label.spawn j ∈ ls → ∀ g, allow g j) (hg : Reachable m body allow s₀ g)
    (h : g.run m body ls = some g') : Reachable m body allow s₀ g' := by
  induction ls generalizing g with
  | nil => exact Option.some.inj h ▸ hg
  | cons l ls ih =>
    unfold Config.run at h
    split at h
    · rename_i g₁ h₁
      refine ih (fun j hj => hadm j (List.mem_cons_of_mem l hj)) ?_ h
      cases l with
      | spawn j =>
        obtain rfl := Option.some.inj h₁
        exact Reachable.spawn j hg (hadm j List.mem_cons_self g)
      | act pid e => exact Reachable.act pid e hg h₁
    · exact absurd h (by simp)

theorem Reachable.mono {allow' : Config I σ J ε ρ → J → Prop} (hadm : ∀ g j, allow g j → allow' g j)
    (h : Reachable m body allow s₀ g) : Reachable m body allow' s₀ g := by
  induction h with
  | init => exact Reachable.init
  | spawn j _ hj ih => exact Reachable.spawn j ih (hadm _ j hj)
  | act pid e _ hs ih => exact Reachable.act pid e ih hs

/-! ## What holds of every process and of every call -/

/-- The induction rule for the processes: a property that a fresh process has and that every call
keeps, for the process that makes it and for the others. -/
theorem Reachable.proc_inv {R : σ → Proc I J ε ρ → Prop}
    (hspawn : ∀ g j, Reachable m body allow s₀ g → allow g j → R g.shared ⟨j, [], body j⟩)
    (hact : ∀ {g : Config I σ J ε ρ} {j past} {c : I.Call} {k : I.Ans c → Prog I ε ρ} {e a s},
      Reachable m body allow s₀ g → ⟨j, past, .step c k⟩ ∈ g.procs →
      m.answer c e g.shared = some (a, s) →
      R g.shared ⟨j, past, .step c k⟩ → R s ⟨j, past ++ [⟨c, a⟩], k a⟩)
    (hother : ∀ {g : Config I σ J ε ρ} {p : Proc I J ε ρ} {j past} {c : I.Call}
      {k : I.Ans c → Prog I ε ρ} {e a s},
      Reachable m body allow s₀ g → ⟨j, past, .step c k⟩ ∈ g.procs →
      m.answer c e g.shared = some (a, s) → R g.shared p → R s p)
    (h : Reachable m body allow s₀ g) : ∀ p ∈ g.procs, R g.shared p := by
  induction h with
  | init => exact fun p hp => absurd hp List.not_mem_nil
  | @spawn g j hg hj ih =>
    intro p hp
    rcases List.mem_append.mp hp with hp | hp
    · exact ih p hp
    · obtain rfl := List.mem_singleton.mp hp
      exact hspawn g j hg hj
  | act pid e hg hs ih =>
    obtain ⟨j, past, c, k, a, s, hp, ha, rfl⟩ := act_cases hs
    have hmem := List.mem_of_getElem? hp
    intro p hp'
    rcases List.mem_or_eq_of_mem_set hp' with hp' | rfl
    · exact hother hg hmem ha (ih p hp')
    · exact hact hg hmem ha (ih _ hmem)

/-- What every admitted job is, the job of every process is. -/
theorem Reachable.job_inv (R : J → Prop)
    (hadm : ∀ g j, Reachable m body allow s₀ g → allow g j → R j)
    (h : Reachable m body allow s₀ g) : ∀ p ∈ g.procs, R p.job :=
  h.proc_inv (R := fun _ p => R p.job) hadm (fun _ _ _ hr => hr) (fun _ _ _ hr => hr)

/-- Each process is where its program's specification puts it. -/
theorem Reachable.spec {P : J → List (Reply I) → I.Call → Prop}
    {Q : J → List (Reply I) → Except ε ρ → Prop}
    (hbody : ∀ g j, allow g j → Spec m.May (P j) (Q j) [] (body j)) (h : Reachable m body allow s₀ g) :
    ∀ p ∈ g.procs, Spec m.May (P p.job) (Q p.job) p.past p.prog :=
  h.proc_inv (R := fun _ p => Spec m.May (P p.job) (Q p.job) p.past p.prog)
    (fun g j _ hj => hbody g j hj) (fun _ _ ha hs => hs.2 _ ⟨_, _, _, ha⟩) (fun _ _ _ hs => hs)

/-- The result of a finished process satisfies its program's postcondition. -/
theorem Reachable.post {P : J → List (Reply I) → I.Call → Prop}
    {Q : J → List (Reply I) → Except ε ρ → Prop}
    (hbody : ∀ g j, allow g j → Spec m.May (P j) (Q j) [] (body j)) (h : Reachable m body allow s₀ g)
    {p : Proc I J ε ρ} (hp : p ∈ g.procs) {r : Except ε ρ} (hr : p.prog.result = some r) :
    Q p.job p.past r := by
  have hs := h.spec hbody p hp
  obtain ⟨j, past, x⟩ := p
  cases x with
  | ret a => exact Option.some.inj hr ▸ hs
  | fail e => exact Option.some.inj hr ▸ hs
  | step c k => exact absurd hr (by simp [Prog.result])

/-- The induction rule for the shared state and the history. -/
theorem Reachable.shared_inv {R : σ → List (Event I σ J) → Prop} (h0 : R s₀ [])
    (hact : ∀ {g : Config I σ J ε ρ} {pid : Nat} {j past c e a s}, Reachable m body allow s₀ g →
      (∃ k, (⟨j, past, .step c k⟩ : Proc I J ε ρ) ∈ g.procs) →
      m.answer c e g.shared = some (a, s) → R g.shared g.history →
      R s (g.history ++ [⟨pid, j, past, ⟨c, a⟩, g.shared, s⟩]))
    (h : Reachable m body allow s₀ g) : R g.shared g.history := by
  induction h with
  | init => exact h0
  | spawn j _ _ ih => exact ih
  | act pid e hg hs ih =>
    obtain ⟨j, past, c, k, a, s, hp, ha, rfl⟩ := act_cases hs
    exact hact hg ⟨k, List.mem_of_getElem? hp⟩ ha ih

/-- An event: its call satisfied the specification of the process that made it, in its past, and
the machine gave the answer. -/
theorem Reachable.event {P : J → List (Reply I) → I.Call → Prop}
    {Q : J → List (Reply I) → Except ε ρ → Prop}
    (hbody : ∀ g j, allow g j → Spec m.May (P j) (Q j) [] (body j)) (h : Reachable m body allow s₀ g) :
    ∀ ev ∈ g.history, P ev.job ev.past ev.reply.1 ∧
      ∃ e, m.answer ev.reply.1 e ev.before = some (ev.reply.2, ev.after) :=
  h.shared_inv (R := fun _ l => ∀ ev ∈ l, P ev.job ev.past ev.reply.1 ∧
      ∃ e, m.answer ev.reply.1 e ev.before = some (ev.reply.2, ev.after))
    (fun _ h => absurd h List.not_mem_nil)
    (fun hg ⟨_, hp⟩ ha ih ev hev => by
      rcases List.mem_append.mp hev with hev | hev
      · exact ih ev hev
      · obtain rfl := List.mem_singleton.mp hev
        exact ⟨(hg.spec hbody _ hp).1, _, ha⟩)

/-! ## Processes and the history -/

/-- The calls of process `pid`, in order. -/
def callsOf (pid : Nat) (l : List (Event I σ J)) : List (Reply I) :=
  (l.filter fun ev => ev.pid = pid).map Event.reply

theorem callsOf_append (pid : Nat) (l l' : List (Event I σ J)) :
    callsOf pid (l ++ l') = callsOf pid l ++ callsOf pid l' := by
  simp [callsOf, List.filter_append]

theorem callsOf_eq_nil {pid : Nat} {l : List (Event I σ J)} (h : ∀ ev ∈ l, ev.pid ≠ pid) :
    callsOf pid l = [] := by
  simpa [callsOf] using h

theorem Reachable.pid_lt (h : Reachable m body allow s₀ g) :
    ∀ ev ∈ g.history, ev.pid < g.procs.length := by
  induction h with
  | init => exact fun _ h => absurd h List.not_mem_nil
  | spawn j _ _ ih =>
    intro ev hev
    have := ih ev hev
    simp only [List.length_append]
    omega
  | act pid e _ hs ih =>
    obtain ⟨j, past, c, k, a, s, hp, ha, rfl⟩ := act_cases hs
    intro ev hev
    rw [List.length_set]
    rcases List.mem_append.mp hev with hev | hev
    · exact ih ev hev
    · obtain rfl := List.mem_singleton.mp hev
      exact (List.getElem?_eq_some_iff.mp hp).1

/-- **A process's past is its part of the history.** -/
theorem Reachable.past_eq (h : Reachable m body allow s₀ g) {pid : Nat} {p : Proc I J ε ρ}
    (hp : g.procs[pid]? = some p) : p.past = callsOf pid g.history := by
  induction h generalizing p with
  | init => exact absurd hp (by simp)
  | @spawn g j hg _ ih =>
    by_cases hlt : pid < g.procs.length
    · rw [List.getElem?_append_left hlt] at hp
      exact ih hp
    · have hnil : callsOf pid g.history = [] := callsOf_eq_nil fun ev hev heq =>
        hlt (heq ▸ hg.pid_lt ev hev)
      rw [List.getElem?_append_right (by omega)] at hp
      obtain rfl := List.mem_singleton.mp (List.mem_of_getElem? hp)
      exact hnil.symm
  | @act g _ pid' e _ hs ih =>
    obtain ⟨j, past, c, k, a, s, hp', ha, rfl⟩ := act_cases hs
    rw [callsOf_append]
    by_cases hpid : pid' = pid
    · subst hpid
      rw [List.getElem?_set_self (List.getElem?_eq_some_iff.mp hp').1] at hp
      obtain rfl := Option.some.inj hp
      have hpast : past = callsOf pid' g.history := ih hp'
      simp [hpast, callsOf]
    · rw [List.getElem?_set_ne hpid] at hp
      have hnil : callsOf pid [(⟨pid', j, past, ⟨c, a⟩, g.shared, s⟩ : Event I σ J)] = [] :=
        callsOf_eq_nil (by simpa using hpid)
      rw [ih hp, hnil, List.append_nil]

/-- The events a process made its calls in. -/
theorem Reachable.event_of_past (h : Reachable m body allow s₀ g) {pid : Nat} {p : Proc I J ε ρ}
    (hp : g.procs[pid]? = some p) {r : Reply I} (hr : r ∈ p.past) :
    ∃ ev ∈ g.history, ev.pid = pid ∧ ev.reply = r := by
  rw [h.past_eq hp] at hr
  obtain ⟨ev, hev, rfl⟩ := List.mem_map.mp hr
  obtain ⟨hev, hpid⟩ := List.mem_filter.mp hev
  exact ⟨ev, hev, of_decide_eq_true hpid, rfl⟩

/-- The job of an event is the job of the process that made it. -/
theorem Reachable.event_job (h : Reachable m body allow s₀ g) :
    ∀ ev ∈ g.history, ∃ p, g.procs[ev.pid]? = some p ∧ p.job = ev.job := by
  induction h with
  | init => exact fun _ h => absurd h List.not_mem_nil
  | spawn j hg _ ih =>
    intro ev hev
    obtain ⟨p, hp, hj⟩ := ih ev hev
    exact ⟨p, by rw [List.getElem?_append_left (hg.pid_lt ev hev)]; exact hp, hj⟩
  | @act g _ pid e _ hs ih =>
    obtain ⟨j, past, c, k, a, s, hp, ha, rfl⟩ := act_cases hs
    have hlt := (List.getElem?_eq_some_iff.mp hp).1
    intro ev hev
    rcases List.mem_append.mp hev with hev | hev
    · obtain ⟨p', hp', hj⟩ := ih ev hev
      by_cases hpid : pid = ev.pid
      · subst hpid
        rw [hp] at hp'
        obtain rfl := Option.some.inj hp'
        exact ⟨_, List.getElem?_set_self hlt, hj⟩
      · exact ⟨p', by rw [List.getElem?_set_ne hpid]; exact hp', hj⟩
    · obtain rfl := List.mem_singleton.mp hev
      exact ⟨_, List.getElem?_set_self hlt, rfl⟩

/-- **A run up to one of its calls.** The process that makes the call is about to make it. -/
theorem Reachable.upTo (h : Reachable m body allow s₀ g) {l l' : List (Event I σ J)}
    {ev : Event I σ J} (hl : g.history = l ++ ev :: l') :
    ∃ g₀, Reachable m body allow s₀ g₀ ∧ g₀.history = l ∧ g₀.shared = ev.before ∧
      ∃ k, g₀.procs[ev.pid]? = some ⟨ev.job, ev.past, .step ev.reply.1 k⟩ := by
  induction h generalizing l' with
  | init => exact absurd hl (by simp)
  | spawn j _ _ ih => exact ih hl
  | @act g _ pid e hg hs ih =>
    obtain ⟨j, past, c, k, a, s, hp, ha, rfl⟩ := act_cases hs
    rcases List.eq_nil_or_concat l' with rfl | ⟨l'', ev', rfl⟩
    · obtain ⟨rfl, hev⟩ := List.append_inj' hl rfl
      obtain rfl := List.singleton_inj.mp hev
      exact ⟨g, hg, rfl, rfl, k, hp⟩
    · rw [List.concat_eq_append, ← List.cons_append, ← List.append_assoc] at hl
      exact ih (List.append_inj' hl rfl).1

/-- The induction rule for the history, with the run up to and with its last call at hand. -/
theorem Reachable.history_inv {R : σ → List (Event I σ J) → Prop} (h0 : R s₀ [])
    (hact : ∀ {g : Config I σ J ε ρ} {l : List (Event I σ J)} {ev : Event I σ J},
      Reachable m body allow s₀ g → g.history = l ++ [ev] → R ev.before l → R ev.after (l ++ [ev]))
    (h : Reachable m body allow s₀ g) : R g.shared g.history := by
  induction h with
  | init => exact h0
  | spawn j _ _ ih => exact ih
  | act pid e hg hs ih =>
    have hg' := hg.act pid e hs
    obtain ⟨j, past, c, k, a, s, hp, ha, rfl⟩ := act_cases hs
    exact hact hg' rfl ih

/-- **What holds after a call and is kept by every later one**, holds in the end. `K` may speak of
the calls that came in between. -/
theorem Reachable.since_inv {K : List (Event I σ J) → σ → Prop} (h : Reachable m body allow s₀ g)
    {l l' : List (Event I σ J)} {ev : Event I σ J} (hl : g.history = l ++ ev :: l')
    (hstart : K [] ev.after)
    (hkeep : ∀ l₁ e l₂, l' = l₁ ++ e :: l₂ → K l₁ e.before → K (l₁ ++ [e]) e.after) :
    K l' g.shared := by
  refine Reachable.history_inv (R := fun s history => ∀ l', history = l ++ ev :: l' →
    (∀ l₁ e l₂, l' = l₁ ++ e :: l₂ → K l₁ e.before → K (l₁ ++ [e]) e.after) → K l' s)
    (fun _ hl => absurd hl (by simp)) ?_ h l' hl hkeep
  intro g history last _ hhist ih l' hl hkeep
  rcases List.eq_nil_or_concat l' with rfl | ⟨l'', last', rfl⟩
  · obtain ⟨-, hev⟩ := List.append_inj' hl rfl
    obtain rfl := List.singleton_inj.mp hev
    exact hstart
  · rw [List.concat_eq_append, ← List.cons_append, ← List.append_assoc] at hl
    obtain ⟨hold, hev⟩ := List.append_inj' hl rfl
    obtain rfl := List.singleton_inj.mp hev
    rw [List.concat_eq_append] at hkeep ⊢
    exact hkeep l'' last [] rfl (ih l'' hold fun l₁ e l₂ hsplit =>
      hkeep l₁ e (l₂ ++ [last]) (by rw [hsplit]; simp))

theorem Reachable.since {K : σ → Prop} (h : Reachable m body allow s₀ g) {l l' : List (Event I σ J)}
    {ev : Event I σ J} (hl : g.history = l ++ ev :: l') (hstart : K ev.after)
    (hkeep : ∀ e ∈ l', K e.before → K e.after) : K g.shared :=
  h.since_inv (K := fun _ s => K s) hl hstart fun _ e _ hsplit => hkeep e (by simp [hsplit])

/-- A shared state before or after one of the calls. -/
def Held (l : List (Event I σ J)) (s : σ) : Prop := ∃ ev ∈ l, s = ev.before ∨ s = ev.after

/-- **The shared states of a run stand in a line**: in any order that every call goes up, one of two is
below the other. -/
theorem Reachable.held_ordered {R : σ → σ → Prop} (hrefl : ∀ s, R s s)
    (htrans : ∀ {s s' s''}, R s s' → R s' s'' → R s s'') (h : Reachable m body allow s₀ g)
    (hstep : ∀ ev ∈ g.history, R ev.before ev.after) {s s' : σ} (hs : Held g.history s)
    (hs' : Held g.history s') : R s s' ∨ R s' s := by
  refine (Reachable.history_inv (R := fun s l => (∀ ev ∈ l, R ev.before ev.after) →
    (∀ t, Held l t → R t s) ∧ ∀ t t', Held l t → Held l t' → R t t' ∨ R t' t) ?_ ?_ h hstep).2 s s' hs hs'
  · exact fun _ => ⟨fun _ ⟨_, hev, _⟩ => absurd hev List.not_mem_nil,
      fun _ _ ⟨_, hev, _⟩ => absurd hev List.not_mem_nil⟩
  intro g l ev _ _ ih hall
  have hev : R ev.before ev.after := hall ev (by simp)
  obtain ⟨hbelow, hpairs⟩ := ih fun e he => hall e (List.mem_append_left _ he)
  have hcases : ∀ t, Held (l ++ [ev]) t → Held l t ∨ t = ev.before ∨ t = ev.after := by
    rintro t ⟨e, he, ht⟩
    rcases List.mem_append.mp he with he | he
    · exact .inl ⟨e, he, ht⟩
    · obtain rfl := List.mem_singleton.mp he
      exact .inr ht
  have hold : ∀ t, Held l t → R t ev.after := fun t ht => htrans (hbelow t ht) hev
  refine ⟨fun t ht => ?_, fun t t' ht ht' => ?_⟩
  · rcases hcases t ht with ht | rfl | rfl
    · exact hold t ht
    · exact hev
    · exact hrefl _
  · rcases hcases t ht with ht | rfl | rfl <;> rcases hcases t' ht' with ht' | rfl | rfl
    · exact hpairs t t' ht ht'
    · exact .inl (hbelow t ht)
    · exact .inl (hold t ht)
    · exact .inr (hbelow t' ht')
    · exact .inl (hrefl _)
    · exact .inl hev
    · exact .inr (hold t' ht')
    · exact .inr hev
    · exact .inl (hrefl _)

/-- **The states at the calls of a run rise** in any preorder that these calls go up in. -/
theorem Reachable.rising {R : σ → σ → Prop} (htrans : ∀ {s s' s''}, R s s' → R s' s'' → R s s'')
    (h : Reachable m body allow s₀ g) {l l' : List (Event I σ J)} (hl : g.history = l ++ l')
    (hstep : ∀ ev ∈ l', R ev.before ev.after) : l'.Pairwise fun ev ev' => R ev.before ev'.before := by
  rw [List.pairwise_iff_forall_sublist]
  intro ev ev' hsub
  obtain ⟨l₁, l₂, rfl, hev, hev'⟩ := List.cons_sublist_iff.mp hsub
  obtain ⟨a, b, rfl⟩ := List.append_of_mem hev
  obtain ⟨c, d, rfl⟩ := List.append_of_mem (List.singleton_sublist.mp hev')
  have hsplit : g.history = (l ++ a ++ ev :: (b ++ c)) ++ ev' :: d := by simp [hl]
  obtain ⟨g₀, hg₀, hhist, hshared, _⟩ := h.upTo hsplit
  rw [← hshared]
  refine hg₀.since (K := R ev.before) hhist (hstep ev (by simp)) fun e he hbefore => ?_
  refine htrans hbefore (hstep e ?_)
  rcases List.mem_append.mp he with he | he <;> simp [he]

/-- The calls of a process up to one of them. -/
theorem Reachable.event_begins (h : Reachable m body allow s₀ g) {ev : Event I σ J}
    (hev : ev ∈ g.history) {p : Proc I J ε ρ} (hp : g.procs[ev.pid]? = some p) :
    ev.past ++ [ev.reply] <+: p.past := by
  obtain ⟨l, l', hl⟩ := List.append_of_mem hev
  obtain ⟨g₀, hg₀, rfl, _, k, hp₀⟩ := h.upTo hl
  have hpast : ev.past = callsOf ev.pid g₀.history := hg₀.past_eq hp₀
  have hall : p.past = callsOf ev.pid g.history := h.past_eq hp
  have hsplit : g.history = g₀.history ++ [ev] ++ l' := by simp [hl]
  rw [hall, hsplit, callsOf_append, callsOf_append, ← hpast]
  exact ⟨callsOf ev.pid l', by simp [callsOf]⟩

theorem callsOf_eq_append {pid : Nat} {l : List (Event I σ J)} {past : List (Reply I)}
    {r : Reply I} {rest : List (Reply I)} (h : callsOf pid l = past ++ r :: rest) :
    ∃ l₁ ev l₂, l = l₁ ++ ev :: l₂ ∧ ev.pid = pid ∧ ev.reply = r ∧ callsOf pid l₁ = past := by
  obtain ⟨as, bs, hfilter, has, hbs⟩ := List.map_eq_append_iff.mp h
  obtain ⟨ev, cs, rfl, rfl, _⟩ := List.map_eq_cons_iff.mp hbs
  obtain ⟨l₁, l₂, rfl, h₁, h₂⟩ := List.filter_eq_append_iff.mp hfilter
  obtain ⟨l₃, l₄, rfl, h₃, hpid, _⟩ := List.filter_eq_cons_iff.mp h₂
  refine ⟨l₁ ++ l₃, ev, l₄, by simp, of_decide_eq_true hpid, rfl, ?_⟩
  have hnil : callsOf pid l₃ = [] := callsOf_eq_nil fun e he => by simpa using h₃ e he
  rw [callsOf_append, hnil, List.append_nil, callsOf, h₁, has]

/-- The call that a process made after its past was `past`. -/
theorem Reachable.event_at (h : Reachable m body allow s₀ g) {pid : Nat} {p : Proc I J ε ρ}
    (hp : g.procs[pid]? = some p) {past : List (Reply I)} {r : Reply I}
    (hpre : past ++ [r] <+: p.past) :
    ∃ l ev l', g.history = l ++ ev :: l' ∧ ev.pid = pid ∧ ev.past = past ∧ ev.reply = r := by
  obtain ⟨rest, hrest⟩ := hpre
  have hcalls : callsOf pid g.history = past ++ r :: rest := by
    rw [← h.past_eq hp, ← hrest]
    simp
  obtain ⟨l, ev, l', hl, rfl, hreply, hpast⟩ := callsOf_eq_append hcalls
  obtain ⟨g₀, hg₀, rfl, _, k, hp₀⟩ := h.upTo hl
  exact ⟨_, ev, l', hl, rfl, (hg₀.past_eq hp₀).trans hpast, hreply⟩

/-- Whatever a process had been answered when it made a call, it was answered before in the run. -/
theorem Reachable.event_of_event_past (h : Reachable m body allow s₀ g) {l l' : List (Event I σ J)}
    {ev : Event I σ J} (hl : g.history = l ++ ev :: l') {r : Reply I} (hr : r ∈ ev.past) :
    ∃ e ∈ l, e.pid = ev.pid ∧ e.job = ev.job ∧ e.reply = r := by
  obtain ⟨g₀, hg₀, rfl, _, k, hp₀⟩ := h.upTo hl
  obtain ⟨e, he, hpid, hreply⟩ := hg₀.event_of_past hp₀ hr
  obtain ⟨p, hp, hjob⟩ := hg₀.event_job e he
  rw [hpid] at hp
  obtain rfl := Option.some.inj (hp.symm.trans hp₀)
  exact ⟨e, he, hpid, hjob.symm, hreply⟩

/-- It was answered in a state that the run had come through by then. -/
theorem Reachable.answered_in (h : Reachable m body allow s₀ g) {l l' : List (Event I σ J)}
    {ev : Event I σ J} (hl : g.history = l ++ ev :: l') {r : Reply I} (hr : r ∈ ev.past) :
    ∃ g₀ e s, Reachable m body allow s₀ g₀ ∧ g₀.history ⊆ l ∧ m.answer r.1 e g₀.shared = some (r.2, s) := by
  obtain ⟨ev', hev', _, _, rfl⟩ := h.event_of_event_past hl hr
  obtain ⟨l₁, l₂, rfl⟩ := List.append_of_mem hev'
  have hsplit : g.history = l₁ ++ ev' :: (l₂ ++ ev :: l') := by rw [hl]; simp
  obtain ⟨g₀, hg₀, rfl, hshared, _⟩ := h.upTo hsplit
  have hmem : ev' ∈ g.history := by rw [hsplit]; simp
  obtain ⟨_, e, ha⟩ := h.event (P := fun _ _ _ => True) (Q := fun _ _ _ => True)
    (fun _ _ _ => spec_of_forall (fun _ _ => trivial) fun _ _ => trivial) ev' hmem
  exact ⟨g₀, e, ev'.after, hg₀, List.subset_append_left _ _, hshared ▸ ha⟩

/-- What holds now, and did not at first, a call has brought about. -/
theorem Reachable.made_by {K : σ → Prop} {E : Reply I → Prop} (h : Reachable m body allow s₀ g) (h0 : ¬ K s₀)
    (hact : ∀ {c e s a s'}, m.answer c e s = some (a, s') → K s' → K s ∨ E ⟨c, a⟩) (hK : K g.shared) :
    ∃ ev ∈ g.history, E ev.reply := by
  refine h.shared_inv (R := fun s l => K s → ∃ ev ∈ l, E ev.reply) (fun hK => absurd hK h0) ?_ hK
  intro g pid j past c e a s _ _ ha ih hK
  rcases hact ha hK with hbefore | hnow
  · obtain ⟨ev, hev, hE⟩ := ih hbefore
    exact ⟨ev, List.mem_append_left _ hev, hE⟩
  · exact ⟨_, List.mem_append_right _ (List.mem_singleton_self _), hnow⟩

/-- What an answer shows of the state it was given in, an earlier call has brought about. -/
theorem Reachable.shown_made_by {K : σ → Prop} {E : Reply I → Prop} (h : Reachable m body allow s₀ g)
    {l l' : List (Event I σ J)} {ev : Event I σ J} (hl : g.history = l ++ ev :: l') {r : Reply I} (hr : r ∈ ev.past)
    (hshows : ∀ {e s s'}, m.answer r.1 e s = some (r.2, s') → K s) (h0 : ¬ K s₀)
    (hact : ∀ {c e s a s'}, m.answer c e s = some (a, s') → K s' → K s ∨ E ⟨c, a⟩) :
    ∃ ev' ∈ l, E ev'.reply := by
  obtain ⟨g₀, e, s, hg₀, hsub, ha⟩ := h.answered_in hl hr
  obtain ⟨ev', hev', hE⟩ := hg₀.made_by h0 hact (hshows ha)
  exact ⟨ev', hsub hev', hE⟩

/-- Between one call and a later call of the run, all events of both are in order. -/
theorem Reachable.event_past_begins (h : Reachable m body allow s₀ g) {l l' : List (Event I σ J)}
    {ev ev' : Event I σ J} (hl : g.history = l ++ ev :: l') (hev' : ev' ∈ l') (hpid : ev'.pid = ev.pid) :
    ev.past ++ [ev.reply] <+: ev'.past := by
  obtain ⟨l₁, l₂, rfl⟩ := List.append_of_mem hev'
  have hsplit : g.history = (l ++ ev :: l₁) ++ ev' :: l₂ := by simp [hl]
  obtain ⟨g₀, hg₀, hhist, _, k, hp₀⟩ := h.upTo hsplit
  exact hg₀.event_begins (by simp [hhist]) (hpid ▸ hp₀)

/-! ## Jobs with one program

Two jobs with the same program cannot be told apart by a run. -/

def Proc.mapJob (f : J → J) (p : Proc I J ε ρ) : Proc I J ε ρ := { p with job := f p.job }

def Event.mapJob (f : J → J) (ev : Event I σ J) : Event I σ J := { ev with job := f ev.job }

def Config.mapJob (f : J → J) (g : Config I σ J ε ρ) : Config I σ J ε ρ where
  shared := g.shared
  procs := g.procs.map (Proc.mapJob f)
  history := g.history.map (Event.mapJob f)

theorem act_mapJob (f : J → J) (g : Config I σ J ε ρ) (pid : Nat) (e : χ) :
    (g.mapJob f).act m pid e = (g.act m pid e).map (Config.mapJob f) := by
  simp only [Config.act, Config.mapJob, List.getElem?_map]
  cases hp : g.procs[pid]? with
  | none => rfl
  | some p =>
    obtain ⟨j, past, x⟩ := p
    cases x with
    | ret _ => rfl
    | fail _ => rfl
    | step c k =>
      simp only [Option.map_some, Proc.mapJob]
      cases m.answer c e g.shared with
      | none => rfl
      | some as => simp [Config.mapJob, Event.mapJob, Proc.mapJob, List.map_set]

/-- **Replacing each job by one with the same program gives a run again.** -/
theorem Reachable.mapJob {f : J → J} (hbody : ∀ j, body (f j) = body j)
    (hadm : ∀ g j, allow g j → allow (g.mapJob f) (f j)) (h : Reachable m body allow s₀ g) :
    Reachable m body allow s₀ (g.mapJob f) := by
  induction h with
  | init => exact Reachable.init
  | @spawn g j _ hj ih =>
    have := Reachable.spawn (f j) ih (hadm g j hj)
    simpa [Config.mapJob, Proc.mapJob, hbody] using this
  | act pid e _ hs ih =>
    exact Reachable.act pid e ih (by rw [act_mapJob, hs, Option.map_some])

/-! ## What an answer keeps telling

The calls of the run satisfy the call condition `P` of their process's specification, so only such
calls have to keep what is known. -/

section Stable

variable {P : J → List (Reply I) → I.Call → Prop} {Q : J → List (Reply I) → Except ε ρ → Prop}

/-- **Stable knowledge.** If `K s r` holds right after the reply `r` and no call can undo it, then
it holds of every reply in the past of a process, now and at each call the process made. -/
theorem Reachable.past_stable (hbody : ∀ g j, allow g j → Spec m.May (P j) (Q j) [] (body j))
    {K : σ → Reply I → Prop}
    (hnew : ∀ {j past c e s a s'}, P j past c → m.answer c e s = some (a, s') → K s' ⟨c, a⟩)
    (hkeep : ∀ {j past c e s a s' r}, P j past c → m.answer c e s = some (a, s') → K s r → K s' r)
    (h : Reachable m body allow s₀ g) :
    (∀ p ∈ g.procs, ∀ r ∈ p.past, K g.shared r) ∧
      ∀ ev ∈ g.history, ∀ r ∈ ev.past, K ev.before r := by
  have hprocs : ∀ {g : Config I σ J ε ρ}, Reachable m body allow s₀ g →
      ∀ p ∈ g.procs, ∀ r ∈ p.past, K g.shared r := fun hg =>
    hg.proc_inv (R := fun s p => ∀ r ∈ p.past, K s r)
      (fun _ _ _ _ _ hr => absurd hr List.not_mem_nil)
      (fun hg hp ha ih r hr => by
        have hP := (hg.spec hbody _ hp).1
        rcases List.mem_append.mp hr with hr | hr
        · exact hkeep hP ha (ih r hr)
        · obtain rfl := List.mem_singleton.mp hr
          exact hnew hP ha)
      (fun hg hp ha ih r hr => hkeep (hg.spec hbody _ hp).1 ha (ih r hr))
  refine ⟨hprocs h, h.shared_inv (R := fun _ l => ∀ ev ∈ l, ∀ r ∈ ev.past, K ev.before r)
    (fun _ h => absurd h List.not_mem_nil) fun hg ⟨_, hp⟩ _ ih ev hev => ?_⟩
  rcases List.mem_append.mp hev with hev | hev
  · exact ih ev hev
  · obtain rfl := List.mem_singleton.mp hev
    exact hprocs hg _ hp

/-- **A call that can only hit once.** -/
theorem Reachable.hit_unique (hbody : ∀ g j, allow g j → Spec m.May (P j) (Q j) [] (body j))
    (Hit : Reply I → Prop) (Marked : σ → Prop)
    (hhit : ∀ {j past c e s a s'}, P j past c → m.answer c e s = some (a, s') → Hit ⟨c, a⟩ →
      ¬ Marked s ∧ Marked s')
    (hkeep : ∀ {j past c e s a s'}, P j past c → m.answer c e s = some (a, s') → Marked s → Marked s')
    (h : Reachable m body allow s₀ g) :
    g.history.Pairwise fun ev ev' => ¬ (Hit ev.reply ∧ Hit ev'.reply) := by
  refine (h.shared_inv (R := fun s l => (∀ ev ∈ l, Hit ev.reply → Marked s) ∧
    l.Pairwise fun ev ev' => ¬ (Hit ev.reply ∧ Hit ev'.reply))
    ⟨fun _ h => absurd h List.not_mem_nil, List.Pairwise.nil⟩ ?_).2
  intro g pid j past c e a s hg ⟨k, hp⟩ ha ⟨hm, hl⟩
  have hP := (hg.spec hbody _ hp).1
  refine ⟨fun ev hev hh => ?_, List.pairwise_append.mpr ⟨hl, List.pairwise_singleton _ _, ?_⟩⟩
  · rcases List.mem_append.mp hev with hev | hev
    · exact hkeep hP ha (hm ev hev hh)
    · obtain rfl := List.mem_singleton.mp hev
      exact (hhit hP ha hh).2
  · intro ev hev ev' hev' ⟨hh, hh'⟩
    obtain rfl := List.mem_singleton.mp hev'
    exact (hhit hP ha hh').1 (hm ev hev hh)

/-- Two processes cannot both have made a call that hits once. -/
theorem Reachable.hit_proc (hbody : ∀ g j, allow g j → Spec m.May (P j) (Q j) [] (body j))
    (Hit : Reply I → Prop) (Marked : σ → Prop)
    (hhit : ∀ {j past c e s a s'}, P j past c → m.answer c e s = some (a, s') → Hit ⟨c, a⟩ →
      ¬ Marked s ∧ Marked s')
    (hkeep : ∀ {j past c e s a s'}, P j past c → m.answer c e s = some (a, s') → Marked s → Marked s')
    (h : Reachable m body allow s₀ g) {pid pid' : Nat} {p p' : Proc I J ε ρ}
    (hp : g.procs[pid]? = some p) (hp' : g.procs[pid']? = some p') {r r' : Reply I}
    (hr : r ∈ p.past) (hr' : r' ∈ p'.past) (hh : Hit r) (hh' : Hit r') : pid = pid' := by
  obtain ⟨ev, hev, rfl, rfl⟩ := h.event_of_past hp hr
  obtain ⟨ev', hev', rfl, rfl⟩ := h.event_of_past hp' hr'
  by_contra hne
  have hsymm : Std.Symm fun ev ev' : Event I σ J => ¬ (Hit ev.reply ∧ Hit ev'.reply) :=
    ⟨fun _ _ h hc => h hc.symm⟩
  exact (h.hit_unique hbody Hit Marked hhit hkeep).forall hev hev' (fun heq => hne (heq ▸ rfl)) ⟨hh, hh'⟩

end Stable

/-! ## A program alone -/

/-- `x` run from `s` with no other process about, each of its calls answered with the choice `e`: its
result and the state after it. -/
def Machine.solo (m : Machine I σ χ) (e : χ) : Prog I ε ρ → σ → Option (Except ε ρ × σ)
  | .ret a, s => some (.ok a, s)
  | .fail err, s => some (.error err, s)
  | .step c k, s =>
    match m.answer c e s with
    | some (a, s') => m.solo e (k a) s'
    | none => none

section Solo

attribute [local simp] Machine.solo

variable {α : Type} {e : χ} {s s' : σ}

theorem solo_bind {f : α → Prog I ε ρ} : ∀ {x : Prog I ε α} {s : σ},
    m.solo e (x >>= f) s =
      match m.solo e x s with
      | some (.ok a, s') => m.solo e (f a) s'
      | some (.error err, s') => some (.error err, s')
      | none => none
  | .ret _, _ => rfl
  | .fail _, _ => rfl
  | .step c k, s => by
    change m.solo e (.step c fun a => k a >>= f) s = _
    simp only [Machine.solo]
    cases m.answer c e s with
    | none => rfl
    | some r => exact solo_bind

theorem solo_bind_ok {f : α → Prog I ε ρ} {x : Prog I ε α} {a : α}
    (h : m.solo e x s = some (.ok a, s')) : m.solo e (x >>= f) s = m.solo e (f a) s' := by
  rw [solo_bind, h]

theorem solo_bind_error {f : α → Prog I ε ρ} {x : Prog I ε α} {err : ε}
    (h : m.solo e x s = some (.error err, s')) :
    m.solo e (x >>= f) s = some (.error err, s') := by
  rw [solo_bind, h]

theorem solo_call {c : I.Call} {a : I.Ans c} (h : m.answer c e s = some (a, s')) :
    m.solo e (Prog.call c : Prog I ε _) s = some (.ok a, s') := by
  simp only [Prog.call, Machine.solo, h]

theorem solo_ensure_bind {b : Bool} {err : ε} {f : Unit → Prog I ε ρ} :
    m.solo e (Prog.ensure b err >>= f) s = if b then m.solo e (f ()) s else some (.error err, s) := by
  cases b <;> rfl

/-- An attempt ends well, whatever the result. -/
theorem solo_attempt {ε' : Type} : ∀ {x : Prog I ε α} {s : σ},
    m.solo e (x.attempt : Prog I ε' (Except ε α)) s =(m.solo e x s).map fun r => (.ok r.1, r.2)
  | .ret _, _ => rfl
  | .fail _, _ => rfl
  | .step c k, s => by
    change m.solo e (.step c fun a => (k a).attempt) s = _
    simp only [Machine.solo]
    cases m.answer c e s with
    | none => rfl
    | some r => exact solo_attempt

/-- A program whose calls the machine answers comes to its end. -/
theorem solo_isSome {P : List (Reply I) → I.Call → Prop} {Q : List (Reply I) → Except ε ρ → Prop}
    (Inv : σ → Prop)
    (hans : ∀ past c s, P past c → Inv s → ∃ a s', m.answer c e s = some (a, s') ∧ Inv s') :
    ∀ {x : Prog I ε ρ} {past : List (Reply I)} {s : σ}, Spec (fun _ _ => True) P Q past x → Inv s →
      (m.solo e x s).isSome
  | .ret _, _, _, _, _ => rfl
  | .fail _, _, _, _, _ => rfl
  | .step c k, past, s, ⟨hP, hk⟩, hinv => by
    obtain ⟨a, s', ha, hinv'⟩ := hans past c s hP hinv
    rw [Machine.solo, ha]
    exact solo_isSome Inv hans (hk a trivial) hinv'

/-- A program alone is an execution of it. -/
theorem yields_of_solo {r : Except ε ρ} : ∀ {x : Prog I ε ρ} {s : σ} (past : List (Reply I)),
    m.solo e x s = some (r, s') → ∃ past', Yields m.May past x past' r
  | .ret a, s, past, h => by
    obtain ⟨rfl, _⟩ := Prod.mk.inj (Option.some.inj h)
    exact ⟨past, .ret⟩
  | .fail err, s, past, h => by
    obtain ⟨rfl, _⟩ := Prod.mk.inj (Option.some.inj h)
    exact ⟨past, .fail⟩
  | .step c k, s, past, h => by
    rw [Machine.solo] at h
    split at h
    case h_2 => exact absurd h (by simp)
    case h_1 a s₁ ha =>
      obtain ⟨past', hk⟩ := yields_of_solo (past ++ [⟨c, a⟩]) h
      exact ⟨past', .step ⟨e, s, s₁, ha⟩ hk⟩

end Solo

/-! ## One program among others -/

/-- A call with the shared state that it found and the one that it left. -/
structure Move (I : Interface) (σ : Type) where
  before : σ
  reply : Reply I
  after : σ

section Executes

variable {α : Type}

/-- `x` comes to the result `r` by the calls `moves`. Between two of them anyone may have made anything
of the shared state. -/
inductive Executes (m : Machine I σ χ) : Prog I ε α → List (Move I σ) → Except ε α → Prop where
  | ret {a : α} : Executes m (.ret a) [] (.ok a)
  | fail {e : ε} : Executes m (.fail e) [] (.error e)
  | step {c : I.Call} {k : I.Ans c → Prog I ε α} {a : I.Ans c} {e : χ} {s s' : σ}
      {moves : List (Move I σ)} {r : Except ε α} (ha : m.answer c e s = some (a, s'))
      (h : Executes m (k a) moves r) : Executes m (.step c k) (⟨s, ⟨c, a⟩, s'⟩ :: moves) r

variable {x : Prog I ε α} {moves : List (Move I σ)} {r : Except ε α}

theorem Executes.answer (h : Executes m x moves r) :
    ∀ mv ∈ moves, ∃ e, m.answer mv.reply.1 e mv.before = some (mv.reply.2, mv.after) := by
  induction h with
  | ret => exact fun _ h => absurd h List.not_mem_nil
  | fail => exact fun _ h => absurd h List.not_mem_nil
  | step ha _ ih => exact List.forall_mem_cons.mpr ⟨⟨_, ha⟩, ih⟩

/-- The calls of an execution. -/
theorem Executes.yields (h : Executes m x moves r) :
    ∀ past, Yields m.May past x (past ++ moves.map Move.reply) r := by
  induction h with
  | ret => exact fun past => by rw [List.map_nil, List.append_nil]; exact .ret
  | fail => exact fun past => by rw [List.map_nil, List.append_nil]; exact .fail
  | step ha _ ih =>
    intro past
    rw [List.map_cons, List.append_cons]
    exact .step ⟨_, _, _, ha⟩ (ih _)

/-- The execution that finds the states `env`, with the environment's choices. -/
def Machine.replay (m : Machine I σ χ) :
    List (σ × χ) → Prog I ε α → Option (List (Move I σ) × Except ε α)
  | _, .ret a => some ([], .ok a)
  | _, .fail e => some ([], .error e)
  | [], .step _ _ => none
  | (s, e) :: env, .step c k =>
    match m.answer c e s with
    | some (a, s') => (m.replay env (k a)).map fun r => (⟨s, ⟨c, a⟩, s'⟩ :: r.1, r.2)
    | none => none

theorem executes_of_replay : ∀ {env : List (σ × χ)} {x : Prog I ε α} {moves : List (Move I σ)}
    {r : Except ε α}, m.replay env x = some (moves, r) → Executes m x moves r
  | env, .ret a, moves, r, h => by
    cases env <;> obtain ⟨rfl, rfl⟩ := Prod.mk.inj (Option.some.inj h) <;> exact .ret
  | env, .fail e, moves, r, h => by
    cases env <;> obtain ⟨rfl, rfl⟩ := Prod.mk.inj (Option.some.inj h) <;> exact .fail
  | [], .step _ _, moves, r, h => absurd h (by simp [Machine.replay])
  | (s, e) :: env, .step c k, moves, r, h => by
    rw [Machine.replay] at h
    split at h
    case h_2 => exact absurd h (by simp)
    case h_1 a s' ha =>
      obtain ⟨⟨moves', r'⟩, hrest, heq⟩ := Option.map_eq_some_iff.mp h
      obtain ⟨rfl, rfl⟩ := Prod.mk.inj heq
      exact .step ha (executes_of_replay hrest)

end Executes

end Interleave
