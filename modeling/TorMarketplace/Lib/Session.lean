import TorMarketplace.Lib.Run

/-!
# One program at a time

A client that runs its programs one after the other, while its surroundings change the state between
any two of its calls. `Steps` is a program under way, `Session` a client's run; a program that is not
run to its end is one that was abandoned.

`Steps.spec` carries a program's specification to every point of its execution, `Steps.past_inv` what
a reply tells of the state for as long as nothing undoes it, and `Steps.rel`, `Session.rel` whatever
holds between the states before and after each call and each change from outside.
-/

namespace Interleave

variable {I : Interface} {σ χ J ε α ρ : Type}

/-- A call that was answered, and the state it was made in. -/
structure Made (I : Interface) (σ : Type) where
  before : σ
  reply : Reply I

/-- The program `x`, begun in the state `s`, has made the calls of the list; what is left of it, and
the state, come last. -/
inductive Steps (m : Machine I σ χ) (env : σ → σ → Prop) (x : Prog I ε α) (s : σ) :
    List (Made I σ) → Prog I ε α → σ → Prop
  | refl : Steps m env x s [] x s
  | env {l : List (Made I σ)} {y : Prog I ε α} {s' s'' : σ} (h : Steps m env x s l y s')
      (hs : env s' s'') : Steps m env x s l y s''
  | act {l : List (Made I σ)} {c : I.Call} {k : I.Ans c → Prog I ε α} {a : I.Ans c} {s' s'' : σ}
      (e : χ) (h : Steps m env x s l (.step c k) s') (ha : m.answer c e s' = some (a, s'')) :
      Steps m env x s (l ++ [⟨s', ⟨c, a⟩⟩]) (k a) s''

/-- A client's run from the state `s`: calls of its programs, and changes from outside. -/
inductive Session (m : Machine I σ χ) (env : σ → σ → Prop) (body : J → Prog I ε ρ) (s : σ) : σ → Prop
  | refl : Session m env body s s
  | env {s' s'' : σ} (h : Session m env body s s') (hs : env s' s'') : Session m env body s s''
  | call {l : List (Made I σ)} {y : Prog I ε ρ} {s' s'' : σ} (j : J) (h : Session m env body s s')
      (hx : Steps m env (body j) s' l y s'') : Session m env body s s''

variable {m : Machine I σ χ} {env : σ → σ → Prop} {body : J → Prog I ε ρ} {x y : Prog I ε α} {s s' : σ}
variable {l : List (Made I σ)}

/-- **A specification holds of a program under way.** -/
theorem Steps.spec {P : List (Reply I) → I.Call → Prop} {Q : List (Reply I) → Except ε α → Prop}
    (hx : Spec m.May P Q [] x) (h : Steps m env x s l y s') :
    Spec m.May P Q (l.map Made.reply) y ∧
      ∀ l₁ made l₂, l = l₁ ++ made :: l₂ → P (l₁.map Made.reply) made.reply.1 := by
  induction h with
  | refl => exact ⟨hx, fun l₁ made l₂ hl => absurd hl (by simp)⟩
  | env _ _ ih => exact ih
  | @act l c k a s' s'' e _ ha ih =>
    obtain ⟨⟨hP, hk⟩, hmade⟩ := ih
    refine ⟨?_, fun l₁ made l₂ hl => ?_⟩
    · rw [List.map_append]
      exact hk a ⟨e, s', s'', ha⟩
    · rcases List.eq_nil_or_concat l₂ with rfl | ⟨l₃, last, rfl⟩
      · obtain ⟨rfl, hlast⟩ := List.append_inj' hl rfl
        obtain rfl := List.singleton_inj.mp hlast
        exact hP
      · rw [List.concat_eq_append, ← List.cons_append, ← List.append_assoc] at hl
        exact hmade l₁ made l₃ (List.append_inj' hl rfl).1

/-- A call that was answered is one that the machine answers. -/
theorem Steps.answered (h : Steps m env x s l y s') {made : Made I σ} (hmade : made ∈ l) :
    ∃ e s'', m.answer made.reply.1 e made.before = some (made.reply.2, s'') := by
  induction h with
  | refl => exact absurd hmade List.not_mem_nil
  | env _ _ ih => exact ih hmade
  | act e _ ha ih =>
    rcases List.mem_append.mp hmade with hmade | hmade
    · exact ih hmade
    · obtain rfl := List.mem_singleton.mp hmade
      exact ⟨e, _, ha⟩

/-- **What every move goes up in, an execution goes up in.** `Good` is what the moves rely on. -/
theorem Steps.rel (R : σ → σ → Prop) (Good : σ → Prop) (hrefl : ∀ s, R s s)
    (htrans : ∀ {s s' s''}, R s s' → R s' s'' → R s s'')
    (henv : ∀ {s s'}, Good s → env s s' → R s s' ∧ Good s')
    (hact : ∀ {c e s a s'}, Good s → m.answer c e s = some (a, s') → R s s' ∧ Good s')
    (h : Steps m env x s l y s') (hs : Good s) :
    Good s' ∧ R s s' ∧ ∀ made ∈ l, R s made.before ∧ R made.before s' ∧ Good made.before := by
  induction h with
  | refl => exact ⟨hs, hrefl s, fun _ h => absurd h List.not_mem_nil⟩
  | env _ hmove ih =>
    obtain ⟨hgood, hrel, hmade⟩ := ih
    obtain ⟨hstep, hgood'⟩ := henv hgood hmove
    exact ⟨hgood', htrans hrel hstep, fun made hm =>
      ⟨(hmade made hm).1, htrans (hmade made hm).2.1 hstep, (hmade made hm).2.2⟩⟩
  | act e _ ha ih =>
    obtain ⟨hgood, hrel, hmade⟩ := ih
    obtain ⟨hstep, hgood'⟩ := hact hgood ha
    refine ⟨hgood', htrans hrel hstep, fun made hm => ?_⟩
    rcases List.mem_append.mp hm with hm | hm
    · exact ⟨(hmade made hm).1, htrans (hmade made hm).2.1 hstep, (hmade made hm).2.2⟩
    · obtain rfl := List.mem_singleton.mp hm
      exact ⟨hrel, hstep, hgood⟩

theorem Session.rel (R : σ → σ → Prop) (Good : σ → Prop) (hrefl : ∀ s, R s s)
    (htrans : ∀ {s s' s''}, R s s' → R s' s'' → R s s'')
    (henv : ∀ {s s'}, Good s → env s s' → R s s' ∧ Good s')
    (hact : ∀ {c e s a s'}, Good s → m.answer c e s = some (a, s') → R s s' ∧ Good s')
    (h : Session m env body s s') (hs : Good s) : Good s' ∧ R s s' := by
  induction h with
  | refl => exact ⟨hs, hrefl s⟩
  | env _ hmove ih =>
    obtain ⟨hstep, hgood⟩ := henv ih.1 hmove
    exact ⟨hgood, htrans ih.2 hstep⟩
  | call j _ hx ih =>
    obtain ⟨hgood, hstep, _⟩ := hx.rel R Good hrefl htrans henv hact ih.1
    exact ⟨hgood, htrans ih.2 hstep⟩

/-- **What a reply tells of the state**, and what no move undoes. -/
theorem Steps.past_inv {K : σ → Reply I → Prop}
    (hnew : ∀ {c e s a s'}, m.answer c e s = some (a, s') → K s' ⟨c, a⟩)
    (henv : ∀ {s s' r}, env s s' → K s r → K s' r)
    (hact : ∀ {c e s a s' r}, m.answer c e s = some (a, s') → K s r → K s' r)
    (h : Steps m env x s l y s') : ∀ made ∈ l, K s' made.reply := by
  induction h with
  | refl => exact fun _ h => absurd h List.not_mem_nil
  | env _ hmove ih => exact fun made hm => henv hmove (ih made hm)
  | act e _ ha ih =>
    intro made hm
    rcases List.mem_append.mp hm with hm | hm
    · exact hact ha (ih made hm)
    · obtain rfl := List.mem_singleton.mp hm
      exact hnew ha

/-- The execution up to one of its calls. -/
theorem Steps.upTo (h : Steps m env x s l y s') {l₁ l₂ : List (Made I σ)} {made : Made I σ}
    (hl : l = l₁ ++ made :: l₂) :
    ∃ k, Steps m env x s l₁ (.step made.reply.1 k) made.before := by
  induction h generalizing l₂ with
  | refl => exact absurd hl (by simp)
  | env _ _ ih => exact ih hl
  | @act l c k a s' s'' e h ha ih =>
    rcases List.eq_nil_or_concat l₂ with rfl | ⟨l₃, last, rfl⟩
    · obtain ⟨rfl, hlast⟩ := List.append_inj' hl rfl
      obtain rfl := List.singleton_inj.mp hlast
      exact ⟨k, h⟩
    · rw [List.concat_eq_append, ← List.cons_append, ← List.append_assoc] at hl
      exact ih (List.append_inj' hl rfl).1

/-! ## Executions that are computed -/

/-- One move: a change from outside, or the program's next call. -/
inductive Turn (ω χ : Type) where
  | beside (o : ω)
  | act (e : χ)

/-- A program under way. -/
structure Under (I : Interface) (σ ε α : Type) where
  made : List (Made I σ)
  prog : Prog I ε α
  state : σ

/-- The moves in order. -/
def play {ω : Type} (m : Machine I σ χ) (beside : ω → σ → Option σ) :
    List (Turn ω χ) → Under I σ ε α → Option (Under I σ ε α)
  | [], u => some u
  | .beside o :: turns, u =>
    match beside o u.state with
    | some s => play m beside turns { u with state := s }
    | none => none
  | .act e :: turns, ⟨l, .step c k, s⟩ =>
    match m.answer c e s with
    | some (a, s') => play m beside turns ⟨l ++ [⟨s, ⟨c, a⟩⟩], k a, s'⟩
    | none => none
  | .act _ :: _, ⟨_, _, _⟩ => none

theorem steps_of_play {ω : Type} {beside : ω → σ → Option σ}
    (hbeside : ∀ o s s', beside o s = some s' → env s s') {turns : List (Turn ω χ)}
    {u : Under I σ ε α} (hx : Steps m env x s l y s') (h : play m beside turns ⟨l, y, s'⟩ = some u) :
    Steps m env x s u.made u.prog u.state := by
  induction turns generalizing l y s' with
  | nil =>
    obtain rfl := Option.some.inj h
    exact hx
  | cons turn turns ih =>
    cases turn with
    | beside o =>
      rw [play] at h
      split at h
      case h_1 s'' hs => exact ih (.env hx (hbeside o s' s'' hs)) h
      case h_2 => exact absurd h (by simp)
    | act e =>
      cases y with
      | ret a => exact absurd h (by simp [play])
      | fail err => exact absurd h (by simp [play])
      | step c k =>
        rw [play] at h
        split at h
        case h_1 a s'' ha => exact ih (.act e hx ha) h
        case h_2 => exact absurd h (by simp)

/-- The programs in order, each with its moves and those that come before the next one. -/
def playAll {ω : Type} (m : Machine I σ χ) (beside : ω → σ → Option σ) (body : J → Prog I ε ρ) :
    List (J × List (Turn ω χ)) → σ → Option σ
  | [], s => some s
  | (j, turns) :: calls, s =>
    match play m beside turns ⟨[], body j, s⟩ with
    | some u => playAll m beside body calls u.state
    | none => none

theorem session_of_playAll {ω : Type} {beside : ω → σ → Option σ}
    (hbeside : ∀ o s s', beside o s = some s' → env s s') {calls : List (J × List (Turn ω χ))}
    {s'' : σ} (h : Session m env body s s') (hplay : playAll m beside body calls s' = some s'') :
    Session m env body s s'' := by
  induction calls generalizing s' with
  | nil => exact Option.some.inj hplay ▸ h
  | cons call calls ih =>
    rw [playAll] at hplay
    split at hplay
    case h_1 u hu => exact ih (.call call.1 h (steps_of_play hbeside .refl hu)) hplay
    case h_2 => exact absurd hplay (by simp)

end Interleave
