import Mathlib.Data.List.Forall2

/-!
# Chains of fallible steps

A `Result<T, E>` is an `Except`. `bind_eq_ok` and `bind_eq_error` take a chain of `?` apart by how it
ended; `mapM_eq_ok` does so for a loop that pushes one result an element.
-/

namespace Result

variable {ε ε' α β : Type}

/-- `ok_or`. -/
def okOr (o : Option α) (e : ε) : Except ε α :=
  match o with
  | some a => .ok a
  | none => .error e

/-- An early `return Err(e)` if `b`. -/
def errorIf (b : Bool) (e : ε) : Except ε Unit := if b then .error e else .ok ()

/-- `map_err`, to one error. -/
def mapErr (x : Except ε α) (e : ε') : Except ε' α :=
  match x with
  | .ok a => .ok a
  | .error _ => .error e

@[simp] theorem okOr_eq_ok {o : Option α} {e : ε} {a : α} : okOr o e = .ok a ↔ o = some a := by
  cases o <;> simp [okOr]

@[simp] theorem okOr_eq_error {o : Option α} {e e' : ε} :
    okOr o e = .error e' ↔ o = none ∧ e = e' := by
  cases o <;> simp [okOr]

@[simp] theorem errorIf_eq_ok {b : Bool} {e : ε} {u : Unit} : errorIf b e = .ok u ↔ b = false := by
  cases b <;> simp [errorIf]

@[simp] theorem errorIf_eq_error {b : Bool} {e e' : ε} :
    errorIf b e = .error e' ↔ b = true ∧ e = e' := by
  cases b <;> simp [errorIf]

@[simp] theorem mapErr_eq_ok {x : Except ε α} {e : ε'} {a : α} :
    mapErr x e = .ok a ↔ x = .ok a := by
  cases x <;> simp [mapErr]

@[simp] theorem mapErr_eq_error {x : Except ε α} {e e' : ε'} :
    mapErr x e = .error e' ↔ (∃ e₀, x = .error e₀) ∧ e = e' := by
  cases x <;> simp [mapErr]

@[simp] theorem pure_eq_ok {a b : α} : (pure a : Except ε α) = .ok b ↔ a = b := by
  simp [pure, Except.pure]

@[simp] theorem pure_ne_error {a : α} {e : ε} : (pure a : Except ε α) ≠ .error e := by
  simp [pure, Except.pure]

theorem bind_eq_ok {x : Except ε α} {f : α → Except ε β} {b : β} :
    x >>= f = .ok b ↔ ∃ a, x = .ok a ∧ f a = .ok b := by
  cases x <;> simp [bind, Except.bind]

theorem bind_eq_error {x : Except ε α} {f : α → Except ε β} {e : ε} :
    x >>= f = .error e ↔ x = .error e ∨ ∃ a, x = .ok a ∧ f a = .error e := by
  cases x <;> simp [bind, Except.bind]

/-- A loop that ended well: one result an element. -/
theorem mapM_eq_ok {f : α → Except ε β} {l : List α} {l' : List β} :
    l.mapM f = .ok l' ↔ List.Forall₂ (fun a b => f a = .ok b) l l' := by
  induction l generalizing l' with
  | nil => rw [List.mapM_nil, pure_eq_ok, List.forall₂_nil_left_iff, eq_comm]
  | cons a l ih =>
    rw [List.mapM_cons, bind_eq_ok]
    constructor
    · rintro ⟨b, hb, hrest⟩
      obtain ⟨bs, hbs, hl'⟩ := bind_eq_ok.mp hrest
      rw [← pure_eq_ok.mp hl']
      exact .cons hb (ih.mp hbs)
    · intro h
      cases h with
      | cons hb hbs => exact ⟨_, hb, bind_eq_ok.mpr ⟨_, ih.mpr hbs, rfl⟩⟩

end Result
