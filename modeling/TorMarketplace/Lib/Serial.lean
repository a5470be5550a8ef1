import TorMarketplace.Lib.Run

/-!
# Programs that run alone

Some calls of an interface are about a store that others use too; the rest is between the program and its
environment. `Store.alone` runs a program with the store for itself, the other answers given.

An execution among others is one alone if the store could have given its answers one after the other
(`Store.Serves`): such a program seems to have run at one moment (`Reachable.alone`). For a program that
reads and then writes, that moment is its write, if what it has read is still there. What a program asks of
the store is a matter of its text: `Store.Ends` has a rule for each of its parts.
-/

namespace Interleave

open Prog

variable {I : Interface} {ε α β τ : Type}

/-- A store, with the meaning of the calls about it. -/
structure Store (I : Interface) (τ : Type) where
  owns : I.Call → Bool
  /-- The answer and the store after it; `none`: the store does not answer. -/
  serve : (c : I.Call) → τ → Option (I.Ans c × τ)

namespace Store

variable (S : Store I τ)

/-- The replies about the store. -/
def own (l : List (Reply I)) : List (Reply I) := l.filter fun r => S.owns r.1

/-- The other replies. -/
def others (l : List (Reply I)) : List (Reply I) := l.filter fun r => !S.owns r.1

/-- `x` with the store `t` for itself; its other calls are answered as in the list. -/
def alone [DecidableEq I.Call] : Prog I ε α → List (Reply I) → τ → Option (Except ε α × τ)
  | .ret a, _, t => some (.ok a, t)
  | .fail e, _, t => some (.error e, t)
  | .step c k, l, t =>
    if S.owns c then
      match S.serve c t with
      | some (a, t') => alone (k a) l t'
      | none => none
    else
      match l with
      | ⟨c', a⟩ :: l => if h : c' = c then alone (k (h ▸ a)) l t else none
      | [] => none

/-- From `t`, the store gives these replies one after the other, and is `t'` then. -/
def Serves : τ → List (Reply I) → τ → Prop
  | t, [], t' => t' = t
  | t, r :: l, t' => ∃ t₁, S.serve r.1 t = some (r.2, t₁) ∧ Serves t₁ l t'

variable {S}

theorem own_snoc {r : Reply I} (h : S.owns r.1 = true) (l : List (Reply I)) : S.own (l ++ [r]) = S.own l ++ [r] := by
  simp [own, List.filter_append, h]

theorem own_snoc_other {r : Reply I} (h : S.owns r.1 = false) (l : List (Reply I)) :
    S.own (l ++ [r]) = S.own l := by
  simp [own, List.filter_append, h]

theorem serves_nil {t t' : τ} : S.Serves t [] t' ↔ t' = t := Iff.rfl

/-- **An execution whose replies the store could have given one after the other is one alone.** -/
theorem spec_alone [DecidableEq I.Call] {may : (c : I.Call) → I.Ans c → Prop} (x : Prog I ε α)
    (past : List (Reply I)) :
    Spec may (fun _ _ => True) (fun past' r => ∃ l, past' = past ++ l ∧
      ∀ t t', S.Serves t (S.own l) t' → S.alone x (S.others l) t = some (r, t')) past x := by
  induction x generalizing past with
  | ret a =>
    refine ⟨[], (List.append_nil past).symm, fun t t' hserves => ?_⟩
    rw [serves_nil.mp hserves]
    rfl
  | fail e =>
    refine ⟨[], (List.append_nil past).symm, fun t t' hserves => ?_⟩
    rw [serves_nil.mp hserves]
    rfl
  | step c k ih =>
    refine ⟨trivial, fun a _ => spec_mono (fun _ _ h => h) (fun past' r hr => ?_) (ih a (past ++ [⟨c, a⟩]))⟩
    obtain ⟨l, rfl, halone⟩ := hr
    refine ⟨⟨c, a⟩ :: l, by simp, fun t t' hserves => ?_⟩
    cases hc : S.owns c with
    | true =>
      have hown : S.own (⟨c, a⟩ :: l) = ⟨c, a⟩ :: S.own l := by simp [own, hc]
      have hothers : S.others (⟨c, a⟩ :: l) = S.others l := by simp [others, hc]
      rw [hown] at hserves
      obtain ⟨t₁, hserve, hrest⟩ := hserves
      unfold alone
      rw [if_pos hc, hserve, hothers]
      exact halone t₁ t' hrest
    | false =>
      have hown : S.own (⟨c, a⟩ :: l) = S.own l := by simp [own, hc]
      have hothers : S.others (⟨c, a⟩ :: l) = ⟨c, a⟩ :: S.others l := by simp [others, hc]
      rw [hown] at hserves
      unfold alone
      rw [if_neg (by simp [hc]), hothers]
      simp only [dif_pos]
      exact halone t t' hserves

/-! ## What a program asks of the store -/

section Ends

variable (S) (may : (c : I.Call) → I.Ans c → Prop) (Done : List (Reply I) → Prop)

/-- After the replies `l` of the store, the replies to a program that succeeds are `Done` in all. -/
def Ends (l : List (Reply I)) (x : Prog I ε α) : Prop :=
  ∀ past, S.own past = l →
    Spec may (fun _ _ => True) (OnOk fun past' _ => Done (S.own past')) past x

variable {S may Done} {l : List (Reply I)}

theorem ends_fail {e : ε} : S.Ends may Done l (fail e : Prog I ε α) := fun _ _ => trivial

theorem ends_pure {a : α} (h : Done l) : S.Ends may Done l (pure a : Prog I ε α) := by
  rintro past rfl
  exact h

theorem ends_orFail {o : Option α} {e : ε} {f : α → Prog I ε β}
    (hf : ∀ a, o = some a → S.Ends may Done l (f a)) : S.Ends may Done l (orFail o e >>= f) := by
  cases o with
  | none => exact ends_fail
  | some a => exact hf a rfl

theorem ends_ensure {b : Bool} {e : ε} {f : Unit → Prog I ε β} (hf : S.Ends may Done l (f ())) :
    S.Ends may Done l (ensure b e >>= f) := by
  cases b with
  | false => exact ends_fail
  | true => exact hf

/-- A part that asks nothing. -/
theorem ends_of_result {x : Prog I ε α} {f : α → Prog I ε β} (hx : x.result.isSome)
    (hf : ∀ a, S.Ends may Done l (f a)) : S.Ends may Done l (x >>= f) := by
  cases x with
  | ret a => exact hf a
  | fail e => exact ends_fail
  | step c k => exact absurd hx (by simp [result])

/-- A call that is not about the store. -/
theorem ends_other {c : I.Call} {f : I.Ans c → Prog I ε β} (hc : S.owns c = false)
    (hf : ∀ a, S.Ends may Done l (f a)) : S.Ends may Done l (call c >>= f) := fun past hpast =>
  spec_call_bind.mpr ⟨trivial, fun a _ => hf a _ ((own_snoc_other hc past).trans hpast)⟩

/-- A call about the store. -/
theorem ends_own {c : I.Call} {f : I.Ans c → Prog I ε β} (hc : S.owns c = true)
    (hf : ∀ a, may c a → S.Ends may Done (l ++ [⟨c, a⟩]) (f a)) : S.Ends may Done l (call c >>= f) :=
  fun past hpast => spec_call_bind.mpr ⟨trivial, fun a ha =>
    hf a ha _ ((own_snoc hc past).trans (by rw [hpast]))⟩

/-- What is made of the value. -/
theorem Ends.map {x : Prog I ε α} (h : S.Ends may Done l x) (f : α → β) :
    S.Ends may Done l (x >>= fun a => pure (f a)) := fun past hpast =>
  spec_seq (h past hpast) (fun _ _ h => h) fun _ _ _ => trivial

end Ends

end Store

/-- **In every run**: a process whose replies the store could have given one after the other has come to
what its program comes to alone. -/
theorem Reachable.alone {σ χ J ρ : Type} [DecidableEq I.Call] {m : Machine I σ χ} {body : J → Prog I ε ρ}
    {allow : Config I σ J ε ρ → J → Prop} {s₀ : σ} {g : Config I σ J ε ρ} (S : Store I τ)
    (h : Reachable m body allow s₀ g) {p : Proc I J ε ρ} (hp : p ∈ g.procs) {r : Except ε ρ}
    (hres : p.prog.result = some r) {t t' : τ} (hserves : S.Serves t (S.own p.past) t') :
    S.alone (body p.job) (S.others p.past) t = some (r, t') := by
  obtain ⟨l, hl, halone⟩ := Reachable.post (P := fun _ _ _ => True)
    (Q := fun j past r => ∃ l, past = [] ++ l ∧
      ∀ t t', S.Serves t (S.own l) t' → S.alone (body j) (S.others l) t = some (r, t'))
    (fun _ j _ => Store.spec_alone (body j) []) h hp hres
  rw [List.nil_append] at hl
  subst hl
  exact halone t t' hserves

end Interleave
