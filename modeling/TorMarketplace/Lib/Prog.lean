import Mathlib.Logic.Basic
import Mathlib.Data.List.Basic

/-!
# Programs as trees of atomic calls

A concurrent program reaches its environment (a database, a lock, a clock, a remote node) only
through calls, and between two calls it computes alone. `Prog I ε α` is such a program over the
interface `I`: it returns an `α`, fails with an `ε`, or makes one call and goes on with the answer.
Several programs interleave at their calls and nowhere else (`Run.lean`).

`Spec may P Q past x` is the program logic. `past` is what the execution has been answered so far,
`may c a` says that `a` is an answer the environment can give to `c`. It holds when, whatever the
environment answers, every call the program makes satisfies `P` of the past it is made in, and its
result satisfies `Q` of the past it ends in. `spec_bind` is the sequence rule, `spec_forEach` the
loop rule; `call`, `orFail`, `ensure` have a rule each, tagged `simp`, so that a straight-line
program is executed symbolically by `simp`.
-/

namespace Interleave

/-- The calls a program can make, and the type of the answer to each. -/
structure Interface where
  Call : Type
  Ans : Call → Type

/-- One call with the answer it got. -/
abbrev Reply (I : Interface) := (c : I.Call) × I.Ans c

/-- A program over `I`. -/
inductive Prog (I : Interface) (ε α : Type) where
  | ret (a : α)
  | fail (e : ε)
  | step (c : I.Call) (k : I.Ans c → Prog I ε α)

variable {I : Interface} {ε ε' α β : Type}

namespace Prog

/-- Sequencing: a failure skips the rest. -/
def bind : Prog I ε α → (α → Prog I ε β) → Prog I ε β
  | ret a, f => f a
  | fail e, _ => fail e
  | step c k, f => step c fun a => (k a).bind f

instance : Monad (Prog I ε) where
  pure := ret
  bind := bind

@[simp] theorem bind_bind {γ : Type} {f : α → Prog I ε β} {g : β → Prog I ε γ} :
    ∀ x : Prog I ε α, x >>= f >>= g = x >>= fun a => f a >>= g
  | ret _ => rfl
  | fail _ => rfl
  | step c k => congrArg (step c) (funext fun a => bind_bind (k a))

/-- Make one call. -/
def call (c : I.Call) : Prog I ε (I.Ans c) := step c ret

/-- `ok_or` and `map_err`, followed by `?`: the value, or a failure. -/
def orFail (o : Option α) (e : ε) : Prog I ε α :=
  match o with
  | some a => ret a
  | none => fail e

/-- `?` on a `Result`. -/
def ofExcept : Except ε α → Prog I ε α
  | .ok a => ret a
  | .error e => fail e

/-- An early `return Err(e)` unless `b`. -/
def ensure (b : Bool) (e : ε) : Prog I ε Unit := if b then ret () else fail e

/-- Run `x` and keep its failure as a value (`let _ = f().await`). -/
def attempt : Prog I ε α → Prog I ε' (Except ε α)
  | ret a => ret (.ok a)
  | fail e => ret (.error e)
  | step c k => step c fun a => (k a).attempt

/-- `for x in l { f(x)?; }`. -/
def forEach (f : β → Prog I ε Unit) : List β → Prog I ε Unit
  | [] => ret ()
  | x :: xs => (f x).bind fun _ => forEach f xs

/-- `l.iter().map(f).collect()`. -/
def mapEach (f : β → Prog I ε α) : List β → Prog I ε (List α)
  | [] => ret []
  | x :: xs => (f x).bind fun a => (mapEach f xs).bind fun as => ret (a :: as)

/-- The result of a program that has one. -/
def result : Prog I ε α → Option (Except ε α)
  | ret a => some (.ok a)
  | fail e => some (.error e)
  | step _ _ => none

@[simp] theorem orFail_some_bind {a : α} {e : ε} {f : α → Prog I ε β} :
    orFail (some a) e >>= f = f a := rfl

@[simp] theorem orFail_none_bind {e : ε} {f : α → Prog I ε β} :
    orFail none e >>= f = (fail e : Prog I ε β) := rfl

@[simp] theorem ensure_true_bind {e : ε} {f : Unit → Prog I ε β} : ensure true e >>= f = f () := rfl

@[simp] theorem ensure_false_bind {e : ε} {f : Unit → Prog I ε β} :
    ensure false e >>= f = (fail e : Prog I ε β) := rfl

/-- A program makes no call if its parts make none. -/
theorem result_bind {x : Prog I ε α} {f : α → Prog I ε β} (hx : x.result.isSome)
    (hf : ∀ a, (f a).result.isSome) : (x >>= f).result.isSome := by
  cases x with
  | ret a => exact hf a
  | fail e => rfl
  | step c k => exact absurd hx (by simp [result])

theorem result_ensure (b : Bool) (e : ε) : (ensure b e : Prog I ε Unit).result.isSome := by
  cases b <;> rfl

theorem result_orFail (o : Option α) (e : ε) : (orFail o e : Prog I ε α).result.isSome := by
  cases o <;> rfl

/-- What ends well without a call has ended its first part well. -/
theorem result_bind_ok {x : Prog I ε α} {f : α → Prog I ε β} {b : β}
    (h : (x >>= f).result = some (.ok b)) :
    ∃ a, x.result = some (.ok a) ∧ (f a).result = some (.ok b) := by
  cases x with
  | ret a => exact ⟨a, rfl, h⟩
  | fail e => cases h
  | step c k => cases h

theorem result_orFail_ok {o : Option α} {e : ε} {a : α}
    (h : (orFail o e : Prog I ε α).result = some (.ok a)) : o = some a := by
  cases o with
  | none => cases h
  | some a' =>
    cases h
    rfl

@[simp] theorem result_eq_ok {x : Prog I ε α} {a : α} : x.result = some (.ok a) ↔ x = ret a := by
  cases x <;> simp [result]

end Prog

open Prog

/-! ## The program logic -/

section Spec

variable (may : (c : I.Call) → I.Ans c → Prop) (P : List (Reply I) → I.Call → Prop)

/-- Whatever answers `may` come, every call satisfies `P` and the result satisfies `Q`. -/
def Spec (Q : List (Reply I) → Except ε α → Prop) : List (Reply I) → Prog I ε α → Prop
  | past, .ret a => Q past (.ok a)
  | past, .fail e => Q past (.error e)
  | past, .step c k => P past c ∧ ∀ a, may c a → Spec Q (past ++ [⟨c, a⟩]) (k a)

variable {may P} {Q : List (Reply I) → Except ε α → Prop} {past : List (Reply I)}

@[simp] theorem spec_ret {a : α} : Spec may P Q past (ret a) ↔ Q past (.ok a) := Iff.rfl

@[simp] theorem spec_pure {a : α} : Spec may P Q past (pure a) ↔ Q past (.ok a) := Iff.rfl

@[simp] theorem spec_fail {e : ε} : Spec may P Q past (fail e) ↔ Q past (.error e) := Iff.rfl

theorem spec_step {c : I.Call} {k : I.Ans c → Prog I ε α} :
    Spec may P Q past (.step c k) ↔
      P past c ∧ ∀ a, may c a → Spec may P Q (past ++ [⟨c, a⟩]) (k a) := Iff.rfl

/-- The postcondition that says something of success only. -/
def OnOk (R : List (Reply I) → α → Prop) (past : List (Reply I)) : Except ε α → Prop
  | .ok a => R past a
  | .error _ => True

@[simp] theorem onOk_ok {R : List (Reply I) → α → Prop} {a : α} :
    OnOk R past (.ok a : Except ε α) ↔ R past a := Iff.rfl

@[simp] theorem onOk_error {R : List (Reply I) → α → Prop} {e : ε} : OnOk R past (.error e) :=
  trivial

/-- What is left to show of `x >>= f` once `x` has ended. -/
def After (may : (c : I.Call) → I.Ans c → Prop) (P : List (Reply I) → I.Call → Prop)
    (Q : List (Reply I) → Except ε β → Prop) (f : α → Prog I ε β)
    (past : List (Reply I)) : Except ε α → Prop
  | .ok a => Spec may P Q past (f a)
  | .error e => Q past (.error e)

/-- **The sequence rule.** -/
theorem spec_bind {Q : List (Reply I) → Except ε β → Prop} {f : α → Prog I ε β} :
    ∀ {x : Prog I ε α} {past : List (Reply I)},
      Spec may P Q past (x >>= f) ↔ Spec may P (After may P Q f) past x
  | .ret _, _ => Iff.rfl
  | .fail _, _ => Iff.rfl
  | .step _ _, _ =>
    and_congr Iff.rfl (forall_congr' fun _ => forall_congr' fun _ => spec_bind)

theorem spec_mono {P' : List (Reply I) → I.Call → Prop} {Q' : List (Reply I) → Except ε α → Prop}
    (hP : ∀ past c, P past c → P' past c) (hQ : ∀ past r, Q past r → Q' past r) :
    ∀ {x : Prog I ε α} {past : List (Reply I)}, Spec may P Q past x → Spec may P' Q' past x
  | .ret _, _, h => hQ _ _ h
  | .fail _, _, h => hQ _ _ h
  | .step _ _, _, ⟨h, hk⟩ => ⟨hP _ _ h, fun a ha => spec_mono hP hQ (hk a ha)⟩

/-- Fewer answers are easier to meet. -/
theorem spec_may {may' : (c : I.Call) → I.Ans c → Prop} (h : ∀ c a, may' c a → may c a) :
    ∀ {x : Prog I ε α} {past : List (Reply I)}, Spec may P Q past x → Spec may' P Q past x
  | .ret _, _, hx => hx
  | .fail _, _, hx => hx
  | .step c _, _, ⟨hP, hk⟩ => ⟨hP, fun a ha => spec_may h (hk a (h c a ha))⟩

/-- The past holds answers that may come. -/
theorem spec_answered : ∀ {x : Prog I ε α} {past : List (Reply I)},
    Spec may P Q past x → (∀ r ∈ past, may r.1 r.2) →
      Spec may (fun p c => P p c ∧ ∀ r ∈ p, may r.1 r.2) Q past x
  | .ret _, _, hx, _ => hx
  | .fail _, _, hx, _ => hx
  | .step c _, past, ⟨hP, hk⟩, hpast => ⟨⟨hP, hpast⟩, fun a ha =>
      spec_answered (hk a ha) fun r hr => by
        rcases List.mem_append.mp hr with hr | hr
        · exact hpast r hr
        · obtain rfl := List.mem_singleton.mp hr
          exact ha⟩

/-- The sequence rule with the first program's own specification. -/
theorem spec_seq {Q : List (Reply I) → Except ε β → Prop} {f : α → Prog I ε β}
    {R : List (Reply I) → Except ε α → Prop} {x : Prog I ε α} (hx : Spec may P R past x)
    (hok : ∀ past' a, R past' (.ok a) → Spec may P Q past' (f a))
    (herr : ∀ past' e, R past' (.error e) → Q past' (.error e)) :
    Spec may P Q past (x >>= f) :=
  spec_bind.mpr (spec_mono (fun _ _ h => h)
    (fun past' r h => match r, h with
      | .ok a, h => hok past' a h
      | .error e, h => herr past' e h) hx)

theorem spec_and {P' : List (Reply I) → I.Call → Prop} {Q' : List (Reply I) → Except ε α → Prop} :
    ∀ {x : Prog I ε α} {past : List (Reply I)}, Spec may P Q past x → Spec may P' Q' past x →
      Spec may (fun p c => P p c ∧ P' p c) (fun p r => Q p r ∧ Q' p r) past x
  | .ret _, _, h, h' => ⟨h, h'⟩
  | .fail _, _, h, h' => ⟨h, h'⟩
  | .step _ _, _, ⟨h, hk⟩, ⟨h', hk'⟩ => ⟨⟨h, h'⟩, fun a ha => spec_and (hk a ha) (hk' a ha)⟩

/-- What is claimed of every call and of every result holds of every program. -/
theorem spec_of_forall (hP : ∀ past c, P past c) (hQ : ∀ past r, Q past r) :
    ∀ {x : Prog I ε α} {past : List (Reply I)}, Spec may P Q past x
  | .ret _, _ => hQ _ _
  | .fail _, _ => hQ _ _
  | .step _ _, _ => ⟨hP _ _, fun _ _ => spec_of_forall hP hQ⟩

/-- Nothing is claimed of any program. -/
theorem spec_trivial {x : Prog I ε α} {past : List (Reply I)} :
    Spec may (fun _ _ => True) (OnOk fun _ _ => True) past x :=
  spec_of_forall (fun _ _ => trivial) fun _ r => by cases r <;> trivial

/-- The past only grows. -/
theorem spec_past {past₀ : List (Reply I)} : ∀ {x : Prog I ε α} {past : List (Reply I)},
    past₀ ⊆ past → Spec may P Q past x → Spec may P (fun p r => past₀ ⊆ p ∧ Q p r) past x
  | .ret _, _, hsub, h => ⟨hsub, h⟩
  | .fail _, _, hsub, h => ⟨hsub, h⟩
  | .step _ _, _, hsub, ⟨h, hk⟩ =>
    ⟨h, fun a ha => spec_past (fun _ hr => List.mem_append_left _ (hsub hr)) (hk a ha)⟩

/-- What the past was stays its beginning. -/
theorem spec_begins {past₀ : List (Reply I)} : ∀ {x : Prog I ε α} {past : List (Reply I)},
    past₀ <+: past → Spec may P Q past x →
      Spec may (fun p c => P p c ∧ past₀ <+: p) (fun p r => Q p r ∧ past₀ <+: p) past x
  | .ret _, _, hpre, h => ⟨h, hpre⟩
  | .fail _, _, hpre, h => ⟨h, hpre⟩
  | .step _ _, past, hpre, ⟨h, hk⟩ =>
    ⟨⟨h, hpre⟩, fun a ha => spec_begins (hpre.trans (List.prefix_append past _)) (hk a ha)⟩

/-- **The frame rule**: what no reply to a call of the program changes is the same all along. -/
theorem spec_frame {β : Type} {f : List (Reply I) → β} {b : β}
    (hf : ∀ p c a, P p c → f p = b → f (p ++ [⟨c, a⟩]) = b) :
    ∀ {x : Prog I ε α} {past : List (Reply I)}, f past = b → Spec may P Q past x →
      Spec may (fun p c => P p c ∧ f p = b) (fun p r => Q p r ∧ f p = b) past x
  | .ret _, _, hb, h => ⟨h, hb⟩
  | .fail _, _, hb, h => ⟨h, hb⟩
  | .step _ _, _, hb, ⟨h, hk⟩ =>
    ⟨⟨h, hb⟩, fun a ha => spec_frame hf (hf _ _ a h hb) (hk a ha)⟩

/-- The sequence rule for what success says. -/
theorem spec_seq_onOk {R : List (Reply I) → α → Prop} {S : List (Reply I) → β → Prop}
    {x : Prog I ε α} {f : α → Prog I ε β} (hx : Spec may P (OnOk R) past x)
    (hok : ∀ past' a, past ⊆ past' → R past' a → Spec may P (OnOk S) past' (f a)) :
    Spec may P (OnOk S) past (x >>= f) :=
  spec_seq (spec_past (fun _ h => h) hx) (fun past' a h => hok past' a h.1 h.2) fun _ _ _ => trivial

/-! ### One rule for each construct -/

variable {Q : List (Reply I) → Except ε β → Prop}

@[simp] theorem spec_pure_bind {a : α} {f : α → Prog I ε β} :
    Spec may P Q past (pure a >>= f) ↔ Spec may P Q past (f a) := Iff.rfl

@[simp] theorem spec_fail_bind {e : ε} {f : α → Prog I ε β} :
    Spec may P Q past (fail e >>= f) ↔ Q past (.error e) := Iff.rfl

-- `no_index`: in a program the type of the answer to `c` is often in another form than `I.Ans c`
@[simp] theorem spec_call_bind {c : I.Call} {f : I.Ans c → Prog I ε β} :
    Spec may P Q past (@bind (Prog I ε) _ (no_index (I.Ans c)) _ (call c) f) ↔
      P past c ∧ ∀ a, may c a → Spec may P Q (past ++ [⟨c, a⟩]) (f a) := Iff.rfl

@[simp] theorem spec_orFail_bind {o : Option α} {e : ε} {f : α → Prog I ε β} :
    Spec may P Q past (orFail o e >>= f) ↔
      (o = none → Q past (.error e)) ∧ ∀ a, o = some a → Spec may P Q past (f a) := by
  cases o with
  | none => simp [orFail]
  | some a =>
    have : (orFail (some a) e >>= f : Prog I ε β) = f a := rfl
    simp [this]

@[simp] theorem spec_ofExcept_bind {x : Except ε α} {f : α → Prog I ε β} :
    Spec may P Q past (ofExcept x >>= f) ↔
      (∀ e, x = .error e → Q past (.error e)) ∧ ∀ a, x = .ok a → Spec may P Q past (f a) := by
  cases x with
  | ok a =>
    have : (ofExcept (.ok a) >>= f : Prog I ε β) = f a := rfl
    simp [this]
  | error e =>
    have : (ofExcept (.error e) >>= f : Prog I ε β) = fail e := rfl
    simp [this]

@[simp] theorem spec_ensure_bind {b : Bool} {e : ε} {f : Unit → Prog I ε β} :
    Spec may P Q past (ensure b e >>= f) ↔
      (b = false → Q past (.error e)) ∧ (b = true → Spec may P Q past (f ())) := by
  cases b with
  | false => simp [ensure]
  | true =>
    have : (ensure true e >>= f : Prog I ε β) = f () := rfl
    simp [this]

@[simp] theorem spec_orFail {o : Option β} {e : ε} :
    Spec may P Q past (orFail o e) ↔
      (o = none → Q past (.error e)) ∧ ∀ a, o = some a → Q past (.ok a) := by
  cases o <;> simp [orFail]

@[simp] theorem spec_ensure {Q : List (Reply I) → Except ε Unit → Prop} {b : Bool} {e : ε} :
    Spec may P Q past (ensure b e) ↔
      (b = false → Q past (.error e)) ∧ (b = true → Q past (.ok ())) := by
  cases b <;> simp [ensure]

/-- `attempt x` makes the calls of `x`. -/
theorem spec_attempt {R : List (Reply I) → Except ε' (Except ε α) → Prop} :
    ∀ {x : Prog I ε α} {past : List (Reply I)},
      Spec may P R past x.attempt ↔ Spec may P (fun p r => R p (.ok r)) past x
  | .ret _, _ => Iff.rfl
  | .fail _, _ => Iff.rfl
  | .step _ _, _ =>
    and_congr Iff.rfl (forall_congr' fun _ => forall_congr' fun _ => spec_attempt)

theorem spec_attempt_bind {x : Prog I ε' α} {f : Except ε' α → Prog I ε β} :
    Spec may P Q past (x.attempt >>= f) ↔ Spec may P (fun p r => Spec may P Q p (f r)) past x := by
  rw [spec_bind, spec_attempt]
  rfl

/-- **The loop rule**: an invariant of what is done and of the past, which every iteration keeps. -/
theorem spec_forEach_done {l : List β} (Inv : List β → List (Reply I) → Prop)
    {Q : List (Reply I) → Except ε Unit → Prop} {f : β → Prog I ε Unit}
    (hf : ∀ done x rest past, l = done ++ x :: rest → Inv done past → Spec may P (fun p r =>
      match r with
      | .ok _ => Inv (done ++ [x]) p
      | .error e => Q p (.error e)) past (f x))
    (hQ : ∀ past, Inv l past → Q past (.ok ())) (h : Inv [] past) :
    Spec may P Q past (forEach f l) := by
  suffices hrest : ∀ rest done past, l = done ++ rest → Inv done past →
      Spec may P Q past (forEach f rest) from hrest l [] past rfl h
  intro rest
  induction rest with
  | nil =>
    intro done past hl hinv
    rw [List.append_nil] at hl
    exact hQ past (hl ▸ hinv)
  | cons x rest ih =>
    intro done past hl hinv
    exact spec_seq (hf done x rest past hl hinv)
      (fun past' _ h' => ih (done ++ [x]) past' (by simp [hl]) h') (fun _ _ h' => h')

/-- The loop rule for an invariant of the past alone. -/
theorem spec_forEach (Inv : List (Reply I) → Prop) {Q : List (Reply I) → Except ε Unit → Prop}
    {f : β → Prog I ε Unit} (hQ : ∀ past, Inv past → Q past (.ok ())) {l : List β}
    {past : List (Reply I)}
    (hf : ∀ x ∈ l, ∀ past, Inv past → Spec may P (fun p r =>
        match r with
        | .ok _ => Inv p
        | .error e => Q p (.error e)) past (f x))
    (h : Inv past) : Spec may P Q past (forEach f l) :=
  spec_forEach_done (fun _ => Inv) (fun _ x _ past hl => hf x (by simp [hl]) past) hQ h

/-- The rule of a loop that collects: an invariant of the past, and something of every element. -/
theorem spec_mapEach (Inv : List (Reply I) → Prop) (R : α → Prop)
    {Q : List (Reply I) → Except ε (List α) → Prop} {f : β → Prog I ε α}
    (hQ : ∀ past as, Inv past → (∀ a ∈ as, R a) → Q past (.ok as)) {l : List β}
    {past : List (Reply I)}
    (hf : ∀ x ∈ l, ∀ past, Inv past → Spec may P (fun p r =>
        match r with
        | .ok a => Inv p ∧ R a
        | .error e => Q p (.error e)) past (f x))
    (h : Inv past) : Spec may P Q past (mapEach f l) := by
  suffices hall : ∀ (l : List β) (Q : List (Reply I) → Except ε (List α) → Prop),
      (∀ past as, Inv past → (∀ a ∈ as, R a) → Q past (.ok as)) →
      (∀ x ∈ l, ∀ past, Inv past → Spec may P (fun p r =>
        match r with
        | .ok a => Inv p ∧ R a
        | .error e => Q p (.error e)) past (f x)) →
      ∀ past, Inv past → Spec may P Q past (mapEach f l) from hall l Q hQ hf past h
  intro l
  induction l with
  | nil => exact fun Q hQ _ past h => hQ past [] h (by simp)
  | cons x xs ih =>
    intro Q hQ hf past h
    refine spec_seq (hf x List.mem_cons_self past h) (fun past₁ a h₁ => ?_) fun _ _ herr => herr
    refine spec_bind.mpr (ih _ (fun past₂ as hinv has => ?_)
      (fun y hy past' hinv => ?_) past₁ h₁.1)
    · exact hQ past₂ (a :: as) hinv (List.forall_mem_cons.mpr ⟨h₁.2, has⟩)
    · refine spec_mono (fun _ _ h => h) (fun p r hr => ?_) (hf y (List.mem_cons_of_mem x hy) past' hinv)
      cases r with
      | ok _ => exact hr
      | error _ => exact hr

/-- The loop rule for iterations that only rely on what was known before the loop. -/
theorem spec_forEach_onOk {f : β → Prog I ε Unit} {l : List β}
    (hf : ∀ x ∈ l, ∀ past', past ⊆ past' → Spec may P (OnOk fun _ _ => True) past' (f x)) :
    Spec may P (OnOk fun _ _ => True) past (forEach f l) := by
  refine spec_forEach (fun past' => past ⊆ past') (fun _ _ => trivial) ?_ fun _ h => h
  intro x hx past' hsub
  refine spec_mono (fun _ _ h => h) (fun p r h => ?_) (spec_past hsub (hf x hx past' hsub))
  cases r with
  | ok _ => exact h.1
  | error _ => trivial

/-! ### Executions -/

/-- `x`, begun when `past` has been answered, ends with the result `r` when the answers to its calls,
such as may come, have made it `past'`. -/
inductive Yields (may : (c : I.Call) → I.Ans c → Prop) :
    List (Reply I) → Prog I ε α → List (Reply I) → Except ε α → Prop where
  | ret {past : List (Reply I)} {a : α} : Yields may past (.ret a) past (.ok a)
  | fail {past : List (Reply I)} {e : ε} : Yields may past (.fail e) past (.error e)
  | step {past past' : List (Reply I)} {c : I.Call} {k : I.Ans c → Prog I ε α} {a : I.Ans c}
      {r : Except ε α} (ha : may c a) (h : Yields may (past ++ [⟨c, a⟩]) (k a) past' r) :
      Yields may past (.step c k) past' r

/-- **A specification holds of every execution.** -/
theorem Spec.yields {Q : List (Reply I) → Except ε α → Prop} {x : Prog I ε α}
    {past' : List (Reply I)} {r : Except ε α} (h : Spec may P Q past x)
    (hx : Yields may past x past' r) : Q past' r := by
  induction hx with
  | ret => exact h
  | fail => exact h
  | step ha _ ih => exact ih (h.2 _ ha)

theorem Yields.mono {may' : (c : I.Call) → I.Ans c → Prop} {x : Prog I ε α} {past' : List (Reply I)}
    {r : Except ε α} (hmay : ∀ c a, may c a → may' c a) (hx : Yields may past x past' r) :
    Yields may' past x past' r := by
  induction hx with
  | ret => exact .ret
  | fail => exact .fail
  | step ha _ ih => exact .step (hmay _ _ ha) ih

/-- Every answer was one that may come. -/
theorem Yields.answered {x : Prog I ε α} {past' : List (Reply I)} {r : Except ε α}
    (hx : Yields may past x past' r) (h : ∀ a ∈ past, may a.1 a.2) : ∀ a ∈ past', may a.1 a.2 := by
  induction hx with
  | ret => exact h
  | fail => exact h
  | step ha _ ih =>
    refine ih fun a hmem => ?_
    rcases List.mem_append.mp hmem with hmem | hmem
    · exact h a hmem
    · obtain rfl := List.mem_singleton.mp hmem
      exact ha

/-- The rest of a program begins where its first part has ended. -/
theorem Yields.bind {f : α → Prog I ε β} {x : Prog I ε α} {past₁ past₂ : List (Reply I)} {a : α}
    {r : Except ε β} (hx : Yields may past x past₁ (.ok a)) (hf : Yields may past₁ (f a) past₂ r) :
    Yields may past (x >>= f) past₂ r := by
  generalize hr : (Except.ok a : Except ε α) = r₁ at hx
  induction hx with
  | ret =>
    obtain rfl := Except.ok.inj hr
    exact hf
  | fail => exact absurd hr (by simp)
  | step ha _ ih => exact .step ha (ih hf hr)

/-- A failure skips the rest. -/
theorem Yields.bind_error {f : α → Prog I ε β} {x : Prog I ε α} {past₁ : List (Reply I)} {e : ε}
    (hx : Yields may past x past₁ (.error e)) : Yields may past (x >>= f) past₁ (.error e) := by
  generalize hr : (Except.error e : Except ε α) = r₁ at hx
  induction hx with
  | ret => exact absurd hr (by simp)
  | fail =>
    obtain rfl := Except.error.inj hr
    exact .fail
  | step ha _ ih => exact .step ha (ih hr)

end Spec

end Interleave
