import Mathlib.Data.List.Forall2
import Mathlib.Data.Option.Basic
import TorMarketplace.Lib.Simulation

/-!
# Two runs in lockstep

An observer takes two states for one (`state`), and two answers to one call for one (`answer`). A machine
is `Blind` if it keeps the observer in the dark: from states that are alike, the same call with the same
choice of the environment is answered alike, or is not answered on either side. Two programs are `Alike`
if they make the same calls for as long as the answers are alike, and end alike.

* `alike_bind`, `alike_call_bind`, …: a program is executed symbolically on both sides at once.
* `Blind.run`: what one of two alike states can come to, the other can come to with the same jobs, the
  same calls in the same order, and results that are alike. It is noninterference for the interleavings
  of any number of programs, each of which is alike to itself.
-/

namespace Interleave

variable {I : Interface} {σ χ J ε α β ρ : Type}

/-- What an observer does not tell apart. -/
structure Observer (I : Interface) (σ : Type) where
  state : σ → σ → Prop
  answer : (c : I.Call) → I.Ans c → I.Ans c → Prop

/-- The same calls as long as the answers are alike; the same failure, or values that `R` relates. -/
inductive Alike (O : Observer I σ) (R : α → β → Prop) : Prog I ε α → Prog I ε β → Prop
  | ret {a : α} {b : β} (h : R a b) : Alike O R (.ret a) (.ret b)
  | fail {e : ε} : Alike O R (.fail e) (.fail e)
  | step {c : I.Call} {k : I.Ans c → Prog I ε α} {k' : I.Ans c → Prog I ε β}
      (h : ∀ a a', O.answer c a a' → Alike O R (k a) (k' a')) : Alike O R (.step c k) (.step c k')

section Programs

variable {O : Observer I σ} {α' β' : Type} {R : α → α' → Prop} {S : β → β' → Prop}

/-- **The sequence rule**: the rests are alike for values that are. -/
theorem alike_bind {x : Prog I ε α} {x' : Prog I ε α'} {f : α → Prog I ε β} {f' : α' → Prog I ε β'}
    (hx : Alike O R x x') (hf : ∀ a a', R a a' → Alike O S (f a) (f' a')) :
    Alike O S (x >>= f) (x' >>= f') := by
  induction hx with
  | ret h => exact hf _ _ h
  | fail => exact .fail
  | step _ ih => exact .step ih

theorem alike_call_bind {c : I.Call} {f : I.Ans c → Prog I ε β} {f' : I.Ans c → Prog I ε β'}
    (hf : ∀ a a', O.answer c a a' → Alike O S (f a) (f' a')) :
    Alike O S (Prog.call c >>= f) (Prog.call c >>= f') :=
  .step hf

/-- What is there on both sides or on neither. -/
theorem alike_orFail_bind {o : Option α} {o' : Option α'} {e : ε} {f : α → Prog I ε β}
    {f' : α' → Prog I ε β'} (ho : Option.Rel R o o')
    (hf : ∀ a a', R a a' → Alike O S (f a) (f' a')) :
    Alike O S (Prog.orFail o e >>= f) (Prog.orFail o' e >>= f') := by
  cases ho with
  | some h => exact hf _ _ h
  | none => exact .fail

/-- What the programs have computed alone, and alike. -/
theorem alike_orFail_bind_same {o : Option α} {e : ε} {f : α → Prog I ε β} {f' : α → Prog I ε β'}
    (hf : ∀ a, o = some a → Alike O S (f a) (f' a)) :
    Alike O S (Prog.orFail o e >>= f) (Prog.orFail o e >>= f') := by
  cases o with
  | some a => exact hf a rfl
  | none => exact .fail

theorem alike_ensure_bind {b b' : Bool} {e : ε} {f : Unit → Prog I ε β} {f' : Unit → Prog I ε β'}
    (hb : b = b') (hf : b = true → Alike O S (f ()) (f' ())) :
    Alike O S (Prog.ensure b e >>= f) (Prog.ensure b' e >>= f') := by
  subst hb
  cases b with
  | true => exact hf rfl
  | false => exact .fail

/-- A program whose answers the observer sees in full is alike to itself. -/
theorem alike_self {Q : List (Reply I) → Except ε α → Prop} :
    ∀ {x : Prog I ε α} {past : List (Reply I)},
      Spec (fun _ _ => True) (fun _ c => ∀ a a', O.answer c a a' → a = a') Q past x → Alike O Eq x x
  | .ret _, _, _ => .ret rfl
  | .fail _, _, _ => .fail
  | .step _ _, _, ⟨hc, hk⟩ => .step fun a a' h => by
      obtain rfl := hc a a' h
      exact alike_self (hk a trivial)

end Programs

/-! ## Runs -/

/-- The same call, answered alike. -/
inductive ReplyAlike (O : Observer I σ) : Reply I → Reply I → Prop
  | mk {c : I.Call} {a a' : I.Ans c} (h : O.answer c a a') : ReplyAlike O ⟨c, a⟩ ⟨c, a'⟩

/-- Two processes of one job, at the same point. -/
structure ProcAlike (O : Observer I σ) (R : ρ → ρ → Prop) (p p' : Proc I J ε ρ) : Prop where
  job : p'.job = p.job
  past : List.Forall₂ (ReplyAlike O) p.past p'.past
  prog : Alike O R p.prog p'.prog

/-- The same call of the same process, between states that are alike. -/
structure EventAlike (O : Observer I σ) (ev ev' : Event I σ J) : Prop where
  pid : ev'.pid = ev.pid
  job : ev'.job = ev.job
  reply : ReplyAlike O ev.reply ev'.reply
  before : O.state ev.before ev'.before
  after : O.state ev.after ev'.after

structure ConfigAlike (O : Observer I σ) (R : ρ → ρ → Prop) (g g' : Config I σ J ε ρ) : Prop where
  shared : O.state g.shared g'.shared
  procs : List.Forall₂ (ProcAlike O R) g.procs g'.procs
  history : List.Forall₂ (EventAlike O) g.history g'.history

/-- The machine tells the observer nothing. -/
def Blind (O : Observer I σ) (m : Machine I σ χ) : Prop :=
  ∀ c e s s', O.state s s' →
    Option.Rel (fun r r' => O.answer c r.1 r'.1 ∧ O.state r.2 r'.2) (m.answer c e s) (m.answer c e s')

variable {O : Observer I σ} {R : ρ → ρ → Prop} {m : Machine I σ χ} {body : J → Prog I ε ρ}

/-- One call, on both sides. -/
theorem Blind.act (hm : Blind O m) {g g' g₁ : Config I σ J ε ρ} (h : ConfigAlike O R g g') {pid : Nat}
    {e : χ} (hs : g.act m pid e = some g₁) :
    ∃ g₁', g'.act m pid e = some g₁' ∧ ConfigAlike O R g₁ g₁' := by
  obtain ⟨j, past, c, k, a, s, hp, ha, rfl⟩ := act_cases hs
  obtain ⟨⟨j', past', x'⟩, hp', hjob, hpast, hprog⟩ := forall₂_getElem? h.procs hp
  obtain rfl : j' = j := hjob
  cases hprog with
  | @step _ _ k' hk =>
    have hans := hm c e _ _ h.shared
    rw [ha] at hans
    generalize ha' : m.answer c e g'.shared = o at hans
    cases hans with
    | @some _ r' hboth =>
      obtain ⟨a', s'⟩ := r'
      have hproc : ProcAlike O R ⟨j', past ++ [⟨c, a⟩], k a⟩ ⟨j', past' ++ [⟨c, a'⟩], k' a'⟩ :=
        ⟨rfl, List.rel_append hpast (.cons (.mk hboth.1) .nil), hk a a' hboth.1⟩
      refine ⟨⟨s', g'.procs.set pid ⟨j', past' ++ [⟨c, a'⟩], k' a'⟩,
        g'.history ++ [⟨pid, j', past', ⟨c, a'⟩, g'.shared, s'⟩]⟩, ?_, hboth.2,
        forall₂_set h.procs hproc, ?_⟩
      · rw [Config.act, hp']
        simp only [ha']
      · exact List.rel_append h.history (.cons ⟨rfl, rfl, .mk hboth.1, h.shared, hboth.2⟩ .nil)

/-- **Noninterference**: the run of one state is a run of the other, as far as the observer can see. -/
theorem Blind.run (hm : Blind O m) {ok : J → Prop} (hbody : ∀ j, ok j → Alike O R (body j) (body j))
    {s₀ s₀' : σ} (hs : O.state s₀ s₀') {g : Config I σ J ε ρ}
    (h : Reachable m body (fun _ j => ok j) s₀ g) :
    ∃ g', Reachable m body (fun _ j => ok j) s₀' g' ∧ ConfigAlike O R g g' := by
  induction h with
  | init => exact ⟨_, .init, hs, .nil, .nil⟩
  | spawn j _ hj ih =>
    obtain ⟨g', hg', halike⟩ := ih
    exact ⟨_, hg'.spawn j hj, halike.shared,
      List.rel_append halike.procs (.cons ⟨rfl, .nil, hbody j hj⟩ .nil), halike.history⟩
  | act pid e _ hact ih =>
    obtain ⟨g', hg', halike⟩ := ih
    obtain ⟨g₁', hact', halike'⟩ := hm.act halike hact
    exact ⟨g₁', hg'.act pid e hact', halike'⟩

/-- What is computed alike of each entry is computed alike of the lists. -/
theorem map_eq_of_forall₂ {γ δ κ : Type} {Q : γ → δ → Prop} {f : γ → κ} {f' : δ → κ} {l : List γ}
    {l' : List δ} (hf : ∀ a b, Q a b → f' b = f a) (h : List.Forall₂ Q l l') : l'.map f' = l.map f := by
  induction h with
  | nil => rfl
  | cons hxy _ ih => rw [List.map_cons, List.map_cons, hf _ _ hxy, ih]

theorem ReplyAlike.call_eq {r r' : Reply I} (h : ReplyAlike O r r') : r'.1 = r.1 := by
  cases h
  rfl

end Interleave
