import TorMarketplace.Lib.Run

/-!
# Programs that change nothing when they fail

`changes` says of a reply that its call has changed something. A `Still` program changes nothing at all, a
`Sure` one never fails, and an `Atomic` one has changed nothing when it fails. A program is atomic if its
parts are still up to the call that changes something, and sure from there on. It is `AtomicUpTo mark` if
it may have made the one change `mark` before it fails: so is one that is atomic after the call `mark`.
-/

namespace Interleave

open Prog

variable {I : Interface} {ε α β : Type}

section Atomic

variable (may : (c : I.Call) → I.Ans c → Prop) (changes : Reply I → Bool)

/-- The changes that a process has made. -/
def changesIn (past : List (Reply I)) : List (Reply I) := past.filter changes

/-- Whatever comes of `x`, it changes nothing. -/
def Still (x : Prog I ε α) : Prop :=
  ∀ past, Spec may (fun _ _ => True)
    (fun past' _ => changesIn changes past' = changesIn changes past) past x

/-- `x` never fails. -/
def Sure (x : Prog I ε α) : Prop :=
  ∀ past, Spec may (fun _ _ => True) (fun _ r => ∃ a, r = .ok a) past x

/-- What holds of the past when a program fails. -/
def OnError (R : List (Reply I) → Prop) (past : List (Reply I)) : Except ε α → Prop
  | .ok _ => True
  | .error _ => R past

/-- If `x` fails, it has changed nothing. -/
def Atomic (x : Prog I ε α) : Prop :=
  ∀ past, Spec may (fun _ _ => True)
    (OnError fun past' => changesIn changes past' = changesIn changes past) past x

/-- If `x` fails, it has changed nothing, or has made the change `mark` and no other. -/
def AtomicUpTo (mark : Reply I) (x : Prog I ε α) : Prop :=
  ∀ past, Spec may (fun _ _ => True) (OnError fun past' =>
    changesIn changes past' = changesIn changes past ∨
      changesIn changes past' = changesIn changes past ++ [mark]) past x

variable {may changes}

theorem changesIn_still {r : Reply I} (h : changes r = false) (past : List (Reply I)) :
    changesIn changes (past ++ [r]) = changesIn changes past := by
  simp [changesIn, List.filter_append, h]

theorem changesIn_change {r : Reply I} (h : changes r = true) (past : List (Reply I)) :
    changesIn changes (past ++ [r]) = changesIn changes past ++ [r] := by
  simp [changesIn, List.filter_append, h]

/-! ### Parts that change nothing -/

theorem still_orFail {o : Option α} {e : ε} : Still may changes (orFail o e : Prog I ε α) :=
  fun _ => spec_orFail.mpr ⟨fun _ => rfl, fun _ _ => rfl⟩

theorem still_ensure {b : Bool} {e : ε} : Still may changes (ensure b e : Prog I ε Unit) :=
  fun _ => spec_ensure.mpr ⟨fun _ => rfl, fun _ => rfl⟩

theorem still_pure {a : α} : Still may changes (pure a : Prog I ε α) := fun _ => rfl

theorem still_call {c : I.Call} (h : ∀ a, changes ⟨c, a⟩ = false) :
    Still may changes (call c : Prog I ε (I.Ans c)) :=
  fun past => ⟨trivial, fun a _ => changesIn_still (h a) past⟩

theorem Still.bind {x : Prog I ε α} {f : α → Prog I ε β} (hx : Still may changes x)
    (hf : ∀ a, Still may changes (f a)) : Still may changes (x >>= f) :=
  fun past => spec_seq (hx past)
    (fun past' a h => spec_mono (fun _ _ h => h) (fun _ _ h' => h'.trans h) (hf a past'))
    fun _ _ h => h

/-- A program whose result is there makes no call. -/
theorem still_of_result {x : Prog I ε α} (h : x.result.isSome) : Still may changes x := by
  cases x with
  | ret a => exact fun _ => rfl
  | fail e => exact fun _ => rfl
  | step c k => exact absurd h (by simp [result])

/-! ### Parts that do not fail -/

theorem sure_pure {a : α} : Sure may (pure a : Prog I ε α) := fun _ => ⟨a, rfl⟩

theorem sure_call {c : I.Call} {f : I.Ans c → Prog I ε β} (hf : ∀ a, Sure may (f a)) :
    Sure may (call c >>= f) :=
  fun _ => ⟨trivial, fun a _ => hf a _⟩

/-! ### Atomic programs -/

theorem Still.atomic {x : Prog I ε α} (h : Still may changes x) : Atomic may changes x := by
  refine fun past => spec_mono (fun _ _ h => h) (fun past' r hr => ?_) (h past)
  cases r with
  | ok _ => trivial
  | error _ => exact hr

theorem Sure.atomic {x : Prog I ε α} (h : Sure may x) : Atomic may changes x := by
  refine fun past => spec_mono (fun _ _ h => h) (fun past' r hr => ?_) (h past)
  obtain ⟨a, rfl⟩ := hr
  trivial

theorem Still.bind_atomic {x : Prog I ε α} {f : α → Prog I ε β} (hx : Still may changes x)
    (hf : ∀ a, Atomic may changes (f a)) : Atomic may changes (x >>= f) := by
  refine fun past => spec_seq (hx past) (fun past' a h => ?_) fun _ _ h => h
  refine spec_mono (fun _ _ h => h) (fun past'' r hr => ?_) (hf a past')
  cases r with
  | ok _ => trivial
  | error _ => exact hr.trans h

/-- **The call that changes something**: after a change nothing fails. -/
theorem atomic_call {c : I.Call} {f : I.Ans c → Prog I ε β}
    (hstill : ∀ a, changes ⟨c, a⟩ = false → Atomic may changes (f a))
    (hchange : ∀ a, changes ⟨c, a⟩ = true → Sure may (f a)) : Atomic may changes (call c >>= f) := by
  refine fun past => ⟨trivial, fun a _ => ?_⟩
  cases hc : changes ⟨c, a⟩ with
  | false =>
    refine spec_mono (fun _ _ h => h) (fun past' r hr => ?_) (hstill a hc (past ++ [⟨c, a⟩]))
    cases r with
    | ok _ => trivial
    | error _ => exact Eq.trans hr (changesIn_still hc past)
  | true =>
    refine spec_mono (fun _ _ h => h) (fun past' r hr => ?_) (hchange a hc (past ++ [⟨c, a⟩]))
    obtain ⟨b, rfl⟩ := hr
    trivial

/-! ### Atomic but for one change -/

variable {mark : Reply I}

theorem Atomic.upTo {x : Prog I ε α} (h : Atomic may changes x) : AtomicUpTo may changes mark x := by
  refine fun past => spec_mono (fun _ _ h => h) (fun past' r hr => ?_) (h past)
  cases r with
  | ok _ => trivial
  | error _ => exact .inl hr

theorem Still.bind_upTo {x : Prog I ε α} {f : α → Prog I ε β} (hx : Still may changes x)
    (hf : ∀ a, AtomicUpTo may changes mark (f a)) : AtomicUpTo may changes mark (x >>= f) := by
  refine fun past => spec_seq (hx past) (fun past' a h => ?_) fun _ _ h => .inl h
  refine spec_mono (fun _ _ h => h) (fun past'' r hr => ?_) (hf a past')
  cases r with
  | ok _ => trivial
  | error _ => exact hr.imp (fun hr => hr.trans h) fun hr => by rw [hr, h]

/-- A first part without a call, whose value may matter. -/
theorem upTo_of_result {x : Prog I ε α} {f : α → Prog I ε β} (hx : x.result.isSome)
    (hf : ∀ a, x.result = some (.ok a) → AtomicUpTo may changes mark (f a)) :
    AtomicUpTo may changes mark (x >>= f) := by
  cases x with
  | ret a => exact hf a rfl
  | fail e => exact fun _ => .inl rfl
  | step c k => exact absurd hx (by simp [result])

/-- The call `mark`, before a program that is atomic. -/
theorem upTo_call {c : I.Call} {f : I.Ans c → Prog I ε β}
    (hmark : ∀ a, changes ⟨c, a⟩ = true → ⟨c, a⟩ = mark) (hf : ∀ a, Atomic may changes (f a)) :
    AtomicUpTo may changes mark (call c >>= f) := by
  refine fun past => ⟨trivial, fun a _ => ?_⟩
  refine spec_mono (fun _ _ h => h) (fun past' r hr => ?_) (hf a (past ++ [⟨c, a⟩]))
  cases r with
  | ok _ => trivial
  | error _ =>
    cases hc : changes ⟨c, a⟩ with
    | false => exact .inl (Eq.trans hr (changesIn_still hc past))
    | true => exact .inr (Eq.trans hr (by rw [changesIn_change hc past, hmark a hc]))

/-- What is made of the value does not fail. -/
theorem AtomicUpTo.map {x : Prog I ε α} (h : AtomicUpTo may changes mark x) (f : α → β) :
    AtomicUpTo may changes mark (x >>= fun a => pure (f a)) :=
  fun past => spec_seq (h past) (fun _ _ _ => trivial) fun _ _ h => h

end Atomic

/-! ### Replies that success needs -/

/-- `x` succeeds only after the reply `r`. -/
def Needs (may : (c : I.Call) → I.Ans c → Prop) (r : Reply I) (x : Prog I ε α) : Prop :=
  ∀ past, Spec may (fun _ _ => True) (OnOk fun past' _ => r ∈ past') past x

section Needs

variable {may : (c : I.Call) → I.Ans c → Prop} {r : Reply I}

theorem needs_fail {e : ε} : Needs may r (fail e : Prog I ε α) := fun _ => trivial

theorem needs_bind {x : Prog I ε α} {f : α → Prog I ε β} (hf : ∀ a, Needs may r (f a)) :
    Needs may r (x >>= f) := fun _ =>
  spec_seq (spec_of_forall (fun _ _ => trivial) fun _ _ => trivial) (fun past' a _ => hf a past')
    fun _ _ _ => trivial

/-- What is made of the value needs no other reply. -/
theorem Needs.map {x : Prog I ε α} (h : Needs may r x) (f : α → β) :
    Needs may r (x >>= fun a => pure (f a)) := fun past =>
  spec_seq (h past) (fun _ _ h => h) fun _ _ _ => trivial

/-- The call that `r` is a reply to: another answer must lead to a failure. -/
theorem needs_call {c : I.Call} {k : I.Ans c → Prog I ε β}
    (hk : ∀ a, (⟨c, a⟩ : Reply I) ≠ r → Needs may r (k a)) : Needs may r (call c >>= k) := by
  refine fun past => ⟨trivial, fun a _ => ?_⟩
  by_cases hr : (⟨c, a⟩ : Reply I) = r
  · subst hr
    refine spec_mono (fun _ _ h => h.1) (fun past' result hresult => ?_)
      (spec_begins (List.prefix_refl (past ++ [⟨c, a⟩])) spec_trivial)
    cases result with
    | ok _ => exact hresult.2.subset (List.mem_append_right past (List.mem_singleton_self _))
    | error _ => trivial
  · exact hk a hr (past ++ [⟨c, a⟩])

end Needs

/-! ### In a run -/

section Events

variable {σ J ρ : Type} {changes : Reply I → Bool}

/-- The calls of process `pid`, with the states around them. -/
def eventsOf (pid : Nat) (l : List (Event I σ J)) : List (Event I σ J) := l.filter fun ev => ev.pid = pid

theorem Reachable.past_eq_events {χ : Type} {m : Machine I σ χ} {body : J → Prog I ε ρ}
    {allow : Config I σ J ε ρ → J → Prop} {s₀ : σ} {g : Config I σ J ε ρ}
    (h : Reachable m body allow s₀ g) {pid : Nat} {p : Proc I J ε ρ} (hp : g.procs[pid]? = some p) :
    p.past = (eventsOf pid g.history).map Event.reply :=
  h.past_eq hp

/-- No call has changed anything. -/
theorem still_of_changesIn {l : List (Event I σ J)} (h : changesIn changes (l.map Event.reply) = []) :
    ∀ ev ∈ l, changes ev.reply = false := fun ev hev =>
  Bool.eq_false_iff.mpr (List.filter_eq_nil_iff.mp h ev.reply (List.mem_map_of_mem hev))

/-- One call has changed something, and the others have not. -/
theorem one_of_changesIn {l : List (Event I σ J)} {mark : Reply I}
    (h : changesIn changes (l.map Event.reply) = [mark]) :
    ∃ l₁ ev l₂, l = l₁ ++ ev :: l₂ ∧ ev.reply = mark ∧ ∀ ev' ∈ l₁ ++ l₂, changes ev'.reply = false := by
  obtain ⟨before, after, hsplit, hbefore, _, hafter⟩ := List.filter_eq_cons_iff.mp h
  obtain ⟨l₁, rest, rfl, rfl, hrest⟩ := List.map_eq_append_iff.mp hsplit
  obtain ⟨ev, l₂, rfl, hreply, rfl⟩ := List.map_eq_cons_iff.mp hrest
  refine ⟨l₁, ev, l₂, rfl, hreply, fun ev' hev' => ?_⟩
  rcases List.mem_append.mp hev' with hev' | hev'
  · exact Bool.eq_false_iff.mpr (hbefore ev'.reply (List.mem_map_of_mem hev'))
  · exact still_of_changesIn hafter ev' hev'

end Events

end Interleave
