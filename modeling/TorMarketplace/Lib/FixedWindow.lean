import Mathlib.Algebra.Order.Monoid.Unbundled.Basic
import TorMarketplace.Lib.Keyed

/-!
# A fixed-window counter

A counter that lets `limit` checks pass in a window of the length `width`. A window is opened by the first
check that comes more than `width` after the last one was opened, so windows do not follow a grid: a closed
interval of the length `width` can meet two of them, but no more (`countP_within`).
-/

namespace FixedWindow

variable {τ : Type} [LinearOrder τ] [Add τ]

structure Window (τ : Type) where
  start : τ
  count : Nat
  deriving DecidableEq

/-- A check as it went: whether it has opened a window, and whether it has passed. -/
structure Check (τ : Type) where
  time : τ
  opens : Bool
  passes : Bool
  deriving DecidableEq

/-- A check at `now`. -/
def step (width : τ) (limit : Nat) : Option (Window τ) → τ → Check τ × Option (Window τ)
  | some w, now =>
    if w.start + width < now then (⟨now, true, true⟩, some ⟨now, 1⟩)
    else if limit ≤ w.count then (⟨now, false, false⟩, some w)
    else (⟨now, false, true⟩, some { w with count := w.count + 1 })
  | none, now => (⟨now, true, true⟩, some ⟨now, 1⟩)

/-- The checks at these instants. -/
def checks (width : τ) (limit : Nat) : Option (Window τ) → List τ → List (Check τ) :=
  Keyed.outputs (step width limit)

/-- The check has passed at an instant from `t` to `t'`. -/
def Check.passesIn (t t' : τ) (c : Check τ) : Bool := c.passes && t ≤ c.time && c.time ≤ t'

/-- What one check does. -/
inductive Stepped (width : τ) (limit : Nat) : Option (Window τ) → τ → Check τ → Window τ → Prop
  | opens {s : Option (Window τ)} {now : τ} (hlate : ∀ w, s = some w → w.start + width < now) :
      Stepped width limit s now ⟨now, true, true⟩ ⟨now, 1⟩
  | refuses {w : Window τ} {now : τ} (hwithin : now ≤ w.start + width) (hfull : limit ≤ w.count) :
      Stepped width limit (some w) now ⟨now, false, false⟩ w
  | passes {w : Window τ} {now : τ} (hwithin : now ≤ w.start + width) (hroom : w.count < limit) :
      Stepped width limit (some w) now ⟨now, false, true⟩ ⟨w.start, w.count + 1⟩

variable {width : τ} {limit : Nat}

theorem step_stepped (width : τ) (limit : Nat) (s : Option (Window τ)) (now : τ) :
    ∃ c w, step width limit s now = (c, some w) ∧ Stepped width limit s now c w := by
  cases s with
  | none => exact ⟨_, _, rfl, .opens fun _ h => absurd h (by simp)⟩
  | some w =>
    by_cases hlate : w.start + width < now
    · refine ⟨_, _, if_pos hlate, .opens fun w' hw => ?_⟩
      obtain rfl := Option.some.inj hw
      exact hlate
    · have hwithin : now ≤ w.start + width := not_lt.mp hlate
      by_cases hfull : limit ≤ w.count
      · exact ⟨_, _, (if_neg hlate).trans (if_pos hfull), .refuses hwithin hfull⟩
      · exact ⟨_, _, (if_neg hlate).trans (if_neg hfull), .passes hwithin (not_le.mp hfull)⟩

theorem checks_cons (width : τ) (limit : Nat) (s : Option (Window τ)) (now : τ) (times : List τ) :
    ∃ c w, checks width limit s (now :: times) = c :: checks width limit (some w) times ∧
      Stepped width limit s now c w := by
  obtain ⟨c, w, hstep, h⟩ := step_stepped width limit s now
  refine ⟨c, w, ?_, h⟩
  rw [checks, Keyed.outputs, hstep]

/-- The window that a check leaves is not overfull. -/
theorem Stepped.count_le {s : Option (Window τ)} {now : τ} {c : Check τ} {w : Window τ}
    (h : Stepped width limit s now c w) (hlimit : 1 ≤ limit) (hs : ∀ w, s = some w → w.count ≤ limit) :
    w.count ≤ limit := by
  cases h with
  | opens _ => exact hlimit
  | refuses _ _ => exact hs w rfl
  | passes _ hroom => exact hroom

/-! ## One window -/

/-- Until another window is opened, no more checks pass than the window has room for. -/
theorem countP_of_no_opening {w : Window τ} {times : List τ} {l l' : List (Check τ)}
    (hl : checks width limit (some w) times = l ++ l') (hw : w.count ≤ limit)
    (hno : ∀ c ∈ l, c.opens = false) : w.count + l.countP Check.passes ≤ limit := by
  induction times generalizing w l with
  | nil =>
    obtain ⟨rfl, _⟩ := List.append_eq_nil_iff.mp hl.symm
    simpa using hw
  | cons now times ih =>
    obtain ⟨c, w', hcons, hstep⟩ := checks_cons width limit (some w) now times
    rw [hcons] at hl
    cases l with
    | nil => simpa using hw
    | cons c₀ l =>
      rw [List.cons_append] at hl
      obtain ⟨rfl, htail⟩ := List.cons.inj hl
      have hopens : c.opens = false := hno c List.mem_cons_self
      have hno' : ∀ c ∈ l, c.opens = false := fun c hc => hno c (List.mem_cons_of_mem _ hc)
      cases hstep with
      | opens _ => exact absurd hopens (by simp)
      | refuses _ _ => simpa using ih htail hw hno'
      | passes _ hroom =>
        have hrest := ih htail hroom hno'
        dsimp only at hrest
        simp only [List.countP_cons, if_true]
        omega

/-- **Between two openings as many checks pass as a window has room for.** -/
theorem countP_between {s : Option (Window τ)} {times : List τ} {l₁ l l₂ : List (Check τ)}
    (hlimit : 1 ≤ limit) (hs : ∀ w, s = some w → w.count ≤ limit)
    (hl : checks width limit s times = l₁ ++ l ++ l₂) (hno : ∀ c ∈ l.tail, c.opens = false) :
    l.countP Check.passes ≤ limit := by
  induction times generalizing s l₁ with
  | nil =>
    obtain ⟨h, _⟩ := List.append_eq_nil_iff.mp hl.symm
    obtain ⟨_, rfl⟩ := List.append_eq_nil_iff.mp h
    simp
  | cons now times ih =>
    obtain ⟨c, w, hcons, hstep⟩ := checks_cons width limit s now times
    rw [hcons] at hl
    have hw := hstep.count_le hlimit hs
    cases l₁ with
    | cons c₀ l₁ =>
      rw [List.cons_append, List.cons_append] at hl
      obtain ⟨rfl, htail⟩ := List.cons.inj hl
      exact ih (fun w' h => Option.some.inj h ▸ hw) htail
    | nil =>
      cases l with
      | nil => simp
      | cons c₀ l =>
        rw [List.nil_append, List.cons_append] at hl
        obtain ⟨rfl, htail⟩ := List.cons.inj hl
        have hrest := countP_of_no_opening htail hw hno
        rw [List.countP_cons]
        cases hstep with
        | opens _ => simpa [Nat.add_comm] using hrest
        | refuses _ _ => simpa using (Nat.le_add_left _ _).trans hrest
        | passes _ _ =>
          dsimp only at hrest
          simp only [if_true]
          omega

/-! ## An interval -/

section Interval

variable {t t' : τ}

/-- A check counts in an interval at its own instant. -/
theorem Stepped.passesIn {s : Option (Window τ)} {now : τ} {c : Check τ} {w : Window τ}
    (h : Stepped width limit s now c w) : c.passesIn t t' = (c.passes && t ≤ now && now ≤ t') := by
  cases h <;> rfl

/-- Checks that come after the interval do not count. -/
theorem countP_of_late {s : Option (Window τ)} {times : List τ} (hlate : ∀ now ∈ times, t' < now) :
    (checks width limit s times).countP (Check.passesIn t t') = 0 := by
  induction times generalizing s with
  | nil => rfl
  | cons now times ih =>
    obtain ⟨c, w, hcons, hstep⟩ := checks_cons width limit s now times
    have hnow : ¬ now ≤ t' := not_le.mpr (hlate now List.mem_cons_self)
    rw [hcons, List.countP_cons, hstep.passesIn, ih fun x hx => hlate x (List.mem_cons_of_mem _ hx)]
    simp [hnow]

/-- A window that the interval ends in is the last one to meet it. -/
theorem countP_of_ending {w : Window τ} {times : List τ} (hend : t' ≤ w.start + width)
    (hw : w.count ≤ limit) (hsorted : times.Pairwise (· ≤ ·)) :
    w.count + (checks width limit (some w) times).countP (Check.passesIn t t') ≤ limit := by
  induction times generalizing w with
  | nil => exact hw
  | cons now times ih =>
    obtain ⟨c, w', hcons, hstep⟩ := checks_cons width limit (some w) now times
    obtain ⟨hle, hsorted'⟩ := List.pairwise_cons.mp hsorted
    cases hstep with
    | opens hlate =>
      have hafter : t' < now := hend.trans_lt (hlate w rfl)
      have hnone : (checks width limit (some w) (now :: times)).countP (Check.passesIn t t') = 0 :=
        countP_of_late fun x hx => by
          rcases List.mem_cons.mp hx with rfl | hx
          · exact hafter
          · exact hafter.trans_le (hle x hx)
      rwa [hnone]
    | refuses _ _ =>
      rw [hcons, List.countP_cons]
      have hrest := ih hend hw hsorted'
      simpa [Check.passesIn] using hrest
    | passes _ hroom =>
      rw [hcons, List.countP_cons]
      have hrest := ih (w := ⟨w.start, w.count + 1⟩) hend hroom hsorted'
      dsimp only at hrest
      split <;> omega

variable [AddRightMono τ]

/-- From a check in the interval on, the window of that check and one more meet it. -/
theorem countP_of_begun (width : τ) {w : Window τ} {times : List τ} (hlimit : 1 ≤ limit)
    (hw : w.count ≤ limit)
    (hbegun : ∀ now ∈ times, t ≤ now) (hsorted : times.Pairwise (· ≤ ·)) :
    w.count + (checks width limit (some w) times).countP (Check.passesIn t (t + width)) ≤ 2 * limit := by
  induction times generalizing w with
  | nil =>
    change w.count + 0 ≤ 2 * limit
    omega
  | cons now times ih =>
    obtain ⟨c, w', hcons, hstep⟩ := checks_cons width limit (some w) now times
    obtain ⟨_, hsorted'⟩ := List.pairwise_cons.mp hsorted
    have hnow : t ≤ now := hbegun now List.mem_cons_self
    have hbegun' : ∀ now ∈ times, t ≤ now := fun x hx => hbegun x (List.mem_cons_of_mem _ hx)
    rw [hcons, List.countP_cons]
    cases hstep with
    | opens _ =>
      have hend : t + width ≤ now + width := add_le_add_left hnow width
      have hrest := countP_of_ending (w := ⟨now, 1⟩) (t := t) hend hlimit hsorted'
      dsimp only at hrest
      split <;> omega
    | refuses _ _ =>
      have hrest := ih hw hbegun' hsorted'
      simpa [Check.passesIn] using hrest
    | passes _ hroom =>
      have hrest := ih (w := ⟨w.start, w.count + 1⟩) hroom hbegun' hsorted'
      dsimp only at hrest
      split <;> omega

/-- **In a closed interval of the length of a window, at most twice as many checks pass as a window has
room for.** -/
theorem countP_within {s : Option (Window τ)} {times : List τ} (hlimit : 1 ≤ limit)
    (hs : ∀ w, s = some w → w.count ≤ limit) (hsorted : times.Pairwise (· ≤ ·)) (t : τ) :
    (checks width limit s times).countP (Check.passesIn t (t + width)) ≤ 2 * limit := by
  induction times generalizing s with
  | nil => exact Nat.zero_le _
  | cons now times ih =>
    obtain ⟨c, w, hcons, hstep⟩ := checks_cons width limit s now times
    obtain ⟨hle, hsorted'⟩ := List.pairwise_cons.mp hsorted
    have hw := hstep.count_le hlimit hs
    by_cases hnow : t ≤ now
    · have hbegun : ∀ x ∈ times, t ≤ x := fun x hx => hnow.trans (hle x hx)
      cases s with
      | some w₀ =>
        refine (Nat.le_add_left _ _).trans (countP_of_begun width hlimit (hs w₀ rfl) ?_ hsorted)
        exact List.forall_mem_cons.mpr ⟨hnow, hbegun⟩
      | none =>
        rw [hcons, List.countP_cons]
        cases hstep with
        | opens _ =>
          have hrest := countP_of_begun width (w := ⟨now, 1⟩) hlimit hw hbegun hsorted'
          dsimp only at hrest
          split <;> omega
    · rw [hcons, List.countP_cons, hstep.passesIn]
      have hrest := ih (fun w' h => Option.some.inj h ▸ hw) hsorted'
      simpa [hnow] using hrest

end Interval

end FixedWindow
