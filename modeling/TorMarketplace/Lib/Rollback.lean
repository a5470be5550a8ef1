import Mathlib.Data.List.Basic

/-!
# Executions that roll back

A world that is worked on in nested frames. A frame remembers the world it was opened in; when it
fails, the world is that one again, with whatever has happened meanwhile undone. `Move` is one step
of such an execution over three relations: what may happen to the world in place, how a frame is
opened, and how it ends well.

`holds_of_moves`: what every change of the world preserves holds of the world and of every world that
an open frame may go back to. `rel_of_inside`: a preorder that every change respects relates the start
of a run to its end, as long as the run does not leave the frames it started in.
-/

namespace Rollback

structure State (W F : Type) where
  world : W
  /-- The open frames, the innermost first, each with the world it goes back to. -/
  frames : List (F × W)

/-- The changes of the world. -/
structure Changes (W F : Type) where
  /-- In place. -/
  act : W → W → Prop
  /-- With the opening of a frame. -/
  enter : W → F → W → Prop
  /-- With a frame's good end. -/
  leave : F → W → W → Prop

variable {W F : Type} {C : Changes W F} {s s' : State W F}

inductive Move (C : Changes W F) : State W F → State W F → Prop
  | act {w w' : W} {fs : List (F × W)} (h : C.act w w') : Move C ⟨w, fs⟩ ⟨w', fs⟩
  | enter {w w' : W} {f : F} {fs : List (F × W)} (h : C.enter w f w') :
      Move C ⟨w, fs⟩ ⟨w', (f, w) :: fs⟩
  | leave {w w' w₀ : W} {f : F} {fs : List (F × W)} (h : C.leave f w w') :
      Move C ⟨w, (f, w₀) :: fs⟩ ⟨w', fs⟩
  | rollback {w w₀ : W} {f : F} {fs : List (F × W)} : Move C ⟨w, (f, w₀) :: fs⟩ ⟨w₀, fs⟩

/-- A run in whose states at least `n` frames are open. -/
inductive Inside (C : Changes W F) (n : Nat) : State W F → State W F → Prop
  | refl {s : State W F} : Inside C n s s
  | tail {s s' s'' : State W F} (h : Inside C n s s') (hmove : Move C s' s'')
      (hn : n ≤ s''.frames.length) : Inside C n s s''

/-- `p` holds of the world, and of every world that it may become by a rollback. -/
def State.Holds (p : W → Prop) (s : State W F) : Prop := p s.world ∧ ∀ f ∈ s.frames, p f.2

/-- What the changes preserve. -/
structure Changes.Preserves (C : Changes W F) (p : W → Prop) : Prop where
  act : ∀ {w w'}, C.act w w' → p w → p w'
  enter : ∀ {w f w'}, C.enter w f w' → p w → p w'
  leave : ∀ {f w w'}, C.leave f w w' → p w → p w'

theorem Move.holds {p : W → Prop} (hp : C.Preserves p) (h : Move C s s') (hs : s.Holds p) :
    s'.Holds p := by
  obtain ⟨hw, hframes⟩ := hs
  cases h with
  | act h => exact ⟨hp.act h hw, hframes⟩
  | enter h => exact ⟨hp.enter h hw, List.forall_mem_cons.mpr ⟨hw, hframes⟩⟩
  | leave h => exact ⟨hp.leave h hw, (List.forall_mem_cons.mp hframes).2⟩
  | rollback => exact List.forall_mem_cons.mp hframes

/-- **An invariant of the changes is one of the runs.** -/
theorem holds_of_moves {p : W → Prop} {n : Nat} (hp : C.Preserves p) (h : Inside C n s s')
    (hs : s.Holds p) : s'.Holds p := by
  induction h with
  | refl => exact hs
  | tail _ hmove _ ih => exact hmove.holds hp ih

/-- The changes go up in the preorder `r`. -/
structure Changes.Respects (C : Changes W F) (r : W → W → Prop) : Prop where
  refl : ∀ w, r w w
  trans : ∀ {w w' w''}, r w w' → r w' w'' → r w w''
  act : ∀ {w w'}, C.act w w' → r w w'
  enter : ∀ {w f w'}, C.enter w f w' → r w w'
  leave : ∀ {f w w'}, C.leave f w w' → r w w'

/-- **A run inside of the frames it started in goes up**: its rollbacks lead to worlds of its own. -/
theorem rel_of_inside {r : W → W → Prop} (hr : C.Respects r)
    (h : Inside C s.frames.length s s') : r s.world s'.world := by
  suffices hinv : ∃ fs, s'.frames = fs ++ s.frames ∧ r s.world s'.world ∧
      ∀ f ∈ fs, r s.world f.2 by
    obtain ⟨_, _, hrel, _⟩ := hinv
    exact hrel
  induction h with
  | refl => exact ⟨[], rfl, hr.refl _, by simp⟩
  | tail _ hmove hn ih =>
    obtain ⟨fs, hfs, hrel, hall⟩ := ih
    cases hmove with
    | act h => exact ⟨fs, hfs, hr.trans hrel (hr.act h), hall⟩
    | enter h =>
      exact ⟨_ :: fs, congrArg (List.cons _) hfs, hr.trans hrel (hr.enter h),
        List.forall_mem_cons.mpr ⟨hrel, hall⟩⟩
    | leave h =>
      -- the frame that ends is one of the run's own, or fewer would be open than at its start
      cases fs with
      | nil =>
        have hlen := congrArg List.length hfs
        simp only [List.nil_append, List.length_cons] at hlen hn
        omega
      | cons f fs =>
        exact ⟨fs, (List.cons.inj hfs).2, hr.trans hrel (hr.leave h), (List.forall_mem_cons.mp hall).2⟩
    | rollback =>
      cases fs with
      | nil =>
        have hlen := congrArg List.length hfs
        simp only [List.nil_append, List.length_cons] at hlen hn
        omega
      | cons f fs =>
        obtain ⟨hf, hfs'⟩ := List.cons.inj hfs
        obtain ⟨hfirst, hrest⟩ := List.forall_mem_cons.mp hall
        exact ⟨fs, hfs', by rw [← hf] at hfirst; exact hfirst, hrest⟩

end Rollback
