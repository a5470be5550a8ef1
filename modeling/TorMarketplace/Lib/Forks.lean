import Mathlib.Data.List.Chain
import Mathlib.Data.UInt

/-!
# Fork detectors

A node shows one view of its best chain after another. A detector remembers a block, and says at
each view whether the chain has been reorganised.

* `Complete`: it says so whenever the block it remembers has left the chain.
* `Tracks`: the block it remembers is one that a node has shown.
* `Settles`: once the chain only grows, it says so at most once more.

A detector that remembers the tip it has seen last, and is quiet while its block is on the chain,
settles (`settles_of_remembers`).
-/

namespace Forks

variable {H S N : Type}

structure Block (H : Type) where
  height : UInt64
  hash : H

/-- The best chain of a node: the height of its tip, and the hash at each height. -/
structure View (H : Type) where
  tip : UInt64
  hash : UInt64 → H

namespace View

variable {v v' : View H} {b : Block H}

def tipBlock (v : View H) : Block H := ⟨v.tip, v.hash v.tip⟩

def Contains (v : View H) (b : Block H) : Prop := b.height ≤ v.tip ∧ v.hash b.height = b.hash

/-- `v'` is `v` with blocks on top. -/
def Extends (v v' : View H) : Prop := v.tip ≤ v'.tip ∧ ∀ h ≤ v.tip, v'.hash h = v.hash h

theorem contains_tipBlock (v : View H) : v.Contains v.tipBlock := ⟨UInt64.le_refl _, rfl⟩

theorem Extends.contains (h : v.Extends v') (hb : v.Contains b) : v'.Contains b := by
  obtain ⟨htip, hhash⟩ := h
  obtain ⟨hle, heq⟩ := hb
  exact ⟨UInt64.le_trans hle htip, (hhash _ hle).trans heq⟩

end View

/-- A client that remembers a block between its checks of a node. -/
structure Detector (H S N : Type) where
  view : N → View H
  initial : S
  /-- The verdict, and the memory after the check. -/
  check : N → S → Bool × S
  remembered : S → Option (Block H)

namespace Detector

variable (d : Detector H S N)

/-- The memory after a check of each node. -/
def after (nodes : List N) : S := nodes.foldl (fun s n => (d.check n s).2) d.initial

/-- The verdicts of a check of each node, from the memory `s` on. -/
def verdicts : S → List N → List Bool
  | _, [] => []
  | s, n :: nodes => (d.check n s).1 :: verdicts (d.check n s).2 nodes

/-- If the remembered block has left the chain of `n`, the check says so. -/
def Detects (s : S) (n : N) : Prop :=
  ∀ b, d.remembered s = some b → ¬ (d.view n).Contains b → (d.check n s).1 = true

/-- No check but the first misses a fork. -/
def Complete (nodes : List N) : Prop :=
  ∀ pre n post, nodes = pre ++ n :: post → pre ≠ [] → d.Detects (d.after pre) n

/-- After each check, the remembered block is one of a chain that was shown. -/
def Tracks (nodes : List N) : Prop :=
  ∀ pre post, nodes = pre ++ post → pre ≠ [] → ∀ b, d.remembered (d.after pre) = some b →
    ∃ n ∈ pre, (d.view n).Contains b

/-- While the chain only grows, at most one check says fork. -/
def Settles (nodes : List N) : Prop :=
  ∀ pre post, nodes = pre ++ post → (post.map d.view).IsChain View.Extends →
    (d.verdicts (d.after pre) post).count true ≤ 1

variable {d}

theorem after_append (l l' : List N) :
    d.after (l ++ l') = l'.foldl (fun s n => (d.check n s).2) (d.after l) := by
  rw [after, List.foldl_append, after]

theorem after_snoc (l : List N) (n : N) : d.after (l ++ [n]) = (d.check n (d.after l)).2 := by
  rw [after_append]
  rfl

/-- **Completeness is the absence of blind spots.** -/
theorem complete_iff {Blind : S → N → Prop} (h : ∀ s n, d.Detects s n ↔ ¬ Blind s n)
    (nodes : List N) :
    d.Complete nodes ↔
      ∀ pre n post, nodes = pre ++ n :: post → pre ≠ [] → ¬ Blind (d.after pre) n := by
  unfold Complete
  simp only [h]

/-- While its block stays on the chain, the detector is quiet. -/
theorem verdicts_quiet (hquiet : ∀ s n b, d.remembered s = some b → (d.view n).Contains b →
      (d.check n s).1 = false) :
    ∀ (post : List N) (s : S) (v : View H), d.remembered s = some v.tipBlock →
      (v :: post.map d.view).IsChain View.Extends →
      (∀ l n l', post = l ++ n :: l' →
        d.remembered (d.check n (l.foldl (fun s n => (d.check n s).2) s)).2 =
          some (d.view n).tipBlock) →
      d.verdicts s post = List.replicate post.length false
  | [], _, _, _, _, _ => rfl
  | n :: post, s, v, hs, hchain, hrem => by
    rw [List.map_cons, List.isChain_cons_cons] at hchain
    have hfalse := hquiet s n _ hs (hchain.1.contains v.contains_tipBlock)
    have hnext : d.remembered (d.check n s).2 = some (d.view n).tipBlock := hrem [] n post rfl
    have ih := verdicts_quiet hquiet post _ _ hnext hchain.2
      fun l m l' hl => hrem (n :: l) m l' (by rw [hl]; rfl)
    rw [verdicts, hfalse, ih]
    rfl

/-- **A detector that remembers the last tip and is quiet while it is there settles.** -/
theorem settles_of_remembers {nodes : List N}
    (hquiet : ∀ s n b, d.remembered s = some b → (d.view n).Contains b → (d.check n s).1 = false)
    (hrem : ∀ pre n post, nodes = pre ++ n :: post →
      d.remembered (d.after (pre ++ [n])) = some (d.view n).tipBlock) :
    d.Settles nodes := by
  intro pre post hsplit hchain
  cases post with
  | nil => exact Nat.zero_le _
  | cons n post =>
    have hrest := verdicts_quiet hquiet post (d.check n (d.after pre)).2 (d.view n)
      (by rw [← after_snoc]; exact hrem pre n post hsplit) hchain
      fun l m l' hl => by
        have := hrem (pre ++ n :: l) m l' (by rw [hsplit, hl]; simp)
        rwa [after_snoc, after_append] at this
    rw [verdicts, hrest, List.count_cons, List.count_replicate, if_neg (by decide), Nat.zero_add]
    split <;> omega

end Detector

end Forks
