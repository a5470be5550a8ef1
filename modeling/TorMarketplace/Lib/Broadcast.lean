import Mathlib.Data.List.Infix
import Mathlib.Data.List.TakeDrop

/-!
# Broadcast channels

A channel keeps the last `cap` of the messages that were sent on it, and every receiver stands before one
of them. A receiver that has fallen behind is told how many it has lost, and goes on with the oldest one
kept. What it hears is part of what was sent since it came (`heard_sublist`), and all of it up to where it
stands if it is never overrun (`heard_eq`).
-/

namespace Broadcast

variable {α : Type}

/-- What `recv` returns. -/
inductive Recv (α : Type) where
  | message (a : α)
  | lagged (skipped : Nat)
  /-- It waits. -/
  | empty
  | closed

/-- A receiver, with the channel it listens to. -/
structure Receiver (α : Type) where
  /-- All that was sent. -/
  log : List α
  /-- No sender is left. -/
  closed : Bool
  /-- The number of the next message. -/
  next : Nat
  /-- What it has been given. -/
  heard : List α

namespace Receiver

/-- `subscribe`: it starts after what was sent so far. -/
def subscribe (log : List α) : Receiver α := ⟨log, false, log.length, []⟩

def send (r : Receiver α) (a : α) : Receiver α := { r with log := r.log ++ [a] }

def close (r : Receiver α) : Receiver α := { r with closed := true }

/-- The next message has been overwritten. -/
def Overrun (cap : Nat) (r : Receiver α) : Prop := r.next + cap < r.log.length

instance (cap : Nat) (r : Receiver α) : Decidable (r.Overrun cap) := inferInstanceAs (Decidable (_ < _))

def recv (cap : Nat) (r : Receiver α) : Recv α × Receiver α :=
  if r.Overrun cap then
    (.lagged (r.log.length - cap - r.next), { r with next := r.log.length - cap })
  else
    match r.log[r.next]? with
    | some a => (.message a, { r with next := r.next + 1, heard := r.heard ++ [a] })
    | none => (if r.closed then .closed else .empty, r)

/-- The receiver has come when `start` messages had been sent. -/
structure Since (start : Nat) (r : Receiver α) : Prop where
  starts : start ≤ r.next
  reaches : r.next ≤ r.log.length
  heard : r.heard.Sublist ((r.log.drop start).take (r.next - start))

variable {cap start : Nat} {r : Receiver α}

theorem since_subscribe (log : List α) : Since log.length (subscribe log) :=
  ⟨Nat.le_refl _, Nat.le_refl _, List.nil_sublist _⟩

theorem take_drop_append {l : List α} {a : α} (hstart : start ≤ r.next) (hreach : r.next ≤ l.length) :
    ((l ++ [a]).drop start).take (r.next - start) = (l.drop start).take (r.next - start) := by
  rw [List.drop_append_of_le_length (by omega), List.take_append_of_le_length (by simp; omega)]

theorem Since.send (h : Since start r) (a : α) : Since start (r.send a) where
  starts := h.starts
  reaches := by
    have := h.reaches
    simp only [Receiver.send, List.length_append, List.length_singleton]
    omega
  heard := by
    rw [Receiver.send, take_drop_append h.starts h.reaches]
    exact h.heard

theorem Since.close (h : Since start r) : Since start r.close := ⟨h.starts, h.reaches, h.heard⟩

/-- One more message is read. -/
theorem take_drop_succ {l : List α} {next : Nat} {a : α} (hstart : start ≤ next)
    (hget : l[next]? = some a) :
    (l.drop start).take (next + 1 - start) = (l.drop start).take (next - start) ++ [a] := by
  have hget' : (l.drop start)[next - start]? = some a := by
    rw [List.getElem?_drop, Nat.add_sub_cancel' hstart, hget]
  rw [show next + 1 - start = next - start + 1 by omega, List.take_add_one, hget', Option.toList_some]

theorem Since.recv (h : Since start r) : Since start (r.recv cap).2 := by
  obtain ⟨hstarts, hreaches, hheard⟩ := h
  unfold Receiver.recv
  split
  · rename_i hover
    unfold Overrun at hover
    refine ⟨by dsimp only; omega, Nat.sub_le _ _, hheard.trans (List.take_prefix_take_left ?_).sublist⟩
    dsimp only
    omega
  · cases hget : r.log[r.next]? with
    | none => exact ⟨hstarts, hreaches, hheard⟩
    | some a =>
      obtain ⟨hlt, _⟩ := List.getElem?_eq_some_iff.mp hget
      refine ⟨by dsimp only; omega, hlt, ?_⟩
      dsimp only
      rw [take_drop_succ hstarts hget]
      exact hheard.append (List.Sublist.refl _)

/-- What one `recv` adds to what was heard. -/
theorem recv_heard : (r.recv cap).2.heard = r.heard ++
    (match (r.recv cap).1 with
      | .message a => [a]
      | _ => []) := by
  unfold Receiver.recv
  split
  · simp
  · split
    · rfl
    · split <;> simp

/-- `recv` sends nothing. -/
theorem recv_log : (r.recv cap).2.log = r.log := by
  unfold Receiver.recv
  split
  · rfl
  · split <;> rfl

/-- **What is heard was sent**, in its order. -/
theorem Since.heard_sublist (h : Since start r) : r.heard.Sublist (r.log.drop start) :=
  h.heard.trans (List.take_sublist _ _)

/-- Nothing was missed. -/
def Complete (start : Nat) (r : Receiver α) : Prop := r.heard = (r.log.drop start).take (r.next - start)

theorem complete_subscribe (log : List α) : Complete log.length (subscribe log) := by
  simp [Complete, subscribe]

theorem Complete.send (hc : Complete start r) (h : Since start r) (a : α) : Complete start (r.send a) := by
  unfold Complete Receiver.send
  rw [take_drop_append h.starts h.reaches]
  exact hc

theorem Complete.close (hc : Complete start r) : Complete start r.close := hc

theorem Complete.recv (hc : Complete start r) (h : Since start r) (hover : ¬ r.Overrun cap) :
    Complete start (r.recv cap).2 := by
  unfold Receiver.recv
  rw [if_neg hover]
  cases hget : r.log[r.next]? with
  | none => exact hc
  | some a =>
    unfold Complete
    dsimp only
    rw [take_drop_succ h.starts hget, ← hc]

/-- **A receiver that is never overrun hears everything** up to where it stands. -/
theorem Complete.drained (hc : Complete start r) (hall : r.next = r.log.length) :
    r.heard = r.log.drop start := by
  rw [hc, hall, List.take_of_length_le (by simp)]

end Receiver

end Broadcast
