import Mathlib.Algebra.Field.Rat
import TorMarketplace.Lib.Encoding
import TorMarketplace.Lib.Prog

/-!
# Programs that draw

A program over a random generator, as a `Prog` whose calls are the draws: `Drawn` is what a draw can
come out as. A draw from an empty range, an index outside its table, a sum that is no `i64` and a
division by zero are panics. Nothing is said of probabilities: a property of such a program is one of
every stream of draws.
-/

namespace Draws

open Encoding Interleave Prog

/-- One draw. -/
inductive Draw where
  /-- `gen::<f64>()`. -/
  | unit
  /-- `gen_range(lo..hi)`. -/
  | range (lo hi : Int)
  /-- `gen_bool(p)`. -/
  | bool (p : Rat)
  /-- As many bytes. -/
  | bytes (n : Nat)
  deriving DecidableEq

abbrev Draw.Ans : Draw → Type
  | unit => Rat
  | range .. => Int
  | bool _ => Bool
  | bytes _ => Bytes

abbrev Drawing : Interface := ⟨Draw, Draw.Ans⟩

inductive Panic where
  | indexOutOfBounds
  | emptyRange
  | overflow
  | divideByZero
  deriving DecidableEq

abbrev Gen (α : Type) := Prog Drawing Panic α

/-- What can be drawn. A random `f64` is a multiple of `2 ^ -53`. -/
def Drawn : (c : Drawing.Call) → Drawing.Ans c → Prop
  | .unit, x => ∃ k : Nat, k < 2 ^ 53 ∧ x = k / 2 ^ 53
  | .range lo hi, n => lo ≤ n ∧ n < hi
  | .bool _, _ => True
  | .bytes n, b => b.length = n

/-! ## Steps -/

def genUnit : Gen Rat := call (I := Drawing) .unit

def genRange (lo hi : Int) : Gen Int :=
  if lo < hi then call (I := Drawing) (.range lo hi) else fail .emptyRange

def genBool (p : Rat) : Gen Bool := call (I := Drawing) (.bool p)

def genBytes (n : Nat) : Gen Bytes := call (I := Drawing) (.bytes n)

/-- `table[i]`. -/
def indexed {α : Type} (table : List α) (i : Int) : Gen α :=
  orFail (if 0 ≤ i then table[i.toNat]? else none) .indexOutOfBounds

/-- The result of an operation on `i64`. -/
def checked (n : Int) : Gen Int64 :=
  if -2 ^ 63 ≤ n ∧ n < 2 ^ 63 then pure (Int64.ofInt n) else fail .overflow

/-- `a / b`. -/
def divided (a b : Int64) : Gen Int64 :=
  if b = 0 then fail .divideByZero else checked (a.toInt.tdiv b.toInt)

theorem checked_eq {n : Int} (h : -2 ^ 63 ≤ n ∧ n < 2 ^ 63) : checked n = pure (Int64.ofInt n) :=
  if_pos h

theorem toInt_ofInt {n : Int} (h : -2 ^ 63 ≤ n ∧ n < 2 ^ 63) : (Int64.ofInt n).toInt = n :=
  Int64.toInt_ofInt_of_le h.1 h.2

end Draws
