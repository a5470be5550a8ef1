import Mathlib.Algebra.Field.Rat
import TorMarketplace.Lib.Json

/-!
# Doubles

A finite `f64` as the rational it stands for. Each operation computes exactly and then rounds to the
nearest double, ties to even (`nearest`); a result too large for a double is kept, as nothing here
tells it from infinity.
-/

namespace F64

open Encoding Json

/-- `q * 2 ^ e`. -/
def scale (q : Rat) (e : Int) : Rat :=
  if 0 ≤ e then q * 2 ^ e.toNat else q / 2 ^ (-e).toNat

/-- The position of the leading bit of `q ≠ 0`. -/
def leadingBit (q : Rat) : Int :=
  let k : Int := (Nat.log2 q.num.natAbs : Int) - Nat.log2 q.den
  if scale 1 k ≤ (if 0 ≤ q then q else -q) then k else k - 1

/-- The nearest integer, ties to even. -/
def roundTies (q : Rat) : Int :=
  let down := q.floor
  let rest := q - down
  if rest < 1 / 2 ∨ rest = 1 / 2 ∧ down % 2 = 0 then down else down + 1

/-- The double nearest to `q`. -/
def nearest (q : Rat) : Rat :=
  if q = 0 then 0
  else
    let ulp := max (leadingBit q - 52) (-1074)
    scale (roundTies (scale q (-ulp))) ulp

/-- `x * y`. -/
def mul (x y : Rat) : Rat := nearest (x * y)

/-- `x.round() as u64`: half away from zero, then saturated. -/
def roundToU64 (x : Rat) : UInt64 :=
  let n := (x + 1 / 2).floor
  if n ≤ 0 then 0 else if n < 2 ^ 64 then UInt64.ofNat n.toNat else UInt64.ofNat (2 ^ 64 - 1)

/-- The value of digits, a point and digits, an exponent. -/
def decimalValue (text : Bytes) : Rat :=
  let (neg, text) := match text with
    | 45 :: text => (true, text)
    | text => (false, text)
  let whole := text.takeWhile isDigit
  let (frac, text) := match text.dropWhile isDigit with
    | 46 :: text => (text.takeWhile isDigit, text.dropWhile isDigit)
    | text => ([], text)
  let exp : Int := match text with
    | _ :: 45 :: ds => -(digitsVal ds : Int)
    | _ :: 43 :: ds => digitsVal ds
    | _ :: ds => digitsVal ds
    | [] => 0
  let e := exp - frac.length
  let digits : Rat := (digitsVal (whole ++ frac) : Rat)
  let value := if 0 ≤ e then digits * 10 ^ e.toNat else digits / 10 ^ (-e).toNat
  if neg then -value else value

/-- An `f64` field: any number that is not out of range. -/
def read : Value → Option Rat
  | .int n => some (nearest n)
  | .float text =>
    let x := nearest (decimalValue text)
    if x < 2 ^ 1024 ∧ -2 ^ 1024 < x then some x else none
  | _ => none

example : roundToU64 (mul (nearest (decimalValue (utf8 "0.00100001"))) 100000000) = 100001 := by
  decide +kernel

end F64
