import TorMarketplace.Lib.Encoding

/-!
# Amounts of escrow payments

`parse_btc_amount_safe` and `parse_xmr_amount_safe` of `background/payment_poller.rs`, on the text a
client put into its order. `none` is a panic: a string slice that ends inside a character, or a
division by zero. Integer arithmetic is that of a release build, which wraps where it is not
saturating.
-/

namespace TorMarketplace

open Encoding

/-- `u64::saturating_mul`. -/
def satMulU64 (a b : UInt64) : UInt64 :=
  if a.toNat * b.toNat < 2 ^ 64 then a * b else UInt64.ofNat (2 ^ 64 - 1)

/-- `u64::saturating_add`. -/
def satAddU64 (a b : UInt64) : UInt64 :=
  if a.toNat + b.toNat < 2 ^ 64 then a + b else UInt64.ofNat (2 ^ 64 - 1)

/-- The Unicode property `White_Space`. -/
def isUnicodeSpace (c : Char) : Bool :=
  (9 ≤ c.toNat && c.toNat ≤ 13) || (0x2000 ≤ c.toNat && c.toNat ≤ 0x200A) ||
    [0x20, 0x85, 0xA0, 0x1680, 0x2028, 0x2029, 0x202F, 0x205F, 0x3000].contains c.toNat

/-- `str::trim`. -/
def trim (s : List Char) : List Char :=
  ((s.dropWhile isUnicodeSpace).reverse.dropWhile isUnicodeSpace).reverse

/-- `s.len()`: in bytes. -/
def byteLen (s : List Char) : Nat := (utf8 (String.ofList s)).length

/-- `&s[..n]`: a panic if byte `n` is inside a character. -/
def byteSlice (s : List Char) (n : Nat) : Option (List Char) :=
  (ofUtf8 ((utf8 (String.ofList s)).take n)).map String.toList

def parseOrZero (s : List Char) : UInt64 := (parseU64 (String.ofList s)).getD 0

/-- `format!("{:08}", n)`. -/
def format08 (n : UInt64) : List Char :=
  let digits := Nat.toDigits 10 n.toNat
  List.replicate (8 - digits.length) '0' ++ digits

/-- `MIN_PAYMENT_SATS`. -/
def minPaymentSats : UInt64 := 546

def aboveMin (sats : UInt64) : UInt64 := if sats < minPaymentSats then 0 else sats

/-- The eight digits after the point, rounded at the ninth. -/
def paddedFraction (frac : List Char) : Option (List Char) :=
  if byteLen frac < 8 then some (frac ++ List.replicate (8 - byteLen frac) '0')
  else if byteLen frac > 8 then
    (byteSlice frac 8).map fun first8 =>
      if (frac[8]?.getD '0') ≥ '5' then format08 (satAddU64 (parseOrZero first8) 1) else first8
  else some frac

def parseBtcAmountSafe (amount : String) : Option UInt64 :=
  if amount.toList = [] then some 0
  else
    let s := trim amount.toList
    if s.contains '.' then
      match splitOn (· = '.') s with
      | [whole, frac] => (paddedFraction frac).map fun padded =>
        aboveMin (satAddU64 (satMulU64 (parseOrZero whole) 100000000) (parseOrZero padded))
      | _ => some 0
    else
      match parseU64 (String.ofList s) with
      | some v => some (aboveMin (satMulU64 v 100000000))
      | none => some 0

/-- `10u64.pow(n)`. -/
def pow10 (n : Nat) : UInt64 := UInt64.ofNat (10 ^ n)

def parseDecimalStringToInt (s : List Char) (decimalPlaces : Nat) : Option UInt64 :=
  match splitOn (· = '.') s with
  | [whole] => some (satMulU64 (parseOrZero whole) (pow10 decimalPlaces))
  | [whole, frac] =>
    let fracU64 :=
      if byteLen frac < decimalPlaces then
        some (parseOrZero (frac ++ List.replicate (decimalPlaces - byteLen frac) '0'))
      else if byteLen frac > decimalPlaces then (byteSlice frac decimalPlaces).map parseOrZero
      else some (parseOrZero frac)
    fracU64.map fun f => satAddU64 (satMulU64 (parseOrZero whole) (pow10 decimalPlaces)) f
  | _ => some 0

/-- `s.parse::<i32>()`. -/
def parseI32 (s : List Char) : Option Int :=
  let (neg, digits) := match s with
    | '-' :: ds => (true, ds)
    | '+' :: ds => (false, ds)
    | ds => (false, ds)
  let value : Int := digitsVal (utf8 (String.ofList digits))
  let value := if neg then -value else value
  if digits ≠ [] ∧ (utf8 (String.ofList digits)).all isDigit ∧ -2 ^ 31 ≤ value ∧ value < 2 ^ 31
  then some value
  else none

/-- `10u64.pow(exponent as u32)`: the factor is zero from `10 ^ 64` on. -/
def pow10Wrapping (exponent : Nat) : UInt64 := if exponent ≥ 64 then 0 else pow10 exponent

def parseXmrAmountSafe (amount : String) : Option UInt64 :=
  if amount.toList = [] then some 0
  else
    let s := trim amount.toList
    if s.contains 'e' || s.contains 'E' then
      let parts := splitOn (fun c => c = 'e' || c = 'E') s
      match parseDecimalStringToInt (parts.headD []) 12 with
      | none => none
      | some mantissa =>
        let exponent := (parseI32 (parts[1]?.getD ['0'])).getD 0
        if exponent ≥ 0 then some (satMulU64 mantissa (pow10Wrapping exponent.toNat))
        else
          let divisor := pow10Wrapping exponent.natAbs
          if divisor = 0 then none else some (mantissa / divisor)
    else parseDecimalStringToInt s 12

end TorMarketplace
