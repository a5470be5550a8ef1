import Mathlib.Algebra.Order.Floor.Semifield
import Mathlib.Data.Rat.Floor
import Mathlib.Tactic.FieldSimp
import Mathlib.Tactic.Ring
import TorMarketplace.Lib.Encoding

/-!
# Decimal numerals

Numerals with a point (`Decimal`) and with an exponent (`Scientific`), and the rationals they denote.
A numeral carries the proof that it is made of digits; the readers accept exactly the spellings of
numerals.

Results:
* `Decimal.floor_scale`, `Decimal.round_scale`: what is left of a numeral that is cut off, or rounded,
  after so many places, as a digit string;
* `Decimal.scaled_add`: moving the point of what has been cut off, against cutting off what has been
  moved;
* `parseU64_ofList`: what an unsigned 64-bit reader makes of a text.
-/

namespace Numeral

open Encoding

/-! ## Digit strings -/

/-- The value of a string of digits. -/
def value (l : List Char) : Nat := l.foldl (fun acc c => 10 * acc + (c.toNat - 48)) 0

theorem foldl_value (l : List Char) (a : Nat) :
    l.foldl (fun acc c => 10 * acc + (c.toNat - 48)) a = a * 10 ^ l.length + value l := by
  unfold value
  induction l generalizing a with
  | nil => simp
  | cons c l ih =>
    rw [List.foldl_cons, List.foldl_cons, ih, ih (10 * 0 + (c.toNat - 48)), List.length_cons, pow_succ]
    ring

theorem value_append (l m : List Char) : value (l ++ m) = value l * 10 ^ m.length + value m := by
  rw [value, List.foldl_append, foldl_value]
  rfl

theorem value_cons (c : Char) (l : List Char) :
    value (c :: l) = (c.toNat - 48) * 10 ^ l.length + value l := by
  rw [← List.singleton_append, value_append]
  simp [value]

@[simp] theorem value_zeros (n : Nat) : value (List.replicate n '0') = 0 := by
  induction n with
  | zero => rfl
  | succ n ih => rw [List.replicate_succ, value_cons, ih]; simp

theorem digit_bounds {c : Char} (h : c.isDigit = true) : 48 ≤ c.toNat ∧ c.toNat ≤ 57 := by
  unfold Char.isDigit at h
  obtain ⟨hle, hge⟩ := Bool.and_eq_true_iff.mp h
  exact ⟨UInt32.le_iff_toNat_le.mp (of_decide_eq_true hle),
    UInt32.le_iff_toNat_le.mp (of_decide_eq_true hge)⟩

theorem value_lt {l : List Char} (h : l.all Char.isDigit = true) : value l < 10 ^ l.length := by
  induction l with
  | nil => simp [value]
  | cons c l ih =>
    obtain ⟨hc, hl⟩ := Bool.and_eq_true_iff.mp (List.all_cons ▸ h)
    have hdigit := digit_bounds hc
    have hrest := ih hl
    rw [value_cons, List.length_cons, pow_succ']
    calc (c.toNat - 48) * 10 ^ l.length + value l
        < (c.toNat - 48) * 10 ^ l.length + 10 ^ l.length := by omega
      _ = (c.toNat - 48 + 1) * 10 ^ l.length := by ring
      _ ≤ 10 * 10 ^ l.length := Nat.mul_le_mul_right _ (by omega)

/-- The first `n` digits, with zeros for those that are missing. -/
def firstPlaces (n : Nat) (l : List Char) : List Char :=
  l.take n ++ List.replicate (n - l.length) '0'

@[simp] theorem firstPlaces_length (n : Nat) (l : List Char) : (firstPlaces n l).length = n := by
  rw [firstPlaces, List.length_append, List.length_take, List.length_replicate]
  omega

theorem firstPlaces_digits {l : List Char} (h : l.all Char.isDigit = true) (n : Nat) :
    (firstPlaces n l).all Char.isDigit = true := by
  rw [firstPlaces, List.all_append, Bool.and_eq_true_iff]
  refine ⟨List.all_eq_true.mpr fun c hc => List.all_eq_true.mp h c (List.mem_of_mem_take hc), ?_⟩
  exact List.all_eq_true.mpr fun c hc => by rw [List.eq_of_mem_replicate hc]; rfl

theorem firstPlaces_add (m n : Nat) (l : List Char) :
    firstPlaces (m + n) l = firstPlaces m l ++ firstPlaces n (l.drop m) := by
  unfold firstPlaces
  rcases Nat.le_total l.length m with h | h
  · rw [List.take_of_length_le h, List.take_of_length_le (by omega), List.drop_eq_nil_of_le h,
      List.append_assoc, List.take_nil, List.nil_append, List.length_nil, Nat.sub_zero,
      ← List.replicate_add]
    congr 2
    omega
  · rw [Nat.sub_eq_zero_of_le h, List.replicate_zero, List.append_nil, List.take_add,
      List.append_assoc, List.length_drop]
    congr 3
    omega

/-- Digits after the point, rounded half up to a whole number. -/
theorem round_places {l : List Char} (h : l.all Char.isDigit = true) :
    ⌊(value l / 10 ^ l.length + 1 / 2 : ℚ)⌋₊ = if '5' ≤ l.head?.getD '0' then 1 else 0 := by
  cases l with
  | nil =>
    norm_num [value]
    decide
  | cons c l =>
    obtain ⟨hc, hl⟩ := Bool.and_eq_true_iff.mp (List.all_cons ▸ h)
    have hdigit := digit_bounds hc
    have hlt := value_lt hl
    have hpow : (0 : ℚ) < 10 ^ (c :: l).length := by positivity
    have hsplit : value (c :: l) = (c.toNat - 48) * 10 ^ l.length + value l := value_cons c l
    have hall : value (c :: l) < 10 * 10 ^ l.length := by
      have := value_lt h
      rwa [List.length_cons, pow_succ'] at this
    by_cases h5 : '5' ≤ c
    · -- from one half on
      have hfive : 53 ≤ c.toNat := UInt32.le_iff_toNat_le.mp h5
      have hge : 5 * 10 ^ l.length ≤ value (c :: l) := by
        rw [hsplit]
        exact Nat.le_add_right_of_le (Nat.mul_le_mul_right _ (by omega))
      have hle : (1 / 2 : ℚ) ≤ value (c :: l) / 10 ^ (c :: l).length := by
        rw [le_div_iff₀ hpow, List.length_cons, pow_succ']
        have : (5 * 10 ^ l.length : ℚ) ≤ value (c :: l) := by exact_mod_cast hge
        linarith
      have hlt' : (value (c :: l) / 10 ^ (c :: l).length : ℚ) < 1 := by
        rw [div_lt_one hpow]
        exact_mod_cast value_lt h
      rw [List.head?_cons, Option.getD_some, if_pos h5, Nat.floor_eq_iff (by positivity)]
      constructor <;> push_cast <;> linarith
    · have hfive : c.toNat < 53 := by
        by_contra hge
        exact h5 (UInt32.le_iff_toNat_le.mpr (Nat.not_lt.mp hge))
      have hsmall : value (c :: l) < 5 * 10 ^ l.length := by
        have : (c.toNat - 48) * 10 ^ l.length ≤ 4 * 10 ^ l.length := Nat.mul_le_mul_right _ (by omega)
        omega
      have hlt' : (value (c :: l) / 10 ^ (c :: l).length : ℚ) < 1 / 2 := by
        rw [div_lt_iff₀ hpow, List.length_cons, pow_succ']
        have : (value (c :: l) : ℚ) < 5 * 10 ^ l.length := by exact_mod_cast hsmall
        linarith
      rw [List.head?_cons, Option.getD_some, if_neg h5, Nat.floor_eq_zero]
      linarith

/-! ## Numerals -/

/-- Digits with at most one point, and at least one digit. -/
structure Decimal where
  whole : List Char
  frac : List Char
  digits : (whole ++ frac).all Char.isDigit = true
  nonempty : whole ++ frac ≠ []

namespace Decimal

variable (d : Decimal)

theorem whole_digits : d.whole.all Char.isDigit = true :=
  (Bool.and_eq_true_iff.mp (List.all_append ▸ d.digits)).1

theorem frac_digits : d.frac.all Char.isDigit = true :=
  (Bool.and_eq_true_iff.mp (List.all_append ▸ d.digits)).2

/-- The number that a numeral denotes. -/
def val : ℚ := value (d.whole ++ d.frac) / 10 ^ d.frac.length

/-- The numeral without its point, cut off after `n` places. -/
def scaled (n : Nat) : Nat := value (d.whole ++ firstPlaces n d.frac)

theorem scaled_eq (n : Nat) : d.scaled n = value d.whole * 10 ^ n + value (firstPlaces n d.frac) := by
  rw [scaled, value_append, firstPlaces_length]

/-- **Cutting off after `m` places and moving the point** by `n` leaves out the next `n` digits. -/
theorem scaled_add (m n : Nat) :
    d.scaled (m + n) = d.scaled m * 10 ^ n + value (firstPlaces n (d.frac.drop m)) := by
  rw [scaled, firstPlaces_add, ← List.append_assoc, value_append, firstPlaces_length, scaled]

/-- The digits that are cut off. -/
theorem val_scale (n : Nat) :
    d.val * 10 ^ n = d.scaled n + value (d.frac.drop n) / 10 ^ (d.frac.drop n).length := by
  unfold val scaled firstPlaces
  rcases Nat.le_total d.frac.length n with h | h
  · obtain ⟨k, rfl⟩ := Nat.exists_eq_add_of_le h
    rw [List.take_of_length_le h, List.drop_eq_nil_of_le h, Nat.add_sub_cancel_left,
      ← List.append_assoc, value_append (d.whole ++ d.frac), value_zeros, List.length_replicate, pow_add]
    push_cast
    simp only [value, List.foldl_nil, List.length_nil, Nat.cast_zero]
    field_simp
    ring
  · rw [Nat.sub_eq_zero_of_le h, List.replicate_zero, List.append_nil]
    have hsplit : value (d.whole ++ d.frac) =
        value (d.whole ++ d.frac.take n) * 10 ^ (d.frac.drop n).length + value (d.frac.drop n) := by
      rw [← value_append, List.append_assoc, List.take_append_drop]
    have hpow : (10 : ℚ) ^ d.frac.length = 10 ^ n * 10 ^ (d.frac.drop n).length := by
      rw [← pow_add, List.length_drop]
      congr 1
      omega
    rw [hsplit, hpow]
    push_cast
    field_simp

theorem drop_digits (n : Nat) : (d.frac.drop n).all Char.isDigit = true :=
  List.all_eq_true.mpr fun c hc => List.all_eq_true.mp d.frac_digits c (List.mem_of_mem_drop hc)

/-- **A numeral cut off after `n` places.** -/
theorem floor_scale (n : Nat) : ⌊d.val * 10 ^ n⌋₊ = d.scaled n := by
  have hlt : value (d.frac.drop n) < 10 ^ (d.frac.drop n).length := value_lt (d.drop_digits n)
  have hdiv : ⌊(value (d.frac.drop n) / 10 ^ (d.frac.drop n).length : ℚ)⌋₊ = 0 := by
    have := Nat.floor_div_eq_div (K := ℚ) (value (d.frac.drop n)) (10 ^ (d.frac.drop n).length)
    push_cast at this
    rw [this, Nat.div_eq_of_lt hlt]
  rw [val_scale, add_comm, Nat.floor_add_natCast (by positivity), hdiv, Nat.zero_add]

/-- **A numeral rounded half up after `n` places**: the next digit decides. -/
theorem round_scale (n : Nat) : ⌊d.val * 10 ^ n + 1 / 2⌋₊ =
    d.scaled n + if '5' ≤ d.frac[n]?.getD '0' then 1 else 0 := by
  rw [val_scale, add_assoc, add_comm, Nat.floor_add_natCast (by positivity),
    round_places (d.drop_digits n), List.head?_drop, Nat.add_comm]

end Decimal

/-- A decimal and a power of ten. -/
structure Scientific where
  mantissa : Decimal
  exponent : Int

namespace Scientific

def val (s : Scientific) : ℚ := s.mantissa.val * 10 ^ s.exponent

theorem floor_scale_of_nonneg (s : Scientific) (h : 0 ≤ s.exponent) (n : Nat) :
    ⌊s.val * 10 ^ n⌋₊ = s.mantissa.scaled (n + s.exponent.natAbs) := by
  have hexp : (10 : ℚ) ^ s.exponent = 10 ^ s.exponent.natAbs := by
    rw [← zpow_natCast, Int.natAbs_of_nonneg h]
  rw [val, hexp, mul_assoc, mul_comm (10 ^ s.exponent.natAbs), ← pow_add, Decimal.floor_scale]

theorem floor_scale_of_neg (s : Scientific) (h : s.exponent < 0) (n : Nat) :
    ⌊s.val * 10 ^ n⌋₊ = s.mantissa.scaled n / 10 ^ s.exponent.natAbs := by
  have hexp : (10 : ℚ) ^ s.exponent = (10 ^ s.exponent.natAbs)⁻¹ := by
    rw [← zpow_natCast, Int.ofNat_natAbs_of_nonpos h.le, zpow_neg, inv_inv]
  have hdiv : s.val * 10 ^ n = s.mantissa.val * 10 ^ n / ((10 ^ s.exponent.natAbs : ℕ) : ℚ) := by
    rw [val, hexp]
    push_cast
    ring
  rw [hdiv, Nat.floor_div_natCast, Decimal.floor_scale]

end Scientific

/-! ## Reading -/

/-- A decimal with these digits, if they are such. -/
def decimalOf (whole frac : List Char) : Option Decimal :=
  if h : (whole ++ frac).all Char.isDigit = true ∧ whole ++ frac ≠ [] then
    some ⟨whole, frac, h.1, h.2⟩
  else none

/-- The numeral that a text spells. -/
def readDecimal (l : List Char) : Option Decimal :=
  match splitOn (· = '.') l with
  | [whole] => decimalOf whole []
  | [whole, frac] => decimalOf whole frac
  | _ => none

theorem decimalOf_eq_some {whole frac : List Char} {d : Decimal} :
    decimalOf whole frac = some d ↔ d.whole = whole ∧ d.frac = frac := by
  unfold decimalOf
  constructor
  · intro h
    split at h
    · obtain rfl := Option.some.inj h
      exact ⟨rfl, rfl⟩
    · exact absurd h (by simp)
  · rintro ⟨rfl, rfl⟩
    rw [dif_pos ⟨d.digits, d.nonempty⟩]

theorem not_point_of_digits {l : List Char} (h : l.all Char.isDigit = true) :
    ∀ c ∈ l, decide (c = '.') = false := by
  intro c hc
  have hdigit := List.all_eq_true.mp h c hc
  refine decide_eq_false ?_
  rintro rfl
  exact absurd hdigit (by decide)

/-- **Exactly the spellings of a numeral are read as it.** -/
theorem readDecimal_eq_some {l : List Char} {d : Decimal} :
    readDecimal l = some d ↔ l = d.whole ∧ d.frac = [] ∨ l = d.whole ++ '.' :: d.frac := by
  unfold readDecimal
  constructor
  · intro h
    split at h
    · rename_i whole hsplit
      obtain ⟨rfl, hfrac⟩ := decimalOf_eq_some.mp h
      exact .inl ⟨(splitOn_eq_singleton.mp hsplit).1, hfrac⟩
    · rename_i whole frac hsplit
      obtain ⟨rfl, rfl⟩ := decimalOf_eq_some.mp h
      obtain ⟨_, _, c, hc, hl⟩ := splitOn_eq_pair.mp hsplit
      exact .inr (of_decide_eq_true hc ▸ hl)
    · exact absurd h (by simp)
  · have hwhole := not_point_of_digits d.whole_digits
    rintro (⟨rfl, hfrac⟩ | rfl)
    · rw [splitOn_single hwhole]
      exact decimalOf_eq_some.mpr ⟨rfl, hfrac⟩
    · rw [splitOn_cons hwhole (by simp), splitOn_single (not_point_of_digits d.frac_digits)]
      exact decimalOf_eq_some.mpr ⟨rfl, rfl⟩

/-- Whether there is a minus, and the text after the sign. -/
def sign : List Char → Bool × List Char
  | '-' :: ds => (true, ds)
  | '+' :: ds => (false, ds)
  | ds => (false, ds)

/-- An integer: digits after an optional sign. -/
def readInt (l : List Char) : Option Int :=
  if (sign l).2 ≠ [] ∧ (sign l).2.all Char.isDigit = true then
    some (if (sign l).1 then -(value (sign l).2 : Int) else value (sign l).2)
  else none

/-- A decimal, and after an `e` or `E` an integer. -/
def readScientific (l : List Char) : Option Scientific :=
  match splitOn (fun c => c = 'e' || c = 'E') l with
  | [mantissa] => (readDecimal mantissa).map (⟨·, 0⟩)
  | [mantissa, exponent] =>
    (readDecimal mantissa).bind fun d => (readInt exponent).map (⟨d, ·⟩)
  | _ => none

/-! ## Readers of machine integers -/

/-- A text without its sign. -/
def unsigned : List Char → List Char
  | '+' :: ds => ds
  | ds => ds

/-- What is read as an unsigned integer of 64 bits. -/
def readU64 (l : List Char) : Option Nat :=
  if unsigned l ≠ [] ∧ (unsigned l).all Char.isDigit = true ∧ value (unsigned l) < 2 ^ 64 then
    some (value (unsigned l))
  else none

theorem utf8EncodeChar_ascii {c : Char} (h : c.toNat < 128) :
    String.utf8EncodeChar c = [c.toNat.toUInt8] :=
  String.utf8EncodeChar_eq_singleton (Char.utf8Size_eq_one_iff.mpr (Nat.le_of_lt_succ h))

/-- A character beyond ASCII starts with a byte beyond ASCII. -/
theorem utf8EncodeChar_head {c : Char} (h : ¬ c.toNat < 128) :
    ∃ b bs, String.utf8EncodeChar c = b :: bs ∧ 128 ≤ b := by
  have hc0 : ∀ x : UInt8, 128 ≤ x ||| 0xc0 := forall_byte (by decide +kernel)
  have he0 : ∀ x : UInt8, 128 ≤ x ||| 0xe0 := forall_byte (by decide +kernel)
  have hf0 : ∀ x : UInt8, 128 ≤ x ||| 0xf0 := forall_byte (by decide +kernel)
  rcases Char.utf8Size_eq c with hsize | hsize | hsize | hsize
  · exact absurd (Nat.lt_succ_of_le (Char.utf8Size_eq_one_iff.mp hsize)) h
  · exact ⟨_, _, String.utf8EncodeChar_eq_cons_cons hsize, hc0 _⟩
  · exact ⟨_, _, String.utf8EncodeChar_eq_cons_cons_cons hsize, he0 _⟩
  · exact ⟨_, _, String.utf8EncodeChar_eq_cons_cons_cons_cons hsize, hf0 _⟩

theorem all_isDigit_utf8EncodeChar (c : Char) :
    (String.utf8EncodeChar c).all isDigit = c.isDigit := by
  by_cases h : c.toNat < 128
  · have hall : ∀ n : Fin 128, isDigit n.val.toUInt8 = (Char.ofNat n).isDigit := by decide
    rw [utf8EncodeChar_ascii h, List.all_cons, List.all_nil, Bool.and_true, hall ⟨c.toNat, h⟩,
      Char.ofNat_toNat]
  · obtain ⟨b, bs, hbytes, hb⟩ := utf8EncodeChar_head h
    have hno : isDigit b = false := by
      rw [isDigit, Bool.and_eq_false_iff]
      refine .inr (decide_eq_false fun h57 => absurd (UInt8.le_trans hb h57) (by decide))
    have hdigit : c.isDigit = false :=
      Bool.eq_false_iff.mpr fun hd => h (toNat_of_isDigit hd)
    rw [hbytes, List.all_cons, hno, hdigit, Bool.false_and]

theorem all_isDigit_utf8 (l : List Char) :
    (utf8 (String.ofList l)).all isDigit = l.all Char.isDigit := by
  rw [utf8_ofList, List.all_flatMap]
  exact congrArg l.all (funext all_isDigit_utf8EncodeChar)

theorem digitsVal_utf8 {l : List Char} (h : l.all Char.isDigit = true) :
    digitsVal (utf8 (String.ofList l)) = value l := by
  have hascii : ∀ c ∈ l, c.toNat < 128 := fun c hc => toNat_of_isDigit (List.all_eq_true.mp h c hc)
  rw [utf8_ascii hascii, digitsVal, List.foldl_map, value]
  refine List.foldl_ext _ _ _ fun acc c hc => ?_
  have hlt := hascii c hc
  simp [Nat.toUInt8, Nat.mod_eq_of_lt (show c.toNat < 256 by omega)]

theorem utf8_eq_nil {l : List Char} : utf8 (String.ofList l) = [] ↔ l = [] := by
  constructor
  · intro h
    have hempty : String.ofList l = "" := utf8_inj (h.trans rfl)
    simpa using congrArg String.toList hempty
  · rintro rfl
    rfl

/-- The bytes of a text without its sign. -/
def unsignedBytes : Bytes → Bytes
  | 43 :: ds => ds
  | ds => ds

theorem parseU64_eq (s : String) : parseU64 s =
    let digits := unsignedBytes (utf8 s)
    if digits ≠ [] ∧ digits.all isDigit ∧ digitsVal digits < 2 ^ 64 then
      some (UInt64.ofNat (digitsVal digits))
    else none := rfl

theorem utf8_unsigned (l : List Char) :
    unsignedBytes (utf8 (String.ofList l)) = utf8 (String.ofList (unsigned l)) := by
  cases l with
  | nil => rfl
  | cons c cs =>
    have hcons : utf8 (String.ofList (c :: cs)) =
        String.utf8EncodeChar c ++ utf8 (String.ofList cs) := by
      rw [utf8_ofList, utf8_ofList, List.flatMap_cons]
    by_cases hplus : c = '+'
    · subst hplus
      rw [hcons, utf8EncodeChar_ascii (by decide)]
      rfl
    · have hunsigned : unsigned (c :: cs) = c :: cs := by
        unfold unsigned
        split
        · rename_i ds heq
          exact absurd (List.cons.inj heq).1 hplus
        · rfl
      rw [hunsigned, unsignedBytes.eq_def]
      split
      · rename_i ds heq
        rw [hcons] at heq
        by_cases h : c.toNat < 128
        · rw [utf8EncodeChar_ascii h] at heq
          have hbyte := congrArg UInt8.toNat (List.cons.inj heq).1
          have hnat : c.toNat = 43 := by
            simpa [Nat.toUInt8, Nat.mod_eq_of_lt (show c.toNat < 256 by omega)] using hbyte
          refine absurd ?_ hplus
          rw [← Char.ofNat_toNat c, hnat]
        · obtain ⟨b, bs, hbytes, hb⟩ := utf8EncodeChar_head h
          rw [hbytes] at heq
          rw [(List.cons.inj heq).1] at hb
          exact absurd hb (by decide)
      · rfl

/-- **What `parse::<u64>` makes of a text.** -/
theorem parseU64_ofList (l : List Char) :
    (parseU64 (String.ofList l)).map UInt64.toNat = readU64 l := by
  simp only [parseU64_eq, readU64, utf8_unsigned, ne_eq, utf8_eq_nil, all_isDigit_utf8]
  by_cases hdigits : (unsigned l).all Char.isDigit = true
  · rw [digitsVal_utf8 hdigits]
    by_cases hlt : unsigned l ≠ [] ∧ value (unsigned l) < 2 ^ 64
    · rw [if_pos ⟨hlt.1, hdigits, hlt.2⟩, if_pos ⟨hlt.1, hdigits, hlt.2⟩, Option.map_some,
        UInt64.toNat_ofNat_of_lt' hlt.2]
    · rw [if_neg fun h => hlt ⟨h.1, h.2.2⟩, if_neg fun h => hlt ⟨h.1, h.2.2⟩, Option.map_none]
  · rw [if_neg fun h => hdigits h.2.1, if_neg fun h => hdigits h.2.1, Option.map_none]

end Numeral
