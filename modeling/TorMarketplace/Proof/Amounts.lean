import TorMarketplace.Background.PaymentPoller
import TorMarketplace.Lib.Numeral

/-!
# The amounts of escrow payments

What `parse_btc_amount_safe` and `parse_xmr_amount_safe` make of a text, against the numeral that the
text spells. Both split the text and read each part as a `u64`, for which a part that cannot be read
counts as zero; so a text that is no numeral can be read as a positive amount, and a numeral as a
smaller one (`btc_amount_iff`, `xmr_amount_iff`). And on which texts they panic, which ends the pass of
the payment poller, and with it the worker (`amounts_end_pass_iff`).
-/

namespace TorMarketplace

open Encoding Interleave Numeral Prog

/-! ## Arithmetic of the release build -/

/-- `u64::MAX`. -/
def maxU64 : Nat := 2 ^ 64 - 1

theorem satMulU64_toNat (a b : UInt64) : (satMulU64 a b).toNat = min maxU64 (a.toNat * b.toNat) := by
  unfold satMulU64 maxU64
  split
  · rw [UInt64.toNat_mul, Nat.mod_eq_of_lt (by assumption)]
    omega
  · rw [UInt64.toNat_ofNat_of_lt' (by decide)]
    omega

theorem satAddU64_toNat (a b : UInt64) : (satAddU64 a b).toNat = min maxU64 (a.toNat + b.toNat) := by
  unfold satAddU64 maxU64
  split
  · rw [UInt64.toNat_add, Nat.mod_eq_of_lt (by assumption)]
    omega
  · rw [UInt64.toNat_ofNat_of_lt' (by decide)]
    omega

theorem toNat_le_max (a : UInt64) : a.toNat ≤ maxU64 := Nat.le_sub_one_of_lt a.toNat_lt

theorem satoshi_toNat : UInt64.toNat 100000000 = 10 ^ 8 := by decide

/-- The amount if it is not below the least payment. -/
def dust (sats : Nat) : Nat := if sats < 546 then 0 else sats

theorem aboveMin_toNat (a : UInt64) : (aboveMin a).toNat = dust a.toNat := by
  have hmin : a < minPaymentSats ↔ a.toNat < 546 := UInt64.lt_iff_toNat_lt
  unfold aboveMin dust
  by_cases h : a.toNat < 546
  · rw [if_pos (hmin.mpr h), if_pos h]
    rfl
  · rw [if_neg (mt hmin.mp h), if_neg h]

theorem pow_ten_mod_ne_zero : ∀ k < 64, 10 ^ k % 2 ^ 64 ≠ 0 := by decide

theorem pow_ten_mod_eq_zero {k : Nat} : 10 ^ k % 2 ^ 64 = 0 ↔ 64 ≤ k := by
  constructor
  · intro h
    by_contra hk
    exact pow_ten_mod_ne_zero k (Nat.not_le.mp hk) h
  · intro h
    obtain ⟨j, rfl⟩ := Nat.exists_eq_add_of_le h
    rw [pow_add, Nat.mul_mod, show 10 ^ 64 % 2 ^ 64 = 0 from by decide, Nat.zero_mul, Nat.zero_mod]

/-- Powers of ten wrap around. -/
theorem pow10Wrapping_toNat (k : Nat) : (pow10Wrapping k).toNat = 10 ^ k % 2 ^ 64 := by
  unfold pow10Wrapping pow10
  split
  · rename_i h
    rw [pow_ten_mod_eq_zero.mpr h]
    rfl
  · exact UInt64.toNat_ofNat'

theorem pow_ten_mod_of_le {k : Nat} (h : k ≤ 19) : 10 ^ k % 2 ^ 64 = 10 ^ k :=
  Nat.mod_eq_of_lt (Nat.lt_of_le_of_lt (Nat.pow_le_pow_right (by decide) h) (by decide))

/-! ## Slices -/

/-- Byte `n` of the text is inside a character. -/
def Splits (l : List Char) (n : Nat) : Prop := n < byteLen l ∧ ∀ p, p <+: l → byteLen p ≠ n

theorem byteSlice_eq_some {l p : List Char} {n : Nat} (h : n ≤ byteLen l) :
    byteSlice l n = some p ↔ p <+: l ∧ byteLen p = n := by
  unfold byteSlice byteLen at *
  constructor
  · intro hp
    obtain ⟨t, ht, rfl⟩ := Option.map_eq_some_iff.mp hp
    have hbytes := utf8_ofUtf8 ht
    have hpre : utf8 t <+: utf8 (String.ofList l) := hbytes ▸ List.take_prefix n _
    refine ⟨by simpa using utf8_prefix hpre, ?_⟩
    rw [String.ofList_toList, hbytes, List.length_take, Nat.min_eq_left h]
  · rintro ⟨⟨r, rfl⟩, hn⟩
    have happend : utf8 (String.ofList (p ++ r)) = utf8 (String.ofList p) ++ utf8 (String.ofList r) := by
      rw [String.ofList_append, utf8_append]
    rw [happend, ← hn, List.take_left, ofUtf8_utf8, Option.map_some, String.toList_ofList]

theorem byteSlice_eq_none {l : List Char} {n : Nat} (h : n < byteLen l) :
    byteSlice l n = none ↔ Splits l n := by
  rw [Option.eq_none_iff_forall_not_mem]
  constructor
  · exact fun hno => ⟨h, fun p hp hn => hno p ((byteSlice_eq_some h.le).mpr ⟨hp, hn⟩)⟩
  · rintro ⟨_, hno⟩ p hp
    obtain ⟨hpre, hn⟩ := (byteSlice_eq_some h.le).mp hp
    exact hno p hpre hn

/-- The first `n` bytes of a text, with zeros for those that are missing. -/
def leading (n : Nat) (l : List Char) : Option (List Char) :=
  if byteLen l ≤ n then some (l ++ List.replicate (n - byteLen l) '0') else byteSlice l n

theorem leading_eq_none {n : Nat} {l : List Char} : leading n l = none ↔ Splits l n := by
  unfold leading
  split
  · rename_i h
    simp [Splits, Nat.not_lt.mpr h]
  · rename_i h
    exact byteSlice_eq_none (Nat.not_le.mp h)

theorem byteLen_digits {l : List Char} (h : l.all Char.isDigit = true) : byteLen l = l.length := by
  rw [byteLen, utf8_ascii fun c hc => toNat_of_isDigit (List.all_eq_true.mp h c hc), List.length_map]

theorem leading_digits {l : List Char} (h : l.all Char.isDigit = true) (n : Nat) :
    leading n l = some (firstPlaces n l) := by
  unfold leading firstPlaces
  rw [byteLen_digits h]
  split
  · rename_i hle
    rw [List.take_of_length_le hle]
  · rename_i hgt
    have htake : (l.take n).all Char.isDigit = true :=
      List.all_eq_true.mpr fun c hc => List.all_eq_true.mp h c (List.mem_of_mem_take hc)
    rw [Nat.sub_eq_zero_of_le (by omega), List.replicate_zero, List.append_nil]
    refine (byteSlice_eq_some (byteLen_digits h ▸ by omega)).mpr ⟨List.take_prefix n l, ?_⟩
    rw [byteLen_digits htake, List.length_take]
    omega

/-! ## Parts that are read -/

/-- What a part counts for: zero, if it is no `u64`. -/
def partValue (l : List Char) : Nat := (readU64 l).getD 0

theorem parseOrZero_toNat (l : List Char) : (parseOrZero l).toNat = partValue l := by
  unfold parseOrZero partValue
  rw [← parseU64_ofList]
  cases parseU64 (String.ofList l) <;> rfl

theorem unsigned_digits {l : List Char} (h : l.all Char.isDigit = true) : unsigned l = l := by
  unfold unsigned
  split
  · rename_i ds
    exact absurd h (by simp [show Char.isDigit '+' = false from rfl])
  · rfl

theorem readU64_digits {l : List Char} (h : l.all Char.isDigit = true) (hne : l ≠ []) :
    readU64 l = if value l < 2 ^ 64 then some (value l) else none := by
  unfold readU64
  simp only [unsigned_digits h, h, hne, ne_eq, not_false_eq_true, true_and]

/-- A whole part of digits, be it none at all. -/
theorem partValue_digits {l : List Char} (h : l.all Char.isDigit = true) :
    partValue l = if value l < 2 ^ 64 then value l else 0 := by
  unfold partValue
  by_cases hne : l = []
  · subst hne
    decide
  · rw [readU64_digits h hne]
    split <;> rfl

theorem partValue_places {l : List Char} (h : l.all Char.isDigit = true) {n : Nat}
    (hn : 10 ^ n < 2 ^ 64) : partValue (firstPlaces n l) = value (firstPlaces n l) := by
  have hlt := value_lt (firstPlaces_digits h n)
  rw [firstPlaces_length] at hlt
  rw [partValue_digits (firstPlaces_digits h n), if_pos (hlt.trans hn)]

/-! ## Bitcoin amounts -/

/-- The satoshi that a text denotes: rounded half up, at most `u64::MAX`, and no dust. -/
def btcAmount (s : String) : Nat :=
  match readDecimal (trim s.toList) with
  | some d => dust (min maxU64 ⌊d.val * 10 ^ 8 + 1 / 2⌋₊)
  | none => 0

/-- The ninth place rounds up. -/
def roundsUp (frac : List Char) : Bool := 8 < byteLen frac && '5' ≤ frac[8]?.getD '0'

theorem paddedFraction_eq (frac : List Char) : paddedFraction frac =
    (leading 8 frac).map fun first8 =>
      if roundsUp frac then format08 (satAddU64 (parseOrZero first8) 1) else first8 := by
  unfold paddedFraction leading roundsUp
  rcases Nat.lt_trichotomy (byteLen frac) 8 with h | h | h
  · simp [h, h.le, Nat.not_lt.mpr h.le]
  · simp [h]
  · simp [h, Nat.not_lt.mpr h.le, Nat.not_le.mpr h]

theorem value_toDigits (n : Nat) : value (Nat.toDigits 10 n) = n := by
  have hdigits : (Nat.toDigits 10 n).all Char.isDigit = true :=
    List.all_eq_true.mpr fun c hc => Nat.isDigit_of_mem_toDigits (by decide) (by decide) hc
  rw [← digitsVal_utf8 hdigits,
    utf8_ascii fun c hc => toNat_of_isDigit (List.all_eq_true.mp hdigits c hc)]
  exact digitsVal_decimal n

theorem format08_partValue (n : UInt64) : partValue (format08 n) = n.toNat := by
  have hdigits : (format08 n).all Char.isDigit = true := by
    refine List.all_eq_true.mpr fun c hc => ?_
    rcases List.mem_append.mp hc with hc | hc
    · rw [List.eq_of_mem_replicate hc]
      rfl
    · exact Nat.isDigit_of_mem_toDigits (by decide) (by decide) hc
  have hvalue : value (format08 n) = n.toNat := by
    rw [format08, value_append, value_zeros, value_toDigits]
    omega
  rw [partValue_digits hdigits, hvalue, if_pos n.toNat_lt]

/-- What reads as a number is not longer than its text. -/
theorem partValue_lt (l : List Char) : partValue l < 10 ^ byteLen l := by
  unfold partValue readU64
  split
  · rename_i h
    have hlen : (unsigned l).length ≤ byteLen l := by
      rw [← byteLen_digits h.2.1, byteLen, byteLen, ← utf8_unsigned]
      unfold unsignedBytes
      split <;> simp [*]
    exact (value_lt h.2.1).trans_le (Nat.pow_le_pow_right (by decide) hlen)
  · exact Nat.pow_pos (by decide)

theorem leading_length {n : Nat} {l p : List Char} (h : leading n l = some p) : byteLen p = n := by
  unfold leading at h
  split at h
  · rename_i hle
    obtain rfl := Option.some.inj h
    have hzeros : byteLen (List.replicate (n - byteLen l) '0') = n - byteLen l := by
      rw [byteLen_digits (List.all_eq_true.mpr fun c hc => by rw [List.eq_of_mem_replicate hc]; rfl),
        List.length_replicate]
    have happend : byteLen (l ++ List.replicate (n - byteLen l) '0') =
        byteLen l + byteLen (List.replicate (n - byteLen l) '0') := by
      rw [byteLen, String.ofList_append, utf8_append, List.length_append]
      rfl
    omega
  · rename_i hgt
    exact ((byteSlice_eq_some (by omega)).mp h).2

/-- The number of satoshi that the fraction counts for. -/
theorem padded_partValue {frac first8 : List Char} (h : leading 8 frac = some first8) :
    partValue (if roundsUp frac then format08 (satAddU64 (parseOrZero first8) 1) else first8) =
      partValue first8 + if roundsUp frac then 1 else 0 := by
  split
  · have hlt := partValue_lt first8
    rw [leading_length h] at hlt
    rw [format08_partValue, satAddU64_toNat, parseOrZero_toNat]
    exact Nat.min_eq_right (by rw [maxU64]; exact Nat.succ_le_of_lt (by omega))
  · rfl

/-- What `parse_btc_amount_safe` computes. -/
theorem parseBtcAmountSafe_toNat (s : String) : (parseBtcAmountSafe s).map UInt64.toNat =
    match splitOn (· = '.') (trim s.toList) with
    | [whole] => some (dust (min maxU64 (partValue whole * 10 ^ 8)))
    | [whole, frac] => (leading 8 frac).map fun first8 =>
        dust (min maxU64 (partValue whole * 10 ^ 8 + partValue first8 + if roundsUp frac then 1 else 0))
    | _ => some 0 := by
  by_cases hempty : s.toList = []
  · simp [parseBtcAmountSafe, hempty, trim, splitOn, partValue, readU64, unsigned, dust]
  unfold parseBtcAmountSafe
  rw [if_neg hempty]
  generalize trim s.toList = t
  by_cases hpoint : t.contains '.' = true
  · simp only [hpoint, if_true]
    rcases hsplit : splitOn (fun c => decide (c = '.')) t with _ | ⟨whole, _ | ⟨frac, _ | ⟨x, rest⟩⟩⟩
    · rfl
    · obtain ⟨rfl, hwhole⟩ := splitOn_eq_singleton.mp hsplit
      exact absurd (hwhole '.' (List.contains_iff_mem.mp hpoint)) (by simp)
    · simp only [paddedFraction_eq, Option.map_map]
      cases hfirst : leading 8 frac with
      | none => rw [Option.map_none, Option.map_none]
      | some first8 =>
        have hadd : min maxU64 (min maxU64 (partValue whole * 10 ^ 8) + (partValue first8 +
              if roundsUp frac then 1 else 0)) =
            min maxU64 (partValue whole * 10 ^ 8 + partValue first8 +
              if roundsUp frac then 1 else 0) := by omega
        rw [Option.map_some, Option.map_some, Function.comp_apply, Function.comp_apply,
          aboveMin_toNat, satAddU64_toNat, satMulU64_toNat, satoshi_toNat, parseOrZero_toNat,
          parseOrZero_toNat, padded_partValue hfirst, hadd]
    · rfl
  · have hsplit : splitOn (fun c => decide (c = '.')) t = [t] :=
      splitOn_single fun c hc => decide_eq_false fun h => hpoint (List.contains_iff_mem.mpr (h ▸ hc))
    rw [hsplit]
    simp only [hpoint]
    have hpart := parseOrZero_toNat t
    unfold parseOrZero at hpart
    cases hparse : parseU64 (String.ofList t) with
    | none =>
      rw [hparse] at hpart
      simp [← hpart, dust]
    | some v =>
      rw [hparse, Option.getD_some] at hpart
      simp only [Bool.false_eq_true, if_false, ← hpart, Option.map_some, aboveMin_toNat,
        satMulU64_toNat, satoshi_toNat]

/-- A text that is misread: a numeral whose whole part is taken for zero, or no numeral, and not taken
for zero. -/
inductive BtcMisread (t : List Char) : Prop
  /-- The whole part of a numeral is no `u64`. -/
  | overlong (d : Decimal) (hd : readDecimal t = some d) (hwhole : 2 ^ 64 ≤ value d.whole)
  /-- What stands before the point reads as a positive number, as after a `+`. -/
  | whole (whole : List Char) (rest : List (List Char)) (hno : readDecimal t = none)
      (hsplit : splitOn (· = '.') t = whole :: rest) (hrest : rest.length ≤ 1)
      (hpos : 0 < partValue whole)
  /-- The ninth byte of the fraction is inside a character. -/
  | splits (whole frac : List Char) (hsplit : splitOn (· = '.') t = [whole, frac])
      (hbyte : Splits frac 8)
  /-- The first eight bytes of the fraction, filled up with zeros, read as the least payment or more. -/
  | frac (whole frac first8 : List Char) (hno : readDecimal t = none)
      (hsplit : splitOn (· = '.') t = [whole, frac]) (hfirst : leading 8 frac = some first8)
      (hmin : 546 ≤ partValue first8 + if roundsUp frac then 1 else 0)

theorem dust_eq_zero {n : Nat} : dust n = 0 ↔ n < 546 := by
  unfold dust
  split <;> omega

theorem dust_le (n : Nat) : dust n ≤ n := by
  unfold dust
  split <;> omega

theorem dust_maxU64 : dust maxU64 = maxU64 := by decide

/-- The pieces of a numeral. -/
theorem readDecimal_pieces {t : List Char} {d : Decimal} (h : readDecimal t = some d) :
    splitOn (· = '.') t = [d.whole] ∧ d.frac = [] ∨ splitOn (· = '.') t = [d.whole, d.frac] := by
  rcases readDecimal_eq_some.mp h with ⟨rfl, hfrac⟩ | rfl
  · exact .inl ⟨splitOn_single (not_point_of_digits d.whole_digits), hfrac⟩
  · rw [splitOn_cons (not_point_of_digits d.whole_digits) (by simp),
      splitOn_single (not_point_of_digits d.frac_digits)]
    exact .inr rfl

theorem roundsUp_digits {l : List Char} (h : l.all Char.isDigit = true) :
    roundsUp l = decide ('5' ≤ l[8]?.getD '0') := by
  unfold roundsUp
  rw [byteLen_digits h]
  by_cases hlen : 8 < l.length
  · simp [hlen]
  · rw [List.getElem?_eq_none (Nat.not_lt.mp hlen), decide_eq_false hlen]
    decide

/-- A numeral is read right up to its whole part. -/
theorem parseBtcAmountSafe_numeral {s : String} {d : Decimal}
    (h : readDecimal (trim s.toList) = some d) : (parseBtcAmountSafe s).map UInt64.toNat =
      some (dust (min maxU64 (partValue d.whole * 10 ^ 8 + value (firstPlaces 8 d.frac) +
        if '5' ≤ d.frac[8]?.getD '0' then 1 else 0))) := by
  rw [parseBtcAmountSafe_toNat]
  rcases readDecimal_pieces h with ⟨hsplit, hfrac⟩ | hsplit
  · have hzeros : value (firstPlaces 8 []) = 0 := value_zeros 8
    rw [hsplit, hfrac, hzeros]
    simp [show ¬ '5' ≤ '0' by decide]
  · rw [hsplit]
    simp only [leading_digits d.frac_digits, Option.map_some, roundsUp_digits d.frac_digits,
      decide_eq_true_eq, partValue_places d.frac_digits (show 10 ^ 8 < 2 ^ 64 by decide)]

theorem btcAmount_numeral {s : String} {d : Decimal} (h : readDecimal (trim s.toList) = some d) :
    btcAmount s = dust (min maxU64 (value d.whole * 10 ^ 8 + value (firstPlaces 8 d.frac) +
      if '5' ≤ d.frac[8]?.getD '0' then 1 else 0)) := by
  simp only [btcAmount, h, d.round_scale 8, d.scaled_eq 8]

/-- **Which amounts of bitcoin are read right.** -/
theorem btc_amount_iff (s : String) :
    (parseBtcAmountSafe s).map UInt64.toNat = some (btcAmount s) ↔
      ¬ BtcMisread (trim s.toList) := by
  cases hd : readDecimal (trim s.toList) with
  | some d =>
    rw [parseBtcAmountSafe_numeral hd, btcAmount_numeral hd, partValue_digits d.whole_digits]
    have hfrac := value_lt (firstPlaces_digits d.frac_digits 8)
    rw [firstPlaces_length] at hfrac
    by_cases hwhole : value d.whole < 2 ^ 64
    · rw [if_pos hwhole]
      refine iff_of_true rfl ?_
      rintro (⟨d', hd', hover⟩ | ⟨_, _, hno⟩ | ⟨whole, frac, hsplit, hbyte⟩ | ⟨_, _, _, hno⟩)
      · obtain rfl := Option.some.inj (hd.symm.trans hd')
        exact absurd hwhole (Nat.not_lt.mpr hover)
      · exact absurd (hd.symm.trans hno) (by simp)
      · rcases readDecimal_pieces hd with ⟨hpieces, _⟩ | hpieces
        · exact absurd (hpieces.symm.trans hsplit) (by simp)
        · obtain ⟨rfl, rfl⟩ : d.whole = whole ∧ d.frac = frac := by
            simpa using hpieces.symm.trans hsplit
          exact absurd (leading_eq_none.mpr hbyte) (by simp [leading_digits d.frac_digits])
      · exact absurd (hd.symm.trans hno) (by simp)
    · -- the number of satoshi is beyond what the fraction alone can be
      rw [if_neg hwhole]
      refine iff_of_false ?_ fun h => h (.overlong d hd (Nat.not_lt.mp hwhole))
      have hmax : maxU64 < value d.whole * 10 ^ 8 := by
        unfold maxU64
        omega
      intro heq
      have hcarry : (if '5' ≤ d.frac[8]?.getD '0' then 1 else 0) ≤ 1 := by split <;> omega
      have hread := (dust_le _).trans (Nat.min_le_right maxU64 (0 * 10 ^ 8 +
        value (firstPlaces 8 d.frac) + if '5' ≤ d.frac[8]?.getD '0' then 1 else 0))
      rw [Option.some.inj heq, Nat.min_eq_left
        (Nat.le_add_right_of_le (Nat.le_add_right_of_le hmax.le)), dust_maxU64, maxU64] at hread
      omega
  | none =>
    have hspec : btcAmount s = 0 := by simp only [btcAmount, hd]
    have hzero : ∀ n, some (dust (min maxU64 n)) = some 0 ↔ n < 546 := fun n => by
      rw [Option.some_inj, dust_eq_zero, maxU64]
      omega
    rw [parseBtcAmountSafe_toNat, hspec]
    constructor
    · rintro h (⟨d, hd', _⟩ | ⟨whole, rest, _, hsplit, hrest, hpos⟩ | ⟨whole, frac, hsplit, hbyte⟩ |
        ⟨whole, frac, first8, _, hsplit, hfirst, hmin⟩)
      · exact absurd (hd.symm.trans hd') (by simp)
      · rw [hsplit] at h
        rcases rest with _ | ⟨frac, _ | ⟨_, _⟩⟩
        · have := (hzero _).mp h
          omega
        · obtain ⟨first8, hfirst, h⟩ := Option.map_eq_some_iff.mp h
          have := (hzero _).mp (congrArg some h)
          omega
        · exact absurd hrest (by simp)
      · simp only [hsplit, leading_eq_none.mpr hbyte] at h
        exact absurd h (by simp)
      · simp only [hsplit, hfirst, Option.map_some] at h
        have := (hzero _).mp h
        omega
    · intro h
      rcases hsplit : splitOn (fun c => decide (c = '.')) (trim s.toList) with
        _ | ⟨whole, _ | ⟨frac, _ | ⟨x, rest⟩⟩⟩
      · rfl
      · have hwhole : ¬ 0 < partValue whole := fun hpos =>
          h (.whole whole [] hd hsplit (by simp) hpos)
        exact (hzero _).mpr (by omega)
      · have hwhole : ¬ 0 < partValue whole := fun hpos =>
          h (.whole whole [frac] hd hsplit (by simp) hpos)
        cases hfirst : leading 8 frac with
        | none => exact absurd (.splits whole frac hsplit (leading_eq_none.mp hfirst)) h
        | some first8 =>
          have hmin : ¬ 546 ≤ partValue first8 + if roundsUp frac then 1 else 0 := fun hmin =>
            h (.frac whole frac first8 hd hsplit hfirst hmin)
          simp only [hfirst, Option.map_some]
          exact (hzero _).mpr (by omega)
      · rfl

/-- A group of digits before a comma is dropped. -/
theorem comma_misread : (parseBtcAmountSafe "1,000.5").map UInt64.toNat = some 50000000 ∧
    btcAmount "1,000.5" = 0 := by
  decide +kernel

/-! ## Monero amounts -/

/-- The piconero that a text denotes, whole ones, at most `u64::MAX`. -/
def xmrAmount (s : String) : Nat :=
  match readScientific (trim s.toList) with
  | some x => min maxU64 ⌊x.val * 10 ^ 12⌋₊
  | none => 0

/-- What `parse_decimal_string_to_int` reads, before it is capped. -/
def partsValue (l : List Char) : Option Nat :=
  match splitOn (· = '.') l with
  | [whole] => some (partValue whole * 10 ^ 12)
  | [whole, frac] => (leading 12 frac).map fun first12 =>
      partValue whole * 10 ^ 12 + partValue first12
  | _ => some 0

theorem piconero_toNat : (pow10 12).toNat = 10 ^ 12 := by decide

theorem parseDecimalStringToInt_toNat (l : List Char) :
    (parseDecimalStringToInt l 12).map UInt64.toNat = (partsValue l).map (min maxU64) := by
  unfold parseDecimalStringToInt partsValue
  rcases splitOn (fun c => decide (c = '.')) l with _ | ⟨whole, _ | ⟨frac, _ | ⟨x, rest⟩⟩⟩
  · rfl
  · simp only [Option.map_some, satMulU64_toNat, parseOrZero_toNat, piconero_toNat]
  · have hfrac : (if byteLen frac < 12 then
          some (parseOrZero (frac ++ List.replicate (12 - byteLen frac) '0'))
        else if byteLen frac > 12 then (byteSlice frac 12).map parseOrZero
        else some (parseOrZero frac)) = (leading 12 frac).map parseOrZero := by
      unfold leading
      rcases Nat.lt_trichotomy (byteLen frac) 12 with h | h | h
      · simp [h, h.le]
      · simp [h]
      · simp [h, Nat.not_lt.mpr h.le, Nat.not_le.mpr h]
    simp only [hfrac]
    cases leading 12 frac with
    | none => rw [Option.map_none, Option.map_none, Option.map_none, Option.map_none, Option.map_none]
    | some first12 =>
      have hadd : min maxU64 (min maxU64 (partValue whole * 10 ^ 12) + partValue first12) =
          min maxU64 (partValue whole * 10 ^ 12 + partValue first12) := by omega
      rw [Option.map_some, Option.map_some, Option.map_some, Option.map_some, Option.map_some,
        satAddU64_toNat, satMulU64_toNat, parseOrZero_toNat, parseOrZero_toNat, piconero_toNat, hadd]
  · rfl

/-- Integers of 32 bits. -/
def IsI32 (e : Int) : Prop := -2 ^ 31 ≤ e ∧ e < 2 ^ 31

instance (e : Int) : Decidable (IsI32 e) := inferInstanceAs (Decidable (_ ∧ _))

theorem parseI32_sign (l : List Char) : parseI32 l =
    let value : Int := digitsVal (utf8 (String.ofList (sign l).2))
    let value := if (sign l).1 then -value else value
    if (sign l).2 ≠ [] ∧ (utf8 (String.ofList (sign l).2)).all isDigit ∧ -2 ^ 31 ≤ value ∧ value < 2 ^ 31
    then some value
    else none := rfl

theorem parseI32_eq (l : List Char) : parseI32 l = (readInt l).filter fun e => IsI32 e := by
  rw [parseI32_sign, readInt]
  simp only [all_isDigit_utf8]
  by_cases hdigits : (sign l).2.all Char.isDigit = true
  · simp only [digitsVal_utf8 hdigits, hdigits, true_and, and_true]
    by_cases hne : (sign l).2 = []
    · simp [hne]
    · simp only [hne, ne_eq, not_false_eq_true, true_and, if_true, Option.filter, decide_eq_true_eq]
      rfl
  · simp [hdigits]

/-- The exponent that the text after the first `e` or `E` counts for. -/
def exponentValue (l : List Char) : Int := (parseI32 l).getD 0

/-- The mantissa, scaled by what the release build makes of the power of ten. -/
def scale (mantissa : Nat) (exponent : Int) : Option Nat :=
  if 0 ≤ exponent then some (min maxU64 (mantissa * (10 ^ exponent.natAbs % 2 ^ 64)))
  else if 64 ≤ exponent.natAbs then none
  else some (mantissa / (10 ^ exponent.natAbs % 2 ^ 64))

/-- What `parse_xmr_amount_safe` computes. -/
theorem parseXmrAmountSafe_toNat (s : String) : (parseXmrAmountSafe s).map UInt64.toNat =
    match splitOn (fun c => c = 'e' || c = 'E') (trim s.toList) with
    | [] => some 0
    | [mantissa] => (partsValue mantissa).map (min maxU64)
    | mantissa :: exponent :: _ =>
      (partsValue mantissa).bind fun m => scale (min maxU64 m) (exponentValue exponent) := by
  by_cases hempty : s.toList = []
  · simp [parseXmrAmountSafe, hempty, trim, splitOn, partsValue, partValue, readU64, unsigned]
  unfold parseXmrAmountSafe
  rw [if_neg hempty]
  generalize trim s.toList = t
  by_cases hexp : (t.contains 'e' || t.contains 'E') = true
  · simp only [hexp, if_true]
    rcases hsplit : splitOn (fun c => decide (c = 'e') || decide (c = 'E')) t with
      _ | ⟨mantissa, _ | ⟨exponent, rest⟩⟩
    · exact absurd hsplit (splitOn_ne_nil _ _)
    · obtain ⟨rfl, hno⟩ := splitOn_eq_singleton.mp hsplit
      rcases Bool.or_eq_true_iff.mp hexp with hmem | hmem
      · exact absurd (hno 'e' (List.contains_iff_mem.mp hmem)) (by simp)
      · exact absurd (hno 'E' (List.contains_iff_mem.mp hmem)) (by simp)
    · have hparts := parseDecimalStringToInt_toNat mantissa
      simp only [List.headD_cons, List.getElem?_cons_succ, List.getElem?_cons_zero, Option.getD_some]
      cases hm : parseDecimalStringToInt mantissa 12 with
      | none =>
        rw [hm] at hparts
        rw [Option.map_eq_none_iff.mp hparts.symm, Option.bind_none, Option.map_none]
      | some m =>
        rw [hm, Option.map_some] at hparts
        obtain ⟨parts, hparts, hcap⟩ := Option.map_eq_some_iff.mp hparts.symm
        simp only [hparts, Option.bind_some, hcap, scale, exponentValue]
        split
        · rename_i hpos
          have habs : ((parseI32 exponent).getD 0).toNat = ((parseI32 exponent).getD 0).natAbs := by omega
          rw [Option.map_some, satMulU64_toNat, pow10Wrapping_toNat, habs]
        · rename_i hneg
          have hdivisor : pow10Wrapping ((parseI32 exponent).getD 0).natAbs = 0 ↔
              64 ≤ ((parseI32 exponent).getD 0).natAbs := by
            rw [← pow_ten_mod_eq_zero, ← pow10Wrapping_toNat, ← UInt64.toNat_inj]
            rfl
          simp only [hdivisor]
          split
          · rfl
          · rw [Option.map_some, UInt64.toNat_div, pow10Wrapping_toNat]
  · have hno : ∀ c ∈ t, (decide (c = 'e') || decide (c = 'E')) = false := by
      intro c hc
      by_contra h
      rw [Bool.not_eq_false] at h
      refine hexp (Bool.or_eq_true_iff.mpr ?_)
      rcases Bool.or_eq_true_iff.mp h with h | h
      · exact .inl (List.contains_iff_mem.mpr (of_decide_eq_true h ▸ hc))
      · exact .inr (List.contains_iff_mem.mpr (of_decide_eq_true h ▸ hc))
    rw [splitOn_single hno]
    simp only [hexp, Bool.false_eq_true, if_false]
    exact parseDecimalStringToInt_toNat t

/-- What the mantissa of a numeral counts for: without its whole part, if that is no `u64`. -/
def mantissaRead (d : Decimal) : Nat :=
  if value d.whole < 2 ^ 64 then d.scaled 12 else d.scaled 12 % 10 ^ 12

/-- What the power of ten counts for: it wraps around, and an exponent that is no `i32` counts for
zero. -/
def powerRead (exponent : Int) : Nat :=
  if IsI32 exponent then 10 ^ exponent.natAbs % 2 ^ 64 else 1

/-- The digits between the twelfth place and the one that the exponent makes the twelfth are zeros. -/
def NoDigitsLost (d : Decimal) (k : Nat) : Prop := value (firstPlaces k (d.frac.drop 12)) = 0

/-- A numeral with an exponent whose amount comes out right. -/
def ExponentRead (d : Decimal) (exponent : Int) : Prop :=
  let k := exponent.natAbs
  if 0 ≤ exponent then
    maxU64 ≤ mantissaRead d * powerRead exponent ∨
      value d.whole < 2 ^ 64 ∧ NoDigitsLost d k ∧ (d.scaled 12 = 0 ∨ k ≤ 19)
  else
    value d.whole < 2 ^ 64 ∧ d.scaled 12 ≤ maxU64 ∧ k ≤ 19 ∨
      (IsI32 exponent → k < 64) ∧
        min maxU64 (mantissaRead d) / powerRead exponent = min maxU64 (d.scaled 12 / 10 ^ k)

theorem partsValue_numeral {l : List Char} {d : Decimal} (h : readDecimal l = some d) :
    partsValue l = some (mantissaRead d) := by
  have hplaces := partValue_places d.frac_digits (show 10 ^ 12 < 2 ^ 64 by decide)
  have hread : partValue d.whole * 10 ^ 12 + value (firstPlaces 12 d.frac) = mantissaRead d := by
    have hfrac := value_lt (firstPlaces_digits d.frac_digits 12)
    rw [firstPlaces_length] at hfrac
    rw [partValue_digits d.whole_digits, mantissaRead, d.scaled_eq]
    split
    · rfl
    · rw [Nat.mul_add_mod_of_lt hfrac, Nat.zero_mul, Nat.zero_add]
  unfold partsValue
  rcases readDecimal_pieces h with ⟨hsplit, hfrac⟩ | hsplit
  · have hzeros : value (firstPlaces 12 []) = 0 := value_zeros 12
    rw [hsplit, ← hread, hfrac, hzeros, Nat.add_zero]
  · rw [hsplit, ← hread, ← hplaces]
    simp only [leading_digits d.frac_digits, Option.map_some]

theorem powerRead_le (e : Int) : powerRead e ≤ 10 ^ e.natAbs := by
  unfold powerRead
  split
  · exact Nat.mod_le _ _
  · exact Nat.pow_pos (by decide)

theorem mantissaRead_le (d : Decimal) : mantissaRead d ≤ d.scaled 12 := by
  unfold mantissaRead
  split
  · exact Nat.le_refl _
  · exact Nat.mod_le _ _

/-- What the code scales by. -/
theorem scale_exponent (m : Nat) (e : Int) : scale m (if IsI32 e then e else 0) =
    if 0 ≤ e then some (min maxU64 (m * powerRead e))
    else if IsI32 e ∧ 64 ≤ e.natAbs then none
    else if IsI32 e then some (m / powerRead e)
    else some (min maxU64 m) := by
  unfold scale powerRead
  by_cases hrange : IsI32 e
  · simp only [hrange, if_true, true_and]
  · simp only [hrange, if_false, false_and]
    simp

theorem min_min_mul {m p : Nat} (hp : 0 < p) :
    min maxU64 (min maxU64 m * p) = min maxU64 (m * p) := by
  rcases Nat.le_total m maxU64 with h | h
  · rw [Nat.min_eq_right h]
  · have hmul : maxU64 ≤ maxU64 * p := Nat.le_mul_of_pos_right _ hp
    rw [Nat.min_eq_left h, Nat.min_eq_left hmul,
      Nat.min_eq_left (hmul.trans (Nat.mul_le_mul_right p h))]

theorem powerRead_lt (e : Int) : powerRead e < 2 ^ 64 := by
  unfold powerRead
  split
  · exact Nat.mod_lt _ (by decide)
  · decide

theorem powerRead_of_le {e : Int} (h : e.natAbs ≤ 19) : powerRead e = 10 ^ e.natAbs := by
  have hrange : IsI32 e := by
    unfold IsI32
    omega
  rw [powerRead, if_pos hrange, pow_ten_mod_of_le h]

theorem le_of_pow_ten_lt {k : Nat} (h : 10 ^ k < 2 ^ 64) : k ≤ 19 := by
  by_contra hk
  have : 10 ^ 20 ≤ 10 ^ k := Nat.pow_le_pow_right (by decide) (by omega)
  omega

/-- A mantissa whose whole part does not fit is beyond every amount. -/
theorem maxU64_lt_scaled {d : Decimal} (h : ¬ value d.whole < 2 ^ 64) : maxU64 < d.scaled 12 := by
  rw [d.scaled_eq, maxU64]
  omega

/-- **Multiplying by a power of ten.** -/
theorem scaleUp_iff (d : Decimal) (e : Int) :
    min maxU64 (min maxU64 (mantissaRead d) * powerRead e) =
        min maxU64 (d.scaled (12 + e.natAbs)) ↔
      maxU64 ≤ mantissaRead d * powerRead e ∨
        value d.whole < 2 ^ 64 ∧ NoDigitsLost d e.natAbs ∧ (d.scaled 12 = 0 ∨ e.natAbs ≤ 19) := by
  have hmax : 0 < maxU64 := by decide
  have hsplit := d.scaled_add 12 e.natAbs
  have hpow : d.scaled 12 ≤ d.scaled 12 * 10 ^ e.natAbs :=
    Nat.le_mul_of_pos_right _ (Nat.pow_pos (by decide))
  have hread : mantissaRead d * powerRead e ≤ d.scaled 12 * 10 ^ e.natAbs :=
    Nat.mul_le_mul (mantissaRead_le d) (powerRead_le e)
  unfold NoDigitsLost
  constructor
  · intro h
    rcases Nat.lt_or_ge (mantissaRead d * powerRead e) maxU64 with hlt | hge
    · right
      -- nothing is capped, so the products are equal
      have hprod : min maxU64 (min maxU64 (mantissaRead d) * powerRead e) =
          mantissaRead d * powerRead e := by
        rcases Nat.eq_zero_or_pos (powerRead e) with hp | hp
        · rw [hp, Nat.mul_zero, Nat.mul_zero, Nat.min_eq_right hmax.le]
        · rw [min_min_mul hp, Nat.min_eq_right hlt.le]
      rw [hprod] at h
      have heq : d.scaled (12 + e.natAbs) = mantissaRead d * powerRead e := by omega
      have hwhole : value d.whole < 2 ^ 64 := by
        by_contra hno
        have := maxU64_lt_scaled hno
        omega
      have hmantissa : mantissaRead d = d.scaled 12 := if_pos hwhole
      rw [hmantissa] at heq hread
      have hfactor : d.scaled 12 * 10 ^ e.natAbs = d.scaled 12 * powerRead e := by omega
      refine ⟨hwhole, by omega, ?_⟩
      rcases Nat.eq_zero_or_pos (d.scaled 12) with h0 | hpos
      · exact .inl h0
      · refine .inr (le_of_pow_ten_lt ?_)
        rw [Nat.eq_of_mul_eq_mul_left hpos hfactor]
        exact powerRead_lt e
    · exact .inl hge
  · rintro (hbig | ⟨hwhole, hlost, h0 | hk⟩)
    · have hp : 0 < powerRead e := Nat.pos_of_ne_zero fun h0 => by
        rw [h0, Nat.mul_zero] at hbig
        omega
      rw [min_min_mul hp, Nat.min_eq_left hbig, Nat.min_eq_left (by omega)]
    · have hmantissa : mantissaRead d = 0 := Nat.le_zero.mp (h0 ▸ mantissaRead_le d)
      rw [hmantissa, hsplit, hlost, h0]
      simp
    · have hmantissa : mantissaRead d = d.scaled 12 := if_pos hwhole
      have hp := powerRead_of_le hk
      rw [hmantissa, hp, min_min_mul (Nat.pow_pos (by decide)), hsplit, hlost, Nat.add_zero]

/-- **Dividing by a power of ten.** -/
theorem quotient_eq {d : Decimal} {e : Int} (hwhole : value d.whole < 2 ^ 64)
    (hmax : d.scaled 12 ≤ maxU64) (hk : e.natAbs ≤ 19) :
    min maxU64 (mantissaRead d) / powerRead e = min maxU64 (d.scaled 12 / 10 ^ e.natAbs) := by
  have hmantissa : mantissaRead d = d.scaled 12 := if_pos hwhole
  rw [hmantissa, powerRead_of_le hk, Nat.min_eq_right hmax,
    Nat.min_eq_right ((Nat.div_le_self _ _).trans hmax)]

/-- **Which numerals with an exponent are read right.** -/
theorem scale_numeral_iff (d : Decimal) (e : Int) :
    scale (min maxU64 (mantissaRead d)) (if IsI32 e then e else 0) =
      some (min maxU64 ⌊(Scientific.mk d e).val * 10 ^ 12⌋₊) ↔ ExponentRead d e := by
  rw [scale_exponent, ExponentRead]
  by_cases he : 0 ≤ e
  · simp only [he, if_true, Option.some_inj]
    rw [Scientific.floor_scale_of_nonneg ⟨d, e⟩ he 12, scaleUp_iff]
  · have hfloor := Scientific.floor_scale_of_neg ⟨d, e⟩ (Int.not_le.mp he) 12
    simp only [he, if_false, hfloor]
    have hall : (value d.whole < 2 ^ 64 ∧ d.scaled 12 ≤ maxU64 ∧ e.natAbs ≤ 19 ∨
        (IsI32 e → e.natAbs < 64) ∧
          min maxU64 (mantissaRead d) / powerRead e = min maxU64 (d.scaled 12 / 10 ^ e.natAbs)) ↔
        (IsI32 e → e.natAbs < 64) ∧
          min maxU64 (mantissaRead d) / powerRead e = min maxU64 (d.scaled 12 / 10 ^ e.natAbs) :=
      or_iff_right_of_imp fun ⟨hwhole, hmax, hk⟩ => ⟨fun _ => by omega, quotient_eq hwhole hmax hk⟩
    rw [hall]
    by_cases hrange : IsI32 e
    · by_cases hk : 64 ≤ e.natAbs
      · simp [hrange, hk, Nat.not_lt.mpr hk]
      · simp [hrange, hk, Nat.not_le.mp hk]
    · have hp : powerRead e = 1 := if_neg hrange
      simp [hrange, hp, Nat.div_one]

/-- The exponent that the pieces after the mantissa count for. -/
def exponentOf : List (List Char) → Int
  | exponent :: _ => exponentValue exponent
  | [] => 0

/-- A text that is misread: a numeral whose amount comes out wrong, or no numeral, and not taken for
zero. The pieces are those between the letters `e` and `E`. -/
inductive XmrMisread (t : List Char) : Prop
  /-- The whole part of a numeral without exponent is no `u64`. -/
  | overlong (d : Decimal) (hd : readDecimal t = some d) (hwhole : 2 ^ 64 ≤ value d.whole)
  /-- The mantissa is cut off, or capped, before it is scaled, or the power of ten wraps around. -/
  | scaled (mantissa exponent : List Char) (d : Decimal) (e : Int)
      (hsplit : splitOn (fun c => c = 'e' || c = 'E') t = [mantissa, exponent])
      (hd : readDecimal mantissa = some d) (he : readInt exponent = some e)
      (hread : ¬ ExponentRead d e)
  /-- The thirteenth byte of the fraction is inside a character. -/
  | splits (mantissa whole frac : List Char) (rest : List (List Char))
      (hsplit : splitOn (fun c => c = 'e' || c = 'E') t = mantissa :: rest)
      (hm : splitOn (· = '.') mantissa = [whole, frac]) (hbyte : Splits frac 12)
  /-- The divisor is zero. -/
  | divides (mantissa : List Char) (rest : List (List Char))
      (hsplit : splitOn (fun c => c = 'e' || c = 'E') t = mantissa :: rest)
      (he : exponentOf rest ≤ -64)
  /-- A part of the mantissa reads as positive, and is multiplied. -/
  | positive (mantissa : List Char) (rest : List (List Char)) (m : Nat)
      (hno : readScientific t = none)
      (hsplit : splitOn (fun c => c = 'e' || c = 'E') t = mantissa :: rest)
      (hm : partsValue mantissa = some m) (hpos : 0 < m)
      (he : 0 ≤ exponentOf rest ∧ exponentOf rest < 64)
  /-- A part of the mantissa reads as positive, and is not less than the divisor. -/
  | quotient (mantissa : List Char) (rest : List (List Char)) (m : Nat)
      (hno : readScientific t = none)
      (hsplit : splitOn (fun c => c = 'e' || c = 'E') t = mantissa :: rest)
      (hm : partsValue mantissa = some m) (he : -64 < exponentOf rest ∧ exponentOf rest < 0)
      (hle : 10 ^ (exponentOf rest).natAbs % 2 ^ 64 ≤ min maxU64 m)

theorem scale_zero (m : Nat) : scale (min maxU64 m) 0 = some (min maxU64 m) := by
  unfold scale
  simp

theorem parseXmrAmountSafe_pieces {s : String} {mantissa : List Char} {rest : List (List Char)}
    (h : splitOn (fun c => c = 'e' || c = 'E') (trim s.toList) = mantissa :: rest) :
    (parseXmrAmountSafe s).map UInt64.toNat =
      (partsValue mantissa).bind fun m => scale (min maxU64 m) (exponentOf rest) := by
  rw [parseXmrAmountSafe_toNat, h]
  cases rest with
  | nil =>
    simp only [exponentOf, scale_zero]
    cases partsValue mantissa <;> rfl
  | cons exponent rest => rfl

theorem partsValue_eq_none {l : List Char} : partsValue l = none ↔
    ∃ whole frac, splitOn (· = '.') l = [whole, frac] ∧ Splits frac 12 := by
  unfold partsValue
  rcases splitOn (fun c => decide (c = '.')) l with _ | ⟨whole, _ | ⟨frac, _ | ⟨x, rest⟩⟩⟩
  · simp
  · simp
  · simp [← leading_eq_none]
  · simp

theorem scale_eq_none {m : Nat} {e : Int} : scale m e = none ↔ e ≤ -64 := by
  unfold scale
  split
  · exact iff_of_false (by simp) (by omega)
  · split
    · exact iff_of_true rfl (by omega)
    · exact iff_of_false (by simp) (by omega)

theorem scale_eq_zero {m : Nat} {e : Int} : scale m e = some 0 ↔
    (0 ≤ e ∧ (m = 0 ∨ 64 ≤ e)) ∨ (e < 0 ∧ -64 < e ∧ m < 10 ^ e.natAbs % 2 ^ 64) := by
  have hmax : maxU64 ≠ 0 := by decide
  unfold scale
  split
  · rename_i he
    have hfactor : 10 ^ e.natAbs % 2 ^ 64 = 0 ↔ 64 ≤ e := pow_ten_mod_eq_zero.trans (by omega)
    rw [Option.some_inj, Nat.min_eq_zero_iff, Nat.mul_eq_zero, hfactor]
    simp [hmax, he, Int.not_lt.mpr he]
  · rename_i he
    split
    · exact iff_of_false (by simp) (by omega)
    · have hfactor : 10 ^ e.natAbs % 2 ^ 64 ≠ 0 := pow_ten_mod_ne_zero _ (by omega)
      rw [Option.some_inj, Nat.div_eq_zero_iff, or_iff_right hfactor]
      constructor
      · exact fun hlt => .inr ⟨by omega, by omega, hlt⟩
      · rintro (⟨h0, _⟩ | ⟨_, _, hlt⟩)
        · exact absurd h0 he
        · exact hlt

theorem exponentValue_readInt {l : List Char} {e : Int} (h : readInt l = some e) :
    exponentValue l = if IsI32 e then e else 0 := by
  rw [exponentValue, parseI32_eq, h, Option.filter]
  by_cases hrange : IsI32 e
  · simp [hrange]
  · simp [hrange]

/-- A numeral without an exponent. -/
theorem readScientific_single {t mantissa : List Char}
    (h : splitOn (fun c => c = 'e' || c = 'E') t = [mantissa]) :
    t = mantissa ∧ readScientific t = (readDecimal t).map (⟨·, 0⟩) := by
  obtain ⟨rfl, hno⟩ := splitOn_eq_singleton.mp h
  refine ⟨rfl, ?_⟩
  rw [readScientific, h]

/-- A numeral has no byte inside a character. -/
theorem not_splits_numeral {mantissa whole frac : List Char} {d : Decimal}
    (hd : readDecimal mantissa = some d) (hm : splitOn (· = '.') mantissa = [whole, frac]) :
    ¬ Splits frac 12 := by
  intro hbyte
  have hnone : partsValue mantissa = none := partsValue_eq_none.mpr ⟨whole, frac, hm, hbyte⟩
  exact absurd (hnone.symm.trans (partsValue_numeral hd)) (by simp)

/-- The amount of a numeral without an exponent is wrong exactly if its whole part is. -/
theorem plain_numeral_iff (d : Decimal) :
    some (min maxU64 (mantissaRead d)) =
      some (min maxU64 ⌊(Scientific.mk d 0).val * 10 ^ 12⌋₊) ↔ value d.whole < 2 ^ 64 := by
  have hfloor : ⌊(Scientific.mk d 0).val * 10 ^ 12⌋₊ = d.scaled 12 :=
    Scientific.floor_scale_of_nonneg ⟨d, 0⟩ (Int.le_refl 0) 12
  rw [Option.some_inj, hfloor]
  constructor
  · intro h
    by_contra hwhole
    have hread : mantissaRead d = d.scaled 12 % 10 ^ 12 := if_neg hwhole
    have hlt : d.scaled 12 % 10 ^ 12 < 10 ^ 12 := Nat.mod_lt _ (by decide)
    rw [hread, Nat.min_eq_left (maxU64_lt_scaled hwhole).le, maxU64] at h
    omega
  · intro hwhole
    have hread : mantissaRead d = d.scaled 12 := if_pos hwhole
    rw [hread]

/-- A numeral without an exponent has no letter. -/
theorem splitOn_letter_decimal {t : List Char} {d : Decimal} (h : readDecimal t = some d) :
    splitOn (fun c => c = 'e' || c = 'E') t = [t] := by
  have hplace : ∀ c ∈ d.whole ++ d.frac, (decide (c = 'e') || decide (c = 'E')) = false := by
    intro c hc
    have hdigit := List.all_eq_true.mp d.digits c hc
    refine Bool.eq_false_iff.mpr fun hletter => ?_
    rcases Bool.or_eq_true_iff.mp hletter with hl | hl
    · exact absurd (of_decide_eq_true hl ▸ hdigit) (by decide)
    · exact absurd (of_decide_eq_true hl ▸ hdigit) (by decide)
  refine splitOn_single fun c hc => ?_
  rcases readDecimal_eq_some.mp h with ⟨rfl, _⟩ | rfl
  · exact hplace c (List.mem_append_left _ hc)
  · rcases List.mem_append.mp hc with hc | hc
    · exact hplace c (List.mem_append_left _ hc)
    · rcases List.mem_cons.mp hc with rfl | hc
      · decide
      · exact hplace c (List.mem_append_right _ hc)

theorem misread_plain_iff {t : List Char} {d : Decimal}
    (hsplit : splitOn (fun c => c = 'e' || c = 'E') t = [t]) (hd : readDecimal t = some d) :
    XmrMisread t ↔ 2 ^ 64 ≤ value d.whole := by
  have hx : readScientific t = some ⟨d, 0⟩ := by rw [(readScientific_single hsplit).2, hd]; rfl
  refine ⟨?_, .overlong d hd⟩
  rintro (⟨d', hd', hwhole⟩ | ⟨_, _, _, _, hpieces, _⟩ | ⟨_, _, _, _, hpieces, hm, hbyte⟩ |
    ⟨_, _, hpieces, he⟩ | ⟨_, _, _, hno, _⟩ | ⟨_, _, _, hno, _⟩)
  · exact Option.some.inj (hd.symm.trans hd') ▸ hwhole
  · exact absurd (hsplit.symm.trans hpieces) (by simp)
  · obtain ⟨rfl, _⟩ := List.cons.inj (hsplit.symm.trans hpieces)
    exact absurd hbyte (not_splits_numeral hd hm)
  · obtain ⟨_, rfl⟩ := List.cons.inj (hsplit.symm.trans hpieces)
    exact absurd he (by decide)
  · exact absurd (hx.symm.trans hno) (by simp)
  · exact absurd (hx.symm.trans hno) (by simp)

theorem misread_scaled_iff {t mantissa exponent : List Char} {d : Decimal} {e : Int}
    (hsplit : splitOn (fun c => c = 'e' || c = 'E') t = [mantissa, exponent])
    (hd : readDecimal mantissa = some d) (he : readInt exponent = some e) :
    XmrMisread t ↔ ¬ ExponentRead d e := by
  have hx : readScientific t = some ⟨d, e⟩ := by rw [readScientific, hsplit]; simp [hd, he]
  refine ⟨?_, .scaled mantissa exponent d e hsplit hd he⟩
  rintro (⟨d', hd', _⟩ | ⟨_, _, _, _, hpieces, hd', he', hread⟩ | ⟨_, _, _, _, hpieces, hm, hbyte⟩ |
    ⟨_, _, hpieces, he'⟩ | ⟨_, _, _, hno, _⟩ | ⟨_, _, _, hno, _⟩)
  · exact absurd (hsplit.symm.trans (splitOn_letter_decimal hd')) (by simp)
  · obtain ⟨rfl, hrest⟩ := List.cons.inj (hsplit.symm.trans hpieces)
    obtain ⟨rfl, _⟩ := List.cons.inj hrest
    obtain rfl := Option.some.inj (hd.symm.trans hd')
    obtain rfl := Option.some.inj (he.symm.trans he')
    exact hread
  · obtain ⟨rfl, _⟩ := List.cons.inj (hsplit.symm.trans hpieces)
    exact absurd hbyte (not_splits_numeral hd hm)
  · obtain ⟨_, rfl⟩ := List.cons.inj (hsplit.symm.trans hpieces)
    rw [exponentOf, exponentValue_readInt he] at he'
    intro hread
    have hnone := (scale_eq_none (m := min maxU64 (mantissaRead d))).mpr he'
    exact absurd (hnone.symm.trans ((scale_numeral_iff d e).mpr hread)) (by simp)
  · exact absurd (hx.symm.trans hno) (by simp)
  · exact absurd (hx.symm.trans hno) (by simp)

/-- No numeral is taken for zero unless it is one of these. -/
theorem misread_other_iff {t mantissa : List Char} {rest : List (List Char)}
    (hsplit : splitOn (fun c => c = 'e' || c = 'E') t = mantissa :: rest)
    (hno : readScientific t = none) :
    XmrMisread t ↔
      ((partsValue mantissa).bind fun m => scale (min maxU64 m) (exponentOf rest)) ≠ some 0 := by
  have hmax : maxU64 ≠ 0 := by decide
  constructor
  · rintro (⟨d, hd, _⟩ | ⟨_, _, d, e, hpieces, hd, he, _⟩ | ⟨_, _, _, _, hpieces, hm, hbyte⟩ |
      ⟨_, _, hpieces, he⟩ | ⟨_, _, m, _, hpieces, hm, hpos, he⟩ | ⟨_, _, m, _, hpieces, hm, he, hle⟩)
    · rw [(readScientific_single (splitOn_letter_decimal hd)).2, hd] at hno
      exact absurd hno (by simp)
    · rw [readScientific, hpieces] at hno
      simp [hd, he] at hno
    all_goals obtain ⟨rfl, rfl⟩ := List.cons.inj (hsplit.symm.trans hpieces)
    · rw [partsValue_eq_none.mpr ⟨_, _, hm, hbyte⟩]
      simp
    · cases partsValue mantissa with
      | none => simp
      | some m =>
        rw [Option.bind_some, scale_eq_none.mpr he]
        simp
    · rw [hm, Option.bind_some, ne_eq, scale_eq_zero]
      omega
    · rw [hm, Option.bind_some, ne_eq, scale_eq_zero]
      omega
  · intro h
    cases hm : partsValue mantissa with
    | none =>
      obtain ⟨whole, frac, hpieces, hbyte⟩ := partsValue_eq_none.mp hm
      exact .splits mantissa whole frac rest hsplit hpieces hbyte
    | some m =>
      rw [hm, Option.bind_some, ne_eq, scale_eq_zero] at h
      by_cases hzero : exponentOf rest ≤ -64
      · exact .divides mantissa rest hsplit hzero
      by_cases he : 0 ≤ exponentOf rest
      · refine .positive mantissa rest m hno hsplit hm (Nat.pos_of_ne_zero fun h0 => ?_) ⟨he, ?_⟩
        · exact h (.inl ⟨he, .inl (by rw [h0]; exact Nat.min_zero _)⟩)
        · exact Int.not_le.mp fun h64 => h (.inl ⟨he, .inr h64⟩)
      · refine .quotient mantissa rest m hno hsplit hm ⟨by omega, by omega⟩ (Nat.not_lt.mp fun hlt => ?_)
        exact h (.inr ⟨by omega, by omega, hlt⟩)

/-- The ninth byte of the fraction is inside a character. -/
def BtcPanics (s : String) : Prop :=
  ∃ whole frac, splitOn (· = '.') (trim s.toList) = [whole, frac] ∧ Splits frac 8

/-- The thirteenth byte of the mantissa's fraction is inside a character, or the divisor is a power of
ten that has wrapped around to zero. -/
def XmrPanics (s : String) : Prop :=
  ∃ mantissa rest, splitOn (fun c => c = 'e' || c = 'E') (trim s.toList) = mantissa :: rest ∧
    ((∃ whole frac, splitOn (· = '.') mantissa = [whole, frac] ∧ Splits frac 12) ∨
      exponentOf rest ≤ -64)

theorem parseBtcAmountSafe_eq_none (s : String) : parseBtcAmountSafe s = none ↔ BtcPanics s := by
  rw [← Option.map_eq_none_iff (f := UInt64.toNat), parseBtcAmountSafe_toNat, BtcPanics]
  rcases splitOn (fun c => decide (c = '.')) (trim s.toList) with
    _ | ⟨whole, _ | ⟨frac, _ | ⟨x, rest⟩⟩⟩
  · simp
  · simp
  · simp [← leading_eq_none]
  · simp

theorem parseXmrAmountSafe_eq_none (s : String) : parseXmrAmountSafe s = none ↔ XmrPanics s := by
  rw [← Option.map_eq_none_iff (f := UInt64.toNat), XmrPanics]
  cases hpieces : splitOn (fun c => c = 'e' || c = 'E') (trim s.toList) with
  | nil => exact absurd hpieces (splitOn_ne_nil _ _)
  | cons mantissa rest =>
    rw [parseXmrAmountSafe_pieces hpieces]
    constructor
    · intro h
      refine ⟨mantissa, rest, rfl, ?_⟩
      cases hm : partsValue mantissa with
      | none => exact .inl (partsValue_eq_none.mp hm)
      | some m =>
        rw [hm, Option.bind_some, scale_eq_none] at h
        exact .inr h
    · rintro ⟨_, _, heq, h⟩
      obtain ⟨rfl, rfl⟩ := List.cons.inj heq
      rcases h with h | h
      · rw [partsValue_eq_none.mpr h, Option.bind_none]
      · cases partsValue mantissa with
        | none => rfl
        | some m => rw [Option.bind_some, scale_eq_none.mpr h]

/-- The check of one order fails exactly if its amount makes the parser panic. -/
theorem spec_checkPayment {chain : Chain} {parseAmount : String → Option UInt64}
    {requiredConfirmations : UInt64} {st : AppState} {now : Int64} {rowId : Bytes} {data : OrderData}
    {past : Past} : Spec server.May (fun _ _ => True) (fun _ r => r = .ok () ↔
        (data.escrowAddress.isSome → parseAmount (data.escrowAmount.getD "0") ≠ none))
      past (checkPayment chain parseAmount requiredConfirmations st now rowId data) := by
  have hdone {x : Program Unit} {Good : Prop} (hgood : Good) {past : Past} :
      Spec server.May (fun _ _ => True) (fun _ r => r = .ok () ↔ Good) past
        ((attempt x : Program (Except Failure Unit)) >>= fun _ => pure ()) := by
    rw [spec_attempt_bind]
    exact spec_of_forall (fun _ _ => trivial) fun _ _ => iff_of_true rfl hgood
  unfold checkPayment
  cases data.escrowAddress with
  | none => simp
  | some addr =>
    rw [spec_orFail_bind]
    refine ⟨fun hnone => by simp [hnone], fun expected hsome => ?_⟩
    have hgood : (some addr).isSome = true → parseAmount (data.escrowAmount.getD "0") ≠ none := by
      simp [hsome]
    have hpure {past : Past} : Spec server.May (fun _ _ => True) (fun _ r => r = .ok () ↔
        ((some addr).isSome = true → parseAmount (data.escrowAmount.getD "0") ≠ none))
        past (pure () : Program Unit) := iff_of_true rfl hgood
    split
    · exact hpure
    · rw [spec_call_bind]
      refine ⟨trivial, fun status _ => ?_⟩
      split
      · exact hpure
      · split_ifs
        all_goals first | exact hpure | exact hdone hgood

/-- **The loop over the orders goes on to its end** exactly if no amount makes the parser panic. -/
theorem spec_checkPayments {chain : Chain} {parseAmount : String → Option UInt64}
    {requiredConfirmations : UInt64} {st : AppState} {now : Int64} {orders : List (Bytes × OrderData)}
    {past : Past} : Spec server.May (fun _ _ => True) (fun _ r => r = .ok () ↔ ∀ o ∈ orders,
        o.2.escrowAddress.isSome → parseAmount (o.2.escrowAmount.getD "0") ≠ none) past
      (forEach (fun o => checkPayment chain parseAmount requiredConfirmations st now o.1 o.2)
        orders) := by
  refine spec_forEach_done (fun done _ => ∀ o ∈ done,
    o.2.escrowAddress.isSome → parseAmount (o.2.escrowAmount.getD "0") ≠ none) ?_
    (fun _ hall => iff_of_true rfl hall) (fun _ h => absurd h List.not_mem_nil)
  intro done o rest past hsplit hdone
  refine spec_mono (fun _ _ h => h) (fun p r hr => ?_) spec_checkPayment
  cases r with
  | ok _ =>
    intro o' ho'
    rcases List.mem_append.mp ho' with ho' | ho'
    · exact hdone o' ho'
    · obtain rfl := List.mem_singleton.mp ho'
      exact hr.mp rfl
  | error e =>
    refine iff_of_false (by simp) fun hall => ?_
    exact absurd (hr.mpr (hall o (by simp [hsplit]))) (by simp)

/-- **Which amounts end the pass of the payment poller.** -/
theorem amounts_end_pass_iff (s : String) :
    (parseBtcAmountSafe s = none ↔ BtcPanics s) ∧
    (parseXmrAmountSafe s = none ↔ XmrPanics s) ∧
    (∀ st orders now past past' r,
      Yields server.May past (checkBtcPayments st orders now) past' r →
        (r = .ok () ↔ ∀ o ∈ orders, o.2.escrowAddress.isSome →
          ¬ BtcPanics (o.2.escrowAmount.getD "0"))) ∧
    ∀ st orders now past past' r,
      Yields server.May past (checkXmrPayments st orders now) past' r →
        (r = .ok () ↔ ∀ o ∈ orders, o.2.escrowAddress.isSome →
          ¬ XmrPanics (o.2.escrowAmount.getD "0")) := by
  refine ⟨parseBtcAmountSafe_eq_none s, parseXmrAmountSafe_eq_none s, ?_, ?_⟩
  · intro st orders now past past' r h
    simp only [← parseBtcAmountSafe_eq_none]
    exact spec_checkPayments.yields h
  · intro st orders now past past' r h
    simp only [← parseXmrAmountSafe_eq_none]
    exact spec_checkPayments.yields h

/-- A power of ten that has wrapped around, and a character of two bytes. -/
theorem amounts_panic : parseXmrAmountSafe "1e-64" = none ∧ parseBtcAmountSafe "0.1234567é" = none := by
  decide +kernel

namespace Sample

/-- A worker without a key, which the parser does not need. -/
def poller : AppState where
  prim := .ofTables {}
  serverSecret := ""
  defaultLockDays := 14
  network := "mainnet"
  feeAddressBtc := none
  adminKeypair := none
  workerKey := none

/-- A pending order of an amount that makes the parser panic. -/
def tinyAmount : OrderData :=
  { (default : OrderData) with
    state := "pending", currency := "XMR", escrowAddress := some "4", escrowAmount := some "1e-64" }

end Sample

open Sample in
theorem amounts_end_pass_sample : ∃ r,
    (∃ past', Yields server.May [] (checkXmrPayments poller [([], tinyAmount)] 0) past' r) ∧
      r ≠ .ok () := by
  have hnone : parseXmrAmountSafe "1e-64" = none := by decide +kernel
  have hrun : Yields server.May [] (checkXmrPayments poller [([], tinyAmount)] 0) []
      (.error (.worker "panic")) := by
    have hprog : checkXmrPayments poller [([], tinyAmount)] 0 = fail (.worker "panic") := by
      simp [checkXmrPayments, forEach, checkPayment, tinyAmount, hnone]
      rfl
    rw [hprog]
    exact .fail
  refine ⟨_, ⟨[], hrun⟩, fun hok => ?_⟩
  obtain ⟨-, hpanics, -, hpass⟩ := amounts_end_pass_iff "1e-64"
  have hgood := (hpass poller [([], tinyAmount)] 0 [] [] _ hrun).mp hok
  exact hgood ([], tinyAmount) List.mem_cons_self rfl (hpanics.mp hnone)

end TorMarketplace
