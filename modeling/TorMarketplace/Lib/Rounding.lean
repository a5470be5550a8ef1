import Mathlib.Algebra.Order.Field.Power
import Mathlib.Data.Rat.Floor
import Mathlib.Tactic.FieldSimp
import Mathlib.Tactic.Linarith
import TorMarketplace.Lib.F64

/-!
# The error of a double

`nearest q` is at most half a unit in the last place away from `q`: one part in `2 ^ 53`, unless `q` is
tiny. So a number of units that is divided by the size of a unit, rounded, multiplied again and rounded
again is found again by rounding to an integer (`roundToU64_mul_nearest`).
-/

namespace F64

open Json

theorem scale_eq (q : Rat) (e : Int) : scale q e = q * 2 ^ e := by
  unfold scale
  split
  · rename_i h
    obtain ⟨n, rfl⟩ := Int.eq_ofNat_of_zero_le h
    rw [Int.toNat_natCast, zpow_natCast]
  · rename_i h
    obtain ⟨n, hn⟩ := Int.eq_ofNat_of_zero_le (show 0 ≤ -e by omega)
    rw [show e = -(n : Int) by omega, neg_neg, Int.toNat_natCast, zpow_neg, zpow_natCast,
      div_eq_mul_inv]

theorem two_zpow_pos (e : Int) : (0 : Rat) < 2 ^ e := zpow_pos (by norm_num) e

/-- The logarithms of a fraction's parts place it up to one bit. -/
theorem log2_div {n d : Nat} (hn : n ≠ 0) (hd : d ≠ 0) :
    (2 : Rat) ^ ((Nat.log2 n : Int) - Nat.log2 d - 1) < n / d ∧
      (n : Rat) / d < 2 ^ ((Nat.log2 n : Int) - Nat.log2 d + 1) := by
  have hn0 : (2 : Rat) ^ n.log2 ≤ n := by exact_mod_cast Nat.log2_self_le hn
  have hn1 : (n : Rat) < 2 ^ (n.log2 + 1) := by exact_mod_cast Nat.lt_log2_self
  have hd0 : (2 : Rat) ^ d.log2 ≤ d := by exact_mod_cast Nat.log2_self_le hd
  have hd1 : (d : Rat) < 2 ^ (d.log2 + 1) := by exact_mod_cast Nat.lt_log2_self
  have hdpos : (0 : Rat) < d := by exact_mod_cast Nat.pos_of_ne_zero hd
  have two : (2 : Rat) ≠ 0 := two_ne_zero
  constructor
  · rw [lt_div_iff₀ hdpos]
    calc (2 : Rat) ^ ((n.log2 : Int) - d.log2 - 1) * d
        < 2 ^ ((n.log2 : Int) - d.log2 - 1) * 2 ^ (d.log2 + 1) :=
          mul_lt_mul_of_pos_left hd1 (two_zpow_pos _)
      _ = 2 ^ n.log2 := by
          rw [← zpow_natCast, ← zpow_natCast, ← zpow_add₀ two]
          congr 1
          push_cast
          ring
      _ ≤ n := hn0
  · rw [div_lt_iff₀ hdpos]
    calc (n : Rat) < 2 ^ (n.log2 + 1) := hn1
      _ = 2 ^ ((n.log2 : Int) - d.log2 + 1) * 2 ^ d.log2 := by
          rw [← zpow_natCast, ← zpow_natCast, ← zpow_add₀ two]
          congr 1
          push_cast
          ring
      _ ≤ 2 ^ ((n.log2 : Int) - d.log2 + 1) * d :=
          mul_le_mul_of_nonneg_left hd0 (two_zpow_pos _).le

/-- The leading bit is where `q` lies between the powers of two. -/
theorem leadingBit_spec {q : Rat} (h : 0 < q) :
    (2 : Rat) ^ leadingBit q ≤ q ∧ q < 2 ^ (leadingBit q + 1) := by
  have hnum : 0 < q.num := Rat.num_pos.mpr h
  have hcast : ((q.num.natAbs : Nat) : Rat) = q.num := by
    rw [← Int.cast_natCast, Int.natAbs_of_nonneg hnum.le]
  obtain ⟨hlow, hhigh⟩ := log2_div (n := q.num.natAbs) (by omega) q.den_nz
  rw [hcast, Rat.num_div_den] at hlow hhigh
  unfold leadingBit
  dsimp only
  rw [scale_eq, one_mul, if_pos h.le]
  split
  · rename_i hle
    exact ⟨hle, hhigh⟩
  · rename_i hlt
    rw [sub_add_cancel]
    exact ⟨hlow.le, not_le.mp hlt⟩

/-- The nearest integer is at most one half away. -/
theorem roundTies_sub_le (q : Rat) : |(roundTies q : Rat) - q| ≤ 1 / 2 := by
  have hle := Rat.floor_le q
  have hlt := Rat.lt_floor_add_one q
  push_cast at hlt
  unfold roundTies
  dsimp only
  rw [abs_le]
  split
  · rename_i h
    have : q - q.floor ≤ 1 / 2 := h.elim le_of_lt fun h => h.1.le
    constructor <;> linarith
  · rename_i h
    have : 1 / 2 ≤ q - q.floor := not_lt.mp fun hlt => h (.inl hlt)
    push_cast
    constructor <;> linarith

/-- An integer is its own nearest integer. -/
theorem roundTies_intCast (n : Int) : roundTies n = n := by
  unfold roundTies
  dsimp only
  rw [Rat.floor_intCast, sub_self, if_pos (.inl (by norm_num))]

/-- The error of a double: half a unit in the last place. -/
theorem nearest_sub_le_ulp {q : Rat} (h : q ≠ 0) :
    |nearest q - q| ≤ 2 ^ max (leadingBit q - 52) (-1074) / 2 := by
  unfold nearest
  rw [if_neg h]
  dsimp only
  set ulp := max (leadingBit q - 52) (-1074)
  have hpos := two_zpow_pos ulp
  have hround := roundTies_sub_le (scale q (-ulp))
  rw [scale_eq] at hround ⊢
  have : (roundTies (scale q (-ulp)) : Rat) * 2 ^ ulp - q =
      ((roundTies (scale q (-ulp)) : Rat) - q * 2 ^ (-ulp)) * 2 ^ ulp := by
    rw [sub_mul, mul_assoc, ← zpow_add₀ two_ne_zero, neg_add_cancel, zpow_zero, mul_one]
  rw [this, abs_mul, abs_of_pos hpos, scale_eq]
  linarith [mul_le_mul_of_nonneg_right hround hpos.le]

/-- Relative to a number that is not tiny, the error is one part in `2 ^ 53`. -/
theorem nearest_sub_le {q : Rat} (h : (2 : Rat) ^ (-1022 : Int) ≤ q) :
    |nearest q - q| ≤ q / 2 ^ 53 := by
  have hpos : 0 < q := lt_of_lt_of_le (two_zpow_pos _) h
  obtain ⟨hle, hlt⟩ := leadingBit_spec hpos
  have hbit : -1022 < leadingBit q + 1 :=
    (zpow_lt_zpow_iff_right₀ (by norm_num : (1 : Rat) < 2)).mp (lt_of_le_of_lt h hlt)
  have hmax : max (leadingBit q - 52) (-1074) = leadingBit q - 52 := max_eq_left (by omega)
  have herr := nearest_sub_le_ulp hpos.ne'
  rw [hmax, zpow_sub₀ two_ne_zero] at herr
  refine herr.trans ?_
  norm_num at hle ⊢
  linarith


/-- A double holds every natural number of at most 53 bits. -/
theorem nearest_natCast {n : Nat} (h : n < 2 ^ 53) : nearest n = n := by
  rcases Nat.eq_zero_or_pos n with rfl | hpos
  · rfl
  have hn : (0 : Rat) < n := by exact_mod_cast hpos
  have hbit : leadingBit n < 53 := by
    have hlt : (2 : Rat) ^ leadingBit n < 2 ^ (53 : Int) :=
      lt_of_le_of_lt (leadingBit_spec hn).1 (by exact_mod_cast h)
    exact (zpow_lt_zpow_iff_right₀ (by norm_num)).mp hlt
  obtain ⟨k, hk⟩ := Int.eq_ofNat_of_zero_le
    (show 0 ≤ -max (leadingBit (n : Rat) - 52) (-1074) by omega)
  unfold nearest
  rw [if_neg hn.ne']
  dsimp only
  -- in units of the last place, `n` is an integer
  have hscaled : scale n (-max (leadingBit (n : Rat) - 52) (-1074)) = ((n * 2 ^ k : Nat) : Int) := by
    rw [scale_eq, hk, zpow_natCast]
    push_cast
    rfl
  rw [hscaled, roundTies_intCast, ← hscaled, scale_eq, scale_eq, mul_assoc, ← zpow_add₀ two_ne_zero,
    neg_add_cancel, zpow_zero, mul_one]

/-! ## Amounts with a fixed number of decimals -/

theorem roundTies_le {q : Rat} {n : Int} (h : q ≤ n) : roundTies q ≤ n := by
  have hround := (abs_le.mp (roundTies_sub_le q)).2
  have hlt : (roundTies q : Rat) < (n + 1 : Int) := by
    push_cast
    linarith
  exact Int.lt_add_one_iff.mp (by exact_mod_cast hlt)

theorem nearest_nonpos {q : Rat} (h : q ≤ 0) : nearest q ≤ 0 := by
  unfold nearest
  split
  · rfl
  · dsimp only
    rw [scale_eq]
    refine mul_nonpos_of_nonpos_of_nonneg ?_ (two_zpow_pos _).le
    have hscaled : scale q (-max (leadingBit q - 52) (-1074)) ≤ (0 : Int) := by
      rw [scale_eq, Int.cast_zero]
      exact mul_nonpos_of_nonpos_of_nonneg h (two_zpow_pos _).le
    exact_mod_cast roundTies_le hscaled

/-- Less than one half off, rounding finds the integer. -/
theorem roundToU64_of_sub_lt {x : Rat} {n : Nat} (hn : n < 2 ^ 64) (h : |x - n| < 1 / 2) :
    roundToU64 x = UInt64.ofNat n := by
  have hfloor : (x + 1 / 2).floor = n := by
    obtain ⟨hlow, hhigh⟩ := abs_lt.mp h
    refine le_antisymm (Int.lt_add_one_iff.mp (Rat.floor_lt_iff.mpr ?_)) (Rat.le_floor_iff.mpr ?_)
    · push_cast
      linarith
    · push_cast
      linarith
  unfold roundToU64
  dsimp only
  rw [hfloor]
  split
  · rw [show n = 0 by omega]
    rfl
  · rw [if_pos (by exact_mod_cast hn), Int.toNat_natCast]

theorem roundToU64_nonpos {x : Rat} (h : x ≤ 0) : roundToU64 x = 0 := by
  have hfloor : (x + 1 / 2).floor < (1 : Int) := by
    rw [Rat.floor_lt_iff]
    push_cast
    linarith
  unfold roundToU64
  dsimp only
  rw [if_pos (by omega)]

/-- **Counting units.** A double near `n / c` times `c` rounds to `n`: both errors together are
less than one half as long as `n` has at most 51 bits. -/
theorem roundToU64_mul_nearest {n c : Nat} (hn : n < 2 ^ 51) (hc : 0 < c) (hsmall : c ≤ 2 ^ 53) :
    roundToU64 (mul (nearest (n / c)) c) = UInt64.ofNat n := by
  refine roundToU64_of_sub_lt (by omega) ?_
  rcases Nat.eq_zero_or_pos n with rfl | hpos
  · simp [mul, nearest]
  have hcpos : (0 : Rat) < c := by exact_mod_cast hc
  have hn1 : (1 : Rat) ≤ n := by exact_mod_cast hpos
  have hn51 : (n : Rat) ≤ 2 ^ 51 - 1 := by
    have : (n : Rat) + 1 ≤ 2 ^ 51 := by exact_mod_cast hn
    linarith
  -- the double of the quotient, times `c`
  have hquot : (2 : Rat) ^ (-1022 : Int) ≤ n / c := by
    have hc' : (c : Rat) ≤ 2 ^ (53 : Int) := by exact_mod_cast hsmall
    refine (zpow_le_zpow_right₀ (by norm_num) (by norm_num : (-1022 : Int) ≤ -53)).trans ?_
    rw [le_div_iff₀ hcpos, zpow_neg, inv_mul_le_iff₀ (two_zpow_pos _)]
    exact hc'.trans (le_mul_of_one_le_right (two_zpow_pos _).le hn1)
  have hx : |nearest (n / c) * c - n| ≤ n / 2 ^ 53 := by
    have h := mul_le_mul_of_nonneg_right (nearest_sub_le hquot) hcpos.le
    rw [← abs_of_pos hcpos, ← abs_mul, abs_of_pos hcpos, sub_mul, div_mul_cancel₀ _ hcpos.ne',
      div_right_comm, div_mul_cancel₀ _ hcpos.ne'] at h
    exact h
  have hxlow := (abs_le.mp hx).1
  have hxhigh := (abs_le.mp hx).2
  have hone : (1 : Rat) / 2 ≤ nearest (n / c) * c := by linarith
  -- the double of the product
  have hy : |mul (nearest (n / c)) c - nearest (n / c) * c| ≤ nearest (n / c) * c / 2 ^ 53 := by
    refine nearest_sub_le (le_trans ?_ hone)
    rw [one_div, ← zpow_neg_one]
    exact zpow_le_zpow_right₀ (by norm_num) (by norm_num)
  obtain ⟨hylow, hyhigh⟩ := abs_le.mp hy
  rw [abs_lt]
  constructor <;> linarith

/-! ## What is read -/

/-- The number of a JSON document, as it is written. -/
def exact : Value → Option Rat
  | .int n => some n
  | .float text => some (decimalValue text)
  | _ => none

theorem read_eq_nearest {v : Value} {q x : Rat} (hexact : exact v = some q) (h : read v = some x) :
    x = nearest q := by
  cases v with
  | int n =>
    obtain rfl := Option.some.inj hexact
    exact (Option.some.inj h).symm
  | float text =>
    obtain rfl := Option.some.inj hexact
    rw [read] at h
    split at h
    · exact (Option.some.inj h).symm
    · exact absurd h (by simp)
  | null => exact absurd hexact (by simp [exact])
  | bool b => exact absurd hexact (by simp [exact])
  | str s => exact absurd hexact (by simp [exact])
  | arr l => exact absurd hexact (by simp [exact])
  | obj ms => exact absurd hexact (by simp [exact])

end F64
