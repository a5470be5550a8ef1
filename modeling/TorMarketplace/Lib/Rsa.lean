import Mathlib.FieldTheory.Finite.Basic
import Mathlib.Data.Nat.ChineseRemainder

/-!
# Powers modulo a product of two primes

The arithmetic of RSA: exponents that are inverse to each other modulo the Carmichael function of
`p * q` undo each other on every residue, unit or not (`pow_mul_modEq`). So a residue has exactly one
`e`-th root (`root_unique`), and raising to the power `d` commutes with blinding (`unblind_modEq`).
-/

namespace Rsa

/-- **An exponent that is 1 modulo `p - 1` changes nothing** modulo the prime `p`. -/
theorem pow_modEq_self {p k : ℕ} (hp : p.Prime) (hk : k ≡ 1 [MOD p - 1]) (hpos : 1 ≤ k) (a : ℕ) :
    a ^ k ≡ a [MOD p] := by
  have hdvd : p - 1 ∣ k - 1 := (Nat.modEq_iff_dvd' hpos).mp hk.symm
  have h := Int.ModEq.pow_eq_pow hp hdvd hpos one_pos a
  rw [pow_one] at h
  exact_mod_cast h

/-- The exponents of a key with the modulus `p * q`. -/
structure Exponents (p q e d : ℕ) : Prop where
  prime_left : p.Prime
  prime_right : q.Prime
  ne : p ≠ q
  inverse : e * d ≡ 1 [MOD Nat.lcm (p - 1) (q - 1)]

namespace Exponents

variable {p q e d : ℕ} (h : Exponents p q e d)

include h

theorem one_le_mul : 1 ≤ e * d := by
  by_contra hlt
  have h0 : e * d = 0 := by omega
  have hinv := h.inverse
  rw [h0] at hinv
  have hone : Nat.lcm (p - 1) (q - 1) = 1 :=
    Nat.dvd_one.mp ((Nat.modEq_iff_dvd' (by omega)).mp hinv)
  have hp := Nat.dvd_lcm_left (p - 1) (q - 1)
  have hq := Nat.dvd_lcm_right (p - 1) (q - 1)
  rw [hone, Nat.dvd_one] at hp hq
  exact h.ne (by omega)

/-- **The exponents undo each other on every residue.** -/
theorem pow_mul_modEq (a : ℕ) : a ^ (e * d) ≡ a [MOD p * q] := by
  have hcop : Nat.Coprime p q := (Nat.coprime_primes h.prime_left h.prime_right).mpr h.ne
  refine (Nat.modEq_and_modEq_iff_modEq_mul hcop).mp ⟨?_, ?_⟩
  · exact pow_modEq_self h.prime_left (h.inverse.of_dvd (Nat.dvd_lcm_left _ _)) h.one_le_mul a
  · exact pow_modEq_self h.prime_right (h.inverse.of_dvd (Nat.dvd_lcm_right _ _)) h.one_le_mul a

/-- The power `d` is an `e`-th root. -/
theorem root_pow (m : ℕ) : (m ^ d) ^ e ≡ m [MOD p * q] := by
  rw [← pow_mul, mul_comm d]
  exact h.pow_mul_modEq m

/-- **The `e`-th root is unique.** -/
theorem root_unique {s m : ℕ} (hs : s ^ e ≡ m [MOD p * q]) : s ≡ m ^ d [MOD p * q] :=
  calc s ≡ s ^ (e * d) [MOD p * q] := (h.pow_mul_modEq s).symm
    _ = (s ^ e) ^ d := pow_mul s e d
    _ ≡ m ^ d [MOD p * q] := hs.pow d

/-- **Unblinding.** The power `d` of a blinded number, less the blinding factor, is the power `d`
of the number. -/
theorem unblind_modEq {r r' : ℕ} (hr : r * r' ≡ 1 [MOD p * q]) (m : ℕ) :
    (m * r ^ e) ^ d * r' ≡ m ^ d [MOD p * q] :=
  calc (m * r ^ e) ^ d * r' = m ^ d * (r ^ (e * d) * r') := by rw [mul_pow, ← pow_mul, mul_assoc]
    _ ≡ m ^ d * (r * r') [MOD p * q] := ((h.pow_mul_modEq r).mul_right r').mul_left (m ^ d)
    _ ≡ m ^ d * 1 [MOD p * q] := hr.mul_left (m ^ d)
    _ = m ^ d := mul_one _

end Exponents

end Rsa
