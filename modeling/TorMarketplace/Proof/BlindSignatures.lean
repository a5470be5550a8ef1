import Mathlib.NumberTheory.LucasPrimality
import TorMarketplace.Crypto.BlindSig
import TorMarketplace.Lib.Cbor
import TorMarketplace.Lib.Rsa

/-!
# Blind signatures round trip

`blind_message`, `sign_blinded`, `unblind_signature` and `verify_token` of `crypto/blind_sig.rs` for
any RSA key whose modulus is above every hash. Unblinding gives the signature of the hash itself,
whatever it was blinded with, and `verify_token` accepts no other number
(`blind_signature_roundtrip`). Neither the hash nor the signature has to be a unit modulo `n`; only
the blinding factor has.
-/

namespace TorMarketplace

open Encoding

/-! ## Big-endian bytes -/

theorem natOfBe_toBytesBe (n : Nat) : natOfBe (toBytesBe n) = n := by
  refine Cbor.natOfBe_beBytes (Nat.lt_of_lt_of_le Nat.lt_log2_self ?_)
  rw [show (256 : Nat) = 2 ^ 8 from rfl, ← Nat.pow_mul]
  exact Nat.pow_le_pow_right (by decide) (by omega)

/-- So many bytes are a number below so many powers of 256. -/
theorem natOfBe_lt (b : Bytes) : natOfBe b < 256 ^ b.length := by
  induction b with
  | nil => exact Nat.one_pos
  | cons x b ih =>
    have hx := x.toNat_lt
    have hfold := Cbor.natOfBe_foldl b x.toNat
    rw [natOfBe, List.foldl_cons, Nat.mul_zero, Nat.zero_add, hfold, List.length_cons, Nat.pow_succ]
    nlinarith

/-! ## The inverse modulo `n` -/

/-- The residue that `modinv` takes of a coefficient. -/
theorem modinv_residue {m : Nat} (hm : 0 < m) (x : ℤ) :
    (((if x < 0 then m - x.natAbs % m else x.natAbs % m : ℕ)) : ℤ) ≡ x [ZMOD m] := by
  have hlt : x.natAbs % m < m := Nat.mod_lt _ hm
  split
  · rename_i hneg
    rw [Nat.cast_sub hlt.le, Int.natCast_mod, Int.natCast_natAbs, abs_of_neg hneg]
    calc (m : ℤ) - -x % m ≡ 0 - -x [ZMOD m] :=
          Int.ModEq.sub (Int.modEq_zero_iff_dvd.mpr (dvd_refl _)) (Int.mod_modEq _ _)
      _ = x := by ring
  · rename_i hpos
    rw [Int.natCast_mod, Int.natCast_natAbs, abs_of_nonneg (not_lt.mp hpos)]
    exact Int.mod_modEq _ _

/-- **What `modinv` returns is an inverse.** -/
theorem modinv_spec (N : NumInteger) {a m : Nat} (hm : 0 < m) (hcop : a.Coprime m) :
    ∃ b, modinv N a m = some b ∧ a * b ≡ 1 [MOD m] := by
  have hgcd : (N.extendedGcd a m).gcd = 1 := by
    rw [N.gcd_eq, Int.gcd_natCast_natCast, hcop]
    rfl
  have hbezout := N.bezout a m
  rw [hgcd] at hbezout
  have hax : (a : ℤ) * (N.extendedGcd a m).x ≡ 1 [ZMOD m] := by
    refine Int.modEq_iff_dvd.mpr ⟨(N.extendedGcd a m).y, ?_⟩
    linarith
  have hres := modinv_residue hm (N.extendedGcd a m).x
  unfold modinv
  simp only [hgcd, ne_eq, not_true, if_false]
  rw [← apply_ite some]
  refine ⟨_, rfl, ?_⟩
  have := (hres.mul_left (a : ℤ)).trans hax
  exact_mod_cast this

/-- The conversions change nothing. -/
theorem modinvBytes_eq (N : NumInteger) (a m : Nat) : modinvBytes N a m = modinv N a m := by
  have hsign (x : Int) : signOf x = .minus ↔ x < 0 := by
    unfold signOf
    split_ifs <;> simp [*]
  simp only [modinvBytes, modinv, intOfBytesBe, intToBytesBe, natOfBe_toBytesBe, hsign]

/-- What `modinv` returns is reduced: the coefficient of an inverse is not a multiple of `m`. -/
theorem modinv_lt (N : NumInteger) {a m x : Nat} (hm : 2 ≤ m) (h : modinv N a m = some x)
    (hinv : a * x ≡ 1 [MOD m]) : x < m := by
  have hne : x ≠ m := by
    rintro rfl
    have hzero : a * x ≡ 0 [MOD x] := (Nat.modEq_zero_iff_dvd).mpr (dvd_mul_left x a)
    have hone : 0 % x = 1 % x := hzero.symm.trans hinv
    rw [Nat.zero_mod, Nat.mod_eq_of_lt (by omega : 1 < x)] at hone
    exact absurd hone (by decide)
  have hmod := Nat.mod_lt (N.extendedGcd a m).x.natAbs (by omega : m > 0)
  unfold modinv at h
  dsimp only at h
  split at h
  · exact absurd h (by simp)
  · split at h
    · obtain rfl := Option.some.inj h
      omega
    · obtain rfl := Option.some.inj h
      exact hmod

/-- Without a common divisor of one there is no inverse. -/
theorem modinv_none (N : NumInteger) {a m : Nat} (hgcd : a.gcd m ≠ 1) : modinv N a m = none := by
  have hne : (N.extendedGcd a m).gcd ≠ 1 := by
    rw [N.gcd_eq, Int.gcd_natCast_natCast]
    exact_mod_cast hgcd
  unfold modinv
  exact if_pos hne

/-- **`modinv` finds the inverse exactly where there is one**, and returns it reduced. -/
theorem modinv_iff_coprime (N : NumInteger) (a : Nat) {m : Nat} (hm : 2 ≤ m) :
    ((∃ x, modinvBytes N a m = some x ∧ x < m ∧ a * x % m = 1) ↔ a.gcd m = 1) ∧
      (modinvBytes N a m = none ↔ a.gcd m ≠ 1) := by
  rw [modinvBytes_eq]
  by_cases hgcd : a.gcd m = 1
  · obtain ⟨x, hx, hinv⟩ := modinv_spec N (by omega) hgcd
    have hone : a * x % m = 1 := by
      rw [hinv, Nat.mod_eq_of_lt (by omega : 1 < m)]
    refine ⟨iff_of_true ⟨x, hx, modinv_lt N hm hx hinv, hone⟩ hgcd, ?_⟩
    rw [hx]
    exact iff_of_false (by simp) (not_not.mpr hgcd)
  · have hnone := modinv_none N hgcd
    rw [hnone]
    exact ⟨iff_of_false (by simp) hgcd, iff_of_true rfl hgcd⟩

/-! ## The round trip -/

/-- An RSA key pair whose modulus is above every hash. -/
structure RsaKey where
  p : Nat
  q : Nat
  e : Nat
  d : Nat
  exponents : Rsa.Exponents p q e d
  large : 2 ^ 256 < p * q

namespace RsaKey

def pub (k : RsaKey) : RsaPublicKey := ⟨k.p * k.q, k.e⟩

def priv (k : RsaKey) : RsaPrivateKey := ⟨k.p * k.q, k.d⟩

/-- The signature of a hash, as a number. -/
def root (k : RsaKey) (messageHash : Bytes) : Nat := natOfBe messageHash ^ k.d % k.pub.n

end RsaKey

variable {k : RsaKey} {messageHash : Bytes}

/-- A hash is a residue. -/
theorem RsaKey.hash_lt (k : RsaKey) (hlen : messageHash.length = 32) :
    natOfBe messageHash < k.pub.n := by
  have h := natOfBe_lt messageHash
  rw [hlen, show (256 : Nat) ^ 32 = 2 ^ 256 by norm_num] at h
  exact h.trans k.large

/-- **`verify_token` accepts one number.** -/
theorem verifyToken_iff (hlen : messageHash.length = 32) (signature : Bytes) :
    verifyToken messageHash signature k.pub = true ↔ natOfBe signature = k.root messageHash := by
  have hm := k.hash_lt hlen
  have hpos : 0 < k.pub.n := Nat.zero_lt_of_lt hm
  unfold verifyToken RsaKey.root
  simp only [modPow_eq]
  by_cases hlt : natOfBe signature ≥ k.pub.n
  · -- such a number is no residue
    have hroot : natOfBe messageHash ^ k.d % k.pub.n < k.pub.n := Nat.mod_lt _ hpos
    simp only [hlt, if_true, Bool.false_eq_true, false_iff]
    omega
  · rw [if_neg hlt, decide_eq_true_iff]
    constructor
    · intro h
      have hs : natOfBe signature ^ k.pub.e ≡ natOfBe messageHash [MOD k.pub.n] := by
        rw [Nat.ModEq, h, Nat.mod_eq_of_lt hm]
      have hroot : natOfBe signature ≡ natOfBe messageHash ^ k.d [MOD k.pub.n] :=
        k.exponents.root_unique hs
      rwa [Nat.ModEq, Nat.mod_eq_of_lt (not_le.mp hlt)] at hroot
    · intro h
      have hpow : (natOfBe messageHash ^ k.d) ^ k.pub.e ≡ natOfBe messageHash [MOD k.pub.n] :=
        k.exponents.root_pow (natOfBe messageHash)
      rw [Nat.ModEq, Nat.mod_eq_of_lt hm] at hpow
      rw [h, ← Nat.pow_mod, hpow]

/-- **Unblinding undoes blinding.** -/
theorem unblind_blindWith (N : NumInteger) {factor : Bytes}
    (hcop : (natOfBe factor).Coprime k.pub.n) (hpos : 0 < k.pub.n) :
    unblindSignature N (signBlinded (blindWith (natOfBe factor) messageHash k.pub).1 k.priv) factor
      k.pub = some (toBytesBe (k.root messageHash)) := by
  obtain ⟨rInv, hinv, hr⟩ := modinv_spec N hpos hcop
  have hsig : (natOfBe messageHash * (natOfBe factor ^ k.e % k.pub.n) % k.pub.n) ^ k.d % k.pub.n *
      rInv % k.pub.n = k.root messageHash := by
    have h : (natOfBe messageHash * natOfBe factor ^ k.e) ^ k.d * rInv ≡
        natOfBe messageHash ^ k.d [MOD k.pub.n] :=
      k.exponents.unblind_modEq hr (natOfBe messageHash)
    rw [Nat.mul_mod_mod, ← Nat.pow_mod, Nat.mod_mul_mod]
    exact h
  unfold unblindSignature signBlinded blindWith
  simp only [natOfBe_toBytesBe, modPow_eq, hinv, Option.bind_eq_bind, Option.bind_some]
  rw [show k.priv.n = k.pub.n from rfl, show k.priv.d = k.d from rfl, show k.pub.e = k.e from rfl,
    hsig]
  rfl

/-- **Blind signatures round trip.** For every key and every hash there is one signature: it is the
hash to the power `d`, unblinding returns it for every blinding factor that is a unit, however its
bytes are spelled and whatever `blind_message` drew, and `verify_token` accepts it and nothing else. -/
theorem blind_signature_roundtrip (N : NumInteger) (k : RsaKey) {messageHash : Bytes}
    (hlen : messageHash.length = 32) :
    ∃ signature,
      natOfBe signature = natOfBe messageHash ^ k.d % k.pub.n ∧
      (∀ factor, (natOfBe factor).Coprime k.pub.n →
        unblindSignature N (signBlinded (blindWith (natOfBe factor) messageHash k.pub).1 k.priv)
          factor k.pub = some signature) ∧
      (∀ draw, (blindingFactor k.pub.n draw).Coprime k.pub.n →
        unblindSignature N (signBlinded (blindMessage draw messageHash k.pub).1 k.priv)
          (blindMessage draw messageHash k.pub).2 k.pub = some signature) ∧
      verifyToken messageHash signature k.pub = true ∧
      ∀ other, verifyToken messageHash other k.pub = true → natOfBe other = natOfBe signature := by
  have hpos : 0 < k.pub.n := Nat.zero_lt_of_lt (k.hash_lt hlen)
  have hroot : natOfBe (toBytesBe (k.root messageHash)) = k.root messageHash :=
    natOfBe_toBytesBe _
  refine ⟨toBytesBe (k.root messageHash), hroot, fun factor hcop => ?_, fun draw hcop => ?_, ?_,
    fun other hother => ?_⟩
  · exact unblind_blindWith N hcop hpos
  · -- the factor that the client keeps is `r` in as few bytes as possible
    have hr : natOfBe (toBytesBe (blindingFactor k.pub.n draw)) = blindingFactor k.pub.n draw :=
      natOfBe_toBytesBe _
    have h : unblindSignature N (signBlinded (blindWith (natOfBe (toBytesBe
        (blindingFactor k.pub.n draw))) messageHash k.pub).1 k.priv)
        (toBytesBe (blindingFactor k.pub.n draw)) k.pub = some (toBytesBe (k.root messageHash)) :=
      unblind_blindWith N (hr.symm ▸ hcop) hpos
    rwa [hr] at h
  · exact (verifyToken_iff hlen _).mpr hroot
  · rw [hroot]
    exact (verifyToken_iff hlen other).mp hother

/-! ## A key -/

namespace BlindSample

/-- Lucas's test for one more than a prime times a power of two. -/
theorem prime_of_lucas {c k : Nat} (a : Nat) (hc : c.Prime)
    (hone : modPow a (c * 2 ^ k) (c * 2 ^ k + 1) = 1 % (c * 2 ^ k + 1))
    (hne : ∀ q ∈ [2, c], modPow a (c * 2 ^ k / q) (c * 2 ^ k + 1) ≠ 1 % (c * 2 ^ k + 1)) :
    (c * 2 ^ k + 1).Prime := by
  have hcast : ∀ j, (a : ZMod (c * 2 ^ k + 1)) ^ j = 1 ↔
      modPow a j (c * 2 ^ k + 1) = 1 % (c * 2 ^ k + 1) := fun j => by
    rw [modPow_eq]
    exact_mod_cast ZMod.natCast_eq_natCast_iff' (a ^ j) 1 (c * 2 ^ k + 1)
  refine lucas_primality _ a ((hcast _).mpr hone) fun q hq hdvd h => ?_
  have hmem : q ∈ [2, c] := by
    rcases (Nat.Prime.dvd_mul hq).mp hdvd with hdvd | hdvd
    · simp [(Nat.prime_dvd_prime_iff_eq hq hc).mp hdvd]
    · simp [(Nat.prime_dvd_prime_iff_eq hq Nat.prime_two).mp (hq.dvd_of_dvd_pow hdvd)]
  exact hne q hmem ((hcast _).mp h)

def key : RsaKey where
  p := 5 * 2 ^ 127 + 1
  q := 3 * 2 ^ 189 + 1
  e := 65537
  d := 3138455088183515600790228877198486492967849184834143322113
  exponents :=
    { prime_left := prime_of_lucas 17 Nat.prime_five (by decide +kernel) (by decide +kernel)
      prime_right := prime_of_lucas 10 Nat.prime_three (by decide +kernel) (by decide +kernel)
      ne := by decide +kernel
      inverse := by decide +kernel }
  large := by decide +kernel

/-- Euclid's algorithm. -/
def numInteger : NumInteger where
  extendedGcd a b := ⟨Int.gcd a b, Int.gcdA a b, Int.gcdB a b⟩
  gcd_eq _ _ := rfl
  bezout a b := (Int.gcd_eq_gcd_ab a b).symm

def hash : Bytes := List.replicate 32 7

/-- A blinding factor above the modulus, with a zero in front. -/
def factor : Bytes := 0 :: toBytesBe (key.pub.n + 3)

end BlindSample

theorem blind_signature_roundtrip_sample :
    ∃ signature,
      unblindSignature BlindSample.numInteger
        (signBlinded (blindWith (natOfBe BlindSample.factor) BlindSample.hash BlindSample.key.pub).1
          BlindSample.key.priv) BlindSample.factor BlindSample.key.pub = some signature ∧
      verifyToken BlindSample.hash signature BlindSample.key.pub = true := by
  obtain ⟨signature, -, hunblind, -, hverify, -⟩ :=
    blind_signature_roundtrip BlindSample.numInteger BlindSample.key
      (rfl : BlindSample.hash.length = 32)
  exact ⟨signature, hunblind BlindSample.factor (by decide +kernel), hverify⟩

/-- The coefficient of three modulo seven is negative. -/
theorem modinv_iff_coprime_sample :
    ∃ x, modinvBytes BlindSample.numInteger 3 7 = some x ∧ x < 7 ∧ 3 * x % 7 = 1 :=
  (modinv_iff_coprime BlindSample.numInteger 3 (by decide)).1.mpr (by decide)

end TorMarketplace
