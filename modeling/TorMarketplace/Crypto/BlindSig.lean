import TorMarketplace.Crypto.Primitives

/-!
# Blind RSA signatures for admin tokens

`crypto/blind_sig.rs`. A `BigUint` is a natural number; `to_bytes_be` writes as few bytes as it can.
-/

namespace TorMarketplace

open Encoding

structure RsaPublicKey where
  n : Nat
  e : Nat

structure RsaPrivateKey where
  n : Nat
  d : Nat

/-- `AdminKeypair`: the public key is `RsaPublicKey::from(&private)`. -/
structure AdminKeypair where
  priv : RsaPrivateKey
  pub : RsaPublicKey
  sameModulus : pub.n = priv.n
  /-- What `pubkey_hex` returns: the public key as PKCS#1 DER, in hex. -/
  pubkeyHex : String

/-- `ADMIN_ACTION_LABEL`. -/
def adminActionLabel : String := "tor-mkt:admin:v1"

/-- `compose_token_message`. -/
def composeTokenMessage (P : Primitives) (domain actionId : String) (nonce : Bytes)
    (expiryHour : UInt64) : Bytes :=
  P.sha256 (utf8 adminActionLabel ++ utf8 ":" ++ utf8 domain ++ utf8 ":" ++ utf8 actionId ++
    utf8 ":" ++ nonce ++ utf8 ":" ++ decimal expiryHour.toNat)

/-- `base.modpow(exp, n)` by repeated squaring, for exponents below `2 ^ fuel`. -/
def modPowFuel : Nat → Nat → Nat → Nat → Nat
  | 0, _, _, n => 1 % n
  | fuel + 1, base, exp, n =>
    if exp = 0 then 1 % n
    else
      let half := modPowFuel fuel base (exp / 2) n
      if exp % 2 = 0 then half * half % n else half * half % n * base % n

/-- `BigUint::modpow`. -/
def modPow (base exp n : Nat) : Nat := modPowFuel (exp.log2 + 1) base exp n

/-- `BigUint::to_bytes_be`. -/
def toBytesBe (n : Nat) : Bytes := beBytes (n.log2 / 8 + 1) n

/-- `BigUint::bits`. -/
def bits (n : Nat) : Nat := if n = 0 then 0 else n.log2 + 1

/-- The `r` that `blind_message` makes of the bytes it draws: no more bits than `n`, and not zero. -/
def blindingFactor (n : Nat) (draw : Bytes) : Nat :=
  let nBits := bits n
  let nBytes := (nBits + 7) / 8
  let excess := nBytes * 8 - nBits
  let rBytes := match draw with
    | b :: bs => (b &&& (255 >>> excess.toUInt8)) :: bs
    | [] => []
  let rBytes := if rBytes.all (· = 0) then rBytes.set (nBytes - 1) 1 else rBytes
  natOfBe rBytes

/-- `blind_message` with its `r`: the blinded bytes and the blinding factor. -/
def blindWith (r : Nat) (messageHash : Bytes) (pub : RsaPublicKey) : Bytes × Bytes :=
  let m := natOfBe messageHash
  let rE := modPow r pub.e pub.n
  let blinded := m * rE % pub.n
  (toBytesBe blinded, toBytesBe r)

/-- `blind_message`, with the bytes it draws as an argument. -/
def blindMessage (draw messageHash : Bytes) (pub : RsaPublicKey) : Bytes × Bytes :=
  blindWith (blindingFactor pub.n draw) messageHash pub

/-- `sign_blinded`. -/
def signBlinded (blinded : Bytes) (priv : RsaPrivateKey) : Bytes :=
  toBytesBe (modPow (natOfBe blinded) priv.d priv.n)

/-- The result of `num_integer::Integer::extended_gcd`. -/
structure ExtendedGcd where
  gcd : Int
  x : Int
  y : Int

/-- `extended_gcd` of the `num-integer` crate, with what it is documented to return. -/
structure NumInteger where
  extendedGcd : Int → Int → ExtendedGcd
  gcd_eq : ∀ a b, (extendedGcd a b).gcd = Int.gcd a b
  bezout : ∀ a b, a * (extendedGcd a b).x + b * (extendedGcd a b).y = (extendedGcd a b).gcd

/-- `num_bigint::Sign`. -/
inductive Sign where
  | minus
  | noSign
  | plus
  deriving DecidableEq

/-- `BigInt::from_bytes_be`. -/
def intOfBytesBe : Sign → Bytes → Int
  | .minus, b => -natOfBe b
  | .noSign, _ => 0
  | .plus, b => natOfBe b

/-- `BigInt::sign`. -/
def signOf (x : Int) : Sign := if x < 0 then .minus else if x = 0 then .noSign else .plus

/-- `BigInt::to_bytes_be`. -/
def intToBytesBe (x : Int) : Sign × Bytes := (signOf x, toBytesBe x.natAbs)

/-- `modinv` as it goes through bytes, from a `BigUint` to a `BigInt` and back. -/
def modinvBytes (N : NumInteger) (a m : Nat) : Option Nat :=
  let aS := intOfBytesBe .plus (toBytesBe a)
  let mS := intOfBytesBe .plus (toBytesBe m)
  let result := N.extendedGcd aS mS
  if result.gcd ≠ 1 then none
  else
    let x := result.x
    if signOf x = .minus then
      let xAbs := natOfBe (intToBytesBe x).2
      some (m - xAbs % m)
    else some (natOfBe (intToBytesBe x).2 % m)

/-- `modinv` on the numbers that its bytes stand for. -/
def modinv (N : NumInteger) (a m : Nat) : Option Nat :=
  let result := N.extendedGcd a m
  if result.gcd ≠ 1 then none
  else if result.x < 0 then some (m - result.x.natAbs % m)
  else some (result.x.natAbs % m)

/-- `unblind_signature`. `none` is a panic: the blinding factor has no inverse. -/
def unblindSignature (N : NumInteger) (blindedSig blindingFactor : Bytes) (pub : RsaPublicKey) :
    Option Bytes := do
  let sPrime := natOfBe blindedSig
  let r := natOfBe blindingFactor
  let rInv ← modinv N r pub.n
  pure (toBytesBe (sPrime * rInv % pub.n))

/-- `verify_token`. -/
def verifyToken (messageHash signature : Bytes) (pub : RsaPublicKey) : Bool :=
  let sig := natOfBe signature
  let m := natOfBe messageHash
  if sig ≥ pub.n then false else modPow sig pub.e pub.n = m

theorem modPowFuel_eq {fuel exp : Nat} (base n : Nat) (h : exp < 2 ^ fuel) :
    modPowFuel fuel base exp n = base ^ exp % n := by
  induction fuel generalizing exp with
  | zero =>
    obtain rfl : exp = 0 := by simpa using h
    simp [modPowFuel]
  | succ fuel ih =>
    rw [modPowFuel]
    split
    · rename_i h0
      rw [h0, Nat.pow_zero]
    · have hhalf := ih (by omega : exp / 2 < 2 ^ fuel)
      simp only
      have hsquare : modPowFuel fuel base (exp / 2) n * modPowFuel fuel base (exp / 2) n % n =
          base ^ (exp / 2 + exp / 2) % n := by
        rw [hhalf, ← Nat.mul_mod, ← Nat.pow_add]
      split
      · rw [hsquare, show exp / 2 + exp / 2 = exp by omega]
      · rw [hsquare, Nat.mod_mul_mod, ← Nat.pow_succ, show (exp / 2 + exp / 2).succ = exp by omega]

/-- **`modPow` is the power modulo `n`.** -/
theorem modPow_eq (base exp n : Nat) : modPow base exp n = base ^ exp % n :=
  modPowFuel_eq base n Nat.lt_log2_self

end TorMarketplace
