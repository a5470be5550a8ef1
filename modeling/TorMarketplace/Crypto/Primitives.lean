import TorMarketplace.Lib.Encoding

/-!
# The cryptographic libraries

The functions that the server takes from its dependencies (`sha2`, `hmac`, `hkdf`, `blake3`,
`x25519-dalek`, `chacha20poly1305`, `ed25519-dalek`, `secp256k1`), as one parameter of everything
that follows. The two fields about ChaCha20-Poly1305 are what the server relies on for its own
blobs: a ciphertext decrypts to its plaintext, and is a tag longer. Idealisations (a signature is of
one message, say) are never fields here; a theorem that needs one names it as a hypothesis.
-/

namespace TorMarketplace

export Encoding (Bytes utf8)

structure Primitives where
  sha256 : Bytes → Bytes
  /-- Key, message. A key may have any length, so `new_from_slice` does not fail. -/
  hmacSha256 : Bytes → Bytes → Bytes
  /-- Input key material and info, no salt, 32 bytes of output. -/
  hkdfSha256 : Bytes → Bytes → Bytes
  blake3 : Bytes → Bytes
  /-- Secret key, public key. -/
  x25519 : Bytes → Bytes → Bytes
  /-- Key, nonce, plaintext. -/
  chachaEncrypt : Bytes → Bytes → Bytes → Option Bytes
  /-- Key, nonce, ciphertext with its tag. -/
  chachaDecrypt : Bytes → Bytes → Bytes → Option Bytes
  /-- `VerifyingKey::from_bytes` succeeds. -/
  isVerifyingKey : Bytes → Bool
  /-- Public key, message, signature. -/
  ed25519Verify : Bytes → Bytes → Bytes → Bool
  /-- `secp256k1::PublicKey::from_slice` succeeds. -/
  isSecpPubkey : Bytes → Bool
  decrypt_encrypt : ∀ {k n p c}, chachaEncrypt k n p = some c → chachaDecrypt k n c = some p
  encrypt_length : ∀ {k n p c}, chachaEncrypt k n p = some c → c.length = p.length + 16

namespace Primitives

/-- Finitely many values of the primitives, each with its arguments. -/
structure Tables where
  sha256 : List (Bytes × Bytes) := []
  hmacSha256 : List ((Bytes × Bytes) × Bytes) := []
  hkdfSha256 : List ((Bytes × Bytes) × Bytes) := []
  blake3 : List (Bytes × Bytes) := []
  x25519 : List ((Bytes × Bytes) × Bytes) := []
  /-- Key, nonce, ciphertext, and the plaintext. -/
  chacha : List ((Bytes × Bytes × Bytes) × Bytes) := []
  verifyingKeys : List Bytes := []
  /-- The (key, message, signature) that verify. -/
  signatures : List (Bytes × Bytes × Bytes) := []
  secpPubkeys : List Bytes := []

/-- Primitives that agree with the tables, and are as far from everything else as they can be: what
is in no table does not encrypt, decrypt or verify, and has an empty digest. -/
def ofTables (t : Tables) : Primitives where
  sha256 m := (t.sha256.lookup m).getD []
  hmacSha256 k m := (t.hmacSha256.lookup (k, m)).getD []
  hkdfSha256 k i := (t.hkdfSha256.lookup (k, i)).getD []
  blake3 m := (t.blake3.lookup m).getD []
  x25519 s p := (t.x25519.lookup (s, p)).getD []
  chachaEncrypt k n p :=
    ((t.chacha.map fun e => e.1.2.2).find? fun c =>
      t.chacha.lookup (k, n, c) = some p ∧ c.length = p.length + 16)
  chachaDecrypt k n c := t.chacha.lookup (k, n, c)
  isVerifyingKey k := t.verifyingKeys.contains k
  ed25519Verify k m s := t.signatures.contains (k, m, s)
  isSecpPubkey k := t.secpPubkeys.contains k
  decrypt_encrypt h := by
    have hc := List.find?_some h
    exact (of_decide_eq_true hc).1
  encrypt_length h := by
    have hc := List.find?_some h
    exact (of_decide_eq_true hc).2

end Primitives

end TorMarketplace
