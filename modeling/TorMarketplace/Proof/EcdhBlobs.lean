import TorMarketplace.Frontend.Wasm

/-!
# The two implementations of the ECDH blob

The server's `encrypt_ecdh_blob` and `decrypt_ecdh_blob` (`crypto/oblivious.rs`) and the client's
`encrypt_order` and `decrypt_order` (the `wasm` crate). The two decryptions have different thresholds,
45 and 44 bytes: a blob of 44 bytes has an empty ciphertext, which the cipher refuses. So they agree
on every byte string, and either opens what the other has encrypted (`ecdh_blobs_agree`).
-/

namespace TorMarketplace

open Encoding

/-- What the two crates rely on: X25519 has shared secrets of 32 bytes and commutes, and the cipher
refuses what is shorter than its tag. -/
structure EcdhLaws (P : Primitives) : Prop where
  length : ∀ sk pk, (P.x25519 sk pk).length = 32
  comm : ∀ sk sk', P.x25519 sk (x25519PublicKey P sk') = P.x25519 sk' (x25519PublicKey P sk)
  refuses_short : ∀ k n c, c.length < 16 → P.chachaDecrypt k n c = none

namespace Wasm

variable {P : Primitives}

/-- The client's encryption, for a recipient key of the right length. -/
theorem encryptOrder_eq (sk nonce plaintext : Bytes) {recipient : Bytes}
    (hlen : recipient.length = 32) :
    encryptOrder P sk nonce plaintext recipient =
      match encryptEcdhBlob P sk nonce plaintext recipient with
      | some blob => .ok blob
      | none => .error "Encryption must not fail" := by
  unfold encryptOrder encryptEcdhBlob
  rw [if_neg (by simp [hlen, pubkeySize])]
  dsimp only
  cases P.chachaEncrypt (P.hkdfSha256 (P.x25519 sk recipient) (utf8 "tor-marketplace-order-key-v1"))
    nonce plaintext with
  | none => rfl
  | some c => rfl

/-- **The two decryptions agree** on every byte string. -/
theorem decryptOrder_eq (hP : EcdhLaws P) (blob : Bytes) {key : Bytes} (hkey : key.length = 32) :
    (decryptOrder P blob key).toOption = decryptEcdhBlob P blob key := by
  have hrest : (blob.drop ecdhPubkeySize).drop ecdhNonceSize = blob.drop (pubkeySize + nonceSize) :=
    List.drop_drop
  unfold decryptOrder decryptEcdhBlob
  rw [if_neg (by simp [hkey, pubkeySize])]
  dsimp only
  rw [hrest]
  by_cases hshort : blob.length < pubkeySize + nonceSize
  · -- too short for both
    rw [if_pos hshort, if_pos (show blob.length < ecdhBlobMin from Nat.lt_succ_of_lt hshort)]
    rfl
  · rw [if_neg hshort]
    by_cases hmin : blob.length < ecdhBlobMin
    · -- only the server refuses 44 bytes by their length
      have hempty : (blob.drop (pubkeySize + nonceSize)).length < 16 := by
        rw [List.length_drop]
        exact Nat.lt_of_le_of_lt (Nat.sub_le_of_le_add (Nat.le_of_lt_succ hmin)) (by decide)
      rw [if_pos hmin, hP.refuses_short _ _ _ hempty]
      rfl
    · rw [if_neg hmin]
      change _ = P.chachaDecrypt
        (P.hkdfSha256 (P.x25519 key (blob.take pubkeySize)) (utf8 "tor-marketplace-order-key-v1"))
        ((blob.drop pubkeySize).take nonceSize) (blob.drop (pubkeySize + nonceSize))
      cases P.chachaDecrypt
        (P.hkdfSha256 (P.x25519 key (blob.take pubkeySize)) (utf8 "tor-marketplace-order-key-v1"))
        ((blob.drop pubkeySize).take nonceSize) (blob.drop (pubkeySize + nonceSize)) with
      | none => rfl
      | some p => rfl

end Wasm

variable {P : Primitives}

/-- **The server opens what is encrypted to its public key**, to the same plaintext. -/
theorem decrypt_encryptEcdhBlob (hP : EcdhLaws P) {ephemeralSk nonce plaintext sk blob : Bytes}
    (hn : nonce.length = 12)
    (h : encryptEcdhBlob P ephemeralSk nonce plaintext (x25519PublicKey P sk) = some blob) :
    decryptEcdhBlob P blob sk = some plaintext := by
  unfold encryptEcdhBlob at h
  obtain ⟨c, hc, hblob⟩ := Option.bind_eq_some_iff.mp h
  obtain rfl := Option.some.inj hblob
  have hpk : (x25519PublicKey P ephemeralSk).length = ecdhPubkeySize := hP.length _ _
  have hnonce : nonce.length = ecdhNonceSize := hn
  have hlen := P.encrypt_length hc
  unfold decryptEcdhBlob
  rw [if_neg ?_]
  · simp only [List.append_assoc]
    rw [List.take_left' hpk, List.drop_left' hpk, List.take_left' hnonce, List.drop_left' hnonce,
      hP.comm sk]
    exact P.decrypt_encrypt hc
  · simp only [List.length_append, hpk, hn, hlen, ecdhBlobMin, ecdhPubkeySize, ecdhNonceSize]
    omega

/-- The key under which a plaintext is encrypted to the public key of `sk`. -/
def ecdhKey (P : Primitives) (ephemeralSk sk : Bytes) : Bytes :=
  P.hkdfSha256 (P.x25519 ephemeralSk (x25519PublicKey P sk)) (utf8 "tor-marketplace-order-key-v1")

/-- The server encrypts whatever the cipher encrypts. -/
theorem encryptEcdhBlob_isSome (ephemeralSk nonce plaintext sk : Bytes) :
    (encryptEcdhBlob P ephemeralSk nonce plaintext (x25519PublicKey P sk)).isSome =
      (P.chachaEncrypt (ecdhKey P ephemeralSk sk) nonce plaintext).isSome := by
  unfold encryptEcdhBlob ecdhKey
  dsimp only
  cases P.chachaEncrypt (P.hkdfSha256 (P.x25519 ephemeralSk (x25519PublicKey P sk))
    (utf8 "tor-marketplace-order-key-v1")) nonce plaintext with
  | none => rfl
  | some c => rfl

/-- **The two implementations agree.** Each opens what the other has encrypted to the public key of
its secret key, for every plaintext that the cipher takes, and on every byte string the two
decryptions fail together or return the same plaintext. -/
theorem ecdh_blobs_agree (hP : EcdhLaws P) :
    (∀ ephemeralSk nonce plaintext sk, nonce.length = 12 → sk.length = 32 →
      (P.chachaEncrypt (ecdhKey P ephemeralSk sk) nonce plaintext).isSome →
      (∃ blob, Wasm.encryptOrder P ephemeralSk nonce plaintext (x25519PublicKey P sk) = .ok blob ∧
        decryptEcdhBlob P blob sk = some plaintext) ∧
      ∃ blob, encryptEcdhBlob P ephemeralSk nonce plaintext (x25519PublicKey P sk) = some blob ∧
        Wasm.decryptOrder P blob sk = .ok plaintext) ∧
    ∀ blob key, key.length = 32 →
      (Wasm.decryptOrder P blob key).toOption = decryptEcdhBlob P blob key := by
  refine ⟨fun ephemeralSk nonce plaintext sk hn hsk hcipher => ?_, fun blob key hkey => ?_⟩
  · rw [← encryptEcdhBlob_isSome] at hcipher
    obtain ⟨blob, hblob⟩ := Option.isSome_iff_exists.mp hcipher
    have hopen := decrypt_encryptEcdhBlob hP hn hblob
    refine ⟨⟨blob, ?_, hopen⟩, blob, hblob, ?_⟩
    · have hpk : (x25519PublicKey P sk).length = 32 := hP.length _ _
      rw [Wasm.encryptOrder_eq ephemeralSk nonce plaintext hpk, hblob]
    · have hagree := Wasm.decryptOrder_eq hP blob hsk
      rw [hopen] at hagree
      cases hdec : Wasm.decryptOrder P blob sk with
      | ok p =>
        rw [hdec] at hagree
        exact congrArg Except.ok (Option.some.inj hagree)
      | error e =>
        rw [hdec] at hagree
        exact absurd hagree (by simp [Except.toOption])
  · exact Wasm.decryptOrder_eq hP blob hkey

/-! ## Two keys -/

namespace EcdhSample

def ephemeralSk : Bytes := List.replicate 32 0x11

def sk : Bytes := List.replicate 32 0x22

def ephemeralPk : Bytes :=
  beBytes 32 0x7b4e909bbe7ffe44c465a220037d608ee35897d31ef972f07f74892cb0f73f13

def pk : Bytes := beBytes 32 0x0faa684ed28867b97f4a6a2dee5df8ce974e76b7018e3f22a1c4cf2678570f20

def sharedSecret : Bytes :=
  beBytes 32 0x9e004098efc091d4ec2663b4e9f5cfd4d7064571690b4bea97ab146ab9f35056

def key : Bytes := beBytes 32 0x7ef05892300572ec8c942dc0b4217b39c2e8b22d7316a325772d5c4e73123cd6

def nonce : Bytes := List.replicate 12 5

def ciphertext : Bytes := beBytes 19 0xb651d03e6b7bc4f0a97ac5dab5bd2d02c5730a

/-- X25519 for the two secret keys, and zero for every other. -/
def x25519 (s p : Bytes) : Bytes :=
  if s = ephemeralSk ∧ p = x25519Base then ephemeralPk
  else if s = sk ∧ p = x25519Base then pk
  else if s = ephemeralSk ∧ p = pk ∨ s = sk ∧ p = ephemeralPk then sharedSecret
  else List.replicate 32 0

def tables : Primitives.Tables where
  hkdfSha256 := [((sharedSecret, utf8 "tor-marketplace-order-key-v1"), key)]
  chacha := [((key, nonce, ciphertext), [1, 2, 3])]

def prim : Primitives := { Primitives.ofTables tables with x25519 := x25519 }

theorem keys_ne : ephemeralSk ≠ sk ∧ ephemeralPk ≠ x25519Base ∧ pk ≠ x25519Base ∧
    ephemeralPk ≠ pk ∧ List.replicate 32 0 ≠ x25519Base ∧ List.replicate 32 0 ≠ ephemeralPk ∧
    List.replicate 32 0 ≠ pk := by decide +kernel

/-- The public key of any secret key. -/
theorem publicKey_eq (s : Bytes) : x25519 s x25519Base =
    if s = ephemeralSk then ephemeralPk else if s = sk then pk else List.replicate 32 0 := by
  obtain ⟨-, he, hp, -⟩ := keys_ne
  simp [x25519, he.symm, hp.symm]

theorem laws : EcdhLaws prim where
  length s p := by
    change (x25519 s p).length = 32
    unfold x25519
    split_ifs <;> rfl
  comm s s' := by
    change x25519 s (x25519 s' x25519Base) = x25519 s' (x25519 s x25519Base)
    obtain ⟨hne, he, hp, hep, hz, hze, hzp⟩ := keys_ne
    rw [publicKey_eq, publicKey_eq]
    by_cases h₁ : s = ephemeralSk <;> by_cases h₂ : s' = ephemeralSk <;>
      by_cases h₃ : s = sk <;> by_cases h₄ : s' = sk <;>
      simp_all [x25519, hne.symm, hep.symm]
  refuses_short k n c h := by
    change tables.chacha.lookup (k, n, c) = none
    have hc : c ≠ ciphertext := fun hc => absurd (hc ▸ h) (by decide +kernel)
    have hb : ((k, n, c) == (key, nonce, ciphertext)) = false :=
      beq_false_of_ne fun he => hc (Prod.mk.inj (Prod.mk.inj he).2).2
    simp [tables, List.lookup_cons, hb]

end EcdhSample

open EcdhSample in
/-- Both directions, for one plaintext. -/
theorem ecdh_blobs_agree_sample :
    (∃ blob, Wasm.encryptOrder prim ephemeralSk nonce [1, 2, 3] (x25519PublicKey prim sk) =
        .ok blob ∧ decryptEcdhBlob prim blob sk = some [1, 2, 3]) ∧
      ∃ blob, encryptEcdhBlob prim ephemeralSk nonce [1, 2, 3] (x25519PublicKey prim sk) =
        some blob ∧ Wasm.decryptOrder prim blob sk = .ok [1, 2, 3] :=
  (ecdh_blobs_agree laws).1 ephemeralSk nonce [1, 2, 3] sk rfl rfl (by decide +kernel)

end TorMarketplace
