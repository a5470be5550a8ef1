import TorMarketplace.Crypto.Keys
import TorMarketplace.Lib.Serde

/-!
# Keys at rest

`EncryptedBlob` of `crypto/zk.rs`, and what `crypto/escrow.rs` stores in it: the worker's seed, which stands in
the configuration as the hexadecimal digits of a JSON text, and the owner keys, as JSON.

`decryptMasterSeed_encrypt` and `decryptOwnerKey_encrypt` are the round trips. What is read may be spelt in
other ways (the fields in any order, others beside them, capital digits), and the version is not looked at.
-/

namespace TorMarketplace

open Encoding Json Serde

/-- `[u8; N]`. -/
abbrev ByteArr (n : Nat) := { b : Bytes // b.length = n }

/-- `[u8; N]` as JSON: an array of exactly `N` numbers. -/
def readByteArr (n : Nat) (v : Value) : Option (ByteArr n) :=
  (readVec readU8 v).bind fun b => if h : b.length = n then some ⟨b, h⟩ else none

def ofByteArr {n : Nat} (b : ByteArr n) : Value := ofVec ofU8 b.val

theorem roundTrip_byteArr (n : Nat) : RoundTrip (@ofByteArr n) (readByteArr n) where
  plain b := roundTrip_u8.vec.plain b.val
  read b := by
    rw [readByteArr, ofByteArr, roundTrip_u8.vec.read, Option.bind_some, dif_pos b.property]
  notNull b := roundTrip_u8.vec.notNull b.val

structure KeyEncryptionKey where
  key : ByteArr 32
  deriving DecidableEq

/-- Encrypted blob with metadata. -/
structure EncryptedBlob where
  ciphertext : Bytes
  nonce : ByteArr 12
  version : UInt8
  deriving DecidableEq

namespace EncryptedBlob

/-- `EncryptedBlob::encrypt`, with the nonce it draws as an argument. -/
def encrypt (P : Primitives) (nonceBytes : ByteArr 12) (plaintext : Bytes) (kek : KeyEncryptionKey) :
    Option EncryptedBlob :=
  (P.chachaEncrypt kek.key.val nonceBytes.val plaintext).map fun ciphertext => ⟨ciphertext, nonceBytes, 2⟩

/-- `EncryptedBlob::decrypt`. -/
def decrypt (P : Primitives) (b : EncryptedBlob) (kek : KeyEncryptionKey) : Option Bytes :=
  P.chachaDecrypt kek.key.val b.nonce.val b.ciphertext

def fields (b : EncryptedBlob) : List (String × Value) :=
  [("ciphertext", ofVec ofU8 b.ciphertext), ("nonce", ofByteArr b.nonce), ("version", ofU8 b.version)]

def toJson (b : EncryptedBlob) : Value := object b.fields

def ofJson (v : Value) : Option EncryptedBlob := do
  let s ← source 3 v
  return {
    ciphertext := ← s.field 0 "ciphertext" (readVec readU8)
    nonce := ← s.field 1 "nonce" (readByteArr 12)
    version := ← s.field 2 "version" readU8 }

/-- `serde_json::to_vec`. -/
def toVec (b : EncryptedBlob) : Bytes := print b.toJson

/-- `serde_json::from_slice`. -/
def fromSlice (raw : Bytes) : Option EncryptedBlob := (parse raw).bind ofJson

theorem nodup_fields (b : EncryptedBlob) : (b.fields.map Prod.fst).Nodup := by
  simp [fields]

theorem roundTrip : RoundTrip toJson ofJson where
  plain b := by
    simp [toJson, fields, object, plain, plainMembers, roundTrip_u8.plain, roundTrip_u8.vec.plain,
      (roundTrip_byteArr 12).plain]
  read b := by
    have hnd := nodup_object b.nodup_fields
    rw [toJson, ofJson, source_object]
    simp only [Option.bind_eq_bind, Option.bind_some,
      Source.field_map roundTrip_u8.vec hnd 0 "ciphertext" rfl,
      Source.field_map (roundTrip_byteArr 12) hnd 1 "nonce" rfl,
      Source.field_map roundTrip_u8 hnd 2 "version" rfl]
    rfl
  notNull b := by simp [toJson, object]

/-- What is written is read back. -/
theorem fromSlice_toVec (b : EncryptedBlob) : fromSlice b.toVec = some b := by
  rw [fromSlice, toVec, parse_print (roundTrip.plain b), Option.bind_some, roundTrip.read]

/-- A blob opens under the key that it was made with. -/
theorem decrypt_encrypt {P : Primitives} {nonceBytes : ByteArr 12} {plaintext : Bytes}
    {kek : KeyEncryptionKey} {b : EncryptedBlob} (h : encrypt P nonceBytes plaintext kek = some b) :
    b.decrypt P kek = some plaintext := by
  obtain ⟨c, hc, rfl⟩ := Option.map_eq_some_iff.mp h
  exact P.decrypt_encrypt hc

end EncryptedBlob

section

variable (P : Primitives)

/-! ## The seed of the worker -/

/-- Why a seed is not read; `SeedError.text` is without the text of the library. -/
inductive SeedError where
  | hexDecode
  | deserialize
  | decryption
  | wrongLength (n : Nat)
  deriving DecidableEq

def SeedError.text : SeedError → String
  | .hexDecode => "Master seed hex decode failed"
  | .deserialize => "Deserialize master seed failed"
  | .decryption => "Decryption failed"
  | .wrongLength n => "Master seed wrong length: " ++ toString n

/-- `encrypt_master_seed`. -/
def encryptMasterSeed (nonceBytes : ByteArr 12) (seed : ByteArr 32) (kek : KeyEncryptionKey) : Option String :=
  (EncryptedBlob.encrypt P nonceBytes seed.val kek).map fun blob => hexEncode blob.toVec

/-- `decrypt_master_seed`. -/
def decryptMasterSeed (hexStr : String) (kek : KeyEncryptionKey) : Except SeedError (ByteArr 32) := do
  let some data := hexDecode hexStr | throw .hexDecode
  let some blob := EncryptedBlob.fromSlice data | throw .deserialize
  let some plaintext := blob.decrypt P kek | throw .decryption
  if h : plaintext.length = 32 then pure ⟨plaintext, h⟩ else throw (.wrongLength plaintext.length)

/-! ## The keys of owners -/

/-- A `secp256k1::SecretKey`. -/
abbrev SecretKey := { b : Bytes // secretKeyFromSlice b = some b }

/-- `encrypt_owner_key`. -/
def encryptOwnerKey (nonceBytes : ByteArr 12) (sk : SecretKey) (kek : KeyEncryptionKey) : Option Bytes :=
  (EncryptedBlob.encrypt P nonceBytes sk.val kek).map EncryptedBlob.toVec

/-- `decrypt_owner_key`. -/
def decryptOwnerKey (encrypted : Bytes) (kek : KeyEncryptionKey) : Option Bytes := do
  let blob ← EncryptedBlob.fromSlice encrypted
  let plaintext ← blob.decrypt P kek
  secretKeyFromSlice plaintext

end

variable {P : Primitives} {nonceBytes : ByteArr 12} {kek : KeyEncryptionKey}

/-- **The seed comes back.** -/
theorem decryptMasterSeed_encrypt {seed : ByteArr 32} {hexStr : String}
    (h : encryptMasterSeed P nonceBytes seed kek = some hexStr) :
    decryptMasterSeed P hexStr kek = .ok seed := by
  obtain ⟨blob, hblob, rfl⟩ := Option.map_eq_some_iff.mp h
  have hdecode : hexDecode (hexEncode blob.toVec) = some blob.toVec := hexDecode_hexEncode _
  simp only [decryptMasterSeed, hdecode, EncryptedBlob.fromSlice_toVec, EncryptedBlob.decrypt_encrypt hblob,
    dif_pos seed.property]
  rfl

/-- **An owner key comes back.** -/
theorem decryptOwnerKey_encrypt {sk : SecretKey} {encrypted : Bytes}
    (h : encryptOwnerKey P nonceBytes sk kek = some encrypted) :
    decryptOwnerKey P encrypted kek = some sk.val := by
  obtain ⟨blob, hblob, rfl⟩ := Option.map_eq_some_iff.mp h
  simp only [decryptOwnerKey, EncryptedBlob.fromSlice_toVec, EncryptedBlob.decrypt_encrypt hblob,
    Option.bind_eq_bind, Option.bind_some, sk.property]

end TorMarketplace
