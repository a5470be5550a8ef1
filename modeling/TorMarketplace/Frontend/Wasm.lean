import TorMarketplace.Crypto.Primitives
import TorMarketplace.Crypto.Oblivious
import TorMarketplace.Lib.Cbor

/-!
# The WASM client

`encrypt.rs`, `decrypt.rs` and `transition.rs` of the `wasm` crate. What the crate draws at random is
an argument; an error is the text that it hands to JavaScript, and so is a panic.
-/

namespace TorMarketplace.Wasm

open Encoding Cbor

def pubkeySize : Nat := 32

def nonceSize : Nat := 12

section

variable (P : Primitives)

/-- `encrypt_order`. -/
def encryptOrder (ephemeralSk nonceBytes plaintext recipientPubkey : Bytes) :
    Except String Bytes := do
  if recipientPubkey.length ≠ pubkeySize then
    throw "recipient_pubkey must be 32 bytes"
  let ephemeralPk := x25519PublicKey P ephemeralSk
  let sharedSecret := P.x25519 ephemeralSk recipientPubkey
  let key := P.hkdfSha256 sharedSecret (utf8 "tor-marketplace-order-key-v1")
  let some ciphertext := P.chachaEncrypt key nonceBytes plaintext
    | throw "Encryption must not fail"
  pure (ephemeralPk ++ nonceBytes ++ ciphertext)

/-- `decrypt_order`. -/
def decryptOrder (ciphertext secretKey : Bytes) : Except String Bytes := do
  if secretKey.length ≠ pubkeySize then
    throw "secret_key must be 32 bytes"
  if ciphertext.length < pubkeySize + nonceSize then
    throw "ciphertext too short"
  let ephemeralPk := ciphertext.take pubkeySize
  let nonce := (ciphertext.drop pubkeySize).take nonceSize
  let encrypted := ciphertext.drop (pubkeySize + nonceSize)
  let sharedSecret := P.x25519 secretKey ephemeralPk
  let key := P.hkdfSha256 sharedSecret (utf8 "tor-marketplace-order-key-v1")
  let some plaintext := P.chachaDecrypt key nonce encrypted
    | throw "decryption failed"
  pure plaintext

end

/-! ## Transitions -/

/-- `TRANSITION_SIG_VERSION`. -/
def transitionSigVersion : UInt8 := 1

/-- `BTreeMap::insert`, on the entries in the order of their keys. -/
def btreeInsert (key : Int) (value : Item) : List (Int × Item) → List (Int × Item)
  | [] => [(key, value)]
  | e :: l =>
    if key < e.1 then (key, value) :: e :: l
    else if key = e.1 then (key, value) :: l
    else e :: btreeInsert key value l

/-- `transition_to_cbor`. -/
def transitionToCbor (orderId : Bytes) (prevVersion : Int64) (newBlobSha256 nonce : Bytes)
    (hourBucket : UInt64) : Except String Bytes := do
  if newBlobSha256.length ≠ 32 then
    throw "new_blob_sha256 must be 32 bytes"
  let map : List (Int × Item) := []
  let map := btreeInsert 1 (.int transitionSigVersion.toNat) map
  let map := btreeInsert 2 (.bytes orderId) map
  let map := btreeInsert 3 (.int prevVersion.toInt) map
  let map := btreeInsert 4 (.bytes newBlobSha256) map
  let map := btreeInsert 5 (.bytes nonce) map
  let map := btreeInsert 6 (.int hourBucket.toInt64.toInt) map
  pure (encodeMap (map.map fun (k, v) => (.int k, v)))

/-- `sign_transition`; `signWith` is the signature of a message under the key of a seed. -/
def signTransition (signWith : Bytes → Bytes → Bytes) (secretKey orderId : Bytes) (prevVersion : Int64)
    (newBlobSha256 nonce : Bytes) (hourBucket : UInt64) : Except String Bytes := do
  if secretKey.length ≠ 32 then
    throw "secret_key must be 32 bytes"
  let cbor ← transitionToCbor orderId prevVersion newBlobSha256 nonce hourBucket
  pure (signWith secretKey cbor)

end TorMarketplace.Wasm
