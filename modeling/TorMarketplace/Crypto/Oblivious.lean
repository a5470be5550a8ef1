import TorMarketplace.Crypto.Primitives

/-!
# Blobs that only the worker opens

`crypto/oblivious.rs` and the domain keys of `crypto/escrow.rs`. There are two formats: the worker's
own blob, `nonce ‖ ciphertext` under a key derived from the worker key and the order id, and the
client's blob, `ephemeral key ‖ nonce ‖ ciphertext` under an X25519 shared secret. Neither format
has a mark that tells it from the other.
-/

namespace TorMarketplace

variable (P : Primitives)

/-- `derive_blob_key`. -/
def deriveBlobKey (serverSecret label id : Bytes) : Bytes := P.hmacSha256 serverSecret (label ++ id)

/-- `derive_order_key` of `oblivious.rs`. -/
def deriveOrderKey (serverSecret orderId : Bytes) : Bytes :=
  deriveBlobKey P serverSecret (utf8 "oblivious-order-v1") orderId

/-- `derive_listing_key`. -/
def deriveListingKey (serverSecret listingId : Bytes) : Bytes :=
  deriveBlobKey P serverSecret (utf8 "oblivious-listing-v1") listingId

/-- `encrypt_order_blob`, with the nonce it draws as an argument. -/
def encryptOrderBlob (nonce plaintext serverSecret orderId : Bytes) : Option Bytes :=
  (P.chachaEncrypt (deriveOrderKey P serverSecret orderId) nonce plaintext).map (nonce ++ ·)

/-- `decrypt_order_blob`. -/
def decryptOrderBlob (blob serverSecret orderId : Bytes) : Option Bytes :=
  if blob.length < 13 then none
  else P.chachaDecrypt (deriveOrderKey P serverSecret orderId) (blob.take 12) (blob.drop 12)

/-- `encrypt_listing_blob`, with the nonce it draws as an argument. -/
def encryptListingBlob (nonce plaintext serverSecret listingId : Bytes) : Option Bytes :=
  (P.chachaEncrypt (deriveListingKey P serverSecret listingId) nonce plaintext).map (nonce ++ ·)

/-- `decrypt_listing_blob`. -/
def decryptListingBlob (blob serverSecret listingId : Bytes) : Option Bytes :=
  if blob.length < 13 then none
  else P.chachaDecrypt (deriveListingKey P serverSecret listingId) (blob.take 12) (blob.drop 12)

def ecdhPubkeySize : Nat := 32

def ecdhNonceSize : Nat := 12

/-- `ECDH_BLOB_MIN`. -/
def ecdhBlobMin : Nat := ecdhPubkeySize + ecdhNonceSize + 1

/-- `decrypt_ecdh_blob`. -/
def decryptEcdhBlob (blob serverSecretKey : Bytes) : Option Bytes :=
  if blob.length < ecdhBlobMin then none
  else
    let ephemeralPk := blob.take ecdhPubkeySize
    let rest := blob.drop ecdhPubkeySize
    let sharedSecret := P.x25519 serverSecretKey ephemeralPk
    let key := P.hkdfSha256 sharedSecret (utf8 "tor-marketplace-order-key-v1")
    P.chachaDecrypt key (rest.take ecdhNonceSize) (rest.drop ecdhNonceSize)

/-- The base point of Curve25519. -/
def x25519Base : Bytes := 9 :: List.replicate 31 0

/-- `PublicKey::from` of a secret key. -/
def x25519PublicKey (secretKey : Bytes) : Bytes := P.x25519 secretKey x25519Base

/-- `encrypt_ecdh_blob`, with the ephemeral secret key and the nonce it draws as arguments. -/
def encryptEcdhBlob (ephemeralSk nonce plaintext recipientPubkey : Bytes) : Option Bytes := do
  let ephemeralPk := x25519PublicKey P ephemeralSk
  let sharedSecret := P.x25519 ephemeralSk recipientPubkey
  let key := P.hkdfSha256 sharedSecret (utf8 "tor-marketplace-order-key-v1")
  let ciphertext ← P.chachaEncrypt key nonce plaintext
  pure (ephemeralPk ++ nonce ++ ciphertext)

/-- `escrow::derive_domain_key`. -/
def deriveDomainKey (seed : Bytes) (domain : String) : Bytes :=
  P.hmacSha256 seed (utf8 "domain:" ++ utf8 domain)

variable {P}

/-- **The worker opens what it encrypted**, to the same plaintext. -/
theorem decrypt_encryptOrderBlob {nonce plaintext secret id blob : Bytes} (hn : nonce.length = 12)
    (h : encryptOrderBlob P nonce plaintext secret id = some blob) :
    decryptOrderBlob P blob secret id = some plaintext := by
  obtain ⟨c, hc, rfl⟩ := Option.map_eq_some_iff.mp h
  have hlen := P.encrypt_length hc
  rw [decryptOrderBlob, if_neg (by rw [List.length_append]; omega),
    List.take_left' hn, List.drop_left' hn]
  exact P.decrypt_encrypt hc

end TorMarketplace
