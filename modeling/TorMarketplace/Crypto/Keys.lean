import TorMarketplace.Crypto.Oblivious

/-!
# Derived keys and identities

`derive_order_key` of `crypto/escrow.rs`, the hop keys of `services/payments/coinswap.rs` that are
made with it, and the domain identities of `crypto/hmac_auth.rs`. The blob keys are in `Oblivious`,
the auth keys in `StatelessAuth`.
-/

namespace TorMarketplace

open Encoding

/-- The order of the group of secp256k1. -/
def secpOrder : Nat := 0xfffffffffffffffffffffffffffffffebaaedce6af48a03bbfd25e8cd0364141

/-- `secp256k1::SecretKey::from_slice`. -/
def secretKeyFromSlice (b : Bytes) : Option Bytes :=
  if b.length = 32 ∧ 0 < natOfBe b ∧ natOfBe b < secpOrder then some b else none

namespace Escrow

/-- `escrow::derive_order_key`. -/
def deriveOrderKey (P : Primitives) (masterSeed orderId : Bytes) : Option Bytes :=
  secretKeyFromSlice (P.hmacSha256 masterSeed (utf8 "order:" ++ orderId))

end Escrow

/-- `hop_key`. -/
def hopKey (P : Primitives) (masterSeed chainSeed : Bytes) (i : UInt64) : Option Bytes :=
  let seed := utf8 "coinswap:" ++ chainSeed ++ leBytes i
  Escrow.deriveOrderKey P masterSeed seed

/-- The constants of `hmac_auth::domains`. -/
inductive IdentityDomain where
  | orders
  | chat
  | disputes
  | auth
  | admin
  deriving DecidableEq

def IdentityDomain.bytes : IdentityDomain → Bytes
  | .orders => utf8 "orders"
  | .chat => utf8 "chat"
  | .disputes => utf8 "disputes"
  | .auth => utf8 "auth"
  | .admin => utf8 "admin"

/-- `derive_domain_identity`. -/
def deriveDomainIdentity (P : Primitives) (serverSecret domain pubkeyHash : Bytes) : Bytes :=
  P.hmacSha256 serverSecret (utf8 "domain-identity-v1" ++ domain ++ pubkeyHash)

end TorMarketplace
