import TorMarketplace.Crypto.Bitcoin

/-!
# Stealth addresses

`crypto/stealth.rs`: a key for each order from ECDH between the owner's key of the order and the
buyer's key.
-/

namespace TorMarketplace

open Encoding

variable (P : Primitives) (B : Bitcoin)

namespace Stealth

/-- `derive_stealth_private_key`. -/
def deriveStealthPrivateKey (theirPk ourSk orderId : Bytes) : Option Bytes :=
  let shared := B.sharedSecret theirPk ourSk
  secretKeyFromSlice (P.sha256 (shared ++ utf8 "stealth-key-v1" ++ orderId))

/-- `stealth_public_key`. -/
def stealthPublicKey (stealthSk : Bytes) : Bytes := B.publicKey stealthSk

/-- `stealth_p2wpkh_address`, as a text. -/
def stealthP2wpkhAddress (stealthPk : Bytes) (network : Network) : String :=
  B.p2wpkhAddress stealthPk network

end Stealth

end TorMarketplace
