import TorMarketplace.Frontend.Login
import TorMarketplace.Frontend.Orders
import TorMarketplace.Frontend.Wasm

/-!
# The signed update of the browser client

`signTransition` of `frontend/crypto.js` and the body that `updateOrder` of `frontend/api.js` makes with
it. The seed is the first half of the secret key, and the signature is the crate's.
-/

namespace TorMarketplace

open Encoding Js

/-- `keypair.seckey`, and the signature under the key of a seed. -/
structure Signer where
  seckey : Bytes
  signWith : Bytes → Bytes → Bytes

namespace Signer

/-- `signTransition`. -/
def signTransition (P : Primitives) (s : Signer) (orderIdHex : String) (prevVersion : Int64)
    (blobBytes nonceBytes : Bytes) (hourBucket : UInt64) : Except String String := do
  let seed := s.seckey.take 32
  let hash := P.sha256 blobBytes
  let sig ← Wasm.signTransition s.signWith seed (hexToU8 (ascii orderIdHex)) prevVersion hash nonceBytes
    hourBucket
  pure (hexEncode sig)

/-- The body of `updateOrder`'s request. -/
def updateRequest (P : Primitives) (s : Signer) (orderId : String) (version : Int64) (blobB64 : String)
    (nonceBytes : Bytes) (hour : UInt64) : Except String UpdateOrderRequest := do
  let sig ← s.signTransition P orderId version (Api.base64ToU8 blobB64) nonceBytes hour
  pure ⟨blobB64, sig, hexEncode nonceBytes, hour⟩

end Signer

end TorMarketplace
