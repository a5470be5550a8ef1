import TorMarketplace.Frontend.Client
import TorMarketplace.Gateway.StatelessAuth

/-!
# The requests of the browser client

`makeAuthHeaders` of `frontend/api.js`, with `sign` of `frontend/crypto.js`. The HMAC is over key,
hour, path and nonce, with nothing between them, and the signature over HMAC, key, hour and nonce.
-/

namespace TorMarketplace

open Encoding Js

/-- What a call of `makeAuthHeaders` is for. -/
structure AuthTriple where
  path : String
  hour : UInt64
  nonce : Bytes
  deriving DecidableEq

/-- What the module keeps after `setAuth`, and the signature of the key pair. -/
structure AuthClient where
  authPubkeyHex : String
  authKeyHex : String
  /-- `nacl.sign.detached`. -/
  signDetached : Bytes → Bytes

namespace AuthClient

def pubkeyBytes (c : AuthClient) : Bytes := hexToU8 (ascii c.authPubkeyHex)

def authKeyBytes (c : AuthClient) : Bytes := hexToU8 (ascii c.authKeyHex)

def hmacInput (c : AuthClient) (t : AuthTriple) : Bytes :=
  c.pubkeyBytes ++ leBytes t.hour ++ utf8 t.path ++ t.nonce

def hmacSig (P : Primitives) (c : AuthClient) (t : AuthTriple) : Bytes :=
  P.hmacSha256 c.authKeyBytes (c.hmacInput t)

def challengeBytes (P : Primitives) (c : AuthClient) (t : AuthTriple) : Bytes :=
  c.hmacSig P t ++ c.pubkeyBytes ++ leBytes t.hour ++ t.nonce

/-- The message that `sign` makes of the hexadecimal text that it is given. -/
def signedMessage (P : Primitives) (c : AuthClient) (t : AuthTriple) : Bytes :=
  hexToU8 (u8ToHex (c.challengeBytes P t))

/-- `makeAuthHeaders`, at `now` in milliseconds and with these 16 random bytes. -/
def makeAuthHeaders (P : Primitives) (c : AuthClient) (path : String) (now : Nat)
    (nonceBytes : Bytes) : AuthHeaders :=
  let hour := now / 3600000
  let t : AuthTriple := ⟨path, UInt64.ofNat hour, nonceBytes⟩
  { pubkey := some c.authPubkeyHex
    hmac := some (hexEncode (c.hmacSig P t))
    hour := some (toString hour)
    nonce := some (hexEncode nonceBytes)
    signature := some (hexEncode (c.signDetached (c.signedMessage P t))) }

end AuthClient

/-! ## Hexadecimal there and back -/

theorem hexToU8_pair : ∀ x : UInt8, hexToU8 ((hexPair x).map UInt8.toUInt16) = [x] :=
  forall_byte (by decide +kernel)

/-- `hexToU8` reads what `u8ToHex` writes. -/
@[simp] theorem hexToU8_u8ToHex (b : Bytes) : hexToU8 (u8ToHex b) = b := by
  unfold u8ToHex ascii
  rw [utf8_hexEncode]
  induction b with
  | nil => rfl
  | cons x b ih =>
    have hx := hexToU8_pair x
    simp only [hexPair, List.map_cons, List.map_nil, hexToU8] at hx
    simp only [List.flatMap_cons, hexPair, List.cons_append, List.nil_append, List.map_cons, hexToU8]
    rw [(List.cons.inj hx).1]
    exact congrArg (x :: ·) ih

/-- So the message is the challenge. -/
@[simp] theorem AuthClient.signedMessage_eq (P : Primitives) (c : AuthClient) (t : AuthTriple) :
    c.signedMessage P t = c.challengeBytes P t := hexToU8_u8ToHex _

end TorMarketplace
