import TorMarketplace.Frontend.Api
import TorMarketplace.Services.Auth

/-!
# The login of the browser client

The requests of `handlePasswordSubmit` in `frontend/app.js`: a challenge for the public key, the
signature of the challenge, and the auth key that every later request is made with.
-/

namespace TorMarketplace

open Encoding Js

namespace AuthClient

/-- `API.challenge(pubkeyHex)`. -/
def challengeRequest (c : AuthClient) : ChallengeRequest := ⟨c.authPubkeyHex⟩

/-- `CRYPTO.sign(challenge.challenge)`, of the hexadecimal text, as hexadecimal text. -/
def sign (c : AuthClient) (msgHex : String) : String := hexEncode (c.signDetached (hexToU8 (ascii msgHex)))

/-- `API.verify(challenge.challenge_id, pubkeyHex, signature)`. -/
def verifyRequest (c : AuthClient) (resp : ChallengeResponse) : VerifyRequest :=
  ⟨c.authPubkeyHex, resp.challengeId, c.sign resp.challenge⟩

/-- `API.setAuth(pubkeyHex, result.auth_key)`. -/
def setAuth (c : AuthClient) (resp : VerifyResponse) : AuthClient := { c with authKeyHex := resp.authKey }

end AuthClient

end TorMarketplace
