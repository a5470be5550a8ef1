import TorMarketplace.Gateway.StatelessAuth

/-!
# Login

`services/auth.rs`: a client asks for a challenge and gets the auth key of a public key for a
signature over it.
-/

namespace TorMarketplace

open Encoding Interleave Prog

/-- `CHALLENGE_TTL_SECS`. -/
def challengeTtlSecs : Int64 := 300

structure ChallengeRequest where
  pubkey : String
  deriving DecidableEq

structure ChallengeResponse where
  challengeId : String
  challenge : String
  deriving DecidableEq

structure VerifyRequest where
  pubkey : String
  challengeId : String
  signature : String
  deriving DecidableEq

structure VerifyResponse where
  authKey : String
  deriving DecidableEq

/-- `cleanup_challenges`. -/
def cleanupChallenges : Program Unit := do
  let now ← exec .now
  exec (.retainChallenges now)

def challenge (req : ChallengeRequest) : Program ChallengeResponse := do
  let pkBytes ← orFail (hexDecode req.pubkey) (badRequest "invalid pubkey hex")
  ensure (pkBytes.length = 32) (badRequest "invalid pubkey length")
  let challengeBytes ← ask (.randomBytes 32)
  let idBytes ← ask (.randomBytes 16)
  let challengeId := hexEncode idBytes
  let now ← exec .now
  cleanupChallenges
  exec (.insertChallenge challengeId challengeBytes (now + challengeTtlSecs))
  pure ⟨challengeId, hexEncode challengeBytes⟩

def verify (st : AppState) (req : VerifyRequest) : Program VerifyResponse := do
  let pkBytes ← orFail (hexDecode req.pubkey) (badRequest "invalid pubkey hex")
  ensure (pkBytes.length = 32) (badRequest "invalid pubkey length")
  let sigBytes ← orFail (hexDecode req.signature) (badRequest "invalid signature hex")
  cleanupChallenges
  let entry ← exec (.removeChallenge req.challengeId)
  let (challengeBytes, _) ← orFail entry (badRequest "challenge not found or expired")
  ensure (st.prim.isVerifyingKey pkBytes) (badRequest "invalid pubkey")
  ensure (sigBytes.length = 64) (badRequest "invalid signature encoding")
  ensure (st.prim.ed25519Verify pkBytes challengeBytes sigBytes)
    (badRequest "signature verification failed")
  pure ⟨hexEncode (deriveAuthKey st.prim st.serverSecret pkBytes)⟩

end TorMarketplace
