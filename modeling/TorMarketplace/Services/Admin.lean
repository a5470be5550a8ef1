import TorMarketplace.Services.Disputes

/-!
# Admin

`services/admin.rs`: blind signatures under the admin key, and the rotation of the KEK for the holder
of an admin token.
-/

namespace TorMarketplace

open Encoding Interleave Prog

structure RotateKekRequest where
  sessionNonce : String
  token : AdminToken
  deriving DecidableEq

structure RotateKekResponse where
  success : Bool
  message : String
  kekRotated : Bool
  deriving DecidableEq

structure BlindSignRequest where
  /-- Hex. -/
  blindedBlob : String
  deriving DecidableEq

structure BlindSignResponse where
  /-- Hex. -/
  blindedSignature : String
  deriving DecidableEq

structure AdminPubkeyResponse where
  adminPubkeyHex : String
  deriving DecidableEq

def blindSign (st : AppState) (req : BlindSignRequest) : Program BlindSignResponse := do
  let kp ← orFail st.adminKeypair (internal "Admin keypair not configured")
  let blinded ← orFail (hexDecode req.blindedBlob) (badRequest "Invalid hex")
  ensure (¬ (blinded = [] ∨ blinded.length > 512))
    (badRequest "Blinded message must be 1-512 bytes")
  pure ⟨hexEncode (signBlinded blinded kp.priv)⟩

def getAdminPubkey (st : AppState) : Program AdminPubkeyResponse := do
  let kp ← orFail st.adminKeypair (internal "Admin keypair not configured")
  pure ⟨kp.pubkeyHex⟩

def rotateKek (st : AppState) (req : RotateKekRequest) : Program RotateKekResponse := do
  let kp ← orFail st.adminKeypair (internal "Admin keypair not configured")
  let t ← decodeToken req.token
  checkToken st.prim kp "admin:rotate_kek" "rotate" t
  let newKek ← ask (.randomBytes 32)
  let written ← exec (.writeKek (hexEncode newKek))
  orFail written (internal "Failed to persist KEK rotation")
  pure ⟨true, "KEK rotated successfully. Key written to dedicated file.", true⟩

end TorMarketplace
