import TorMarketplace.Services.Orders

/-!
# Disputes

`services/disputes.rs`: the dispute blob of an order row, and its resolution by the holder of an
admin token.
-/

namespace TorMarketplace

open Encoding Interleave Prog

structure OpenDisputeRequest where
  orderId : String
  /-- Base64. -/
  clientEncryptedBlob : String
  transitionSignature : String
  nonce : String
  deriving DecidableEq

structure UpdateDisputeRequest where
  /-- Base64. -/
  clientEncryptedBlob : String
  transitionSignature : String
  nonce : String
  deriving DecidableEq

/-- What `ResolveDisputeRequest` and `RotateKekRequest` say about their admin token. -/
structure AdminToken where
  /-- Hex. -/
  tokenSignature : Option String
  /-- Hex. -/
  tokenMessage : Option String
  /-- Hex. -/
  tokenNonce : Option String
  tokenExpiryHour : Option Int64
  deriving DecidableEq

structure ResolveDisputeRequest where
  /-- Base64. -/
  outcomeBlob : String
  adminSignature : String
  nonce : String
  token : AdminToken
  deriving DecidableEq

structure DisputeResponse where
  id : String
  orderId : String
  clientEncryptedBlob : Option String
  version : Int
  hasDispute : Bool
  deriving DecidableEq

/-- `MAX_DISPUTE_BLOB_BYTES`. -/
def maxDisputeBlobBytes : Nat := 512 * 1024

def openDispute (req : OpenDisputeRequest) : Program DisputeResponse := do
  let orderIdBytes ← orFail (hexDecode req.orderId) (badRequest "Invalid order_id")
  let blob ← orFail (base64Decode req.clientEncryptedBlob)
    (badRequest "Invalid client_encrypted_blob base64")
  ensure (blob.length ≤ maxDisputeBlobBytes) (badRequest "dispute blob too large")
  let fresh ← exec (.insertNonce .dispute (nonceKey req.orderId req.nonce))
  ensure fresh (conflict "Dispute nonce already used")
  let disputeId ← ask (.randomBytes 16)
  let current ← exec (.selectOrder orderIdBytes)
  let current ← orFail current dbError
  let row ← orFail current (notFound "Order not found")
  let affected ← exec (.updateOrders
    { disputeClientBlob := some blob, hasDispute := some 1, bumpVersion := true,
      whereId := orderIdBytes, whereVersion := some row.version })
  let affected ← orFail affected dbError
  ensure (affected ≠ 0) (conflict "Order was modified by another request")
  pure
    { id := uuidString disputeId
      orderId := req.orderId
      clientEncryptedBlob := some req.clientEncryptedBlob
      version := row.version + 1
      hasDispute := true }

def getDispute (id : String) : Program DisputeResponse := do
  let orderIdBytes ← orFail (hexDecode id) (badRequest "Invalid id")
  let row ← exec (.selectOrder orderIdBytes)
  let row ← orFail row dbError
  let row ← orFail row (notFound "Dispute not found")
  ensure (row.hasDispute ≠ 0) (notFound "No dispute for this order")
  pure
    { id
      orderId := hexEncode orderIdBytes
      clientEncryptedBlob := row.disputeClientBlob.map base64Encode
      version := row.version
      hasDispute := true }

def updateDispute (id : String) (req : UpdateDisputeRequest) : Program DisputeResponse := do
  let orderIdBytes ← orFail (hexDecode id) (badRequest "Invalid id")
  let blob ← orFail (base64Decode req.clientEncryptedBlob)
    (badRequest "Invalid client_encrypted_blob base64")
  ensure (blob.length ≤ maxDisputeBlobBytes) (badRequest "dispute blob too large")
  let fresh ← exec (.insertNonce .dispute (nonceKey id req.nonce))
  ensure fresh (conflict "Dispute nonce already used")
  let current ← exec (.selectOrder orderIdBytes)
  let current ← orFail current dbError
  let row ← orFail current (notFound "Dispute not found")
  let affected ← exec (.updateOrders
    { disputeClientBlob := some blob, bumpVersion := true, whereId := orderIdBytes,
      whereVersion := some row.version })
  let affected ← orFail affected dbError
  ensure (affected ≠ 0) (conflict "Order was modified by another request")
  pure
    { id
      orderId := id
      clientEncryptedBlob := some req.clientEncryptedBlob
      version := row.version + 1
      hasDispute := true }

/-- The admin token of a request once its fields are decoded. -/
structure TokenFields where
  sigBytes : Bytes
  msgHash : Bytes
  /-- The nonce as the request spells it. -/
  nonceHex : String
  nonceBytes : Bytes
  expiry : Int64

/-- The fields of an admin token, in the order in which both handlers decode them. -/
def decodeToken (t : AdminToken) : Program TokenFields := do
  let sigBytes ← orFail (t.tokenSignature.bind hexDecode)
    (badRequest "Missing or invalid token_signature")
  let msgBytes ← orFail (t.tokenMessage.bind hexDecode)
    (badRequest "Missing or invalid token_message")
  let tokenNonceHex ← orFail t.tokenNonce (badRequest "Missing token_nonce")
  let tokenNonceBytes ← orFail (hexDecode tokenNonceHex) (badRequest "Invalid token_nonce hex")
  let tokenExpiry ← orFail t.tokenExpiryHour (badRequest "Missing token_expiry_hour")
  ensure (msgBytes.length = 32) (badRequest "token_message must be 32 bytes")
  pure ⟨sigBytes, msgBytes, tokenNonceHex, tokenNonceBytes, tokenExpiry⟩

/-- The part that `resolve_dispute` and `rotate_kek` share: the token names the action, its signature
verifies, and its hour is the current one to within one. The subtraction and `abs` wrap around. -/
def checkToken (P : Primitives) (kp : AdminKeypair) (domain actionId : String) (t : TokenFields) :
    Program Unit := do
  let expected := composeTokenMessage P domain actionId t.nonceBytes t.expiry.toUInt64
  ensure (t.msgHash = expected) (forbidden "Token message does not match request context")
  ensure (verifyToken t.msgHash t.sigBytes kp.pub) (forbidden "Invalid admin token signature")
  let now ← exec .now
  let nowHour := (hourOf now).toInt64
  ensure (¬ (t.expiry - nowHour).abs > 1) (forbidden "Admin token expired or not yet valid")

def resolveDispute (st : AppState) (id : String) (req : ResolveDisputeRequest) :
    Program DisputeResponse := do
  let adminKp ← orFail st.adminKeypair (internal "Admin keypair not configured")
  let t ← decodeToken req.token
  checkToken st.prim adminKp "dispute:resolve" id t
  let fresh ← exec (.insertNonce .adminToken (nonceKey id t.nonceHex))
  ensure fresh (conflict "Admin token nonce already used")
  let orderIdBytes ← orFail (hexDecode id) (badRequest "Invalid id")
  let outcome ← orFail (base64Decode req.outcomeBlob) (badRequest "Invalid outcome_blob base64")
  ensure (outcome.length ≤ maxDisputeBlobBytes) (badRequest "outcome blob too large")
  let current ← exec (.selectOrder orderIdBytes)
  let current ← orFail current dbError
  let row ← orFail current (notFound "Dispute not found")
  let affected ← exec (.updateOrders
    { disputeClientBlob := some outcome, hasDispute := some 0, bumpVersion := true,
      whereId := orderIdBytes, whereVersion := some row.version })
  let affected ← orFail affected dbError
  ensure (affected ≠ 0) (conflict "Order was modified by another request")
  pure
    { id
      orderId := id
      clientEncryptedBlob := some req.outcomeBlob
      version := row.version + 1
      hasDispute := false }

end TorMarketplace
