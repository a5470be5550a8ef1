import TorMarketplace.Gateway.StatelessAuth

/-!
# Orders

`services/orders.rs`: the server stores opaque blobs. `update_order` is the one handler that verifies
a transition signature.
-/

namespace TorMarketplace

open Encoding Interleave Prog

structure CreateOrderRequest where
  /-- Base64. -/
  clientEncryptedBlob : String
  timeLockDays : Option UInt64
  nonce : String
  deriving DecidableEq

structure UpdateOrderRequest where
  /-- Base64. -/
  clientEncryptedBlob : String
  /-- Hex. -/
  transitionSignature : String
  nonce : String
  /-- The hour of the signed payload. -/
  hourBucket : UInt64
  deriving DecidableEq

structure OrderResponse where
  id : String
  clientEncryptedBlob : Option String
  dayBucket : Int64
  expiryBucket : Option Int64
  version : Int
  hasDispute : Bool
  deriving DecidableEq

/-- `MAX_ORDER_BLOB_BYTES`. -/
def maxOrderBlobBytes : Nat := 256 * 1024

def dbError : Failure := internal "DB error"

def createOrder (st : AppState) (req : CreateOrderRequest) : Program OrderResponse := do
  let blob ← orFail (base64Decode req.clientEncryptedBlob)
    (badRequest "Invalid client_encrypted_blob base64")
  ensure (blob ≠ []) (badRequest "client_encrypted_blob is empty")
  ensure (blob.length ≤ maxOrderBlobBytes) (badRequest "client_encrypted_blob too large")
  let fresh ← exec (.insertNonce .createOrder req.nonce)
  ensure fresh (conflict "Create-order nonce already used")
  let time ← exec .now
  let now := floorTimestamp6h time
  let lockDays := req.timeLockDays.getD st.defaultLockDays
  let lockSeconds := saturatingMul lockDays.toInt64 86400
  let expiryBucket := floorTimestamp6h (saturatingAdd now lockSeconds)
  let orderId ← ask (.randomBytes 16)
  let done ← exec (.insertOrder ⟨orderId, blob, now, some expiryBucket⟩)
  orFail done dbError
  pure
    { id := hexEncode orderId
      clientEncryptedBlob := some req.clientEncryptedBlob
      dayBucket := now
      expiryBucket := some expiryBucket
      version := 1
      hasDispute := false }

def getOrder (id : String) : Program OrderResponse := do
  let idBytes ← orFail (hexDecode id) (badRequest "Invalid order_id")
  let row ← exec (.selectOrder idBytes)
  let row ← orFail row dbError
  let row ← orFail row (notFound "Order not found")
  pure
    { id
      clientEncryptedBlob := some (base64Encode row.encryptedOrderBlob)
      dayBucket := row.dayBucket
      expiryBucket := row.expiryBucket
      version := row.version
      hasDispute := row.hasDispute ≠ 0 }

/-- The key of a nonce in the set of its kind: `format!("{}:{}", order_id, nonce)`. -/
def nonceKey (orderId nonce : String) : String := orderId ++ ":" ++ nonce

/-- An id that is hexadecimal has no colon, so a key tells the id as it was spelled, and the nonce. -/
theorem nonceKey_inj {id id' nonce nonce' : String} (h : (hexDecode id).isSome)
    (h' : (hexDecode id').isSome) (heq : nonceKey id nonce = nonceKey id' nonce') :
    id = id' ∧ nonce = nonce' := by
  have hkey (id nonce : String) : utf8 (nonceKey id nonce) = utf8 id ++ 58 :: utf8 nonce := by
    rw [nonceKey, utf8_append, utf8_append, List.append_assoc]
    rfl
  have hbefore {id : String} (h : (hexDecode id).isSome) : ∀ c ∈ utf8 id, decide (c ≠ 58) = true := by
    intro c hc
    have hdigit := hexBytes_digits h c hc
    refine decide_eq_true fun h58 => ?_
    rw [h58] at hdigit
    exact absurd hdigit (by decide)
  have htake {id : String} (nonce : String) (h : (hexDecode id).isSome) :
      (utf8 (nonceKey id nonce)).takeWhile (· ≠ 58) = utf8 id := by
    rw [hkey, List.takeWhile_append_of_pos (hbefore h), List.takeWhile_cons_of_neg (by decide),
      List.append_nil]
  obtain rfl : id = id' := utf8_inj (by rw [← htake nonce h, ← htake nonce' h', heq])
  refine ⟨rfl, utf8_inj ?_⟩
  have hbytes := congrArg utf8 heq
  rw [hkey, hkey] at hbytes
  exact (List.cons.inj (List.append_cancel_left hbytes)).2

def updateOrder (st : AppState) (auth : Authed) (id : String) (req : UpdateOrderRequest) :
    Program OrderResponse := do
  let idBytes ← orFail (hexDecode id) (badRequest "Invalid order_id")
  let blob ← orFail (base64Decode req.clientEncryptedBlob)
    (badRequest "Invalid client_encrypted_blob base64")
  ensure (blob ≠ []) (badRequest "client_encrypted_blob is empty")
  ensure (blob.length ≤ maxOrderBlobBytes) (badRequest "client_encrypted_blob too large")
  let fresh ← exec (.insertNonce .updateOrder (nonceKey id req.nonce))
  ensure fresh (conflict "Update-order nonce already used")
  let current ← exec (.selectOrder idBytes)
  let current ← orFail current dbError
  let row ← orFail current (notFound "Order not found")
  let nonceBytes ← orFail (hexDecode req.nonce) (badRequest "Invalid nonce hex")
  let sigBytes ← orFail (hexDecode req.transitionSignature)
    (badRequest "Invalid transition_signature hex")
  ensure (sigBytes.length = 64) (badRequest "Transition signature must be 64 bytes")
  let newBlobHash := st.prim.sha256 blob
  let payload := TransitionPayload.new idBytes row.version newBlobHash nonceBytes req.hourBucket
  ensure (verifyTransition st.prim auth.pubkeyBytes payload sigBytes)
    (authFailed "Transition signature invalid")
  let affected ← exec (.updateOrders
    { encryptedOrderBlob := some blob, bumpVersion := true, whereId := idBytes,
      whereVersion := some row.version })
  let affected ← orFail affected dbError
  ensure (affected ≠ 0) (conflict "Order was modified by another request")
  pure
    { id
      clientEncryptedBlob := some req.clientEncryptedBlob
      dayBucket := row.dayBucket
      expiryBucket := row.expiryBucket
      version := row.version + 1
      hasDispute := false }

end TorMarketplace
