import TorMarketplace.Background.Amounts
import TorMarketplace.Crypto.Oblivious
import TorMarketplace.Gateway.Effects

/-!
# The payment poller

`background/payment_poller.rs` and `settle_stealth_order`: pending orders are funded or cancelled
after what the payment nodes say, and the settlement of released Bitcoin orders is retried.

The poller decides on the contents that `decodePending` finds in a snapshot of the table; each of its
writers reads the row again and decodes it with `decodeOrder`.
-/

namespace TorMarketplace

open Encoding Interleave Prog

/-- `REQUIRED_CONFIRMATIONS_XMR`. -/
def requiredConfirmationsXmr : UInt64 := 10

/-- `REQUIRED_CONFIRMATIONS_BTC`. -/
def requiredConfirmationsBtc : UInt64 := 6

def workerDbError : Failure := .worker "database"

/-- `get_worker_key`. -/
def getWorkerKey (st : AppState) : Program Bytes :=
  orFail st.workerKey (.worker "Worker key not configured - workers cannot decrypt")

/-- A row's content under the worker's own format: `decrypt_order_blob`, then `from_slice`. -/
def decodeOrder (P : Primitives) (workerKey : Bytes) (o : Order) : Option OrderData :=
  (decryptOrderBlob P o.encryptedOrderBlob workerKey o.id).bind OrderData.fromSlice

theorem decodeOrder_congr {P : Primitives} {workerKey : Bytes} {o o' : Order} (hid : o'.id = o.id)
    (hblob : o'.encryptedOrderBlob = o.encryptedOrderBlob) :
    decodeOrder P workerKey o' = decodeOrder P workerKey o := by
  rw [decodeOrder, decodeOrder, hid, hblob]

/-- A row's content as `check_pending_payments` reads it: whatever opens the blob first, the client's
format or the worker's own, is parsed. -/
def decodePending (P : Primitives) (workerKey : Bytes) (o : Order) : Option OrderData :=
  let paymentDecryptSk := deriveDomainKey P workerKey "payment-decrypt"
  ((decryptEcdhBlob P o.encryptedOrderBlob paymentDecryptSk).or
    (decryptOrderBlob P o.encryptedOrderBlob workerKey o.id)).bind OrderData.fromSlice

/-- `encrypt_order_blob(&serde_json::to_vec(&data)?, worker_key, order_id)`. -/
def sealOrder (st : AppState) (workerKey orderId : Bytes) (data : OrderData) : Program Bytes := do
  let nonce ← ask (.randomBytes 12)
  orFail (encryptOrderBlob st.prim nonce data.toVec workerKey orderId) (.worker "Encryption failed")

/-- The first steps of the three writers: read the row and decode it. -/
def loadOrder (st : AppState) (orderId : Bytes) : Program (Bytes × Order × OrderData) := do
  let workerKey ← orFail st.workerKey (.worker "worker_key not set")
  let order ← exec (.selectOrder orderId)
  let order ← orFail order workerDbError
  let order ← orFail order (.worker "order not found")
  let raw ← orFail (decryptOrderBlob st.prim order.encryptedOrderBlob workerKey order.id)
    (.worker "decrypt failed")
  let data ← orFail (OrderData.fromSlice raw) (.worker "parse failed")
  pure (workerKey, order, data)

def markOrderFunded (st : AppState) (orderId : Bytes) (now : Int64) : Program Unit := do
  let (workerKey, order, data) ← loadOrder st orderId
  ensure (data.state = "pending") (.worker "order not in pending state")
  let data := { data with state := "funded", fundedAt := some now }
  exec (.notifyPayment (hexEncode orderId))
  let newBlob ← sealOrder st workerKey orderId data
  let affected ← exec (.updateOrders
    { encryptedOrderBlob := some newBlob, expiryBucket := some (data.expiresAt.map floorTimestamp6h),
      bumpVersion := true, whereId := orderId, whereVersion := some order.version })
  let affected ← orFail affected workerDbError
  ensure (affected ≠ 0) (.worker "order modified by concurrent writer")

def markOrderCancelled (st : AppState) (orderId : Bytes) : Program Unit := do
  let (workerKey, order, data) ← loadOrder st orderId
  ensure (data.state = "pending") (.worker "order not in pending state")
  let data := { data with state := "cancelled" }
  let newBlob ← sealOrder st workerKey orderId data
  let affected ← exec (.updateOrders
    { encryptedOrderBlob := some newBlob, bumpVersion := true, whereId := orderId,
      whereVersion := some order.version })
  let affected ← orFail affected workerDbError
  ensure (affected ≠ 0) (.worker "order modified by concurrent writer")

/-- `btc_network` succeeds. -/
def btcNetworkOk (network : String) : Bool :=
  ["mainnet", "testnet", "signet", "regtest"].contains (network.map Char.toLower)

/-- `parse_secp_pubkey` succeeds. -/
def parseSecpPubkey (P : Primitives) (hex : String) : Bool :=
  match hexDecode hex with
  | some b => P.isSecpPubkey b
  | none => false

/-- `settle_stealth_order`: the content after it. -/
def settleStealthOrder (st : AppState) (orderId : Bytes) (data : OrderData) : Program OrderData :=
  if data.currency ≠ "BTC" ∨ data.settlementTxid.isSome then pure data
  else do
    ensure (btcNetworkOk st.network) (internal "Config error")
    let address ← orFail data.escrowAddress (internal "No escrow address for BTC order")
    let utxo ← ask (.hasConfirmedUtxo address)
    let utxo ← orFail utxo (internal "list_unspent")
    ensure utxo (internal "No confirmed UTXOs at stealth address")
    let sellerPk ← orFail data.sellerPubkey (internal "Missing seller pubkey")
    ensure (parseSecpPubkey st.prim sellerPk) (internal "Invalid seller pubkey")
    let feeAddress ← orFail st.feeAddressBtc (internal "No fee address configured")
    let buyerPk ← orFail data.buyerPubkey (internal "Missing buyer pubkey")
    ensure (parseSecpPubkey st.prim buyerPk) (internal "Invalid buyer pubkey")
    let txid ← ask (.broadcastSettlement orderId address sellerPk buyerPk feeAddress)
    let txid ← orFail txid (internal "Broadcast")
    pure { data with settlementTxid := some txid }

def retryBtcSettlement (st : AppState) (orderId : Bytes) : Program Unit := do
  let (workerKey, order, data) ← loadOrder st orderId
  if data.state ≠ "released" ∨ data.settlementTxid.isSome then pure ()
  else do
    let settled ← attempt (settleStealthOrder st orderId data)
    match settled with
    | .error _ => pure ()
    | .ok data =>
      if data.settlementTxid.isSome then do
        let newBlob ← sealOrder st workerKey orderId data
        let affected ← exec (.updateOrders
          { encryptedOrderBlob := some newBlob,
            expiryBucket := some (data.expiresAt.map floorTimestamp6h), bumpVersion := true,
            whereId := orderId, whereVersion := some order.version })
        let _ ← orFail affected workerDbError
        pure ()
      else pure ()

/-- The part that `check_xmr_payments` and `check_btc_payments` share, for one order. -/
def checkPayment (chain : Chain) (parseAmount : String → Option UInt64)
    (requiredConfirmations : UInt64) (st : AppState) (now : Int64) (rowId : Bytes)
    (data : OrderData) : Program Unit :=
  match data.escrowAddress with
  | none => pure ()
  | some escrowAddr => do
    let expected ← orFail (parseAmount (data.escrowAmount.getD "0")) (.worker "panic")
    if expected = 0 then pure ()
    else do
      let status ← ask (.checkPayment chain escrowAddr expected requiredConfirmations)
      match status with
      | none => pure ()
      | some status =>
        if status.forkDetected then pure ()
        else if status.received && status.confirmations ≥ requiredConfirmations then
          if status.address.all (· = escrowAddr) then do
            let _ ← attempt (markOrderFunded st rowId now)
            pure ()
          else pure ()
        else if status.received then pure ()
        else if now > data.expiresAt.getD (now + 86400) then do
          let _ ← attempt (markOrderCancelled st rowId)
          pure ()
        else pure ()

def checkXmrPayments (st : AppState) (orders : List (Bytes × OrderData)) (now : Int64) :
    Program Unit :=
  forEach (fun o => checkPayment .xmr parseXmrAmountSafe requiredConfirmationsXmr st now o.1 o.2)
    orders

def checkBtcPayments (st : AppState) (orders : List (Bytes × OrderData)) (now : Int64) :
    Program Unit :=
  forEach (fun o => checkPayment .btc parseBtcAmountSafe requiredConfirmationsBtc st now o.1 o.2)
    orders

/-- The orders of the snapshot that `check_pending_payments` goes on with: those it can decode and
that have an escrow address. -/
def pollable (P : Primitives) (workerKey : Bytes) (orders : List Order) : List (Bytes × OrderData) :=
  orders.filterMap fun o =>
    match decodePending P workerKey o with
    | some data => if data.escrowAddress.isSome then some (o.id, data) else none
    | none => none

/-- `if let Ok(false) = client.check_for_fork().await`. -/
def whenNoFork (chain : Chain) (body : Program Unit) : Program Unit := do
  let fork ← ask (.checkForFork chain)
  if fork = some false then body else pure ()

/-- The part of `check_pending_payments` that talks to the payment nodes. -/
def verifyPayments (st : AppState) (xmrOrders btcOrders : List (Bytes × OrderData)) (now : Int64) :
    Program Unit :=
  if xmrOrders = [] ∧ btcOrders = [] then pure ()
  else do
    whenNoFork .xmr (checkXmrPayments st xmrOrders now)
    whenNoFork .btc (checkBtcPayments st btcOrders now)

/-- One turn of the retry loop: `let _ = retry_btc_settlement(..).await`. -/
def tryRetryBtcSettlement (st : AppState) (orderId : Bytes) : Program Unit := do
  let _ ← attempt (retryBtcSettlement st orderId)
  pure ()

def checkPendingPayments (st : AppState) : Program Unit := do
  let time ← exec .now
  let now := floorTimestamp6h time
  let workerKey ← getWorkerKey st
  let orders ← exec .selectOrders
  let orders ← orFail orders workerDbError
  let decoded := pollable st.prim workerKey orders
  let xmrOrders := decoded.filter fun o => o.2.state = "pending" && o.2.currency = "XMR"
  let btcOrders := decoded.filter fun o => o.2.state = "pending" && o.2.currency = "BTC"
  let orderMap := decoded.filter fun o =>
    o.2.state = "released" && o.2.currency = "BTC" && o.2.settlementTxid.isNone
  verifyPayments st xmrOrders btcOrders now
  let keys ← ask (.intoKeys (orderMap.map Prod.fst))
  forEach (tryRetryBtcSettlement st) keys

end TorMarketplace
