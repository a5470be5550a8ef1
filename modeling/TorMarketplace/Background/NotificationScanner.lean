import TorMarketplace.Background.PaymentPoller

/-!
# The notification scanner

`background/notification_scanner.rs`: an `OP_RETURN` output names an order and a buyer key; the order
gets a stealth escrow address. The write is conditional on the version read, and whether it took
effect is not looked at.
-/

namespace TorMarketplace

open Encoding Interleave Prog

/-- `NOTIFICATION_MAGIC`. -/
def notificationMagic : Bytes := utf8 "bobN"

/-- `asm.strip_prefix("OP_RETURN ")?.trim()`. -/
def opReturnData (asm : String) : Option String :=
  let start := "OP_RETURN ".toList
  if start.isPrefixOf asm.toList then some (String.ofList (trim (asm.toList.drop start.length)))
  else none

/-- `extract_notification`. -/
def extractNotification : List DecodedVout → Option (Bytes × Bytes)
  | [] => none
  | vout :: vouts =>
    match vout.scriptPubKey.type with
    | none => none
    | some scriptType =>
      if scriptType ≠ "nulldata" then extractNotification vouts
      else
        match (vout.scriptPubKey.asm.bind opReturnData).bind hexDecode with
        | none => none
        | some bytes =>
          if ¬ notificationMagic.isPrefixOf bytes then extractNotification vouts
          else
            let payload := bytes.drop notificationMagic.length
            if payload.length < 65 then extractNotification vouts
            else some (payload.take 32, (payload.drop 32).take 33)

/-- One transaction of `listsinceblock`. -/
def scanTx (st : AppState) (tx : TxEntry) : Program Unit :=
  if tx.confirmations < 1 then pure ()
  else do
    let txHash ← orFail (hexDecode tx.txid) (.worker "txid")
    let already ← exec (.selectTracker txHash)
    let already ← orFail already workerDbError
    if already.isSome then pure ()
    else do
      let raw ← ask (.rawTransaction tx.txid)
      match raw with
      | none => pure ()
      | some hex => do
        let decoded ← ask (.decodeRawTransaction hex)
        match decoded.bind extractNotification with
        | none => pure ()
        | some (orderId, buyerPubkey) =>
          if orderId.length ≠ 32 then pure ()
          else do
            let order ← exec (.selectOrder orderId)
            let order ← orFail order workerDbError
            match order, st.workerKey with
            | some order, some workerKey =>
              match decodeOrder st.prim workerKey order with
              | none => pure ()
              | some data =>
                if data.escrowAddress.isSome then pure ()
                else if ¬ parseSecpPubkey st.prim (hexEncode buyerPubkey) then pure ()
                else do
                  let addr ← ask (.createStealthAddress (hexEncode buyerPubkey) orderId)
                  match addr with
                  | none => pure ()
                  | some addr => do
                    let data := { data with
                      escrowAddress := some addr, buyerPubkey := some (hexEncode buyerPubkey) }
                    let newBlob ← sealOrder st workerKey orderId data
                    let affected ← exec (.updateOrders
                      { encryptedOrderBlob := some newBlob,
                        expiryBucket := some (data.expiresAt.map floorTimestamp6h),
                        bumpVersion := true, whereId := orderId,
                        whereVersion := some order.version })
                    let _ ← orFail affected workerDbError
                    let now ← exec .now
                    let done ← exec
                      (.insertTracker ⟨txHash, orderId, buyerPubkey, floorTimestamp6h now⟩)
                    orFail done workerDbError
            | _, _ => pure ()

def scanNotifications (st : AppState) : Program Unit := do
  ensure (btcNetworkOk st.network) (.worker "Config error")
  let lastBlock ← exec .lastNotifBlock
  match lastBlock with
  | none => do
    let height ← ask .blockHeight
    let height ← orFail height (.worker "get_block_height")
    let hash ← ask (.blockHash height)
    let hash ← orFail hash (.worker "get_block_hash")
    exec (.setLastNotifBlock hash)
  | some blockHash => do
    let listed ← ask (.listSinceBlock blockHash)
    match listed with
    | none => pure ()
    | some (txs, newLastBlock) => do
      forEach (scanTx st) txs
      exec (.setLastNotifBlock newLastBlock)

end TorMarketplace
