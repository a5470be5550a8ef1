import TorMarketplace.Background.PaymentPoller

/-!
# The time-lock checker

`background/time_lock.rs`: one pass over a snapshot of the table. Each write is conditional on the
version of the snapshot, and a write that comes too late ends the pass.
-/

namespace TorMarketplace

open Encoding Interleave Prog

/-- `has_active_dispute`. -/
def hasActiveDispute (data : OrderData) : Bool := data.dispute.any fun d => d.resolvedAt.isNone

def writeOrder (st : AppState) (id : Bytes) (data : OrderData) (version : Int) : Program Unit := do
  let workerKey ← getWorkerKey st
  let blob ← sealOrder st workerKey id data
  let affected ← exec (.updateOrders
    { encryptedOrderBlob := some blob, expiryBucket := some (data.expiresAt.map floorTimestamp6h),
      bumpVersion := true, whereId := id, whereVersion := some version })
  let affected ← orFail affected workerDbError
  ensure (affected ≠ 0) (.worker "order modified by concurrent writer")

def handleShipped (st : AppState) (id : Bytes) (data : OrderData) (now : Int64) (version : Int) :
    Program Unit :=
  if hasActiveDispute data then pure ()
  else if ¬ data.canTransitionTo "released" then pure ()
  else
    let shippedAt := data.shippedAt.getD data.createdAt
    let releaseTime := saturatingAdd shippedAt data.timeLockSeconds
    if now ≥ releaseTime then
      writeOrder st id { data with state := "released", releasedAt := some now } version
    else pure ()

def handleFunded (st : AppState) (id : Bytes) (data : OrderData) (now : Int64) (version : Int) :
    Program Unit :=
  if hasActiveDispute data then pure ()
  else if ¬ data.canTransitionTo "disputed" then pure ()
  else
    let fundedAt := data.fundedAt.getD data.createdAt
    let shipWindow := saturatingMul data.timeLockSeconds 2
    let abandonTime := saturatingAdd fundedAt shipWindow
    if now ≥ abandonTime then do
      let uuid ← ask (.randomBytes 16)
      let dispute : DisputeData :=
        { id := uuidString uuid
          openedBy := hexEncode data.buyerPubkeyHash
          reason := "Auto-dispute: seller timeout after 2x time lock"
          resolution := none
          resolvedBy := none
          resolvedAt := none
          createdAt := now
          evidence := [] }
      writeOrder st id
        { data with
          state := "disputed"
          disputedAt := some now
          expiresAt := some (saturatingAdd now data.timeLockSeconds)
          disputeId := some dispute.id
          dispute := some dispute } version
    else pure ()

/-- The dispute once the refund has resolved it, unless it is resolved already. -/
def autoResolve (now : Int64) (d : DisputeData) : DisputeData :=
  if d.resolvedAt.isNone then
    { d with resolution := some "refund", resolvedBy := some "auto_system", resolvedAt := some now }
  else d

def handleDisputed (st : AppState) (id : Bytes) (data : OrderData) (now : Int64) (version : Int) :
    Program Unit :=
  if ¬ data.canTransitionTo "refunded" then pure ()
  else
    let expiresAt := data.expiresAt.getD (saturatingAdd data.createdAt data.timeLockSeconds)
    if now ≥ expiresAt then
      writeOrder st id
        { data with
          dispute := data.dispute.map (autoResolve now)
          state := "refunded"
          refundedAt := some now } version
    else pure ()

/-- One row of the snapshot. -/
def checkTimeLock (st : AppState) (workerKey : Bytes) (now : Int64) (order : Order) : Program Unit :=
  match decodeOrder st.prim workerKey order with
  | none => pure ()
  | some data =>
    if data.state = "shipped" then handleShipped st order.id data now order.version
    else if data.state = "funded" then handleFunded st order.id data now order.version
    else if data.state = "disputed" then handleDisputed st order.id data now order.version
    else pure ()

def checkTimeLocks (st : AppState) : Program Unit := do
  let time ← exec .now
  let now := floorTimestamp6h time
  let workerKey ← getWorkerKey st
  let orders ← exec .selectOrders
  let orders ← orFail orders workerDbError
  forEach (checkTimeLock st workerKey now) orders

end TorMarketplace
