import Mathlib.Data.List.Infix
import TorMarketplace.Gateway.Effects
import TorMarketplace.Services.Payments.Rpc

/-!
# The Monero client

`services/payments/xmr.rs`: a view-only wallet that finds the transfers to a subaddress, and compares
the node's chain with the block it remembers. The audit records, which nothing reads, are left out.
-/

namespace TorMarketplace

open Encoding Interleave Json Prog Serde

/-- `MIN_PAYMENT_PICONERO`. -/
def minPaymentPiconero : UInt64 := 1000000000

/-- What the client keeps behind its mutexes. -/
structure MoneroMemory where
  lastBlockHeight : UInt64
  lastBlockHash : String
  forkDetected : Bool
  deriving DecidableEq

/-- `MoneroViewOnlyClient::new`. -/
def MoneroMemory.initial : MoneroMemory := ⟨0, "", false⟩

namespace MoneroViewOnlyClient

structure IncomingTransfer where
  txHash : String
  address : String
  amount : UInt64
  confirmations : UInt64
  timestamp : UInt64
  blockHeight : UInt64
  deriving DecidableEq

def getHeight : NodeClient MoneroMemory UInt64 := do
  let result ← rpcCall "XMR" "get_height" .null
  orFail (readU64 (index result "height")) (.worker "Missing height in response")

def getBlockHash (height : UInt64) : NodeClient MoneroMemory String := do
  let params := object [("height", .int height.toNat)]
  let result ← rpcCall "XMR" "get_block_hash" params
  orFail (readString result) (.worker "Missing block hash")

/-- `check_for_fork`. The first two requests come before the locks. -/
def checkForFork : NodeClient MoneroMemory Bool := do
  let currentHeight ← getHeight
  let currentHash ← getBlockHash currentHeight
  let last ← call (I := Rpc MoneroMemory) .memory
  if last.lastBlockHeight = 0 then do
    call (I := Rpc MoneroMemory) (.remember
      { last with lastBlockHeight := currentHeight, lastBlockHash := currentHash })
    pure false
  else if currentHeight < last.lastBlockHeight then do
    call (I := Rpc MoneroMemory) (.remember ⟨currentHeight, currentHash, true⟩)
    pure true
  else do
    let split ←
      if currentHeight > last.lastBlockHeight ∧ last.lastBlockHash ≠ "" then do
        let known ← attempt (getBlockHash last.lastBlockHeight)
        match known with
        | .ok currentKnownHash => pure (currentKnownHash ≠ last.lastBlockHash : Bool)
        | .error _ => pure false
      else pure false
    if split then do
      -- the height stays the old one
      call (I := Rpc MoneroMemory) (.remember
        { last with lastBlockHash := currentHash, forkDetected := true })
      pure true
    else do
      call (I := Rpc MoneroMemory) (.remember
        { last with lastBlockHeight := currentHeight, lastBlockHash := currentHash })
      pure false

/-- `s.contains(t)`. -/
def containsText (s t : String) : Bool := decide (utf8 t <:+: utf8 s)

/-- One transaction of the reply: a transfer, or skipped. -/
def incomingTransfer (subaddress : String) (currentHeight : UInt64) (tx : Value) :
    Option IncomingTransfer :=
  let txType := (readString (index tx "type")).getD ""
  if ¬ containsText txType "in" ∧ txType ≠ "in" then none
  else
    let amount := (readU64 (index tx "amount")).getD 0
    if amount < minPaymentPiconero then none
    else
      let blockHeight := (readU64 (index tx "height")).getD currentHeight
      some
        { txHash := (readString (index tx "txid")).getD ""
          address := subaddress
          amount
          -- `current_height.saturating_sub(block_height)`
          confirmations := if blockHeight ≤ currentHeight then currentHeight - blockHeight else 0
          timestamp := (readU64 (index tx "timestamp")).getD 0
          blockHeight }

/-- The transactions of a reply to `get_address_txs`. -/
def transactions (result : Value) : List Value :=
  match (member result "transactions").or (member result "txs") with
  | some txs => (asArray txs).getD []
  | none => []

def createSubaddress (orderId : String) : NodeClient MoneroMemory String := do
  let params := object [("account_index", .int 0), ("label", ofString ("order:" ++ orderId))]
  let result ← rpcCall "XMR" "create_address" params
  orFail (readString (index result "address")) (.worker "Missing address in response")

/-- `get_balance`: the balance and what of it is unlocked. -/
def getBalance (subaddress : String) : NodeClient MoneroMemory (UInt64 × UInt64) := do
  let params := object [("account_index", .int 0), ("address", ofString subaddress)]
  let result ← rpcCall "XMR" "get_balance" params
  pure ((readU64 (index result "balance")).getD 0, (readU64 (index result "unlocked_balance")).getD 0)

def getIncomingTransfers (subaddress : String) : NodeClient MoneroMemory (List IncomingTransfer) := do
  let currentHeight ← getHeight
  let params := object [("account_index", .int 0), ("address", ofString subaddress)]
  let result ← rpcCall "XMR" "get_address_txs" params
  pure ((transactions result).filterMap (incomingTransfer subaddress currentHeight))

/-- The transfer is what the loop of `check_payment_with_confirmations` looks for. -/
def IncomingTransfer.pays (t : IncomingTransfer) (subaddress : String) (expectedAmount : UInt64) :
    Bool :=
  t.address = subaddress && !(t.amount < minPaymentPiconero) && t.amount ≥ expectedAmount &&
    expectedAmount > 0

/-- What is reported for the transfer. It is the same whether the confirmations are enough or not. -/
def IncomingTransfer.status (t : IncomingTransfer) : PaymentStatus :=
  ⟨true, t.amount, t.confirmations, some t.txHash, some t.address, false⟩

def checkPaymentWithConfirmations (subaddress : String) (expectedAmount : UInt64)
    (_requiredConfirmations : UInt64) : NodeClient MoneroMemory PaymentStatus := do
  let forkDetected ← checkForFork
  if forkDetected then pure ⟨false, 0, 0, none, none, true⟩
  else do
    let transfers ← getIncomingTransfers subaddress
    match transfers.find? (·.pays subaddress expectedAmount) with
    | some transfer => pure transfer.status
    | none => pure ⟨false, 0, 0, none, none, false⟩

end MoneroViewOnlyClient

end TorMarketplace
