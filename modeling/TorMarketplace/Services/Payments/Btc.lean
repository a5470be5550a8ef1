import TorMarketplace.Gateway.Effects
import TorMarketplace.Lib.F64
import TorMarketplace.Services.Payments.Rpc

/-!
# The Bitcoin client

`services/payments/btc.rs` and `btc_client.rs`: the node's wallet is asked for the transactions of an
address, and the hash at the height of the last check is compared if the height is still the same.
`rpc_call` takes the `result` out of a reply, and its callers look for a `result` in there again.
-/

namespace TorMarketplace

open Encoding Interleave Json Prog Serde

/-- `DUST_THRESHOLD_SATS`. -/
def dustThresholdSats : UInt64 := 546

/-- `last_block_hash` of the client. -/
abbrev BitcoinMemory := Option (UInt64 × String)

structure TransactionDetail where
  txid : String
  address : Option String
  amount : Rat
  fee : Option Rat
  confirmations : Int32
  time : Int64
  label : Option String
  deriving DecidableEq

def TransactionDetail.ofJson (v : Value) : Option TransactionDetail := do
  let s ← source 7 v
  return {
    txid := ← s.field 0 "txid" readString
    address := ← s.optField 1 "address" readString
    amount := ← s.field 2 "amount" F64.read
    fee := ← s.optField 3 "fee" F64.read
    confirmations := ← s.field 4 "confirmations" readI32
    time := ← s.field 5 "time" readI64
    label := ← s.optField 6 "label" readString }

structure ListUnspentEntry where
  txid : String
  vout : UInt32
  address : String
  amount : Rat
  confirmations : Int64
  deriving DecidableEq

def ListUnspentEntry.ofJson (v : Value) : Option ListUnspentEntry := do
  let s ← source 5 v
  return {
    txid := ← s.field 0 "txid" readString
    vout := ← s.field 1 "vout" readU32
    address := ← s.field 2 "address" readString
    amount := ← s.field 3 "amount" F64.read
    confirmations := ← s.field 4 "confirmations" readI64 }

structure RawTransaction where
  hex : String
  deriving DecidableEq

def RawTransaction.ofJson (v : Value) : Option RawTransaction := do
  let s ← source 1 v
  return { hex := ← s.field 0 "hex" readString }

structure ListSinceBlockEntry where
  txid : String
  address : Option String
  amount : Rat
  confirmations : Int64
  deriving DecidableEq

def ListSinceBlockEntry.ofJson (v : Value) : Option ListSinceBlockEntry := do
  let s ← source 4 v
  return {
    txid := ← s.field 0 "txid" readString
    address := ← s.optField 1 "address" readString
    amount := ← s.field 2 "amount" F64.read
    confirmations := ← s.field 3 "confirmations" readI64 }

structure ListSinceBlockResult where
  transactions : List ListSinceBlockEntry
  lastblock : String
  deriving DecidableEq

def ListSinceBlockResult.ofJson (v : Value) : Option ListSinceBlockResult := do
  let s ← source 2 v
  return {
    transactions := ← s.field 0 "transactions" (readVec ListSinceBlockEntry.ofJson)
    lastblock := ← s.field 1 "lastblock" readString }

namespace BitcoinClient

structure DecodedScriptPubKey where
  asm : Option String
  hex : String
  type : Option String
  deriving DecidableEq

def DecodedScriptPubKey.ofJson (v : Value) : Option DecodedScriptPubKey := do
  let s ← source 3 v
  return {
    asm := ← s.optField 0 "asm" readString
    hex := ← s.field 1 "hex" readString
    type := ← s.optField 2 "type" readString }

structure DecodedVout where
  value : Rat
  n : UInt32
  scriptPubKey : DecodedScriptPubKey
  deriving DecidableEq

/-- The derived name of the last field is its name in Rust. -/
def DecodedVout.ofJson (v : Value) : Option DecodedVout := do
  let s ← source 3 v
  return {
    value := ← s.field 0 "value" F64.read
    n := ← s.field 1 "n" readU32
    scriptPubKey := ← s.field 2 "script_pub_key" DecodedScriptPubKey.ofJson }

structure DecodedTx where
  txid : String
  hash : String
  version : Int64
  size : Int64
  vout : List DecodedVout
  deriving DecidableEq

def DecodedTx.ofJson (v : Value) : Option DecodedTx := do
  let s ← source 5 v
  return {
    txid := ← s.field 0 "txid" readString
    hash := ← s.field 1 "hash" readString
    version := ← s.field 2 "version" readI64
    size := ← s.field 3 "size" readI64
    vout := ← s.field 4 "vout" (readVec DecodedVout.ofJson) }

/-- `struct R { result: T }`. -/
def readR {α : Type} (read : Value → Option α) (v : Value) : Option α := do
  let s ← source 1 v
  s.field 0 "result" read

/-- `rpc_call`, and what its caller takes from the `R`. -/
def btcRpcCall {α : Type} (method : String) (params : Value) (read : Value → Option α) :
    NodeClient BitcoinMemory α := do
  let result ← rpcCall "BTC" method params
  orFail (readR read result) (rpcError "BTC" "parse failed")

/-- `wallet_is_ready`. Its `Result` is the reply's result, with an optional name. -/
def walletIsReady : NodeClient BitcoinMemory Bool := do
  let result ← rpcCall "BTC" "getwalletinfo" (.arr [])
  let _ ← orFail ((source 1 result).bind fun s => s.optField 0 "wallet_name" readString)
    (rpcError "BTC" "parse failed")
  pure true

def getBlockHeight : NodeClient BitcoinMemory UInt64 := btcRpcCall "getblockcount" .null readU64

def getBlockHash (height : UInt64) : NodeClient BitcoinMemory String :=
  btcRpcCall "getblockhash" (.arr [.int height.toNat]) readString

def checkForFork : NodeClient BitcoinMemory Bool := do
  let currentHeight ← getBlockHeight
  let currentHash ← getBlockHash currentHeight
  let cached ← call (I := Rpc BitcoinMemory) .memory
  match cached with
  | some (cachedHeight, cachedHash) =>
    if cachedHeight = currentHeight then
      if cachedHash ≠ currentHash then do
        call (I := Rpc BitcoinMemory) (.remember (some (currentHeight, currentHash)))
        pure true
      else pure false
    else do
      call (I := Rpc BitcoinMemory) (.remember (some (currentHeight, currentHash)))
      pure false
  | none => do
    call (I := Rpc BitcoinMemory) (.remember (some (currentHeight, currentHash)))
    pure false

def listTransactionsForAddress (address : String) :
    NodeClient BitcoinMemory (List TransactionDetail) := do
  let params := .arr [ofString "order:*", .int 10000, .int 0, .bool true]
  let result ← btcRpcCall "listtransactions" params (readVec TransactionDetail.ofJson)
  pure (result.filter fun tx => tx.address = some address)

/-- `create_address`, for the `address_type` of the configuration. -/
def createAddress (addressType orderId : String) : NodeClient BitcoinMemory String :=
  btcRpcCall "getnewaddress" (.arr [ofString ("order:" ++ orderId), ofString addressType]) readString

def getTransaction (txHash : String) : NodeClient BitcoinMemory TransactionDetail :=
  btcRpcCall "gettransaction" (.arr [ofString txHash, .bool true]) TransactionDetail.ofJson

def listUnspent (addresses : List String) : NodeClient BitcoinMemory (List ListUnspentEntry) :=
  btcRpcCall "listunspent" (.arr [.int 0, .int 9999999, ofVec ofString addresses])
    (readVec ListUnspentEntry.ofJson)

def getRawTransaction (txHash : String) : NodeClient BitcoinMemory RawTransaction :=
  btcRpcCall "gettransaction" (.arr [ofString txHash, .bool true]) RawTransaction.ofJson

def listSinceBlock (blockHash : String) : NodeClient BitcoinMemory ListSinceBlockResult :=
  btcRpcCall "listsinceblock" (.arr [ofString blockHash]) ListSinceBlockResult.ofJson

def decodeRawTransaction (hex : String) : NodeClient BitcoinMemory DecodedTx :=
  btcRpcCall "decoderawtransaction" (.arr [ofString hex]) DecodedTx.ofJson

end BitcoinClient

namespace BtcPaymentClient

structure IncomingTransfer where
  address : String
  amount : UInt64
  confirmations : UInt32
  txHash : String
  deriving DecidableEq

/-- `(amount * 100_000_000.0).round() as u64`. -/
def toSats (amount : Rat) : UInt64 := F64.roundToU64 (F64.mul amount 100000000)

/-- One transaction of the address: a transfer, or skipped. -/
def incomingTransfer (tx : TransactionDetail) : Option IncomingTransfer :=
  if tx.confirmations ≤ 0 then none
  else if tx.amount ≤ 0 then none
  else
    let sats := toSats tx.amount
    if sats < dustThresholdSats then none
    else tx.address.map fun addr => ⟨addr, sats, tx.confirmations.toInt.toNat.toUInt32, tx.txid⟩

def getIncomingTransfers (address : String) : NodeClient BitcoinMemory (List IncomingTransfer) := do
  let txs ← BitcoinClient.listTransactionsForAddress address
  pure (txs.filterMap incomingTransfer)

/-- The transfer is what the loop of `check_payment_with_confirmations` looks for. -/
def IncomingTransfer.pays (t : IncomingTransfer) (address : String)
    (expectedSatoshis requiredConfirmations : UInt64) : Bool :=
  t.address = address && !(t.amount < dustThresholdSats) && t.amount ≥ expectedSatoshis &&
    expectedSatoshis > 0 && t.confirmations.toUInt64 ≥ requiredConfirmations

/-- `BtcPaymentStatus::funded`. -/
def IncomingTransfer.status (t : IncomingTransfer) (address : String) : PaymentStatus :=
  ⟨true, t.amount, t.confirmations.toUInt64, some t.txHash, some address, false⟩

/-- `BtcPaymentStatus::not_received`. -/
def notReceived : PaymentStatus := ⟨false, 0, 0, none, none, false⟩

def checkPaymentWithConfirmations (address : String)
    (expectedSatoshis requiredConfirmations : UInt64) : NodeClient BitcoinMemory PaymentStatus := do
  let fork ← BitcoinClient.checkForFork
  if fork then pure ⟨false, 0, 0, none, none, true⟩
  else do
    let transfers ← getIncomingTransfers address
    match transfers.find? (·.pays address expectedSatoshis requiredConfirmations) with
    | some transfer => pure (transfer.status address)
    | none => pure notReceived

end BtcPaymentClient

end TorMarketplace
