import TorMarketplace.Services.Escrow.Btc

/-!
# Stealth escrow

`services/payments/stealth_escrow.rs`: the address of an order, and its settlement once the order is
released. The outputs to spend are what `list_unspent` returns; `settleEntries` is all that comes
after them.
-/

namespace TorMarketplace

open Encoding Interleave Json Prog Result Serde

/-- What `settle_stealth_order` reads of the configuration and the process. -/
structure SettleConfig where
  /-- `bitcoin.network`. -/
  network : String
  /-- `escrow.fee_percent`. -/
  feePercent : UInt64
  /-- `escrow.fee_address_btc`. -/
  feeAddressBtc : Option String
  workerKey : Option Bytes

variable (P : Primitives) (B : Bitcoin)

namespace StealthEscrow

/-- `map_err` on an `await`. -/
def orInternal {S α : Type} (x : NodeClient S α) (text : String) : NodeClient S α := do
  let r ← attempt x
  match r with
  | .ok a => pure a
  | .error _ => fail (internal text)

/-- `create_stealth_address_for_order`, up to the import. -/
def stealthAddress (buyerPkHex : String) (masterSeed orderId : Bytes) (network : Network) :
    Except Failure String := do
  let buyerPk ← okOr (parseSecpPubkeyBytes B buyerPkHex) (badRequest "Invalid buyer pubkey")
  let ownerSk ← okOr (Escrow.deriveOrderKey P masterSeed orderId) (internal "Owner key derivation")
  let stealthSk ← okOr (Stealth.deriveStealthPrivateKey P B buyerPk ownerSk orderId)
    (internal "Stealth key derivation")
  let stealthPk := Stealth.stealthPublicKey B stealthSk
  pure (Stealth.stealthP2wpkhAddress B stealthPk network)

/-- `create_stealth_address_for_order`. -/
def createStealthAddressForOrder (buyerPkHex : String) (masterSeed orderId : Bytes)
    (network : Network) : NodeClient BitcoinMemory String := do
  let stealthAddr ← ofExcept (stealthAddress P B buyerPkHex masterSeed orderId network)
  let label := "order:" ++ hexEncode orderId
  orInternal (importAddressWatchonly stealthAddr label) "BTC import"
  pure stealthAddr

/-- The confirmed outputs, as entries. -/
def confirmedEntries (utxos : List ListUnspentEntry) : List Utxo :=
  (utxos.filter fun u => u.confirmations > 0).map fun u =>
    ⟨u.txid, u.vout, BtcPaymentClient.toSats u.amount⟩

/-- Sign the inputs from number `i` on with the amounts of their entries. -/
def signEntries (stealthSk stealthPk : Bytes) : Nat → List Utxo → Psbt → Except Failure Psbt
  | _, [], psbt => pure psbt
  | i, u :: us, psbt => do
    let psbt ← signStealthInput B psbt i stealthSk stealthPk u.amount
    signEntries stealthSk stealthPk (i + 1) us psbt

/-- The key of an order's stealth address, as `settle_stealth_order` derives it again. -/
def stealthKey (cfg : SettleConfig) (orderId : Bytes) (data : OrderData) : Except Failure Bytes := do
  let workerKey ← okOr cfg.workerKey (internal "Worker key not set")
  let ownerSk ← okOr (Escrow.deriveOrderKey P workerKey orderId) (internal "Owner key derivation")
  let buyerPkHex ← okOr data.buyerPubkey (internal "Missing buyer pubkey")
  let buyerPk ← okOr (parseSecpPubkeyBytes B buyerPkHex) (internal "Invalid buyer pubkey")
  okOr (Stealth.deriveStealthPrivateKey P B buyerPk ownerSk orderId)
    (internal "Stealth key derivation")

/-- The unsigned settlement of `settle_stealth_order`, and the entries it spends. -/
def settlementPsbt (cfg : SettleConfig) (data : OrderData) (network : Network)
    (stealthAddress : String) (utxos : List ListUnspentEntry) :
    Except Failure (List Utxo × Psbt) := do
  errorIf (utxos = []) (internal "No UTXOs at stealth address")
  let sellerPkHex ← okOr data.sellerPubkey (internal "Missing seller pubkey")
  let sellerPk ← okOr (parseSecpPubkeyBytes B sellerPkHex) (internal "Invalid seller pubkey")
  let sellerAddress := B.p2pkhAddress sellerPk network
  let feeAddress ← okOr cfg.feeAddressBtc (internal "No fee address configured")
  let entries := confirmedEntries utxos
  errorIf (entries = []) (internal "No confirmed UTXOs at stealth address")
  let psbt ← mapErr (buildMultiUtxoSettlementPsbt B entries stealthAddress sellerAddress feeAddress
    cfg.feePercent network) (internal "PSBT build")
  pure (entries, psbt)

/-- What `settle_stealth_order` makes of the outputs at the address: the signed settlement. -/
def settlementTx (cfg : SettleConfig) (orderId : Bytes) (data : OrderData) (network : Network)
    (stealthAddress : String) (utxos : List ListUnspentEntry) : Except Failure Transaction := do
  let (entries, psbt) ← settlementPsbt B cfg data network stealthAddress utxos
  let stealthSk ← stealthKey P B cfg orderId data
  let stealthPk := Stealth.stealthPublicKey B stealthSk
  let psbt ← mapErr (signEntries B stealthSk stealthPk 0 entries psbt) (internal "PSBT signing input")
  mapErr (finalizeStealthTx B psbt) (internal "PSBT finalize")

/-- `settle_stealth_order`: the content after it. -/
def settleStealthOrder (cfg : SettleConfig) (orderId : Bytes) (data : OrderData) :
    NodeClient BitcoinMemory OrderData :=
  if data.currency ≠ "BTC" ∨ data.settlementTxid.isSome then pure data
  else do
    let network ← orFail (btcNetwork cfg.network) (internal "Config error")
    let stealthAddress ← orFail data.escrowAddress (internal "No escrow address for BTC order")
    let utxos ← orInternal (BitcoinClient.listUnspent [stealthAddress]) "list_unspent"
    let tx ← ofExcept (settlementTx P B cfg orderId data network stealthAddress utxos)
    let txid ← orInternal (broadcastPsbt (B.serializeHex tx)) "Broadcast"
    pure { data with settlementTxid := some txid }

end StealthEscrow

end TorMarketplace
