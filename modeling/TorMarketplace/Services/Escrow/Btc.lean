import TorMarketplace.Crypto.Stealth
import TorMarketplace.Lib.Result
import TorMarketplace.Services.Payments.Btc

/-!
# Settlement transactions

`services/escrow/btc.rs`: building, signing and finalizing a PSBT over P2WPKH outputs of one key, and
handing the transaction to the node.
-/

namespace TorMarketplace

open Encoding Interleave Json Prog Result Serde

/-- `anyhow!`. -/
def anyhow (text : String) : Failure := .worker text

/-- `Address::from_str(s)?.require_network(network)?`. -/
def checkedAddress (B : Bitcoin) (s : String) (network : Network) (invalid wrongNetwork : String) :
    Except Failure Bytes := do
  let a ← okOr (B.addressFromStr s) (anyhow invalid)
  okOr (a.requireNetwork network) (anyhow wrongNetwork)

/-- An entry of the list of outputs to spend: txid, vout, amount. -/
structure Utxo where
  txid : String
  vout : UInt32
  amount : UInt64
  deriving DecidableEq

/-- The input that spends an output. -/
def spendInput (txid : Bytes) (vout : UInt32) : TxIn := ⟨⟨txid, vout⟩, [], 0xffffffff, []⟩

/-- `build_multi_utxo_settlement_psbt`. -/
def buildMultiUtxoSettlementPsbt (B : Bitcoin) (utxos : List Utxo)
    (stealthAddress sellerAddress feeAddress : String) (feePercent : UInt64) (network : Network) :
    Except Failure Psbt := do
  errorIf (utxos = []) (anyhow "At least one UTXO required")
  let script ← checkedAddress B stealthAddress network "Invalid stealth address"
    "Stealth address wrong network"
  let sellerScript ← checkedAddress B sellerAddress network "Invalid seller address"
    "Seller address wrong network"
  let feeScript ← checkedAddress B feeAddress network "Invalid fee address"
    "Fee address wrong network"
  let totalSats := (utxos.map Utxo.amount).sum
  let sellerSats := totalSats * (100 - feePercent) / 100
  let feeSats := totalSats - sellerSats
  let inputs ← utxos.mapM fun u => do
    let txid ← okOr (txidFromStr u.txid) (anyhow "Invalid txid")
    pure (spendInput txid u.vout)
  let tx : Transaction := ⟨1, 0, inputs, [⟨sellerSats, sellerScript⟩, ⟨feeSats, feeScript⟩]⟩
  let psbt ← okOr (Psbt.fromUnsignedTx tx) (anyhow "Failed to create PSBT")
  pure { psbt with
    inputs := List.zipWith (fun (i : PsbtInput) (u : Utxo) =>
      { i with witnessUtxo := some ⟨u.amount, script⟩ }) psbt.inputs utxos }

/-- `sign_stealth_input`. -/
def signStealthInput (B : Bitcoin) (psbt : Psbt) (inputIndex : Nat) (stealthSk stealthPk : Bytes)
    (amountSats : UInt64) : Except Failure Psbt :=
  match psbt.inputs[inputIndex]? with
  | none => .error (anyhow "Input index out of bounds")
  | some input =>
    if B.publicKey stealthSk ≠ stealthPk then
      .error (anyhow "Stealth secret key does not match the provided public key")
    else
      match input.witnessUtxo with
      | none => .error (anyhow "PSBT input has no witness_utxo")
      | some utxo =>
        if ¬ isP2wpkh utxo.scriptPubkey then .error (anyhow "UTXO script is not P2WPKH")
        else
          match p2wpkhSignatureHash B psbt.unsignedTx inputIndex utxo.scriptPubkey amountSats with
          | none => .error (anyhow "Failed to compute P2WPKH sighash")
          | some msg =>
            let sig : EcdsaSignature := ⟨B.signEcdsa msg stealthSk, 1⟩
            let signed := { input with partialSigs := insertSig stealthPk sig input.partialSigs }
            .ok { psbt with inputs := psbt.inputs.set inputIndex signed }

/-- The witness of one input. -/
def finalizeInput (B : Bitcoin) (input : PsbtInput) : Except Failure PsbtInput :=
  if input.witnessScript.isSome then
    .error (anyhow "P2WPKH must not have witness_script set")
  else
    match input.partialSigs with
    | [] => .error (anyhow "Input has no signatures")
    | (pk, sig) :: _ => .ok { input with finalScriptWitness := some [B.signatureToVec sig, pk] }

/-- `finalize_stealth_psbt`, up to the transaction. -/
def finalizeStealthTx (B : Bitcoin) (psbt : Psbt) : Except Failure Transaction := do
  errorIf (psbt.inputs = []) (anyhow "PSBT has no inputs")
  let inputs ← psbt.inputs.mapM (finalizeInput B)
  okOr (Psbt.extractTx B { psbt with inputs }) (anyhow "PSBT extract failed")

/-- `finalize_stealth_psbt`. -/
def finalizeStealthPsbt (B : Bitcoin) (psbt : Psbt) : Except Failure String := do
  let tx ← finalizeStealthTx B psbt
  pure (B.serializeHex tx)

/-- `broadcast_psbt`. -/
def broadcastPsbt (txHex : String) : NodeClient BitcoinMemory String := do
  let result ← rpcCall "BTC" "sendrawtransaction" (.arr [ofString txHex])
  orFail (readString result) (anyhow "sendrawtransaction returned non-string")

/-- `import_multisig_watchonly`. -/
def importMultisigWatchonly (address witnessScriptHex label : String) :
    NodeClient BitcoinMemory Unit := do
  let params : Value := .arr
    [object [("internal", .bool false), ("label", ofString label),
      ("scriptPubKey", object [("address", ofString address)]), ("timestamp", ofString "now"),
      ("watchonly", .bool true), ("witnessscript", ofString witnessScriptHex)],
    object [("rescan", .bool false)]]
  let _ ← rpcCall "BTC" "importmulti" params
  pure ()

/-- `import_address_watchonly`. -/
def importAddressWatchonly (address label : String) : NodeClient BitcoinMemory Unit := do
  let params : Value := .arr
    [object [("internal", .bool false), ("label", ofString label),
      ("scriptPubKey", object [("address", ofString address)]), ("timestamp", ofString "now"),
      ("watchonly", .bool true)],
    object [("rescan", .bool false)]]
  let _ ← rpcCall "BTC" "importmulti" params
  pure ()

/-- `parse_secp_pubkey`. -/
def parseSecpPubkeyBytes (B : Bitcoin) (hexStr : String) : Option Bytes :=
  (hexDecode hexStr).bind B.publicKeyFromSlice

end TorMarketplace
