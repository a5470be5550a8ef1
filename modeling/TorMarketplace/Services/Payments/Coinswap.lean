import TorMarketplace.Services.Escrow.Btc

/-!
# CoinSwap

`services/payments/coinswap.rs`: a chain of self-transfers, each to a fresh key but the last, which
goes to the final address. What a hop leaves for the next one is `HopState`.
-/

namespace TorMarketplace

open Encoding Interleave Json Prog Result Serde

/-- `DUST_SATS`. -/
def dustSats : UInt64 := 546

structure CoinSwapConfig where
  hopCount : Nat
  network : Network
  feeSatsPerHop : UInt64
  deriving DecidableEq

/-- `u64::saturating_sub`. -/
def saturatingSub (a b : UInt64) : UInt64 := if a < b then 0 else a - b

/-- `Address::from_str(s)?.require_network(network)` where only the network has an error text. -/
def swapAddress (B : Bitcoin) (s : String) (network : Network) (wrongNetwork : String) :
    Except Failure Bytes :=
  checkedAddress B s network "Invalid address" wrongNetwork

/-- `build_self_transfer_psbt`. -/
def buildSelfTransferPsbt (B : Bitcoin) (prevTxid : String) (prevVout : UInt32) (amountSats : UInt64)
    (prevAddress nextAddress : String) (feeSats : UInt64) (network : Network) :
    Except Failure Psbt := do
  let txid ← okOr (txidFromStr prevTxid) (anyhow "Invalid prev_txid")
  let nextScript ← swapAddress B nextAddress network "Next address wrong network"
  let prevScript ← swapAddress B prevAddress network "Prev address wrong network"
  let outputValue := saturatingSub amountSats feeSats
  errorIf (outputValue < dustSats) (anyhow "Output below dust threshold")
  let tx : Transaction := ⟨1, 0, [spendInput txid prevVout], [⟨outputValue, nextScript⟩]⟩
  let psbt ← okOr (Psbt.fromUnsignedTx tx) (anyhow "PSBT create")
  pure { psbt with
    inputs := psbt.inputs.map fun i => { i with witnessUtxo := some ⟨amountSats, prevScript⟩ } }

/-- The variables that the loop of `run_coinswap_chain` carries. -/
structure HopState where
  prevTxid : String
  prevVout : UInt32
  prevAmount : UInt64
  prevAddress : String
  currentSk : Bytes
  currentPk : Bytes
  deriving DecidableEq

/-- What `run_coinswap_chain` is given besides the output to spend and its key. -/
structure SwapPlan where
  masterSeed : Bytes
  chainSeed : Bytes
  finalAddress : String
  config : CoinSwapConfig

variable (P : Primitives) (B : Bitcoin) (plan : SwapPlan)

def SwapPlan.isLast (hop : Nat) : Bool := hop = plan.config.hopCount - 1

/-- The key and the address of hop number `hop`. The last hop's key is made and dropped. -/
def nextHop (hop : Nat) : Except Failure (Option Bytes × String) := do
  let nextSk ← okOr (hopKey P plan.masterSeed plan.chainSeed (UInt64.ofNat hop))
    (anyhow "Invalid derived key")
  if plan.isLast hop then
    let _ ← swapAddress B plan.finalAddress plan.config.network "Final address wrong network"
    pure (none, plan.finalAddress)
  else
    let pk := Stealth.stealthPublicKey B nextSk
    pure (some nextSk, Stealth.stealthP2wpkhAddress B pk plan.config.network)

/-- The signed transaction of a hop to `nextAddress`. -/
def hopTx (s : HopState) (nextAddress : String) : Except Failure Transaction := do
  let psbt ← buildSelfTransferPsbt B s.prevTxid s.prevVout s.prevAmount s.prevAddress nextAddress
    plan.config.feeSatsPerHop plan.config.network
  let psbt ← signStealthInput B psbt 0 s.currentSk s.currentPk s.prevAmount
  finalizeStealthTx B psbt

/-- What the next hop starts from. -/
def HopState.advance (s : HopState) (newTxid : String) (nextSk : Option Bytes)
    (nextAddress : String) : HopState :=
  let s := { s with
    prevTxid := newTxid
    prevVout := 0
    prevAmount := saturatingSub s.prevAmount plan.config.feeSatsPerHop }
  match nextSk with
  | some sk => { s with prevAddress := nextAddress, currentSk := sk, currentPk := B.publicKey sk }
  | none => s

/-- The loop of `run_coinswap_chain`: `n` hops, the first of them number `hop`. -/
def swapHops : Nat → Nat → HopState → NodeClient BitcoinMemory (List String)
  | 0, _, _ => pure []
  | n + 1, hop, s => do
    let (nextSk, nextAddress) ← ofExcept (nextHop P B plan hop)
    let tx ← ofExcept (hopTx B plan s nextAddress)
    let newTxid ← broadcastPsbt (B.serializeHex tx)
    let txids ← swapHops n (hop + 1) (s.advance B plan newTxid nextSk nextAddress)
    pure (newTxid :: txids)

/-- `run_coinswap_chain`. -/
def runCoinswapChain (utxo : Utxo) (utxoAddress : String) (sk pk : Bytes) :
    NodeClient BitcoinMemory (List String) :=
  swapHops P B plan plan.config.hopCount 0
    ⟨utxo.txid, utxo.vout, utxo.amount, utxoAddress, sk, pk⟩

end TorMarketplace
