import Mathlib.Data.UInt
import TorMarketplace.Crypto.Keys

/-!
# The Bitcoin libraries

What the code uses of the crates `bitcoin` and `secp256k1`. Transactions, PSBTs and the checks that
`extract_tx` makes are data; the curve, the hashes, the text form of addresses and the consensus
encoding are the parameter `Bitcoin` of everything that follows. A public key is its 33 compressed
bytes, a secret key its 32.
-/

namespace TorMarketplace

open Encoding

/-- `bitcoin::Network`. -/
inductive Network where
  | bitcoin
  | testnet
  | signet
  | regtest
  deriving DecidableEq

/-- `BitcoinConfig::btc_network`. -/
def btcNetwork (network : String) : Option Network :=
  match network.map Char.toLower with
  | "mainnet" => some .bitcoin
  | "testnet" => some .testnet
  | "signet" => some .signet
  | "regtest" => some .regtest
  | _ => none

/-! ## Transactions -/

structure OutPoint where
  txid : Bytes
  vout : UInt32
  deriving DecidableEq

structure TxIn where
  previousOutput : OutPoint
  scriptSig : Bytes
  sequence : UInt32
  witness : List Bytes
  deriving DecidableEq

structure TxOut where
  value : UInt64
  scriptPubkey : Bytes
  deriving DecidableEq

structure Transaction where
  version : Int32
  lockTime : UInt32
  input : List TxIn
  output : List TxOut
  deriving DecidableEq

/-- What a transaction pays, in all. -/
def Transaction.outputSum (tx : Transaction) : Nat := (tx.output.map fun o => o.value.toNat).sum

/-- `Txid::from_str`: 64 digits, the bytes backwards. -/
def txidFromStr (s : String) : Option Bytes :=
  (hexDecode s).bind fun b => if b.length = 32 then some b.reverse else none

/-- `Txid::to_string`. -/
def txidString (txid : Bytes) : String := hexEncode txid.reverse

theorem txidFromStr_txidString {txid : Bytes} (h : txid.length = 32) :
    txidFromStr (txidString txid) = some txid := by
  rw [txidFromStr, txidString, hexDecode_hexEncode, Option.bind_some, List.length_reverse, if_pos h,
    List.reverse_reverse]

/-! ## Addresses -/

/-- An address as it is parsed: the networks it is valid for, and its `script_pubkey`. -/
structure Address where
  networks : List Network
  scriptPubkey : Bytes
  deriving DecidableEq

/-- `require_network`: the script of the checked address. -/
def Address.requireNetwork (a : Address) (network : Network) : Option Bytes :=
  if a.networks.contains network then some a.scriptPubkey else none

/-- The script of P2WPKH: version 0 and a push of the hash. -/
def p2wpkhScript (hash : Bytes) : Bytes := 0 :: 20 :: hash

/-- `Script::is_p2wpkh`. -/
def isP2wpkh (script : Bytes) : Bool := script.length = 22 && script.take 2 = [0, 20]

theorem isP2wpkh_p2wpkhScript {hash : Bytes} (h : hash.length = 20) : isP2wpkh (p2wpkhScript hash) := by
  simp [isP2wpkh, p2wpkhScript, h]

/-! ## The parameter -/

/-- `bitcoin::ecdsa::Signature`. -/
structure EcdsaSignature where
  signature : Bytes
  /-- `EcdsaSighashType::All` is 1. -/
  sighashType : UInt8
  deriving DecidableEq

structure Bitcoin where
  /-- `secp256k1::PublicKey::from_slice`. -/
  publicKeyFromSlice : Bytes → Option Bytes
  /-- `PublicKey::from_secret_key`. -/
  publicKey : Bytes → Bytes
  /-- `SharedSecret::new(their_pk, our_sk).secret_bytes()`. -/
  sharedSecret : Bytes → Bytes → Bytes
  hash160 : Bytes → Bytes
  /-- `Address::from_str`. -/
  addressFromStr : String → Option Address
  /-- `Address::p2wpkh(pk, network).to_string()`. -/
  p2wpkhAddress : Bytes → Network → String
  /-- `Address::p2pkh(pk, network).to_string()`. -/
  p2pkhAddress : Bytes → Network → String
  /-- The BIP 143 digest: transaction, input, script, amount. -/
  sighash : Transaction → Nat → Bytes → UInt64 → Bytes
  /-- `sign_ecdsa(msg, sk)`. -/
  signEcdsa : Bytes → Bytes → Bytes
  /-- `ecdsa::Signature::to_vec`. -/
  signatureToVec : EcdsaSignature → Bytes
  /-- `consensus::encode::serialize_hex`. -/
  serializeHex : Transaction → String
  /-- `compute_txid`. -/
  txid : Transaction → Bytes
  /-- `weight().to_wu()`. -/
  weight : Transaction → Nat
  txid_length : ∀ tx, (txid tx).length = 32
  hash160_length : ∀ b, (hash160 b).length = 20
  /-- A P2WPKH address is read back, on its network. -/
  addressFromStr_p2wpkh : ∀ pk network,
    ((addressFromStr (p2wpkhAddress pk network)).bind fun a => a.requireNetwork network) =
      some (p2wpkhScript (hash160 pk))

namespace Bitcoin

/-- Finitely many values of the libraries, each with its arguments. -/
structure Tables where
  /-- What `from_slice` accepts, and the 33 bytes of it. -/
  publicKeyFromSlice : List (Bytes × Bytes) := []
  /-- Secret key, public key. -/
  publicKey : List (Bytes × Bytes) := []
  sharedSecret : List ((Bytes × Bytes) × Bytes) := []
  hash160 : List (Bytes × Bytes) := []
  addresses : List (String × Address) := []
  p2pkh : List ((Bytes × Network) × String) := []
  sighash : List ((Transaction × Nat × Bytes × UInt64) × Bytes) := []
  /-- Digest and secret key, signature. -/
  signEcdsa : List ((Bytes × Bytes) × Bytes) := []
  signatureToVec : List (EcdsaSignature × Bytes) := []
  serializeHex : List (Transaction × String) := []
  txid : List (Transaction × Bytes) := []
  weight : List (Transaction × Nat) := []

/-- The text of a script whose address is in no table. -/
def otherAddress (script : Bytes) : String := String.ofList ('?' :: (hexEncode script).toList)

def Tables.addressFromStr (t : Tables) (s : String) : Option Address :=
  match s.toList with
  | '?' :: hex => (hexDecode (String.ofList hex)).map fun b =>
      ⟨[.bitcoin, .testnet, .signet, .regtest], b⟩
  | _ => t.addresses.lookup s

/-- The first address of the tables that is read as this script. -/
def Tables.addressOf (t : Tables) (script : Bytes) (network : Network) : String :=
  ((t.addresses.map Prod.fst).find? fun s =>
    ((t.addressFromStr s).bind fun a => a.requireNetwork network) = some script).getD
      (otherAddress script)

def Tables.hashOf (t : Tables) (b : Bytes) : Bytes :=
  ((t.hash160.lookup b).filter fun h => h.length = 20).getD (List.replicate 20 0)

def Tables.txidOf (t : Tables) (tx : Transaction) : Bytes :=
  ((t.txid.lookup tx).filter fun h => h.length = 32).getD (List.replicate 32 0)

theorem Tables.addressFromStr_addressOf (t : Tables) (script : Bytes) (network : Network) :
    ((t.addressFromStr (t.addressOf script network)).bind fun a => a.requireNetwork network) =
      some script := by
  unfold addressOf
  cases h : (t.addresses.map Prod.fst).find? fun s =>
      ((t.addressFromStr s).bind fun a => a.requireNetwork network) = some script with
  | some s =>
    have hfound := List.find?_some h
    exact of_decide_eq_true hfound
  | none =>
    have hother : t.addressFromStr (otherAddress script) =
        some ⟨[.bitcoin, .testnet, .signet, .regtest], script⟩ := by
      simp [addressFromStr, otherAddress]
    rw [Option.getD_none, hother, Option.bind_some, Address.requireNetwork]
    cases network <;> rfl

/-- Libraries that agree with the tables: what is in none of them is empty. -/
def ofTables (t : Tables) : Bitcoin where
  publicKeyFromSlice b := t.publicKeyFromSlice.lookup b
  publicKey sk := (t.publicKey.lookup sk).getD []
  sharedSecret pk sk := (t.sharedSecret.lookup (pk, sk)).getD []
  hash160 := t.hashOf
  addressFromStr := t.addressFromStr
  p2wpkhAddress pk network := t.addressOf (p2wpkhScript (t.hashOf pk)) network
  p2pkhAddress pk network := (t.p2pkh.lookup (pk, network)).getD ""
  sighash tx i script amount := (t.sighash.lookup (tx, i, script, amount)).getD []
  signEcdsa msg sk := (t.signEcdsa.lookup (msg, sk)).getD []
  signatureToVec sig := (t.signatureToVec.lookup sig).getD []
  serializeHex tx := (t.serializeHex.lookup tx).getD ""
  txid := t.txidOf
  weight tx := (t.weight.lookup tx).getD 0
  txid_length tx := by
    unfold Tables.txidOf
    cases h : (t.txid.lookup tx).filter fun h => h.length = 32 with
    | none => rfl
    | some b => exact of_decide_eq_true (Option.filter_eq_some_iff.mp h).2
  hash160_length b := by
    unfold Tables.hashOf
    cases h : (t.hash160.lookup b).filter fun h => h.length = 20 with
    | none => rfl
    | some b => exact of_decide_eq_true (Option.filter_eq_some_iff.mp h).2
  addressFromStr_p2wpkh pk network := t.addressFromStr_addressOf _ network

end Bitcoin

variable (B : Bitcoin)

/-- `SighashCache::p2wpkh_signature_hash`. -/
def p2wpkhSignatureHash (tx : Transaction) (inputIndex : Nat) (script : Bytes) (amount : UInt64) :
    Option Bytes :=
  if inputIndex < tx.input.length ∧ isP2wpkh script then some (B.sighash tx inputIndex script amount)
  else none

/-! ## PSBTs -/

structure PsbtInput where
  witnessUtxo : Option TxOut := none
  /-- By public key, in the order of a `BTreeMap`. -/
  partialSigs : List (Bytes × EcdsaSignature) := []
  witnessScript : Option Bytes := none
  finalScriptWitness : Option (List Bytes) := none
  deriving DecidableEq

structure Psbt where
  unsignedTx : Transaction
  inputs : List PsbtInput
  deriving DecidableEq

/-- `Psbt::from_unsigned_tx`: no input may be signed. -/
def Psbt.fromUnsignedTx (tx : Transaction) : Option Psbt :=
  if tx.input.all fun i => i.scriptSig = [] ∧ i.witness = [] then
    some ⟨tx, tx.input.map fun _ => {}⟩
  else none

/-- `partial_sigs.insert`. -/
def insertSig (pk : Bytes) (sig : EcdsaSignature) :
    List (Bytes × EcdsaSignature) → List (Bytes × EcdsaSignature)
  | [] => [(pk, sig)]
  | (pk', sig') :: l =>
    if pk = pk' then (pk, sig) :: l
    else if pk < pk' then (pk, sig) :: (pk', sig') :: l
    else (pk', sig') :: insertSig pk sig l

/-- The transaction with the witnesses of the PSBT. -/
def Psbt.finalTx (psbt : Psbt) : Transaction :=
  { psbt.unsignedTx with
    input := List.zipWith (fun (i : TxIn) (p : PsbtInput) =>
      { i with witness := p.finalScriptWitness.getD [] }) psbt.unsignedTx.input psbt.inputs }

/-- `Psbt::fee`: no value may be missing, no sum may leave the `u64`, and the outputs may not be more
than the inputs. -/
def Psbt.fee (psbt : Psbt) : Option Nat := do
  let values ← psbt.inputs.mapM fun i => i.witnessUtxo.map fun o => o.value.toNat
  if values.sum < 2 ^ 64 ∧ psbt.unsignedTx.outputSum < 2 ^ 64 ∧
      psbt.unsignedTx.outputSum ≤ values.sum then some (values.sum - psbt.unsignedTx.outputSum)
  else none

/-- `Psbt::DEFAULT_MAX_FEE_RATE`, 25000 sats a vbyte, in sats a kwu. -/
def defaultMaxFeeRate : Nat := 6250000

/-- `Psbt::extract_tx`. -/
def Psbt.extractTx (psbt : Psbt) : Option Transaction := do
  let fee ← psbt.fee
  let tx := psbt.finalTx
  if min (fee * 1000) (2 ^ 64 - 1) / B.weight tx > defaultMaxFeeRate then none else some tx

end TorMarketplace
