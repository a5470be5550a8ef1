import TorMarketplace.Lib.Shape
import TorMarketplace.Services.Payments.Btc

/-!
# The replies of Bitcoin Core

What Bitcoin Core documents of the results of the nine calls, and what the client makes of a reply
that conforms: `rpc_call` takes the result out of its envelope, the caller looks for a member `result`
in it, and no documented result has one.
-/

namespace TorMarketplace

open Encoding Interleave Json Prog Serde

/-! ## The documentation -/

namespace Documented

open Shape

/-- The members that tell where a transaction is. -/
def inBlock : List Member :=
  [optional "generated" flag, optional "trusted" flag, optional "blockhash" text,
    optional "blockheight" number, optional "blockindex" number, optional "blocktime" number,
    ⟨"txid", text, true⟩, optional "wtxid" text, ⟨"walletconflicts", listOf text, true⟩,
    optional "mempoolconflicts" (listOf text), optional "replaced_by_txid" text,
    optional "replaces_txid" text, optional "comment" text, optional "to" text,
    ⟨"time", number, true⟩, ⟨"timereceived", number, true⟩, ⟨"bip125-replaceable", text, true⟩]

/-- What a wallet transaction does to one address. -/
def detail : List Member :=
  [optional "involvesWatchonly" flag, optional "address" text, ⟨"category", text, true⟩,
    ⟨"amount", number, true⟩, optional "label" text, ⟨"vout", number, true⟩, optional "fee" number,
    optional "abandoned" flag, optional "parent_descs" (listOf text)]

/-- An entry of `listtransactions` and `listsinceblock`. -/
def listEntry : List Member := ⟨"confirmations", number, true⟩ :: detail ++ inBlock

/-- An entry of `listunspent`. -/
def unspentEntry : List Member :=
  [⟨"txid", text, true⟩, ⟨"vout", number, true⟩, optional "address" text, optional "label" text,
    ⟨"scriptPubKey", text, true⟩, ⟨"amount", number, true⟩, ⟨"confirmations", number, true⟩,
    optional "ancestorcount" number, optional "ancestorsize" number, optional "ancestorfees" number,
    optional "redeemScript" text, optional "witnessScript" text, ⟨"spendable", flag, true⟩,
    ⟨"solvable", flag, true⟩, optional "reused" flag, optional "desc" text,
    optional "parent_descs" (listOf text), ⟨"safe", flag, true⟩]

def scriptPubKey : List Member :=
  [⟨"asm", text, true⟩, optional "desc" text, ⟨"hex", text, true⟩, optional "reqSigs" number,
    ⟨"type", text, true⟩, optional "address" text, optional "addresses" (listOf text)]

def scriptSig : List Member := [⟨"asm", text, true⟩, ⟨"hex", text, true⟩]

def vin : List Member :=
  [optional "coinbase" text, optional "txid" text, optional "vout" number,
    optional "scriptSig" (objectOf scriptSig), optional "txinwitness" (listOf text),
    ⟨"sequence", number, true⟩]

def vout : List Member :=
  [⟨"value", number, true⟩, ⟨"n", number, true⟩, ⟨"scriptPubKey", objectOf scriptPubKey, true⟩]

/-- The result of `decoderawtransaction`. -/
def decoded : List Member :=
  [⟨"txid", text, true⟩, ⟨"hash", text, true⟩, ⟨"size", number, true⟩, ⟨"vsize", number, true⟩,
    ⟨"weight", number, true⟩, ⟨"version", number, true⟩, ⟨"locktime", number, true⟩,
    ⟨"vin", listOf (objectOf vin), true⟩, ⟨"vout", listOf (objectOf vout), true⟩]

/-- The result of `gettransaction`. -/
def transaction : List Member :=
  [⟨"amount", number, true⟩, optional "fee" number, ⟨"confirmations", number, true⟩] ++ inBlock ++
    [optional "parent_descs" (listOf text), ⟨"details", listOf (objectOf detail), true⟩,
      ⟨"hex", text, true⟩, optional "decoded" (objectOf decoded),
      optional "lastprocessedblock" (objectOf [⟨"hash", text, true⟩, ⟨"height", number, true⟩])]

/-- The result of `listsinceblock`. -/
def sinceBlock : List Member :=
  [⟨"transactions", listOf (objectOf listEntry), true⟩,
    optional "removed" (listOf (objectOf listEntry)), ⟨"lastblock", text, true⟩]

end Documented

/-! ## The calls -/

/-- The calls of `BitcoinClient` that take a documented result. -/
inductive BitcoinCall where
  | getBlockHeight
  | getBlockHash (height : UInt64)
  | createAddress (addressType orderId : String)
  | listTransactionsForAddress (address : String)
  | getTransaction (txHash : String)
  | listUnspent (addresses : List String)
  | getRawTransaction (txHash : String)
  | listSinceBlock (blockHash : String)
  | decodeRawTransaction (hex : String)

namespace BitcoinCall

abbrev Result : BitcoinCall → Type
  | getBlockHeight => UInt64
  | getBlockHash _ => String
  | createAddress _ _ => String
  | listTransactionsForAddress _ => List TransactionDetail
  | getTransaction _ => TransactionDetail
  | listUnspent _ => List ListUnspentEntry
  | getRawTransaction _ => RawTransaction
  | listSinceBlock _ => ListSinceBlockResult
  | decodeRawTransaction _ => BitcoinClient.DecodedTx

def run : (call : BitcoinCall) → NodeClient BitcoinMemory call.Result
  | getBlockHeight => BitcoinClient.getBlockHeight
  | getBlockHash height => BitcoinClient.getBlockHash height
  | createAddress addressType orderId => BitcoinClient.createAddress addressType orderId
  | listTransactionsForAddress address => BitcoinClient.listTransactionsForAddress address
  | getTransaction txHash => BitcoinClient.getTransaction txHash
  | listUnspent addresses => BitcoinClient.listUnspent addresses
  | getRawTransaction txHash => BitcoinClient.getRawTransaction txHash
  | listSinceBlock blockHash => BitcoinClient.listSinceBlock blockHash
  | decodeRawTransaction hex => BitcoinClient.decodeRawTransaction hex

/-- What Bitcoin Core documents of the result. -/
def shape : BitcoinCall → Shape
  | getBlockHeight => .number
  | getBlockHash _ => .text
  | createAddress _ _ => .text
  | listTransactionsForAddress _ => .listOf (.objectOf Documented.listEntry)
  | getTransaction _ => .objectOf Documented.transaction
  | listUnspent _ => .listOf (.objectOf Documented.unspentEntry)
  | getRawTransaction _ => .objectOf Documented.transaction
  | listSinceBlock _ => .objectOf Documented.sinceBlock
  | decodeRawTransaction _ => .objectOf Documented.decoded

end BitcoinCall

/-- A success: a result of the shape, no error, the number of the request. -/
structure Success (shape : Shape) (json : Value) : Prop where
  result : ∃ x, member json "result" = some x ∧ shape x
  error : member json "error" = some .null
  id : ∃ n, member json "id" = some (.int n)

/-- A node that answers every request with a success. -/
def Succeeds {S : Type} (shape : Shape) : (c : RpcCall S) → c.Ans → Prop
  | .send _ _, json => ∃ success, json = some success ∧ Success shape success
  | .memory, _ => True
  | .remember _, _ => True

/-! ## What the client takes from a result -/

section Read

variable {α : Type} {read : Value → Option α} {v : Value} {members : List Member}

theorem readR_number (hv : Shape.number v) : BitcoinClient.readR read v = none := by
  rcases hv with ⟨n, rfl⟩ | ⟨text, rfl⟩ <;> rfl

theorem readR_text (hv : Shape.text v) : BitcoinClient.readR read v = none := by
  obtain ⟨s, rfl⟩ := hv
  rfl

theorem readR_undocumented (hname : "result" ∉ members.map Member.name) (hv : Shape.objectOf members v) :
    BitcoinClient.readR read v = none := by
  unfold BitcoinClient.readR
  cases hs : source 1 v with
  | none => rfl
  | some s => exact field_undocumented hv hname hs

/-- A list of one object could be the fields of a struct in order, but its object is no list. -/
theorem readR_list (hv : Shape.listOf (Shape.objectOf members) v) :
    BitcoinClient.readR (readVec read) v = none := by
  obtain ⟨l, rfl, hl⟩ := hv
  match l with
  | [] => rfl
  | [x] => exact readVec_object (hl x List.mem_cons_self)
  | _ :: _ :: _ => rfl

/-- An output of a transaction is not read either: the name of its script is another one. -/
theorem decodedVout_undecoded (hv : Shape.objectOf Documented.vout v) :
    BitcoinClient.DecodedVout.ofJson v = none := by
  unfold BitcoinClient.DecodedVout.ofJson
  cases hs : source 3 v with
  | none => rfl
  | some s =>
    have hscript : s.field 2 "script_pub_key" BitcoinClient.DecodedScriptPubKey.ofJson = none :=
      field_undocumented hv (by decide) hs
    simp [hscript]

end Read

theorem btcRpcCall_undecoded {α : Type} {method : String} {params : Value} {read : Value → Option α}
    {shape : Shape} {past : List (Reply (Rpc BitcoinMemory))}
    (h : ∀ {v}, shape v → BitcoinClient.readR read v = none) :
    Spec (Succeeds shape) (fun _ _ => True)
      (fun _ r => r = .error (rpcError "BTC" "parse failed")) past
      (BitcoinClient.btcRpcCall method params read) := by
  unfold BitcoinClient.btcRpcCall
  refine spec_seq (R := fun _ r => ∃ x, r = .ok x ∧ shape x)
    (spec_rpcCall trivial ?_ ?_ ?_) ?_ ?_
  · rintro json ⟨_, ⟨⟩, ⟨x, hx, hshape⟩, -, -⟩ -
    exact ⟨x, by rw [index, hx, Option.getD_some], hshape⟩
  · rintro ⟨_, hnone, -⟩
    exact absurd hnone (by simp)
  · rintro json ⟨_, ⟨⟩, -, herror, -⟩ hfree
    exact absurd (.inr herror) hfree
  · rintro past' a ⟨x, ⟨⟩, hshape⟩
    rw [h hshape]
    rfl
  · rintro past' e ⟨x, hx, -⟩
    exact absurd hx (by simp)

/-- **No reply that conforms is decoded.** Whatever is asked and whatever conforming success the node
answers with, the call fails. -/
theorem conforming_replies_fail (call : BitcoinCall) :
    Spec (Succeeds call.shape) (fun _ _ => True)
      (fun _ r => r = .error (rpcError "BTC" "parse failed")) [] call.run := by
  cases call with
  | getBlockHeight => exact btcRpcCall_undecoded readR_number
  | getBlockHash => exact btcRpcCall_undecoded readR_text
  | createAddress => exact btcRpcCall_undecoded readR_text
  | listTransactionsForAddress =>
    refine spec_seq (btcRpcCall_undecoded readR_list) (fun _ _ h => absurd h (by simp)) ?_
    rintro _ _ ⟨⟩
    rfl
  | getTransaction => exact btcRpcCall_undecoded (readR_undocumented (by decide))
  | listUnspent => exact btcRpcCall_undecoded readR_list
  | getRawTransaction => exact btcRpcCall_undecoded (readR_undocumented (by decide))
  | listSinceBlock => exact btcRpcCall_undecoded (readR_undocumented (by decide))
  | decodeRawTransaction => exact btcRpcCall_undecoded (readR_undocumented (by decide))

/-- **The height of a chain**: Bitcoin Core's reply to `getblockcount`. -/
theorem block_count_not_decoded :
    Success (BitcoinCall.shape .getBlockHeight)
        (object [("result", .int 800000), ("error", .null), ("id", .int 1)]) ∧
      BitcoinClient.getBlockHeight.run
        (fun _ _ => some (object [("result", .int 800000), ("error", .null), ("id", .int 1)])) none =
        some (.error (rpcError "BTC" "parse failed"), none) := by
  refine ⟨⟨⟨.int 800000, rfl, .inl ⟨_, rfl⟩⟩, rfl, ⟨1, rfl⟩⟩, ?_⟩
  decide +kernel

end TorMarketplace
