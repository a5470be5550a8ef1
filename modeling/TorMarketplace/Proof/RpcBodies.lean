import TorMarketplace.Services.Escrow.Btc
import TorMarketplace.Services.Payments.Xmr
import TorMarketplace.Proof.SettlementTx

/-!
# The size of RPC bodies

`pad_json_body` fills a body up to 4096 bytes with space that no reader sees (`Json.parse_spaced`). It
never shortens one, so it does what it is for exactly on the bodies that fit (`padded_iff`).
`bodies_padded_iff` says so of every request of every method of the two clients, and of the calls of
`services/escrow/btc.rs`.
-/

namespace TorMarketplace

open Encoding Interleave Json Prog Serde

/-! ## Padding -/

/-- The body is sent as 4096 bytes that are read as the body. -/
def Padded (debugAssertions : Bool) (body : Value) : Prop :=
  ∃ out, padJsonBody debugAssertions body = some out ∧ out.length = paddedBodySize ∧
    parse out = some body

/-- **An object is padded exactly where its text is not too long**, with and without assertions. -/
theorem padded_iff (debugAssertions : Bool) {k : Bytes} {v : Value} {l : List (Bytes × Value)}
    (h : plain (.obj ((k, v) :: l) : Value)) :
    Padded debugAssertions (.obj ((k, v) :: l)) ↔
      (Json.print (.obj ((k, v) :: l))).length ≤ paddedBodySize := by
  have hlast : (Json.print (.obj ((k, v) :: l))).getLast? = some 125 := getLast?_write_obj _
  have hcut : (Json.print (.obj ((k, v) :: l))).dropLast.length =
      (Json.print (.obj ((k, v) :: l))).length - 1 := List.length_dropLast
  have hpos : 0 < (Json.print (.obj ((k, v) :: l))).length := List.length_pos_of_mem
    (List.mem_of_getLast? hlast)
  have hread := parse_spaced quoting_quoteTail
    (paddedBodySize - ((Json.print (.obj ((k, v) :: l))).dropLast.length + 1)) h
  rw [value_id] at hread
  unfold Padded padJsonBody
  simp only [hlast, ne_eq, not_true_eq_false, and_false, if_false, List.length_append,
    List.length_replicate, List.length_singleton]
  constructor
  · rintro ⟨out, hout, hsize, -⟩
    split at hout
    · exact absurd hout (by simp)
    · obtain rfl := Option.some.inj hout
      rw [List.length_append, List.length_append, List.length_replicate, List.length_singleton] at hsize
      omega
  · intro hle
    refine ⟨_, if_neg (by rintro ⟨-, hne⟩; exact hne (by omega)), ?_, hread⟩
    rw [List.length_append, List.length_append, List.length_replicate, List.length_singleton]
    omega

/-! ## Lengths -/

/-- What the parts of a body contribute: its number, the method and the parameters. -/
theorem length_rpcBody (id : UInt64) (method : String) (params : Value) :
    (Json.print (rpcBody id method params)).length =
      44 + (decimal id.toNat).length + (quoteTail (utf8 method)).length + (Json.print params).length := by
  have hid : intText (id.toNat : Int) = decimal id.toNat := rfl
  have hnames : (quoteTail (utf8 "id")).length = 3 ∧ (quoteTail (utf8 "jsonrpc")).length = 8 ∧
      (quoteTail (utf8 "2.0")).length = 4 ∧ (quoteTail (utf8 "method")).length = 7 ∧
      (quoteTail (utf8 "params")).length = 7 := by
    decide
  obtain ⟨h₁, h₂, h₃, h₄, h₅⟩ := hnames
  unfold rpcBody object Json.print ofString
  simp only [List.map, write, writeMembers, List.length_cons, List.length_append, List.length_nil, hid,
    h₁, h₂, h₃, h₄, h₅]
  omega

theorem hexPair_unescaped : ∀ x : UInt8, (hexPair x).flatMap escape = hexPair x :=
  forall_byte (by decide +kernel)

/-- Hex needs no escapes. -/
theorem quoteTail_hexEncode (b : Bytes) :
    quoteTail (utf8 (hexEncode b)) = utf8 (hexEncode b) ++ [34] := by
  rw [quoteTail, utf8_hexEncode, List.flatMap_assoc]
  simp only [hexPair_unescaped]

theorem length_utf8_hexEncode (b : Bytes) : (utf8 (hexEncode b)).length = 2 * b.length := by
  rw [utf8_hexEncode]
  induction b with
  | nil => rfl
  | cons x b ih =>
    rw [List.flatMap_cons, List.length_append, ih, List.length_cons]
    change 2 + _ = _
    omega

/-- The body of a broadcast: two digits a byte of the transaction. -/
theorem length_broadcast (id : UInt64) (tx : Bytes) :
    (Json.print (rpcBody id "sendrawtransaction" (.arr [ofString (hexEncode tx)]))).length =
      67 + (decimal id.toNat).length + 2 * tx.length := by
  have hmethod : (quoteTail (utf8 "sendrawtransaction")).length = 19 := by decide
  rw [length_rpcBody, hmethod]
  unfold Json.print ofString
  simp only [write, writeElems, List.length_cons, List.length_append, List.length_nil,
    quoteTail_hexEncode, length_utf8_hexEncode]
  omega

/-! ## What is sent -/

/-- The functions that send requests to a node, each with its arguments. -/
inductive Requester : {S α : Type} → NodeClient S α → Prop
  | walletIsReady : Requester BitcoinClient.walletIsReady
  | getBlockHeight : Requester BitcoinClient.getBlockHeight
  | getBlockHash (height : UInt64) : Requester (BitcoinClient.getBlockHash height)
  | createAddress (addressType orderId : String) :
    Requester (BitcoinClient.createAddress addressType orderId)
  | listTransactionsForAddress (address : String) :
    Requester (BitcoinClient.listTransactionsForAddress address)
  | getTransaction (txHash : String) : Requester (BitcoinClient.getTransaction txHash)
  | listUnspent (addresses : List String) : Requester (BitcoinClient.listUnspent addresses)
  | getRawTransaction (txHash : String) : Requester (BitcoinClient.getRawTransaction txHash)
  | listSinceBlock (blockHash : String) : Requester (BitcoinClient.listSinceBlock blockHash)
  | decodeRawTransaction (hex : String) : Requester (BitcoinClient.decodeRawTransaction hex)
  | broadcastPsbt (txHex : String) : Requester (broadcastPsbt txHex)
  | importMultisigWatchonly (address witnessScriptHex label : String) :
    Requester (importMultisigWatchonly address witnessScriptHex label)
  | importAddressWatchonly (address label : String) : Requester (importAddressWatchonly address label)
  | getHeight : Requester MoneroViewOnlyClient.getHeight
  | getMoneroBlockHash (height : UInt64) : Requester (MoneroViewOnlyClient.getBlockHash height)
  | createSubaddress (orderId : String) : Requester (MoneroViewOnlyClient.createSubaddress orderId)
  | getIncomingTransfers (subaddress : String) :
    Requester (MoneroViewOnlyClient.getIncomingTransfers subaddress)
  | getBalance (subaddress : String) : Requester (MoneroViewOnlyClient.getBalance subaddress)

/-- The parameters of the call are written without fractions. -/
def PlainParams {S : Type} (_ : List (Reply (Rpc S))) (c : RpcCall S) : Prop :=
  ∀ method params, c = .send method params → plain params

section Sends

variable {S α : Type} {past : List (Reply (Rpc S))}

/-- One request with such parameters, and a program that sends nothing more. -/
theorem rpcCall_plain {client method : String} {params : Value} {f : Value → NodeClient S α}
    (h : plain params)
    (hf : ∀ past result, Spec (fun _ _ => True) PlainParams (OnOk fun _ _ => True) past (f result)) :
    Spec (fun _ _ => True) PlainParams (OnOk fun _ _ => True) past
      (rpcCall client method params >>= f) := by
  have hsend : PlainParams past (.send method params) := by
    rintro _ _ ⟨⟩
    exact h
  exact spec_seq_onOk (rpcCall_spec hsend) fun past' result _ _ => hf past' result

theorem orFail_plain {o : Option α} {e : Failure} (past : List (Reply (Rpc S))) :
    Spec (fun _ _ => True) PlainParams (OnOk fun _ _ => True) past (orFail o e) :=
  spec_orFail.mpr ⟨fun _ => trivial, fun _ _ => trivial⟩

theorem btcRpcCall_plain {α : Type} {method : String} {params : Value} {read : Value → Option α}
    {past : List (Reply (Rpc BitcoinMemory))} (h : plain params) :
    Spec (fun _ _ => True) PlainParams (OnOk fun _ _ => True) past
      (BitcoinClient.btcRpcCall method params read) :=
  rpcCall_plain h fun past' _ => orFail_plain past'

/-- **No request has a fraction in it.** -/
theorem Requester.plainParams {x : NodeClient S α} (h : Requester x) :
    Spec (fun _ _ => True) PlainParams (OnOk fun _ _ => True) [] x := by
  have hstrings (l : List String) : plain (ofVec ofString l) := plainElems_map (fun _ => rfl) l
  cases h with
  | walletIsReady =>
    refine rpcCall_plain rfl fun past' result => ?_
    exact spec_seq_onOk (orFail_plain past') fun _ _ _ _ => trivial
  | getBlockHeight => exact btcRpcCall_plain rfl
  | getBlockHash => exact btcRpcCall_plain rfl
  | createAddress => exact btcRpcCall_plain rfl
  | listTransactionsForAddress =>
    exact spec_seq_onOk (btcRpcCall_plain rfl) fun _ _ _ _ => trivial
  | getTransaction => exact btcRpcCall_plain rfl
  | listUnspent addresses => exact btcRpcCall_plain (by simp [plain, plainElems, hstrings])
  | getRawTransaction => exact btcRpcCall_plain rfl
  | listSinceBlock => exact btcRpcCall_plain rfl
  | decodeRawTransaction => exact btcRpcCall_plain rfl
  | broadcastPsbt => exact rpcCall_plain rfl fun past' _ => orFail_plain past'
  | importMultisigWatchonly => exact rpcCall_plain rfl fun _ _ => trivial
  | importAddressWatchonly => exact rpcCall_plain rfl fun _ _ => trivial
  | getHeight => exact rpcCall_plain rfl fun past' _ => orFail_plain past'
  | getMoneroBlockHash => exact rpcCall_plain rfl fun past' _ => orFail_plain past'
  | createSubaddress => exact rpcCall_plain rfl fun past' _ => orFail_plain past'
  | getIncomingTransfers =>
    refine spec_seq_onOk (rpcCall_plain rfl fun past' _ => orFail_plain past') fun _ _ _ _ => ?_
    exact rpcCall_plain rfl fun _ _ => trivial
  | getBalance => exact rpcCall_plain rfl fun _ _ => trivial

/-- **Bodies have constant size exactly as long as they fit.** Every request that a function of the
two clients or of `services/escrow/btc.rs` sends, in every execution and under every number, is
padded in a debug and in a release build exactly where its compact text has at most 4096 bytes. -/
theorem bodies_padded_iff {x : NodeClient S α} (h : Requester x) :
    Spec (fun _ _ => True) (fun _ c => ∀ method params, c = (.send method params : RpcCall S) →
        ∀ debugAssertions id, Padded debugAssertions (rpcBody id method params) ↔
          (Json.print (rpcBody id method params)).length ≤ paddedBodySize)
      (OnOk fun _ _ => True) [] x := by
  refine spec_mono (fun _ c hc method params hsend debugAssertions id => ?_) (fun _ _ hr => hr)
    h.plainParams
  exact padded_iff debugAssertions (by simp [plain, plainMembers, ofString, hc method params hsend])

end Sends

/-- The height is asked for with any number. -/
theorem block_height_padded :
    Spec (fun _ _ => True) (fun _ c => ∀ method params,
        c = (.send method params : RpcCall BitcoinMemory) →
        ∀ debugAssertions id, Padded debugAssertions (rpcBody id method params) ↔
          (Json.print (rpcBody id method params)).length ≤ paddedBodySize)
      (OnOk fun _ _ => True) [] BitcoinClient.getBlockHeight :=
  bodies_padded_iff .getBlockHeight

namespace PaddingSample

/-- A settlement of fourteen outputs of one transaction, with two outputs of its own, signed. -/
def settlement : Bytes :=
  [1, 0, 0, 0, 0, 1, 14] ++
    (List.range 14).flatMap (fun i => List.replicate 32 0xab ++ [i.toUInt8, 0, 0, 0, 0] ++
      List.replicate 4 0xff) ++
    [2] ++ [0x00, 0x6c, 0xdc, 0x02, 0, 0, 0, 0, 22, 0, 20] ++ List.replicate 20 0x33 ++
    [0x80, 0x84, 0x1e, 0, 0, 0, 0, 0, 22, 0, 20] ++ List.replicate 20 0x44 ++
    (List.replicate 14 ([2, 71, 0x30, 68, 2, 32] ++ List.replicate 32 0x11 ++ [2, 32] ++
      List.replicate 32 0x22 ++ [1, 33, 2] ++ List.replicate 32 0x55)).flatten ++ [0, 0, 0, 0]

end PaddingSample

open PaddingSample in
/-- **Fourteen outputs to settle are too many**: the body is longer than the padding goes, in a
release build it is sent as it is, and in a debug build the assertion fails. -/
theorem settlement_not_padded :
    (∃ k, broadcastPsbt (hexEncode settlement) =
      .step (.send "sendrawtransaction" (.arr [ofString (hexEncode settlement)])) k) ∧
    ∀ debugAssertions id, ¬ Padded debugAssertions
      (rpcBody id "sendrawtransaction" (.arr [ofString (hexEncode settlement)])) := by
  refine ⟨⟨_, rfl⟩, fun debugAssertions id hpadded => ?_⟩
  have hsize := (padded_iff debugAssertions (by simp [plain, plainMembers, plainElems, ofString])).mp
    hpadded
  have hlength : settlement.length = 2146 := by decide +kernel
  have hbody := length_broadcast id settlement
  rw [hlength] at hbody
  change (Json.print (rpcBody id _ _)).length ≤ 4096 at hsize
  omega

end TorMarketplace
