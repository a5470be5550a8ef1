import TorMarketplace.Lib.Js

/-!
# The order data of the browser client

`frontend/crypto.js` and `frontend/api.js`: the object that a buyer makes of a new order, what later
calls make of it, and the plaintext that is encrypted for the worker.
-/

namespace TorMarketplace

open Encoding Js

/-- `u8ToHex`. -/
def u8ToHex (buf : Bytes) : JsString := ascii (hexEncode buf)

/-- White space and line terminators. -/
def isWhiteSpace (u : UInt16) : Bool :=
  [9, 10, 11, 12, 13, 32, 0xA0, 0x1680, 0x2028, 0x2029, 0x202F, 0x205F, 0x3000, 0xFEFF].contains u ||
    (0x2000 ≤ u && u ≤ 0x200A)

def hexDigitOf (u : UInt16) : Option Nat := if u < 0x80 then Json.hexValue u.toUInt8 else none

/-- `parseInt(s, 16)`, with 0 for `NaN`. -/
def parseInt16 (s : JsString) : Int :=
  let s := s.dropWhile isWhiteSpace
  let (neg, s) : Bool × JsString := match s with
    | 43 :: s => (false, s)
    | 45 :: s => (true, s)
    | s => (false, s)
  let s := match s with
    | 48 :: 88 :: s => s
    | 48 :: 120 :: s => s
    | s => s
  let digits := (s.map hexDigitOf).takeWhile Option.isSome
  let n := digits.foldl (fun n d => n * 16 + d.getD 0) 0
  if neg then -n else n

/-- `hexToU8`: every two code units are a byte, whatever they are. -/
def hexToU8 : JsString → Bytes
  | a :: b :: l => (parseInt16 [a, b] % 256).toNat.toUInt8 :: hexToU8 l
  | _ => []

/-- What the functions take from the module around them. -/
structure Client where
  /-- `nacl.hash`, SHA-512. -/
  naclHash : Bytes → Bytes
  /-- `keypair.pubkey`. -/
  pubkey : Bytes

def Client.getPubkeyHex (c : Client) : JsString := u8ToHex c.pubkey

def Client.hashPubkey (c : Client) (pubkeyHex : JsString) : JsString :=
  u8ToHex ((c.naclHash (hexToU8 pubkeyHex)).take 32)

/-- The string, if it is there and not empty. -/
def truthy (s : Option JsString) : Option JsString := s.filter (· ≠ [])

/-- `buildInitialOrderData`, at `now` in seconds. -/
def Client.buildInitialOrderData (c : Client) (listingId : JsString)
    (currency sellerPubkeyHex : Option JsString) (now : Int) : JsObject :=
  let buyerHex := c.getPubkeyHex
  [ (ascii "listing_id", str listingId),
    (ascii "buyer_pubkey_hash", str (c.hashPubkey buyerHex)),
    (ascii "seller_pubkey_hash",
      str (match truthy sellerPubkeyHex with
        | some hex => c.hashPubkey hex
        | none => ascii "")),
    (ascii "buyer_pubkey", str buyerHex),
    (ascii "seller_pubkey",
      match truthy sellerPubkeyHex with
      | some hex => str hex
      | none => null),
    (ascii "state", str (ascii "pending")),
    (ascii "currency", str ((truthy currency).getD (ascii "XMR"))),
    (ascii "escrow_address", null),
    (ascii "escrow_amount", null),
    (ascii "time_lock_seconds", num (7 * 86400)),
    (ascii "created_at", num now),
    (ascii "funded_at", null),
    (ascii "shipped_at", null),
    (ascii "confirmed_at", null),
    (ascii "released_at", null),
    (ascii "refunded_at", null),
    (ascii "expires_at", null),
    (ascii "disputed_at", null),
    (ascii "dispute_id", null),
    (ascii "owner_pubkey", null),
    (ascii "fee_percent", null),
    (ascii "fee_address", null),
    (ascii "dispute", null),
    (ascii "chat_messages", emptyArray),
    (ascii "settlement_txid", null)]

/-- What happens to the order data that the client keeps. -/
inductive LocalStep where
  /-- `getOrder`, answered with a version that is newer than the one kept, or not. -/
  | getOrder (newer : Bool) (now : Int)
  /-- `updateOrder` -/
  | updateOrder (newState : JsString) (extra : JsObject) (now : Int)

def LocalStep.apply (data : JsObject) : LocalStep → JsObject
  | .getOrder newer now =>
    let pending := (data.get (ascii "state")).any fun v => match v.val with
      | .str s => s = ascii "pending"
      | _ => false
    if newer && pending then
      (data.assign (ascii "state") (str (ascii "funded"))).assign (ascii "funded_at") (num now)
    else data
  | .updateOrder newState extra now =>
    let orderData := (data.assign (ascii "state") (str newState)).spread extra
    let orderData :=
      if newState = ascii "shipped" then orderData.assign (ascii "shipped_at") (num now)
      else orderData
    let orderData :=
      if newState = ascii "confirmed" then orderData.assign (ascii "confirmed_at") (num now)
      else orderData
    let orderData :=
      if newState = ascii "cancelled" then
        orderData.assign (ascii "state") (str (ascii "cancelled"))
      else orderData
    if newState = ascii "disputed" then
      (orderData.assign (ascii "state") (str (ascii "disputed"))).assign (ascii "disputed_at")
        (num now)
    else orderData

/-- The plaintext of `encryptWorkerOrder`. -/
def workerPlaintext (orderData : JsObject) : Bytes := stringify orderData.toValue

end TorMarketplace
