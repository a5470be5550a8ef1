import TorMarketplace.Db.OrderData
import TorMarketplace.Gateway.Effects
import TorMarketplace.Lib.Draws
import TorMarketplace.Lib.F64

/-!
# The content of dummy orders

`background/dummy_worker.rs`: the draws of `run_dummy_worker` and the order they make. The amounts of
time are `i64`, the roll and its thresholds `f64`.
-/

namespace TorMarketplace

open Draws Encoding Interleave Prog

namespace DummyWorker

/-- The `f64` that is written `0.n`, with two digits. -/
def percent (n : Nat) : Rat := F64.nearest (n / 100)

/-- The seconds of a `time::OffsetDateTime`: its years are within ±9999. -/
structure UnixTime where
  seconds : Int64
  lower : -377705116800 ≤ seconds.toInt
  upper : seconds.toInt ≤ 253402300799

/-! ## Texts -/

def randomHex (bytes : Nat) : Gen String := do
  let buf ← genBytes bytes
  pure (hexEncode buf)

def randomHash : Gen Bytes := genBytes 32

def randomEd25519Pubkey : Gen String := randomHex 32

/-- `{:0w}`. -/
def zeroPadded (w : Nat) (n : Int) : String :=
  let digits := Nat.toDigits 10 n.toNat
  String.ofList (List.replicate (w - digits.length) '0' ++ digits)

def randomAmount (currency : String) : Gen String :=
  if currency = "BTC" then do
    let whole ← genRange 1 51
    let frac ← genRange 0 100000000
    pure (toString whole ++ "." ++ zeroPadded 8 frac)
  else do
    let whole ← genRange 1 101
    let frac ← genRange 0 1000000000000
    pure (toString whole ++ "." ++ zeroPadded 12 frac)

/-- The characters of a Bitcoin address, as the worker knows them. -/
def addressChars : List Char := "qrstuvwxyz234567acdefghjkmnpq".toList

def addressChar : Gen Char := do
  let idx ← genRange 0 32
  indexed addressChars idx

def randomEscrowAddress (currency : String) : Gen String :=
  if currency = "BTC" then do
    let chars ← mapEach (fun _ => addressChar) (List.range 31)
    pure ("bc1q" ++ String.ofList chars)
  else do
    let hex ← randomHex 47
    pure ("4" ++ hex)

/-! ## States -/

/-- What `generate_state_with_timestamps` returns. -/
structure Stamps where
  state : String
  funded : Option Int64
  shipped : Option Int64
  confirmed : Option Int64
  disputed : Option Int64
  released : Option Int64
  refunded : Option Int64
  cancelled : Option Int64
  deriving DecidableEq

def step (t : Int64) : Gen Int64 := do
  let n ← genRange 7200 172800
  checked (t.toInt + n)

/-- `if b { let t = step(rng, cur); cur = t; Some(t) } else { None }`, with `cur` after it. -/
def stepIf (b : Bool) (cur : Int64) : Gen (Int64 × Option Int64) :=
  if b then do
    let t ← step cur
    pure (t, some t)
  else pure (cur, none)

/-- `(lo..hi).contains(&roll)`. -/
def within (lo hi : Nat) (roll : Rat) : Bool := percent lo ≤ roll && roll < percent hi

def stateOf (roll : Rat) : String :=
  if roll < percent 15 then "pending"
  else if roll < percent 35 then "funded"
  else if roll < percent 50 then "shipped"
  else if roll < percent 60 then "confirmed"
  else if roll < percent 70 then "disputed"
  else if roll < percent 85 then "released"
  else if roll < percent 95 then "refunded"
  else "cancelled"

def generateStateWithTimestamps (createdAt : Int64) : Gen Stamps := do
  let roll ← genUnit
  let (cur, funded) ← stepIf (percent 15 ≤ roll) createdAt
  let (cur, shipped) ← stepIf (percent 35 ≤ roll) cur
  let (cur, confirmed) ← stepIf (within 50 60 roll || percent 85 ≤ roll) cur
  let (cur, disputed) ← stepIf (within 60 70 roll || within 70 95 roll) cur
  let (cur, released) ← stepIf (within 70 85 roll) cur
  let (cur, refunded) ← stepIf (within 85 95 roll) cur
  let cancelled := if percent 95 ≤ roll then some cur else none
  pure ⟨stateOf roll, funded, shipped, confirmed, disputed, released, refunded, cancelled⟩

/-! ## Chat and disputes -/

/-- Message `i` of `count` stands there between the first and the last. -/
def messageOffset (span : Int64) (count : Int) (i : Nat) : Gen Int64 :=
  if count = 1 then divided span 2
  else do
    let scaled ← checked (span.toInt * i)
    let gaps ← checked (count - 1)
    divided scaled gaps

/-- Message `i` of `count`. -/
def chatMessage (buyerHash sellerHash : Bytes) (createdAt span : Int64) (count : Int) (i : Nat) :
    Gen ChatMessageData := do
  let offset ← messageOffset span count i
  let t ← checked (createdAt.toInt + offset.toInt)
  let id ← genBytes 16
  let length ← genRange 48 512
  let encryptedBody ← genBytes length.toNat
  let expiresAt ← checked (t.toInt + 7776000)
  pure
    { id
      senderPubkeyHash := if i % 2 = 0 then buyerHash else sellerHash
      encryptedBody
      createdAt := t
      expiresAt }

def generateChatMessages (buyerHash sellerHash : Bytes) (createdAt lastAt : Int64) :
    Gen (List ChatMessageData) := do
  let count ← genRange 1 9
  let span ← checked (lastAt.toInt - createdAt.toInt)
  mapEach (chatMessage buyerHash sellerHash createdAt span count) (List.range count.toNat)

def evidenceBy (byBuyer : Bool) (buyerHash : Bytes) : Gen Bytes :=
  if byBuyer then pure buyerHash else randomHash

def disputeEvidence (buyerHash : Bytes) (disputedAt : Option Int64) : Gen DisputeEvidenceEntry := do
  let id ← genBytes 16
  let byBuyer ← genBool (percent 50)
  let submitter ← evidenceBy byBuyer buyerHash
  let length ← genRange 64 1024
  let encryptedContent ← genBytes length.toNat
  let isText ← genBool (percent 70)
  let offset ← genRange (-3600) 3600
  let createdAt ← checked ((disputedAt.getD 0).toInt + offset)
  pure
    { id := uuidString id
      submittedBy := hexEncode submitter
      encryptedContent
      contentType := if isText then "text" else "image"
      createdAt }

def disputeReasons : List String :=
  ["item not received", "wrong item", "quality issue", "counterfeit", "other"]

def generateDispute (buyerHash : Bytes) (disputedAt : Option Int64) (resolved : Bool)
    (resolvedAt : Option Int64) : Gen (Option (DisputeData × String)) := do
  let did ← genBytes 16
  let count ← genRange 1 4
  let evidence ← mapEach (fun _ => disputeEvidence buyerHash disputedAt) (List.range count.toNat)
  let idx ← genRange 0 5
  let reason ← indexed disputeReasons idx
  pure (some
    ({ id := uuidString did
       openedBy := "buyer"
       reason
       resolution := if resolved then some "seller" else none
       resolvedBy := if resolved then some "admin" else none
       resolvedAt := if resolved then resolvedAt else none
       createdAt := disputedAt.getD 0
       evidence }, uuidString did))

/-! ## The order -/

/-- `opt.map(|_| f())`. -/
def genOption {α : Type} (b : Bool) (x : Gen α) : Gen (Option α) :=
  if b then do
    let a ← x
    pure (some a)
  else pure none

/-- `floor_timestamp_6h`, on checked numbers. -/
def floored (ts : Int64) : Gen Int64 := do
  let buckets ← divided ts 21600
  checked (buckets.toInt * 21600)

/-- The order has a dispute: it was disputed, or is resolved and one is drawn. -/
def hasDispute (st : Stamps) (isResolved : Bool) : Gen Bool :=
  if st.disputed.isSome then pure true
  else if isResolved then genBool (percent 30)
  else pure false

/-- The dispute of an order: opened when it was disputed, else at its last stamp. -/
def dummyDispute (st : Stamps) (buyerHash : Bytes) (lastTs : Int64) :
    Gen (Option (DisputeData × String)) := do
  let isResolved : Bool := st.state = "released" || st.state = "refunded"
  let disputed ← hasDispute st isResolved
  if disputed then
    generateDispute buyerHash (st.disputed.or (some lastTs)) isResolved (st.released.or st.refunded)
  else pure none

/-- The id and the content of the order that is inserted at `now`. -/
def dummyOrder (now : Int64) : Gen (Bytes × OrderData) := do
  let orderId ← genBytes 16
  let listingId ← genBytes 16
  let monero ← genBool (percent 70)
  let currency := if monero then "XMR" else "BTC"
  let ageHours ← genRange 12 288
  let age ← checked (ageHours * 3600)
  let created ← checked (now.toInt - age.toInt)
  let createdAt ← floored created
  let st ← generateStateWithTimestamps createdAt
  let buyerHash ← randomHash
  let sellerHash ← randomHash
  let lastTs := (((((st.released.or st.refunded).or st.disputed).or st.confirmed).or st.shipped).or
    st.funded).getD createdAt
  let chatMessages ← generateChatMessages buyerHash sellerHash createdAt lastTs
  let dispute ← dummyDispute st buyerHash lastTs
  let hasBtc : Bool := currency = "BTC"
  let feePercent ← genOption hasBtc (genRange 1 6)
  let ownerPubkey ← genOption hasBtc (randomHex 33)
  let feeAddress ← genOption hasBtc (randomEscrowAddress "BTC")
  let addr ← randomEscrowAddress currency
  let amount ← randomAmount currency
  let buyerPubkey ← randomEd25519Pubkey
  let sellerPubkey ← randomEd25519Pubkey
  let timeLock ← genRange 86400 (14 * 86400)
  let lifetime ← genRange 86400 (21 * 86400)
  let expiresAt ← checked (createdAt.toInt + lifetime)
  let settlementTxid ← genOption st.released.isSome (randomHex 32)
  pure (orderId,
    { listingId
      buyerPubkeyHash := buyerHash
      sellerPubkeyHash := sellerHash
      buyerPubkey := some buyerPubkey
      sellerPubkey := some sellerPubkey
      state := st.state
      currency
      escrowAddress := some addr
      escrowAmount := some amount
      timeLockSeconds := Int64.ofInt timeLock
      createdAt
      fundedAt := st.funded
      shippedAt := st.shipped
      confirmedAt := st.confirmed
      releasedAt := st.released
      refundedAt := st.refunded
      expiresAt := some expiresAt
      disputedAt := st.disputed
      disputeId := dispute.map Prod.snd
      ownerPubkey
      feePercent := feePercent.map Int64.ofInt
      feeAddress
      dispute := dispute.map Prod.fst
      chatMessages
      settlementTxid })

/-- The draws of `run_dummy_worker`: mostly it only sleeps, and it sleeps after an insertion. -/
def runDraws (time : UnixTime) : Gen (Option (Bytes × OrderData)) := do
  let prob ← genUnit
  if prob > percent 30 then do
    let _ ← genRange 50 200
    pure none
  else do
    let now ← floored time.seconds
    let order ← dummyOrder now
    let _ ← genRange 50 200
    pure (some order)

end DummyWorker

end TorMarketplace
