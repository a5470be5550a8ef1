import TorMarketplace.Crypto.BlindSig
import TorMarketplace.Crypto.TransitionSig
import TorMarketplace.Db.OrderData
import TorMarketplace.Db.Orders
import TorMarketplace.Error
import TorMarketplace.Lib.Run

/-!
# What the two processes share, and how they reach it

The API process and the worker process meet in the database; each has memory of its own besides
(replay sets, the replay cache of the auth middleware and the login challenges here, the last scanned
block there). A `Call` is one atomic access: one SQL statement, one critical section of a mutex, one
reading of the clock. Everything that only the environment decides (random bytes, replies of the
payment nodes, the order of a hash map, a rejection by a layer that is not modelled) is a `Query`.

`server` gives the calls their meaning. The environment may let any SQL statement fail, reads a clock
that never goes back, and answers a query with any answer that is `Query.Valid`.
-/

namespace TorMarketplace

open Encoding Interleave

/-- `AppState`, less what no modelled function reads. The API process has no worker key. -/
structure AppState where
  prim : Primitives
  serverSecret : String
  defaultLockDays : UInt64
  /-- `bitcoin.network`. -/
  network : String
  /-- `escrow.fee_address_btc`. -/
  feeAddressBtc : Option String
  adminKeypair : Option AdminKeypair
  workerKey : Option Bytes

/-- The `HashSet<String>` statics that refuse a nonce the second time. -/
inductive NonceSet where
  | createOrder
  | updateOrder
  | dispute
  | chat
  | adminToken
  deriving DecidableEq

structure NotificationTracker where
  txHash : Bytes
  orderId : Bytes
  buyerPubkey : Bytes
  processedAt : Int64
  deriving DecidableEq

/-- `PaymentStatus` and `BtcPaymentStatus`. -/
structure PaymentStatus where
  received : Bool
  amount : UInt64
  confirmations : UInt64
  txHash : Option String
  address : Option String
  forkDetected : Bool
  deriving DecidableEq

/-- The two payment clients. -/
inductive Chain where
  | xmr
  | btc
  deriving DecidableEq

/-- An entry of `listsinceblock`. -/
structure TxEntry where
  txid : String
  confirmations : Int64
  deriving DecidableEq

structure DecodedScriptPubKey where
  type : Option String
  asm : Option String
  deriving DecidableEq

structure DecodedVout where
  scriptPubKey : DecodedScriptPubKey
  deriving DecidableEq

/-! ## Questions to the environment -/

inductive Query where
  /-- `OsRng`, `Uuid::new_v4`. -/
  | randomBytes (n : Nat)
  /-- The layers between the auth middleware and the router let the request through. -/
  | layersAdmit
  /-- `into_keys` of a `HashMap` with these keys. -/
  | intoKeys (keys : List Bytes)
  | checkForFork (chain : Chain)
  | checkPayment (chain : Chain) (address : String) (expected requiredConfirmations : UInt64)
  | blockHeight
  | blockHash (height : UInt64)
  | listSinceBlock (blockHash : String)
  | rawTransaction (txid : String)
  | decodeRawTransaction (hex : String)
  /-- `create_stealth_address_for_order`: key derivation and the import into the wallet. -/
  | createStealthAddress (buyerPkHex : String) (orderId : Bytes)
  /-- `list_unspent` at an address: whether it has a confirmed output. -/
  | hasConfirmedUtxo (address : String)
  /-- Building, signing and broadcasting the settlement of an order to a seller. -/
  | broadcastSettlement (orderId : Bytes) (address sellerPkHex buyerPkHex feeAddress : String)
  /-- The dummy worker's first roll: whether this pass inserts an order. -/
  | dummyRoll
  /-- The id and the content that the dummy worker's other rolls make. -/
  | dummyOrder (now : Int64)
  deriving DecidableEq

/-- The type of an answer. `Option`: the call may fail. -/
abbrev Query.Ans : Query → Type
  | .randomBytes _ => Bytes
  | .layersAdmit => Bool
  | .intoKeys _ => List Bytes
  | .checkForFork _ => Option Bool
  | .checkPayment .. => Option PaymentStatus
  | .blockHeight => Option UInt64
  | .blockHash _ => Option String
  | .listSinceBlock _ => Option (List TxEntry × String)
  | .rawTransaction _ => Option String
  | .decodeRawTransaction _ => Option (List DecodedVout)
  | .createStealthAddress .. => Option String
  | .hasConfirmedUtxo _ => Option Bool
  | .broadcastSettlement .. => Option String
  | .dummyRoll => Bool
  | .dummyOrder _ => Bytes × OrderData

/-- What an answer always satisfies: so many bytes as were asked for, the keys of the map in some
order, the 16 bytes of a UUID. -/
def Query.valid : (q : Query) → q.Ans → Bool
  | .randomBytes n, b => b.length = n
  | .intoKeys keys, l => keys.isPerm l
  | .dummyOrder _, (id, _) => id.length = 16
  | .layersAdmit, _ => true
  | .checkForFork _, _ => true
  | .checkPayment .., _ => true
  | .blockHeight, _ => true
  | .blockHash _, _ => true
  | .listSinceBlock _, _ => true
  | .rawTransaction _, _ => true
  | .decodeRawTransaction _, _ => true
  | .createStealthAddress .., _ => true
  | .hasConfirmedUtxo _, _ => true
  | .broadcastSettlement .., _ => true
  | .dummyRoll, _ => true

/-- No answer where one can fail. -/
def Query.noAnswer : (q : Query) → q.Ans
  | .randomBytes n => List.replicate n 0
  | .layersAdmit => true
  | .intoKeys keys => keys
  | .checkForFork _ => none
  | .checkPayment .. => none
  | .blockHeight => none
  | .blockHash _ => none
  | .listSinceBlock _ => none
  | .rawTransaction _ => none
  | .decodeRawTransaction _ => none
  | .createStealthAddress .. => none
  | .hasConfirmedUtxo _ => none
  | .broadcastSettlement .. => none
  | .dummyRoll => false
  | .dummyOrder _ => default

/-! ## Calls -/

inductive Call where
  /-- `SELECT … FROM orders WHERE id = ?`. -/
  | selectOrder (id : Bytes)
  /-- `SELECT * FROM orders`. -/
  | selectOrders
  | insertOrder (i : InsertOrders)
  | updateOrders (u : UpdateOrders)
  | selectTracker (txHash : Bytes)
  /-- `INSERT OR IGNORE INTO notification_tracker`. -/
  | insertTracker (t : NotificationTracker)
  /-- `set.insert(key)` of a nonce set. -/
  | insertNonce (set : NonceSet) (key : String)
  /-- `check_replay` of the auth middleware. -/
  | checkReplay (hourBucket : UInt64) (nonce : Bytes)
  /-- `store.retain(|_, (_, exp)| *exp > now)`. -/
  | retainChallenges (now : Int64)
  | insertChallenge (id : String) (challenge : Bytes) (expiresAt : Int64)
  | removeChallenge (id : String)
  | now
  | lastNotifBlock
  | setLastNotifBlock (hash : String)
  /-- `payment_tx.send`. -/
  | notifyPayment (orderIdHex : String)
  /-- `fs::write` of `kek.hex`. -/
  | writeKek (hex : String)
  | restartApi
  | restartWorker
  | ask (q : Query)
  deriving DecidableEq

/-- The type of a reply. `Option`: the database or the file system may report an error. -/
abbrev Call.Ans : Call → Type
  | .selectOrder _ => Option (Option Order)
  | .selectOrders => Option (List Order)
  | .insertOrder _ => Option Unit
  | .updateOrders _ => Option Nat
  | .selectTracker _ => Option (Option NotificationTracker)
  | .insertTracker _ => Option Unit
  | .insertNonce .. => Bool
  | .checkReplay .. => Bool
  | .retainChallenges _ => Unit
  | .insertChallenge .. => Unit
  | .removeChallenge _ => Option (Bytes × Int64)
  | .now => Int64
  | .lastNotifBlock => Option String
  | .setLastNotifBlock _ => Unit
  | .notifyPayment _ => Unit
  | .writeKek _ => Option Unit
  | .restartApi => Unit
  | .restartWorker => Unit
  | .ask q => q.Ans

/-- The interface of both processes. -/
abbrev Server : Interface := ⟨Call, Call.Ans⟩

/-- A program of either process. -/
abbrev Program (α : Type) := Prog Server Failure α

/-- Make one call. -/
abbrev exec (c : Call) : Program c.Ans := Prog.call (I := Server) c

/-- What a process has been answered so far. -/
abbrev Past := List (Reply Server)

/-- Ask the environment. -/
abbrev ask (q : Query) : Program q.Ans := exec (.ask q)

/-! ## Arithmetic on timestamps -/

/-- The `i64` closest to a number. -/
def saturate (n : Int) : Int64 :=
  if n < Int64.minValue.toInt then Int64.minValue
  else if n > Int64.maxValue.toInt then Int64.maxValue
  else Int64.ofInt n

def saturatingAdd (a b : Int64) : Int64 := saturate (a.toInt + b.toInt)

def saturatingMul (a b : Int64) : Int64 := saturate (a.toInt * b.toInt)

/-- `floor_timestamp_6h`. -/
def floorTimestamp6h (ts : Int64) : Int64 := ts / 21600 * 21600

/-- The reading of a clock in seconds as an hour. -/
def hourOf (now : Int64) : UInt64 := (now / 3600).toUInt64

/-- `Uuid::to_string`. -/
def uuidString (b : Bytes) : String :=
  hexEncode (b.take 4) ++ "-" ++ hexEncode ((b.drop 4).take 2) ++ "-" ++
    hexEncode ((b.drop 6).take 2) ++ "-" ++ hexEncode ((b.drop 8).take 2) ++ "-" ++
    hexEncode (b.drop 10)

/-! ## Shared state -/

structure Shared where
  orders : OrdersTable
  notificationTracker : List NotificationTracker
  nonces : NonceSet → List String
  /-- `REPLAY_CACHE`: the nonces of an hour. -/
  replayCache : List (UInt64 × List Bytes)
  challenges : List (String × Bytes × Int64)
  /-- The last reading of the clock. -/
  clock : Int64
  lastNotifBlock : Option String
  kekFile : Option String
  /-- The messages on the `payment_tx` channel. -/
  payments : List String

/-- Both processes freshly started on the tables `orders`. -/
def Shared.initial (orders : OrdersTable) : Shared where
  orders := orders
  notificationTracker := []
  nonces := fun _ => []
  replayCache := []
  challenges := []
  clock := 0
  lastNotifBlock := none
  kekFile := none
  payments := []

/-- `MAX_NONCES_PER_BUCKET`. -/
def maxNoncesPerBucket : Nat := 10000

/-- The cache after `check_replay`, and its verdict: stale buckets are dropped, a full bucket is
cleared, and the nonce is inserted. -/
def checkReplayCache (cache : List (UInt64 × List Bytes)) (hourBucket : UInt64) (nonce : Bytes) :
    Bool × List (UInt64 × List Bytes) :=
  let cutoff := if hourBucket = 0 then 0 else hourBucket - 1
  let kept := cache.filter fun e => e.1 ≥ cutoff
  let entry := (kept.lookup hourBucket).getD []
  let entry := if entry.length ≥ maxNoncesPerBucket then [] else entry
  let others := kept.filter fun e => e.1 ≠ hourBucket
  if entry.contains nonce then (false, (hourBucket, entry) :: others)
  else (true, (hourBucket, nonce :: entry) :: others)

/-- The environment's part in one call. -/
structure Choice where
  /-- The statement or the file access fails. -/
  fault : Bool := false
  /-- The reading of the clock. -/
  time : Int64 := 0
  /-- The answers to queries. -/
  ask : (q : Query) → q.Ans := Query.noAnswer

/-- A row as its reader gets it: an error if the version does not fit an `i64`. -/
def readRow (o : Order) : Option Order := if IsI64 o.version then some o else none

/-- The atomic meaning of the calls. -/
def server : Machine Server Shared Choice where
  answer := fun
    | .selectOrder id, e, s =>
      if e.fault then some (none, s)
      else match s.orders.find id with
        | some o => some ((readRow o).map some, s)
        | none => some (some none, s)
    | .selectOrders, e, s =>
      if e.fault then some (none, s) else some (s.orders.rows.mapM readRow, s)
    | .insertOrder i, e, s =>
      if e.fault then some (none, s)
      else match s.orders.insert i with
        | some t => some (some (), { s with orders := t })
        | none => some (none, s)
    | .updateOrders u, e, s =>
      if e.fault then some (none, s)
      else some (some (s.orders.rowsAffected u), { s with orders := s.orders.update u })
    | .selectTracker h, e, s =>
      if e.fault then some (none, s)
      else some (some (s.notificationTracker.find? fun t => t.txHash = h), s)
    | .insertTracker t, e, s =>
      if e.fault then some (none, s)
      else if s.notificationTracker.any fun t' => t'.txHash = t.txHash then some (some (), s)
      else some (some (), { s with notificationTracker := s.notificationTracker ++ [t] })
    | .insertNonce set key, _, s =>
      if (s.nonces set).contains key then some (false, s)
      else some (true, { s with
        nonces := fun set' => if set' = set then key :: s.nonces set else s.nonces set' })
    | .checkReplay hour nonce, _, s =>
      let (fresh, cache) := checkReplayCache s.replayCache hour nonce
      some (fresh, { s with replayCache := cache })
    | .retainChallenges now, _, s =>
      some ((), { s with challenges := s.challenges.filter fun c => c.2.2 > now })
    | .insertChallenge id challenge expiresAt, _, s =>
      some ((), { s with
        challenges := (id, challenge, expiresAt) :: s.challenges.filter fun c => c.1 ≠ id })
    | .removeChallenge id, _, s =>
      some (s.challenges.lookup id, { s with challenges := s.challenges.filter fun c => c.1 ≠ id })
    | .now, e, s => if s.clock ≤ e.time then some (e.time, { s with clock := e.time }) else none
    | .lastNotifBlock, _, s => some (s.lastNotifBlock, s)
    | .setLastNotifBlock hash, _, s => some ((), { s with lastNotifBlock := some hash })
    | .notifyPayment id, _, s => some ((), { s with payments := s.payments ++ [id] })
    | .writeKek hex, e, s =>
      if e.fault then some (none, s) else some (some (), { s with kekFile := some hex })
    | .restartApi, _, s =>
      some ((), { s with nonces := fun _ => [], replayCache := [], challenges := [] })
    | .restartWorker, _, s => some ((), { s with lastNotifBlock := none })
    | .ask q, e, s => if q.valid (e.ask q) then some (e.ask q, s) else none

end TorMarketplace
