import TorMarketplace.Proof.WorkerState

/-!
# What the worker's passes read in one row

The poller opens a blob in the client's format first (`decodePending`), the other places in the
worker's own format only (`decodeOrder`). They agree on a row exactly when the client's format adds
nothing (`decoders_agree_iff`); where it does, the poller verifies payments that no writer of the
worker can record.
-/

namespace TorMarketplace

open Encoding Interleave Prog

variable {D : Deployment}

/-- The row `o` is in the table and can be read. -/
structure Stored (s : Shared) (e : Choice) (o : Order) : Prop where
  find : s.orders.find o.id = some o
  version : IsI64 o.version
  noFault : e.fault = false

/-- The nonce that the environment draws seals the content `d` for the row `o`. -/
structure Sealable (D : Deployment) (e : Choice) (o : Order) (d : OrderData) (blob : Bytes) : Prop where
  nonce : (e.ask (.randomBytes 12)).length = 12
  encrypt : encryptOrderBlob D.prim (e.ask (.randomBytes 12)) d.toVec D.workerKey o.id = some blob

/-! ## The writers alone -/

theorem Stored.answer {s : Shared} {e : Choice} {o : Order} (h : Stored s e o) :
    server.answer (.selectOrder o.id) e s = some (some (some o), s) := by
  simp [server, h.noFault, h.find, readRow, h.version]

/-- The row is loaded with the content of the worker's own format. -/
theorem loadOrder_stored {s : Shared} {e : Choice} {o : Order} {d : OrderData} (h : Stored s e o)
    (hd : decodeOrder D.prim D.workerKey o = some d) :
    server.solo e (loadOrder D.worker o.id) s = some (.ok (D.workerKey, o, d), s) := by
  obtain ⟨raw, hraw, hslice⟩ := Option.bind_eq_some_iff.mp hd
  have hopen : decryptOrderBlob D.worker.prim o.encryptedOrderBlob D.workerKey o.id = some raw := hraw
  change server.solo e (exec (.selectOrder o.id) >>= _) s = _
  rw [solo_bind_ok (solo_call h.answer)]
  change server.solo e (orFail (decryptOrderBlob D.worker.prim o.encryptedOrderBlob D.workerKey o.id) _
    >>= _) s = _
  rw [hopen]
  change server.solo e (orFail (OrderData.fromSlice raw) _ >>= _) s = _
  rw [hslice]
  rfl

/-- **Nothing is loaded** where that format does not open the blob. -/
theorem loadOrder_unopened {s : Shared} {e : Choice} {o : Order} (h : Stored s e o)
    (hraw : decryptOrderBlob D.prim o.encryptedOrderBlob D.workerKey o.id = none) :
    server.solo e (loadOrder D.worker o.id) s = some (.error (.worker "decrypt failed"), s) := by
  have hopen : decryptOrderBlob D.worker.prim o.encryptedOrderBlob D.workerKey o.id = none := hraw
  change server.solo e (exec (.selectOrder o.id) >>= _) s = _
  rw [solo_bind_ok (solo_call h.answer)]
  change server.solo e (orFail (decryptOrderBlob D.worker.prim o.encryptedOrderBlob D.workerKey o.id) _
    >>= _) s = _
  rw [hopen]
  rfl

theorem sealOrder_sealable {s : Shared} {e : Choice} {o : Order} {d : OrderData} {blob : Bytes}
    (h : Sealable D e o d blob) :
    server.solo e (sealOrder D.worker D.workerKey o.id d) s = some (.ok blob, s) := by
  have hask : server.answer (.ask (.randomBytes 12)) e s = some (e.ask (.randomBytes 12), s) := by
    simp [server, Query.valid, h.nonce]
  have hseal : encryptOrderBlob D.worker.prim (e.ask (.randomBytes 12)) d.toVec D.workerKey o.id =
      some blob := h.encrypt
  rw [sealOrder, solo_bind_ok (solo_call hask), hseal]
  rfl

/-- How the two writers end. -/
theorem update_stored {s : Shared} {e : Choice} {o : Order} {u : UpdateOrders} (h : Stored s e o)
    (hg : u.GuardedBy o) (err : Failure) :
    ∃ s', server.solo e (do
        let affected ← exec (.updateOrders u)
        let affected ← orFail affected workerDbError
        ensure (affected ≠ 0) err : Program Unit) s = some (.ok (), s') ∧
      s'.orders.find o.id = some (u.set o) := by
  have hmatch : u.matchesRow o = true := (hg.matches_iff o).mpr ⟨rfl, rfl⟩
  have hne : s.orders.rowsAffected u ≠ 0 :=
    OrdersTable.rowsAffected_ne_zero.mpr ⟨o, hg.2.1 ▸ h.find, hmatch⟩
  have hanswer : server.answer (.updateOrders u) e s =
      some (some (s.orders.rowsAffected u), { s with orders := s.orders.update u }) := by
    simp [server, h.noFault]
  refine ⟨{ s with orders := s.orders.update u }, ?_, ?_⟩
  · rw [solo_bind_ok (solo_call hanswer)]
    change server.solo e (ensure (s.orders.rowsAffected u ≠ 0) err) _ = _
    rw [decide_eq_true hne]
    rfl
  · simp [OrdersTable.find_update, h.find, hmatch]

/-- Alone, `x` succeeds and leaves the row `o` with the content `d`. -/
def Writes (D : Deployment) (s : Shared) (e : Choice) (o : Order) (d : OrderData)
    (x : Program Unit) : Prop :=
  ∃ s' o', server.solo e x s = some (.ok (), s') ∧ s'.orders.find o.id = some o' ∧
    decodeOrder D.prim D.workerKey o' = some d

theorem markOrderFunded_writes {s : Shared} {e : Choice} {o : Order} {d : OrderData} {now : Int64}
    {blob : Bytes} (h : Stored s e o) (hd : decodeOrder D.prim D.workerKey o = some d)
    (hstate : d.state = "pending")
    (hseal : Sealable D e o { d with state := "funded", fundedAt := some now } blob) :
    Writes D s e o { d with state := "funded", fundedAt := some now }
      (markOrderFunded D.worker o.id now) := by
  have h' : Stored { s with payments := s.payments ++ [hexEncode o.id] } e o :=
    ⟨h.find, h.version, h.noFault⟩
  have hnotify : server.answer (.notifyPayment (hexEncode o.id)) e s =
      some ((), { s with payments := s.payments ++ [hexEncode o.id] }) := rfl
  obtain ⟨s', hs', hfind⟩ := update_stored h'
    (u := { encryptedOrderBlob := some blob,
            expiryBucket := some (d.expiresAt.map floorTimestamp6h), bumpVersion := true,
            whereId := o.id, whereVersion := some o.version })
    ⟨rfl, rfl, rfl⟩ (.worker "order modified by concurrent writer")
  refine ⟨s', _, ?_, hfind, decode_set ⟨_, hseal.nonce, hseal.encrypt⟩ rfl⟩
  rw [markOrderFunded, solo_bind_ok (loadOrder_stored h hd)]
  simp only [hstate, decide_true]
  change server.solo e (exec (.notifyPayment (hexEncode o.id)) >>= _) s = _
  rw [solo_bind_ok (solo_call hnotify), solo_bind_ok (sealOrder_sealable hseal)]
  exact hs'

theorem markOrderCancelled_writes {s : Shared} {e : Choice} {o : Order} {d : OrderData}
    {blob : Bytes} (h : Stored s e o) (hd : decodeOrder D.prim D.workerKey o = some d)
    (hstate : d.state = "pending") (hseal : Sealable D e o { d with state := "cancelled" } blob) :
    Writes D s e o { d with state := "cancelled" } (markOrderCancelled D.worker o.id) := by
  obtain ⟨s', hs', hfind⟩ := update_stored h
    (u := { encryptedOrderBlob := some blob, bumpVersion := true, whereId := o.id,
            whereVersion := some o.version })
    ⟨rfl, rfl, rfl⟩ (.worker "order modified by concurrent writer")
  refine ⟨s', _, ?_, hfind, decode_set ⟨_, hseal.nonce, hseal.encrypt⟩ rfl⟩
  rw [markOrderCancelled, solo_bind_ok (loadOrder_stored h hd)]
  simp only [hstate, decide_true]
  change server.solo e (sealOrder D.worker D.workerKey o.id _ >>= _) s = _
  rw [solo_bind_ok (sealOrder_sealable hseal)]
  exact hs'

/-! ## Agreement -/

/-- The other places decode the row `o` to `d` as well, and if it is pending, it can be marked. -/
structure DecodedAlike (D : Deployment) (o : Order) (d : OrderData) : Prop where
  /-- `mark_order_funded`, `mark_order_cancelled`, `retry_btc_settlement` -/
  loaded : ∀ s e, Stored s e o →
    server.solo e (loadOrder D.worker o.id) s = some (.ok (D.workerKey, o, d), s)
  /-- `check_time_locks`, `scan_notifications` -/
  decoded : decodeOrder D.prim D.workerKey o = some d
  funded : d.state = "pending" → ∀ s e now blob, Stored s e o →
    Sealable D e o { d with state := "funded", fundedAt := some now } blob →
    Writes D s e o { d with state := "funded", fundedAt := some now }
      (markOrderFunded D.worker o.id now)
  cancelled : d.state = "pending" → ∀ s e blob, Stored s e o →
    Sealable D e o { d with state := "cancelled" } blob →
    Writes D s e o { d with state := "cancelled" } (markOrderCancelled D.worker o.id)

theorem decodedAlike_iff {o : Order} {d : OrderData} :
    DecodedAlike D o d ↔ decodeOrder D.prim D.workerKey o = some d :=
  ⟨DecodedAlike.decoded, fun hd =>
    { loaded := fun _ _ h => loadOrder_stored h hd
      decoded := hd
      funded := fun hstate _ _ _ _ h hseal => markOrderFunded_writes h hd hstate hseal
      cancelled := fun hstate _ _ _ h hseal => markOrderCancelled_writes h hd hstate hseal }⟩

/-- The content that the client's format gives the row. -/
def decodeEcdh (D : Deployment) (o : Order) : Option OrderData :=
  (decryptEcdhBlob D.prim o.encryptedOrderBlob
    (deriveDomainKey D.prim D.workerKey "payment-decrypt")).bind OrderData.fromSlice

/-- **The decoders agree on a row exactly when the client's format adds nothing**: it gives no
content, or the one that the worker's own format gives. -/
theorem decoders_agree_iff (D : Deployment) (o : Order) :
    (∀ d, decodePending D.prim D.workerKey o = some d → DecodedAlike D o d) ↔
      decodeEcdh D o = none ∨ decodeEcdh D o = decodeOrder D.prim D.workerKey o := by
  simp only [decodedAlike_iff]
  cases hecdh : decryptEcdhBlob D.prim o.encryptedOrderBlob
    (deriveDomainKey D.prim D.workerKey "payment-decrypt") with
  | none =>
    -- the poller falls back to the worker's own format
    have hpending : decodePending D.prim D.workerKey o = decodeOrder D.prim D.workerKey o := by
      simp [decodePending, decodeOrder, hecdh]
    simp [decodeEcdh, hecdh, hpending]
  | some raw =>
    have hpending : decodePending D.prim D.workerKey o = OrderData.fromSlice raw := by
      simp [decodePending, hecdh]
    have hclient : decodeEcdh D o = OrderData.fromSlice raw := by simp [decodeEcdh, hecdh]
    rw [hpending, hclient]
    cases OrderData.fromSlice raw with
    | none => simp
    | some d => simp [eq_comm]

/-- **The writers do nothing** to a row that the worker's own format does not open. -/
theorem writers_unopened {s : Shared} {e : Choice} {o : Order} {now : Int64} (h : Stored s e o)
    (hraw : decryptOrderBlob D.prim o.encryptedOrderBlob D.workerKey o.id = none)
    {x : Program Unit} (hx : x ∈ [markOrderFunded D.worker o.id now, markOrderCancelled D.worker o.id,
      retryBtcSettlement D.worker o.id]) :
    server.solo e x s = some (.error (.worker "decrypt failed"), s) := by
  simp only [List.mem_cons, List.not_mem_nil, or_false] at hx
  rcases hx with rfl | rfl | rfl
  · exact solo_bind_error (loadOrder_unopened h hraw)
  · exact solo_bind_error (loadOrder_unopened h hraw)
  · exact solo_bind_error (loadOrder_unopened h hraw)

namespace Sample

/-- An order that is paid, but not marked yet. -/
def paidOrder : OrderData :=
  { fundedOrder with
    state := "pending", escrowAddress := some "bcrt1qescrow", escrowAmount := some "0.001" }

/-- `payment-decrypt` of the worker key. -/
def paymentDecryptSk : Bytes := hex "98901806f055bc0cab032af504bf7780c14a1007db1ecd298d5e767e9eac3785"

def ephemeralPk : Bytes := hex "0faa684ed28867b97f4a6a2dee5df8ce974e76b7018e3f22a1c4cf2678570f20"

def sharedSecret : Bytes := hex "3ed0d6a556009219d58248010ff6ccdd7e43451486f192a83a670bd7b86e5431"

def ecdhKey : Bytes := hex "2e783c54f88140287781d5c7f9063778d07814f954012ea6c669cab775dd7516"

/-- `paidOrder` under `ecdhKey` and the nonce of threes. -/
def paidCiphertext : Bytes :=
  List.flatMap (beBytes 44)
    [ 0x61aba97aaf2c9a18b6d64952c5be43ca24292e72d4da391b9f971324b887309dc8f31987f8a675e14bfbef64,
      0x622b0725fccc8a07ef08e240459619f306a6c1737e8f7d9adeda1363142be95e576ce835191e95d569dd109f,
      0x54772c1f2e7448990ef3aeafcfec82b049fcc584005b95d817cbe1ddecc8c9da4d72f827a932fdf01c7c9d49,
      0xa67ae4008768f27c399a76d13161351cea82c1f128f144761d5333460fc19e6278537f89e5d92b9f40179fc7,
      0x2d025bd35729a0f446f09d694a68004843a26dbdde7c4625ecaf25840997d74af51e54e1dd72c23423084404,
      0xeda2409dd399277a5c647635d0914820c441fac5be749359811e56bca765694e813ee26f7d27153543beaf5c,
      0x6a24ab233b0516443145801542b7561063bb576f68b2051a831011533514f681f778a10ee3af86c7f58fbb13,
      0xa21dd2837ecf6398c72aef0d287d9902d0615967bf8aa33817840f5c39004e53769314cd38937f907f18006e,
      0x9efa36d3fb3c37bfc57c571163fd610c1325b3929194950fb2e169fad2097ef99fdae652f5741b673d1d3628,
      0x52ef1111fdeae38b1cb70865a178f6bb8e94d683233172bfb1bc398246381e45e46881ed757d18ad429d1925,
      0x9404107d2f870b530455ff9d51343c4ece1194a410994d0da15c55f25f5d01fa9e66921acf7fb0d49c62bea8 ] ++
  beBytes 31 0x03ab281f01fc8c71c9a637af7561bb843f91e08f16543d0c6717ba1cb372ee

/-- The row of `paidOrder`, as its client has encrypted it. -/
def clientOrders : OrdersTable := orders (ephemeralPk ++ sealed 3 paidCiphertext)

def ecdhTables : Primitives.Tables where
  hmacSha256 :=
    [((List.replicate 32 7, utf8 "oblivious-order-v1" ++ hex orderId), orderKey),
      ((List.replicate 32 7, utf8 "domain:payment-decrypt"), paymentDecryptSk)]
  x25519 := [((paymentDecryptSk, ephemeralPk), sharedSecret)]
  hkdfSha256 := [((sharedSecret, utf8 "tor-marketplace-order-key-v1"), ecdhKey)]
  chacha := [((ecdhKey, List.replicate 12 3, paidCiphertext), paidOrder.toVec)]

def paidStatus : PaymentStatus where
  received := true
  amount := 100000
  confirmations := 6
  txHash := none
  address := some "bcrt1qescrow"
  forkDetected := false

/-- A pass of the poller whose nodes answer that every payment is there. -/
def paidPass : List (Label Job Choice) :=
  .spawn .checkPendingPayments :: List.replicate 7 (.act 0
    { time
      ask := fun
        | .checkForFork _ => some false
        | .checkPayment .. => some paidStatus
        | q => q.noAnswer })

/-- The node has answered that the payment is there. -/
def verified : Reply Server → Bool
  | ⟨.ask (.checkPayment _ _ _ required), some status⟩ =>
    status.received && status.confirmations ≥ required && !status.forkDetected
  | _ => false

def unmarkedTrace : (deployment ecdhTables none).Trace anyJob clientOrders
    fun g => g.shared.orders.rows = clientOrders.rows && match g.procs with
      | [p] => p.job = .checkPendingPayments && p.prog.result.any Except.isOk && p.past.any verified
      | _ => false where
  labels := paidPass
  allowed _ _ _ := trivial
  passes := by decide +kernel

end Sample

open Sample in
/-- The poller verifies a payment, succeeds, and has marked nothing: it is the only one that can read
the order. -/
theorem verified_payment_unmarked :
    ∃ g p o, (deployment ecdhTables none).Reaches anyJob clientOrders g ∧
      g.procs = [p] ∧ p.job = .checkPendingPayments ∧ p.prog.result.any Except.isOk = true ∧
      p.past.any verified = true ∧ g.shared.orders.rows = [o] ∧ clientOrders.rows = [o] ∧
      decodePending (deployment ecdhTables none).prim (List.replicate 32 7) o = some paidOrder ∧
      decodeOrder (deployment ecdhTables none).prim (List.replicate 32 7) o = none ∧
      ¬ DecodedAlike (deployment ecdhTables none) o paidOrder := by
  obtain ⟨g, hg, hcheck⟩ := unmarkedTrace.reaches
  obtain ⟨hrows, hcheck⟩ := Bool.and_eq_true_iff.mp hcheck
  split at hcheck
  case h_2 => exact absurd hcheck (by simp)
  case h_1 p hprocs =>
    simp only [Bool.and_eq_true, decide_eq_true_eq] at hcheck hrows
    have hnone : decodeOrder (deployment ecdhTables none).prim (List.replicate 32 7)
        (clientOrders.rows.head (by decide)) = none := by decide +kernel
    refine ⟨g, p, clientOrders.rows.head (by decide), hg, hprocs, hcheck.1.1, hcheck.1.2, hcheck.2,
      hrows, rfl, by decide +kernel, hnone, fun halike => ?_⟩
    exact absurd (hnone.symm.trans halike.decoded) (by simp)

end TorMarketplace
