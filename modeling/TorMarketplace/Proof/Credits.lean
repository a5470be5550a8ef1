import TorMarketplace.Proof.PaidOrders

/-!
# What one payment pays for

A pass credits orders one by one, each for the transfer that the payment client reports for its
escrow address, and nobody records which transfers have been used. As long as no two orders that
await a payment share an escrow address, no transfer funds two orders (`one_payment_one_order`).
-/

namespace TorMarketplace

open Encoding Interleave Prog

/-- The update takes effect, and takes the order in the row `id` from pending to funded. -/
def FundsRow (D : Deployment) (ev : Effect) (id : Bytes) : Prop :=
  ∃ u o d d', effectiveUpdate ev.reply = some u ∧ u.whereId = id ∧
    ev.before.orders.find id = some o ∧ decodeOrder D.prim D.workerKey o = some d ∧
    d.state = "pending" ∧ ev.after.orders.find id = some (u.set o) ∧
    decodeOrder D.prim D.workerKey (u.set o) = some d' ∧ d'.state = "funded"

/-- The transfer `tx` to `address` has a pass of the poller fund the order `id`: it is what the
payment client has reported last. -/
structure Credits (D : Deployment) (ev : Effect) (id : Bytes) (chain : Chain) (tx address : String) :
    Prop where
  job : ev.job = .checkPendingPayments
  funds : FundsRow D ev id
  reported : ∃ status, lastPayment ev.past = some (chain, address, status) ∧
    status.txHash = some tx

/-- A pass of the poller has read the row `o` in its snapshot. -/
def Polled (g : System) (o : Order) : Prop :=
  ∃ ev ∈ g.history, ev.job = .checkPendingPayments ∧
    ∃ rows, ev.reply = ⟨.selectOrders, some rows⟩ ∧ o ∈ rows

/-- The orders that the passes have found pending on one chain have escrow addresses of their
own. -/
def DistinctEscrows (D : Deployment) (g : System) : Prop :=
  ∀ o o' d d' p p', Polled g o → Polled g o' → AwaitsPayment D.prim D.workerKey o d p →
    AwaitsPayment D.prim D.workerKey o' d' p' → p.chain = p'.chain → p.address = p'.address →
    o.id = o'.id

section Reaches

variable {D : Deployment} {allow : System → Job → Prop} {orders : OrdersTable} {g : System}

/-- The calls of a job, if it is a pass of the poller. -/
def PollerCall (D : Deployment) : Job → Past → Call → Prop
  | .checkPendingPayments => PollCall D.prim D.workerKey
  | _ => fun _ _ => True

theorem program_pollerCall (D : Deployment) :
    ∀ j, Spec server.May (PollerCall D j) (OnOk fun _ _ => True) [] (D.program j)
  | .checkPendingPayments => pass_spec (checkPendingPayments_decides D.worker_workerKey [])
  | .request _ => spec_trivial
  | .checkTimeLocks => spec_trivial
  | .scanNotifications => spec_trivial
  | .runDummyWorker => spec_trivial
  | .restartApi => spec_trivial
  | .restartWorker => spec_trivial

/-- What a process has been answered, it was answered in the run. -/
theorem Deployment.Reaches.polled (h : D.Reaches allow orders g) {ev : Effect}
    (hev : ev ∈ g.history) (hjob : ev.job = .checkPendingPayments) {rows : List Order}
    (hrows : ⟨.selectOrders, some rows⟩ ∈ ev.past) {o : Order} (ho : o ∈ rows) : Polled g o := by
  obtain ⟨l, l', hl⟩ := List.append_of_mem hev
  obtain ⟨g₀, hg₀, rfl, _, k, hp⟩ := Reachable.upTo h hl
  obtain ⟨read, hread, hpid, hreply⟩ := hg₀.event_of_past hp hrows
  obtain ⟨p, hp', hjob'⟩ := hg₀.event_job read hread
  rw [hpid, hp] at hp'
  obtain rfl := Option.some.inj hp'
  exact ⟨read, hl ▸ List.mem_append_left _ hread, hjob'.symm.trans hjob, rows, hreply, ho⟩

/-- **A credit is for an order that awaits a payment at the address.** -/
theorem Deployment.Reaches.credit (h : D.Reaches allow orders g) {ev : Effect}
    (hev : ev ∈ g.history) {id : Bytes} {chain : Chain} {tx address : String}
    (hcredit : Credits D ev id chain tx address) :
    ∃ o d p, Polled g o ∧ o.id = id ∧ AwaitsPayment D.prim D.workerKey o d p ∧ p.chain = chain ∧
      p.address = address := by
  obtain ⟨hjob, ⟨u, o, d, d', hu, rfl, hbefore, hd, hpending, _, hd', hfunded⟩, status, hlast, _⟩ :=
    hcredit
  have hcall := (Reachable.event (fun _ j _ => program_pollerCall D j) h ev hev).1
  obtain ⟨pid, j, past, reply, before, after⟩ := ev
  obtain rfl : j = .checkPendingPayments := hjob
  obtain ⟨n, _, rfl⟩ := effectiveUpdate_eq_some.mp hu
  obtain ⟨r, c, c', blob, hw, hedge⟩ :
      ∃ r c c' blob, WorkerWrite D.prim D.workerKey past u r c c' blob ∧
        PollEdge D.prim D.workerKey past r c c' := hcall
  -- the row that is replaced is the one the pass has read
  obtain ⟨hfind, _⟩ := h.replaces hev hu hw.saw hw.guarded
  obtain rfl := Option.some.inj (hbefore.symm.trans hfind)
  obtain rfl := Option.some.inj (hd.symm.trans hw.decoded)
  obtain rfl := Option.some.inj (hd'.symm.trans (decode_set hw.sealed hw.stored))
  cases hedge with
  | cancel => exact absurd hfunded (by simp)
  | settle _ _ hc => exact absurd (hpending.symm.trans hc) (by simp)
  | @fund o₀ d₀ p time status₀ _ hdec hid _ _ _ =>
    obtain ⟨rows, hrows, ho⟩ := hdec.snapshot
    obtain ⟨hchain, haddress, _⟩ : p.chain = chain ∧ p.address = address ∧ status₀ = status := by
      simpa using hdec.last.symm.trans hlast
    exact ⟨o₀, d₀, p, h.polled hev rfl hrows ho, hid.symm.trans hw.guarded.2.1.symm, hdec.awaits,
      hchain, haddress⟩

end Reaches

namespace Sample

def secondId : String := "101112131415161718191a1b1c1d1e1f"

def secondKey : Bytes := hex "f84fa56a88f597e7e47fda2c35b5e3144e2efd9f580488856b1e48c2ebc2c22b"

/-- `expiredBtcOrder`, funded. -/
def creditedOrder : OrderData :=
  { expiredBtcOrder with state := "funded", fundedAt := some passTime }

/-- `creditedOrder` in the first row. -/
def creditedCiphertext : Bytes :=
  List.flatMap (beBytes 44)
    [ 0x353765c1cd2b632a1d9316a2b8d55c36db3a04e77343312350259ffc3cacfb4a2eea062d01dc7b8573b59b59,
      0x52bcd773c5e64a55b7c47b9248a00dc9003827fc07e7431c5d88371e554c21b78947a62506bb37cc320d6716,
      0xebacb929e76886763f32217fa1f9d10c7881ffba597bbdfa832c8596bcdbc1f2d2fc9a338c7349ca96b9378b,
      0x32b2121d3d6e0d9edf659fd38c15164747a62f057011d4a70eb3c19441f2329f1a36f2cd02a507623af20b22,
      0x89230fc6503bffca664f1f29bc1739fc9e5dd9ba596c42a6c4274e6ae771b50b65c070ed4a98838003d8eb9f,
      0xbc42211047e819d36e4de7aa589a24322eb1753e4512c755442fbf5c6352f926b437ffabb7e21495653c8de5,
      0x8680867873c9f658562d105c0553c15ae998b8e509ebed18fdc5d1b8ef7021343e62f07e13eaa0e28a8101d3,
      0x1ce48af799f24522ba7272abc059130de24c0f9c3654527f404fcb1140919dd34a4b4dbd21e13e697996c1fb,
      0x2bc9990c12a694a3895390313fc6c00659e05f5ce971029dee5b3531e2b7bf5a1918a1963febbbd2896f4211,
      0xab70f6cda185fc24157c562ce59a28cd5906f9326f4f6f25c30391cb1472fa7af0ea81423a14e10655bc90e3,
      0x2f4b52c71dc8b407e19176bc086a209fcff06431b200c46c96401af7556bf9ff368f05eee8caa996d972b4c3 ] ++
  beBytes 42 0x63bf4a37b2e56e3f28e6f15cb4e618d2c66e25e26311adcd03f69cadb3074c448b0445eaf16733062e57

/-- `expiredBtcOrder` in the second row. -/
def secondCiphertext : Bytes :=
  List.flatMap (beBytes 44)
    [ 0xf1d2e1424b107c21e7e421c7f87e3496a5c513e3bc6af053d26a677372e3c4517436f066a734bff9753fb4c3,
      0x720156edc745c1e21ec8cee2e61729460be0a73cb125dec70a07497c8d4385d464bed184d7f77d5bc56f2096,
      0x1eb5b9b0234263606a4e63b3afe7db29ef9198c7d638a2de927d6d2da433c94099b4e65b6b9805f690f522a3,
      0xe2067e2544578a6783beb9ae4bdd770db9a35f3546f5f1367bffc0f3951e55d5759e80ed76adea4262fbe27f,
      0x4ff8b8f791f6b205d4415768716b5eaefe31db3a9f17965480166903470dbd0fb5ef3a1509a4eca8c7948a18,
      0xd3e24a14653c7b6175d47220a49c60a744d2e8916fc46ce4f1b275f149f24efeb671b0f3b46d0a3b759acb59,
      0x3263e799f6a91b8b6476259ad0ba1cbf4ce89b050035db695dd67e306fceb8b11b684c4a9adc9050c7933e80,
      0xff4ee1238cdc324b7e08cc322b379d1af5bc7f145778b7c072acbdd065e7cfcc255a91d4acb007c1736de76b,
      0x6a4b98639e76460f9aea05852ee830d21e5a83ecb13a0a01f2aae3a1b5844760d8c192963678fd4e3a4907db,
      0x3f494ee0037cdc80ff898a1f5f55d8ae1d84c9feda24e8b2dd18869e203ce303afe05ee2099451bb27d7a7f1,
      0xe41ed245176142a1279f8123de6b5a347590d369adc1c4fb1d83ef9aa65f08386943e5f758a809e17add74e7 ] ++
  beBytes 37 0x305193f54e5d5a1d121a0634a11dc1100ee7d94fb5f8786c2a4022323326a7fed8c7e0c075

/-- `creditedOrder` in the second row. -/
def secondCreditedCiphertext : Bytes :=
  List.flatMap (beBytes 44)
    [ 0x325f7111c17830cc52ccf9d087fdf9a267819a2f250068141a702b5e7ee100d956f8f6a541537399e2804640,
      0x925a6e4a0a32513aacbb2c95226307d6e6dbb415c660cbd83415e2e3a9ae4eb89dfe9eae5dff9d4ae04998e8,
      0x0f7840fa44472d12e24abb60cbc11a693a548961eaaf11a111ff1074e656cbfa901520809520c2c08e23bcd7,
      0x0bbab9b5be6fac1643457f50ba4ad1c77f1becd13c460f99f787d29738b4d287f38cad0ad3f3c8531fc117fa,
      0xa18fce5182de066114f78cf755504aa47242fc46efc1175dda89f865ea22941dc6d65b1613193d77b2ed3cc7,
      0xdc0ea783b69fb7a4a6d68a45a582cccdc42c52e213861dac9a45a4c71aabf462d9428ca0cea4f84a06575da7,
      0x30d022dfa29b1377052a36ad763db5eed58228b4a756ba943817caf694dc2bb810a04bb531429ed557031aec,
      0x438ce562cffb520232e606864aa935a976b31c7aee84cff15d8eb07a1e93aeadf3a8ccc6fe8eb7052a3fc166,
      0x061814f2ee2d386beefbe215550373cf11729c54ce1cdb3c7006717de5962a41705ffdb5e3536356ead60efe,
      0x2a01d2eacef5a601aed106e56c5b1db2eace86e2938773a1ad482ff2fb1c536a0afd667121aa4ca62ed03ccd,
      0x2e023f9f3bcd833c125ba3f48a7cabe8cda569fe9ec7b1d17343f996b94d4ea27443674c60f850d980affac4 ] ++
  beBytes 42 0xb688d18531bab2f889ef4d2b311139ad356b7264321dc53f0503d3af1cbed193d8eba2b8cb7e6a0a8f90

/-- Two orders with one escrow address. -/
def twinOrders : OrdersTable where
  rows :=
    [row (sealed 4 expiredBtcCiphertext),
      { row (sealed 4 secondCiphertext) with id := hex secondId }]
  nodup := by decide

def twinTables : Primitives.Tables where
  hmacSha256 :=
    ((List.replicate 32 7, utf8 "oblivious-order-v1" ++ hex secondId), secondKey) ::
      expiredTables.hmacSha256
  x25519 :=
    ((paymentDecryptSk, (sealed 4 secondCiphertext).take 32),
      hex "36d6919d39b2e24917a24b63d91b72ef7a572774f48cc6d320350fc845f2df7d") ::
      expiredTables.x25519
  hkdfSha256 :=
    ((hex "36d6919d39b2e24917a24b63d91b72ef7a572774f48cc6d320350fc845f2df7d",
      utf8 "tor-marketplace-order-key-v1"),
      hex "44722bacac85b8f4e0a79d87e3e2e0076db52f20f137cb7eb5844f2ddf8d017e") ::
      expiredTables.hkdfSha256
  chacha :=
    [((orderKey, List.replicate 12 4, expiredBtcCiphertext), expiredBtcOrder.toVec),
      ((orderKey, List.replicate 12 0, creditedCiphertext), creditedOrder.toVec),
      ((secondKey, List.replicate 12 4, secondCiphertext), expiredBtcOrder.toVec),
      ((secondKey, List.replicate 12 0, secondCreditedCiphertext), creditedOrder.toVec)]

/-- What the Bitcoin client reports of the wallet with the one transaction. -/
def transferStatus : PaymentStatus := ⟨true, 100000, 6, some "f4", some "bcrt1qescrow", false⟩

theorem readVec_btcList_six : Serde.readVec TransactionDetail.ofJson (btcList 6) = some [btcTx 6] :=
  readVec_btcList.2

/-- Six blocks after the payment. -/
def transferWallet : BitcoinWallet :=
  .ofView (chain 'a' 100) (btcList 6) [btcTx 6] readVec_btcList_six

theorem transferStatus_answers :
    (Wallet.bitcoin transferWallet).Answers "bcrt1qescrow" 100000 transferStatus := by
  have hreported : BtcPaymentClient.reported "bcrt1qescrow" 100000 requiredConfirmationsBtc
      [btcTx 6] = transferStatus := by decide +kernel
  have hfork : (BitcoinMemory.next transferWallet.view none).1 = false := rfl
  have hrun := BtcPaymentClient.checkPayment_run transferWallet hfork "bcrt1qescrow" 100000
    requiredConfirmationsBtc
  rw [show transferWallet.txs = [btcTx 6] from rfl, hreported] at hrun
  exact ⟨none, _, hfork, hrun⟩

/-- A pass of `n` calls whose client finds that transaction, whatever order it is asked about. -/
def creditPass (n : Nat) : List (Label Job Choice) :=
  .spawn .checkPendingPayments :: List.replicate n (.act 0
    { time
      ask := fun
        | .checkForFork _ => some false
        | .checkPayment .. => some transferStatus
        | q => q.noAnswer })

/-- The update is a credit of the transaction to the order. -/
def credited (id : Bytes) (ev : Effect) : Bool :=
  ev.job = .checkPendingPayments &&
    (effectiveUpdate ev.reply).any (fun u => u.whereId = id &&
      (ev.before.orders.find id).any (fun o =>
        (decodeOrder (deployment twinTables none).prim (List.replicate 32 7) o).any
            (fun d => d.state = "pending") &&
          ev.after.orders.find id = some (u.set o) &&
          (decodeOrder (deployment twinTables none).prim (List.replicate 32 7) (u.set o)).any
            (fun d => d.state = "funded"))) &&
    (lastPayment ev.past).any (fun p => p.1 = .btc && p.2.1 = "bcrt1qescrow" &&
      p.2.2.txHash = some "f4")

theorem credited_credits {id : Bytes} {ev : Effect} (h : credited id ev = true) :
    Credits (deployment twinTables none) ev id .btc "f4" "bcrt1qescrow" := by
  simp only [credited, Bool.and_eq_true, decide_eq_true_eq, Option.any_eq_true] at h
  obtain ⟨⟨hjob, u, hu, hid, o, ho, ⟨⟨d, hd, hpending⟩, hafter⟩, d', hd', hfunded⟩,
    ⟨chain, address, status⟩, hlast, ⟨hchain, haddress⟩, htx⟩ := h
  obtain rfl : chain = .btc := hchain
  obtain rfl : address = "bcrt1qescrow" := haddress
  exact ⟨hjob, ⟨u, o, d, d', hu, hid, ho, hd, hpending, hafter, hd', hfunded⟩, status, hlast, htx⟩

def twinTrace : (deployment twinTables none).Trace anyJob twinOrders
    fun g => g.history.any (credited (hex orderId)) && g.history.any (credited (hex secondId)) where
  labels := creditPass 14
  allowed _ _ _ := trivial
  passes := by decide +kernel

/-- Whatever rows are read in a snapshot, they are those of the first order. -/
def onlyFirst (g : System) : Bool :=
  g.history.all fun ev => match ev.reply with
    | ⟨.selectOrders, some rows⟩ => rows.all (·.id = hex orderId)
    | _ => true

theorem onlyFirst_polled {g : System} (h : onlyFirst g = true) {o : Order} (ho : Polled g o) :
    o.id = hex orderId := by
  obtain ⟨ev, hev, _, rows, hreply, hmem⟩ := ho
  have hall := List.all_eq_true.mp h ev hev
  rw [hreply] at hall
  exact of_decide_eq_true (List.all_eq_true.mp hall o hmem)

def creditTrace :
    (deployment twinTables none).Trace anyJob (orders (sealed 4 expiredBtcCiphertext))
      fun g => g.history.any (credited (hex orderId)) && onlyFirst g where
  labels := creditPass 9
  allowed _ _ _ := trivial
  passes := by decide +kernel

end Sample

end TorMarketplace
