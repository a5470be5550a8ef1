import TorMarketplace.Proof.Decoders
import TorMarketplace.Proof.Polling

/-!
# Orders that are paid, but not confirmed

An order past its expiry is cancelled unless the payment client reports a payment. The Monero client
does so from the first confirmation on, but for no amount below its dust limit; the Bitcoin client
does so only once the payment has all its confirmations. So a paid order is kept if and only if it
is not past its expiry, or the client counts something in the wallet (`paid_order_kept_iff`).
-/

namespace TorMarketplace

open Encoding Interleave Json Prog Serde

/-- What a payment client talks to. -/
inductive Wallet where
  | monero (w : MoneroWallet)
  | bitcoin (w : BitcoinWallet)

namespace Wallet

def chain : Wallet → Chain
  | monero _ => .xmr
  | bitcoin _ => .btc

/-- The client answers `status`, in some state in which its own check finds no fork. -/
def Answers (address : String) (expected : UInt64) (status : PaymentStatus) : Wallet → Prop
  | monero w => ∃ s s', (MoneroMemory.next w.view s).1 = false ∧
      (MoneroViewOnlyClient.checkPaymentWithConfirmations address expected
        requiredConfirmationsXmr).run w.node s = some (.ok status, s')
  | bitcoin w => ∃ s s', (BitcoinMemory.next w.view s).1 = false ∧
      (BtcPaymentClient.checkPaymentWithConfirmations address expected
        requiredConfirmationsBtc).run w.node s = some (.ok status, s')

/-- The wallet lists a transfer to the address of at least the amount, with a confirmation. -/
def Pays (address : String) (expected : UInt64) : Wallet → Prop
  | monero w => ∃ tx ∈ MoneroViewOnlyClient.transactions (w.result address),
      Serde.readString (Serde.index tx "type") = some "in" ∧
      (∃ amount ∈ Serde.readU64 (Serde.index tx "amount"), expected ≤ amount) ∧
      ∃ height ∈ Serde.readU64 (Serde.index tx "height"), 1 ≤ height ∧ height < w.view.tip
  | bitcoin w => ∃ tx ∈ w.txs, tx.address = some address ∧
      expected ≤ BtcPaymentClient.toSats tx.amount ∧ 1 ≤ tx.confirmations

/-- The client counts something in the wallet. -/
def Counts (address : String) (expected : UInt64) : Wallet → Prop
  | monero w => ∃ tx ∈ MoneroViewOnlyClient.transactions (w.result address),
      MoneroViewOnlyClient.Counts expected tx
  | bitcoin w => ∃ tx ∈ w.txs,
      BtcPaymentClient.Counts address expected requiredConfirmationsBtc tx

/-- **What counts is what is reported.** -/
theorem Answers.status {w : Wallet} {address : String} {expected : UInt64} {status : PaymentStatus}
    (h : w.Answers address expected status) (hpos : 0 < expected) :
    (status.received = true ↔ w.Counts address expected) := by
  cases w with
  | monero w =>
    obtain ⟨s, s', hfork, hrun⟩ := h
    rw [MoneroViewOnlyClient.checkPayment_run w hfork] at hrun
    obtain ⟨rfl, _⟩ := by simpa using hrun
    exact MoneroViewOnlyClient.reported_received hpos _
  | bitcoin w =>
    obtain ⟨s, s', hfork, hrun⟩ := h
    rw [BtcPaymentClient.checkPayment_run w hfork] at hrun
    obtain ⟨rfl, _⟩ := by simpa using hrun
    exact BtcPaymentClient.reported_received hpos _

/-- A client that has just started answers. -/
theorem exists_answers (w : Wallet) (address : String) (expected : UInt64) :
    ∃ status, w.Answers address expected status ∧ status.forkDetected = false := by
  cases w with
  | monero w =>
    have hfork : (MoneroMemory.next w.view .initial).1 = false := by
      rw [MoneroMemory.next, if_neg fun h => h.1 rfl, MoneroMemory.advance, if_neg fun h => h.1 rfl]
    refine ⟨_, ⟨.initial, _, hfork, MoneroViewOnlyClient.checkPayment_run w hfork _ _ _⟩, ?_⟩
    unfold MoneroViewOnlyClient.reported
    split <;> rfl
  | bitcoin w =>
    have hfork : (BitcoinMemory.next w.view none).1 = false := rfl
    refine ⟨_, ⟨none, _, hfork, BtcPaymentClient.checkPayment_run w hfork _ _ _⟩, ?_⟩
    unfold BtcPaymentClient.reported
    split <;> rfl

end Wallet

/-- A pass of the poller that finds a pending order paid: the row, the clock and the wallet. -/
structure PaidPoll (D : Deployment) where
  order : Order
  version : IsI64 order.version
  data : OrderData
  payment : Payment
  awaits : AwaitsPayment D.prim D.workerKey order data payment
  time : Int64
  wallet : Wallet
  chain : wallet.chain = payment.chain
  paid : wallet.Pays payment.address payment.expected

/-- The call stores a cancelled order in the row `id`. -/
def StoresCancelled (D : Deployment) (id : Bytes) : Call → Prop
  | .updateOrders u => u.whereId = id ∧ ∃ b d, u.encryptedOrderBlob = some b ∧
      (decryptOrderBlob D.prim b D.workerKey id).bind OrderData.fromSlice = some d ∧
      d.state = "cancelled"
  | _ => False

/-- Some pending order can be in the row `id`, and be sealed for it as a cancelled one. -/
def Cancellable (D : Deployment) (id : Bytes) : Prop :=
  ∃ (o : Order) (d : OrderData) (nonce blob : Bytes), o.id = id ∧ IsI64 o.version ∧
    decodeOrder D.prim D.workerKey o = some d ∧ d.state = "pending" ∧ nonce.length = 12 ∧
    encryptOrderBlob D.prim nonce { d with state := "cancelled" }.toVec D.workerKey id = some blob

namespace PaidPoll

variable {D : Deployment} (poll : PaidPoll D)

/-- The answers that the pass gets: the clock, a snapshot with the row, no fork, and about the
payment what the client says of the wallet. Any of them may fail, and all others are free. -/
def Sees : (c : Call) → c.Ans → Prop
  | .now, time => time = poll.time
  | .selectOrders, rows => ∀ l, rows = some l → poll.order ∈ l
  | .ask (.checkForFork chain), fork => chain = poll.payment.chain → fork ≠ some true
  | .ask (.checkPayment chain address expected _), answer => ∀ status, answer = some status →
      chain = poll.payment.chain → address = poll.payment.address →
      expected = poll.payment.expected → poll.wallet.Answers address expected status
  | _, _ => True

def May (c : Call) (a : c.Ans) : Prop := server.May c a ∧ poll.Sees c a

/-- **The order is not cancelled**, whatever the pass is answered. -/
def NeverCancelled : Prop :=
  Spec poll.May (fun _ c => ¬ StoresCancelled D poll.order.id c) (fun _ _ => True) []
    (checkPendingPayments D.worker)

/-- The pass does not take the order for expired. -/
def InTime : Prop :=
  floorTimestamp6h poll.time ≤ poll.data.expiresAt.getD (floorTimestamp6h poll.time + 86400)

instance : Decidable poll.InTime := by
  unfold InTime
  infer_instance

theorem positive : 0 < poll.payment.expected := UInt64.pos_iff_ne_zero.mpr poll.awaits.positive

variable {poll}

/-- What is decided about the order. -/
theorem decision {past : Past} {o : Order} {d : OrderData} {p : Payment} {time : Int64}
    {status : PaymentStatus} (h : Decision D.prim D.workerKey past o d p time status)
    (hpast : ∀ r ∈ past, poll.May r.1 r.2) (hid : o.id = poll.order.id) :
    d = poll.data ∧ time = poll.time ∧
      (status.received = true ↔ poll.wallet.Counts poll.payment.address poll.payment.expected) := by
  obtain ⟨rows, hrows, ho⟩ := h.snapshot
  -- the snapshot has one row of each id
  have heq : o = poll.order := by
    obtain ⟨⟨e, s, s', ha⟩, hsees⟩ := hpast _ hrows
    obtain ⟨_, rfl, _⟩ := answer_selectOrders ha
    have hfind := OrdersTable.find_of_mem ho
    rw [hid, OrdersTable.find_of_mem (hsees _ rfl)] at hfind
    exact (Option.some.inj hfind).symm
  subst heq
  obtain ⟨rfl, rfl⟩ := h.awaits.unique poll.awaits
  have hclock : time = poll.time := (hpast _ h.clock).2
  have hanswer : poll.wallet.Answers poll.payment.address poll.payment.expected status :=
    (hpast _ h.answer).2 status rfl rfl rfl rfl
  exact ⟨rfl, hclock, hanswer.status poll.positive⟩

/-- **An order that is in time, or whose payment counts, is kept.** -/
theorem kept (h : poll.InTime ∨ poll.wallet.Counts poll.payment.address poll.payment.expected ∨
    ¬ Cancellable D poll.order.id) : poll.NeverCancelled := by
  have hmay : ∀ c a, poll.May c a → server.May c a := fun _ _ h => h.1
  have hspec := spec_answered (spec_may hmay (checkPendingPayments_decides D.worker_workerKey []))
    (fun r hr => absurd hr List.not_mem_nil)
  refine spec_mono (fun past c hc hstores => ?_) (fun _ _ _ => trivial) hspec
  obtain ⟨hcall, hpast⟩ := hc
  cases c
  case updateOrders u =>
    obtain ⟨o, d, d', blob, hw, hedge⟩ := hcall
    obtain ⟨hid, b, d₁, hb, hd₁, hcancelled⟩ := hstores
    rw [hw.guarded.2.1] at hid
    -- what is stored is what was sealed
    obtain rfl := Option.some.inj (hb.symm.trans hw.stored)
    obtain ⟨nonce, hnonce, hseal⟩ := hw.sealed
    rw [← hid, show D.prim = D.worker.prim from rfl, decrypt_encryptOrderBlob hnonce hseal,
      Option.bind_some, OrderData.fromSlice_toVec] at hd₁
    obtain rfl := Option.some.inj hd₁
    cases hedge with
    | fund => exact absurd hcancelled (by simp)
    | settle _ _ hc => exact absurd (hc.symm.trans hcancelled) (by simp)
    | cancel _ hdec hsame hreceived hexpired hpending =>
      obtain ⟨rfl, rfl, hiff⟩ := decision hdec hpast (hsame.symm.trans hid)
      rcases h with hintime | hcounts | hcan
      · exact Int64.not_le.mpr hexpired hintime
      · rw [hiff.mpr hcounts] at hreceived
        exact absurd hreceived (by simp)
      · obtain ⟨r, hr, hreads⟩ := hw.saw
        obtain ⟨e, s, s', ha⟩ := (hpast r hr).1
        exact hcan ⟨o, d, nonce, _, hid, (answer_reads ha hreads).2.2, hw.decoded, hpending, hnonce,
          hid ▸ hseal⟩
  all_goals exact hstores.elim

/-! ### The cancellation -/

theorem may_ask {q : Query} {a : q.Ans} (h : q.valid a = true) : server.May (.ask q) a := by
  let e : Choice := { ask := fun q' => if hq : q' = q then hq ▸ a else q'.noAnswer }
  have he : e.ask q = a := by simp [e]
  refine ⟨e, Shared.initial .empty, Shared.initial .empty, ?_⟩
  simp only [server]
  rw [he, if_pos h]

/-- The shared state with the one row `o`. -/
def withRow (o : Order) : Shared := Shared.initial ⟨[o], List.nodup_singleton _⟩

theorem may_row {o : Order} (h : IsI64 o.version) :
    server.May (.selectOrder o.id) (some (some o)) ∧ server.May .selectOrders (some [o]) := by
  have hread : readRow o = some o := readRow_eq_some.mpr ⟨h, rfl⟩
  refine ⟨⟨{}, withRow o, withRow o, ?_⟩, {}, withRow o, withRow o, ?_⟩
  · simp [server, withRow, Shared.initial, OrdersTable.find, hread]
  · simp [server, withRow, Shared.initial, hread]

theorem may_now (time : Int64) : server.May .now time := by
  let s : Shared := { Shared.initial .empty with clock := time }
  refine ⟨{ time }, s, s, ?_⟩
  simp [server, s]

/-- The writer stores the cancelled order. -/
theorem not_kept_writer (hcan : Cancellable D poll.order.id) (past : Past) :
    ¬ Spec poll.May (fun _ c => ¬ StoresCancelled D poll.order.id c) (fun _ _ => True) past
      (markOrderCancelled D.worker poll.order.id) := by
  obtain ⟨o, d, nonce, blob, hid, hversion, hd, hpending, hnonce, hseal⟩ := hcan
  obtain ⟨raw, hraw, hslice⟩ := Option.bind_eq_some_iff.mp hd
  intro h
  simp only [markOrderCancelled, loadOrder, sealOrder, bind_bind, spec_orFail_bind,
    spec_call_bind, spec_pure_bind, spec_ensure_bind] at h
  have h₁ := (h.2 D.workerKey rfl).2 (some (some o)) ⟨hid ▸ (may_row hversion).1, trivial⟩
  have h₂ := (((h₁.2 (some o) rfl).2 o rfl).2 raw hraw).2 d hslice
  have h₃ := (h₂.2 (decide_eq_true hpending)).2 nonce ⟨may_ask (decide_eq_true hnonce), trivial⟩
  refine ((h₃.2 blob hseal).1) ⟨rfl, blob, { d with state := "cancelled" }, rfl, ?_, rfl⟩
  rw [decrypt_encryptOrderBlob hnonce hseal, Option.bind_some, OrderData.fromSlice_toVec]

/-- The check of the order comes to its cancellation. -/
theorem not_kept_check (hcan : Cancellable D poll.order.id) (hexpired : ¬ poll.InTime)
    (hcounts : ¬ poll.wallet.Counts poll.payment.address poll.payment.expected) (past : Past) :
    ¬ Spec poll.May (fun _ c => ¬ StoresCancelled D poll.order.id c) (fun _ _ => True) past
      (checkPayment poll.payment.chain poll.payment.chain.parseAmount
        poll.payment.chain.requiredConfirmations D.worker (floorTimestamp6h poll.time) poll.order.id
        poll.data) := by
  obtain ⟨status, hanswers, hfork⟩ :=
    poll.wallet.exists_answers poll.payment.address poll.payment.expected
  have hreceived : status.received = false :=
    Bool.eq_false_iff.mpr fun h => hcounts ((hanswers.status poll.positive).mp h)
  intro h
  simp only [checkPayment, poll.awaits.escrowAddress, spec_orFail_bind] at h
  have h₁ := h.2 poll.payment.expected poll.awaits.escrowAmount
  rw [if_neg poll.awaits.positive, spec_call_bind] at h₁
  have h₂ := h₁.2 (some status) ⟨may_ask rfl, fun s hs _ _ _ => Option.some.inj hs ▸ hanswers⟩
  simp only [hfork, hreceived, Bool.false_and, Bool.false_eq_true, if_false] at h₂
  rw [if_pos (Int64.not_le.mp hexpired), spec_attempt_bind] at h₂
  exact not_kept_writer hcan _ (spec_mono (fun _ _ h => h) (fun _ _ _ => trivial) h₂)

/-- **Any other order is cancelled**, unless it cannot be. -/
theorem not_kept (hcan : Cancellable D poll.order.id) (hexpired : ¬ poll.InTime)
    (hcounts : ¬ poll.wallet.Counts poll.payment.address poll.payment.expected) :
    ¬ poll.NeverCancelled := by
  have hpoll : pollable D.prim D.workerKey [poll.order] = [(poll.order.id, poll.data)] := by
    simp [pollable, poll.awaits.decoded, poll.awaits.escrowAddress]
  have hweak : ∀ {past : Past} {α β : Type} {x : Program α} {f : α → Program β},
      Spec poll.May (fun _ c => ¬ StoresCancelled D poll.order.id c) (fun _ _ => True) past
        (x >>= f) →
      Spec poll.May (fun _ c => ¬ StoresCancelled D poll.order.id c) (fun _ _ => True) past x :=
    fun h => spec_mono (fun _ _ h => h) (fun _ _ _ => trivial) (spec_bind.mp h)
  intro h
  unfold NeverCancelled checkPendingPayments getWorkerKey at h
  simp only [spec_orFail_bind, spec_call_bind] at h
  have h₁ := (h.2 poll.time ⟨may_now _, rfl⟩).2 D.workerKey rfl
  have h₂ := (h₁.2 (some [poll.order])
    ⟨(may_row poll.version).2, fun l hl => Option.some.inj hl ▸ List.mem_cons_self⟩).2 _ rfl
  rw [show D.worker.prim = D.prim from rfl, hpoll] at h₂
  have h₃ := hweak h₂
  have hstate := poll.awaits.pending
  have hcurrency := poll.awaits.currency
  -- what the turn of the order's chain comes to
  have hturn : ∀ {past : Past} {time : Int64}, time = floorTimestamp6h poll.time →
      ¬ Spec poll.May (fun _ c => ¬ StoresCancelled D poll.order.id c) (fun _ _ => True) past
        (whenNoFork poll.payment.chain (forEach (fun o => checkPayment poll.payment.chain
          poll.payment.chain.parseAmount poll.payment.chain.requiredConfirmations D.worker time
            o.1 o.2) [(poll.order.id, poll.data)])) := by
    rintro past _ rfl h
    rw [whenNoFork, spec_call_bind] at h
    have hnofork := h.2 (some false) ⟨may_ask rfl, fun _ => by simp⟩
    rw [if_pos rfl] at hnofork
    exact not_kept_check hcan hexpired hcounts _ (hweak hnofork)
  cases hchain : poll.payment.chain with
  | xmr =>
    rw [hchain, Chain.currency] at hcurrency
    rw [hchain] at hturn
    simp only [List.filter_cons, List.filter_nil, hstate, hcurrency] at h₃
    exact hturn rfl (hweak h₃)
  | btc =>
    rw [hchain, Chain.currency] at hcurrency
    rw [hchain] at hturn
    simp only [List.filter_cons, List.filter_nil, hstate, hcurrency] at h₃
    change Spec poll.May _ _ _ (ask (.checkForFork .xmr) >>= _) at h₃
    have h₄ := (spec_call_bind.mp h₃).2 none ⟨may_ask rfl, fun _ => by simp⟩
    exact hturn rfl h₄

end PaidPoll

/-- **A paid order is kept if and only if it is in time, or its payment counts**, or nothing can be
cancelled in its row. -/
theorem paid_order_kept_iff {D : Deployment} (poll : PaidPoll D) :
    poll.NeverCancelled ↔
      poll.InTime ∨ poll.wallet.Counts poll.payment.address poll.payment.expected ∨
        ¬ Cancellable D poll.order.id := by
  refine ⟨fun h => ?_, PaidPoll.kept⟩
  by_contra hno
  simp only [not_or, not_not] at hno
  exact PaidPoll.not_kept hno.2.2 hno.1 hno.2.1 h

namespace Sample

/-- `paidOrder`, past its expiry. -/
def expiredBtcOrder : OrderData := { paidOrder with expiresAt := some 1600000000 }

/-- An order of less than the dust limit, past its expiry. -/
def expiredXmrOrder : OrderData :=
  { expiredBtcOrder with
    currency := "XMR", escrowAddress := some "4A", escrowAmount := some "0.0005" }

def expiredBtcCiphertext : Bytes :=
  List.flatMap (beBytes 44)
    [ 0x21d027fbe204a2e677dacdfaf53dd8524283f024e772a78a1b52bb5cb1c715360a9c12faa9a9281236d57794,
      0x0e4d25064fbfd5c81b06afa756d4894c204e358b867909101694053a2c53fe7c9484f2eb5fc9267ce5c832b0,
      0xd855010a911db37350f65b8e1737ad64cb68433576561832dfccbfa9f5a32f69dfc9d45e2d474aaae15a1ab5,
      0xe1bfb0cccf02aa7b529eb745f6bfc62b271baaab51e543cf104918086e65b00cb07abfb2995c19416aa57ba1,
      0x212849aa5fb4183d5c68791016147a4eba6fff42bb54a46490d86aa03c5b1809c2c53eeacb042c6dd18a55a4,
      0x44bb0816fbfa470f77aaec7741e64f64e225bcd95e75113808b952e094911e486f50aef071fe6fbe3d50c466,
      0x882c3aac1bc47ccb1fb6755c6995fe6fb081182680d9a8f540b49c4b298f0c23ddb47f4291a47d9b050d7e33,
      0x437c03302b61c6fa793e1aec6beecbeb34929430e82510a297cbe634693837a185e60a4f465ab40445b2438d,
      0xe1c6665c6d25ab6afb112a0deee9feefb2d83ce3abcbfe038967c27a862ebea8a4f855d8bf508f15c18b5c4a,
      0x54f93e1c4550ebad1b75b8c52727c2b3b379857ff135398b4d6496a08a9291d9cf9b8e054769b8ec460e1b97,
      0xadb6ff14499b16e1a429a3c5398c907ab0e2911f50d581a77e40c7466616a45395a1a5c9215ea3b6bd7829f6 ] ++
  beBytes 37 0x11dfe1fcf5f5babb34d7972366823c34a58d6f0b2e40f8f66e1fca29b0a3214138240717fd

/-- `expiredBtcOrder`, cancelled. -/
def cancelledBtcCiphertext : Bytes :=
  List.flatMap (beBytes 44)
    [ 0x353765c1cd2b632a1d9316a2b8d55c36db3a04e77343312350259ffc3cacfb4a2eea062d01dc7b8573b59b59,
      0x52bcd773c5e64a55b7c47b9248a00dc9003827fc07e7431c5d88371e554c21b78947a62506bb37cc320d6716,
      0xebacb929e76886763f32217fa1f9d10c7881ffba597bbdfa832c8596bcded5f2d5fc927dc5350893c6a82797,
      0x23ae5e44660e63ffbf1dfe94d354015b538b21164b02d5b00ff488c501ab62894835e38f10b21b766ab15e65,
      0xd66218da4416f1d0565b1c32eb436fee8a4fd9a54b7051f081685f5ce67b890c55d07ed15693849c4f86a891,
      0xa4117f5745ee19d64549f7d703de2a2a78e8393c5518fc515452e4197751ae6ae06febb9f4a65f967d3099ca,
      0x8290fb23699ea05a0f631f1f4956c746e294aed70dfb9043e79287bab63e3f7d7075f46113ef8ce69afc5ac9,
      0x4bb288aed7ec0c66bd7970bbca62171d9f1715cb60560b31491b991d4a8487fe4e4c30e664f534687f96c1fb,
      0x2bc9851e46e3c5b79554852014c2d07b02fa080aeb284c95ab0a212de5a295471865f29c68bdb98bc76c195d,
      0xa175c7d8a6b8e7340e35093bb2cc2a94170cb075565a6f08d0038ddc5326e02da6e8d80c305da63f51bdabf0,
      0x2e5c538054d5e351e3c838b44d3b3483c8e5337fb957926ecf0e15b3167ccef327a31beafcdcbbd3865acbd5 ] ++
  beBytes 39 0x1a910361b5ec7f2621ede866aeea2ec29c3d2fb53513a5877b6633351c12dc98aa18a294e5cda7

def expiredXmrCiphertext : Bytes :=
  List.flatMap (beBytes 44)
    [ 0xc737e2658ae8dc53c8bf71198dc9b241d3dbaa7c4eab700589093be233a2b3c3770531e9143b6d2b84e8529a,
      0xabdd74e9eefac2c19e82f772a99ab27572f1dfd15f26acade1687c753025ed5556a5fc095a8e174365608a1d,
      0x9a82041a32fb19702988b5ff74503556b8ee9958fc13f6ca6713c6fdf7dcbd1764b651fc86889e5afb9264b6,
      0x1f4c00ab55d464aa39b6fa3777bffc0f0972c668f4865e020ebd203cca2fe4f7d9f36f1249af75fe77b72f26,
      0x39336dfe68cc8f4380e19b9657807da8de24033f129a0659bc63aa584e241f31530009585f50b50ac3e4f406,
      0x282db69c55e57433371577d8bbec32eab4bd44fb41ed09ce51edbe96457102604ab5e1327e89035a9c369451,
      0x9f8dbc27bbc17b7e007a4e87a9e3330ac17b05f7f1be41f0b58c802774e278bd9612992ea3548270a62ecde9,
      0x7ea58376f04ea3dbcd40b5e7dcddac4bb9f6dd124ca4ad5d81da913eeb55347fe58c1798b8bcdf4c9d85afa5,
      0xaa1ec10dcbf2abd61e6d3679bd8bc5bb64482bfdea37e61a013c2d817bb127af7f4a69bd61252da41b759b70,
      0x67883eef0b73462c92df0787c4995b9bf2a6ef28f8f23809ff0372bb938ce381c5e219cf32e31be4452ae2c1,
      0x6df809a6e3fc2fc9419d8301fa25c470b440dd1d17f0560e6b461591ae592b503aeae89ae8ed2cdd9db00ea3 ] ++
  beBytes 28 0xedf8c1624d5cdd3bdd7ff45fde498b071c238d1382d4f93c9656c574

def expiredTables : Primitives.Tables where
  hmacSha256 :=
    [((List.replicate 32 7, utf8 "oblivious-order-v1" ++ hex orderId), orderKey),
      ((List.replicate 32 7, utf8 "domain:payment-decrypt"), paymentDecryptSk)]
  -- what the client's format makes of the two blobs
  x25519 :=
    [((paymentDecryptSk, (sealed 4 expiredBtcCiphertext).take 32),
        hex "d8f550c473f34ab87a15c9cb75cb1ce85aae643df8f73a969ecf4be779d38912"),
      ((paymentDecryptSk, (sealed 5 expiredXmrCiphertext).take 32),
        hex "83e2027af4c5c38bb7f48cce259fa85351889d0166e923d5101b45bad49a243f")]
  hkdfSha256 :=
    [((hex "d8f550c473f34ab87a15c9cb75cb1ce85aae643df8f73a969ecf4be779d38912",
        utf8 "tor-marketplace-order-key-v1"),
        hex "c96d14fa2f63effd87e56699abad85080386872834fa5dff8cecd600954388da"),
      ((hex "83e2027af4c5c38bb7f48cce259fa85351889d0166e923d5101b45bad49a243f",
        utf8 "tor-marketplace-order-key-v1"),
        hex "99cff76f76bef4fd88f8ace2a554dd8c91ac273996566e4b1b813010144e626e")]
  chacha :=
    [((orderKey, List.replicate 12 4, expiredBtcCiphertext), expiredBtcOrder.toVec),
      ((orderKey, List.replicate 12 0, cancelledBtcCiphertext),
        { expiredBtcOrder with state := "cancelled" }.toVec),
      ((orderKey, List.replicate 12 5, expiredXmrCiphertext), expiredXmrOrder.toVec)]

/-- The row with the blob. -/
def row (encryptedOrderBlob : Bytes) : Order :=
  (orders encryptedOrderBlob).rows.head (by simp [orders])

/-- What the node lists: 0.001 BTC, with so many confirmations. -/
def btcList (confirmations : Int) : Value :=
  .arr [object
    [("txid", ofString "f4"), ("address", ofString "bcrt1qescrow"), ("amount", .float (utf8 "0.001")),
      ("confirmations", .int confirmations), ("time", .int 1690000000)]]

def btcTx (confirmations : Int32) : TransactionDetail :=
  ⟨"f4", some "bcrt1qescrow", F64.nearest (1 / 1000), none, confirmations, 1690000000, none⟩

theorem readVec_btcList :
    readVec TransactionDetail.ofJson (btcList 3) = some [btcTx 3] ∧
      readVec TransactionDetail.ofJson (btcList 6) = some [btcTx 6] := by
  decide +kernel

def btcPoll (wallet : BitcoinWallet)
    (paid : (Wallet.bitcoin wallet).Pays "bcrt1qescrow" 100000) :
    PaidPoll (deployment expiredTables none) where
  order := row (sealed 4 expiredBtcCiphertext)
  version := by decide
  data := expiredBtcOrder
  payment := ⟨.btc, "bcrt1qescrow", 100000⟩
  awaits :=
    { decoded := by decide +kernel
      pending := rfl
      currency := rfl
      escrowAddress := rfl
      escrowAmount := by decide +kernel
      positive := by decide }
  time := time
  wallet := .bitcoin wallet
  chain := rfl
  paid := paid

/-- Three blocks after the payment. -/
def shallowPoll : PaidPoll (deployment expiredTables none) :=
  btcPoll (.ofView (chain 'a' 100) (btcList 3) [btcTx 3] readVec_btcList.1)
    ⟨btcTx 3, List.mem_cons_self, by decide +kernel⟩

/-- Six blocks after it. -/
def deepPoll : PaidPoll (deployment expiredTables none) :=
  btcPoll (.ofView (chain 'a' 100) (btcList 6) [btcTx 6] readVec_btcList.2)
    ⟨btcTx 6, List.mem_cons_self, by decide +kernel⟩

/-- A payment of 0.0005 XMR in a block of height 80. -/
def dustTx : Value :=
  object [("type", ofString "in"), ("amount", .int 500000000), ("height", .int 80)]

def dustPoll : PaidPoll (deployment expiredTables none) where
  order := row (sealed 5 expiredXmrCiphertext)
  version := by decide
  data := expiredXmrOrder
  payment := ⟨.xmr, "4A", 500000000⟩
  awaits :=
    { decoded := by decide +kernel
      pending := rfl
      currency := rfl
      escrowAddress := rfl
      escrowAmount := by decide +kernel
      positive := by decide }
  time := time
  wallet := .monero (wallet [dustTx])
  chain := rfl
  paid := by
    refine ⟨dustTx, ?_, by decide⟩
    rw [wallet, transactions_of]
    exact List.mem_cons_self

theorem cancellable : Cancellable (deployment expiredTables none) (hex orderId) :=
  ⟨row (sealed 4 expiredBtcCiphertext), expiredBtcOrder, List.replicate 12 0,
    sealed 0 cancelledBtcCiphertext, rfl, by decide, by decide +kernel, rfl, rfl, by decide +kernel⟩

end Sample

open Sample in
/-- With all its confirmations the order is kept, long after its expiry. -/
theorem paid_order_kept_sample : deepPoll.NeverCancelled := by
  refine (paid_order_kept_iff deepPoll).mpr (.inr (.inl ⟨btcTx 6, List.mem_cons_self, ?_⟩))
  decide +kernel

open Sample in
/-- A Bitcoin payment with three confirmations and a Monero payment below the dust limit do not save
their orders. -/
theorem paid_order_cancelled : ¬ shallowPoll.NeverCancelled ∧ ¬ dustPoll.NeverCancelled := by
  constructor
  · refine PaidPoll.not_kept cancellable (by decide) ?_
    rintro ⟨tx, hmem, hcounts⟩
    obtain rfl := List.mem_singleton.mp hmem
    exact absurd hcounts.confirmations.2 (by decide)
  · refine PaidPoll.not_kept cancellable (by decide) ?_
    rintro ⟨tx, hmem, hcounts⟩
    rw [wallet, transactions_of] at hmem
    obtain rfl := List.mem_singleton.mp hmem
    exact absurd hcounts (by decide)

end TorMarketplace
