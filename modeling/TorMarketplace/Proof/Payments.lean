import TorMarketplace.Proof.Forks

/-!
# What the payment clients report

Each client reports a payment if and only if something in the wallet counts for it
(`reported_received`). The Monero client reports the first transfer it counts, whether or not it is
confirmed, and counts more than a payment: types that merely contain `in`, and transactions that are
in no block. So its answer is exact, in whatever order the wallet lists them, if and only if all it
counts is confirmed and a payment is among it, or nothing of it is confirmed
(`xmr_decision_exact_iff`).
-/

namespace TorMarketplace

open Encoding Forks Interleave Json Prog Serde

/-! ## Monero -/

/-- A Monero node with a wallet: `result` is its answer to `get_address_txs`. -/
structure MoneroWallet extends MoneroNode where
  result : String → Value
  txs : ∀ address (s : MoneroMemory),
    (rpcCall "XMR" "get_address_txs"
      (object [("account_index", .int 0), ("address", ofString address)])).run node s =
        some (.ok (result address), s)

def MoneroWallet.ofView (v : View String) (result : String → Value) : MoneroWallet where
  node := moneroReplies v result
  view := v
  height := monero_height
  hash h _ := monero_hash h
  result := result
  txs address s := by
    refine rpcCall_run ?_
    rw [moneroReplies, if_neg (by decide), if_pos rfl, index,
      member_object (by simp) (List.mem_cons_of_mem _ List.mem_cons_self), Option.getD_some,
      roundTrip_string.read]
    rfl

namespace MoneroViewOnlyClient

/-- The confirmations that the client computes for a transaction. -/
def depth (current : UInt64) (tx : Value) : UInt64 :=
  let height := (readU64 (index tx "height")).getD current
  if height ≤ current then current - height else 0

/-- The client takes the transaction for the payment. -/
def Counts (expected : UInt64) (tx : Value) : Prop :=
  let txType := (readString (index tx "type")).getD ""
  let amount := (readU64 (index tx "amount")).getD 0
  containsText txType "in" = true ∧ minPaymentPiconero ≤ amount ∧ expected ≤ amount

instance (expected : UInt64) (tx : Value) : Decidable (Counts expected tx) := by
  unfold Counts
  infer_instance

/-- The transaction is incoming, of at least the amount, and in a block with so many on top. -/
structure Confirms (current expected required : UInt64) (tx : Value) : Prop where
  type : readString (index tx "type") = some "in"
  amount : ∃ amount, readU64 (index tx "amount") = some amount ∧ expected ≤ amount ∧
    minPaymentPiconero ≤ amount
  height : ∃ height, readU64 (index tx "height") = some height ∧ 1 ≤ height ∧
    height.toNat + required.toNat ≤ current.toNat

instance (current expected required : UInt64) (tx : Value) :
    Decidable (Confirms current expected required tx) :=
  decidable_of_iff
    (readString (index tx "type") = some "in" ∧
      (∃ amount ∈ readU64 (index tx "amount"), expected ≤ amount ∧ minPaymentPiconero ≤ amount) ∧
      ∃ height ∈ readU64 (index tx "height"),
        1 ≤ height ∧ height.toNat + required.toNat ≤ current.toNat)
    ⟨fun h => ⟨h.1, h.2.1, h.2.2⟩, fun h => ⟨h.type, h.amount, h.height⟩⟩

theorem Confirms.counts {current expected required : UInt64} {tx : Value}
    (h : Confirms current expected required tx) : Counts expected tx := by
  obtain ⟨amount, hamount, hexpected, hdust⟩ := h.amount
  unfold Counts
  rw [h.type, hamount]
  exact ⟨by decide, hdust, hexpected⟩

theorem Confirms.deep {current expected required : UInt64} {tx : Value}
    (h : Confirms current expected required tx) : required ≤ depth current tx := by
  obtain ⟨height, hheight, _, hle⟩ := h.height
  unfold depth
  rw [hheight]
  have hcurrent : height ≤ current := UInt64.le_iff_toNat_le.mpr (by omega)
  rw [Option.getD_some, if_pos hcurrent, UInt64.le_iff_toNat_le,
    UInt64.toNat_sub_of_le _ _ hcurrent]
  omega

/-- What is reported of the transactions `txs`. -/
def reported (address : String) (current expected : UInt64) (txs : List Value) : PaymentStatus :=
  match (txs.filterMap (incomingTransfer address current)).find? (·.pays address expected) with
  | some transfer => transfer.status
  | none => ⟨false, 0, 0, none, none, false⟩

section Reported

variable {address : String} {current expected required : UInt64} {tx : Value} {txs : List Value}

variable (address) in
theorem incomingTransfer_counts (hpos : 0 < expected) (h : Counts expected tx) :
    ∃ t, incomingTransfer address current tx = some t ∧ t.pays address expected = true ∧
      t.confirmations = depth current tx := by
  obtain ⟨htype, hdust, hexpected⟩ := h
  unfold incomingTransfer
  rw [if_neg (fun hskip => hskip.1 htype)]
  dsimp only
  rw [if_neg (UInt64.not_lt.mpr hdust)]
  refine ⟨_, rfl, ?_, rfl⟩
  simp only [IncomingTransfer.pays, decide_true, Bool.true_and, Bool.and_eq_true, Bool.not_eq_true',
    decide_eq_false_iff_not, decide_eq_true_eq]
  exact ⟨⟨UInt64.not_lt.mpr hdust, hexpected⟩, hpos⟩

theorem incomingTransfer_not_counts (h : ¬ Counts expected tx) {t : IncomingTransfer}
    (ht : incomingTransfer address current tx = some t) : t.pays address expected = false := by
  unfold incomingTransfer at ht
  dsimp only at ht
  by_cases htype : ¬ containsText ((readString (index tx "type")).getD "") "in" ∧
      (readString (index tx "type")).getD "" ≠ "in"
  · rw [if_pos htype] at ht
    exact absurd ht (by simp)
  rw [if_neg htype] at ht
  by_cases hdust : (readU64 (index tx "amount")).getD 0 < minPaymentPiconero
  · rw [if_pos hdust] at ht
    exact absurd ht (by simp)
  rw [if_neg hdust] at ht
  obtain rfl := Option.some.inj ht
  refine Bool.eq_false_iff.mpr fun hpays => h ⟨?_, UInt64.not_lt.mp hdust, ?_⟩
  · by_contra hnot
    have hin : (readString (index tx "type")).getD "" = "in" := by
      by_contra hne
      exact htype ⟨hnot, hne⟩
    exact hnot (by rw [hin]; decide)
  · simp only [IncomingTransfer.pays, Bool.and_eq_true, decide_eq_true_eq] at hpays
    exact hpays.1.2

variable (address current tx) in
/-- **The first transaction that counts is reported.** -/
theorem reported_cons (txs : List Value) (hpos : 0 < expected) :
    if Counts expected tx then
      (reported address current expected (tx :: txs)).received = true ∧
        (reported address current expected (tx :: txs)).confirmations = depth current tx
    else reported address current expected (tx :: txs) = reported address current expected txs := by
  split_ifs with h
  · obtain ⟨t, ht, hpays, hdepth⟩ := incomingTransfer_counts address hpos h
    unfold reported
    rw [List.filterMap_cons_some ht, List.find?_cons, hpays]
    exact ⟨rfl, hdepth⟩
  · unfold reported
    cases ht : incomingTransfer address current tx with
    | none => rw [List.filterMap_cons_none ht]
    | some t =>
      rw [List.filterMap_cons_some ht, List.find?_cons, incomingTransfer_not_counts h ht]

/-- A payment is reported if and only if something counts. -/
theorem reported_received (hpos : 0 < expected) (txs : List Value) :
    (reported address current expected txs).received = true ↔ ∃ tx ∈ txs, Counts expected tx := by
  induction txs with
  | nil => simp [reported]
  | cons tx txs ih =>
    have hcons := reported_cons address current tx txs hpos
    rw [List.exists_mem_cons_iff]
    split_ifs at hcons with h
    · exact ⟨fun _ => .inl h, fun _ => hcons.1⟩
    · rw [hcons, ih]
      exact ⟨.inr, fun hor => hor.resolve_left h⟩

/-- A payment with enough confirmations is reported of the transactions. -/
def Reports (address : String) (current expected required : UInt64) (txs : List Value) : Prop :=
  (reported address current expected txs).received = true ∧
    required ≤ (reported address current expected txs).confirmations

theorem reports_cons (hpos : 0 < expected) :
    Reports address current expected required (tx :: txs) ↔
      if Counts expected tx then required ≤ depth current tx
      else Reports address current expected required txs := by
  have hcons := reported_cons address current tx txs hpos
  unfold Reports
  split_ifs at hcons ⊢
  · rw [hcons.1, hcons.2]
    exact and_iff_right rfl
  · rw [hcons]

instance : Decidable (Reports address current expected required txs) := by
  unfold Reports
  infer_instance

/-- If all that counts is deep, something that counts is enough. -/
theorem reports_of_all_deep (hpos : 0 < expected) :
    ∀ {txs : List Value}, (∀ tx ∈ txs, Counts expected tx → required ≤ depth current tx) →
      (∃ tx ∈ txs, Counts expected tx) → Reports address current expected required txs
  | [], _, h => by simp at h
  | tx :: txs, hall, h => by
    rw [reports_cons hpos]
    split_ifs with hc
    · exact hall tx List.mem_cons_self hc
    · refine reports_of_all_deep hpos (fun t ht => hall t (List.mem_cons_of_mem _ ht)) ?_
      exact (List.exists_mem_cons_iff _ _ _ |>.mp h).resolve_left hc

/-- If nothing that counts is deep, nothing is reported. -/
theorem not_reports_of_none_deep (hpos : 0 < expected) :
    ∀ {txs : List Value}, (∀ tx ∈ txs, Counts expected tx → ¬ required ≤ depth current tx) →
      ¬ Reports address current expected required txs
  | [], _ => fun h => absurd h.1 (by simp [reported])
  | tx :: txs, hall => by
    rw [reports_cons hpos]
    split_ifs with hc
    · exact hall tx List.mem_cons_self hc
    · exact not_reports_of_none_deep hpos fun t ht => hall t (List.mem_cons_of_mem _ ht)

end Reported

/-- The client's answer for a wallet. -/
theorem checkPayment_run (w : MoneroWallet) {s : MoneroMemory} (hfork : (s.next w.view).1 = false)
    (address : String) (expected required : UInt64) :
    (checkPaymentWithConfirmations address expected required).run w.node s =
      some (.ok (reported address w.view.tip expected (transactions (w.result address))),
        (s.next w.view).2) := by
  have hcheck : checkForFork.run w.node s = some (.ok false, (s.next w.view).2) := by
    rw [monero_checkForFork_run, hfork]
  rw [NodeClient.run, checkPaymentWithConfirmations, solo_bind_ok hcheck]
  change w.node.machine.solo () (getIncomingTransfers address >>= _) _ = _
  rw [getIncomingTransfers, bind_bind, solo_bind_ok (w.height _), bind_bind,
    solo_bind_ok (w.txs address _)]
  change w.node.machine.solo () (match ((transactions (w.result address)).filterMap
    (incomingTransfer address w.view.tip)).find? (·.pays address expected) with
      | some transfer => pure transfer.status
      | none => pure ⟨false, 0, 0, none, none, false⟩ : NodeClient MoneroMemory PaymentStatus) _ = _
  unfold reported
  cases ((transactions (w.result address)).filterMap
    (incomingTransfer address w.view.tip)).find? (·.pays address expected) with
  | some transfer => rfl
  | none => rfl

/-- The check at the wallet succeeds, and reports a payment with enough confirmations. -/
def Received (w : MoneroWallet) (s : MoneroMemory) (address : String)
    (expected required : UInt64) : Prop :=
  ∃ status s', (checkPaymentWithConfirmations address expected required).run w.node s =
      some (.ok status, s') ∧ status.received = true ∧ required ≤ status.confirmations

theorem received_iff (w : MoneroWallet) {s : MoneroMemory} (hfork : (s.next w.view).1 = false)
    (address : String) (expected required : UInt64) :
    Received w s address expected required ↔
      Reports address w.view.tip expected required (transactions (w.result address)) := by
  unfold Received
  rw [checkPayment_run w hfork]
  constructor
  · rintro ⟨_, _, heq, hreceived⟩
    obtain ⟨rfl, rfl⟩ := by simpa using heq
    exact hreceived
  · exact fun h => ⟨_, _, rfl, h⟩

/-- The wallet lists a payment with enough confirmations. -/
def Listed (w : MoneroWallet) (address : String) (expected required : UInt64) : Prop :=
  ∃ tx ∈ transactions (w.result address), Confirms w.view.tip expected required tx

/-- The answer for the wallet is right, and the order of its transactions does not matter. -/
def Exact (w : MoneroWallet) (s : MoneroMemory) (address : String) (expected required : UInt64) :
    Prop :=
  (Received w s address expected required ↔ Listed w address expected required) ∧
    ∀ w' : MoneroWallet, w'.view = w.view →
      (transactions (w'.result address)).Perm (transactions (w.result address)) →
      (Received w' s address expected required ↔ Received w s address expected required)

theorem transactions_object (l : List Value) :
    transactions (object [("transactions", .arr l)]) = l := by
  rw [transactions, member_object (by simp) List.mem_cons_self]
  rfl

/-- In some order of the transactions, the answer is about this one. -/
theorem Exact.received_iff_deep {w : MoneroWallet} {s : MoneroMemory} {address : String}
    {expected required : UInt64} (h : Exact w s address expected required)
    (hfork : (s.next w.view).1 = false) (hpos : 0 < expected) {tx : Value}
    (hmem : tx ∈ transactions (w.result address)) (hc : Counts expected tx) :
    Received w s address expected required ↔ required ≤ depth w.view.tip tx := by
  obtain ⟨l, l', hsplit⟩ := List.append_of_mem hmem
  let w' : MoneroWallet := .ofView w.view fun _ => object [("transactions", .arr (tx :: (l ++ l')))]
  have htxs : transactions (w'.result address) = tx :: (l ++ l') := transactions_object _
  have hperm : (transactions (w'.result address)).Perm (transactions (w.result address)) := by
    rw [htxs, hsplit]
    exact List.perm_middle.symm
  rw [← h.2 w' rfl hperm, received_iff w' hfork, htxs, reports_cons hpos, if_pos hc]
  rfl

/-- **The answer is exact if and only if all that counts is deep and has a payment among it, or none
of it is deep.** -/
theorem xmr_decision_exact_iff (w : MoneroWallet) (s : MoneroMemory)
    (hfork : (s.next w.view).1 = false) (address : String) {expected : UInt64} (required : UInt64)
    (hpos : 0 < expected) :
    Exact w s address expected required ↔
      (∀ tx ∈ transactions (w.result address), Counts expected tx →
          required ≤ depth w.view.tip tx) ∧ Listed w address expected required ∨
        ∀ tx ∈ transactions (w.result address), Counts expected tx →
          ¬ required ≤ depth w.view.tip tx := by
  constructor
  · intro h
    by_cases hreceived : Received w s address expected required
    · exact .inl ⟨fun tx hmem hc => (h.received_iff_deep hfork hpos hmem hc).mp hreceived,
        h.1.mp hreceived⟩
    · exact .inr fun tx hmem hc hle =>
        hreceived ((h.received_iff_deep hfork hpos hmem hc).mpr hle)
  · rintro (⟨hdeep, hlisted⟩ | hshallow)
    · obtain ⟨tx, hmem, hconfirms⟩ := hlisted
      have hall : ∀ w' : MoneroWallet, w'.view = w.view →
          (transactions (w'.result address)).Perm (transactions (w.result address)) →
          Received w' s address expected required := fun w' hview hperm => by
        rw [received_iff w' (hview ▸ hfork), hview]
        exact reports_of_all_deep hpos (fun t ht => hdeep t (hperm.mem_iff.mp ht))
          ⟨tx, hperm.mem_iff.mpr hmem, hconfirms.counts⟩
      have hself := hall w rfl (List.Perm.refl _)
      exact ⟨iff_of_true hself ⟨tx, hmem, hconfirms⟩,
        fun w' hview hperm => iff_of_true (hall w' hview hperm) hself⟩
    · have hnone : ∀ w' : MoneroWallet, w'.view = w.view →
          (transactions (w'.result address)).Perm (transactions (w.result address)) →
          ¬ Received w' s address expected required := fun w' hview hperm => by
        rw [received_iff w' (hview ▸ hfork), hview]
        exact not_reports_of_none_deep hpos fun t ht => hshallow t (hperm.mem_iff.mp ht)
      have hself := hnone w rfl (List.Perm.refl _)
      refine ⟨iff_of_false hself ?_, fun w' hview hperm => iff_of_false (hnone w' hview hperm) hself⟩
      rintro ⟨tx, hmem, hconfirms⟩
      exact hshallow tx hmem hconfirms.counts hconfirms.deep

end MoneroViewOnlyClient

/-! ## Bitcoin -/

/-- A Bitcoin node with a wallet of these transactions. -/
structure BitcoinWallet extends BitcoinNode where
  txs : List TransactionDetail
  list : ∀ address (s : BitcoinMemory),
    (BitcoinClient.listTransactionsForAddress address).run node s =
      some (.ok (txs.filter fun tx => tx.address = some address), s)

/-- A wallet that lists `list`, which reads as `txs`. -/
def BitcoinWallet.ofView (v : View String) (list : Value) (txs : List TransactionDetail)
    (h : readVec TransactionDetail.ofJson list = some txs) : BitcoinWallet where
  node := bitcoinReplies v list
  view := v
  height := bitcoin_height
  hash h _ := bitcoin_hash h
  txs := txs
  list address s := by
    have hreply : bitcoinReplies v list "listtransactions"
        (.arr [ofString "order:*", .int 10000, .int 0, .bool true]) =
          some (reply (object [("result", list)])) := by
      rw [bitcoinReplies, if_neg (by decide), if_pos rfl]
    rw [NodeClient.run, BitcoinClient.listTransactionsForAddress, BitcoinClient.btcRpcCall, bind_bind,
      solo_bind_ok (rpcCall_run hreply), readR_object h]
    rfl

namespace BtcPaymentClient

/-- The client takes the transaction for the payment. -/
structure Counts (address : String) (expected required : UInt64) (tx : TransactionDetail) : Prop where
  address : tx.address = some address
  amount : 0 < tx.amount ∧ dustThresholdSats ≤ toSats tx.amount ∧ expected ≤ toSats tx.amount
  confirmations : 0 < tx.confirmations ∧
    required ≤ tx.confirmations.toInt.toNat.toUInt32.toUInt64

instance (address : String) (expected required : UInt64) (tx : TransactionDetail) :
    Decidable (Counts address expected required tx) :=
  decidable_of_iff
    (tx.address = some address ∧
      (0 < tx.amount ∧ dustThresholdSats ≤ toSats tx.amount ∧ expected ≤ toSats tx.amount) ∧
      0 < tx.confirmations ∧ required ≤ tx.confirmations.toInt.toNat.toUInt32.toUInt64)
    ⟨fun h => ⟨h.1, h.2.1, h.2.2⟩, fun h => ⟨h.address, h.amount, h.confirmations⟩⟩

/-- What is reported of the transactions `txs`. -/
def reported (address : String) (expected required : UInt64) (txs : List TransactionDetail) :
    PaymentStatus :=
  match ((txs.filter fun tx => tx.address = some address).filterMap incomingTransfer).find?
    (·.pays address expected required) with
  | some transfer => transfer.status address
  | none => notReceived

section Reported

variable {address : String} {expected required : UInt64} {tx : TransactionDetail}

theorem incomingTransfer_pays (hpos : 0 < expected) (haddress : tx.address = some address) :
    (∃ t, incomingTransfer tx = some t ∧ t.pays address expected required = true) ↔
      Counts address expected required tx := by
  unfold incomingTransfer
  rw [haddress]
  constructor
  · rintro ⟨t, ht, hpays⟩
    by_cases hconf : tx.confirmations ≤ 0
    · rw [if_pos hconf] at ht
      exact absurd ht (by simp)
    by_cases hamount : tx.amount ≤ 0
    · rw [if_neg hconf, if_pos hamount] at ht
      exact absurd ht (by simp)
    rw [if_neg hconf, if_neg hamount] at ht
    dsimp only at ht
    split at ht
    · exact absurd ht (by simp)
    rename_i hdust
    obtain rfl := Option.some.inj ht
    simp only [IncomingTransfer.pays, Bool.and_eq_true, decide_eq_true_eq] at hpays
    exact ⟨haddress, ⟨not_le.mp hamount, UInt64.not_lt.mp hdust, hpays.1.1.2⟩,
      Int32.not_le.mp hconf, hpays.2⟩
  · rintro ⟨_, ⟨hamount, hdust, hexpected⟩, hconf, hrequired⟩
    rw [if_neg (Int32.not_le.mpr hconf), if_neg (not_le.mpr hamount)]
    dsimp only
    rw [if_neg (UInt64.not_lt.mpr hdust)]
    refine ⟨_, rfl, ?_⟩
    simp only [IncomingTransfer.pays, decide_true, Bool.true_and, Bool.and_eq_true,
      Bool.not_eq_true', decide_eq_false_iff_not, decide_eq_true_eq]
    exact ⟨⟨⟨UInt64.not_lt.mpr hdust, hexpected⟩, hpos⟩, hrequired⟩

/-- A payment is reported if and only if something counts. -/
theorem reported_received (hpos : 0 < expected) (txs : List TransactionDetail) :
    (reported address expected required txs).received = true ↔
      ∃ tx ∈ txs, Counts address expected required tx := by
  unfold reported
  constructor
  · intro h
    cases hfind : ((txs.filter fun tx => tx.address = some address).filterMap
      incomingTransfer).find? (·.pays address expected required) with
    | none => simp [hfind, notReceived] at h
    | some t =>
      have hpays := List.find?_some hfind
      obtain ⟨tx, htx, ht⟩ := List.mem_filterMap.mp (List.mem_of_find?_eq_some hfind)
      obtain ⟨hmem, haddress⟩ := List.mem_filter.mp htx
      exact ⟨tx, hmem, (incomingTransfer_pays hpos (of_decide_eq_true haddress)).mp ⟨t, ht, hpays⟩⟩
  · rintro ⟨tx, hmem, hcounts⟩
    obtain ⟨t, ht, hpays⟩ := (incomingTransfer_pays hpos hcounts.address).mpr hcounts
    have hlisted : t ∈ (txs.filter fun tx => tx.address = some address).filterMap
        incomingTransfer :=
      List.mem_filterMap.mpr ⟨tx, List.mem_filter.mpr ⟨hmem, decide_eq_true hcounts.address⟩, ht⟩
    have hfound : (((txs.filter fun tx => tx.address = some address).filterMap
        incomingTransfer).find? (·.pays address expected required)).isSome :=
      List.find?_isSome.mpr ⟨t, hlisted, hpays⟩
    obtain ⟨t', ht'⟩ := Option.isSome_iff_exists.mp hfound
    rw [ht']
    rfl

end Reported

/-- The client's answer for a wallet. -/
theorem checkPayment_run (w : BitcoinWallet) {s : BitcoinMemory}
    (hfork : (s.next w.view).1 = false) (address : String) (expected required : UInt64) :
    (checkPaymentWithConfirmations address expected required).run w.node s =
      some (.ok (reported address expected required w.txs), (s.next w.view).2) := by
  have hcheck : BitcoinClient.checkForFork.run w.node s = some (.ok false, (s.next w.view).2) := by
    rw [bitcoin_checkForFork_run, hfork]
  rw [NodeClient.run, checkPaymentWithConfirmations, solo_bind_ok hcheck]
  change w.node.machine.solo () (getIncomingTransfers address >>= _) _ = _
  rw [getIncomingTransfers, bind_bind, solo_bind_ok (w.list address _)]
  change w.node.machine.solo () (match ((w.txs.filter fun tx => tx.address = some address).filterMap
    incomingTransfer).find? (·.pays address expected required) with
      | some transfer => pure (transfer.status address)
      | none => pure notReceived : NodeClient BitcoinMemory PaymentStatus) _ = _
  unfold reported
  cases ((w.txs.filter fun tx => tx.address = some address).filterMap
    incomingTransfer).find? (·.pays address expected required) with
  | some transfer => rfl
  | none => rfl

end BtcPaymentClient

namespace Sample

open MoneroViewOnlyClient

/-- A transaction of 2 XMR. -/
def tx (type : String) (height : Nat) : Value :=
  object [("type", ofString type), ("amount", .int 2000000000000), ("height", .int height)]

/-- A wallet at height 100. -/
def wallet (txs : List Value) : MoneroWallet :=
  .ofView (chain 'a' 100) fun _ => object [("transactions", .arr txs)]

theorem transactions_of (txs : List Value) (address : String) :
    transactions ((MoneroWallet.ofView (chain 'a' 100) fun _ =>
      object [("transactions", .arr txs)]).result address) = txs := transactions_object txs

end Sample

open Sample MoneroViewOnlyClient in
/-- Two deep payments and one that is too small. -/
theorem xmr_decision_exact_sample :
    Exact (wallet [tx "in" 80, tx "in" 90, tx "out" 99]) .initial "4A" 1000000000000 10 := by
  refine (xmr_decision_exact_iff _ _ rfl _ _ (by decide)).mpr (.inl ⟨?_, ?_⟩)
  · rw [wallet, transactions_of]
    decide
  · exact ⟨tx "in" 80, by rw [wallet, transactions_of]; exact List.mem_cons_self, by decide⟩

open Sample MoneroViewOnlyClient in
/-- What the client reports wrongly: a payment in the pool (its height is 0), a payment of another
type, and, if a payment that has just arrived is listed first, not the one that is long confirmed. -/
theorem xmr_decision_inexact :
    ¬ Exact (wallet [tx "in" 0]) .initial "4A" 1000000000000 10 ∧
      ¬ Exact (wallet [tx "pending" 80]) .initial "4A" 1000000000000 10 ∧
      ¬ Exact (wallet [tx "in" 99, tx "in" 80]) .initial "4A" 1000000000000 10 := by
  have hreceived : ∀ txs, Received (wallet txs) .initial "4A" 1000000000000 10 ↔
      Reports "4A" 100 1000000000000 10 txs := fun txs => by
    rw [received_iff _ rfl, wallet, transactions_of]
    rfl
  have hlisted : ∀ txs, MoneroViewOnlyClient.Listed (wallet txs) "4A" 1000000000000 10 ↔
      ∃ tx ∈ txs, Confirms 100 1000000000000 10 tx := fun txs => by
    rw [MoneroViewOnlyClient.Listed, wallet, transactions_of]
    rfl
  unfold Exact
  rw [hreceived, hreceived, hreceived, hlisted, hlisted, hlisted]
  refine ⟨fun h => absurd h.1 ?_, fun h => absurd h.1 ?_, fun h => absurd h.1 ?_⟩
  · decide
  · decide
  · decide

end TorMarketplace
