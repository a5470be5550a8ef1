import TorMarketplace.Lib.Rounding
import TorMarketplace.Proof.Payments
import TorMarketplace.Proof.SettlementTx

/-!
# Amounts of the Bitcoin node

The node writes an amount in bitcoin, the client reads a double and `btc_f64_to_sats` makes satoshis of
it. Both steps round, and no amount that can exist is changed by them: the payment decision and the
settlement are about the satoshis that the reply says, exactly.
-/

namespace TorMarketplace

open Encoding Forks Interleave Json Prog Result Serde

/-- All the bitcoin there is, in satoshis. -/
def maxMoney : Nat := 2100000000000000

/-- `sats_to_btc_f64`. -/
def satsToBtcF64 (sats : UInt64) : Rat := F64.nearest (F64.nearest sats.toNat / 100000000)

namespace BtcPaymentClient

theorem toSats_nearest {sats : Nat} (h : sats < 2 ^ 51) :
    toSats (F64.nearest (sats / 100000000)) = UInt64.ofNat sats := by
  have hunits := F64.roundToU64_mul_nearest (c := 100000000) h (by norm_num) (by norm_num)
  rwa [show ((100000000 : Nat) : Rat) = 100000000 by norm_num] at hunits

theorem toSats_nonpos {amount : Rat} (h : amount ≤ 0) : toSats amount = 0 :=
  F64.roundToU64_nonpos (F64.nearest_nonpos (mul_nonpos_of_nonpos_of_nonneg h (by norm_num)))

/-- **There and back.** `btc_f64_to_sats` undoes `sats_to_btc_f64` on every amount below `2 ^ 51`. -/
theorem toSats_satsToBtcF64 {sats : UInt64} (h : sats.toNat < 2 ^ 51) :
    toSats (satsToBtcF64 sats) = sats := by
  rw [satsToBtcF64, F64.nearest_natCast (by omega), toSats_nearest h, UInt64.ofNat_toNat]

/-- Half of what exists. -/
theorem toSats_satsToBtcF64_half :
    toSats (satsToBtcF64 1050000000000000) = 1050000000000000 :=
  toSats_satsToBtcF64 (by decide)

end BtcPaymentClient

/-! ## What a reply says -/

/-- The amount in field `i` of the `n` of an entry, as the reply writes it, is `sats` satoshis. -/
structure SaysSats (n i : Nat) (item : Value) (sats : Int) : Prop where
  written : ((source n item).bind fun s => s.field i "amount" F64.exact) = some (sats / 100000000 : Rat)
  possible : sats.natAbs ≤ maxMoney

theorem field_eq_some {α : Type} {s : Source} {i : Nat} {name : String} {read : Value → Option α}
    {a : α} : s.field i name read = some a ↔ ∃ v, s.given i name = some (some v) ∧ read v = some a := by
  unfold Source.field
  split
  · rename_i v hv
    simp [hv]
  · rename_i hno
    simp only [reduceCtorEq, false_iff]
    rintro ⟨v, hv, -⟩
    exact hno v hv

/-- The double that is read is the one nearest to what is written. -/
theorem SaysSats.read {n i : Nat} {item : Value} {sats : Int} (h : SaysSats n i item sats) {s : Source}
    (hs : source n item = some s) {amount : Rat} (hread : s.field i "amount" F64.read = some amount) :
    amount = F64.nearest (sats / 100000000) := by
  have hwritten := h.written
  rw [hs, Option.bind_some] at hwritten
  obtain ⟨v, hv, hexact⟩ := field_eq_some.mp hwritten
  obtain ⟨v', hv', hval⟩ := field_eq_some.mp hread
  obtain rfl : v = v' := by
    rw [hv] at hv'
    exact Option.some.inj (Option.some.inj hv')
  exact F64.read_eq_nearest hexact hval

namespace SaysSats

variable {n i : Nat} {item : Value} {sats : Int}

/-- The satoshis of the amount that is read. -/
theorem toSats (h : SaysSats n i item sats) :
    BtcPaymentClient.toSats (F64.nearest ((sats : Rat) / 100000000)) = UInt64.ofNat sats.toNat := by
  have hlt := h.possible
  unfold maxMoney at hlt
  rcases Int.le_total 0 sats with hsats | hsats
  · obtain ⟨k, rfl⟩ := Int.eq_ofNat_of_zero_le hsats
    rw [Int.cast_natCast, Int.toNat_natCast]
    exact BtcPaymentClient.toSats_nearest (by omega)
  · have hneg : (sats : Rat) / 100000000 ≤ 0 :=
      div_nonpos_of_nonpos_of_nonneg (by exact_mod_cast hsats) (by norm_num)
    rw [BtcPaymentClient.toSats_nonpos (F64.nearest_nonpos hneg), Int.toNat_of_nonpos hsats]
    rfl

/-- The sign of the amount that is read. -/
theorem pos_iff (h : SaysSats n i item sats) :
    0 < F64.nearest ((sats : Rat) / 100000000) ↔ 0 < sats := by
  have hlt := h.possible
  unfold maxMoney at hlt
  constructor
  · intro hpos
    by_contra hsats
    refine absurd (F64.nearest_nonpos ?_) (not_le.mpr hpos)
    exact div_nonpos_of_nonpos_of_nonneg (by exact_mod_cast not_lt.mp hsats) (by norm_num)
  · intro hpos
    by_contra hnot
    have hzero := congrArg UInt64.toNat
      (h.toSats.symm.trans (BtcPaymentClient.toSats_nonpos (not_lt.mp hnot)))
    rw [UInt64.toNat_ofNat_of_lt' (by unfold UInt64.size; omega), UInt64.toNat_zero] at hzero
    omega

end SaysSats

theorem readVec_eq_some {α : Type} {read : Value → Option α} {items : List Value} {l : List α} :
    readVec read (.arr items) = some l ↔ List.Forall₂ (fun v a => read v = some a) items l := by
  unfold readVec
  dsimp only
  induction items generalizing l with
  | nil => rw [List.mapM_nil, List.forall₂_nil_left_iff, Option.pure_def, Option.some.injEq, eq_comm]
  | cons v items ih =>
    simp only [List.mapM_cons, Option.bind_eq_bind, Option.bind_eq_some_iff, Option.pure_def,
      Option.some.injEq]
    constructor
    · rintro ⟨a, ha, l', hl', rfl⟩
      exact .cons ha (ih.mp hl')
    · intro h
      cases h with
      | cons ha hl => exact ⟨_, ha, _, ih.mpr hl, rfl⟩

theorem forall₂_mem {α β : Type} {R : α → β → Prop} {l : List α} {l' : List β}
    (h : List.Forall₂ R l l') : (∀ a ∈ l, ∃ b ∈ l', R a b) ∧ ∀ b ∈ l', ∃ a ∈ l, R a b := by
  induction h with
  | nil => simp
  | cons hr _ ih =>
    refine ⟨List.forall_mem_cons.mpr ⟨⟨_, List.mem_cons_self, hr⟩, fun a ha => ?_⟩,
      List.forall_mem_cons.mpr ⟨⟨_, List.mem_cons_self, hr⟩, fun b hb => ?_⟩⟩
    · obtain ⟨b, hb, hr⟩ := ih.1 a ha
      exact ⟨b, List.mem_cons_of_mem _ hb, hr⟩
    · obtain ⟨a, ha, hr⟩ := ih.2 b hb
      exact ⟨a, List.mem_cons_of_mem _ ha, hr⟩

/-! ## Payments -/

theorem TransactionDetail.amount_of_ofJson {item : Value} {tx : TransactionDetail}
    (h : TransactionDetail.ofJson item = some tx) :
    ∃ s, source 7 item = some s ∧ s.field 2 "amount" F64.read = some tx.amount := by
  unfold TransactionDetail.ofJson at h
  simp only [Option.bind_eq_bind, Option.bind_eq_some_iff, Option.pure_def, Option.some.injEq] at h
  obtain ⟨s, hs, _, _, _, _, amount, hamount, _, _, _, _, _, _, _, _, rfl⟩ := h
  exact ⟨s, hs, hamount⟩

/-- The listed transaction pays the address: what the reply says, in satoshis. -/
structure ListedPayment (address : String) (expected required : UInt64) (item : Value) (sats : Int)
    (tx : TransactionDetail) : Prop where
  read : TransactionDetail.ofJson item = some tx
  address : tx.address = some address
  dust : (546 : Int) ≤ sats
  enough : (expected.toNat : Int) ≤ sats
  confirmations : 0 < tx.confirmations ∧
    required ≤ tx.confirmations.toInt.toNat.toUInt32.toUInt64

section Payments

variable {address : String} {expected required : UInt64}

/-- The client counts what pays, and counts it to the satoshi. -/
theorem SaysSats.counts {item : Value} {sats : Int} {tx : TransactionDetail}
    (h : SaysSats 7 2 item sats) (hread : TransactionDetail.ofJson item = some tx)
    (address : String) (expected required : UInt64) :
    (BtcPaymentClient.Counts address expected required tx ↔
      ListedPayment address expected required item sats tx) ∧
      BtcPaymentClient.toSats tx.amount = UInt64.ofNat sats.toNat := by
  obtain ⟨s, hs, hamount⟩ := TransactionDetail.amount_of_ofJson hread
  have hval := h.read hs hamount
  have hsats := h.toSats
  rw [← hval] at hsats
  have hpossible := h.possible
  unfold maxMoney at hpossible
  have hnat : (UInt64.ofNat sats.toNat).toNat = sats.toNat :=
    UInt64.toNat_ofNat_of_lt' (by unfold UInt64.size; omega)
  have hdust : dustThresholdSats.toNat = 546 := rfl
  refine ⟨⟨fun hc => ?_, fun hp => ?_⟩, hsats⟩
  · obtain ⟨hpos, hdust', henough⟩ := hc.amount
    rw [hval, h.pos_iff] at hpos
    rw [hsats, UInt64.le_iff_toNat_le, hnat] at hdust' henough
    exact ⟨hread, hc.address, by omega, by omega, hc.confirmations⟩
  · have hpos := hp.dust
    have henough := hp.enough
    refine ⟨hp.address, ⟨?_, ?_, ?_⟩, hp.confirmations⟩
    · rw [hval, h.pos_iff]
      omega
    · rw [hsats, UInt64.le_iff_toNat_le, hnat]
      omega
    · rw [hsats, UInt64.le_iff_toNat_le, hnat]
      omega

/-- What is reported as received is the amount of something that counts. -/
theorem BtcPaymentClient.reported_amount {txs : List TransactionDetail} (hpos : 0 < expected)
    (h : (reported address expected required txs).received = true) :
    ∃ tx ∈ txs, Counts address expected required tx ∧
      (reported address expected required txs).amount = toSats tx.amount := by
  unfold reported at h ⊢
  cases hfind : ((txs.filter fun tx => tx.address = some address).filterMap
    incomingTransfer).find? (·.pays address expected required) with
  | none => simp [hfind, notReceived] at h
  | some t =>
    have hpays := List.find?_some hfind
    obtain ⟨tx, htx, ht⟩ := List.mem_filterMap.mp (List.mem_of_find?_eq_some hfind)
    obtain ⟨hmem, haddress⟩ := List.mem_filter.mp htx
    refine ⟨tx, hmem, (incomingTransfer_pays hpos (of_decide_eq_true haddress)).mp ⟨t, ht, hpays⟩, ?_⟩
    unfold incomingTransfer at ht
    split at ht
    · exact absurd ht (by simp)
    split at ht
    · exact absurd ht (by simp)
    dsimp only at ht
    split at ht
    · exact absurd ht (by simp)
    obtain ⟨_, _, rfl⟩ := Option.map_eq_some_iff.mp ht
    rfl

end Payments

namespace AmountSample

/-- What the node lists, in its eight decimals: 0.29 BTC and what was sent elsewhere. -/
def items : List Value :=
  [object
    [("txid", ofString "f1"), ("address", ofString "bcrt1qescrow"), ("amount", .float (utf8 "0.29000000")),
      ("confirmations", .int 6), ("time", .int 1690000000)],
   object
    [("txid", ofString "f2"), ("address", ofString "bcrt1qother"), ("amount", .float (utf8 "-1.10000000")),
      ("confirmations", .int 9), ("time", .int 1690000000)]]

def txs : List TransactionDetail :=
  [⟨"f1", some "bcrt1qescrow", F64.nearest (29 / 100), none, 6, 1690000000, none⟩,
    ⟨"f2", some "bcrt1qother", F64.nearest (-11 / 10), none, 9, 1690000000, none⟩]

theorem readVec_items : readVec TransactionDetail.ofJson (.arr items) = some txs := by decide +kernel

def sats (item : Value) : Int :=
  if (TransactionDetail.ofJson item).any (·.txid = "f1") then 29000000 else -110000000

theorem stated (item : Value) (h : item ∈ items) : SaysSats 7 2 item (sats item) := by
  obtain rfl | rfl : item = items[0] ∨ item = items[1] := by simpa [items] using h
  · exact ⟨by decide +kernel, by decide +kernel⟩
  · exact ⟨by decide +kernel, by decide +kernel⟩

end AmountSample

theorem ListUnspentEntry.amount_of_ofJson {item : Value} {u : ListUnspentEntry}
    (h : ListUnspentEntry.ofJson item = some u) :
    ∃ s, source 5 item = some s ∧ s.field 3 "amount" F64.read = some u.amount := by
  unfold ListUnspentEntry.ofJson at h
  simp only [Option.bind_eq_bind, Option.bind_eq_some_iff, Option.pure_def, Option.some.injEq] at h
  obtain ⟨s, hs, _, _, _, _, _, _, amount, hamount, _, _, rfl⟩ := h
  exact ⟨s, hs, hamount⟩

/-- The entry is a confirmed output. -/
def confirmedItem (item : Value) : Bool :=
  (ListUnspentEntry.ofJson item).any fun u => u.confirmations > 0

/-- What is spent, in all, is what the reply says of the confirmed outputs. -/
theorem utxoSum_confirmedEntries {items : List Value} {utxos : List ListUnspentEntry}
    (h : List.Forall₂ (fun v u => ListUnspentEntry.ofJson v = some u) items utxos) (sats : Value → Int)
    (hstated : ∀ item ∈ items, SaysSats 5 3 item (sats item)) :
    utxoSum (StealthEscrow.confirmedEntries utxos) =
      ((items.filter confirmedItem).map fun item => (sats item).toNat).sum := by
  induction h with
  | nil => rfl
  | @cons item u items utxos hdecode hrest ih =>
    obtain ⟨hitem, hitems⟩ := List.forall_mem_cons.mp hstated
    obtain ⟨s, hs, hamount⟩ := ListUnspentEntry.amount_of_ofJson hdecode
    have hsats := hitem.toSats
    rw [← hitem.read hs hamount] at hsats
    have hpossible := hitem.possible
    unfold maxMoney at hpossible
    have hnat : (BtcPaymentClient.toSats u.amount).toNat = (sats item).toNat := by
      rw [hsats, UInt64.toNat_ofNat_of_lt' (by unfold UInt64.size; omega)]
    specialize ih hitems
    have hconfirmed : confirmedItem item = decide (u.confirmations > 0) := by
      rw [confirmedItem, hdecode, Option.any_some]
    unfold utxoSum StealthEscrow.confirmedEntries at ih ⊢
    rw [List.filter_cons, List.filter_cons, hconfirmed]
    split
    · simp only [List.map_cons, List.sum_cons, hnat, ih]
    · exact ih

open BitcoinClient in
/-- The wallet replied with `items` for `address`, which are read as `utxos`. -/
def ListedItems (past : List (Reply (Rpc BitcoinMemory))) (address : String) (items : List Value)
    (utxos : List ListUnspentEntry) : Prop :=
  ∃ json, ⟨.send "listunspent" (.arr [.int 0, .int 9999999, ofVec ofString [address]]), some json⟩ ∈ past ∧
    readR asArray (index json "result") = some items ∧
    readVec ListUnspentEntry.ofJson (.arr items) = some utxos

theorem Listed.items {past : List (Reply (Rpc BitcoinMemory))} {address : String}
    {utxos : List ListUnspentEntry} (h : Listed past address utxos) :
    ∃ items, ListedItems past address items utxos := by
  obtain ⟨json, hmem, hread⟩ := h
  unfold BitcoinClient.readR at hread
  simp only [Option.bind_eq_bind, Option.bind_eq_some_iff] at hread
  obtain ⟨s, hs, hfield⟩ := hread
  obtain ⟨v, hv, hread⟩ := field_eq_some.mp hfield
  cases v with
  | arr items =>
    refine ⟨items, json, hmem, ?_, hread⟩
    unfold BitcoinClient.readR
    simp only [Option.bind_eq_bind, Option.bind_eq_some_iff]
    exact ⟨s, hs, field_eq_some.mpr ⟨_, hv, rfl⟩⟩
  | null => exact absurd hread (by simp [readVec])
  | bool b => exact absurd hread (by simp [readVec])
  | int n => exact absurd hread (by simp [readVec])
  | float t => exact absurd hread (by simp [readVec])
  | str t => exact absurd hread (by simp [readVec])
  | obj ms => exact absurd hread (by simp [readVec])

open StealthEscrow in
/-- **A settlement pays out what is there, to the satoshi.** Whatever the node replies in whatever
decimals: what `settle_stealth_order` broadcasts pays exactly the satoshis that the reply gives for the
confirmed outputs at the address. -/
theorem settlement_exact (P : Primitives) (B : Bitcoin) (cfg : SettleConfig) (orderId : Bytes)
    (data : OrderData) :
    Spec (fun _ _ => True) (fun past c => ∀ params,
        c = (.send "sendrawtransaction" params : RpcCall BitcoinMemory) →
        ∃ network address items utxos tx, ListedItems past address items utxos ∧
          settlementTx P B cfg orderId data network address utxos = .ok tx ∧
          params = .arr [ofString (B.serializeHex tx)] ∧
          ∀ sats : Value → Int, (∀ item ∈ items, SaysSats 5 3 item (sats item)) →
            tx.outputSum = ((items.filter confirmedItem).map fun item => (sats item).toNat).sum)
      (OnOk fun _ _ => True) [] (StealthEscrow.settleStealthOrder P B cfg orderId data) := by
  refine spec_mono (fun past c hcall params hc => ?_) (fun _ _ h => h) settleStealthOrder_spec
  obtain ⟨network, address, utxos, tx, hlisted, htx, hparams⟩ := hcall params hc
  obtain ⟨items, hitems⟩ := hlisted.items
  refine ⟨network, address, items, utxos, tx, hitems, htx, hparams, fun sats hstated => ?_⟩
  obtain ⟨_, _, _, hread⟩ := hitems
  rw [settlementTx_outputSum htx, utxoSum_confirmedEntries (readVec_eq_some.mp hread) sats hstated]

end TorMarketplace
