import TorMarketplace.Proof.SettlementTx
import TorMarketplace.Services.Payments.Coinswap

/-!
# CoinSwap chains

What `run_coinswap_chain` broadcasts. A hop is taken apart into what it checks and the transaction it
signs (`hopTx_eq_ok`); `swapHops_spec` carries the loop's six variables along: the transaction of a
hop spends the first output of the one before it with the key of that output.
-/

namespace TorMarketplace

open Encoding Interleave Json Prog Result Serde

/-! ## One hop -/

section Hop

variable {P : Primitives} {B : Bitcoin} {plan : SwapPlan}

/-- The transaction of a hop before it is signed. -/
def hopUnsigned (prev : OutPoint) (paid : TxOut) : Transaction :=
  ⟨1, 0, [spendInput prev.txid prev.vout], [paid]⟩

/-- The hop that spends `spent` at `prev` with the key `sk`. -/
def hopSigned (B : Bitcoin) (prev : OutPoint) (spent : TxOut) (sk : Bytes) (paid : TxOut) : Transaction :=
  let digest := B.sighash (hopUnsigned prev paid) 0 spent.scriptPubkey spent.value
  { hopUnsigned prev paid with
    input := [⟨prev, [], 0xffffffff, [B.signatureToVec ⟨B.signEcdsa digest sk, 1⟩, B.publicKey sk]⟩] }

/-- `extract_tx` does not take the fee for a mistake. -/
def FeeAccepted (B : Bitcoin) (fee : Nat) (tx : Transaction) : Prop :=
  min (fee * 1000) (2 ^ 64 - 1) / B.weight tx ≤ defaultMaxFeeRate

instance {fee : Nat} {tx : Transaction} : Decidable (FeeAccepted B fee tx) :=
  inferInstanceAs (Decidable (_ ≤ _))

theorem saturatingSub_toNat (a b : UInt64) : (saturatingSub a b).toNat = a.toNat - b.toNat := by
  unfold saturatingSub
  split
  case isTrue h =>
    rw [UInt64.lt_iff_toNat_lt] at h
    rw [show (0 : UInt64).toNat = 0 from rfl]
    omega
  case isFalse h =>
    rw [UInt64.lt_iff_toNat_lt] at h
    exact UInt64.toNat_sub_of_le _ _ (UInt64.le_iff_toNat_le.mpr (by omega))

/-- What a hop pays: the fee is taken exactly where the dust check lets it pass. -/
theorem dust_iff {amount fee : UInt64} :
    ¬ saturatingSub amount fee < dustSats ↔ fee.toNat + 546 ≤ amount.toNat := by
  rw [UInt64.lt_iff_toNat_lt, saturatingSub_toNat, show dustSats.toNat = 546 from rfl]
  omega

/-- **The inversion of the builder.** -/
theorem buildSelfTransfer_eq_ok {prevTxid prevAddress nextAddress : String} {prevVout : UInt32}
    {amount fee : UInt64} {network : Network} {psbt : Psbt} :
    buildSelfTransferPsbt B prevTxid prevVout amount prevAddress nextAddress fee network = .ok psbt ↔
      ∃ txid nextScript prevScript, txidFromStr prevTxid = some txid ∧
        addressScript B network nextAddress = some nextScript ∧
        addressScript B network prevAddress = some prevScript ∧ fee.toNat + 546 ≤ amount.toNat ∧
        psbt = ⟨hopUnsigned ⟨txid, prevVout⟩ ⟨saturatingSub amount fee, nextScript⟩,
          [{ witnessUtxo := some ⟨amount, prevScript⟩ }]⟩ := by
  unfold buildSelfTransferPsbt swapAddress
  simp only [bind_eq_ok, okOr_eq_ok, checkedAddress_eq_ok, errorIf_eq_ok, pure_eq_ok,
    decide_eq_false_iff_not, dust_iff]
  constructor
  · rintro ⟨txid, htxid, nextScript, hnext, prevScript, hprev, _, hdust, _, hpsbt, rfl⟩
    obtain rfl := Option.some.inj hpsbt
    exact ⟨txid, nextScript, prevScript, htxid, hnext, hprev, hdust, rfl⟩
  · rintro ⟨txid, nextScript, prevScript, htxid, hnext, hprev, hdust, rfl⟩
    exact ⟨txid, htxid, nextScript, hnext, prevScript, hprev, (), hdust, _, rfl, rfl⟩

/-- Finalizing the one input of a hop: only the fee is still looked at. -/
theorem finalizeHop_eq_ok {prev : OutPoint} {spent paid : TxOut} {sk : Bytes} {tx : Transaction}
    {sig : EcdsaSignature} (hle : paid.value.toNat ≤ spent.value.toNat) :
    finalizeStealthTx B ⟨hopUnsigned prev paid,
        [{ witnessUtxo := some spent, partialSigs := [(B.publicKey sk, sig)] }]⟩ = .ok tx ↔
      FeeAccepted B (spent.value.toNat - paid.value.toNat) tx ∧
      tx = { hopUnsigned prev paid with
        input := [⟨prev, [], 0xffffffff, [B.signatureToVec sig, B.publicKey sk]⟩] } := by
  let input : PsbtInput :=
    { witnessUtxo := some spent
      partialSigs := [(B.publicKey sk, sig)]
      finalScriptWitness := some [B.signatureToVec sig, B.publicKey sk] }
  let final : Psbt := ⟨hopUnsigned prev paid, [input]⟩
  have hsum : (hopUnsigned prev paid).outputSum = paid.value.toNat := Nat.add_zero _
  have hfee : final.fee = some (spent.value.toNat - paid.value.toNat) := by
    have hlt := spent.value.toNat_lt
    have hlt' := paid.value.toNat_lt
    change (if [spent.value.toNat].sum < 2 ^ 64 ∧ (hopUnsigned prev paid).outputSum < 2 ^ 64 ∧
      (hopUnsigned prev paid).outputSum ≤ [spent.value.toNat].sum then
        some ([spent.value.toNat].sum - (hopUnsigned prev paid).outputSum) else none) = _
    rw [hsum, List.sum_singleton, if_pos ⟨hlt, hlt', hle⟩]
  have hextract : finalizeStealthTx B ⟨hopUnsigned prev paid,
      [{ witnessUtxo := some spent, partialSigs := [(B.publicKey sk, sig)] }]⟩ =
      okOr (Psbt.extractTx B final) (anyhow "PSBT extract failed") := rfl
  rw [hextract, okOr_eq_ok, Psbt.extractTx, hfee]
  change (if _ > defaultMaxFeeRate then none else some final.finalTx) = some tx ↔ _
  constructor
  · intro h
    split at h
    case isTrue => exact absurd h (by simp)
    case isFalse hrate =>
      obtain rfl := Option.some.inj h
      exact ⟨Nat.le_of_not_lt hrate, rfl⟩
  · rintro ⟨hrate, rfl⟩
    exact if_neg (Nat.not_lt_of_le hrate)

/-- **The inversion of a hop**: its checks, and the transaction it signs. -/
theorem hopTx_eq_ok {s : HopState} {nextAddress : String} {tx : Transaction} :
    hopTx B plan s nextAddress = .ok tx ↔ ∃ txid nextScript prevScript,
      txidFromStr s.prevTxid = some txid ∧
      addressScript B plan.config.network nextAddress = some nextScript ∧
      addressScript B plan.config.network s.prevAddress = some prevScript ∧
      plan.config.feeSatsPerHop.toNat + 546 ≤ s.prevAmount.toNat ∧
      B.publicKey s.currentSk = s.currentPk ∧ isP2wpkh prevScript ∧
      FeeAccepted B plan.config.feeSatsPerHop.toNat tx ∧
      tx = hopSigned B ⟨txid, s.prevVout⟩ ⟨s.prevAmount, prevScript⟩ s.currentSk
        ⟨saturatingSub s.prevAmount plan.config.feeSatsPerHop, nextScript⟩ := by
  have hpays {amount fee : UInt64} (hdust : fee.toNat + 546 ≤ amount.toNat) :
      (saturatingSub amount fee).toNat ≤ amount.toNat ∧
        amount.toNat - (saturatingSub amount fee).toNat = fee.toNat := by
    rw [saturatingSub_toNat]
    omega
  unfold hopTx
  simp only [bind_eq_ok, buildSelfTransfer_eq_ok]
  constructor
  · rintro ⟨_, ⟨txid, nextScript, prevScript, htxid, hnext, hprev, hdust, rfl⟩, signed, hsigned, hfinal⟩
    obtain ⟨input, spent, msg, hinput, hpk, hspent, hscript, hmsg, rfl⟩ :=
      signStealthInput_eq_ok hsigned
    obtain rfl := Option.some.inj hinput
    obtain rfl := Option.some.inj hspent
    obtain rfl := Option.some.inj ((if_pos ⟨Nat.zero_lt_one, hscript⟩).symm.trans hmsg)
    rw [← hpk] at hfinal
    obtain ⟨hfee, htx⟩ := (finalizeHop_eq_ok (hpays hdust).1).mp hfinal
    rw [(hpays hdust).2] at hfee
    exact ⟨txid, nextScript, prevScript, htxid, hnext, hprev, hdust, hpk, hscript, hfee, htx⟩
  · rintro ⟨txid, nextScript, prevScript, htxid, hnext, hprev, hdust, hpk, hscript, hfee, htx⟩
    have hsigned := @signStealthInput_ok B s.currentSk prevScript
      (hopUnsigned ⟨txid, s.prevVout⟩
        ⟨saturatingSub s.prevAmount plan.config.feeSatsPerHop, nextScript⟩)
      [{ witnessUtxo := some ⟨s.prevAmount, prevScript⟩ }] 0 ⟨s.prevTxid, s.prevVout, s.prevAmount⟩ rfl
      Nat.zero_lt_one hscript
    rw [hpk] at hsigned
    rw [← (hpays hdust).2] at hfee
    refine ⟨_, ⟨txid, nextScript, prevScript, htxid, hnext, hprev, hdust, rfl⟩, _, hsigned, ?_⟩
    exact (finalizeHop_eq_ok (hpays hdust).1).mpr ⟨hfee, htx⟩

/-- What a hop goes to: a fresh key's address, or the final one. -/
theorem nextHop_eq_ok {hop : Nat} {next : Option Bytes × String} :
    nextHop P B plan hop = .ok next ↔
      ∃ key, hopKey P plan.masterSeed plan.chainSeed (UInt64.ofNat hop) = some key ∧
        if plan.isLast hop then
          (∃ script, addressScript B plan.config.network plan.finalAddress = some script) ∧
            (none, plan.finalAddress) = next
        else (some key, B.p2wpkhAddress (B.publicKey key) plan.config.network) = next := by
  unfold nextHop
  simp only [bind_eq_ok, okOr_eq_ok]
  refine exists_congr fun key => and_congr_right fun _ => ?_
  cases plan.isLast hop with
  | true =>
    simp only [if_true, bind_eq_ok, swapAddress, checkedAddress_eq_ok, pure_eq_ok, exists_and_right]
  | false =>
    simp only [if_false, Bool.false_eq_true, pure_eq_ok]
    rfl

end Hop

/-! ## The chain -/

section Chain

variable {P : Primitives} {B : Bitcoin} {plan : SwapPlan}

/-- `tx` spends `spent`, which stands at `prev`, with the key of its script, and pays it on less the
fee. -/
structure HopOf (B : Bitcoin) (fee : Nat) (prev : OutPoint) (spent : TxOut) (sk : Bytes) (paid : TxOut)
    (tx : Transaction) : Prop where
  script : spent.scriptPubkey = p2wpkhScript (B.hash160 (B.publicKey sk))
  amount : paid.value.toNat + fee = spent.value.toNat
  dust : 546 ≤ paid.value.toNat
  signed : tx = hopSigned B prev spent sk paid

theorem HopOf.outputSum {fee : Nat} {prev : OutPoint} {spent paid : TxOut} {sk : Bytes}
    {tx : Transaction} (h : HopOf B fee prev spent sk paid tx) : tx.outputSum = paid.value.toNat := by
  rw [h.signed]
  exact Nat.add_zero _

/-- Transactions each of which spends the first output of the one before it; the last one pays the
final address. -/
inductive SwapChain (B : Bitcoin) (plan : SwapPlan) :
    OutPoint → TxOut → Bytes → List Transaction → Prop where
  | last {prev : OutPoint} {spent paid : TxOut} {sk : Bytes} {tx : Transaction}
      (h : HopOf B plan.config.feeSatsPerHop.toNat prev spent sk paid tx)
      (hfinal : addressScript B plan.config.network plan.finalAddress = some paid.scriptPubkey) :
      SwapChain B plan prev spent sk [tx]
  | hop {prev : OutPoint} {spent paid : TxOut} {sk sk' : Bytes} {tx : Transaction}
      {txs : List Transaction} (h : HopOf B plan.config.feeSatsPerHop.toNat prev spent sk paid tx)
      (rest : SwapChain B plan ⟨B.txid tx, 0⟩ paid sk' txs) :
      SwapChain B plan prev spent sk (tx :: txs)

/-- **The amounts of a chain**: the fee of a hop is taken once for each hop up to it. -/
theorem SwapChain.amount {prev : OutPoint} {spent : TxOut} {sk : Bytes} {txs : List Transaction}
    (h : SwapChain B plan prev spent sk txs) {i : Nat} {tx : Transaction} (htx : txs[i]? = some tx) :
    tx.outputSum + (i + 1) * plan.config.feeSatsPerHop.toNat = spent.value.toNat ∧ 546 ≤ tx.outputSum := by
  induction h generalizing i with
  | @last prev spent paid sk tx' h _ =>
    cases i with
    | zero =>
      obtain rfl := Option.some.inj htx
      have hsum := h.outputSum
      have := h.amount
      have := h.dust
      omega
    | succ i => exact absurd htx (by simp)
  | @hop prev spent paid sk sk' tx' txs h _ ih =>
    have hamount := h.amount
    cases i with
    | zero =>
      obtain rfl := Option.some.inj htx
      have hsum := h.outputSum
      have := h.dust
      omega
    | succ i =>
      obtain ⟨hrest, hdust⟩ := ih htx
      refine ⟨?_, hdust⟩
      rw [Nat.add_mul _ 1, Nat.one_mul]
      omega

/-- What a run has broadcast. -/
def sentTransactions (past : List (Reply (Rpc BitcoinMemory))) : List Value :=
  past.filterMap fun r =>
    match r.1 with
    | .send "sendrawtransaction" params => some params
    | _ => none

/-- A node that takes a transaction returns its txid. -/
def RepliesTxid (B : Bitcoin) (c : RpcCall BitcoinMemory) (a : c.Ans) : Prop :=
  ∀ tx json, (⟨c, a⟩ : Reply (Rpc BitcoinMemory)) =
      ⟨.send "sendrawtransaction" (.arr [ofString (B.serializeHex tx)]), some json⟩ →
    ErrorFree json → readString (index json "result") = some (txidString (B.txid tx))

/-- The state of the loop before a hop: the output at `prev` is paid to the key it holds. -/
structure HopState.Holds (B : Bitcoin) (plan : SwapPlan) (s : HopState) (prev : OutPoint) : Prop where
  txid : txidFromStr s.prevTxid = some prev.txid
  vout : s.prevVout = prev.vout
  address : addressScript B plan.config.network s.prevAddress =
    some (p2wpkhScript (B.hash160 (B.publicKey s.currentSk)))

/-- What the loop has its state spend. -/
def HopState.spent (B : Bitcoin) (s : HopState) : TxOut :=
  ⟨s.prevAmount, p2wpkhScript (B.hash160 (B.publicKey s.currentSk))⟩

theorem broadcastPsbt_spec {past : List (Reply (Rpc BitcoinMemory))} {tx : Transaction} :
    Spec (RepliesTxid B) (fun _ _ => True) (OnOk fun past' txid => sentTransactions past' =
        sentTransactions past ++ [.arr [ofString (B.serializeHex tx)]] ∧ txid = txidString (B.txid tx))
      past (broadcastPsbt (B.serializeHex tx)) := by
  refine spec_seq_onOk (rpcCall_spec trivial) fun past' result _ hresult => ?_
  obtain ⟨json, rfl, hreply, haccepted, rfl⟩ := hresult
  rw [spec_orFail, hreply tx json rfl haccepted]
  refine ⟨fun _ => trivial, fun txid htxid => ⟨?_, (Option.some.inj htxid).symm⟩⟩
  rw [sentTransactions, List.filterMap_append]
  rfl

/-- A hop that was signed spends what the state holds. -/
theorem hopOf_of_tx {s : HopState} {prev : OutPoint} {nextAddress : String} {tx : Transaction}
    (hs : s.Holds B plan prev) (h : hopTx B plan s nextAddress = .ok tx) :
    ∃ script, addressScript B plan.config.network nextAddress = some script ∧
      HopOf B plan.config.feeSatsPerHop.toNat prev (s.spent B) s.currentSk
        ⟨saturatingSub s.prevAmount plan.config.feeSatsPerHop, script⟩ tx := by
  obtain ⟨txid, script, prevScript, htxid, hscript, hprev, hdust, _, _, _, rfl⟩ := hopTx_eq_ok.mp h
  obtain rfl := Option.some.inj (hs.txid.symm.trans htxid)
  obtain rfl := Option.some.inj (hs.address.symm.trans hprev)
  refine ⟨script, hscript, rfl, ?_, ?_, ?_⟩
  · change (saturatingSub _ _).toNat + _ = s.prevAmount.toNat
    rw [saturatingSub_toNat]
    omega
  · change 546 ≤ (saturatingSub _ _).toNat
    rw [saturatingSub_toNat]
    omega
  · rw [hs.vout]
    rfl

/-- **The loop**: from a state that holds an output, `n` hops broadcast a chain of `n` transactions
from it, and return their txids. -/
theorem swapHops_spec : ∀ (n hop : Nat) (s : HopState) (prev : OutPoint)
    (past : List (Reply (Rpc BitcoinMemory))), hop + (n + 1) = plan.config.hopCount →
    s.Holds B plan prev →
    Spec (RepliesTxid B) (fun _ _ => True) (OnOk fun past' txids => ∃ txs,
        sentTransactions past' = sentTransactions past ++ txs.map (fun tx => .arr [ofString (B.serializeHex tx)]) ∧
        txids = txs.map (fun tx => txidString (B.txid tx)) ∧ txs.length = n + 1 ∧
        SwapChain B plan prev (s.spent B) s.currentSk txs)
      past (swapHops P B plan (n + 1) hop s)
  | n, hop, s, prev, past, hhop, hs => by
    unfold swapHops
    rw [spec_ofExcept_bind]
    refine ⟨fun _ _ => trivial, ?_⟩
    rintro ⟨nextSk, nextAddress⟩ hnext
    simp only [spec_ofExcept_bind]
    refine ⟨fun _ _ => trivial, fun tx htx => ?_⟩
    obtain ⟨script, hscript, hhopOf⟩ := hopOf_of_tx hs htx
    obtain ⟨key, hkey, hnext⟩ := nextHop_eq_ok.mp hnext
    refine spec_seq_onOk broadcastPsbt_spec fun past₁ txid _ hsends => ?_
    obtain ⟨hsent, htxid⟩ := hsends
    cases n with
    | zero =>
      have hlast : plan.isLast hop = true := by
        unfold SwapPlan.isLast
        rw [decide_eq_true_iff]
        omega
      rw [if_pos hlast] at hnext
      obtain ⟨_, hnext⟩ := hnext
      obtain rfl := (Prod.mk.inj hnext).2
      refine ⟨[tx], hsent, ?_, rfl, .last hhopOf hscript⟩
      rw [htxid]
      rfl
    | succ n =>
      have hlast : plan.isLast hop ≠ true := by
        unfold SwapPlan.isLast
        rw [Ne, decide_eq_true_iff]
        omega
      rw [if_neg hlast] at hnext
      obtain ⟨rfl, rfl⟩ := Prod.mk.inj hnext
      obtain rfl := Option.some.inj (hscript.symm.trans (B.addressFromStr_p2wpkh _ _))
      have hs' : (s.advance B plan txid (some key)
          (B.p2wpkhAddress (B.publicKey key) plan.config.network)).Holds B plan ⟨B.txid tx, 0⟩ := by
        refine ⟨?_, rfl, hscript⟩
        rw [htxid]
        exact txidFromStr_txidString (B.txid_length tx)
      refine spec_seq_onOk (swapHops_spec n (hop + 1) _ _ past₁ (by omega) hs') ?_
      rintro past₂ txids - ⟨txs, hsents, rfl, hlength, hchain⟩
      refine ⟨tx :: txs, ?_, ?_, congrArg (· + 1) hlength, .hop hhopOf hchain⟩
      · rw [hsents, hsent, List.append_assoc]
        rfl
      · rw [htxid]
        rfl

/-- A first hop that is sent has read the txid it was given. -/
theorem swapHops_txid {may : (c : (Rpc BitcoinMemory).Call) → (Rpc BitcoinMemory).Ans c → Prop}
    {n hop : Nat} {s : HopState} {past : List (Reply (Rpc BitcoinMemory))} :
    Spec may (fun _ _ => True) (OnOk fun _ _ => ∃ txid, txidFromStr s.prevTxid = some txid) past
      (swapHops P B plan (n + 1) hop s) := by
  unfold swapHops
  rw [spec_ofExcept_bind]
  refine ⟨fun _ _ => trivial, fun ⟨_, _⟩ _ => ?_⟩
  simp only [spec_ofExcept_bind]
  refine ⟨fun _ _ => trivial, fun tx htx => ?_⟩
  obtain ⟨txid, _, _, htxid, _⟩ := hopTx_eq_ok.mp htx
  refine spec_of_forall (fun _ _ => trivial) fun _ r => ?_
  cases r with
  | ok _ => exact ⟨txid, htxid⟩
  | error _ => trivial

/-- **A CoinSwap chain that ends well** has broadcast one transaction a hop: each spends the first
output of the one before it with that output's key, the first the output it was given, the last one
pays the final address, and every hop takes its fee once. -/
theorem coinswap_chain {utxo : Utxo} {utxoAddress : String} {sk pk : Bytes}
    {past : List (Reply (Rpc BitcoinMemory))} {txids : List String}
    (hcount : 1 ≤ plan.config.hopCount) (hpk : B.publicKey sk = pk)
    (haddress : addressScript B plan.config.network utxoAddress = some (p2wpkhScript (B.hash160 pk)))
    (h : Yields (RepliesTxid B) [] (runCoinswapChain P B plan utxo utxoAddress sk pk) past
      (.ok txids)) :
    ∃ txid txs, txidFromStr utxo.txid = some txid ∧ txs.length = plan.config.hopCount ∧
      sentTransactions past = txs.map (fun tx => .arr [ofString (B.serializeHex tx)]) ∧
      txids = txs.map (fun tx => txidString (B.txid tx)) ∧
      SwapChain B plan ⟨txid, utxo.vout⟩ ⟨utxo.amount, p2wpkhScript (B.hash160 pk)⟩ sk txs ∧
      ∀ (i : Nat) (tx : Transaction), txs[i]? = some tx →
        tx.outputSum + (i + 1) * plan.config.feeSatsPerHop.toNat = utxo.amount.toNat ∧
          546 ≤ tx.outputSum := by
  obtain ⟨n, hn⟩ := Nat.exists_eq_add_of_le' hcount
  unfold runCoinswapChain at h
  rw [hn] at h
  obtain ⟨txid, htxid⟩ := swapHops_txid.yields h
  have hs : HopState.Holds B plan ⟨utxo.txid, utxo.vout, utxo.amount, utxoAddress, sk, pk⟩
      ⟨txid, utxo.vout⟩ := ⟨htxid, rfl, by rw [haddress, hpk]⟩
  obtain ⟨txs, hsent, htxids, hlength, hchain⟩ :=
    (swapHops_spec n 0 _ _ [] (by omega) hs).yields h
  rw [HopState.spent, hpk] at hchain
  exact ⟨txid, txs, htxid, hlength.trans hn.symm, hsent, htxids, hchain, fun _ _ => hchain.amount⟩

end Chain

/-! ## Late refusals -/

section Refusals

variable {P : Primitives} {B : Bitcoin} {plan : SwapPlan} {start : HopState}
variable {may : (c : (Rpc BitcoinMemory).Call) → (Rpc BitcoinMemory).Ans c → Prop}

/-- The errors that say something of the inputs: a key that cannot be derived, a final address that
is none, an amount too small. -/
def inputFailures : List Failure :=
  [anyhow "Invalid derived key", anyhow "Invalid address", anyhow "Final address wrong network",
    anyhow "Output below dust threshold"]

/-- What hop `i` spends. -/
def SwapPlan.amountAt (plan : SwapPlan) (amount : UInt64) : Nat → UInt64
  | 0 => amount
  | i + 1 => saturatingSub (plan.amountAt amount i) plan.config.feeSatsPerHop

theorem SwapPlan.amountAt_toNat (amount : UInt64) (i : Nat) :
    (plan.amountAt amount i).toNat = amount.toNat - i * plan.config.feeSatsPerHop.toNat := by
  induction i with
  | zero => simp [amountAt]
  | succ i ih =>
    rw [amountAt, saturatingSub_toNat, ih, Nat.add_mul, Nat.one_mul, Nat.sub_sub]

/-- The state before hop `i`, when a node has named the transaction before it in any way. -/
inductive StateAt (P : Primitives) (B : Bitcoin) (plan : SwapPlan) (start : HopState) :
    Nat → HopState → Prop
  | start : StateAt P B plan start 0 start
  | later {i : Nat} {key : Bytes} (txid : String)
      (hkey : hopKey P plan.masterSeed plan.chainSeed (UInt64.ofNat i) = some key) :
      StateAt P B plan start (i + 1) ⟨txid, 0, plan.amountAt start.prevAmount (i + 1),
        B.p2wpkhAddress (B.publicKey key) plan.config.network, key, B.publicKey key⟩

theorem StateAt.amount {i : Nat} {s : HopState} (h : StateAt P B plan start i s) :
    s.prevAmount = plan.amountAt start.prevAmount i := by
  cases h <;> rfl

/-- Hop `i` is refused for its key, for the final address or for the amount. -/
def HopRefused (P : Primitives) (B : Bitcoin) (plan : SwapPlan) (amount : UInt64) (i : Nat) : Prop :=
  hopKey P plan.masterSeed plan.chainSeed (UInt64.ofNat i) = none ∨
  (i + 1 = plan.config.hopCount ∧
    addressScript B plan.config.network plan.finalAddress = none) ∨
  amount.toNat < (i + 1) * plan.config.feeSatsPerHop.toNat + 546

/-- Hop `i` goes to a fresh key, and nothing that it checks is wrong. -/
def CanSend (P : Primitives) (B : Bitcoin) (plan : SwapPlan) (start : HopState) (i : Nat) : Prop :=
  ∃ s key txid prevScript, StateAt P B plan start i s ∧
    hopKey P plan.masterSeed plan.chainSeed (UInt64.ofNat i) = some key ∧
    txidFromStr s.prevTxid = some txid ∧
    addressScript B plan.config.network s.prevAddress = some prevScript ∧ isP2wpkh prevScript ∧
    B.publicKey s.currentSk = s.currentPk ∧
    (i + 1) * plan.config.feeSatsPerHop.toNat + 546 ≤ start.prevAmount.toNat ∧
    FeeAccepted B plan.config.feeSatsPerHop.toNat
      (hopSigned B ⟨txid, s.prevVout⟩ ⟨s.prevAmount, prevScript⟩ s.currentSk
        ⟨plan.amountAt start.prevAmount (i + 1), p2wpkhScript (B.hash160 (B.publicKey key))⟩)

/-- A hop after the first is refused, and those before it can be sent. -/
def RefusedLate (P : Primitives) (B : Bitcoin) (plan : SwapPlan) (start : HopState) : Prop :=
  ∃ i, 1 ≤ i ∧ i < plan.config.hopCount ∧ HopRefused P B plan start.prevAmount i ∧
    ∀ j < i, CanSend P B plan start j

/-- The dust check of hop `i`. -/
theorem StateAt.dust_iff {i : Nat} {s : HopState} (h : StateAt P B plan start i s) :
    plan.config.feeSatsPerHop.toNat + 546 ≤ s.prevAmount.toNat ↔
      (i + 1) * plan.config.feeSatsPerHop.toNat + 546 ≤ start.prevAmount.toNat := by
  rw [h.amount, SwapPlan.amountAt_toNat, Nat.add_mul, Nat.one_mul]
  omega

theorem checkedAddress_eq_error {network : Network} {s invalid wrongNetwork : String} {e : Failure}
    (h : checkedAddress B s network invalid wrongNetwork = .error e) :
    addressScript B network s = none ∧ (e = anyhow invalid ∨ e = anyhow wrongNetwork) := by
  unfold addressScript
  rw [checkedAddress, bind_eq_error] at h
  simp only [okOr_eq_error, okOr_eq_ok] at h
  rcases h with ⟨hnone, rfl⟩ | ⟨a, ha, hnone, rfl⟩
  · exact ⟨by rw [hnone]; rfl, .inl rfl⟩
  · exact ⟨by rw [ha]; exact hnone, .inr rfl⟩

/-- What a hop goes to is refused for its key or for the final address. -/
theorem nextHop_eq_error {i : Nat} {e : Failure} (hi : i < plan.config.hopCount)
    (h : nextHop P B plan i = .error e) :
    e ∈ inputFailures ∧ ∀ amount, HopRefused P B plan amount i := by
  unfold nextHop swapAddress at h
  simp only [bind_eq_error, okOr_eq_error, okOr_eq_ok] at h
  rcases h with ⟨hkey, rfl⟩ | ⟨key, -, h⟩
  · exact ⟨by simp [inputFailures], fun _ => .inl hkey⟩
  · split at h
    case isTrue hlast =>
      simp only [bind_eq_error, pure_ne_error, and_false, exists_false, or_false] at h
      obtain ⟨hnone, he⟩ := checkedAddress_eq_error h
      have hlast : i = plan.config.hopCount - 1 := of_decide_eq_true hlast
      refine ⟨?_, fun _ => .inr (.inl ⟨by omega, hnone⟩)⟩
      rcases he with rfl | rfl <;> simp [inputFailures]
    case isFalse => exact absurd h pure_ne_error

/-- The hop of a state that holds an output is refused by the dust check, or for what the node said. -/
theorem hopTx_eq_error {s : HopState} {nextAddress : String} {nextScript prevScript : Bytes}
    {e : Failure} (hnext : addressScript B plan.config.network nextAddress = some nextScript)
    (hprev : addressScript B plan.config.network s.prevAddress = some prevScript)
    (hscript : isP2wpkh prevScript) (hpk : B.publicKey s.currentSk = s.currentPk)
    (h : hopTx B plan s nextAddress = .error e) (he : e ∈ inputFailures) :
    s.prevAmount.toNat < plan.config.feeSatsPerHop.toNat + 546 := by
  by_contra hdust
  cases htxid : txidFromStr s.prevTxid with
  | none =>
    have hbad : hopTx B plan s nextAddress = .error (anyhow "Invalid prev_txid") := by
      unfold hopTx buildSelfTransferPsbt
      rw [htxid]
      rfl
    rw [hbad] at h
    obtain rfl := Except.error.inj h
    simp [inputFailures, anyhow] at he
  | some txid =>
    let paid : TxOut := ⟨saturatingSub s.prevAmount plan.config.feeSatsPerHop, nextScript⟩
    let psbt : Psbt := ⟨hopUnsigned ⟨txid, s.prevVout⟩ paid,
      [{ witnessUtxo := some ⟨s.prevAmount, prevScript⟩ }]⟩
    have hbuilt : buildSelfTransferPsbt B s.prevTxid s.prevVout s.prevAmount s.prevAddress
        nextAddress plan.config.feeSatsPerHop plan.config.network = .ok psbt :=
      buildSelfTransfer_eq_ok.mpr ⟨txid, nextScript, prevScript, htxid, hnext, hprev,
        Nat.le_of_not_lt hdust, rfl⟩
    have hsigned := @signStealthInput_ok B s.currentSk prevScript psbt.unsignedTx psbt.inputs 0
      ⟨s.prevTxid, s.prevVout, s.prevAmount⟩ rfl Nat.zero_lt_one hscript
    rw [hpk] at hsigned
    unfold hopTx at h
    rw [hbuilt] at h
    change signStealthInput B psbt 0 s.currentSk s.currentPk s.prevAmount >>= _ = _ at h
    rw [hsigned] at h
    obtain ⟨_, rfl⟩ := okOr_eq_error.mp h
    simp [inputFailures, anyhow] at he

/-- The dust check of a hop whose addresses and txid are read. -/
theorem hopTx_dust {s : HopState} {nextAddress : String} {txid nextScript prevScript : Bytes}
    (htxid : txidFromStr s.prevTxid = some txid)
    (hnext : addressScript B plan.config.network nextAddress = some nextScript)
    (hprev : addressScript B plan.config.network s.prevAddress = some prevScript)
    (hdust : s.prevAmount.toNat < plan.config.feeSatsPerHop.toNat + 546) :
    hopTx B plan s nextAddress = .error (anyhow "Output below dust threshold") := by
  have hlow : decide (saturatingSub s.prevAmount plan.config.feeSatsPerHop < dustSats) = true := by
    rw [decide_eq_true_iff, ← not_not (a := _ < _), dust_iff]
    omega
  unfold hopTx buildSelfTransferPsbt swapAddress
  rw [htxid, checkedAddress_eq_ok.mpr hnext, checkedAddress_eq_ok.mpr hprev]
  change ((errorIf (decide _) _ >>= _ : Except Failure Psbt) >>= _) = _
  rw [hlow]
  rfl

/-- What a node makes a broadcast fail with is no such error. -/
theorem broadcastPsbt_error {txHex : String} {past : List (Reply (Rpc BitcoinMemory))} :
    Spec (fun _ _ => True) (fun _ _ => True) (fun _ r => ∀ e, r = .error e → e ∉ inputFailures) past
      (broadcastPsbt txHex) := by
  have hrpc (text : String) : rpcError "BTC" text ∉ inputFailures := by
    have hne {text' : String} (h : text'.toList[3]? ≠ some ' ') : rpcError "BTC" text ≠ anyhow text' := by
      intro heq
      have htext := Failure.worker.inj heq
      rw [← htext] at h
      simp at h
    simp only [inputFailures, List.mem_cons, List.not_mem_nil, or_false, not_or]
    exact ⟨hne (by simp), hne (by simp), hne (by simp), hne (by simp)⟩
  refine spec_seq (R := fun _ r => ∀ e, r = .error e → e ∉ inputFailures) ?_ ?_ fun _ _ h e he =>
    h e (by rw [Except.error.inj he])
  · refine spec_rpcCall trivial ?_ ?_ ?_
    · rintro json - - e ⟨⟩
    · rintro - e ⟨⟩
      exact hrpc _
    · rintro json - - e ⟨⟩
      exact hrpc _
  · intro past' result _
    rw [spec_orFail]
    refine ⟨?_, ?_⟩
    · rintro _ e ⟨⟩
      simp [inputFailures, anyhow]
    · rintro _ _ e ⟨⟩

/-- A hop goes to an address. -/
theorem nextHop_script {i : Nat} {next : Option Bytes × String}
    (hnext : nextHop P B plan i = .ok next) :
    ∃ script, addressScript B plan.config.network next.2 = some script := by
  obtain ⟨key, -, hnext⟩ := nextHop_eq_ok.mp hnext
  split at hnext
  · obtain ⟨⟨script, hscript⟩, rfl⟩ := hnext
    exact ⟨script, hscript⟩
  · obtain rfl := hnext
    exact ⟨_, B.addressFromStr_p2wpkh _ _⟩

/-- A later hop is refused for its key, the final address or the amount. -/
theorem StateAt.refused {i : Nat} {s : HopState} {next : Option Bytes × String} {e : Failure}
    (hs : StateAt P B plan start (i + 1) s) (hnext : nextHop P B plan (i + 1) = .ok next)
    (h : hopTx B plan s next.2 = .error e) (he : e ∈ inputFailures) :
    HopRefused P B plan start.prevAmount (i + 1) := by
  have hdust := hs.dust_iff
  cases hs with
  | @later _ key txid hkey =>
    obtain ⟨script, hscript⟩ := nextHop_script hnext
    have hprev := B.addressFromStr_p2wpkh (B.publicKey key) plan.config.network
    have hlow := hopTx_eq_error (s := ⟨txid, 0, _, _, _, _⟩) hscript hprev
      (isP2wpkh_p2wpkhScript (B.hash160_length _)) rfl h he
    refine .inr (.inr (Nat.lt_of_not_le fun hle => ?_))
    exact Nat.not_lt_of_le (hdust.mpr hle) hlow

/-- A hop that was sent and is not the last could be sent, and the loop is before the next one. -/
theorem StateAt.sent {i : Nat} {s : HopState} {next : Option Bytes × String} {tx : Transaction}
    (txid : String) (hs : StateAt P B plan start i s) (hlast : plan.isLast i ≠ true)
    (hnext : nextHop P B plan i = .ok next) (htx : hopTx B plan s next.2 = .ok tx) :
    CanSend P B plan start i ∧
      StateAt P B plan start (i + 1) (s.advance B plan txid next.1 next.2) := by
  obtain ⟨key, hkey, hnext⟩ := nextHop_eq_ok.mp hnext
  rw [if_neg hlast] at hnext
  obtain rfl := hnext
  obtain ⟨txid', script, prevScript, htxid, hscript, hprev, hdust, hpk, hp2wpkh, hfee, rfl⟩ :=
    hopTx_eq_ok.mp htx
  obtain rfl := Option.some.inj (hscript.symm.trans (B.addressFromStr_p2wpkh _ _))
  have hamount := hs.amount
  refine ⟨⟨s, key, txid', prevScript, hs, hkey, htxid, hprev, hp2wpkh, hpk, hs.dust_iff.mp hdust, ?_⟩, ?_⟩
  · rw [SwapPlan.amountAt, ← hamount]
    exact hfee
  · unfold HopState.advance
    simp only [hamount]
    exact .later txid hkey

/-- **The loop, run by any node**: for one of the reasons it fails before it has sent anything, or a
later hop was refused. -/
theorem swapHops_refused : ∀ (n i : Nat) (s : HopState) (past : List (Reply (Rpc BitcoinMemory))),
    i + n = plan.config.hopCount → StateAt P B plan start i s →
    (∀ j < i, CanSend P B plan start j) →
    Spec (fun _ _ => True) (fun _ _ => True) (fun past' r => ∀ e, r = .error e → e ∈ inputFailures →
      (i = 0 ∧ past' = past) ∨ RefusedLate P B plan start) past (swapHops P B plan n i s)
  | 0, i, s, past, _, _, _ => by
    rintro e ⟨⟩
  | n + 1, i, s, past, hi, hs, hsent => by
    have hlate (h : ∀ i', i = i' + 1 → HopRefused P B plan start.prevAmount i) {past'} (hp : past' = past) :
        (i = 0 ∧ past' = past) ∨ RefusedLate P B plan start := by
      cases i with
      | zero => exact .inl ⟨rfl, hp⟩
      | succ i' => exact .inr ⟨i' + 1, by omega, by omega, h i' rfl, hsent⟩
    unfold swapHops
    rw [spec_ofExcept_bind]
    refine ⟨fun e he e' he' hmem => ?_, fun ⟨nextSk, nextAddress⟩ hnext => ?_⟩
    · obtain ⟨_, hrefused⟩ := nextHop_eq_error (by omega) he
      exact hlate (fun _ _ => hrefused _) rfl
    simp only [spec_ofExcept_bind]
    refine ⟨fun e he e' he' hmem => ?_, fun tx htx => ?_⟩
    · obtain rfl := Except.error.inj he'
      refine (hlate (fun i' hi' => ?_) rfl).imp_left fun h => ⟨h.1, trivial⟩
      subst hi'
      exact hs.refused hnext he hmem
    refine spec_seq broadcastPsbt_error (fun past₁ txid _ => ?_) fun _ e h e' he' hmem =>
      absurd hmem (h e' (by rw [Except.error.inj he']))
    cases n with
    | zero => rintro e ⟨⟩
    | succ n =>
      have hlast : plan.isLast i ≠ true := by
        unfold SwapPlan.isLast
        rw [Ne, decide_eq_true_iff]
        omega
      obtain ⟨hcan, hs'⟩ := hs.sent txid hlast hnext htx
      have hsent' : ∀ j < i + 1, CanSend P B plan start j := fun j hj => by
        rcases Nat.lt_succ_iff_lt_or_eq.mp hj with hj | rfl
        · exact hsent j hj
        · exact hcan
      have hrest := swapHops_refused (n + 1) (i + 1) _ past₁ (by omega) hs' hsent'
      refine spec_seq hrest (fun past₂ txids _ => ?_) fun _ e h e' he' hmem => ?_
      · rintro e ⟨⟩
      · rcases h e rfl (by rw [Except.error.inj he']; exact hmem) with ⟨h0, -⟩ | h
        · exact absurd h0 (Nat.succ_ne_zero i)
        · exact .inr h

/-- A node names the transaction it is sent `txid`. -/
theorem yields_broadcastPsbt {txHex txid : String} {past : List (Reply (Rpc BitcoinMemory))}
    (hmay : may (.send "sendrawtransaction" (.arr [ofString txHex])) (some (reply (ofString txid)))) :
    Yields may past (broadcastPsbt txHex) (past ++ [⟨.send "sendrawtransaction"
      (.arr [ofString txHex]), some (reply (ofString txid))⟩]) (.ok txid) := by
  have hrpc := @yields_rpcCall BitcoinMemory may past "BTC" _ _ _ (errorFree_reply (ofString txid)) hmay
  rw [index_reply] at hrpc
  refine hrpc.bind ?_
  rw [roundTrip_string.read]
  exact .ret

/-- A hop that is sent, and the rest of the chain. -/
theorem yields_hop {n i : Nat} {s : HopState} {next : Option Bytes × String} {tx : Transaction}
    {txid : String} {past past' : List (Reply (Rpc BitcoinMemory))} {r : Except Failure (List String)}
    (hnext : nextHop P B plan i = .ok next) (htx : hopTx B plan s next.2 = .ok tx)
    (hmay : may (.send "sendrawtransaction" (.arr [ofString (B.serializeHex tx)]))
      (some (reply (ofString txid))))
    (hrest : Yields may (past ++ [⟨.send "sendrawtransaction" (.arr [ofString (B.serializeHex tx)]),
      some (reply (ofString txid))⟩])
      (swapHops P B plan n (i + 1) (s.advance B plan txid next.1 next.2)) past' r) :
    Yields may past (swapHops P B plan (n + 1) i s) past' (r.map fun txids => txid :: txids) := by
  unfold swapHops
  rw [hnext]
  change Yields _ _ (ofExcept (hopTx B plan s next.2) >>= _) _ _
  rw [htx]
  refine (yields_broadcastPsbt hmay).bind ?_
  cases r with
  | ok txids => exact hrest.bind .ret
  | error e => exact hrest.bind_error

/-- The refusal of a hop whose txid is read. -/
theorem HopRefused.yields {i n : Nat} {s : HopState} {txid : Bytes}
    {past : List (Reply (Rpc BitcoinMemory))} (h : HopRefused P B plan start.prevAmount (i + 1))
    (hs : StateAt P B plan start (i + 1) s) (htxid : txidFromStr s.prevTxid = some txid)
    (hi : i + 1 < plan.config.hopCount) :
    ∃ e ∈ inputFailures, Yields (fun _ _ => True) past (swapHops P B plan (n + 1) (i + 1) s) past
      (.error e) := by
  unfold swapHops
  cases hnext : nextHop P B plan (i + 1) with
  | error e => exact ⟨e, (nextHop_eq_error hi hnext).1, .fail⟩
  | ok next =>
    obtain ⟨script, hscript⟩ := nextHop_script hnext
    have hlow : ¬ plan.config.feeSatsPerHop.toNat + 546 ≤ s.prevAmount.toNat := by
      rw [hs.dust_iff, Nat.not_le]
      obtain ⟨key, hkey, hlast⟩ := nextHop_eq_ok.mp hnext
      rcases h with hnone | ⟨hcount, hnone⟩ | hlow
      · exact absurd (hkey.symm.trans hnone) (by simp)
      · rw [if_pos (by unfold SwapPlan.isLast; exact decide_eq_true (by omega))] at hlast
        obtain ⟨⟨script, hfinal⟩, -⟩ := hlast
        exact absurd (hfinal.symm.trans hnone) (by simp)
      · exact hlow
    cases hs with
    | @later _ key txid' hkey =>
      have hprev := B.addressFromStr_p2wpkh (B.publicKey key) plan.config.network
      refine ⟨anyhow "Output below dust threshold", by simp [inputFailures], ?_⟩
      change Yields _ _ (ofExcept (hopTx B plan _ next.2) >>= _) _ _
      rw [hopTx_dust htxid hscript hprev (Nat.lt_of_not_le hlow)]
      exact .fail

theorem sentTransactions_append (past past' : List (Reply (Rpc BitcoinMemory))) :
    sentTransactions (past ++ past') = sentTransactions past ++ sentTransactions past' :=
  List.filterMap_append

/-- The state before a hop that can still be sent, or before the one that is refused. -/
def Ready (B : Bitcoin) (plan : SwapPlan) (P : Primitives) (i j : Nat) (s : HopState) : Prop :=
  if j < i then ∃ key tx, hopKey P plan.masterSeed plan.chainSeed (UInt64.ofNat j) = some key ∧
    hopTx B plan s (B.p2wpkhAddress (B.publicKey key) plan.config.network) = .ok tx
  else ∃ txid, txidFromStr s.prevTxid = some txid

/-- A hop that can be sent has a state to be sent from. -/
theorem CanSend.ready {i j : Nat} (h : CanSend P B plan start j) (hj : j < i) :
    ∃ s, StateAt P B plan start j s ∧ Ready B plan P i j s := by
  obtain ⟨s, key, txid, prevScript, hs, hkey, htxid, hprev, hscript, hpk, hdust, hfee⟩ := h
  refine ⟨s, hs, ?_⟩
  unfold Ready
  rw [if_pos hj]
  rw [SwapPlan.amountAt, ← hs.amount] at hfee
  exact ⟨key, _, hkey, hopTx_eq_ok.mpr ⟨txid, _, prevScript, htxid, B.addressFromStr_p2wpkh _ _,
    hprev, hs.dust_iff.mpr hdust, hpk, hscript, hfee, rfl⟩⟩

/-- Before every hop up to the refused one there is such a state. -/
theorem exists_ready {i j : Nat} (hsent : ∀ j < i, CanSend P B plan start j) (hj : j < i) :
    ∃ s, StateAt P B plan start (j + 1) s ∧ Ready B plan P i (j + 1) s := by
  by_cases hlt : j + 1 < i
  · exact (hsent (j + 1) hlt).ready hlt
  · obtain ⟨_, key, _, _, _, hkey, _⟩ := hsent j hj
    refine ⟨_, .later (txidString (List.replicate 32 0)) hkey, ?_⟩
    unfold Ready
    rw [if_neg hlt]
    exact ⟨_, txidFromStr_txidString List.length_replicate⟩

/-- The node's choice of a txid is all that two states before a hop differ in. -/
theorem StateAt.eq_advance {j : Nat} {s s' : HopState} {key : Bytes}
    (hs : StateAt P B plan start j s) (hs' : StateAt P B plan start (j + 1) s')
    (hkey : hopKey P plan.masterSeed plan.chainSeed (UInt64.ofNat j) = some key) :
    s.advance B plan s'.prevTxid (some key)
      (B.p2wpkhAddress (B.publicKey key) plan.config.network) = s' := by
  cases hs' with
  | later txid hkey' =>
    obtain rfl := Option.some.inj (hkey.symm.trans hkey')
    unfold HopState.advance
    rw [hs.amount]
    rfl

/-- **The run that is refused late**: a node that names the transactions as it takes for the next hop
to be signed gets all of them before the refusal. -/
theorem yields_refused {i : Nat} (hi : i + 1 < plan.config.hopCount)
    (h : HopRefused P B plan start.prevAmount (i + 1))
    (hsent : ∀ j < i + 1, CanSend P B plan start j) :
    ∀ (m j : Nat) (s : HopState) (past : List (Reply (Rpc BitcoinMemory))), j + m = i + 1 →
      StateAt P B plan start j s → Ready B plan P (i + 1) j s → ∃ past' e, e ∈ inputFailures ∧
        Yields (fun _ _ => True) past (swapHops P B plan (plan.config.hopCount - j) j s) past'
          (.error e) ∧
        (sentTransactions past).length + m ≤ (sentTransactions past').length
  | 0, j, s, past, hj, hs, hready => by
    obtain rfl : j = i + 1 := by omega
    unfold Ready at hready
    rw [if_neg (Nat.lt_irrefl _)] at hready
    obtain ⟨txid, htxid⟩ := hready
    obtain ⟨n, hn⟩ : ∃ n, plan.config.hopCount - (i + 1) = n + 1 := Nat.exists_eq_add_of_le' (by omega)
    rw [hn]
    obtain ⟨e, he, hrun⟩ := h.yields hs htxid hi
    exact ⟨past, e, he, hrun, Nat.le_refl _⟩
  | m + 1, j, s, past, hj, hs, hready => by
    unfold Ready at hready
    rw [if_pos (by omega)] at hready
    obtain ⟨key, tx, hkey, htx⟩ := hready
    obtain ⟨s', hs', hready'⟩ := exists_ready hsent (show j < i + 1 by omega)
    have hnext : nextHop P B plan j =
        .ok (some key, B.p2wpkhAddress (B.publicKey key) plan.config.network) := by
      refine nextHop_eq_ok.mpr ⟨key, hkey, ?_⟩
      rw [if_neg (by unfold SwapPlan.isLast; rw [decide_eq_true_iff]; omega)]
    obtain ⟨n, hn⟩ : ∃ n, plan.config.hopCount - j = n + 1 := Nat.exists_eq_add_of_le' (by omega)
    obtain ⟨past', e, he, hrun, hlength⟩ := yields_refused hi h hsent m (j + 1) s' (past ++
      [⟨.send "sendrawtransaction" (.arr [ofString (B.serializeHex tx)]),
        some (reply (ofString s'.prevTxid))⟩]) (by omega) hs' hready'
    refine ⟨past', e, he, ?_, ?_⟩
    · rw [← hs.eq_advance hs' hkey, show plan.config.hopCount - (j + 1) = n by omega] at hrun
      rw [hn]
      exact yields_hop hnext htx trivial hrun
    · rw [sentTransactions_append, List.length_append] at hlength
      change _ + 1 + m ≤ _ at hlength
      omega

/-- **CoinSwap is all or nothing exactly where no later hop is refused.** Whatever the node answers, a
run that fails for its inputs has broadcast nothing, unless a hop after the first has no key, a bad
final address or too little to spend while the hops before it can be sent. -/
theorem all_or_nothing_iff (P : Primitives) (B : Bitcoin) (plan : SwapPlan) (utxo : Utxo)
    (utxoAddress : String) (sk pk : Bytes) :
    (∀ past e, Yields (fun _ _ => True) [] (runCoinswapChain P B plan utxo utxoAddress sk pk) past
        (.error e) → e ∈ inputFailures → sentTransactions past = []) ↔
      ¬ RefusedLate P B plan ⟨utxo.txid, utxo.vout, utxo.amount, utxoAddress, sk, pk⟩ := by
  constructor
  · rintro hall ⟨i, hpos, hi, hrefused, hsent⟩
    obtain ⟨i, rfl⟩ := Nat.exists_eq_add_of_le' hpos
    obtain ⟨s, hs, hready⟩ := (hsent 0 hpos).ready hpos
    cases hs with
    | start =>
      obtain ⟨past, e, he, hrun, hlength⟩ :=
        yields_refused hi hrefused hsent (i + 1) 0 _ [] (Nat.zero_add _) .start hready
      rw [hall past e hrun he] at hlength
      exact absurd hlength (by simp [sentTransactions])
  · intro hnot past e hrun he
    have hspec := @swapHops_refused P B plan ⟨utxo.txid, utxo.vout, utxo.amount, utxoAddress, sk, pk⟩
      plan.config.hopCount 0 _ [] (Nat.zero_add _) .start (fun j hj => absurd hj (Nat.not_lt_zero j))
    rcases hspec.yields hrun e rfl he with ⟨-, rfl⟩ | hlate
    · rfl
    · exact absurd hlate hnot

end Refusals

namespace SwapSample

/-! Two hops of 2000 sats, with real keys and signatures, from 100000 sats to an address of
`SettlementSample`. -/

def master : Bytes := List.replicate 32 0x11

def chainSeed : Bytes := List.replicate 8 0x22

def sk : Bytes := List.replicate 32 0x33

def pk : Bytes :=
  beBytes 33 0x023c72addb4fdf09af94f0c94d7fe92a386a7e70cf8a1d85916386bb2535c7b1b1

def pkHash : Bytes := beBytes 20 0x3bc28d6d92d9073fb5e3adf481795eaf446bceed

def address : String := "bc1q80pg6mvjmyrnld0r4h6gz7274azxhnhdp352yx"

def hopSk : Bytes :=
  beBytes 32 0xad7b0cce50348de228099b4224de2a74be682793eaa0bc3c97c8cb14e2e464e4

def hopPk : Bytes :=
  beBytes 33 0x03fd88bd325a7ef5f098540fe241377ea575a66ab1a2ab3e5b48c7dfc1a5373f73

def hopHash : Bytes := beBytes 20 0x3f1a2e43493dfcae93d01814942067c19f85f4e4

def hopAddress : String := "bc1q8udzus6f8h72ay7srq2fggr8cx0cta8ync50pu"

/-- The key that the last hop makes and drops. -/
def lastSk : Bytes :=
  beBytes 32 0xc1e318e2a50130dc55d9687fdff3d951f7e3d1ef324bc585c81d26ce957d9800

def firstTxid : Bytes :=
  beBytes 32 0x4a0b4821b226d6cc5a880e0e6a70d4ee9b95649f4362d7f2ec8efa067dc7b810

def secondTxid : Bytes :=
  beBytes 32 0x895b4988714ae18e2a5ffed61eb8b3cfa893970177cf8aee7b767adc68b7ee25

def firstUnsigned : Transaction :=
  ⟨1, 0, [spendInput (List.replicate 32 0xab) 1], [⟨98000, p2wpkhScript hopHash⟩]⟩

def firstDigest : Bytes :=
  beBytes 32 0x282241a40f4d535f04fc7c27e4647fdecba4b41eaa7b99a9dd498077270ca350

def firstSignature : EcdsaSignature :=
  ⟨beBytes 32 0x57fa680623cf8aabed3b4ffbf1a1b85e30f7c393d8a2b6ed883bc40931e49310 ++
    beBytes 32 0x531c1e8e0dfafe47a0336490b73fbf3319439fe4dd19bf94b1352343cea865f2, 1⟩

def firstDer : Bytes :=
  beBytes 36 0x3044022057fa680623cf8aabed3b4ffbf1a1b85e30f7c393d8a2b6ed883bc40931e49310 ++
    beBytes 35 0x0220531c1e8e0dfafe47a0336490b73fbf3319439fe4dd19bf94b1352343cea865f201

def firstTx : Transaction :=
  { firstUnsigned with
    input := [⟨⟨(List.replicate 32 0xab), 1⟩, [], 0xffffffff, [firstDer, pk]⟩] }

def firstHex : String :=
  hexEncode
    (beBytes 38 0x01000000000101ababababababababababababababababababababababababababababababab ++
    beBytes 38 0xab0100000000ffffffff01d07e0100000000001600143f1a2e43493dfcae93d01814942067c1 ++
    beBytes 38 0x9f85f4e402473044022057fa680623cf8aabed3b4ffbf1a1b85e30f7c393d8a2b6ed883bc409 ++
    beBytes 38 0x31e493100220531c1e8e0dfafe47a0336490b73fbf3319439fe4dd19bf94b1352343cea865f2 ++
    beBytes 38 0x0121023c72addb4fdf09af94f0c94d7fe92a386a7e70cf8a1d85916386bb2535c7b1b1000000 ++
    beBytes 1 0x00)

def secondUnsigned : Transaction :=
  ⟨1, 0, [spendInput firstTxid 0], [⟨96000, p2wpkhScript SettlementSample.addressHash⟩]⟩

def secondDigest : Bytes :=
  beBytes 32 0x252aecd467512b5f49f958edb37186a32dee0c7e2914f035230c79c7f6ab3d92

def secondSignature : EcdsaSignature :=
  ⟨beBytes 32 0x84a1392a6bafb1dbd7ea0ba4be0062fde1619599a48c21944be5944eb375e3ab ++
    beBytes 32 0x68e3a3a9748668109a90bf06b941cfcd71ce35209367555ac316aba875ee65d5, 1⟩

def secondDer : Bytes :=
  beBytes 36 0x304502210084a1392a6bafb1dbd7ea0ba4be0062fde1619599a48c21944be5944eb375e3 ++
    beBytes 36 0xab022068e3a3a9748668109a90bf06b941cfcd71ce35209367555ac316aba875ee65d501

def secondTx : Transaction :=
  { secondUnsigned with
    input := [⟨⟨firstTxid, 0⟩, [], 0xffffffff, [secondDer, hopPk]⟩] }

def secondHex : String :=
  hexEncode
    (beBytes 38 0x010000000001014a0b4821b226d6cc5a880e0e6a70d4ee9b95649f4362d7f2ec8efa067dc7b8 ++
    beBytes 38 0x100000000000ffffffff010077010000000000160014e8df018c7e326cc253faac7e46cdc51e ++
    beBytes 38 0x68542c420248304502210084a1392a6bafb1dbd7ea0ba4be0062fde1619599a48c21944be594 ++
    beBytes 38 0x4eb375e3ab022068e3a3a9748668109a90bf06b941cfcd71ce35209367555ac316aba875ee65 ++
    beBytes 38 0xd5012103fd88bd325a7ef5f098540fe241377ea575a66ab1a2ab3e5b48c7dfc1a5373f730000 ++
    beBytes 2 0x0000)

def primitives : Primitives :=
  .ofTables
    { hmacSha256 := [((master, utf8 "order:" ++ (utf8 "coinswap:" ++ chainSeed ++ leBytes 0)), hopSk),
        ((master, utf8 "order:" ++ (utf8 "coinswap:" ++ chainSeed ++ leBytes 1)), lastSk)] }

def libraries : Bitcoin :=
  .ofTables
    { publicKey := [(sk, pk), (hopSk, hopPk)]
      hash160 := [(pk, pkHash), (hopPk, hopHash)]
      addresses := [(address, ⟨[.bitcoin], p2wpkhScript pkHash⟩),
        (hopAddress, ⟨[.bitcoin], p2wpkhScript hopHash⟩),
        (SettlementSample.address, ⟨[.bitcoin], p2wpkhScript SettlementSample.addressHash⟩)]
      sighash := [((firstUnsigned, 0, p2wpkhScript pkHash, 100000), firstDigest),
        ((secondUnsigned, 0, p2wpkhScript hopHash, 98000), secondDigest)]
      signEcdsa := [((firstDigest, sk), firstSignature.signature),
        ((secondDigest, hopSk), secondSignature.signature)]
      signatureToVec := [(firstSignature, firstDer), (secondSignature, secondDer)]
      serializeHex := [(firstTx, firstHex), (secondTx, secondHex)]
      txid := [(firstTx, firstTxid), (secondTx, secondTxid)]
      weight := [(firstTx, 437), (secondTx, 438)] }

def plan (finalAddress : String) : SwapPlan :=
  ⟨master, chainSeed, finalAddress, ⟨2, .bitcoin, 2000⟩⟩

def utxo : Utxo := ⟨hexEncode (List.replicate 32 0xab), 1, 100000⟩

theorem hops : ∃ first second,
    nextHop primitives libraries (plan SettlementSample.address) 0 = .ok first ∧
    hopTx libraries (plan SettlementSample.address)
      ⟨utxo.txid, utxo.vout, utxo.amount, address, sk, pk⟩ first.2 = .ok firstTx ∧
    nextHop primitives libraries (plan SettlementSample.address) 1 = .ok second ∧
    hopTx libraries (plan SettlementSample.address)
      (HopState.advance libraries (plan SettlementSample.address)
        ⟨utxo.txid, utxo.vout, utxo.amount, address, sk, pk⟩ (txidString firstTxid) first.1 first.2)
      second.2 = .ok secondTx := by
  refine ⟨(some hopSk, hopAddress), (none, SettlementSample.address), ?_⟩
  decide +kernel

/-- The parameter of a broadcast, with the reply to it. -/
def sentHex : Reply (Rpc BitcoinMemory) → Option (Bytes × Option Value)
  | ⟨.send _ (.arr [.str hex]), a⟩ => some (hex, a)
  | _ => none

/-- What a transaction is called that is serialized as one of the two. -/
theorem txid_of_serializeHex {tx : Transaction} :
    (libraries.serializeHex tx = libraries.serializeHex firstTx → libraries.txid tx = firstTxid) ∧
    (libraries.serializeHex tx = libraries.serializeHex secondTx → libraries.txid tx = secondTxid) := by
  have hsamples : secondTx ≠ firstTx ∧ firstHex ≠ secondHex ∧ "" ≠ firstHex ∧ "" ≠ secondHex ∧
      libraries.txid firstTx = firstTxid ∧ libraries.txid secondTx = secondTxid := by
    decide +kernel
  obtain ⟨htx, hhex, hempty, hempty', hfirst, hsecond⟩ := hsamples
  have hserialize (tx : Transaction) : libraries.serializeHex tx =
      ([(firstTx, firstHex), (secondTx, secondHex)].lookup tx).getD "" := rfl
  have hfirstHex : libraries.serializeHex firstTx = firstHex := by
    rw [hserialize, List.lookup_cons_self, Option.getD_some]
  have hsecondHex : libraries.serializeHex secondTx = secondHex := by
    rw [hserialize, List.lookup_cons, beq_false_of_ne htx, List.lookup_cons_self, Option.getD_some]
  rw [hfirstHex, hsecondHex, hserialize]
  by_cases h₁ : tx = firstTx
  · rw [h₁, List.lookup_cons_self]
    exact ⟨fun _ => hfirst, fun h => absurd h hhex⟩
  by_cases h₂ : tx = secondTx
  · simp only [h₂, List.lookup_cons, beq_false_of_ne htx, beq_self_eq_true, Option.getD_some]
    exact ⟨fun h => absurd h hhex.symm, fun _ => hsecond⟩
  · simp only [List.lookup_cons, beq_false_of_ne h₁, beq_false_of_ne h₂, List.lookup_nil,
      Option.getD_none]
    exact ⟨fun h => absurd h hempty, fun h => absurd h hempty'⟩

end SwapSample

open SwapSample in
/-- Two hops, both taken. -/
theorem coinswap_chain_sample : ∃ past txid txs, txidFromStr utxo.txid = some txid ∧
    txs.length = 2 ∧
    sentTransactions past = txs.map (fun tx => .arr [ofString (libraries.serializeHex tx)]) ∧
    [txidString firstTxid, txidString secondTxid] =
      txs.map (fun tx => txidString (libraries.txid tx)) ∧
    SwapChain libraries (plan SettlementSample.address) ⟨txid, utxo.vout⟩
      ⟨utxo.amount, p2wpkhScript (libraries.hash160 pk)⟩ sk txs ∧
    ∀ (i : Nat) (tx : Transaction), txs[i]? = some tx →
      tx.outputSum + (i + 1) * 2000 = 100000 ∧ 546 ≤ tx.outputSum := by
  have hnames {tx₀ : Transaction} {txid : Bytes}
      (h : ∀ tx, libraries.serializeHex tx = libraries.serializeHex tx₀ → libraries.txid tx = txid) :
      RepliesTxid libraries (.send "sendrawtransaction" (.arr [ofString (libraries.serializeHex tx₀)]))
        (some (reply (ofString (txidString txid)))) := by
    intro tx json heq _
    have hparts : some (utf8 (libraries.serializeHex tx₀), some (reply (ofString (txidString txid)))) =
        some (utf8 (libraries.serializeHex tx), some json) := congrArg sentHex heq
    obtain ⟨hhex, hjson⟩ := Prod.mk.inj (Option.some.inj hparts)
    rw [h tx (utf8_inj hhex).symm, ← Option.some.inj hjson, index_reply,
      roundTrip_string.read]
  obtain ⟨first, second, hnext, hfirst, hnext', hsecond⟩ := hops
  obtain ⟨past, hrun⟩ : ∃ past, Yields (RepliesTxid libraries) []
      (runCoinswapChain primitives libraries (plan SettlementSample.address) utxo address sk pk) past
      (.ok [txidString firstTxid, txidString secondTxid]) :=
    ⟨_, yields_hop (r := .ok [txidString secondTxid]) hnext hfirst
      (hnames fun _ => txid_of_serializeHex.1)
      (yields_hop (r := .ok []) hnext' hsecond (hnames fun _ => txid_of_serializeHex.2) .ret)⟩
  have hpk : libraries.publicKey sk = pk := by decide +kernel
  have haddress : addressScript libraries .bitcoin address =
      some (p2wpkhScript (libraries.hash160 pk)) := by decide +kernel
  obtain ⟨txid, txs, h⟩ := coinswap_chain (by decide) hpk haddress hrun
  exact ⟨past, txid, txs, h⟩

open SwapSample in
/-- **The final address is read too late**: the first of two hops is sent, the second one fails. -/
theorem fails_after_first_hop :
    ∃ past e, Yields (fun _ _ => True) []
        (runCoinswapChain primitives libraries (plan "nowhere") utxo address sk pk) past (.error e) ∧
      e ∈ inputFailures ∧ sentTransactions past ≠ [] := by
  let start : HopState := ⟨utxo.txid, utxo.vout, utxo.amount, address, sk, pk⟩
  have hrefused : HopRefused primitives libraries (plan "nowhere") start.prevAmount 1 :=
    .inr (.inl ⟨rfl, by decide +kernel⟩)
  have hfirst : CanSend primitives libraries (plan "nowhere") start 0 := by
    refine ⟨start, hopSk, List.replicate 32 0xab, p2wpkhScript pkHash, .start, ?_⟩
    decide +kernel
  have hsent : ∀ j < 0 + 1, CanSend primitives libraries (plan "nowhere") start j := fun j hj => by
    obtain rfl := Nat.lt_one_iff.mp hj
    exact hfirst
  obtain ⟨s, hs, hready⟩ := hfirst.ready Nat.zero_lt_one
  cases hs with
  | start =>
    obtain ⟨past, e, he, hrun, hlength⟩ := yields_refused (by decide) hrefused hsent 1 0 _ []
      (Nat.zero_add _) .start hready
    refine ⟨past, e, hrun, he, fun hnone => ?_⟩
    rw [hnone] at hlength
    exact absurd hlength (by simp [sentTransactions])

end TorMarketplace
