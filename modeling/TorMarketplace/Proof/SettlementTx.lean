import Mathlib.Data.List.Forall2
import Mathlib.Tactic.Linarith
import TorMarketplace.Services.Payments.StealthEscrow

/-!
# Settlement transactions

What `build_multi_utxo_settlement_psbt` builds and what becomes of it in `settle_stealth_order`. The
split between seller and fee is `u64` arithmetic on a configured percentage that nothing checks;
`settlementPsbt_eq_ok` is the inversion of the builder, and the values are compared over the natural
numbers.
-/

namespace TorMarketplace

open Encoding Interleave Json Prog Result Serde

/-- What the outputs to spend hold, in all. -/
def utxoSum (utxos : List Utxo) : Nat := (utxos.map fun u => u.amount.toNat).sum

/-- The seller's share as the code computes it. -/
def sellerShare (total feePercent : UInt64) : UInt64 := total * (100 - feePercent) / 100

section Words

theorem sum_toNat (l : List UInt64) : l.sum.toNat = (l.map UInt64.toNat).sum % 2 ^ 64 := by
  induction l with
  | nil => rfl
  | cons n l ih =>
    rw [List.sum_cons, List.map_cons, List.sum_cons, UInt64.toNat_add, ih]
    omega

theorem utxoSum_toNat {utxos : List Utxo} (h : utxoSum utxos < 2 ^ 64) :
    (utxos.map Utxo.amount).sum.toNat = utxoSum utxos := by
  rw [sum_toNat, List.map_map]
  exact Nat.mod_eq_of_lt h

theorem utxoSum_le_of_prefix {l utxos : List Utxo} (h : l <+: utxos) : utxoSum l ≤ utxoSum utxos := by
  obtain ⟨rest, rfl⟩ := h
  rw [utxoSum, utxoSum, List.map_append, List.sum_append]
  omega

end Words

/-! ## What is built -/

section Build

variable {B : Bitcoin} {utxos : List Utxo} {stealthAddress sellerAddress feeAddress : String}
variable {feePercent : UInt64} {network : Network}

/-- The script of a text that is an address of the network. -/
def addressScript (B : Bitcoin) (network : Network) (s : String) : Option Bytes :=
  (B.addressFromStr s).bind fun a => a.requireNetwork network

theorem checkedAddress_eq_ok {s invalid wrongNetwork : String} {script : Bytes} :
    checkedAddress B s network invalid wrongNetwork = .ok script ↔
      addressScript B network s = some script := by
  rw [checkedAddress, bind_eq_ok, addressScript, Option.bind_eq_some_iff]
  simp only [okOr_eq_ok]

/-- The input that spends `u`. -/
def Spends (u : Utxo) (i : TxIn) : Prop :=
  ∃ txid, txidFromStr u.txid = some txid ∧ i = spendInput txid u.vout

theorem exists_spends :
    (∃ inputs, List.Forall₂ Spends utxos inputs) ↔ ∀ u ∈ utxos, (txidFromStr u.txid).isSome := by
  induction utxos with
  | nil => simp
  | cons u us ih =>
    rw [List.forall_mem_cons, ← ih]
    constructor
    · rintro ⟨_, _ | ⟨⟨txid, htxid, _⟩, hrest⟩⟩
      exact ⟨by rw [htxid]; rfl, _, hrest⟩
    · rintro ⟨htxid, inputs, hrest⟩
      exact ⟨_, .cons ⟨_, (Option.some_get htxid).symm, rfl⟩ hrest⟩

theorem spends_unsigned {inputs : List TxIn} (h : List.Forall₂ Spends utxos inputs) :
    inputs.all fun i => i.scriptSig = [] ∧ i.witness = [] := by
  induction h with
  | nil => rfl
  | cons hu _ ih =>
    obtain ⟨txid, _, rfl⟩ := hu
    rw [List.all_cons, ih]
    rfl

/-- The PSBT over `inputs` that pays the seller's share and the rest. -/
def settlementOf (utxos : List Utxo) (inputs : List TxIn) (script sellerScript feeScript : Bytes)
    (feePercent : UInt64) : Psbt :=
  let total := (utxos.map Utxo.amount).sum
  let seller := sellerShare total feePercent
  ⟨⟨1, 0, inputs, [⟨seller, sellerScript⟩, ⟨total - seller, feeScript⟩]⟩,
    utxos.map fun u => { witnessUtxo := some ⟨u.amount, script⟩ }⟩

/-- **The inversion of the builder**: which inputs it accepts, and what it makes of them. -/
theorem build_eq_ok {psbt : Psbt} :
    buildMultiUtxoSettlementPsbt B utxos stealthAddress sellerAddress feeAddress feePercent network =
        .ok psbt ↔
      utxos ≠ [] ∧ ∃ script sellerScript feeScript inputs,
        addressScript B network stealthAddress = some script ∧
        addressScript B network sellerAddress = some sellerScript ∧
        addressScript B network feeAddress = some feeScript ∧
        List.Forall₂ Spends utxos inputs ∧
        psbt = settlementOf utxos inputs script sellerScript feeScript feePercent := by
  have hspend (u : Utxo) (i : TxIn) : (okOr (txidFromStr u.txid) (anyhow "Invalid txid") >>= fun txid =>
      (pure (spendInput txid u.vout) : Except Failure TxIn)) = .ok i ↔ Spends u i := by
    simp only [bind_eq_ok, okOr_eq_ok, pure_eq_ok]
    exact exists_congr fun _ => and_congr_right fun _ => eq_comm
  have hinputs (inputs : List TxIn) (script : Bytes) (h : List.Forall₂ Spends utxos inputs) :
      List.zipWith (fun (i : PsbtInput) (u : Utxo) =>
        { i with witnessUtxo := some ⟨u.amount, script⟩ }) (inputs.map fun _ => {}) utxos =
      utxos.map fun u => { witnessUtxo := some ⟨u.amount, script⟩ } := by
    induction h with
    | nil => rfl
    | cons _ _ ih =>
      rw [List.map_cons, List.zipWith_cons_cons, ih, List.map_cons]
  constructor
  · intro h
    unfold buildMultiUtxoSettlementPsbt at h
    simp only [bind_eq_ok, errorIf_eq_ok, checkedAddress_eq_ok, mapM_eq_ok, hspend, okOr_eq_ok,
      pure_eq_ok] at h
    obtain ⟨_, hne, script, hscript, sellerScript, hseller, feeScript, hfee, inputs, hspends, psbt₀,
      hpsbt, rfl⟩ := h
    rw [Psbt.fromUnsignedTx, if_pos (spends_unsigned hspends)] at hpsbt
    obtain rfl := Option.some.inj hpsbt
    refine ⟨of_decide_eq_false hne, script, sellerScript, feeScript, inputs, hscript, hseller, hfee,
      hspends, ?_⟩
    rw [hinputs inputs script hspends]
    rfl
  · rintro ⟨hne, script, sellerScript, feeScript, inputs, hscript, hseller, hfee, hspends, rfl⟩
    unfold buildMultiUtxoSettlementPsbt
    simp only [bind_eq_ok, errorIf_eq_ok, checkedAddress_eq_ok, mapM_eq_ok, hspend, okOr_eq_ok,
      pure_eq_ok]
    refine ⟨(), decide_eq_false hne, script, hscript, sellerScript, hseller, feeScript, hfee, inputs,
      hspends, _, if_pos (spends_unsigned hspends), ?_⟩
    rw [hinputs inputs script hspends]
    rfl

/-! ## Conservation of value -/

/-- No operation on the amounts leaves the `u64`: each is the operation over the integers. -/
structure NoWrap (utxos : List Utxo) (feePercent : UInt64) : Prop where
  sum : ∀ l, l <+: utxos → ((l.map Utxo.amount).sum).toNat = utxoSum l
  percent : ((100 - feePercent).toNat : Int) = 100 - feePercent.toNat
  product : ((utxos.map Utxo.amount).sum * (100 - feePercent)).toNat =
    (utxos.map Utxo.amount).sum.toNat * (100 - feePercent).toNat
  rest : (((utxos.map Utxo.amount).sum -
      sellerShare (utxos.map Utxo.amount).sum feePercent).toNat : Int) =
    (utxos.map Utxo.amount).sum.toNat -
      (sellerShare (utxos.map Utxo.amount).sum feePercent).toNat

/-- A settlement of `utxos` as it should be: it spends them in their order, declares their amounts,
and splits their sum, with no operation that wraps. -/
structure ConservesValue (utxos : List Utxo) (feePercent : UInt64) (psbt : Psbt) : Prop where
  spends : List.Forall₂ (fun u i => txidFromStr u.txid = some i.previousOutput.txid ∧
    i.previousOutput.vout = u.vout) utxos psbt.unsignedTx.input
  declares : List.Forall₂ (fun u i => i.witnessUtxo.map TxOut.value = some u.amount) utxos psbt.inputs
  pays : ∃ seller fee, psbt.unsignedTx.output.map TxOut.value = [seller, fee] ∧
    (seller.toNat : Int) = (utxoSum utxos * (100 - feePercent.toNat) : Int) / 100 ∧
    seller.toNat + fee.toNat = utxoSum utxos
  noWrap : NoWrap utxos feePercent

/-- The texts that the builder is given are addresses of the network and txids. -/
def WellFormed (B : Bitcoin) (network : Network) (utxos : List Utxo)
    (stealthAddress sellerAddress feeAddress : String) : Prop :=
  (addressScript B network stealthAddress).isSome ∧ (addressScript B network sellerAddress).isSome ∧
    (addressScript B network feeAddress).isSome ∧ ∀ u ∈ utxos, (txidFromStr u.txid).isSome

/-- Up to 100 percent, the arithmetic is that of the natural numbers. -/
theorem noWrap_of_le (hsum : utxoSum utxos ≤ 21 * 10 ^ 14) (hfee : feePercent ≤ 100) :
    NoWrap utxos feePercent ∧
      (sellerShare (utxos.map Utxo.amount).sum feePercent).toNat =
        utxoSum utxos * (100 - feePercent.toNat) / 100 := by
  have hfee : feePercent.toNat ≤ 100 := UInt64.le_iff_toNat_le.mp hfee
  have htotal : (utxos.map Utxo.amount).sum.toNat = utxoSum utxos := utxoSum_toNat (by omega)
  have hpercent : (100 - feePercent).toNat = 100 - feePercent.toNat :=
    UInt64.toNat_sub_of_le _ _ (UInt64.le_iff_toNat_le.mpr hfee)
  have hle : utxoSum utxos * (100 - feePercent.toNat) ≤ 21 * 10 ^ 14 * 100 :=
    Nat.mul_le_mul hsum (by omega)
  have hproduct : ((utxos.map Utxo.amount).sum * (100 - feePercent)).toNat =
      utxoSum utxos * (100 - feePercent.toNat) := by
    rw [UInt64.toNat_mul, htotal, hpercent]
    exact Nat.mod_eq_of_lt (by omega)
  have hshare : (sellerShare (utxos.map Utxo.amount).sum feePercent).toNat =
      utxoSum utxos * (100 - feePercent.toNat) / 100 := by
    rw [sellerShare, UInt64.toNat_div, hproduct]
    rfl
  have hless : utxoSum utxos * (100 - feePercent.toNat) / 100 ≤ utxoSum utxos := by
    have := Nat.mul_le_mul_left (utxoSum utxos) (show 100 - feePercent.toNat ≤ 100 by omega)
    omega
  refine ⟨⟨fun l hl => ?_, ?_, ?_, ?_⟩, hshare⟩
  · have := utxoSum_le_of_prefix hl
    exact utxoSum_toNat (by omega)
  · rw [hpercent]
    omega
  · rw [hproduct, htotal, hpercent]
  · rw [UInt64.toNat_sub_of_le _ _ (UInt64.le_iff_toNat_le.mpr (by rw [hshare, htotal]; exact hless)),
      hshare, htotal]
    omega

theorem conservesValue_of_le {inputs : List TxIn} {script sellerScript feeScript : Bytes}
    (hsum : utxoSum utxos ≤ 21 * 10 ^ 14) (hfee : feePercent ≤ 100)
    (hspends : List.Forall₂ Spends utxos inputs) :
    ConservesValue utxos feePercent
      (settlementOf utxos inputs script sellerScript feeScript feePercent) := by
  obtain ⟨hwrap, hshare⟩ := noWrap_of_le hsum hfee
  have htotal : (utxos.map Utxo.amount).sum.toNat = utxoSum utxos := utxoSum_toNat (by omega)
  have hpercent : feePercent.toNat ≤ 100 := UInt64.le_iff_toNat_le.mp hfee
  have hrest := hwrap.rest
  refine ⟨hspends.imp ?_, ?_, ⟨sellerShare (utxos.map Utxo.amount).sum feePercent,
    (utxos.map Utxo.amount).sum - sellerShare (utxos.map Utxo.amount).sum feePercent, rfl, ?_, ?_⟩,
    hwrap⟩
  · rintro u i ⟨txid, htxid, rfl⟩
    exact ⟨htxid, rfl⟩
  · exact List.forall₂_map_right_iff.mpr (List.forall₂_same.mpr fun u _ => rfl)
  · rw [hshare]
    push_cast
    rw [Nat.cast_sub hpercent]
    rfl
  · omega

/-- **A settlement conserves the value exactly if the fee is at most 100 percent**, or if nothing is
built because one of the texts is no address of the network or no txid. -/
theorem settlement_conserves_iff (B : Bitcoin) (utxos : List Utxo)
    (stealthAddress sellerAddress feeAddress : String) (feePercent : UInt64) (network : Network)
    (hne : utxos ≠ []) (hsum : utxoSum utxos ≤ 21 * 10 ^ 14) :
    (∀ psbt, buildMultiUtxoSettlementPsbt B utxos stealthAddress sellerAddress feeAddress feePercent
        network = .ok psbt → ConservesValue utxos feePercent psbt) ↔
      feePercent ≤ 100 ∨ ¬ WellFormed B network utxos stealthAddress sellerAddress feeAddress := by
  constructor
  · intro h
    by_contra hbad
    obtain ⟨hfee, hscript, hseller, hfeeAddress, htxids⟩ :
        ¬ feePercent ≤ 100 ∧ WellFormed B network utxos stealthAddress sellerAddress feeAddress := by
      simpa only [not_or, not_not] using hbad
    obtain ⟨inputs, hspends⟩ := exists_spends.mpr htxids
    have hok := h _ (build_eq_ok.mpr ⟨hne, _, _, _, inputs, (Option.some_get hscript).symm,
      (Option.some_get hseller).symm, (Option.some_get hfeeAddress).symm, hspends, rfl⟩)
    have hpercent := hok.noWrap.percent
    rw [UInt64.le_iff_toNat_le, show (100 : UInt64).toNat = 100 from rfl] at hfee
    omega
  · intro h psbt hbuild
    obtain ⟨-, script, sellerScript, feeScript, inputs, hscript, hseller, hfeeAddress, hspends, rfl⟩ :=
      build_eq_ok.mp hbuild
    rcases h with hfee | hbad
    · exact conservesValue_of_le hsum hfee hspends
    · refine absurd ⟨?_, ?_, ?_, ?_⟩ hbad
      · rw [hscript]; rfl
      · rw [hseller]; rfl
      · rw [hfeeAddress]; rfl
      · exact exists_spends.mp ⟨inputs, hspends⟩

end Build

/-! ## Signing and finalizing -/

section Sign

variable {P : Primitives} {B : Bitcoin} {sk script : Bytes} {tx : Transaction}

/-- The signature of input `i` of `tx` over the amount of an entry. -/
def entrySig (B : Bitcoin) (sk script : Bytes) (tx : Transaction) (i : Nat) (u : Utxo) :
    EcdsaSignature :=
  ⟨B.signEcdsa (B.sighash tx i script u.amount) sk, 1⟩

/-- An input that declares the amount of its entry, before it is signed. -/
def unsignedInput (script : Bytes) (u : Utxo) : PsbtInput :=
  { witnessUtxo := some ⟨u.amount, script⟩ }

def signedInput (B : Bitcoin) (sk script : Bytes) (tx : Transaction) (i : Nat) (u : Utxo) : PsbtInput :=
  { unsignedInput script u with partialSigs := [(B.publicKey sk, entrySig B sk script tx i u)] }

def finalInput (B : Bitcoin) (sk script : Bytes) (tx : Transaction) (i : Nat) (u : Utxo) : PsbtInput :=
  { signedInput B sk script tx i u with
    finalScriptWitness := some [B.signatureToVec (entrySig B sk script tx i u), B.publicKey sk] }

/-- **Signing one input** with the key of its own script never fails. -/
theorem signStealthInput_ok {inputs : List PsbtInput} {i : Nat} {u : Utxo}
    (hinput : inputs[i]? = some (unsignedInput script u)) (hlt : i < tx.input.length)
    (hscript : isP2wpkh script) :
    signStealthInput B ⟨tx, inputs⟩ i sk (B.publicKey sk) u.amount =
      .ok ⟨tx, inputs.set i (signedInput B sk script tx i u)⟩ := by
  have hmsg : p2wpkhSignatureHash B tx i script u.amount = some (B.sighash tx i script u.amount) :=
    if_pos ⟨hlt, hscript⟩
  unfold signStealthInput
  simp only [hinput, ne_eq, not_true_eq_false, if_false, unsignedInput, hscript, hmsg]
  rfl

/-- **Signing all of them**: the inputs of the entries `us`, after those that are signed. -/
theorem signEntries_ok (hscript : isP2wpkh script) : ∀ (us : List Utxo) (done : List PsbtInput),
    done.length + us.length ≤ tx.input.length →
      StealthEscrow.signEntries B sk (B.publicKey sk) done.length us
          ⟨tx, done ++ us.map (unsignedInput script)⟩ =
        .ok ⟨tx, done ++ us.mapIdx fun j u => signedInput B sk script tx (done.length + j) u⟩
  | [], done, _ => rfl
  | u :: us, done, hlen => by
    have hinput : (done ++ (u :: us).map (unsignedInput script))[done.length]? =
        some (unsignedInput script u) := by
      rw [List.getElem?_append_right (Nat.le_refl _), Nat.sub_self]
      rfl
    have hset : (done ++ (u :: us).map (unsignedInput script)).set done.length
          (signedInput B sk script tx done.length u) =
        (done ++ [signedInput B sk script tx done.length u]) ++ us.map (unsignedInput script) := by
      rw [List.set_append_right _ _ (Nat.le_refl _), Nat.sub_self, List.append_assoc]
      rfl
    have hrest := signEntries_ok hscript us (done ++ [signedInput B sk script tx done.length u])
      (by simp only [List.length_append, List.length_cons, List.length_nil] at hlen ⊢; omega)
    rw [StealthEscrow.signEntries, signStealthInput_ok hinput
      (by simp only [List.length_cons] at hlen; omega) hscript, hset]
    change StealthEscrow.signEntries B sk (B.publicKey sk) (done.length + 1) us _ = _
    rw [List.length_append, List.length_cons, List.length_nil] at hrest
    rw [hrest, List.mapIdx_cons, List.append_assoc, List.singleton_append]
    simp only [Nat.add_zero, Nat.zero_add, Nat.add_assoc, Nat.add_comm 1]

/-- **Finalizing** never fails before `extract_tx`, and every witness is the signature and the key. -/
theorem finalizeStealthTx_signed {us : List Utxo} (hne : us ≠ []) :
    finalizeStealthTx B ⟨tx, us.mapIdx (signedInput B sk script tx)⟩ =
      okOr (Psbt.extractTx B ⟨tx, us.mapIdx (finalInput B sk script tx)⟩)
        (anyhow "PSBT extract failed") := by
  have hfinal : (us.mapIdx (signedInput B sk script tx)).mapM (finalizeInput B) =
      .ok (us.mapIdx (finalInput B sk script tx)) := by
    rw [mapM_eq_ok, List.forall₂_iff_get]
    refine ⟨by simp, fun i h h' => ?_⟩
    simp only [List.get_eq_getElem, List.getElem_mapIdx]
    rfl
  have hempty : decide (us.mapIdx (signedInput B sk script tx) = []) = false := by
    simpa using hne
  unfold finalizeStealthTx
  simp only [hempty, hfinal]
  rfl

end Sign

/-! ## Settling an order -/

section Settle

open StealthEscrow

variable {P : Primitives} {B : Bitcoin} {cfg : SettleConfig} {orderId : Bytes} {data : OrderData}
variable {network : Network} {address : String} {utxos : List ListUnspentEntry}
variable {entries : List Utxo} {psbt : Psbt} {tx : Transaction}

/-- The unsigned settlement of an order spends its confirmed outputs. -/
theorem settlementPsbt_eq_ok (h : settlementPsbt B cfg data network address utxos = .ok (entries, psbt)) :
    entries = confirmedEntries utxos ∧ entries ≠ [] ∧ ∃ script sellerScript feeScript inputs,
      addressScript B network address = some script ∧ List.Forall₂ Spends entries inputs ∧
      psbt = settlementOf entries inputs script sellerScript feeScript cfg.feePercent := by
  unfold settlementPsbt at h
  simp only [bind_eq_ok, errorIf_eq_ok, okOr_eq_ok, mapErr_eq_ok, pure_eq_ok, Prod.mk.injEq] at h
  obtain ⟨_, _, _, _, _, _, _, _, _, hne, built, hbuild, rfl, rfl⟩ := h
  obtain ⟨_, script, sellerScript, feeScript, inputs, hscript, _, _, hspends, rfl⟩ :=
    build_eq_ok.mp hbuild
  exact ⟨rfl, of_decide_eq_false hne, script, sellerScript, feeScript, inputs, hscript, hspends, rfl⟩

/-- What `create_stealth_address_for_order` returns is the address it has derived. -/
theorem stealthAddress_of_created {may : (c : (Rpc BitcoinMemory).Call) → (Rpc BitcoinMemory).Ans c → Prop}
    {past past' : List (Reply (Rpc BitcoinMemory))} {buyerPkHex : String} {workerKey : Bytes}
    (h : Yields may past (createStealthAddressForOrder P B buyerPkHex workerKey orderId network) past'
      (.ok address)) :
    stealthAddress P B buyerPkHex workerKey orderId network = .ok address := by
  have hspec : Spec may (fun _ _ => True)
      (OnOk fun _ a => stealthAddress P B buyerPkHex workerKey orderId network = .ok a) past
      (createStealthAddressForOrder P B buyerPkHex workerKey orderId network) := by
    unfold createStealthAddressForOrder
    rw [spec_ofExcept_bind]
    refine ⟨fun _ _ => trivial, fun a ha => ?_⟩
    refine spec_seq_onOk (R := fun _ _ => True) ?_ fun _ _ _ _ => ha
    exact spec_of_forall (fun _ _ => trivial) fun _ r => by cases r <;> trivial
  exact hspec.yields h

/-- **The key that made the address is derived again.** -/
theorem stealthKey_of_address {buyerKey workerKey : Bytes}
    (haddress : stealthAddress P B (hexEncode buyerKey) workerKey orderId network = .ok address)
    (hkey : cfg.workerKey = some workerKey) (hbuyer : data.buyerPubkey = some (hexEncode buyerKey)) :
    ∃ sk, stealthKey P B cfg orderId data = .ok sk ∧
      addressScript B network address = some (p2wpkhScript (B.hash160 (B.publicKey sk))) := by
  unfold stealthAddress at haddress
  simp only [bind_eq_ok, okOr_eq_ok, pure_eq_ok] at haddress
  obtain ⟨buyerPk, hpk, ownerSk, howner, sk, hsk, rfl⟩ := haddress
  refine ⟨sk, ?_, B.addressFromStr_p2wpkh _ _⟩
  unfold stealthKey
  simp only [bind_eq_ok, okOr_eq_ok]
  exact ⟨workerKey, hkey, ownerSk, howner, _, hbuyer, buyerPk, hpk, hsk⟩

/-- The settlement `psbt` of `entries` at `address`, signed with the key `sk` of the address: every
input is signed over the amount it declares, and the signature and the public key are its witness. -/
structure SpentWithKey (P : Primitives) (B : Bitcoin) (cfg : SettleConfig) (orderId : Bytes)
    (data : OrderData) (network : Network) (address : String) (utxos : List ListUnspentEntry)
    (entries : List Utxo) (psbt : Psbt) (sk script : Bytes) (signed final : Psbt) : Prop where
  key : stealthKey P B cfg orderId data = .ok sk
  pays_key : script = p2wpkhScript (B.hash160 (B.publicKey sk))
  address_script : addressScript B network address = some script
  signs : signEntries B sk (B.publicKey sk) 0 entries psbt = .ok signed
  same_tx : signed.unsignedTx = psbt.unsignedTx ∧ final.unsignedTx = psbt.unsignedTx
  finalizes : settlementTx P B cfg orderId data network address utxos =
    mapErr (okOr (Psbt.extractTx B final) (anyhow "PSBT extract failed")) (internal "PSBT finalize")
  all_inputs : signed.inputs.length = entries.length ∧ final.finalTx.input.length = entries.length
  witness : ∀ i u, entries[i]? = some u → ∃ sig p input,
    sig = ⟨B.signEcdsa (B.sighash psbt.unsignedTx i script u.amount) sk, 1⟩ ∧
    signed.inputs[i]? = some p ∧ p.witnessUtxo = some ⟨u.amount, script⟩ ∧
    p.partialSigs = [(B.publicKey sk, sig)] ∧
    final.finalTx.input[i]? = some input ∧ txidFromStr u.txid = some input.previousOutput.txid ∧
    input.previousOutput.vout = u.vout ∧ input.witness = [B.signatureToVec sig, B.publicKey sk]

/-- **Escrowed funds can be spent.** An order got its address for a buyer's key, and both are stored
with it. Whatever outputs are found there, once their unsigned settlement is built, it is signed and
finalized with the key of the address; only `extract_tx` may still refuse it. -/
theorem escrow_spendable (P : Primitives) (B : Bitcoin) (cfg : SettleConfig)
    (workerKey orderId buyerKey : Bytes) (network : Network) (address : String) (data : OrderData)
    (utxos : List ListUnspentEntry) (entries : List Utxo) (psbt : Psbt)
    (may : (c : (Rpc BitcoinMemory).Call) → (Rpc BitcoinMemory).Ans c → Prop)
    (past : List (Reply (Rpc BitcoinMemory)))
    (hcreated : Yields may [] (createStealthAddressForOrder P B (hexEncode buyerKey) workerKey orderId
      network) past (.ok address))
    (hkey : cfg.workerKey = some workerKey) (hbuyer : data.buyerPubkey = some (hexEncode buyerKey))
    (hpsbt : settlementPsbt B cfg data network address utxos = .ok (entries, psbt)) :
    ∃ sk script signed final, SpentWithKey P B cfg orderId data network address utxos entries psbt
      sk script signed final := by
  obtain ⟨sk, hsk, hscript⟩ := stealthKey_of_address (stealthAddress_of_created hcreated) hkey hbuyer
  obtain ⟨rfl, hne, script, sellerScript, feeScript, inputs, hscript', hspends, rfl⟩ :=
    settlementPsbt_eq_ok hpsbt
  obtain rfl := Option.some.inj (hscript.symm.trans hscript')
  have hp2wpkh := isP2wpkh_p2wpkhScript (B.hash160_length (B.publicKey sk))
  have hlen : (confirmedEntries utxos).length = inputs.length := hspends.length_eq
  let script := p2wpkhScript (B.hash160 (B.publicKey sk))
  let psbt := settlementOf (confirmedEntries utxos) inputs script sellerScript feeScript cfg.feePercent
  let signed := (confirmedEntries utxos).mapIdx (signedInput B sk script psbt.unsignedTx)
  let final := (confirmedEntries utxos).mapIdx (finalInput B sk script psbt.unsignedTx)
  have hsign : signEntries B sk (B.publicKey sk) 0 (confirmedEntries utxos) psbt =
      .ok ⟨psbt.unsignedTx, signed⟩ := by
    have hfit : ([] : List PsbtInput).length + (confirmedEntries utxos).length ≤
        psbt.unsignedTx.input.length := by
      rw [List.length_nil, Nat.zero_add, hlen]
      exact Nat.le_refl _
    have hsigned := @signEntries_ok B sk script psbt.unsignedTx hp2wpkh _ [] hfit
    simp only [List.length_nil, List.nil_append, Nat.zero_add] at hsigned
    exact hsigned
  refine ⟨sk, script, ⟨psbt.unsignedTx, signed⟩, ⟨psbt.unsignedTx, final⟩, hsk, rfl, hscript, hsign,
    ⟨rfl, rfl⟩, ?_, ⟨by simp [signed], by simp [final, Psbt.finalTx, psbt, settlementOf, hlen]⟩, ?_⟩
  · unfold settlementTx
    simp only [hpsbt, hsk]
    change (mapErr (signEntries B sk (B.publicKey sk) 0 (confirmedEntries utxos) psbt) _ >>= fun p =>
      mapErr (finalizeStealthTx B p) _) = _
    rw [hsign]
    change mapErr (finalizeStealthTx B ⟨psbt.unsignedTx, signed⟩) _ = _
    rw [finalizeStealthTx_signed hne]
  · intro i u hu
    obtain ⟨hi, hu⟩ := List.getElem?_eq_some_iff.mp hu
    obtain ⟨txid, htxid, hinput⟩ := List.Forall₂.get hspends hi (hlen ▸ hi)
    rw [List.get_eq_getElem, hu] at htxid
    rw [List.get_eq_getElem, List.get_eq_getElem, hu] at hinput
    refine ⟨_, _, _, rfl, List.getElem?_eq_getElem (by simpa [signed] using hi), ?_, ?_,
      List.getElem?_eq_getElem (by simpa [final, Psbt.finalTx, psbt, settlementOf, hlen] using hi),
      ?_, ?_, ?_⟩
    all_goals simp only [Psbt.finalTx, List.getElem_zipWith, List.getElem_mapIdx, signed, final, psbt,
      settlementOf, hu, hinput]
    · rfl
    · rfl
    · exact htxid
    · rfl
    · rfl

/-! ### What is broadcast -/

theorem signStealthInput_eq_ok {psbt' : Psbt} {i : Nat} {sk pk : Bytes} {amount : UInt64}
    (h : signStealthInput B psbt i sk pk amount = .ok psbt') :
    ∃ input utxo msg, psbt.inputs[i]? = some input ∧ B.publicKey sk = pk ∧
      input.witnessUtxo = some utxo ∧ isP2wpkh utxo.scriptPubkey ∧
      p2wpkhSignatureHash B psbt.unsignedTx i utxo.scriptPubkey amount = some msg ∧
      psbt' = ⟨psbt.unsignedTx, psbt.inputs.set i { input with
        partialSigs := insertSig pk ⟨B.signEcdsa msg sk, 1⟩ input.partialSigs }⟩ := by
  unfold signStealthInput at h
  split at h
  · exact absurd h (by simp)
  · rename_i input hinput
    split at h
    · exact absurd h (by simp)
    · rename_i hpk
      split at h
      · exact absurd h (by simp)
      · rename_i utxo hutxo
        split at h
        · exact absurd h (by simp)
        · rename_i hscript
          split at h
          · exact absurd h (by simp)
          · rename_i msg hmsg
            exact ⟨input, utxo, msg, hinput, not_not.mp hpk, hutxo, not_not.mp hscript, hmsg,
              (Except.ok.inj h).symm⟩

/-- Signing changes no transaction and no declared output. -/
theorem signStealthInput_frame {psbt' : Psbt} {i : Nat} {sk pk : Bytes} {amount : UInt64}
    (h : signStealthInput B psbt i sk pk amount = .ok psbt') :
    psbt'.unsignedTx = psbt.unsignedTx ∧
      psbt'.inputs.map PsbtInput.witnessUtxo = psbt.inputs.map PsbtInput.witnessUtxo := by
  obtain ⟨input, _, _, hinput, _, _, _, _, rfl⟩ := signStealthInput_eq_ok h
  obtain ⟨hi, rfl⟩ := List.getElem?_eq_some_iff.mp hinput
  refine ⟨rfl, ?_⟩
  have hi' : i < (psbt.inputs.map PsbtInput.witnessUtxo).length := by simpa using hi
  have hself := List.set_getElem_self hi'
  rw [List.getElem_map] at hself
  rw [List.map_set]
  exact hself

theorem signEntries_frame {sk pk : Bytes} : ∀ {us : List Utxo} {i : Nat} {psbt psbt' : Psbt},
    signEntries B sk pk i us psbt = .ok psbt' → psbt'.unsignedTx = psbt.unsignedTx ∧
      psbt'.inputs.map PsbtInput.witnessUtxo = psbt.inputs.map PsbtInput.witnessUtxo
  | [], _, _, _, h => by
    obtain rfl := pure_eq_ok.mp h
    exact ⟨rfl, rfl⟩
  | _ :: _, _, _, _, h => by
    obtain ⟨psbt₁, hfirst, hrest⟩ := bind_eq_ok.mp h
    obtain ⟨htx, hdeclared⟩ := signStealthInput_frame hfirst
    obtain ⟨htx', hdeclared'⟩ := signEntries_frame hrest
    exact ⟨htx'.trans htx, hdeclared'.trans hdeclared⟩

theorem finalizeInput_frame {p p' : PsbtInput} (h : finalizeInput B p = .ok p') :
    p'.witnessUtxo = p.witnessUtxo := by
  unfold finalizeInput at h
  split at h
  · exact absurd h (by simp)
  · split at h
    · exact absurd h (by simp)
    · exact (Except.ok.inj h) ▸ rfl

/-- What is finalized passed `extract_tx`, with the declared outputs. -/
theorem finalizeStealthTx_eq_ok (h : finalizeStealthTx B psbt = .ok tx) :
    ∃ final : Psbt, final.unsignedTx = psbt.unsignedTx ∧
      final.inputs.map PsbtInput.witnessUtxo = psbt.inputs.map PsbtInput.witnessUtxo ∧
      Psbt.extractTx B final = some tx := by
  unfold finalizeStealthTx at h
  simp only [bind_eq_ok, errorIf_eq_ok, mapM_eq_ok, okOr_eq_ok] at h
  obtain ⟨_, _, inputs, hinputs, hextract⟩ := h
  refine ⟨⟨psbt.unsignedTx, inputs⟩, rfl, ?_, hextract⟩
  have hsame := hinputs.imp fun _ _ => finalizeInput_frame
  clear hextract hinputs
  generalize psbt.inputs = l at hsame
  induction hsame with
  | nil => rfl
  | cons hp _ ih => rw [List.map_cons, List.map_cons, ih, hp]

/-- The declared amounts are what the fee is computed from. -/
theorem declared_values {script : Bytes} : ∀ {inputs : List PsbtInput} {us : List Utxo},
    inputs.map PsbtInput.witnessUtxo = us.map (fun u => some ⟨u.amount, script⟩) →
      inputs.mapM (fun i => i.witnessUtxo.map fun o => o.value.toNat) =
        some (us.map fun u => u.amount.toNat)
  | [], [], _ => rfl
  | [], _ :: _, h => absurd h (by simp)
  | _ :: _, [], h => absurd h (by simp)
  | p :: ps, u :: us, h => by
    rw [List.map_cons, List.map_cons, List.cons.injEq] at h
    rw [List.mapM_cons, h.1, declared_values h.2]
    rfl

/-- **Nothing is left for a miner**: a settlement that `extract_tx` accepts pays out all it spends. -/
theorem settlementTx_outputSum
    (h : settlementTx P B cfg orderId data network address utxos = .ok tx) :
    tx.outputSum = utxoSum (confirmedEntries utxos) := by
  unfold settlementTx at h
  obtain ⟨⟨entries, psbt⟩, hpsbt, h⟩ := bind_eq_ok.mp h
  obtain ⟨sk, -, h⟩ := bind_eq_ok.mp h
  obtain ⟨signed, hsigned, hfinal⟩ := bind_eq_ok.mp h
  obtain ⟨rfl, -, script, sellerScript, feeScript, inputs, -, -, rfl⟩ := settlementPsbt_eq_ok hpsbt
  obtain ⟨htx, hdeclared⟩ := signEntries_frame (mapErr_eq_ok.mp hsigned)
  obtain ⟨final, htx', hdeclared', hextract⟩ := finalizeStealthTx_eq_ok (mapErr_eq_ok.mp hfinal)
  have hdeclare : final.inputs.map PsbtInput.witnessUtxo =
      (confirmedEntries utxos).map fun u => some ⟨u.amount, script⟩ := by
    rw [hdeclared', hdeclared, settlementOf, List.map_map]
    rfl
  obtain ⟨fee, hfee, hextracted⟩ := Option.bind_eq_some_iff.mp hextract
  have htxOut : tx.outputSum = final.unsignedTx.outputSum := by
    by_cases hrate : min (fee * 1000) (2 ^ 64 - 1) / B.weight final.finalTx > defaultMaxFeeRate
    · exact absurd ((if_pos hrate).symm.trans hextracted) (by simp)
    · rw [← Option.some.inj ((if_neg hrate).symm.trans hextracted)]
      rfl
  obtain ⟨hsum, hout, hle⟩ : utxoSum (confirmedEntries utxos) < 2 ^ 64 ∧
      final.unsignedTx.outputSum < 2 ^ 64 ∧
      final.unsignedTx.outputSum ≤ utxoSum (confirmedEntries utxos) := by
    rw [Psbt.fee, declared_values hdeclare] at hfee
    by_contra hbad
    exact absurd ((if_neg hbad).symm.trans hfee) (by simp)
  -- the two shares add up to the sum as `u64`, so they do over the naturals, where nothing wraps
  have htotal := utxoSum_toNat hsum
  rw [htxOut, htx', htx] at *
  rw [settlementOf, Transaction.outputSum] at hout hle ⊢
  simp only [List.map_cons, List.map_nil, List.sum_cons, List.sum_nil, Nat.add_zero,
    UInt64.toNat_sub] at hout hle ⊢
  have := (sellerShare ((confirmedEntries utxos).map Utxo.amount).sum cfg.feePercent).toNat_lt
  omega

/-- The wallet listed `utxos` at `address`. -/
def Listed (past : List (Reply (Rpc BitcoinMemory))) (address : String)
    (utxos : List ListUnspentEntry) : Prop :=
  ∃ json, ⟨.send "listunspent" (.arr [.int 0, .int 9999999, ofVec ofString [address]]), some json⟩ ∈ past ∧
    BitcoinClient.readR (readVec ListUnspentEntry.ofJson) (index json "result") = some utxos

theorem spec_orInternal {S α : Type} {may : (c : (Rpc S).Call) → (Rpc S).Ans c → Prop}
    {Q : List (Reply (Rpc S)) → (Rpc S).Call → Prop} {R : List (Reply (Rpc S)) → α → Prop}
    {past : List (Reply (Rpc S))} {x : NodeClient S α} {text : String}
    (h : Spec may Q (OnOk R) past x) : Spec may Q (OnOk R) past (orInternal x text) := by
  unfold orInternal
  rw [spec_attempt_bind]
  refine spec_mono (fun _ _ hc => hc) (fun past' r hr => ?_) h
  cases r with
  | ok a => exact hr
  | error e => trivial

theorem listUnspent_spec {may : (c : (Rpc BitcoinMemory).Call) → (Rpc BitcoinMemory).Ans c → Prop}
    {Q : List (Reply (Rpc BitcoinMemory)) → (Rpc BitcoinMemory).Call → Prop}
    {past : List (Reply (Rpc BitcoinMemory))} {address : String}
    (hsend : Q past (.send "listunspent"
      (.arr [.int 0, .int 9999999, ofVec ofString [address]]))) :
    Spec may Q (OnOk fun past' utxos => Listed past' address utxos) past
      (BitcoinClient.listUnspent [address]) := by
  unfold BitcoinClient.listUnspent BitcoinClient.btcRpcCall
  refine spec_seq_onOk (rpcCall_spec hsend) fun past' result _ hresult => ?_
  obtain ⟨json, rfl, _, _, rfl⟩ := hresult
  rw [spec_orFail]
  exact ⟨fun _ => trivial, fun utxos hutxos => ⟨json, by simp, hutxos⟩⟩

/-- A call of `settle_stealth_order`: what it broadcasts is the settlement of what was listed. -/
def SettleCall (P : Primitives) (B : Bitcoin) (cfg : SettleConfig) (orderId : Bytes) (data : OrderData)
    (past : List (Reply (Rpc BitcoinMemory))) (c : RpcCall BitcoinMemory) : Prop :=
  ∀ params, c = .send "sendrawtransaction" params → ∃ network address utxos tx,
    Listed past address utxos ∧
    settlementTx P B cfg orderId data network address utxos = .ok tx ∧
    params = .arr [ofString (B.serializeHex tx)]

theorem settleStealthOrder_spec :
    Spec (fun _ _ => True) (SettleCall P B cfg orderId data) (OnOk fun _ _ => True) []
      (StealthEscrow.settleStealthOrder P B cfg orderId data) := by
  unfold StealthEscrow.settleStealthOrder
  split
  · trivial
  · simp only [spec_orFail_bind, onOk_error, implies_true, true_and]
    intro network _ address _
    refine spec_seq_onOk (spec_orInternal (listUnspent_spec fun params h => ?_)) ?_
    · exact absurd h (by simp)
    · intro past utxos _ hlisted
      rw [spec_ofExcept_bind]
      refine ⟨fun _ _ => trivial, fun tx htx => ?_⟩
      refine spec_seq_onOk (R := fun _ _ => True)
        (spec_orInternal (spec_seq_onOk (rpcCall_spec fun params h => ?_) ?_)) ?_
      · exact ⟨network, address, utxos, tx, hlisted, htx, (RpcCall.send.inj h).2.symm⟩
      · exact fun _ _ _ _ => spec_orFail.mpr ⟨fun _ => trivial, fun _ _ => trivial⟩
      · exact fun _ _ _ _ => trivial

/-- What a node relays: no output below the dust limit, and something left for the miner. -/
def Relayable (entries : List Utxo) (tx : Transaction) : Prop :=
  (∀ o ∈ tx.output, 546 ≤ o.value) ∧ tx.outputSum < utxoSum entries

/-- **No settlement is relayable.** Whatever the wallet lists, whatever the fee and the addresses: what
`settle_stealth_order` broadcasts leaves nothing for a miner. -/
theorem settlement_never_relayable (P : Primitives) (B : Bitcoin) (cfg : SettleConfig)
    (orderId : Bytes) (data : OrderData) :
    Spec (fun _ _ => True) (fun past c => ∀ params,
        c = (.send "sendrawtransaction" params : RpcCall BitcoinMemory) →
        ∃ network address utxos tx, Listed past address utxos ∧
          settlementTx P B cfg orderId data network address utxos = .ok tx ∧
          params = .arr [ofString (B.serializeHex tx)] ∧
          ¬ Relayable (confirmedEntries utxos) tx)
      (OnOk fun _ _ => True) [] (StealthEscrow.settleStealthOrder P B cfg orderId data) := by
  refine spec_mono (fun past c hcall params hc => ?_) (fun _ _ h => h) settleStealthOrder_spec
  obtain ⟨network, address, utxos, tx, hlisted, htx, hparams⟩ := hcall params hc
  refine ⟨network, address, utxos, tx, hlisted, htx, hparams, fun ⟨_, hless⟩ => ?_⟩
  rw [settlementTx_outputSum htx] at hless
  exact Nat.lt_irrefl _ hless

end Settle

namespace SettlementSample

/-- The address of the tests of `services/escrow/btc.rs`. -/
def address : String := "bc1qar0srrr7xfkvy5l643lydnw9re59gtzzwf5mdq"

def addressHash : Bytes :=
  [0xe8, 0xdf, 0x01, 0x8c, 0x7e, 0x32, 0x6c, 0xc2, 0x53, 0xfa, 0xac, 0x7e, 0x46, 0xcd, 0xc5, 0x1e,
    0x68, 0x54, 0x2c, 0x42]

def libraries : Bitcoin :=
  .ofTables { addresses := [(address, ⟨[.bitcoin], p2wpkhScript addressHash⟩)] }

/-- One bitcoin. -/
def utxo : Utxo := ⟨"0000000000000000000000000000000000000000000000000000000000000001", 0, 100000000⟩

/-- The settlement of one bitcoin with a fee of so many percent. -/
def settlement (feePercent : UInt64) : Psbt :=
  settlementOf [utxo] [spendInput (1 :: List.replicate 31 0) 0] (p2wpkhScript addressHash)
    (p2wpkhScript addressHash) (p2wpkhScript addressHash) feePercent

theorem build_settlement (feePercent : UInt64) :
    buildMultiUtxoSettlementPsbt libraries [utxo] address address address feePercent .bitcoin =
      .ok (settlement feePercent) := by
  have haddress : addressScript libraries .bitcoin address = some (p2wpkhScript addressHash) := by
    decide +kernel
  have htxid : txidFromStr utxo.txid = some (1 :: List.replicate 31 0) := by decide +kernel
  exact build_eq_ok.mpr ⟨by simp, _, _, _, _, haddress, haddress, haddress,
    .cons ⟨_, htxid, rfl⟩ .nil, rfl⟩

/-! ### The settlement of an order

Real keys, addresses and signatures: a seller and a buyer, and half a bitcoin at the address of the
order. -/

def workerKey : Bytes := List.replicate 32 0x11

def orderId : Bytes := List.replicate 32 0x22

def buyerKey : Bytes :=
  beBytes 33 0x023c72addb4fdf09af94f0c94d7fe92a386a7e70cf8a1d85916386bb2535c7b1b1

def sellerKey : Bytes :=
  beBytes 33 0x032c0b7cf95324a07d05398b240174dc0c2be444d96b159aa6c7f7b1e668680991

def ownerSk : Bytes :=
  beBytes 32 0x4e860e9b6b0697d8f3f487f4ac08ec64435c8cc02b92417f4ed25f618bf193a5

def shared : Bytes :=
  beBytes 32 0x6a026b019a7a4d2ec40f2b679a222cad620f426254d4c1c69ca3c0aebcfa9c8d

def stealthSk : Bytes :=
  beBytes 32 0xb00e1b6cc1ce8e2e080e179bc3a044c7d502caedd38815c6e3045a685b6732d4

def stealthPk : Bytes :=
  beBytes 33 0x0286909499915b694c3ec3dbe345d090ea9adee5ff425d68b7c26469eaf3112b58

def stealthHash : Bytes := beBytes 20 0x0241aa80fcf8965b29055bf1e12b668c409e5d93

def stealthAddr : String := "bc1qqfq64q8ulzt9k2g9t0c7z2mx33qfuhvn5l0rka"

/-- P2PKH, to the hash of the seller's key. -/
def sellerScript : Bytes :=
  [0x76, 0xa9, 0x14] ++ beBytes 20 0xcc1b07838e387deacd0e5232e1e8b49f4c29e484 ++ [0x88, 0xac]

def sellerAddr : String := "1KcDEAcEYgV661HME6Sb6h4kQotaCanyHb"

def unsignedTx : Transaction :=
  ⟨1, 0, [spendInput (List.replicate 32 0xab) 1],
    [⟨48000000, sellerScript⟩, ⟨2000000, p2wpkhScript addressHash⟩]⟩

def digest : Bytes :=
  beBytes 32 0x97d86c7b45f60a1adaaa7fcb50af98b8dd36f22ef1da68f720b1168f2d530275

def signature : EcdsaSignature :=
  ⟨beBytes 32 0x9907fdb5be30e439f3a64b3d61980cd5c4e11d784355561027044f7fa8d83e92 ++
    beBytes 32 0x68a467a260ca43fee34203c50417b1d74b770d4243dcb1e9949db553aba03dea, 1⟩

def signatureDer : Bytes :=
  beBytes 36 0x30450221009907fdb5be30e439f3a64b3d61980cd5c4e11d784355561027044f7fa8d83e ++
    beBytes 36 0x92022068a467a260ca43fee34203c50417b1d74b770d4243dcb1e9949db553aba03dea01

def settlementTx : Transaction :=
  { unsignedTx with input := [⟨⟨List.replicate 32 0xab, 1⟩, [], 0xffffffff, [signatureDer, stealthPk]⟩] }

def primitives : Primitives :=
  .ofTables
    { hmacSha256 := [((workerKey, utf8 "order:" ++ orderId), ownerSk)]
      sha256 := [(shared ++ utf8 "stealth-key-v1" ++ orderId, stealthSk)] }

def bitcoin : Bitcoin :=
  .ofTables
    { publicKeyFromSlice := [(buyerKey, buyerKey), (sellerKey, sellerKey)]
      publicKey := [(stealthSk, stealthPk)]
      sharedSecret := [((buyerKey, ownerSk), shared)]
      hash160 := [(stealthPk, stealthHash)]
      addresses := [(address, ⟨[.bitcoin], p2wpkhScript addressHash⟩),
        (stealthAddr, ⟨[.bitcoin], p2wpkhScript stealthHash⟩), (sellerAddr, ⟨[.bitcoin], sellerScript⟩)]
      p2pkh := [((sellerKey, .bitcoin), sellerAddr)]
      sighash := [((unsignedTx, 0, p2wpkhScript stealthHash, 50000000), digest)]
      signEcdsa := [((digest, stealthSk), signature.signature)]
      signatureToVec := [(signature, signatureDer)]
      weight := [(settlementTx, 574)] }

def config : SettleConfig := ⟨"mainnet", 4, some address, some workerKey⟩

def order : OrderData :=
  { (default : OrderData) with
    currency := "BTC"
    escrowAddress := some stealthAddr
    buyerPubkey := some (hexEncode buyerKey)
    sellerPubkey := some (hexEncode sellerKey) }

/-- A wallet that imports every address. -/
def node : Node
  | "importmulti", _ => some (object [("result", .arr [object [("success", .bool true)]]),
      ("error", .null), ("id", .int 1)])
  | _, _ => none

/-- Half a bitcoin, confirmed three times. -/
def unspent : ListUnspentEntry := ⟨hexEncode (List.replicate 32 0xab), 1, stealthAddr, 1 / 2, 3⟩


theorem settled : StealthEscrow.settlementTx primitives bitcoin config orderId order .bitcoin stealthAddr
    [unspent] = .ok settlementTx := by
  decide +kernel

end SettlementSample

open SettlementSample in
/-- The fee of 4 percent that is the default. -/
theorem settlement_conserves_sample : ConservesValue [utxo] 4 (settlement 4) :=
  (settlement_conserves_iff libraries [utxo] address address address 4 .bitcoin (by simp)
    (by decide)).mpr (.inl (by decide)) _ (build_settlement 4)

open SettlementSample in
/-- **A fee of 101 percent**: the seller of one bitcoin is to get more than there is, and the outputs
are worth 2^64 sats more than the input. -/
theorem fee_percent_wraps :
    ∃ psbt, buildMultiUtxoSettlementPsbt libraries [utxo] address address address 101 .bitcoin =
        .ok psbt ∧
      psbt.unsignedTx.output.map TxOut.value = [184467440736095516, 18262276633073456100] ∧
      ¬ ConservesValue [utxo] 101 psbt := by
  refine ⟨settlement 101, build_settlement 101, ?_, ?_⟩
  · decide
  · intro h
    have hpercent := h.noWrap.percent
    exact absurd hpercent (by decide)

open SettlementSample in
/-- **Half a bitcoin, settled with the default fee**: the outputs are worth what the input is. -/
theorem settlement_without_fee :
    ∃ tx, StealthEscrow.settlementTx primitives bitcoin config orderId order .bitcoin stealthAddr
        [unspent] = .ok tx ∧
      tx.output.map TxOut.value = [48000000, 2000000] ∧
      utxoSum (StealthEscrow.confirmedEntries [unspent]) = 50000000 ∧
      ¬ Relayable (StealthEscrow.confirmedEntries [unspent]) tx := by
  have hsum : utxoSum (StealthEscrow.confirmedEntries [unspent]) = 50000000 := by decide +kernel
  refine ⟨settlementTx, settled, rfl, hsum, fun ⟨_, hless⟩ => ?_⟩
  rw [hsum] at hless
  exact absurd hless (by decide)

open SettlementSample StealthEscrow in
theorem escrow_spendable_sample :
    ∃ psbt sk script signed final, SpentWithKey primitives bitcoin config orderId order .bitcoin
      stealthAddr [unspent] (confirmedEntries [unspent]) psbt sk script signed final := by
  have hrun : (createStealthAddressForOrder primitives bitcoin (hexEncode buyerKey) workerKey orderId
      .bitcoin).run node none = some (.ok stealthAddr, none) := by
    decide +kernel
  obtain ⟨past, hcreated⟩ := yields_of_solo [] hrun
  have hpsbt : settlementPsbt bitcoin config order .bitcoin stealthAddr [unspent] =
      .ok (confirmedEntries [unspent], ⟨unsignedTx, [unsignedInput (p2wpkhScript stealthHash)
        ⟨hexEncode (List.replicate 32 0xab), 1, 50000000⟩]⟩) := by
    decide +kernel
  exact ⟨_, escrow_spendable primitives bitcoin config workerKey orderId buyerKey .bitcoin stealthAddr
    order [unspent] _ _ _ past hcreated rfl rfl hpsbt⟩

end TorMarketplace
