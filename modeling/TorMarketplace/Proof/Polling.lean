import TorMarketplace.Proof.Payments
import TorMarketplace.Proof.Runs

/-!
# What a pass of the poller decides

A pass asks the payment client about each order that its snapshot shows as pending, and marks the
order after that answer: every update that it makes has a `Decision` behind it, or retries a
settlement (`checkPendingPayments_decides`).
-/

namespace TorMarketplace

open Encoding Interleave Prog

namespace Chain

/-- The `currency` of the orders that are paid on the chain. -/
def currency : Chain → String
  | xmr => "XMR"
  | btc => "BTC"

def parseAmount : Chain → String → Option UInt64
  | xmr => parseXmrAmountSafe
  | btc => parseBtcAmountSafe

def requiredConfirmations : Chain → UInt64
  | xmr => requiredConfirmationsXmr
  | btc => requiredConfirmationsBtc

theorem currency_inj {c c' : Chain} (h : c.currency = c'.currency) : c = c' := by
  cases c <;> cases c' <;> first | rfl | exact absurd h (by decide)

end Chain

/-- What is asked about a pending order. -/
structure Payment where
  chain : Chain
  address : String
  expected : UInt64

/-- The poller reads the row `o` as a pending order of content `d`, to be paid by `p`. -/
structure AwaitsPayment (P : Primitives) (workerKey : Bytes) (o : Order) (d : OrderData)
    (p : Payment) : Prop where
  decoded : decodePending P workerKey o = some d
  pending : d.state = "pending"
  currency : d.currency = p.chain.currency
  escrowAddress : d.escrowAddress = some p.address
  escrowAmount : p.chain.parseAmount (d.escrowAmount.getD "0") = some p.expected
  positive : p.expected ≠ 0

/-- A row awaits one payment. -/
theorem AwaitsPayment.unique {P : Primitives} {workerKey : Bytes} {o : Order} {d d' : OrderData}
    {p p' : Payment} (h : AwaitsPayment P workerKey o d p)
    (h' : AwaitsPayment P workerKey o d' p') : d = d' ∧ p = p' := by
  obtain ⟨chain, address, expected⟩ := p
  obtain ⟨chain', address', expected'⟩ := p'
  obtain rfl := Option.some.inj (h.decoded.symm.trans h'.decoded)
  obtain rfl := Chain.currency_inj (h.currency.symm.trans h'.currency)
  obtain rfl := Option.some.inj (h.escrowAddress.symm.trans h'.escrowAddress)
  obtain rfl := Option.some.inj (h.escrowAmount.symm.trans h'.escrowAmount)
  exact ⟨rfl, rfl⟩

/-- The last answer of a payment client: the chain, the address it was asked about, and the status. -/
def lastPayment (past : Past) : Option (Chain × String × PaymentStatus) :=
  past.foldl (fun last r => match r with
    | ⟨.ask (.checkPayment chain address _ _), some status⟩ => some (chain, address, status)
    | _ => last) none

theorem lastPayment_snoc (past : Past) (r : Reply Server) :
    lastPayment (past ++ [r]) = match r with
      | ⟨.ask (.checkPayment chain address _ _), some status⟩ => some (chain, address, status)
      | _ => lastPayment past := by
  rw [lastPayment, List.foldl_append]
  rfl

/-- What stands behind an update: the clock, a row of the snapshot with the payment it awaits, and
the client's answer about that payment, the last one that the pass was given. -/
structure Decision (P : Primitives) (workerKey : Bytes) (past : Past) (o : Order) (d : OrderData)
    (p : Payment) (time : Int64) (status : PaymentStatus) : Prop where
  clock : ⟨.now, time⟩ ∈ past
  snapshot : ∃ rows, ⟨.selectOrders, some rows⟩ ∈ past ∧ o ∈ rows
  awaits : AwaitsPayment P workerKey o d p
  answer : ⟨.ask (.checkPayment p.chain p.address p.expected p.chain.requiredConfirmations),
    some status⟩ ∈ past
  last : lastPayment past = some (p.chain, p.address, status)
  noFork : status.forkDetected = false

/-- What the pass makes of the content `c` of the row `r`. -/
inductive PollEdge (P : Primitives) (workerKey : Bytes) (past : Past) (r : Order) :
    OrderData → OrderData → Prop
  | fund {o : Order} {d : OrderData} {p : Payment} {time : Int64} {status : PaymentStatus}
      (c : OrderData) (h : Decision P workerKey past o d p time status) (hid : r.id = o.id)
      (hreceived : status.received = true)
      (hconfirmed : status.confirmations ≥ p.chain.requiredConfirmations)
      (hc : c.state = "pending") :
      PollEdge P workerKey past r c
        { c with state := "funded", fundedAt := some (floorTimestamp6h time) }
  | cancel {o : Order} {d : OrderData} {p : Payment} {time : Int64} {status : PaymentStatus}
      (c : OrderData) (h : Decision P workerKey past o d p time status) (hid : r.id = o.id)
      (hreceived : status.received = false)
      (hexpired : floorTimestamp6h time > d.expiresAt.getD (floorTimestamp6h time + 86400))
      (hc : c.state = "pending") :
      PollEdge P workerKey past r c { c with state := "cancelled" }
  | settle (c : OrderData) (txid : String) (hc : c.state = "released") :
      PollEdge P workerKey past r c { c with settlementTxid := some txid }

/-- The calls of a pass of the poller. -/
def PollCall (P : Primitives) (workerKey : Bytes) (past : Past) : Call → Prop
  | .updateOrders u => ∃ o d d' blob, WorkerWrite P workerKey past u o d d' blob ∧
      PollEdge P workerKey past o d d'
  | .insertOrder _ => False
  | .restartApi => False
  | .restartWorker => False
  | _ => True

section Pass

variable {st : AppState} {workerKey : Bytes} {P : Primitives}

/-- The last payment answer does not change in a writer. -/
theorem WriteCall.lastPayment_eq {E : Order → OrderData → OrderData → Prop} {past₀ past : Past}
    {c : Call} {b : Option (Chain × String × PaymentStatus)} (h : WriteCall P workerKey E past₀ past c)
    (hb : lastPayment past = b) (a : c.Ans) : lastPayment (past ++ [⟨c, a⟩]) = b := by
  rw [lastPayment_snoc]
  split
  · rename_i heq
    cases heq
    exact (show False from h).elim
  · exact hb

/-- A writer does in a pass what its edges allow there. -/
theorem writer_decides {E : Order → OrderData → OrderData → Prop} {past : Past} {x : Program Unit}
    (hx : Spec server.May (WriteCall P workerKey E past) (OnOk fun _ _ => True) past x)
    (hE : ∀ past' r c c', past ⊆ past' → lastPayment past' = lastPayment past → E r c c' →
      PollEdge P workerKey past' r c c') :
    Spec server.May (PollCall P workerKey) (OnOk fun _ _ => True) past
      (do let _ ← Prog.attempt x; pure () : Program Unit) := by
  rw [spec_attempt_bind]
  refine spec_mono (fun past' c h => ?_) (fun _ _ _ => trivial)
    (spec_frame (fun _ _ a h hb => h.lastPayment_eq hb a) rfl hx)
  obtain ⟨hc, hlast⟩ := h
  cases c
  case updateOrders u =>
    obtain ⟨hsub, o, d, d', blob, hw, hedge⟩ := hc
    exact ⟨o, d, d', blob, hw, hE past' o d d' hsub hlast hedge⟩
  all_goals trivial

theorem Decision.mono {past past' : Past} {o : Order} {d : OrderData} {p : Payment} {time : Int64}
    {status : PaymentStatus} (h : Decision P workerKey past o d p time status) (hsub : past ⊆ past')
    (hlast : lastPayment past' = lastPayment past) :
    Decision P workerKey past' o d p time status where
  clock := hsub h.clock
  snapshot := h.snapshot.imp fun _ hr => ⟨hsub hr.1, hr.2⟩
  awaits := h.awaits
  answer := hsub h.answer
  last := hlast.trans h.last
  noFork := h.noFork

/-- One order of a pass. -/
theorem checkPayment_decides (hkey : st.workerKey = some workerKey) {chain : Chain} {past : Past}
    {time : Int64} {rows : List Order} {o : Order} {d : OrderData} (hclock : ⟨.now, time⟩ ∈ past)
    (hrows : ⟨.selectOrders, some rows⟩ ∈ past) (ho : o ∈ rows)
    (hd : decodePending st.prim workerKey o = some d) (hpending : d.state = "pending")
    (hcurrency : d.currency = chain.currency) :
    Spec server.May (PollCall st.prim workerKey) (OnOk fun _ _ => True) past
      (checkPayment chain chain.parseAmount chain.requiredConfirmations st (floorTimestamp6h time)
        o.id d) := by
  unfold checkPayment
  split
  · simp
  rename_i address haddress
  simp only [spec_orFail_bind, onOk_error, implies_true, true_and]
  intro expected hexpected
  split
  · simp
  rename_i hpositive
  simp only [PollCall, spec_call_bind, true_and]
  intro status _
  cases status with
  | none => simp
  | some status =>
    dsimp only
    by_cases hfork : status.forkDetected = true
    · rw [if_pos hfork]
      simp
    rw [if_neg hfork]
    have hdecision : Decision st.prim workerKey
        (past ++ [⟨.ask (.checkPayment chain address expected chain.requiredConfirmations),
          some status⟩]) o d ⟨chain, address, expected⟩ time status :=
      { clock := List.mem_append_left _ hclock
        snapshot := ⟨rows, List.mem_append_left _ hrows, ho⟩
        awaits := ⟨hd, hpending, hcurrency, haddress, hexpected, hpositive⟩
        answer := List.mem_append_right _ List.mem_cons_self
        last := lastPayment_snoc _ _
        noFork := Bool.eq_false_iff.mpr hfork }
    by_cases hconfirmed : (status.received && status.confirmations ≥ chain.requiredConfirmations) = true
    · rw [if_pos hconfirmed]
      simp only [Bool.and_eq_true, decide_eq_true_eq] at hconfirmed
      split
      · refine writer_decides (markOrderFunded_writeSpec hkey o.id _ _) ?_
        rintro past' r c c' hsub hlast ⟨hid, hc, rfl⟩
        exact .fund c (hdecision.mono hsub hlast) hid hconfirmed.1 hconfirmed.2 hc
      · simp
    rw [if_neg hconfirmed]
    by_cases hreceived : status.received = true
    · rw [if_pos hreceived]
      simp
    rw [if_neg hreceived]
    split
    · rename_i hexpired
      refine writer_decides (markOrderCancelled_writeSpec hkey o.id _) ?_
      rintro past' r c c' hsub hlast ⟨hid, hc, rfl⟩
      exact .cancel c (hdecision.mono hsub hlast) hid (Bool.eq_false_iff.mpr hreceived) hexpired hc
    · simp

theorem mem_pollable {P : Primitives} {workerKey : Bytes} {rows : List Order}
    {x : Bytes × OrderData} (h : x ∈ pollable P workerKey rows) :
    ∃ o ∈ rows, o.id = x.1 ∧ decodePending P workerKey o = some x.2 := by
  obtain ⟨o, ho, hx⟩ := List.mem_filterMap.mp h
  cases hd : decodePending P workerKey o with
  | none => simp [hd] at hx
  | some d =>
    simp only [hd, Option.ite_none_right_eq_some, Option.some.injEq] at hx
    obtain ⟨_, rfl⟩ := hx
    exact ⟨o, ho, rfl, hd⟩

/-- The orders of one chain. -/
theorem checkPayments_decides (hkey : st.workerKey = some workerKey) (chain : Chain) {past : Past}
    {time : Int64} {rows : List Order} (hclock : ⟨.now, time⟩ ∈ past)
    (hrows : ⟨.selectOrders, some rows⟩ ∈ past) {l : List (Bytes × OrderData)}
    (hl : ∀ x ∈ l, x ∈ pollable st.prim workerKey rows ∧ x.2.state = "pending" ∧
      x.2.currency = chain.currency) :
    Spec server.May (PollCall st.prim workerKey) (OnOk fun _ _ => True) past
      (whenNoFork chain (forEach (fun o => checkPayment chain chain.parseAmount
        chain.requiredConfirmations st (floorTimestamp6h time) o.1 o.2) l)) := by
  simp only [whenNoFork, PollCall, spec_call_bind, true_and]
  intro fork _
  split
  · refine spec_forEach_onOk fun x hx past' hsub => ?_
    obtain ⟨hpoll, hpending, hcurrency⟩ := hl x hx
    obtain ⟨o, ho, hid, hd⟩ := mem_pollable hpoll
    rw [← hid]
    exact checkPayment_decides hkey (hsub (List.mem_append_left _ hclock))
      (hsub (List.mem_append_left _ hrows)) ho hd hpending hcurrency
  · simp

theorem verifyPayments_decides (hkey : st.workerKey = some workerKey) {past : Past} {time : Int64}
    {rows : List Order} (hclock : ⟨.now, time⟩ ∈ past) (hrows : ⟨.selectOrders, some rows⟩ ∈ past)
    {xmrOrders btcOrders : List (Bytes × OrderData)}
    (hxmr : ∀ x ∈ xmrOrders, x ∈ pollable st.prim workerKey rows ∧ x.2.state = "pending" ∧
      x.2.currency = "XMR")
    (hbtc : ∀ x ∈ btcOrders, x ∈ pollable st.prim workerKey rows ∧ x.2.state = "pending" ∧
      x.2.currency = "BTC") :
    Spec server.May (PollCall st.prim workerKey) (OnOk fun _ _ => True) past
      (verifyPayments st xmrOrders btcOrders (floorTimestamp6h time)) := by
  unfold verifyPayments
  split
  · simp
  · exact spec_seq_onOk (checkPayments_decides hkey .xmr hclock hrows hxmr) fun past₁ _ hsub _ =>
      checkPayments_decides hkey .btc (hsub hclock) (hsub hrows) hbtc

/-- **Every update of a pass has a decision behind it**, or retries a settlement. -/
theorem checkPendingPayments_decides (hkey : st.workerKey = some workerKey) (past : Past) :
    Spec server.May (PollCall st.prim workerKey) (OnOk fun _ _ => True) past
      (checkPendingPayments st) := by
  simp only [checkPendingPayments, getWorkerKey, PollCall, spec_orFail_bind, spec_call_bind,
    onOk_error, implies_true, true_and]
  intro time _ key hk orders _ rows hrows
  subst hrows
  obtain rfl := Option.some.inj (hk.symm.trans hkey)
  have hpast : (⟨.now, time⟩ : Reply Server) ∈ past ++ [⟨.now, time⟩] ++ [⟨.selectOrders, some rows⟩] ∧
      (⟨.selectOrders, some rows⟩ : Reply Server) ∈
        past ++ [⟨.now, time⟩] ++ [⟨.selectOrders, some rows⟩] := by
    simp
  refine spec_seq_onOk (verifyPayments_decides hkey hpast.1 hpast.2 ?_ ?_) fun past₁ _ _ _ => ?_
  · simp +contextual
  · simp +contextual
  · simp only [PollCall, spec_call_bind, true_and]
    refine fun keys _ => spec_forEach_onOk fun orderId _ past' _ => ?_
    refine writer_decides (retryBtcSettlement_writeSpec hkey orderId past') ?_
    rintro past'' r c c' _ _ ⟨hc, txid, rfl⟩
    exact .settle c txid hc

end Pass

end TorMarketplace
