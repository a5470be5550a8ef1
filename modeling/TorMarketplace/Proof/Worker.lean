import TorMarketplace.Proof.Services

/-!
# What the worker does

One specification for each writer of the worker and each of its passes. They all meet the call
condition `WorkerCall`: an update of the orders table replaces a row that the pass has read and
decoded, by content that is one `WorkerEdge` further, sealed for that row.
-/

namespace TorMarketplace

open Encoding Interleave Prog

/-- What the writers make of an order's content. -/
inductive WorkerEdge : OrderData → OrderData → Prop
  /-- `mark_order_funded` -/
  | fund (d : OrderData) (now : Int64) (h : d.state = "pending") :
      WorkerEdge d { d with state := "funded", fundedAt := some now }
  /-- `mark_order_cancelled` -/
  | cancel (d : OrderData) (h : d.state = "pending") : WorkerEdge d { d with state := "cancelled" }
  /-- `retry_btc_settlement` -/
  | settle (d : OrderData) (txid : String) (h : d.state = "released")
      (hno : d.settlementTxid = none) : WorkerEdge d { d with settlementTxid := some txid }
  /-- `handle_shipped` -/
  | release (d : OrderData) (now : Int64) (h : d.canTransitionTo "released" = true) :
      WorkerEdge d { d with state := "released", releasedAt := some now }
  /-- `handle_funded` -/
  | autoDispute (d : OrderData) (now expiresAt : Int64) (dispute : DisputeData)
      (h : d.canTransitionTo "disputed" = true) :
      WorkerEdge d
        { d with
          state := "disputed"
          disputedAt := some now
          expiresAt := some expiresAt
          disputeId := some dispute.id
          dispute := some dispute }
  /-- `handle_disputed` -/
  | refund (d : OrderData) (now : Int64) (h : d.canTransitionTo "refunded" = true) :
      WorkerEdge d
        { d with
          dispute := d.dispute.map (autoResolve now)
          state := "refunded"
          refundedAt := some now }
  /-- `scan_notifications` -/
  | notify (d : OrderData) (addr buyerPubkey : String) (h : d.escrowAddress = none) :
      WorkerEdge d { d with escrowAddress := some addr, buyerPubkey := some buyerPubkey }

/-- `blob` is an encryption of `d` for the order `id`. -/
def Seals (P : Primitives) (workerKey id : Bytes) (d : OrderData) (blob : Bytes) : Prop :=
  ∃ nonce, nonce.length = 12 ∧ encryptOrderBlob P nonce d.toVec workerKey id = some blob

/-- The update `u` replaces the row `o` of content `d`, which was read before, by one of content
`d'`. -/
structure WorkerWrite (P : Primitives) (workerKey : Bytes) (past : Past) (u : UpdateOrders)
    (o : Order) (d d' : OrderData) (blob : Bytes) : Prop where
  saw : Saw past o
  guarded : u.GuardedBy o
  decoded : decodeOrder P workerKey o = some d
  edge : WorkerEdge d d'
  sealed : Seals P workerKey o.id d' blob
  stored : u.encryptedOrderBlob = some blob

/-- The calls that a pass of the worker may make. -/
def WorkerCall (P : Primitives) (workerKey : Bytes) (past : Past) : Call → Prop
  | .updateOrders u => ∃ o d d' blob, WorkerWrite P workerKey past u o d d' blob
  | .insertOrder i => ∃ d, Seals P workerKey i.id d i.encryptedOrderBlob
  | .restartApi => False
  | .restartWorker => False
  | _ => True

/-- **What was sealed for a row is what is read from it.** -/
theorem Seals.decode {P : Primitives} {workerKey : Bytes} {o : Order} {d : OrderData}
    (h : Seals P workerKey o.id d o.encryptedOrderBlob) : decodeOrder P workerKey o = some d := by
  obtain ⟨nonce, hn, hseal⟩ := h
  rw [decodeOrder, decrypt_encryptOrderBlob hn hseal, Option.bind_some, OrderData.fromSlice_toVec]

section Passes

variable {st : AppState} {workerKey : Bytes}

/-- A program of the worker process: the calls of a pass, and `R` if it succeeds. -/
abbrev WorkerSpec {α : Type} (st : AppState) (workerKey : Bytes) (R : Past → α → Prop) (past : Past)
    (x : Program α) : Prop :=
  Spec server.May (WorkerCall st.prim workerKey) (OnOk R) past x

/-- The calls that read a row or ask the environment, though not a payment client. -/
def ReadCall (_ : Past) : Call → Prop
  | .selectOrder _ => True
  | .ask (.checkPayment ..) => False
  | .ask _ => True
  | _ => False

theorem ReadCall.workerCall {P : Primitives} {past : Past} {c : Call} (h : ReadCall past c) :
    WorkerCall P workerKey past c := by
  cases c
  case selectOrder => trivial
  case ask => trivial
  all_goals exact h.elim

theorem sealOrder_reads (orderId : Bytes) (d : OrderData) (past : Past) :
    Spec server.May ReadCall (OnOk fun _ blob => Seals st.prim workerKey orderId d blob) past
      (sealOrder st workerKey orderId d) := by
  simp only [sealOrder, ReadCall, spec_call_bind, spec_orFail, onOk_ok, onOk_error, implies_true,
    true_and]
  exact fun nonce hn blob hblob => ⟨nonce, may_randomBytes hn, hblob⟩

theorem loadOrder_reads (hkey : st.workerKey = some workerKey) (orderId : Bytes) (past : Past) :
    Spec server.May ReadCall (OnOk fun past' l => l.1 = workerKey ∧ l.2.1.id = orderId ∧
      Saw past' l.2.1 ∧ decodeOrder st.prim workerKey l.2.1 = some l.2.2) past
      (loadOrder st orderId) := by
  simp only [loadOrder, ReadCall, spec_orFail_bind, spec_call_bind, spec_pure, onOk_ok, onOk_error,
    implies_true, true_and]
  intro key hk order hread _ ho o hsome raw hraw d hd
  subst ho hsome
  obtain ⟨rfl, _⟩ := may_selectOrder hread
  obtain rfl := Option.some.inj (hk.symm.trans hkey)
  exact ⟨rfl, rfl, .row (by simp), by rw [decodeOrder, hraw, Option.bind_some, hd]⟩

theorem sealOrder_spec (orderId : Bytes) (d : OrderData) (past : Past) :
    WorkerSpec st workerKey (fun _ blob => Seals st.prim workerKey orderId d blob) past
      (sealOrder st workerKey orderId d) :=
  spec_mono (fun _ _ => ReadCall.workerCall) (fun _ _ h => h) (sealOrder_reads orderId d past)

theorem loadOrder_spec (hkey : st.workerKey = some workerKey) (orderId : Bytes) (past : Past) :
    WorkerSpec st workerKey (fun past' l => l.1 = workerKey ∧ l.2.1.id = orderId ∧
      Saw past' l.2.1 ∧ decodeOrder st.prim workerKey l.2.1 = some l.2.2) past
      (loadOrder st orderId) :=
  spec_mono (fun _ _ => ReadCall.workerCall) (fun _ _ h => h) (loadOrder_reads hkey orderId past)

/-- The end of a writer: an update with the guard and the content of a `WorkerWrite`. -/
theorem workerCall_update {past past₀ : Past} {o : Order} {d d' : OrderData} {blob : Bytes}
    {expiryBucket : Option (Option Int64)} (hsub : past₀ ⊆ past) (hsaw : Saw past₀ o)
    (hd : decodeOrder st.prim workerKey o = some d) (hedge : WorkerEdge d d')
    (hblob : Seals st.prim workerKey o.id d' blob) :
    WorkerCall st.prim workerKey past (.updateOrders
      { encryptedOrderBlob := some blob, expiryBucket, bumpVersion := true, whereId := o.id,
        whereVersion := some o.version }) :=
  ⟨o, d, d', blob, hsaw.mono hsub, ⟨rfl, rfl, rfl⟩, hd, hedge, hblob, rfl⟩

/-- The calls of a writer that knows `past₀` and replaces the content `d` of the row `o` by `d'` only
if `E o d d'`. -/
def WriteCall (P : Primitives) (workerKey : Bytes) (E : Order → OrderData → OrderData → Prop)
    (past₀ past : Past) : Call → Prop
  | .updateOrders u =>
    past₀ ⊆ past ∧ ∃ o d d' blob, WorkerWrite P workerKey past u o d d' blob ∧ E o d d'
  | .insertOrder _ => False
  | .restartApi => False
  | .restartWorker => False
  | .ask (.checkPayment ..) => False
  | _ => True

theorem ReadCall.writeCall {P : Primitives} {E : Order → OrderData → OrderData → Prop}
    {past₀ past : Past} {c : Call} (h : ReadCall past c) : WriteCall P workerKey E past₀ past c := by
  cases c
  case selectOrder => trivial
  case ask q =>
    cases q
    case checkPayment => exact h
    all_goals trivial
  all_goals exact h.elim

theorem WriteCall.workerCall {P : Primitives} {E : Order → OrderData → OrderData → Prop}
    {past₀ past : Past} {c : Call} (h : WriteCall P workerKey E past₀ past c) :
    WorkerCall P workerKey past c := by
  cases c
  case updateOrders u =>
    obtain ⟨_, o, d, d', blob, hw, _⟩ := h
    exact ⟨o, d, d', blob, hw⟩
  all_goals trivial

/-- What `mark_order_funded` makes of an order. -/
def Funds (id : Bytes) (now : Int64) (o : Order) (d d' : OrderData) : Prop :=
  o.id = id ∧ d.state = "pending" ∧ d' = { d with state := "funded", fundedAt := some now }

/-- What `mark_order_cancelled` makes of an order. -/
def Cancels (id : Bytes) (o : Order) (d d' : OrderData) : Prop :=
  o.id = id ∧ d.state = "pending" ∧ d' = { d with state := "cancelled" }

theorem markOrderFunded_writeSpec (hkey : st.workerKey = some workerKey) (orderId : Bytes)
    (now : Int64) (past : Past) :
    Spec server.May (WriteCall st.prim workerKey (Funds orderId now) past) (OnOk fun _ _ => True)
      past (markOrderFunded st orderId now) := by
  refine spec_seq_onOk (spec_mono (fun _ _ => ReadCall.writeCall) (fun _ _ h => h)
    (loadOrder_reads hkey orderId past)) fun past₁ ⟨key, o, d⟩ hsub₁ hload => ?_
  obtain ⟨rfl, rfl, hsaw, hd⟩ := hload
  simp only [spec_ensure_bind, spec_call_bind, onOk_error, implies_true, true_and, decide_eq_true_eq]
  refine fun hstate => ⟨trivial, fun _ _ => ?_⟩
  refine spec_seq_onOk (spec_mono (fun _ _ => ReadCall.writeCall) (fun _ _ h => h)
    (sealOrder_reads o.id _ _)) fun past₂ blob hsub hblob => ?_
  simp only [spec_call_bind, spec_orFail_bind, spec_ensure, onOk_ok, onOk_error, implies_true,
    and_true]
  have hsub₂ : past₁ ⊆ past₂ := List.Subset.trans (List.subset_append_left _ _) hsub
  exact ⟨List.Subset.trans hsub₁ hsub₂, o, d, _, blob,
    ⟨hsaw.mono hsub₂, ⟨rfl, rfl, rfl⟩, hd, .fund d now hstate, hblob, rfl⟩, rfl, hstate, rfl⟩

theorem markOrderFunded_spec (hkey : st.workerKey = some workerKey) (orderId : Bytes) (now : Int64)
    (past : Past) :
    WorkerSpec st workerKey (fun _ _ => True) past (markOrderFunded st orderId now) :=
  spec_mono (fun _ _ => WriteCall.workerCall) (fun _ _ h => h)
    (markOrderFunded_writeSpec hkey orderId now past)

theorem markOrderCancelled_writeSpec (hkey : st.workerKey = some workerKey) (orderId : Bytes)
    (past : Past) :
    Spec server.May (WriteCall st.prim workerKey (Cancels orderId) past) (OnOk fun _ _ => True) past
      (markOrderCancelled st orderId) := by
  refine spec_seq_onOk (spec_mono (fun _ _ => ReadCall.writeCall) (fun _ _ h => h)
    (loadOrder_reads hkey orderId past)) fun past₁ ⟨key, o, d⟩ hsub₁ hload => ?_
  obtain ⟨rfl, rfl, hsaw, hd⟩ := hload
  simp only [spec_ensure_bind, onOk_error, implies_true, true_and, decide_eq_true_eq]
  intro hstate
  refine spec_seq_onOk (spec_mono (fun _ _ => ReadCall.writeCall) (fun _ _ h => h)
    (sealOrder_reads o.id _ _)) fun past₂ blob hsub₂ hblob => ?_
  simp only [spec_call_bind, spec_orFail_bind, spec_ensure, onOk_ok, onOk_error, implies_true,
    and_true]
  exact ⟨List.Subset.trans hsub₁ hsub₂, o, d, _, blob,
    ⟨hsaw.mono hsub₂, ⟨rfl, rfl, rfl⟩, hd, .cancel d hstate, hblob, rfl⟩, rfl, hstate, rfl⟩

theorem markOrderCancelled_spec (hkey : st.workerKey = some workerKey) (orderId : Bytes)
    (past : Past) :
    WorkerSpec st workerKey (fun _ _ => True) past (markOrderCancelled st orderId) :=
  spec_mono (fun _ _ => WriteCall.workerCall) (fun _ _ h => h)
    (markOrderCancelled_writeSpec hkey orderId past)

/-- A settlement sets the transaction id of an order that has none, and nothing else. -/
theorem settleStealthOrder_reads (orderId : Bytes) (d : OrderData) (past : Past) :
    Spec server.May ReadCall (OnOk fun _ d' => d' = d ∨
      d.settlementTxid = none ∧ ∃ txid, d' = { d with settlementTxid := some txid }) past
      (settleStealthOrder st orderId d) := by
  unfold settleStealthOrder
  split
  · simp
  · rename_i hno
    simp only [not_or, Option.not_isSome_iff_eq_none] at hno
    simp only [ReadCall, spec_ensure_bind, spec_orFail_bind, spec_call_bind, spec_pure, onOk_ok,
      onOk_error, implies_true, true_and]
    intros
    exact .inr ⟨hno.2, _, rfl⟩

/-- What `retry_btc_settlement` makes of an order. -/
def Settles (_ : Order) (d d' : OrderData) : Prop :=
  d.state = "released" ∧ ∃ txid, d' = { d with settlementTxid := some txid }

theorem retryBtcSettlement_writeSpec (hkey : st.workerKey = some workerKey) (orderId : Bytes)
    (past : Past) :
    Spec server.May (WriteCall st.prim workerKey Settles past) (OnOk fun _ _ => True) past
      (retryBtcSettlement st orderId) := by
  refine spec_seq_onOk (spec_mono (fun _ _ => ReadCall.writeCall) (fun _ _ h => h)
    (loadOrder_reads hkey orderId past)) fun past₁ ⟨key, o, d⟩ hsub₁ hload => ?_
  obtain ⟨rfl, rfl, hsaw, hd⟩ := hload
  dsimp only
  split
  · simp
  · rename_i hno
    simp only [not_or, not_not, Option.not_isSome_iff_eq_none] at hno
    rw [spec_attempt_bind]
    refine spec_mono (fun _ _ => ReadCall.writeCall) (fun past₂ r hr => ?_)
      (spec_past (List.Subset.refl _) (settleStealthOrder_reads o.id d past₁))
    obtain ⟨hsub, hr⟩ := hr
    cases r with
    | error _ => simp
    | ok d' =>
      dsimp only
      split
      · rename_i hsome
        rcases hr with rfl | ⟨_, txid, rfl⟩
        · rw [hno.2] at hsome
          exact absurd hsome (by simp)
        · refine spec_seq_onOk (spec_mono (fun _ _ => ReadCall.writeCall) (fun _ _ h => h)
            (sealOrder_reads o.id _ _)) fun past₃ blob hsub' hblob => ?_
          simp only [spec_call_bind, spec_orFail_bind, spec_pure, onOk_ok, onOk_error, implies_true,
            and_true]
          have hsub₃ : past₁ ⊆ past₃ := List.Subset.trans hsub hsub'
          exact ⟨List.Subset.trans hsub₁ hsub₃, o, d, _, blob,
            ⟨hsaw.mono hsub₃, ⟨rfl, rfl, rfl⟩, hd, .settle d txid hno.1 hno.2, hblob, rfl⟩,
            hno.1, txid, rfl⟩
      · simp

theorem retryBtcSettlement_spec (hkey : st.workerKey = some workerKey) (orderId : Bytes)
    (past : Past) :
    WorkerSpec st workerKey (fun _ _ => True) past (retryBtcSettlement st orderId) :=
  spec_mono (fun _ _ => WriteCall.workerCall) (fun _ _ h => h)
    (retryBtcSettlement_writeSpec hkey orderId past)

/-- A writer whose failure is ignored. -/
theorem WorkerSpec.attempt {x : Program Unit} {past : Past}
    (h : WorkerSpec st workerKey (fun _ _ => True) past x) :
    WorkerSpec st workerKey (fun _ _ => True) past (do let _ ← Prog.attempt x; pure ()) := by
  rw [WorkerSpec, spec_attempt_bind]
  exact spec_mono (fun _ _ h => h) (fun _ _ _ => trivial) h

theorem checkPayment_spec (hkey : st.workerKey = some workerKey) (chain : Chain)
    (parseAmount : String → Option UInt64) (required : UInt64) (now : Int64) (rowId : Bytes)
    (d : OrderData) (past : Past) :
    WorkerSpec st workerKey (fun _ _ => True) past
      (checkPayment chain parseAmount required st now rowId d) := by
  have hfund := fun past => (markOrderFunded_spec hkey rowId now past).attempt
  have hcancel := fun past => (markOrderCancelled_spec hkey rowId past).attempt
  unfold checkPayment
  split
  · simp
  · simp only [spec_orFail_bind, onOk_error, implies_true, true_and]
    intro expected _
    split
    · simp
    · simp only [WorkerCall, spec_call_bind, true_and]
      intro status _
      cases status with
      | none => simp
      | some status =>
        dsimp only
        repeat' split
        all_goals first | exact hfund _ | exact hcancel _ | simp

theorem whenNoFork_spec {chain : Chain} {body : Program Unit} {past : Past}
    (h : ∀ past', WorkerSpec st workerKey (fun _ _ => True) past' body) :
    WorkerSpec st workerKey (fun _ _ => True) past (whenNoFork chain body) := by
  simp only [whenNoFork, WorkerCall, spec_call_bind, true_and]
  intro fork _
  split
  · exact h _
  · simp

theorem verifyPayments_spec (hkey : st.workerKey = some workerKey)
    (xmrOrders btcOrders : List (Bytes × OrderData)) (now : Int64) (past : Past) :
    WorkerSpec st workerKey (fun _ _ => True) past
      (verifyPayments st xmrOrders btcOrders now) := by
  unfold verifyPayments
  split
  · simp
  · refine spec_seq_onOk (whenNoFork_spec fun _ => ?_) fun _ _ _ _ => whenNoFork_spec fun _ => ?_
    · exact spec_forEach_onOk fun _ _ _ _ => checkPayment_spec hkey _ _ _ now _ _ _
    · exact spec_forEach_onOk fun _ _ _ _ => checkPayment_spec hkey _ _ _ now _ _ _

theorem checkPendingPayments_spec (hkey : st.workerKey = some workerKey) (past : Past) :
    WorkerSpec st workerKey (fun _ _ => True) past (checkPendingPayments st) := by
  simp only [checkPendingPayments, getWorkerKey, WorkerCall, spec_orFail_bind, spec_call_bind,
    onOk_error, implies_true, true_and]
  intro time _ key _ orders _ rows _
  refine spec_seq_onOk (verifyPayments_spec hkey _ _ _ _) fun past₁ _ _ _ => ?_
  simp only [WorkerCall, spec_call_bind, true_and]
  exact fun keys _ => spec_forEach_onOk fun orderId _ past' _ =>
    (retryBtcSettlement_spec hkey orderId past').attempt

theorem writeOrder_spec (hkey : st.workerKey = some workerKey) {o : Order} {d d' : OrderData}
    {past : Past} (hsaw : Saw past o) (hd : decodeOrder st.prim workerKey o = some d)
    (hedge : WorkerEdge d d') :
    WorkerSpec st workerKey (fun _ _ => True) past (writeOrder st o.id d' o.version) := by
  simp only [writeOrder, getWorkerKey, spec_orFail_bind, onOk_error, implies_true, true_and]
  intro key hk
  obtain rfl := Option.some.inj (hk.symm.trans hkey)
  refine spec_seq_onOk (sealOrder_spec o.id d' past) fun past₁ blob hsub hblob => ?_
  simp only [spec_call_bind, spec_orFail_bind, spec_ensure, onOk_ok, onOk_error, implies_true,
    and_true]
  exact workerCall_update hsub hsaw hd hedge hblob

section TimeLock

variable {o : Order} {d : OrderData} {past : Past}

theorem handleShipped_spec (hkey : st.workerKey = some workerKey) (now : Int64) (hsaw : Saw past o)
    (hd : decodeOrder st.prim workerKey o = some d) :
    WorkerSpec st workerKey (fun _ _ => True) past (handleShipped st o.id d now o.version) := by
  unfold handleShipped
  split
  · simp
  split
  · simp
  rename_i hcan
  dsimp only
  split
  · exact writeOrder_spec hkey hsaw hd (.release d now (not_not.mp hcan))
  · simp

theorem handleFunded_spec (hkey : st.workerKey = some workerKey) (now : Int64) (hsaw : Saw past o)
    (hd : decodeOrder st.prim workerKey o = some d) :
    WorkerSpec st workerKey (fun _ _ => True) past (handleFunded st o.id d now o.version) := by
  unfold handleFunded
  split
  · simp
  split
  · simp
  rename_i hcan
  dsimp only
  split
  · simp only [WorkerCall, spec_call_bind, true_and]
    exact fun uuid _ => writeOrder_spec hkey (hsaw.mono (List.subset_append_left _ _)) hd
      (.autoDispute d now _ { id := uuidString uuid, .. } (not_not.mp hcan))
  · simp

theorem handleDisputed_spec (hkey : st.workerKey = some workerKey) (now : Int64) (hsaw : Saw past o)
    (hd : decodeOrder st.prim workerKey o = some d) :
    WorkerSpec st workerKey (fun _ _ => True) past (handleDisputed st o.id d now o.version) := by
  unfold handleDisputed
  split
  · simp
  rename_i hcan
  dsimp only
  split
  · exact writeOrder_spec hkey hsaw hd (.refund d now (not_not.mp hcan))
  · simp

theorem checkTimeLock_spec (hkey : st.workerKey = some workerKey) (now : Int64)
    (hsaw : Saw past o) :
    WorkerSpec st workerKey (fun _ _ => True) past (checkTimeLock st workerKey now o) := by
  unfold checkTimeLock
  split
  · simp
  rename_i d hd
  split
  · exact handleShipped_spec hkey now hsaw hd
  split
  · exact handleFunded_spec hkey now hsaw hd
  split
  · exact handleDisputed_spec hkey now hsaw hd
  · simp

end TimeLock

theorem checkTimeLocks_spec (hkey : st.workerKey = some workerKey) (past : Past) :
    WorkerSpec st workerKey (fun _ _ => True) past (checkTimeLocks st) := by
  simp only [checkTimeLocks, getWorkerKey, WorkerCall, spec_orFail_bind, spec_call_bind,
    onOk_error, implies_true, true_and]
  intro time _ key hk orders _ rows hrows
  obtain rfl := Option.some.inj (hk.symm.trans hkey)
  subst hrows
  -- every row of the snapshot stays one that the pass has seen
  exact spec_forEach_onOk fun o ho past' hsub =>
    checkTimeLock_spec hkey _ (.snapshot (hsub (by simp)) ho)

theorem scanTx_spec (hkey : st.workerKey = some workerKey) (tx : TxEntry) (past : Past) :
    WorkerSpec st workerKey (fun _ _ => True) past (scanTx st tx) := by
  unfold scanTx
  split
  · simp
  simp only [WorkerCall, spec_orFail_bind, spec_call_bind, onOk_error, implies_true, true_and]
  intro txHash _ tracker _ already _
  split
  · simp
  simp only [WorkerCall, spec_call_bind, true_and]
  intro raw _
  cases raw with
  | none => simp
  | some hex =>
    simp only [WorkerCall, spec_call_bind, true_and]
    intro vouts _
    split
    · simp
    rename_i orderId buyerPubkey _
    split
    · simp
    simp only [WorkerCall, spec_orFail_bind, spec_call_bind, onOk_error, implies_true, true_and]
    intro read hread row hrow
    subst hrow
    rw [hkey]
    cases row with
    | none => simp
    | some o =>
      obtain ⟨rfl, _⟩ := may_selectOrder hread
      dsimp only
      split
      · simp
      rename_i d hd
      split
      · simp
      rename_i hno
      split
      · simp
      simp only [WorkerCall, spec_call_bind, true_and]
      intro addr _
      cases addr with
      | none => simp
      | some addr =>
        refine spec_seq_onOk (sealOrder_spec o.id _ _) fun past₁ blob hsub hblob => ?_
        simp only [WorkerCall, spec_call_bind, spec_orFail_bind, spec_orFail, onOk_ok, onOk_error,
          implies_true, and_true]
        exact workerCall_update hsub (.row (by simp)) hd
          (.notify d addr (hexEncode buyerPubkey) (Option.not_isSome_iff_eq_none.mp hno)) hblob

theorem scanNotifications_spec (hkey : st.workerKey = some workerKey) (past : Past) :
    WorkerSpec st workerKey (fun _ _ => True) past (scanNotifications st) := by
  simp only [scanNotifications, WorkerCall, spec_ensure_bind, spec_call_bind, onOk_error,
    implies_true, true_and]
  intro _ lastBlock _
  cases lastBlock with
  | none =>
    simp only [WorkerCall, spec_orFail_bind, spec_call_bind, onOk_error, implies_true, true_and]
    exact fun height _ _ _ hash _ _ _ => ⟨trivial, fun _ _ => trivial⟩
  | some blockHash =>
    simp only [WorkerCall, spec_call_bind, true_and]
    intro listed _
    cases listed with
    | none => simp
    | some listed =>
      exact spec_seq_onOk (spec_forEach_onOk fun tx _ past' _ => scanTx_spec hkey tx past')
        fun _ _ _ _ => ⟨trivial, fun _ _ => trivial⟩

theorem runDummyWorker_spec (hkey : st.workerKey = some workerKey) (past : Past) :
    WorkerSpec st workerKey (fun _ _ => True) past (runDummyWorker st) := by
  simp only [runDummyWorker, WorkerCall, spec_call_bind, true_and]
  intro run _
  split
  · simp
  simp only [WorkerCall, spec_call_bind, true_and]
  intro time _ order _
  obtain ⟨orderId, d⟩ := order
  rw [hkey]
  simp only [WorkerCall, spec_call_bind, true_and]
  intro nonce hnonce
  split
  · simp
  rename_i blob hblob
  simp only [spec_call_bind, spec_orFail, onOk_ok, onOk_error, implies_true, and_true]
  exact ⟨d, nonce, may_randomBytes hnonce, hblob⟩

end Passes

end TorMarketplace
