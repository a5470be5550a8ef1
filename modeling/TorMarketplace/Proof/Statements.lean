import TorMarketplace.Proof.Polling

/-!
# The statements of each job

Which SQL a job sends to the orders table, with every column it sets: one `UPDATE` for each of the
five handlers that write, the `INSERT` of `create_order` and of the dummy worker, and the writes of
the passes. Where `CallSpec` says what every update has in common, `Statement` tells them apart.
-/

namespace TorMarketplace

open Encoding Interleave Prog

/-! ## Requests -/

/-- The order that the handler of a route updates, as the request spells its id. -/
def Route.orderText : Route → Body → Option String
  | .updateOrder id, .updateOrder _ => some id
  | .openDispute, .openDispute req => some req.orderId
  | .updateDispute id, .updateDispute _ => some id
  | .resolveDispute id, .resolveDispute _ => some id
  | .updateChat orderId, .sendMessage _ => some orderId
  | _, _ => none

/-- The blob that a body brings. -/
def Body.blob : Body → Option Bytes
  | .createOrder req => base64Decode req.clientEncryptedBlob
  | .updateOrder req => base64Decode req.clientEncryptedBlob
  | .openDispute req => base64Decode req.clientEncryptedBlob
  | .updateDispute req => base64Decode req.clientEncryptedBlob
  | .resolveDispute req => base64Decode req.outcomeBlob
  | .sendMessage req => base64Decode req.chatEncryptedBlob
  | _ => none

/-- The `UPDATE` that the handler of a route makes of the row it has read. -/
def Route.update (row : Order) (blob : Bytes) : Route → Option UpdateOrders
  | .updateOrder _ => some
    { encryptedOrderBlob := some blob, bumpVersion := true, whereId := row.id,
      whereVersion := some row.version }
  | .openDispute => some
    { disputeClientBlob := some blob, hasDispute := some 1, bumpVersion := true, whereId := row.id,
      whereVersion := some row.version }
  | .updateDispute _ => some
    { disputeClientBlob := some blob, bumpVersion := true, whereId := row.id,
      whereVersion := some row.version }
  | .resolveDispute _ => some
    { disputeClientBlob := some blob, hasDispute := some 0, bumpVersion := true, whereId := row.id,
      whereVersion := some row.version }
  | .updateChat _ => some
    { chatEncryptedBlob := some blob, bumpVersion := true, whereId := row.id,
      whereVersion := some row.version }
  | _ => none

/-- The statements of the handler of a route. -/
def HandlerCall (target : Route) (body : Body) (past : Past) : Call → Prop
  | .updateOrders u => ∃ row blob, ⟨.selectOrder row.id, some (some row)⟩ ∈ past ∧
      (target.orderText body).bind hexDecode = some row.id ∧ body.blob = some blob ∧
      target.update row blob = some u
  | .insertOrder i => target = .createOrder ∧ body.blob = some i.encryptedOrderBlob ∧
      i.id.length = 16
  | _ => True

section Handlers

variable (past : Past)

/-- A program with the statements of the handler of a route. -/
abbrev HandlerSpec {α : Type} (target : Route) (body : Body) (past : Past) (x : Program α) : Prop :=
  Spec server.May (HandlerCall target body) (OnOk fun _ _ => True) past x

theorem createOrder_statements (st : AppState) (req : CreateOrderRequest) :
    HandlerSpec .createOrder (.createOrder req) past (createOrder st req) := by
  simp only [createOrder, HandlerCall, spec_orFail_bind, spec_ensure_bind, spec_call_bind, spec_pure,
    onOk_ok, onOk_error, implies_true, and_true, true_and]
  intro blob hblob _ _ _ _ _ time _ id hid
  exact ⟨hblob, may_randomBytes hid⟩

theorem updateOrder_statements (st : AppState) (auth : Authed) (id : String)
    (req : UpdateOrderRequest) :
    HandlerSpec (.updateOrder id) (.updateOrder req) past (updateOrder st auth id req) := by
  simp only [updateOrder, HandlerCall, spec_orFail_bind, spec_ensure_bind, spec_call_bind, spec_pure,
    onOk_ok, onOk_error, implies_true, and_true, true_and]
  intro idBytes hid blob hblob _ _ fresh _ _ current hcur _ hc row hrow _ _ _ _ _ _
  subst hc hrow
  obtain ⟨rfl, _⟩ := may_selectOrder hcur
  exact ⟨row, blob, by simp, hid, hblob, rfl⟩

theorem openDispute_statements (req : OpenDisputeRequest) :
    HandlerSpec .openDispute (.openDispute req) past (openDispute req) := by
  simp only [openDispute, HandlerCall, spec_orFail_bind, spec_ensure_bind, spec_call_bind, spec_pure,
    onOk_ok, onOk_error, implies_true, and_true, true_and]
  intro idBytes hid blob hblob _ fresh _ _ _ _ current hcur _ hc row hrow
  subst hc hrow
  obtain ⟨rfl, _⟩ := may_selectOrder hcur
  exact ⟨row, blob, by simp, hid, hblob, rfl⟩

theorem updateDispute_statements (id : String) (req : UpdateDisputeRequest) :
    HandlerSpec (.updateDispute id) (.updateDispute req) past (updateDispute id req) := by
  simp only [updateDispute, HandlerCall, spec_orFail_bind, spec_ensure_bind, spec_call_bind,
    spec_pure, onOk_ok, onOk_error, implies_true, and_true, true_and]
  intro idBytes hid blob hblob _ fresh _ _ current hcur _ hc row hrow
  subst hc hrow
  obtain ⟨rfl, _⟩ := may_selectOrder hcur
  exact ⟨row, blob, by simp, hid, hblob, rfl⟩

theorem updateChat_statements (orderId : String) (req : SendMessageRequest) :
    HandlerSpec (.updateChat orderId) (.sendMessage req) past (updateChat orderId req) := by
  simp only [updateChat, HandlerCall, spec_orFail_bind, spec_ensure_bind, spec_call_bind, spec_pure,
    onOk_ok, onOk_error, implies_true, and_true, true_and]
  intro idBytes hid blob hblob _ current hcur _ hc row hrow _ _ _
  subst hc hrow
  obtain ⟨rfl, _⟩ := may_selectOrder hcur
  exact ⟨row, blob, by simp, hid, hblob, rfl⟩

theorem resolveDispute_statements (st : AppState) (id : String) (req : ResolveDisputeRequest) :
    HandlerSpec (.resolveDispute id) (.resolveDispute req) past (resolveDispute st id req) := by
  simp only [resolveDispute, spec_orFail_bind, onOk_error, implies_true, true_and]
  intro kp hkp
  refine spec_seq_onOk (decodeToken_spec req.token past) fun past₁ t _ _ => ?_
  simp only [checkToken, HandlerCall, bind_bind, spec_orFail_bind, spec_ensure_bind, spec_call_bind,
    spec_pure, onOk_ok, onOk_error, implies_true, and_true, true_and]
  intro _ _ now _ _ fresh _ _ idBytes hid blob hblob _ current hcur _ hc row hrow
  subst hc hrow
  obtain ⟨rfl, _⟩ := may_selectOrder hcur
  exact ⟨row, blob, by simp, hid, hblob, rfl⟩

/-- The other handlers write no order. -/
theorem handle_statements (st : AppState) (auth : Option Authed) (target : Route) (body : Body) :
    HandlerSpec target body past (handle st auth target body) := by
  have respond : ∀ {α : Type} {x : Program α} {wrap : α → Response},
      HandlerSpec target body past x →
        HandlerSpec target body past (x >>= fun resp => pure (wrap resp)) :=
    fun h => spec_seq_onOk h fun _ _ _ _ => trivial
  unfold handle
  split
  all_goals simp only [HandlerSpec, spec_orFail_bind, onOk_error, implies_true, true_and, spec_fail]
  · exact fun _ _ => respond (createOrder_statements past st _)
  · exact fun _ _ => respond (by simp [getOrder, HandlerCall])
  · exact fun a _ => respond (updateOrder_statements past st a _ _)
  · exact fun _ _ => respond (openDispute_statements past _)
  · exact fun _ _ => respond (by simp [getDispute, HandlerCall])
  · exact fun _ _ => respond (updateDispute_statements past _ _)
  · exact respond (resolveDispute_statements past st _ _)
  · refine fun _ _ => respond ?_
    simp only [getChat, HandlerCall, HandlerSpec, spec_orFail_bind, spec_call_bind, onOk_error,
      implies_true, true_and]
    intro idBytes _ current _ row _
    cases row with
    | none => simp
    | some row => simp [HandlerCall]
  · exact fun _ _ => respond (updateChat_statements past _ _)
  · exact respond (by simp [blindSign])
  · exact respond (by simp [getAdminPubkey])
  · refine respond ?_
    simp only [rotateKek, HandlerSpec, spec_orFail_bind, onOk_error, implies_true, true_and]
    intro kp _
    refine spec_seq_onOk (decodeToken_spec _ past) fun past₁ t _ _ => ?_
    simp [checkToken, HandlerCall]
  · exact respond (by simp [challenge, cleanupChallenges, HandlerCall])
  · exact respond (by simp [verify, cleanupChallenges, HandlerCall])

end Handlers

/-- The statements of a request: those of the handler that the router picks. -/
def RequestCall (r : Request) (past : Past) : Call → Prop
  | .updateOrders u => ∃ target, route r.method r.path = some target ∧
      HandlerCall target r.body past (.updateOrders u)
  | .insertOrder i => ∃ target, route r.method r.path = some target ∧
      HandlerCall target r.body past (.insertOrder i)
  | _ => True

theorem HandlerCall.requestCall {r : Request} {target : Route} {past : Past} {c : Call}
    (hroute : route r.method r.path = some target) (h : HandlerCall target r.body past c) :
    RequestCall r past c := by
  cases c with
  | updateOrders u => exact ⟨target, hroute, h⟩
  | insertOrder i => exact ⟨target, hroute, h⟩
  | _ => trivial

theorem handleRequest_statements (st : AppState) (r : Request) :
    Spec server.May (RequestCall r) (OnOk fun _ _ => True) [] (handleRequest st r) :=
  handleRequest_of_handle st r
    (fun _ c hc => by cases c <;> first | trivial | exact Bool.noConfusion hc)
    fun _ auth target _ htarget => spec_mono (fun _ _ h => h.requestCall htarget) (fun _ _ h => h)
      (handle_statements _ st auth target r.body)

/-! ## The time-lock checker -/

/-- The automatic dispute of a funded order is due. -/
def DisputeDue (now : Int64) (d : OrderData) : Prop :=
  d.state = "funded" ∧ hasActiveDispute d = false ∧
    now ≥ saturatingAdd (d.fundedAt.getD d.createdAt) (saturatingMul d.timeLockSeconds 2)

/-- The automatic refund of a disputed order is due. -/
def RefundDue (now : Int64) (d : OrderData) : Prop :=
  d.state = "disputed" ∧ now ≥ d.expiresAt.getD (saturatingAdd d.createdAt d.timeLockSeconds)

instance (now : Int64) (d : OrderData) : Decidable (DisputeDue now d) :=
  inferInstanceAs (Decidable (_ ∧ _ ∧ _))

instance (now : Int64) (d : OrderData) : Decidable (RefundDue now d) :=
  inferInstanceAs (Decidable (_ ∧ _))

/-- The dispute that `handle_funded` opens. -/
def abandonDispute (uuid : Bytes) (now : Int64) (d : OrderData) : DisputeData where
  id := uuidString uuid
  openedBy := hexEncode d.buyerPubkeyHash
  reason := "Auto-dispute: seller timeout after 2x time lock"
  resolution := none
  resolvedBy := none
  resolvedAt := none
  createdAt := now
  evidence := []

/-- What `handle_funded` makes of an order. -/
def autoDisputed (uuid : Bytes) (now : Int64) (d : OrderData) : OrderData :=
  { d with
    state := "disputed"
    disputedAt := some now
    expiresAt := some (saturatingAdd now d.timeLockSeconds)
    disputeId := some (uuidString uuid)
    dispute := some (abandonDispute uuid now d) }

/-- What `handle_disputed` makes of an order. -/
def autoRefunded (now : Int64) (d : OrderData) : OrderData :=
  { d with
    dispute := d.dispute.map (autoResolve now)
    state := "refunded"
    refundedAt := some now }

/-- The two moves of the time-lock checker. There is no third: a shipped order can not be released,
since `state_transitions` has no edge from `shipped` to `released`. -/
inductive TimeLockMove (now : Int64) (d : OrderData) : OrderData → Prop
  | dispute (uuid : Bytes) (h : DisputeDue now d) : TimeLockMove now d (autoDisputed uuid now d)
  | refund (h : RefundDue now d) : TimeLockMove now d (autoRefunded now d)

/-- The `UPDATE` with which a pass replaces the content of the row `o`. -/
def contentUpdate (o : Order) (d : OrderData) (blob : Bytes) : UpdateOrders where
  encryptedOrderBlob := some blob
  expiryBucket := some (d.expiresAt.map floorTimestamp6h)
  bumpVersion := true
  whereId := o.id
  whereVersion := some o.version

theorem contentUpdate_guardedBy (o : Order) (d : OrderData) (blob : Bytes) :
    (contentUpdate o d blob).GuardedBy o :=
  ⟨rfl, rfl, rfl⟩

/-- The calls of a pass at `now` over the snapshot `rows`. -/
def TimeLockWrites (P : Primitives) (workerKey : Bytes) (now : Int64) (rows : List Order) :
    Call → Prop
  | .updateOrders u => ∃ o ∈ rows, ∃ d d' blob, decodeOrder P workerKey o = some d ∧
      TimeLockMove now d d' ∧ Seals P workerKey o.id d' blob ∧ u = contentUpdate o d' blob
  | .insertOrder _ => False
  | .now => False
  | .selectOrder _ => False
  | .selectOrders => False
  | _ => True

/-- The statements of the time-lock checker. -/
def TimeLockCall (P : Primitives) (workerKey : Bytes) (past : Past) : Call → Prop
  | .updateOrders u => ∃ time rows, [⟨.now, time⟩, ⟨.selectOrders, some rows⟩] <+: past ∧
      TimeLockWrites P workerKey (floorTimestamp6h time) rows (.updateOrders u)
  | .insertOrder _ => False
  | _ => True

section TimeLock

variable {st : AppState} {workerKey : Bytes} {now : Int64} {rows : List Order} {o : Order}
variable {d : OrderData}

abbrev TimeLockSpec (st : AppState) (workerKey : Bytes) (now : Int64) (rows : List Order) (past : Past)
    (x : Program Unit) : Prop :=
  Spec server.May (fun _ => TimeLockWrites st.prim workerKey now rows) (OnOk fun _ _ => True) past x

theorem writeOrder_statements (hkey : st.workerKey = some workerKey) {d' : OrderData} (past : Past)
    (ho : o ∈ rows) (hd : decodeOrder st.prim workerKey o = some d) (hmove : TimeLockMove now d d') :
    TimeLockSpec st workerKey now rows past (writeOrder st o.id d' o.version) := by
  simp only [writeOrder, sealOrder, getWorkerKey, TimeLockWrites, bind_bind, spec_orFail_bind,
    spec_call_bind, spec_ensure, onOk_ok, onOk_error, implies_true, true_and, and_true]
  intro key hk nonce hnonce blob hblob
  obtain rfl := Option.some.inj (hk.symm.trans hkey)
  exact ⟨o, ho, d, d', blob, hd, hmove, ⟨nonce, may_randomBytes hnonce, hblob⟩, rfl⟩

/-- **`handle_shipped` never does anything.** -/
theorem handleShipped_eq (st : AppState) (id : Bytes) (now : Int64) (version : Int)
    (hstate : d.state = "shipped") : handleShipped st id d now version = pure () := by
  have hcan : d.canTransitionTo "released" = false := by
    simp [OrderData.canTransitionTo, OrderData.stateTransitions, hstate, stateTransitions]
  simp [handleShipped, hcan]

theorem handleFunded_statements (hkey : st.workerKey = some workerKey) (past : Past) (ho : o ∈ rows)
    (hd : decodeOrder st.prim workerKey o = some d) (hstate : d.state = "funded") :
    TimeLockSpec st workerKey now rows past (handleFunded st o.id d now o.version) := by
  unfold handleFunded
  split
  · simp
  rename_i hno
  split
  · simp
  dsimp only
  split
  · rename_i hdue
    simp only [TimeLockSpec, TimeLockWrites, spec_call_bind, true_and]
    exact fun uuid _ => writeOrder_statements hkey _ ho hd
      (.dispute uuid ⟨hstate, Bool.eq_false_iff.mpr hno, hdue⟩)
  · simp

theorem handleDisputed_statements (hkey : st.workerKey = some workerKey) (past : Past) (ho : o ∈ rows)
    (hd : decodeOrder st.prim workerKey o = some d) (hstate : d.state = "disputed") :
    TimeLockSpec st workerKey now rows past (handleDisputed st o.id d now o.version) := by
  unfold handleDisputed
  split
  · simp
  dsimp only
  split
  · rename_i hdue
    exact writeOrder_statements hkey past ho hd (.refund ⟨hstate, hdue⟩)
  · simp

theorem checkTimeLock_statements (hkey : st.workerKey = some workerKey) (past : Past)
    (ho : o ∈ rows) :
    TimeLockSpec st workerKey now rows past (checkTimeLock st workerKey now o) := by
  unfold checkTimeLock
  split
  · simp
  rename_i d hd
  split
  · rename_i hstate
    rw [handleShipped_eq st o.id now o.version hstate]
    simp
  split
  · rename_i hstate
    exact handleFunded_statements hkey past ho hd hstate
  split
  · rename_i hstate
    exact handleDisputed_statements hkey past ho hd hstate
  · simp

theorem checkTimeLocks_statements (hkey : st.workerKey = some workerKey) :
    Spec server.May (TimeLockCall st.prim workerKey) (OnOk fun _ _ => True) []
      (checkTimeLocks st) := by
  simp only [checkTimeLocks, getWorkerKey, TimeLockCall, spec_orFail_bind, spec_call_bind,
    onOk_error, implies_true, true_and]
  intro time _ key hk orders _ rows hrows
  obtain rfl := Option.some.inj (hk.symm.trans hkey)
  subst hrows
  have hloop : TimeLockSpec st key (floorTimestamp6h time) rows
      [⟨.now, time⟩, ⟨.selectOrders, some rows⟩]
      (forEach (checkTimeLock st key (floorTimestamp6h time)) rows) :=
    spec_forEach_onOk fun o ho past' _ => checkTimeLock_statements hkey past' ho
  refine spec_mono (fun past c h => ?_) (fun _ _ h => h.1) (spec_begins List.prefix_rfl hloop)
  obtain ⟨hwrites, hpast⟩ := h
  cases c with
  | updateOrders u => exact ⟨time, rows, hpast, hwrites⟩
  | insertOrder i => exact hwrites
  | _ => trivial

end TimeLock

/-! ## The other passes -/

/-- What `scan_notifications` makes of an order. -/
def notified (addr : String) (buyerPubkey : Bytes) (d : OrderData) : OrderData :=
  { d with escrowAddress := some addr, buyerPubkey := some (hexEncode buyerPubkey) }

/-- The update `u` gives the row `o`, which was read before, the stealth address that was made for a
buyer key. -/
structure NotifyWrite (P : Primitives) (workerKey : Bytes) (past : Past) (u : UpdateOrders) (o : Order)
    (d : OrderData) (addr : String) (buyerPubkey blob : Bytes) : Prop where
  read : ⟨.selectOrder o.id, some (some o)⟩ ∈ past
  idLength : o.id.length = 32
  decoded : decodeOrder P workerKey o = some d
  noEscrow : d.escrowAddress = none
  address : ⟨.ask (.createStealthAddress (hexEncode buyerPubkey) o.id), some addr⟩ ∈ past
  sealed : Seals P workerKey o.id (notified addr buyerPubkey d) blob
  statement : u = contentUpdate o (notified addr buyerPubkey d) blob

/-- The statements of the notification scanner. -/
def ScanCall (P : Primitives) (workerKey : Bytes) (past : Past) : Call → Prop
  | .updateOrders u => ∃ o d addr buyerPubkey blob,
      NotifyWrite P workerKey past u o d addr buyerPubkey blob
  | .insertOrder _ => False
  | _ => True

/-- The statements of the dummy worker. -/
def DummyCall (P : Primitives) (workerKey : Bytes) : Call → Prop
  | .updateOrders _ => False
  | .insertOrder i => i.id.length = 16 ∧ ∃ d, Seals P workerKey i.id d i.encryptedOrderBlob
  | _ => True

/-- The call leaves the dispute columns and the chat of every row alone. -/
def LeavesDispute : Call → Prop
  | .updateOrders u => u.disputeClientBlob = none ∧ u.hasDispute = none ∧ u.chatEncryptedBlob = none
  | _ => True

/-- The columns that the poller sets: those of a content, the expiry as a bucket. -/
def ContentColumns : Call → Prop
  | .updateOrders u => LeavesDispute (.updateOrders u) ∧
      ∀ ts, u.expiryBucket = some (some ts) → ∃ expiresAt, ts = floorTimestamp6h expiresAt
  | _ => True

theorem ContentColumns.leavesDispute {c : Call} (h : ContentColumns c) : LeavesDispute c := by
  cases c with
  | updateOrders u => exact h.1
  | _ => trivial

theorem may_dummyOrder {now : Int64} {x : Bytes × OrderData}
    (h : server.May (.ask (.dummyOrder now)) x) : x.1.length = 16 := by
  obtain ⟨e, s, s', h⟩ := h
  simp only [server] at h
  split at h
  · rename_i hv
    simp only [Option.some.injEq, Prod.mk.injEq] at h
    rw [h.1] at hv
    exact of_decide_eq_true hv
  · exact absurd h (by simp)

section Passes

variable {st : AppState} {workerKey : Bytes}

theorem scanTx_statements (hkey : st.workerKey = some workerKey) (tx : TxEntry) (past : Past) :
    Spec server.May (ScanCall st.prim workerKey) (OnOk fun _ _ => True) past (scanTx st tx) := by
  unfold scanTx
  split
  · simp
  simp only [ScanCall, spec_orFail_bind, spec_call_bind, onOk_error, implies_true, true_and]
  intro txHash _ tracker _ already _
  split
  · simp
  simp only [ScanCall, spec_call_bind, true_and]
  intro raw _
  cases raw with
  | none => simp
  | some hex =>
    simp only [ScanCall, spec_call_bind, true_and]
    intro vouts _
    split
    · simp
    rename_i orderId buyerPubkey _
    split
    · simp
    rename_i hlength
    simp only [ScanCall, spec_orFail_bind, spec_call_bind, onOk_error, implies_true, true_and]
    intro read hread row hrow
    subst hrow
    rw [hkey]
    cases row with
    | none => simp
    | some o =>
      obtain ⟨rfl, _⟩ := may_selectOrder hread
      dsimp only
      split
      · simp
      rename_i d hd
      split
      · simp
      rename_i hno
      split
      · simp
      simp only [ScanCall, spec_call_bind, true_and]
      intro addr _
      cases addr with
      | none => simp
      | some addr =>
        simp only [sealOrder, ScanCall, bind_bind, spec_call_bind, spec_orFail_bind, spec_orFail,
          onOk_ok, onOk_error, implies_true, and_true, true_and]
        intro nonce hnonce blob hblob
        exact ⟨o, d, addr, buyerPubkey, blob, by simp, not_not.mp hlength, hd,
          Option.not_isSome_iff_eq_none.mp hno, by simp, ⟨nonce, may_randomBytes hnonce, hblob⟩, rfl⟩

theorem scanNotifications_statements (hkey : st.workerKey = some workerKey) (past : Past) :
    Spec server.May (ScanCall st.prim workerKey) (OnOk fun _ _ => True) past
      (scanNotifications st) := by
  simp only [scanNotifications, ScanCall, spec_ensure_bind, spec_call_bind, onOk_error, implies_true,
    true_and]
  intro _ lastBlock _
  cases lastBlock with
  | none =>
    simp only [ScanCall, spec_orFail_bind, spec_call_bind, onOk_error, implies_true, true_and]
    exact fun height _ _ _ hash _ _ _ => ⟨trivial, fun _ _ => trivial⟩
  | some blockHash =>
    simp only [ScanCall, spec_call_bind, true_and]
    intro listed _
    cases listed with
    | none => simp
    | some listed =>
      exact spec_seq_onOk (spec_forEach_onOk fun tx _ past' _ => scanTx_statements hkey tx past')
        fun _ _ _ _ => ⟨trivial, fun _ _ => trivial⟩

theorem runDummyWorker_statements (hkey : st.workerKey = some workerKey) (past : Past) :
    Spec server.May (fun _ => DummyCall st.prim workerKey) (OnOk fun _ _ => True) past
      (runDummyWorker st) := by
  simp only [runDummyWorker, DummyCall, spec_call_bind, true_and]
  intro run _
  split
  · simp
  simp only [DummyCall, spec_call_bind, true_and]
  rintro time _ ⟨orderId, d⟩ hid
  rw [hkey]
  simp only [DummyCall, spec_call_bind, true_and]
  intro nonce hnonce
  split
  · simp
  rename_i blob hblob
  simp only [spec_call_bind, spec_orFail, onOk_ok, onOk_error, implies_true, and_true]
  exact ⟨may_dummyOrder hid, d, nonce, may_randomBytes hnonce, hblob⟩

/-- The calls of the poller set the columns of a content. -/
abbrev ContentSpec {α : Type} (past : Past) (x : Program α) : Prop :=
  Spec server.May (fun _ => ContentColumns) (OnOk fun _ _ => True) past x

theorem loadOrder_content (orderId : Bytes) (past : Past) :
    ContentSpec past (loadOrder st orderId) := by
  simp [loadOrder, ContentColumns]

variable (st) in
theorem markOrderFunded_content (orderId : Bytes) (now : Int64) (past : Past) :
    ContentSpec past (markOrderFunded st orderId now) :=
  spec_seq_onOk (loadOrder_content orderId past) fun _ _ _ _ => by
    simp [sealOrder, ContentColumns, LeavesDispute]

variable (st) in
theorem markOrderCancelled_content (orderId : Bytes) (past : Past) :
    ContentSpec past (markOrderCancelled st orderId) :=
  spec_seq_onOk (loadOrder_content orderId past) fun _ _ _ _ => by
    simp [sealOrder, ContentColumns, LeavesDispute]

theorem retryBtcSettlement_content (orderId : Bytes) (past : Past) :
    ContentSpec past (retryBtcSettlement st orderId) := by
  refine spec_seq_onOk (loadOrder_content orderId past) fun past₁ ⟨key, o, d⟩ _ _ => ?_
  dsimp only
  split
  · simp
  have hsettle : Spec server.May (fun _ => ContentColumns) (fun _ _ => True) past₁
      (settleStealthOrder st orderId d) := by
    refine spec_mono (fun past' c h => ?_) (fun _ _ _ => trivial)
      (settleStealthOrder_reads orderId d past₁)
    cases c
    case updateOrders => exact h.elim
    all_goals trivial
  refine spec_attempt_bind.mpr (spec_mono (fun _ _ h => h) (fun past₂ r _ => ?_) hsettle)
  cases r with
  | error _ => simp
  | ok d' =>
    dsimp only
    split
    · simp [sealOrder, ContentColumns, LeavesDispute]
    · simp

theorem attempt_content {x : Program Unit} {past : Past} (h : ContentSpec past x) :
    ContentSpec past (do let _ ← Prog.attempt x; pure ()) := by
  rw [ContentSpec, spec_attempt_bind]
  exact spec_mono (fun _ _ h => h) (fun _ _ _ => trivial) h

theorem checkPayment_content (chain : Chain) (parseAmount : String → Option UInt64)
    (required : UInt64) (now : Int64) (rowId : Bytes) (d : OrderData) (past : Past) :
    ContentSpec past (checkPayment chain parseAmount required st now rowId d) := by
  have hfund := fun past => attempt_content (markOrderFunded_content st rowId now past)
  have hcancel := fun past => attempt_content (markOrderCancelled_content st rowId past)
  unfold checkPayment
  split
  · simp
  simp only [spec_orFail_bind, onOk_error, implies_true, true_and]
  intro expected _
  split
  · simp
  simp only [ContentColumns, spec_call_bind, true_and]
  intro status _
  cases status with
  | none => simp
  | some status =>
    dsimp only
    repeat' split
    all_goals first | exact hfund _ | exact hcancel _ | simp

theorem checkPendingPayments_content (past : Past) :
    ContentSpec past (checkPendingPayments st) := by
  have hchain : ∀ {chain : Chain} {past : Past} {body : Program Unit},
      (∀ past, ContentSpec past body) → ContentSpec past (whenNoFork chain body) := by
    intro chain past body hbody
    simp only [whenNoFork, ContentColumns, ContentSpec, spec_call_bind, true_and]
    intro fork _
    split
    · exact hbody _
    · simp
  simp only [checkPendingPayments, getWorkerKey, ContentColumns, ContentSpec, spec_orFail_bind,
    spec_call_bind, onOk_error, implies_true, true_and]
  intro time _ key _ orders _ rows _
  refine spec_seq_onOk (R := fun _ _ => True) ?_ fun past₁ _ _ _ => ?_
  · unfold verifyPayments
    split
    · simp
    · refine spec_seq_onOk (hchain fun _ => ?_) fun _ _ _ _ => hchain fun _ => ?_
      · exact spec_forEach_onOk fun _ _ _ _ => checkPayment_content _ _ _ _ _ _ _
      · exact spec_forEach_onOk fun _ _ _ _ => checkPayment_content _ _ _ _ _ _ _
  · simp only [ContentColumns, spec_call_bind, true_and]
    exact fun keys _ => spec_forEach_onOk fun orderId _ past' _ =>
      attempt_content (retryBtcSettlement_content orderId past')

/-- The calls of the poller leave the disputes alone. -/
abbrev PollerColumns {α : Type} (past : Past) (x : Program α) : Prop :=
  Spec server.May (fun _ => LeavesDispute) (OnOk fun _ _ => True) past x

theorem checkPendingPayments_columns (past : Past) : PollerColumns past (checkPendingPayments st) :=
  spec_mono (fun _ _ h => h.leavesDispute) (fun _ _ h => h) (checkPendingPayments_content past)

end Passes

/-! ## Every job -/

/-- The statements of each job. -/
def Statement (D : Deployment) : Job → Past → Call → Prop
  | .request r => RequestCall r
  | .checkPendingPayments => fun past c => PollCall D.prim D.workerKey past c ∧ LeavesDispute c
  | .checkTimeLocks => TimeLockCall D.prim D.workerKey
  | .scanNotifications => ScanCall D.prim D.workerKey
  | .runDummyWorker => fun _ => DummyCall D.prim D.workerKey
  | .restartApi => fun _ c => c = .restartApi
  | .restartWorker => fun _ c => c = .restartWorker

/-- **Which statements a job sends.** -/
theorem program_statements (D : Deployment) :
    ∀ j, Spec server.May (Statement D j) (OnOk fun _ _ => True) [] (D.program j)
  | .request r => handleRequest_statements D.api r
  | .checkPendingPayments => pass_spec (spec_mono (fun _ _ h => h) (fun _ r _ => by cases r <;> trivial)
      (spec_and (checkPendingPayments_decides D.worker_workerKey []) (checkPendingPayments_columns [])))
  | .checkTimeLocks => pass_spec (checkTimeLocks_statements D.worker_workerKey)
  | .scanNotifications => pass_spec (scanNotifications_statements D.worker_workerKey [])
  | .runDummyWorker => pass_spec (runDummyWorker_statements D.worker_workerKey [])
  | .restartApi => pass_spec ⟨rfl, fun _ _ => trivial⟩
  | .restartWorker => pass_spec ⟨rfl, fun _ _ => trivial⟩

/-- Each call of a run is one of its job's statements. -/
theorem Deployment.Reaches.statement {D : Deployment} {allow : System → Job → Prop}
    {orders : OrdersTable} {g : System} (h : D.Reaches allow orders g) {ev : Effect}
    (hev : ev ∈ g.history) : Statement D ev.job ev.past ev.reply.1 :=
  (Reachable.event (fun _ j _ => program_statements D j) h ev hev).1

end TorMarketplace
