import TorMarketplace.Proof.Runs

/-!
# Who makes a call

What belongs to one process is written by that process alone: the tracker and the cursor by the
notification scanner, the payment channel by the poller, the nonces and the challenges by the requests.
-/

namespace TorMarketplace

open Encoding Interleave Prog

/-- The jobs that write to what belongs to one process. -/
def MadeBy (j : Job) : Call → Prop
  | .insertTracker _ => j = .scanNotifications
  | .setLastNotifBlock _ => j = .scanNotifications
  | .notifyPayment _ => j = .checkPendingPayments
  | .insertNonce .. => ∃ r, j = .request r
  | .checkReplay .. => ∃ r, j = .request r
  | .insertChallenge .. => ∃ r, j = .request r
  | _ => True

/-- A program of the job `j`. -/
abbrev Made {α : Type} (j : Job) (past : Past) (x : Program α) : Prop :=
  Spec server.May (fun _ => MadeBy j) (OnOk fun _ _ => True) past x

theorem ReadCall.madeBy {j : Job} {past : Past} {c : Call} (h : ReadCall past c) : MadeBy j c := by
  cases c
  case selectOrder => trivial
  case ask => trivial
  all_goals exact h.elim

section Programs

variable {st : AppState} {workerKey : Bytes} (past : Past)

theorem handle_made (r : Request) (auth : Option Authed) (target : Route) (body : Body) :
    Made (.request r) past (handle st auth target body) := by
  have respond : ∀ {α : Type} {x : Program α} {wrap : α → Response},
      Made (.request r) past x → Made (.request r) past (x >>= fun resp => pure (wrap resp)) :=
    fun h => spec_seq_onOk h fun _ _ _ _ => trivial
  unfold handle
  split
  all_goals simp only [Made, spec_orFail_bind, onOk_error, implies_true, true_and, spec_fail]
  · exact fun _ _ => respond (by simp [createOrder, MadeBy])
  · exact fun _ _ => respond (by simp [getOrder, MadeBy])
  · exact fun _ _ => respond (by simp [updateOrder, MadeBy])
  · exact fun _ _ => respond (by simp [openDispute, MadeBy])
  · exact fun _ _ => respond (by simp [getDispute, MadeBy])
  · exact fun _ _ => respond (by simp [updateDispute, MadeBy])
  · refine respond ?_
    simp only [resolveDispute, Made, spec_orFail_bind, onOk_error, implies_true, true_and]
    intro kp _
    refine spec_seq_onOk (decodeToken_spec _ past) fun past₁ t _ _ => ?_
    simp [checkToken, MadeBy]
  · refine fun _ _ => respond ?_
    simp only [getChat, MadeBy, Made, spec_orFail_bind, spec_call_bind, onOk_error, implies_true,
      true_and]
    intro idBytes _ current _ row _
    cases row with
    | none => simp
    | some row => simp [MadeBy]
  · exact fun _ _ => respond (by simp [updateChat, MadeBy])
  · exact respond (by simp [blindSign])
  · exact respond (by simp [getAdminPubkey])
  · refine respond ?_
    simp only [rotateKek, Made, spec_orFail_bind, onOk_error, implies_true, true_and]
    intro kp _
    refine spec_seq_onOk (decodeToken_spec _ past) fun past₁ t _ _ => ?_
    simp [checkToken, MadeBy]
  · exact respond (by simp [challenge, cleanupChallenges, MadeBy])
  · exact respond (by simp [verify, cleanupChallenges, MadeBy])

theorem handleRequest_made (r : Request) : Made (.request r) [] (handleRequest st r) :=
  handleRequest_of_handle st r
    (fun _ c hc => by cases c <;> first | trivial | exact ⟨r, rfl⟩ | exact Bool.noConfusion hc)
    fun _ auth target _ _ => handle_made _ r auth target r.body

theorem attempt_made {j : Job} {x : Program Unit} (h : Made j past x) :
    Made j past (do let _ ← Prog.attempt x; pure ()) := by
  rw [Made, spec_attempt_bind]
  exact spec_mono (fun _ _ h => h) (fun _ _ _ => trivial) h


variable (st) in
theorem loadOrder_made (j : Job) (orderId : Bytes) : Made j past (loadOrder st orderId) := by
  simp [loadOrder, MadeBy]

variable (st) in
theorem sealOrder_made (j : Job) (key orderId : Bytes) (d : OrderData) :
    Made j past (sealOrder st key orderId d) := by
  simp [sealOrder, MadeBy]

/-! ### The poller -/

variable (st) in
theorem markOrderFunded_made (orderId : Bytes) (now : Int64) :
    Made .checkPendingPayments past (markOrderFunded st orderId now) :=
  spec_seq_onOk (loadOrder_made st past _ orderId) fun _ _ _ _ => by simp [sealOrder, MadeBy]

variable (st) in
theorem markOrderCancelled_made (orderId : Bytes) :
    Made .checkPendingPayments past (markOrderCancelled st orderId) :=
  spec_seq_onOk (loadOrder_made st past _ orderId) fun _ _ _ _ => by simp [sealOrder, MadeBy]

theorem retryBtcSettlement_made (orderId : Bytes) :
    Made .checkPendingPayments past (retryBtcSettlement st orderId) := by
  refine spec_seq_onOk (loadOrder_made st past _ orderId) fun past₁ ⟨key, o, d⟩ _ _ => ?_
  dsimp only
  split
  · simp
  have hsettle : Spec server.May (fun _ => MadeBy .checkPendingPayments) (fun _ _ => True) past₁
      (settleStealthOrder st orderId d) :=
    spec_mono (fun _ _ h => h.madeBy) (fun _ _ _ => trivial)
      (settleStealthOrder_reads orderId d past₁)
  refine spec_attempt_bind.mpr (spec_mono (fun _ _ h => h) (fun past₂ r _ => ?_) hsettle)
  cases r with
  | error _ => simp
  | ok d' =>
    dsimp only
    split
    · simp [sealOrder, MadeBy]
    · simp

theorem checkPayment_made (chain : Chain) (parseAmount : String → Option UInt64) (required : UInt64)
    (now : Int64) (rowId : Bytes) (d : OrderData) :
    Made .checkPendingPayments past (checkPayment chain parseAmount required st now rowId d) := by
  have hfund := fun past => attempt_made past (markOrderFunded_made st past rowId now)
  have hcancel := fun past => attempt_made past (markOrderCancelled_made st past rowId)
  unfold checkPayment
  split
  · simp
  simp only [spec_orFail_bind, onOk_error, implies_true, true_and]
  intro expected _
  split
  · simp
  simp only [MadeBy, spec_call_bind, true_and]
  intro status _
  cases status with
  | none => simp
  | some status =>
    dsimp only
    repeat' split
    all_goals first | exact hfund _ | exact hcancel _ | simp

theorem checkPendingPayments_made :
    Made .checkPendingPayments past (checkPendingPayments st) := by
  have hchain : ∀ {chain : Chain} {past : Past} {body : Program Unit},
      (∀ past, Made .checkPendingPayments past body) →
        Made .checkPendingPayments past (whenNoFork chain body) := by
    intro chain past body hbody
    simp only [whenNoFork, MadeBy, Made, spec_call_bind, true_and]
    intro fork _
    split
    · exact hbody _
    · simp
  simp only [checkPendingPayments, getWorkerKey, MadeBy, Made, spec_orFail_bind, spec_call_bind,
    onOk_error, implies_true, true_and]
  intro time _ key _ orders _ rows _
  refine spec_seq_onOk (R := fun _ _ => True) ?_ fun past₁ _ _ _ => ?_
  · unfold verifyPayments
    split
    · simp
    · refine spec_seq_onOk (hchain fun _ => ?_) fun _ _ _ _ => hchain fun _ => ?_
      · exact spec_forEach_onOk fun _ _ _ _ => checkPayment_made _ _ _ _ _ _ _
      · exact spec_forEach_onOk fun _ _ _ _ => checkPayment_made _ _ _ _ _ _ _
  · simp only [MadeBy, spec_call_bind, true_and]
    exact fun keys _ => spec_forEach_onOk fun orderId _ past' _ =>
      attempt_made _ (retryBtcSettlement_made _ orderId)

/-! ### The other passes -/

variable (st) in
theorem writeOrder_made (j : Job) (orderId : Bytes) (d : OrderData) (version : Int) :
    Made j past (writeOrder st orderId d version) := by
  simp [writeOrder, sealOrder, getWorkerKey, MadeBy]

theorem checkTimeLock_made (key : Bytes) (now : Int64) (o : Order) :
    Made .checkTimeLocks past (checkTimeLock st key now o) := by
  have hwrite := fun past => writeOrder_made st past .checkTimeLocks
  unfold checkTimeLock handleShipped handleFunded handleDisputed
  dsimp only
  repeat' split
  all_goals first
    | exact hwrite _ _ _ _
    | exact spec_call_bind.mpr ⟨trivial, fun _ _ => hwrite _ _ _ _⟩
    | simp

theorem checkTimeLocks_made : Made .checkTimeLocks past (checkTimeLocks st) := by
  simp only [checkTimeLocks, getWorkerKey, MadeBy, Made, spec_orFail_bind, spec_call_bind, onOk_error,
    implies_true, true_and]
  exact fun _ _ _ _ _ _ _ _ => spec_forEach_onOk fun _ _ _ _ => checkTimeLock_made _ _ _ _

theorem scanTx_made (tx : TxEntry) : Made .scanNotifications past (scanTx st tx) := by
  unfold scanTx
  split
  · simp
  simp only [MadeBy, Made, spec_orFail_bind, spec_call_bind, onOk_error, implies_true, true_and]
  intro txHash _ tracker _ already _
  split
  · simp
  simp only [MadeBy, spec_call_bind, true_and]
  intro raw _
  cases raw with
  | none => simp
  | some hex =>
    simp only [MadeBy, spec_call_bind, true_and]
    intro vouts _
    split
    · simp
    split
    · simp
    simp only [MadeBy, spec_orFail_bind, spec_call_bind, onOk_error, implies_true, true_and]
    intro read _ row _
    split
    · split
      · simp
      split
      · simp
      split
      · simp
      simp only [MadeBy, spec_call_bind, true_and]
      intro addr _
      cases addr with
      | none => simp
      | some addr => simp [sealOrder, MadeBy]
    · simp

theorem scanNotifications_made : Made .scanNotifications past (scanNotifications st) := by
  simp only [scanNotifications, MadeBy, Made, spec_ensure_bind, spec_call_bind, onOk_error,
    implies_true, true_and]
  intro _ lastBlock _
  cases lastBlock with
  | none =>
    simp only [MadeBy, spec_orFail_bind, spec_call_bind, onOk_error, implies_true, true_and]
    exact fun _ _ _ _ _ _ _ _ => ⟨rfl, fun _ _ => trivial⟩
  | some blockHash =>
    simp only [MadeBy, spec_call_bind, true_and]
    intro listed _
    cases listed with
    | none => simp
    | some listed =>
      exact spec_seq_onOk (spec_forEach_onOk fun tx _ past' _ => scanTx_made past' tx)
        fun _ _ _ _ => ⟨rfl, fun _ _ => trivial⟩

theorem runDummyWorker_made : Made .runDummyWorker past (runDummyWorker st) := by
  simp only [runDummyWorker, MadeBy, Made, spec_call_bind, true_and]
  intro run _
  split
  · simp
  simp only [MadeBy, spec_call_bind, true_and]
  rintro time _ ⟨orderId, d⟩ _
  dsimp only
  split
  · simp
  simp only [MadeBy, spec_call_bind, true_and]
  intro nonce _
  split
  · simp
  · simp [MadeBy]

end Programs

/-- **Who makes a call.** -/
theorem program_made (D : Deployment) : ∀ j, Made j [] (D.program j)
  | .request r => handleRequest_made r
  | .checkPendingPayments => pass_spec (checkPendingPayments_made [])
  | .checkTimeLocks => pass_spec (checkTimeLocks_made [])
  | .scanNotifications => pass_spec (scanNotifications_made [])
  | .runDummyWorker => pass_spec (runDummyWorker_made [])
  | .restartApi => pass_spec ⟨trivial, fun _ _ => trivial⟩
  | .restartWorker => pass_spec ⟨trivial, fun _ _ => trivial⟩

theorem Deployment.Reaches.madeBy {D : Deployment} {allow : System → Job → Prop}
    {orders : OrdersTable} {g : System} (h : D.Reaches allow orders g) {ev : Effect}
    (hev : ev ∈ g.history) : MadeBy ev.job ev.reply.1 :=
  (Reachable.event (fun _ j _ => program_made D j) h ev hev).1

end TorMarketplace
