import TorMarketplace.Proof.Server

/-!
# What the handlers do

One specification for each handler: which calls it may make, and what its success establishes. They
meet in `handleRequest_spec`; nothing after this file unfolds a handler.
-/

namespace TorMarketplace

open Encoding Interleave Prog

/-- The calls that a request may make. Its updates of the orders table replace a row that it has
read, and are among `allowed`. -/
def ApiCall (allowed : UpdateOrders → Prop) (past : Past) : Call → Prop
  | .updateOrders u => (∃ o, Saw past o ∧ u.GuardedBy o) ∧ allowed u
  | .restartApi => False
  | .restartWorker => False
  | _ => True

attribute [local simp] ApiCall

/-- The updates that leave the order blob alone. -/
def NoBlob (u : UpdateOrders) : Prop := u.encryptedOrderBlob = none

/-- A program of the API process: the calls of a request, and `R` if it succeeds. -/
abbrev ApiSpec {α : Type} (allowed : UpdateOrders → Prop) (R : Past → α → Prop) (past : Past)
    (x : Program α) : Prop :=
  Spec server.May (ApiCall allowed) (OnOk R) past x

/-- A conditional write of a blob to the row that was read before, which took effect. -/
structure Wrote (column : UpdateOrders → Option Bytes) (past : Past) (idText blobText : String)
    (row : Order) (blob : Bytes) (u : UpdateOrders) : Prop where
  effective : ∃ n, n ≠ 0 ∧ ⟨.updateOrders u, some n⟩ ∈ past
  rowId : hexDecode idText = some row.id
  decoded : base64Decode blobText = some blob
  read : ⟨.selectOrder row.id, some (some row)⟩ ∈ past
  inRange : IsI64 row.version
  guarded : u.GuardedBy row
  stored : column u = some blob

/-- `u` is the update that the request `req` to `update_order` asks for, and the signature of the
request verifies under `pubkey` for it. -/
structure SignedUpdate (P : Primitives) (pubkey : Bytes) (id : String) (req : UpdateOrderRequest)
    (row : Order) (blob nonceBytes sigBytes : Bytes) (u : UpdateOrders) : Prop where
  rowId : hexDecode id = some row.id
  decoded : base64Decode req.clientEncryptedBlob = some blob
  nonce : hexDecode req.nonce = some nonceBytes
  signature : hexDecode req.transitionSignature = some sigBytes
  inRange : IsI64 row.version
  guarded : u.GuardedBy row
  stored : u.encryptedOrderBlob = some blob
  verified : verifyTransition P pubkey (TransitionPayload.new row.id row.version (P.sha256 blob)
    nonceBytes req.hourBucket) sigBytes = true

/-- What a successful `update_order` has done. -/
structure UpdateOrderDone (P : Primitives) (pubkey : Bytes) (id : String) (req : UpdateOrderRequest)
    (past : Past) (row : Order) (blob nonceBytes sigBytes : Bytes) (u : UpdateOrders) : Prop where
  effective : ∃ n, n ≠ 0 ∧ ⟨.updateOrders u, some n⟩ ∈ past
  read : ⟨.selectOrder row.id, some (some row)⟩ ∈ past
  signed : SignedUpdate P pubkey id req row blob nonceBytes sigBytes u

theorem updateOrder_spec (st : AppState) (auth : Authed) (id : String) (req : UpdateOrderRequest)
    (past : Past) :
    ApiSpec (fun u => ∃ row blob nonceBytes sigBytes,
        SignedUpdate st.prim auth.pubkeyBytes id req row blob nonceBytes sigBytes u)
      (fun past' resp => ∃ row blob nonceBytes sigBytes u, resp.version = row.version + 1 ∧
        UpdateOrderDone st.prim auth.pubkeyBytes id req past' row blob nonceBytes sigBytes u)
      past (updateOrder st auth id req) := by
  simp only [updateOrder, ApiSpec, ApiCall, spec_orFail_bind, spec_ensure_bind, spec_call_bind,
    spec_pure, onOk_ok, onOk_error, implies_true, true_and]
  intro idBytes hid blob hblob _ _ fresh _ _ current hcur _ hc row hrow nonceBytes hnonce sigBytes
    hsig _ hver
  subst hc hrow
  obtain ⟨rfl, hv⟩ := may_selectOrder hcur
  have hsigned : SignedUpdate st.prim auth.pubkeyBytes id req row blob nonceBytes sigBytes
      { encryptedOrderBlob := some blob, bumpVersion := true, whereId := row.id,
        whereVersion := some row.version } :=
    ⟨hid, hblob, hnonce, hsig, hv, ⟨rfl, rfl, rfl⟩, rfl, hver⟩
  refine ⟨⟨⟨row, .row (by simp), hsigned.guarded⟩, row, blob, nonceBytes, sigBytes, hsigned⟩,
    fun _ _ n hn hne => ?_⟩
  subst hn
  exact ⟨row, blob, nonceBytes, sigBytes, _, rfl, ⟨n, of_decide_eq_true hne, List.mem_concat_self⟩,
    by simp, hsigned⟩

theorem createOrder_spec {S : UpdateOrders → Prop} (st : AppState) (req : CreateOrderRequest) (past : Past) :
    ApiSpec S (fun _ _ => True) past (createOrder st req) := by
  simp [createOrder, ApiCall]

theorem getOrder_spec {S : UpdateOrders → Prop} (id : String) (past : Past) :
    ApiSpec S (fun _ _ => True) past (getOrder id) := by
  simp [getOrder, ApiCall]

theorem openDispute_spec (req : OpenDisputeRequest) (past : Past) :
    ApiSpec NoBlob (fun past' resp => ∃ row blob u, resp.version = row.version + 1 ∧
      Wrote UpdateOrders.disputeClientBlob past' req.orderId req.clientEncryptedBlob row blob u)
      past (openDispute req) := by
  simp only [openDispute, ApiCall, spec_orFail_bind, spec_ensure_bind, spec_call_bind, spec_pure,
    onOk_ok, onOk_error, implies_true, true_and]
  intro idBytes hid blob hblob _ fresh _ _ _ _ current hcur _ hc row hrow
  subst hc hrow
  obtain ⟨rfl, hv⟩ := may_selectOrder hcur
  refine ⟨⟨⟨row, .row (by simp), rfl, rfl, rfl⟩, rfl⟩, fun _ _ n hn hne => ?_⟩
  subst hn
  exact ⟨row, blob, _, rfl, ⟨n, of_decide_eq_true hne, List.mem_concat_self⟩, hid, hblob, by simp, hv,
    ⟨rfl, rfl, rfl⟩, rfl⟩

theorem getDispute_spec {S : UpdateOrders → Prop} (id : String) (past : Past) :
    ApiSpec S (fun _ _ => True) past (getDispute id) := by
  simp [getDispute, ApiCall]

theorem updateDispute_spec (id : String) (req : UpdateDisputeRequest) (past : Past) :
    ApiSpec NoBlob (fun past' resp => ∃ row blob u, resp.version = row.version + 1 ∧
      Wrote UpdateOrders.disputeClientBlob past' id req.clientEncryptedBlob row blob u)
      past (updateDispute id req) := by
  simp only [updateDispute, ApiCall, spec_orFail_bind, spec_ensure_bind, spec_call_bind, spec_pure,
    onOk_ok, onOk_error, implies_true, true_and]
  intro idBytes hid blob hblob _ fresh _ _ current hcur _ hc row hrow
  subst hc hrow
  obtain ⟨rfl, hv⟩ := may_selectOrder hcur
  refine ⟨⟨⟨row, .row (by simp), rfl, rfl, rfl⟩, rfl⟩, fun _ _ n hn hne => ?_⟩
  subst hn
  exact ⟨row, blob, _, rfl, ⟨n, of_decide_eq_true hne, List.mem_concat_self⟩, hid, hblob, by simp, hv,
    ⟨rfl, rfl, rfl⟩, rfl⟩

theorem getChat_spec {S : UpdateOrders → Prop} (orderId : String) (past : Past) :
    ApiSpec S (fun _ _ => True) past (getChat orderId) := by
  simp only [getChat, ApiCall, spec_orFail_bind, spec_call_bind, onOk_error, implies_true, true_and]
  intro idBytes _ current _ row _
  cases row with
  | none => simp
  | some row => simp [ApiCall]

theorem updateChat_spec (orderId : String) (req : SendMessageRequest) (past : Past) :
    ApiSpec NoBlob (fun past' resp => ∃ row blob u, resp.version = row.version + 1 ∧
      Wrote UpdateOrders.chatEncryptedBlob past' orderId req.chatEncryptedBlob row blob u)
      past (updateChat orderId req) := by
  simp only [updateChat, ApiCall, spec_orFail_bind, spec_ensure_bind, spec_call_bind, spec_pure,
    onOk_ok, onOk_error, implies_true, true_and]
  intro idBytes hid blob hblob _ current hcur _ hc row hrow fresh _ _
  subst hc hrow
  obtain ⟨rfl, hv⟩ := may_selectOrder hcur
  refine ⟨⟨⟨row, .row (by simp), rfl, rfl, rfl⟩, rfl⟩, fun _ _ n hn hne => ?_⟩
  subst hn
  exact ⟨row, blob, _, rfl, ⟨n, of_decide_eq_true hne, List.mem_concat_self⟩, hid, hblob, by simp, hv,
    ⟨rfl, rfl, rfl⟩, rfl⟩

/-! ## Admin tokens -/

/-- The fields of `token` are those of `t`. -/
structure Decodes (token : AdminToken) (t : TokenFields) : Prop where
  signature : token.tokenSignature.bind hexDecode = some t.sigBytes
  message : token.tokenMessage.bind hexDecode = some t.msgHash
  nonceText : token.tokenNonce = some t.nonceHex
  nonce : hexDecode t.nonceHex = some t.nonceBytes
  expiryHour : token.tokenExpiryHour = some t.expiry

/-- What the checks of an admin token establish: it is for this action, and it verifies. -/
structure Accepted (P : Primitives) (kp : AdminKeypair) (domain actionId : String)
    (t : TokenFields) : Prop where
  composed : t.msgHash = composeTokenMessage P domain actionId t.nonceBytes t.expiry.toUInt64
  verified : verifyToken t.msgHash t.sigBytes kp.pub = true

/-- An admin token that a handler has decoded and accepted. -/
structure TokenUsed (st : AppState) (domain actionId : String) (token : AdminToken)
    (kp : AdminKeypair) (t : TokenFields) : Prop where
  keypair : st.adminKeypair = some kp
  decoded : Decodes token t
  accepted : Accepted st.prim kp domain actionId t

theorem decodeToken_spec {P : Past → Call → Prop} (token : AdminToken) (past : Past) :
    Spec server.May P (OnOk fun _ t => Decodes token t) past (decodeToken token) := by
  simp only [decodeToken, spec_orFail_bind, spec_ensure_bind, spec_pure, onOk_ok, onOk_error,
    implies_true, true_and]
  intro sigBytes hsig msgBytes hmsg nonceHex hhex nonceBytes hnonce expiry hexp _
  exact ⟨hsig, hmsg, hhex, hnonce, hexp⟩

theorem checkToken_spec {S : UpdateOrders → Prop} (P : Primitives) (kp : AdminKeypair) (domain actionId : String)
    (t : TokenFields) (past : Past) :
    ApiSpec S (fun _ _ => Accepted P kp domain actionId t) past
      (checkToken P kp domain actionId t) := by
  simp only [checkToken, ApiCall, spec_ensure_bind, spec_call_bind, spec_ensure, onOk_ok, onOk_error,
    implies_true, true_and, decide_eq_true_eq]
  exact fun hmsg hver _ _ _ => ⟨hmsg, hver⟩

theorem resolveDispute_spec (st : AppState) (id : String) (req : ResolveDisputeRequest)
    (past : Past) :
    ApiSpec NoBlob (fun past' resp => ∃ kp t row blob u, resp.version = row.version + 1 ∧
      TokenUsed st "dispute:resolve" id req.token kp t ∧
      ⟨.insertNonce .adminToken (nonceKey id t.nonceHex), true⟩ ∈ past' ∧
      Wrote UpdateOrders.disputeClientBlob past' id req.outcomeBlob row blob u)
      past (resolveDispute st id req) := by
  simp only [resolveDispute, spec_orFail_bind, onOk_error, implies_true, true_and]
  intro kp hkp
  refine spec_seq_onOk (decodeToken_spec req.token past) fun past₁ t _ ht => ?_
  refine spec_seq_onOk (checkToken_spec st.prim kp "dispute:resolve" id t past₁) fun past₂ _ _ hacc => ?_
  simp only [ApiCall, spec_orFail_bind, spec_ensure_bind, spec_call_bind, spec_pure, onOk_ok,
    onOk_error, implies_true, true_and]
  intro fresh _ hfresh idBytes hid blob hblob _ current hcur _ hc row hrow
  subst hfresh hc hrow
  obtain ⟨rfl, hv⟩ := may_selectOrder hcur
  refine ⟨⟨⟨row, .row (by simp), rfl, rfl, rfl⟩, rfl⟩, fun _ _ n hn hne => ?_⟩
  subst hn
  exact ⟨kp, t, row, blob, _, rfl, ⟨hkp, ht, hacc⟩, by simp,
    ⟨n, of_decide_eq_true hne, List.mem_concat_self⟩, hid, hblob, by simp, hv, ⟨rfl, rfl, rfl⟩, rfl⟩

theorem rotateKek_spec {S : UpdateOrders → Prop} (st : AppState) (req : RotateKekRequest) (past : Past) :
    ApiSpec S (fun _ _ => ∃ kp t, TokenUsed st "admin:rotate_kek" "rotate" req.token kp t) past
      (rotateKek st req) := by
  simp only [rotateKek, spec_orFail_bind, onOk_error, implies_true, true_and]
  intro kp hkp
  refine spec_seq_onOk (decodeToken_spec req.token past) fun past₁ t _ ht => ?_
  refine spec_seq_onOk (checkToken_spec st.prim kp "admin:rotate_kek" "rotate" t past₁)
    fun past₂ _ _ hacc => ?_
  simp only [ApiCall, spec_orFail_bind, spec_call_bind, spec_pure, onOk_ok, onOk_error,
    implies_true, true_and]
  exact fun _ _ _ _ _ _ => ⟨kp, t, hkp, ht, hacc⟩

theorem blindSign_spec {S : UpdateOrders → Prop} (st : AppState) (req : BlindSignRequest) (past : Past) :
    ApiSpec S (fun _ _ => True) past (blindSign st req) := by
  simp [blindSign]

theorem getAdminPubkey_spec {S : UpdateOrders → Prop} (st : AppState) (past : Past) :
    ApiSpec S (fun _ _ => True) past (getAdminPubkey st) := by
  simp [getAdminPubkey]

/-! ## Login and authentication -/

theorem challenge_spec {S : UpdateOrders → Prop} (req : ChallengeRequest) (past : Past) :
    ApiSpec S (fun _ _ => True) past (challenge req) := by
  simp [challenge, cleanupChallenges, ApiCall]

theorem verify_spec {S : UpdateOrders → Prop} (st : AppState) (req : VerifyRequest) (past : Past) :
    ApiSpec S (fun _ _ => True) past (verify st req) := by
  simp [verify, cleanupChallenges, ApiCall]

theorem statelessAuthMiddleware_spec {S : UpdateOrders → Prop} (st : AppState) (path : String) (headers : AuthHeaders)
    (past : Past) :
    ApiSpec S (fun past' auth => ∀ a, auth = some a → ∃ hour, Authenticated headers past' a hour)
      past (statelessAuthMiddleware st path headers) := by
  unfold statelessAuthMiddleware
  split
  · simp
  · simp only [ApiCall, spec_orFail_bind, spec_ensure_bind, spec_call_bind, spec_pure, onOk_ok,
      onOk_error, implies_true, true_and, Option.some.injEq]
    rintro pubkeyHex hpk _ _ hourStr hhour _ _ _ _ pkBytes hbytes _ _ _ hour hparse _ _ _ _ now _ hfresh
      _ _ fresh _ _ _ rfl
    refine ⟨hour, ?_, ?_, now, by simp, hfresh⟩
    · simp [hpk, hbytes]
    · simp [hhour, hparse]

/-! ## Requests -/

/-- The calls of the layers in front of the handlers. -/
def Call.ofLayers : Call → Bool
  | .now => true
  | .checkReplay .. => true
  | .ask .layersAdmit => true
  | _ => false

section Layers

variable {P : Past → Call → Prop} {f : Call → Bool} {past : Past}

/-- Calls that no layer makes are not among those of the layers. -/
theorem filter_layers (hf : ∀ c, c.ofLayers = true → f c = false)
    (hlayers : ∀ reply ∈ past, reply.1.ofLayers = true) : (past.filter fun reply => f reply.1) = [] :=
  List.filter_eq_nil_iff.mpr fun reply hmem => Bool.eq_false_iff.mp (hf _ (hlayers reply hmem))

theorem statelessAuthMiddleware_layers (hlayers : ∀ past c, c.ofLayers = true → P past c) (st : AppState)
    (path : String) (headers : AuthHeaders) :
    Spec server.May P (OnOk fun past _ => ∀ reply ∈ past, reply.1.ofLayers = true) []
      (statelessAuthMiddleware st path headers) := by
  have hnow : ∀ past, P past .now := fun past => hlayers past _ rfl
  have hreplay : ∀ past hour nonce, P past (.checkReplay hour nonce) := fun past _ _ => hlayers past _ rfl
  unfold statelessAuthMiddleware
  split
  · simp
  · simp [hnow, hreplay, Call.ofLayers]

/-- **A request does what its handler does**, after the calls of the layers. -/
theorem handleRequest_of_handle {R : Past → Response → Prop} (st : AppState) (r : Request)
    (hlayers : ∀ past c, c.ofLayers = true → P past c)
    (hhandle : ∀ past auth target, (∀ reply ∈ past, reply.1.ofLayers = true) →
      route r.method r.path = some target →
        Spec server.May P (OnOk R) past (handle st auth target r.body)) :
    Spec server.May P (OnOk R) [] (handleRequest st r) := by
  unfold handleRequest
  refine spec_seq_onOk (statelessAuthMiddleware_layers hlayers st r.path r.headers) fun past auth _ hpast => ?_
  rw [spec_call_bind]
  refine ⟨hlayers _ _ rfl, fun admitted _ => ?_⟩
  simp only [spec_ensure_bind, spec_orFail_bind, onOk_error, implies_true, true_and]
  intro _ target htarget
  refine hhandle _ auth target (fun reply hmem => ?_) htarget
  rcases List.mem_append.mp hmem with hmem | hmem
  · exact hpast reply hmem
  · obtain rfl := List.mem_singleton.mp hmem
    rfl

end Layers

/-- The updates that a handler may make: `update_order` makes the one that the request has signed,
and the others leave the order blob alone. -/
def AllowedUpdate (P : Primitives) (headers : AuthHeaders) : Route → Body → UpdateOrders → Prop
  | .updateOrder id, .updateOrder req => fun u => ∃ pubkey row blob nonceBytes sigBytes,
    headers.pubkey.bind hexDecode = some pubkey ∧
      SignedUpdate P pubkey id req row blob nonceBytes sigBytes u
  | _, _ => NoBlob

/-- What the success of a handler establishes. -/
def HandlerDone (st : AppState) (headers : AuthHeaders) (past : Past) : Route → Body → Prop
  | .updateOrder id, .updateOrder req => ∃ auth hour row blob nonceBytes sigBytes u,
    Authenticated headers past auth hour ∧
      UpdateOrderDone st.prim auth.pubkeyBytes id req past row blob nonceBytes sigBytes u
  | .openDispute, .openDispute req => ∃ auth hour row blob u,
    Authenticated headers past auth hour ∧
      Wrote UpdateOrders.disputeClientBlob past req.orderId req.clientEncryptedBlob row blob u
  | .updateDispute id, .updateDispute req => ∃ auth hour row blob u,
    Authenticated headers past auth hour ∧
      Wrote UpdateOrders.disputeClientBlob past id req.clientEncryptedBlob row blob u
  | .resolveDispute id, .resolveDispute req => ∃ kp t row blob u,
    TokenUsed st "dispute:resolve" id req.token kp t ∧
      ⟨.insertNonce .adminToken (nonceKey id t.nonceHex), true⟩ ∈ past ∧
      Wrote UpdateOrders.disputeClientBlob past id req.outcomeBlob row blob u
  | .updateChat orderId, .sendMessage req => ∃ auth hour row blob u,
    Authenticated headers past auth hour ∧
      Wrote UpdateOrders.chatEncryptedBlob past orderId req.chatEncryptedBlob row blob u
  | .rotateKek, .rotateKek req => ∃ kp t, TokenUsed st "admin:rotate_kek" "rotate" req.token kp t
  | _, _ => True

theorem ApiCall.mono {S S' : UpdateOrders → Prop} (hS : ∀ u, S u → S' u) {past : Past} {c : Call}
    (h : ApiCall S past c) : ApiCall S' past c := by
  cases c with
  | updateOrders u => exact ⟨h.1, hS u h.2⟩
  | restartApi => exact h
  | restartWorker => exact h
  | _ => trivial

/-- A handler's specification, for the handler with its response wrapped up. -/
theorem ApiSpec.respond {α : Type} {S S' : UpdateOrders → Prop} {R : Past → α → Prop}
    {D : Past → Prop} {past : Past} {x : Program α} {wrap : α → Response} (h : ApiSpec S R past x)
    (hS : ∀ u, S u → S' u) (hR : ∀ past' a, past ⊆ past' → R past' a → D past') :
    ApiSpec S' (fun past' _ => D past') past (x >>= fun resp => pure (wrap resp)) :=
  spec_seq_onOk (spec_mono (fun _ _ => ApiCall.mono hS) (fun _ _ hr => hr) h) hR

theorem handle_spec (st : AppState) (headers : AuthHeaders) (auth : Option Authed) (target : Route)
    (body : Body) (past : Past)
    (hauth : ∀ a, auth = some a → ∃ hour, Authenticated headers past a hour) :
    ApiSpec (AllowedUpdate st.prim headers target body)
      (fun past' _ => HandlerDone st headers past' target body) past
      (handle st auth target body) := by
  unfold handle
  split
  all_goals simp only [ApiSpec, spec_orFail_bind, onOk_error, implies_true, true_and, spec_fail]
  · exact fun _ _ => (createOrder_spec st _ past).respond (fun _ h => h) fun _ _ _ _ => trivial
  · exact fun _ _ => (getOrder_spec _ past).respond (fun _ h => h) fun _ _ _ _ => trivial
  · rename_i id req
    intro a ha
    obtain ⟨hour, hh⟩ := hauth a ha
    refine (updateOrder_spec st a id req past).respond (fun u hu => ?_) fun past' resp hsub h => ?_
    · obtain ⟨row, blob, nonceBytes, sigBytes, hsigned⟩ := hu
      exact ⟨a.pubkeyBytes, row, blob, nonceBytes, sigBytes, hh.pubkey, hsigned⟩
    obtain ⟨row, blob, nonceBytes, sigBytes, u, _, hdone⟩ := h
    exact ⟨a, hour, row, blob, nonceBytes, sigBytes, u, hh.mono hsub, hdone⟩
  · rename_i req
    intro a ha
    obtain ⟨hour, hh⟩ := hauth a ha
    refine (openDispute_spec req past).respond (fun _ h => h) fun past' resp hsub h => ?_
    obtain ⟨row, blob, u, _, hw⟩ := h
    exact ⟨a, hour, row, blob, u, hh.mono hsub, hw⟩
  · exact fun _ _ => (getDispute_spec _ past).respond (fun _ h => h) fun _ _ _ _ => trivial
  · rename_i id req
    intro a ha
    obtain ⟨hour, hh⟩ := hauth a ha
    refine (updateDispute_spec id req past).respond (fun _ h => h) fun past' resp hsub h => ?_
    obtain ⟨row, blob, u, _, hw⟩ := h
    exact ⟨a, hour, row, blob, u, hh.mono hsub, hw⟩
  · rename_i id req
    refine (resolveDispute_spec st id req past).respond (fun _ h => h) fun past' resp _ h => ?_
    obtain ⟨kp, t, row, blob, u, _, hused, hnonce, hw⟩ := h
    exact ⟨kp, t, row, blob, u, hused, hnonce, hw⟩
  · exact fun _ _ => (getChat_spec _ past).respond (fun _ h => h) fun _ _ _ _ => trivial
  · rename_i orderId req
    intro a ha
    obtain ⟨hour, hh⟩ := hauth a ha
    refine (updateChat_spec orderId req past).respond (fun _ h => h) fun past' resp hsub h => ?_
    obtain ⟨row, blob, u, _, hw⟩ := h
    exact ⟨a, hour, row, blob, u, hh.mono hsub, hw⟩
  · exact (blindSign_spec st _ past).respond (fun _ h => h) fun _ _ _ _ => trivial
  · exact (getAdminPubkey_spec st past).respond (fun _ h => h) fun _ _ _ _ => trivial
  · exact (rotateKek_spec st _ past).respond (fun _ h => h) fun _ _ _ h => h
  · exact (challenge_spec _ past).respond (fun _ h => h) fun _ _ _ _ => trivial
  · exact (verify_spec st _ past).respond (fun _ h => h) fun _ _ _ _ => trivial

/-- What the success of a request establishes. -/
def RequestDone (st : AppState) (r : Request) (past : Past) : Prop :=
  ∃ target, route r.method r.path = some target ∧ HandlerDone st r.headers past target r.body

/-- The updates that the request may make. -/
def Request.AllowedUpdate (P : Primitives) (r : Request) (u : UpdateOrders) : Prop :=
  ∃ target, route r.method r.path = some target ∧
    TorMarketplace.AllowedUpdate P r.headers target r.body u

/-- **What a request does.** -/
theorem handleRequest_spec (st : AppState) (r : Request) :
    ApiSpec (r.AllowedUpdate st.prim) (fun past _ => RequestDone st r past) []
      (handleRequest st r) := by
  unfold handleRequest
  refine spec_seq_onOk (statelessAuthMiddleware_spec st r.path r.headers []) fun past auth _ hauth => ?_
  simp only [ApiCall, spec_call_bind, spec_ensure_bind, spec_orFail_bind, onOk_error, implies_true,
    true_and]
  intro admitted _ _ target htarget
  refine spec_mono (fun _ _ => ApiCall.mono fun u hu => ⟨target, htarget, hu⟩)
    (fun past' resp h => ?_) (handle_spec st r.headers auth target r.body _ fun a ha => ?_)
  · cases resp with
    | ok resp => exact ⟨target, htarget, h⟩
    | error e => trivial
  · obtain ⟨hour, hh⟩ := hauth a ha
    exact ⟨hour, hh.mono (List.subset_append_left past _)⟩

end TorMarketplace
