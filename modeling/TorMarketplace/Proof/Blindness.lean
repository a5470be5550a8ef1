import TorMarketplace.Lib.Lockstep
import TorMarketplace.Proof.Versions

/-!
# The API is blind

The server keeps what the clients have encrypted and does not look at it. Stated of two runs: two tables
whose rows differ in nothing but the contents of their blobs cannot be told apart by the API. Whatever it
can do on one of them, it can do on the other with the same requests in the same interleaving: the same
calls, the same errors, and responses that differ in nothing but the blobs they hand out.

An `Order` is compared by `Order.blind`, which keeps whether a blob is there; the same goes for a response.
`server_blind` is about the machine, `handleRequest_alike` about the programs, and `Lib/Lockstep` makes
runs of it.
-/

namespace TorMarketplace

open Interleave Prog

/-! ## What is not looked at -/

/-- A row without the contents of its blobs. -/
def Order.blind (o : Order) : Order :=
  { o with
    encryptedOrderBlob := []
    clientEncryptedBlob := o.clientEncryptedBlob.map fun _ => []
    disputeClientBlob := o.disputeClientBlob.map fun _ => []
    chatEncryptedBlob := o.chatEncryptedBlob.map fun _ => [] }

/-- A response without the contents of its blobs. -/
def Response.blind : Response → Response
  | .order resp => .order { resp with clientEncryptedBlob := resp.clientEncryptedBlob.map fun _ => "" }
  | .dispute resp =>
    .dispute { resp with clientEncryptedBlob := resp.clientEncryptedBlob.map fun _ => "" }
  | .chat resp => .chat { resp with chatEncryptedBlob := resp.chatEncryptedBlob.map fun _ => "" }
  | resp => resp

/-- The tables are alike row by row, and the rest of the state is the same. -/
inductive Shared.SameButBlobs (s : Shared) : Shared → Prop
  | mk (t : OrdersTable) (h : s.orders.rows.map Order.blind = t.rows.map Order.blind) :
      SameButBlobs s { s with orders := t }

theorem Shared.SameButBlobs.rows {s s' : Shared} (h : s.SameButBlobs s') :
    s.orders.rows.map Order.blind = s'.orders.rows.map Order.blind := by
  cases h with
  | mk t h => exact h

/-- Two answers that differ in the blobs of their rows. -/
def Call.sameButBlobs : (c : Call) → c.Ans → c.Ans → Prop
  | .selectOrder _, a, a' => a.map (Option.map Order.blind) = a'.map (Option.map Order.blind)
  | .selectOrders, a, a' => a.map (List.map Order.blind) = a'.map (List.map Order.blind)
  | _, a, a' => a = a'

/-- Who sees everything but blobs. -/
def outsideBlobs : Observer Server Shared := ⟨Shared.SameButBlobs, Call.sameButBlobs⟩

/-! ## The machine -/

variable {o o' : Order} {t t' : OrdersTable}

/-- What is left of a row that is compared: its reader looks at nothing else. -/
theorem Order.blind_eq (h : o.blind = o'.blind) :
    o.id = o'.id ∧ o.dayBucket = o'.dayBucket ∧ o.expiryBucket = o'.expiryBucket ∧
      o.version = o'.version ∧ o.hasDispute = o'.hasDispute := by
  simp only [Order.blind, Order.mk.injEq] at h
  exact ⟨h.1, h.2.2.1, h.2.2.2.1, h.2.2.2.2.1, h.2.2.2.2.2.1⟩

theorem matchesRow_blind (u : UpdateOrders) : u.matchesRow o.blind = u.matchesRow o := rfl

theorem readRow_blind (o : Order) : (readRow o).map Order.blind = readRow o.blind := by
  unfold readRow
  change _ = if IsI64 o.version then some o.blind else none
  split <;> rfl

theorem blind_blind (o : Order) : o.blind.blind = o.blind := by
  obtain ⟨id, enc, day, expiry, version, dispute, client, disputeBlob, chat⟩ := o
  cases client <;> cases disputeBlob <;> cases chat <;> rfl

/-- What an update makes of a row does not depend on the blobs it replaces or keeps. -/
theorem set_blind (u : UpdateOrders) (h : o.blind = o'.blind) : (u.set o).blind = (u.set o').blind := by
  have hset : ∀ o : Order, (u.set o).blind = (u.set o.blind).blind := by
    intro o
    obtain ⟨id, enc, day, expiry, version, dispute, client, disputeBlob, chat⟩ := o
    obtain ⟨encSet, expirySet, disputeSet, hasSet, chatSet, bump, whereId, whereVersion⟩ := u
    cases client <;> cases disputeBlob <;> cases chat <;> cases disputeSet <;> cases chatSet <;> rfl
  rw [hset o, hset o', h]

theorem find_blind (h : t.rows.map Order.blind = t'.rows.map Order.blind) (id : Encoding.Bytes) :
    (t.find id).map Order.blind = (t'.find id).map Order.blind := by
  have hfind : ∀ l : List Order, (l.find? fun o => decide (o.id = id)).map Order.blind =
      (l.map Order.blind).find? fun o => decide (o.id = id) := by
    intro l
    rw [List.find?_map]
    rfl
  rw [OrdersTable.find, OrdersTable.find, hfind, hfind, h]

theorem rowsAffected_blind (h : t.rows.map Order.blind = t'.rows.map Order.blind) (u : UpdateOrders) :
    t.rowsAffected u = t'.rowsAffected u := by
  have hcount : ∀ l : List Order, l.countP u.matchesRow = (l.map Order.blind).countP u.matchesRow := by
    intro l
    rw [List.countP_map]
    rfl
  exact (hcount _).trans ((congrArg _ h).trans (hcount _).symm)

theorem update_blind (h : t.rows.map Order.blind = t'.rows.map Order.blind) (u : UpdateOrders) :
    (t.update u).rows.map Order.blind = (t'.update u).rows.map Order.blind := by
  have hmap : ∀ l : List Order,
      (l.map fun o => if u.matchesRow o then u.set o else o).map Order.blind =
        (l.map Order.blind).map fun o => (if u.matchesRow o then u.set o else o).blind := by
    intro l
    rw [List.map_map, List.map_map]
    refine List.map_congr_left fun o _ => ?_
    simp only [Function.comp_apply]
    by_cases hm : u.matchesRow o = true
    · have hm' : u.matchesRow o.blind = true := hm
      rw [if_pos hm, if_pos hm']
      exact set_blind u (blind_blind o).symm
    · have hm' : ¬ u.matchesRow o.blind = true := hm
      rw [if_neg hm, if_neg hm', blind_blind]
  rw [OrdersTable.update, OrdersTable.update, hmap, hmap, h]

theorem insert_blind (h : t.rows.map Order.blind = t'.rows.map Order.blind) (i : InsertOrders) :
    Option.Rel (fun t₁ t₁' => t₁.rows.map Order.blind = t₁'.rows.map Order.blind)
      (t.insert i) (t'.insert i) := by
  have hids : t.rows.map Order.id = t'.rows.map Order.id := by
    have hmap := congrArg (List.map Order.id) h
    rw [List.map_map, List.map_map] at hmap
    exact hmap
  unfold OrdersTable.insert
  by_cases hfree : i.id ∈ t.rows.map Order.id
  · rw [dif_pos hfree, dif_pos (hids ▸ hfree)]
    exact .none
  · rw [dif_neg hfree, dif_neg (hids ▸ hfree)]
    refine .some ?_
    rw [List.map_append, List.map_append, h]

theorem mapM_readRow_blind (l : List Order) :
    (l.mapM readRow).map (List.map Order.blind) = (l.map Order.blind).mapM readRow := by
  induction l with
  | nil => rfl
  | cons o l ih =>
    rw [List.map_cons, List.mapM_cons, List.mapM_cons, ← ih, ← readRow_blind]
    cases readRow o <;> cases l.mapM readRow <;> rfl

theorem answer_blind {r r' : Option Order} (h : r.map Order.blind = r'.map Order.blind) :
    (r.map some).map (Option.map Order.blind) = (r'.map some).map (Option.map Order.blind) := by
  cases r <;> cases r' <;> simp_all

/-- **The machine tells nothing of the blobs.** -/
theorem server_blind : Blind outsideBlobs server := by
  intro c e s s' hs
  obtain ⟨t, h⟩ := hs
  cases c with
  | selectOrder id =>
    have hfind := find_blind h id
    simp only [server]
    split
    · exact .some ⟨rfl, .mk t h⟩
    · cases hrow : s.orders.find id <;> cases hrow' : t.find id <;> rw [hrow, hrow'] at hfind
      case isFalse.none.none => exact .some ⟨rfl, .mk t h⟩
      case isFalse.none.some => exact absurd hfind (by simp)
      case isFalse.some.none => exact absurd hfind (by simp)
      case isFalse.some.some o o' =>
        have hread : (readRow o).map Order.blind = (readRow o').map Order.blind := by
          rw [readRow_blind, readRow_blind, Option.some.inj hfind]
        exact .some ⟨answer_blind hread, .mk t h⟩
  | selectOrders =>
    have hrows := mapM_readRow_blind s.orders.rows
    have hrows' := mapM_readRow_blind t.rows
    rw [h, ← hrows'] at hrows
    simp only [server]
    split
    · exact .some ⟨rfl, .mk t h⟩
    · exact .some ⟨hrows, .mk t h⟩
  | insertOrder i =>
    simp only [server]
    split
    · exact .some ⟨rfl, .mk t h⟩
    · have hins := insert_blind h i
      cases hold : s.orders.insert i <;> cases hnew : t.insert i <;> rw [hold, hnew] at hins
      case isFalse.none.none => exact .some ⟨rfl, .mk t h⟩
      case isFalse.none.some => cases hins
      case isFalse.some.none => cases hins
      case isFalse.some.some =>
        cases hins with
        | some hrows => exact .some ⟨rfl, .mk _ hrows⟩
  | updateOrders u =>
    simp only [server]
    split
    · exact .some ⟨rfl, .mk t h⟩
    · exact .some ⟨congrArg some (rowsAffected_blind h u), .mk _ (update_blind h u)⟩
  | _ =>
    simp only [server]
    repeat' split
    all_goals first | exact .none | exact .some ⟨rfl, .mk t h⟩

/-! ## The programs -/

/-- A call that returns no row. -/
def Call.rowless : Call → Bool
  | .selectOrder _ => false
  | .selectOrders => false
  | _ => true

theorem sameButBlobs_eq {c : Call} (hc : c.rowless = true) {a a' : c.Ans} (h : c.sameButBlobs a a') :
    a = a' := by
  cases c with
  | selectOrder _ => exact absurd hc (by simp [Call.rowless])
  | selectOrders => exact absurd hc (by simp [Call.rowless])
  | _ => exact h

/-- What reads no row is alike to itself. -/
theorem alike_of_rowless {α : Type} {x : Program α}
    (h : Spec (fun _ _ => True) (fun _ c => Call.rowless c = true) (fun _ _ => True) [] x) :
    Alike outsideBlobs Eq x x :=
  alike_self (spec_mono (fun _ _ hc _ _ ha => sameButBlobs_eq hc ha) (fun _ _ h => h) h)

theorem rel_of_map_eq {α β : Type} {f : α → β} {o o' : Option α} (h : o.map f = o'.map f) :
    Option.Rel (fun a a' => f a = f a') o o' := by
  cases o <;> cases o'
  case none.none => exact .none
  case some.some => exact .some (Option.some.inj h)
  all_goals exact absurd h (by simp)

/-- The row of a handler, found in both tables or in neither. -/
theorem alike_select {α β : Type} {R : α → β → Prop} {id : Encoding.Bytes} {e e' : Failure}
    {f : Order → Program α} {f' : Order → Program β}
    (hf : ∀ o o' : Order, o.blind = o'.blind → Alike outsideBlobs R (f o) (f' o')) :
    Alike outsideBlobs R
      (do let row ← exec (.selectOrder id); let row ← orFail row e; let row ← orFail row e'; f row)
      (do let row ← exec (.selectOrder id); let row ← orFail row e; let row ← orFail row e'; f' row) :=
  alike_call_bind fun _ _ h => alike_orFail_bind (rel_of_map_eq h) fun _ _ h =>
    alike_orFail_bind (rel_of_map_eq h) hf

/-- A call whose answer both sides have. -/
theorem alike_exec {α β : Type} {R : α → β → Prop} {c : Call} (hc : c.rowless = true)
    {f : c.Ans → Program α} {f' : c.Ans → Program β} (hf : ∀ a, Alike outsideBlobs R (f a) (f' a)) :
    Alike outsideBlobs R (exec c >>= f) (exec c >>= f') :=
  alike_call_bind fun a _ h => sameButBlobs_eq hc h ▸ hf a

/-- Whether something is there says it of what is made of it. -/
theorem hidden_map {α β γ δ : Type} {o o' : Option α} {c : β} {d : δ} (f : α → γ)
    (h : o.map (fun _ => c) = o'.map fun _ => c) :
    (o.map f).map (fun _ => d) = (o'.map f).map fun _ => d := by
  cases o <;> cases o'
  case none.none => rfl
  case some.some => rfl
  all_goals exact absurd h (by simp)

theorem getOrder_alike (id : String) : Alike outsideBlobs
    (fun r r' => (Response.order r).blind = (Response.order r').blind) (getOrder id) (getOrder id) := by
  refine alike_orFail_bind_same fun idBytes _ => alike_select fun o o' h => .ret ?_
  obtain ⟨_, hday, hexpiry, hversion, hdispute⟩ := Order.blind_eq h
  simp only [Response.blind, hday, hexpiry, hversion, hdispute, Option.map_some]

theorem updateOrder_alike (st : AppState) (auth : Authed) (id : String) (req : UpdateOrderRequest) :
    Alike outsideBlobs (fun r r' => (Response.order r).blind = (Response.order r').blind)
      (updateOrder st auth id req) (updateOrder st auth id req) := by
  refine alike_orFail_bind_same fun idBytes _ => alike_orFail_bind_same fun blob _ =>
    alike_ensure_bind rfl fun _ => alike_ensure_bind rfl fun _ => alike_exec rfl fun fresh =>
    alike_ensure_bind rfl fun _ => alike_select fun o o' h => ?_
  obtain ⟨_, hday, hexpiry, hversion, _⟩ := Order.blind_eq h
  rw [hday, hexpiry, hversion]
  exact alike_orFail_bind_same fun nonceBytes _ => alike_orFail_bind_same fun sigBytes _ =>
    alike_ensure_bind rfl fun _ => alike_ensure_bind rfl fun _ => alike_exec rfl fun affected =>
    alike_orFail_bind_same fun n _ => alike_ensure_bind rfl fun _ => .ret rfl

theorem openDispute_alike (req : OpenDisputeRequest) : Alike outsideBlobs
    (fun r r' => (Response.dispute r).blind = (Response.dispute r').blind)
      (openDispute req) (openDispute req) := by
  refine alike_orFail_bind_same fun idBytes _ => alike_orFail_bind_same fun blob _ =>
    alike_ensure_bind rfl fun _ => alike_exec rfl fun fresh => alike_ensure_bind rfl fun _ =>
    alike_exec rfl fun disputeId => alike_select fun o o' h => ?_
  obtain ⟨_, _, _, hversion, _⟩ := Order.blind_eq h
  rw [hversion]
  exact alike_exec rfl fun affected => alike_orFail_bind_same fun n _ =>
    alike_ensure_bind rfl fun _ => .ret rfl

theorem getDispute_alike (id : String) : Alike outsideBlobs
    (fun r r' => (Response.dispute r).blind = (Response.dispute r').blind)
      (getDispute id) (getDispute id) := by
  refine alike_orFail_bind_same fun idBytes _ => alike_select fun o o' h => ?_
  obtain ⟨_, _, _, hversion, hdispute⟩ := Order.blind_eq h
  refine alike_ensure_bind (by rw [hdispute]) fun _ => .ret ?_
  have hblob := hidden_map (d := "") Encoding.base64Encode (congrArg Order.disputeClientBlob h)
  simp only [Response.blind, hversion, hblob]

theorem updateDispute_alike (id : String) (req : UpdateDisputeRequest) : Alike outsideBlobs
    (fun r r' => (Response.dispute r).blind = (Response.dispute r').blind)
      (updateDispute id req) (updateDispute id req) := by
  refine alike_orFail_bind_same fun idBytes _ => alike_orFail_bind_same fun blob _ =>
    alike_ensure_bind rfl fun _ => alike_exec rfl fun fresh => alike_ensure_bind rfl fun _ =>
    alike_select fun o o' h => ?_
  obtain ⟨_, _, _, hversion, _⟩ := Order.blind_eq h
  rw [hversion]
  exact alike_exec rfl fun affected => alike_orFail_bind_same fun n _ =>
    alike_ensure_bind rfl fun _ => .ret rfl

/-- The check of an admin token reads no row. -/
theorem token_alike {P : Primitives} {kp : AdminKeypair} {domain actionId : String} (t : AdminToken)
    {α β : Type} {R : α → β → Prop} {f : TokenFields → Program α} {f' : TokenFields → Program β}
    (hf : ∀ t, Alike outsideBlobs R (f t) (f' t)) :
    Alike outsideBlobs R (do let t ← decodeToken t; checkToken P kp domain actionId t; f t)
      (do let t ← decodeToken t; checkToken P kp domain actionId t; f' t) := by
  refine alike_bind (alike_of_rowless (x := decodeToken t) ?_) fun t _ h => ?_
  · simp [decodeToken]
  · subst h
    refine alike_bind (alike_of_rowless (x := checkToken P kp domain actionId t) ?_) fun _ _ _ => hf t
    simp [checkToken, Call.rowless]

theorem resolveDispute_alike (st : AppState) (id : String) (req : ResolveDisputeRequest) :
    Alike outsideBlobs (fun r r' => (Response.dispute r).blind = (Response.dispute r').blind)
      (resolveDispute st id req) (resolveDispute st id req) := by
  refine alike_orFail_bind_same fun kp _ => token_alike req.token fun t => alike_exec rfl fun fresh =>
    alike_ensure_bind rfl fun _ => alike_orFail_bind_same fun idBytes _ =>
    alike_orFail_bind_same fun outcome _ => alike_ensure_bind rfl fun _ => alike_select fun o o' h => ?_
  obtain ⟨_, _, _, hversion, _⟩ := Order.blind_eq h
  rw [hversion]
  exact alike_exec rfl fun affected => alike_orFail_bind_same fun n _ =>
    alike_ensure_bind rfl fun _ => .ret rfl

theorem rotateKek_alike (st : AppState) (req : RotateKekRequest) :
    Alike outsideBlobs Eq (rotateKek st req) (rotateKek st req) :=
  alike_orFail_bind_same fun _ _ => token_alike req.token fun _ => alike_exec rfl fun _ =>
    alike_exec rfl fun _ => alike_orFail_bind_same fun _ _ => .ret rfl

theorem getChat_alike (orderId : String) : Alike outsideBlobs
    (fun r r' => (Response.chat r).blind = (Response.chat r').blind)
      (getChat orderId) (getChat orderId) := by
  refine alike_orFail_bind_same fun idBytes _ => alike_call_bind fun _ _ h =>
    alike_orFail_bind (rel_of_map_eq h) fun row row' h => ?_
  cases row <;> cases row'
  case none.none => exact .ret rfl
  case some.some o o' =>
    obtain ⟨_, _, _, hversion, _⟩ := Order.blind_eq (Option.some.inj h)
    -- the second statement may see another row, alike on both sides again
    refine alike_call_bind fun _ _ h => alike_orFail_bind (rel_of_map_eq h) fun row row' h => .ret ?_
    have hblob : (row.bind Order.chatEncryptedBlob).map (fun _ => ([] : Bytes)) =
        (row'.bind Order.chatEncryptedBlob).map fun _ => [] := by
      cases row <;> cases row'
      case none.none => rfl
      case some.some => exact congrArg Order.chatEncryptedBlob (Option.some.inj h)
      all_goals exact absurd h (by simp)
    have hshown := hidden_map (d := "") Encoding.base64Encode hblob
    simp only [Response.blind, hversion, hshown]
  all_goals exact absurd h (by simp)

theorem updateChat_alike (orderId : String) (req : SendMessageRequest) : Alike outsideBlobs
    (fun r r' => (Response.chat r).blind = (Response.chat r').blind)
      (updateChat orderId req) (updateChat orderId req) := by
  refine alike_orFail_bind_same fun idBytes _ => alike_orFail_bind_same fun blob _ =>
    alike_ensure_bind rfl fun _ => alike_select fun o o' h => ?_
  obtain ⟨_, _, _, hversion, _⟩ := Order.blind_eq h
  rw [hversion]
  exact alike_exec rfl fun fresh => alike_ensure_bind rfl fun _ => alike_exec rfl fun affected =>
    alike_orFail_bind_same fun n _ => alike_ensure_bind rfl fun _ => .ret rfl

/-- A handler that reads no row. -/
theorem respond_alike {α : Type} {x : Program α} (respond : α → Response)
    (h : Spec (fun _ _ => True) (fun _ c => Call.rowless c = true) (fun _ _ => True) [] x) :
    Alike outsideBlobs (fun r r' : Response => r.blind = r'.blind) (x >>= fun a => pure (respond a))
      (x >>= fun a => pure (respond a)) :=
  alike_bind (alike_of_rowless h) fun _ _ h => .ret (h ▸ rfl)

/-- **Every handler is blind.** -/
theorem handle_alike (st : AppState) (auth : Option Authed) (target : Route) (body : Body) :
    Alike outsideBlobs (fun r r' : Response => r.blind = r'.blind) (handle st auth target body)
      (handle st auth target body) := by
  unfold handle
  split
  · exact alike_orFail_bind_same fun _ _ => respond_alike _ (by simp [createOrder, Call.rowless])
  · exact alike_orFail_bind_same fun _ _ => alike_bind (getOrder_alike _) fun _ _ h => .ret h
  · exact alike_orFail_bind_same fun auth _ =>
      alike_bind (updateOrder_alike st auth _ _) fun _ _ h => .ret h
  · exact alike_orFail_bind_same fun _ _ => alike_bind (openDispute_alike _) fun _ _ h => .ret h
  · exact alike_orFail_bind_same fun _ _ => alike_bind (getDispute_alike _) fun _ _ h => .ret h
  · exact alike_orFail_bind_same fun _ _ => alike_bind (updateDispute_alike _ _) fun _ _ h => .ret h
  · exact alike_bind (resolveDispute_alike st _ _) fun _ _ h => .ret h
  · exact alike_orFail_bind_same fun _ _ => alike_bind (getChat_alike _) fun _ _ h => .ret h
  · exact alike_orFail_bind_same fun _ _ => alike_bind (updateChat_alike _ _) fun _ _ h => .ret h
  · exact respond_alike _ (by simp [blindSign])
  · exact respond_alike _ (by simp [getAdminPubkey])
  · exact alike_bind (rotateKek_alike st _) fun _ _ h => .ret (h ▸ rfl)
  · exact respond_alike _ (by simp [challenge, cleanupChallenges, Call.rowless])
  · exact respond_alike _ (by simp [verify, cleanupChallenges, Call.rowless])
  · exact .fail

/-- **A request is served without a look at the blobs.** -/
theorem handleRequest_alike (st : AppState) (r : Request) :
    Alike outsideBlobs (fun r r' : Response => r.blind = r'.blind) (handleRequest st r)
      (handleRequest st r) := by
  refine alike_bind (alike_of_rowless (x := statelessAuthMiddleware st r.path r.headers) ?_) ?_
  · unfold statelessAuthMiddleware
    split <;> simp [Call.rowless]
  · rintro auth _ rfl
    exact alike_exec rfl fun admitted => alike_ensure_bind rfl fun _ =>
      alike_orFail_bind_same fun target _ => handle_alike st auth target r.body

/-! ## Runs -/

/-- A job of the API process, or a restart. -/
def apiJob : System → Job → Prop := fun _ j => j.isWorker = false

theorem program_alike (D : Deployment) {j : Job} (hj : j.isWorker = false) :
    Alike outsideBlobs (fun r r' : Response => r.blind = r'.blind) (D.program j) (D.program j) := by
  cases j with
  | request r => exact handleRequest_alike D.api r
  | restartApi => exact alike_exec rfl fun _ => .ret rfl
  | restartWorker => exact alike_exec rfl fun _ => .ret rfl
  | checkPendingPayments => exact absurd hj (by simp [Job.isWorker])
  | checkTimeLocks => exact absurd hj (by simp [Job.isWorker])
  | scanNotifications => exact absurd hj (by simp [Job.isWorker])
  | runDummyWorker => exact absurd hj (by simp [Job.isWorker])

theorem result_blind {x x' : Program Response}
    (h : Alike outsideBlobs (fun r r' : Response => r.blind = r'.blind) x x') :
    x'.result.map (Except.map Response.blind) = x.result.map (Except.map Response.blind) := by
  cases h with
  | ret h => exact congrArg (fun r => some (Except.ok r)) h.symm
  | fail => rfl
  | step _ => rfl

/-- **The API is blind.** From a table with other contents in its blobs, of whatever length, the same
requests make the same calls in the same interleaving; they fail alike, and what they answer differs in
nothing but the blobs. -/
theorem api_blind (D : Deployment) {orders orders' : OrdersTable}
    (h : orders.rows.map Order.blind = orders'.rows.map Order.blind) {g : System}
    (hg : D.Reaches apiJob orders g) :
    ∃ g', D.Reaches apiJob orders' g' ∧
      (g'.procs.map fun p => (p.job, p.prog.result.map (Except.map Response.blind))) =
        (g.procs.map fun p => (p.job, p.prog.result.map (Except.map Response.blind))) ∧
      (g'.history.map fun ev => (ev.pid, ev.reply.1)) = (g.history.map fun ev => (ev.pid, ev.reply.1)) ∧
      g'.shared.orders.rows.map Order.blind = g.shared.orders.rows.map Order.blind := by
  have hstart : (Shared.initial orders).SameButBlobs (Shared.initial orders') := .mk orders' h
  have hbody : ∀ j : Job, j.isWorker = false →
      Alike outsideBlobs (fun r r' : Response => r.blind = r'.blind) (D.program j) (D.program j) :=
    fun _ hj => program_alike D hj
  obtain ⟨g', hg', halike⟩ := server_blind.run hbody hstart hg
  refine ⟨g', hg', map_eq_of_forall₂ (fun p p' hp => ?_) halike.procs,
    map_eq_of_forall₂ (fun ev ev' hev => ?_) halike.history, ?_⟩
  · rw [hp.job, result_blind hp.prog]
  · rw [hev.pid, hev.reply.call_eq]
  · exact halike.shared.rows.symm

namespace BlindSample

open Sample

theorem race_allowed (j : Job) (hj : .spawn j ∈ race) (g : System) : apiJob g j := by
  simp only [race, acts, List.mem_cons, List.mem_append, List.mem_replicate, Label.spawn.injEq,
    reduceCtorEq, and_false, or_false] at hj
  rcases hj with rfl | rfl <;> rfl

/-- The two chat messages, both served, on an order with a blob of its own. -/
def raceTrace : (deployment (loginTables [firstChat, secondChat]) none).Trace apiJob (orders [1])
    fun g => g.procs.all fun p => p.prog.result.isSome where
  labels := race
  allowed := race_allowed
  passes := by decide +kernel

end BlindSample

open BlindSample Sample in
/-- With another blob in the order's row, the race between the two messages goes the same way. -/
theorem api_blind_race : ∃ g g',
    (deployment (loginTables [firstChat, secondChat]) none).Reaches apiJob (orders [1]) g ∧
    (deployment (loginTables [firstChat, secondChat]) none).Reaches apiJob (orders [2, 3]) g' ∧
    (g'.history.map fun ev => (ev.pid, ev.reply.1)) = (g.history.map fun ev => (ev.pid, ev.reply.1)) := by
  obtain ⟨g, hg, _⟩ := BlindSample.raceTrace.reaches
  have hrows : (orders [1]).rows.map Order.blind = (orders [2, 3]).rows.map Order.blind := rfl
  obtain ⟨g', hg', _, hcalls, _⟩ := api_blind _ hrows hg
  exact ⟨g, g', hg, hg', hcalls⟩

end TorMarketplace
