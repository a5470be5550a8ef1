import TorMarketplace.Lib.Atomic
import TorMarketplace.Proof.Listings
import TorMarketplace.Proof.Versions

/-!
# What a failed request leaves behind

Six handlers of orders and two of listings check a request, record its nonce, and then go on with what may
fail: a query, a signature, the conditional write. A request that fails has written no row. Of the sets it
has changed at most the one of its handler, by its own key (`failed_requests_leave_the_key`): the nonce of
a request that fails late is used up (`failed_request_replayed`).
-/

namespace TorMarketplace

open Encoding Interleave Prog

/-! ## Orders -/

/-- The call may have changed something else than the clock and the cache of the auth middleware. -/
def changes (r : Reply Server) : Bool :=
  match r with
  | ⟨.selectOrder _, _⟩ => false
  | ⟨.selectOrders, _⟩ => false
  | ⟨.selectTracker _, _⟩ => false
  | ⟨.now, _⟩ => false
  | ⟨.lastNotifBlock, _⟩ => false
  | ⟨.checkReplay .., _⟩ => false
  | ⟨.ask _, _⟩ => false
  | ⟨.insertOrder _, done⟩ => done.isSome
  | ⟨.updateOrders _, affected⟩ => affected.any (· ≠ 0)
  | ⟨.insertNonce .., fresh⟩ => fresh
  | _ => true

/-- The call leaves everything as it is but the clock and, if it is the middleware's, its cache. -/
structure Traceless (ev : Effect) : Prop where
  same : ev.after =
    { ev.before with clock := ev.after.clock, replayCache := ev.after.replayCache }
  cache : ev.after.replayCache = ev.before.replayCache ∨ ∃ hour nonce, ev.reply.1 = .checkReplay hour nonce

/-- The call puts the key, which is not there, into the set, and does nothing else. -/
structure RecordsNonce (set : NonceSet) (key : String) (ev : Effect) : Prop where
  same : ev.after = { ev.before with nonces := ev.after.nonces }
  fresh : key ∉ ev.before.nonces set
  nonces : ∀ set', ev.after.nonces set' =
    if set' = set then key :: ev.before.nonces set else ev.before.nonces set'

/-- The calls of a request that has failed: they are traceless, except one at most, which has recorded
the key. -/
def LeavesKey (key : Option (NonceSet × String)) (l : List Effect) : Prop :=
  (∀ ev ∈ l, Traceless ev) ∨ ∃ set k l₁ ev l₂, key = some (set, k) ∧ l = l₁ ++ ev :: l₂ ∧
    RecordsNonce set k ev ∧ ∀ ev' ∈ l₁ ++ l₂, Traceless ev'

/-- An update that matches no row. -/
theorem OrdersTable.update_of_none {t : OrdersTable} {u : UpdateOrders} (h : t.rowsAffected u = 0) :
    t.update u = t := by
  obtain ⟨rows, hnd⟩ := t
  have hno : ∀ o ∈ rows, (if u.matchesRow o then u.set o else o) = o := by
    intro o ho
    rw [if_neg (List.countP_eq_zero.mp h o ho)]
  simp only [update, OrdersTable.mk.injEq]
  exact (List.map_congr_left hno).trans (List.map_id rows)

theorem traceless_of_still {ev : Effect} {e : Choice}
    (ha : server.answer ev.reply.1 e ev.before = some (ev.reply.2, ev.after))
    (hstill : changes ev.reply = false) : Traceless ev := by
  obtain ⟨pid, j, past, ⟨c, a⟩, s, s'⟩ := ev
  replace ha : server.answer c e s = some (a, s') := ha
  have hsame : s' = s → Traceless ⟨pid, j, past, ⟨c, a⟩, s, s'⟩ := by
    rintro rfl
    exact ⟨rfl, .inl rfl⟩
  cases c with
  | now =>
    simp only [server] at ha
    split at ha
    · cases ha
      exact ⟨rfl, .inl rfl⟩
    · exact absurd ha (by simp)
  | checkReplay hour nonce =>
    cases ha
    exact ⟨rfl, .inr ⟨hour, nonce, rfl⟩⟩
  | insertNonce set key =>
    obtain rfl : a = false := hstill
    simp only [server] at ha
    split at ha
    · exact hsame (Prod.mk.inj (Option.some.inj ha)).2.symm
    · exact absurd ha (by simp)
  | insertOrder i =>
    obtain rfl : a = none := Option.isNone_iff_eq_none.mp (by simpa [changes] using hstill)
    rcases answer_insertOrder ha with ⟨_, h⟩ | ⟨_, hdone, _⟩
    · exact hsame h
    · exact absurd hdone (by simp)
  | updateOrders u =>
    rcases answer_updateOrders ha with ⟨_, h⟩ | ⟨rfl, rfl⟩
    · exact hsame h
    · have hzero : s.orders.rowsAffected u = 0 := by simpa [changes] using hstill
      exact hsame (by rw [OrdersTable.update_of_none hzero])
  | selectOrder id =>
    simp only [server] at ha
    repeat' split at ha
    all_goals exact hsame (Prod.mk.inj (Option.some.inj ha)).2.symm
  | selectOrders =>
    simp only [server] at ha
    split at ha <;> exact hsame (Prod.mk.inj (Option.some.inj ha)).2.symm
  | selectTracker txHash =>
    simp only [server] at ha
    split at ha <;> exact hsame (Prod.mk.inj (Option.some.inj ha)).2.symm
  | lastNotifBlock => exact hsame (Prod.mk.inj (Option.some.inj ha)).2.symm
  | ask q =>
    simp only [server] at ha
    split at ha
    · exact hsame (Prod.mk.inj (Option.some.inj ha)).2.symm
    · exact absurd ha (by simp)
  | _ => exact absurd hstill (by simp [changes])

theorem records_of_fresh {ev : Effect} {e : Choice} {set : NonceSet} {key : String}
    (ha : server.answer ev.reply.1 e ev.before = some (ev.reply.2, ev.after))
    (hreply : ev.reply = ⟨.insertNonce set key, true⟩) : RecordsNonce set key ev := by
  rw [hreply] at ha
  simp only [server] at ha
  split at ha
  · exact absurd ha (by simp)
  · rename_i hfree
    obtain ⟨_, hafter⟩ := Prod.mk.inj (Option.some.inj ha)
    exact ⟨by rw [← hafter], by simpa using hfree, fun set' => by rw [← hafter]⟩

/-! ### The handlers -/

/-- The set of a handler, and the key by which it refuses the request the second time. -/
def Route.replayKey : Route → Body → Option (NonceSet × String)
  | .createOrder, .createOrder req => some (.createOrder, req.nonce)
  | .updateOrder id, .updateOrder req => some (.updateOrder, nonceKey id req.nonce)
  | .openDispute, .openDispute req => some (.dispute, nonceKey req.orderId req.nonce)
  | .updateDispute id, .updateDispute req => some (.dispute, nonceKey id req.nonce)
  | .resolveDispute id, .resolveDispute req =>
    -- a request without a token nonce does not come so far
    some (.adminToken, nonceKey id (req.token.tokenNonce.getD ""))
  | .updateChat orderId, .sendMessage req => some (.chat, nonceKey orderId req.nonce)
  | _, _ => none

/-- The handlers of orders, disputes and chat that write. -/
def Route.writes : Route → Bool
  | .createOrder => true
  | .updateOrder _ => true
  | .openDispute => true
  | .updateDispute _ => true
  | .resolveDispute _ => true
  | .updateChat _ => true
  | _ => false

/-- The reply to a handler that has recorded its key. -/
abbrev recorded (set : NonceSet) (key : String) : Reply Server := ⟨.insertNonce set key, true⟩

section Handlers

variable {α : Type}

/-- A call that changes nothing, whatever its answer. -/
theorem still_exec {c : Call} (h : ∀ a, changes ⟨c, a⟩ = false) :
    Still server.May changes (exec c) := still_call h

/-- The query for a row, before what is atomic. -/
theorem atomic_select {id : Bytes} {e e' : Failure} {f : Order → Program α}
    (hf : ∀ row, Atomic server.May changes (f row)) :
    Atomic server.May changes (exec (.selectOrder id) >>= fun current => orFail current e >>= fun current =>
      orFail current e' >>= f) := by
  refine (still_exec fun _ => rfl).bind_atomic fun current => ?_
  refine still_orFail.bind_atomic fun current => ?_
  exact still_orFail.bind_atomic hf

/-- The conditional write that ends a handler. -/
theorem atomic_update {u : UpdateOrders} {e e' : Failure} {resp : α} :
    Atomic server.May changes (exec (.updateOrders u) >>= fun affected => orFail affected e >>= fun affected =>
      ensure (affected ≠ 0) e' >>= fun _ => pure resp) := by
  refine atomic_call (fun affected _ => ?_) fun affected hchange => ?_
  · exact (still_orFail.bind fun _ => still_ensure.bind fun _ => still_pure).atomic
  · cases affected with
    | none => exact absurd hchange (by simp [changes])
    | some n =>
      have hn : decide (n ≠ 0) = true := by simpa [changes] using hchange
      rw [orFail_some_bind, hn]
      exact sure_pure

/-- The set of a handler, before what is atomic. -/
theorem upTo_nonce {set : NonceSet} {key : String} {e : Failure} {f : Program α}
    (hf : Atomic server.May changes f) :
    AtomicUpTo server.May changes (recorded set key)
      (exec (.insertNonce set key) >>= fun fresh => ensure fresh e >>= fun _ => f) := by
  refine upTo_call (fun fresh hfresh => ?_) fun fresh => still_ensure.bind_atomic fun _ => hf
  obtain rfl : fresh = true := hfresh
  rfl

theorem createOrder_upTo (st : AppState) (req : CreateOrderRequest) :
    AtomicUpTo server.May changes (recorded .createOrder req.nonce) (createOrder st req) := by
  unfold createOrder
  refine still_orFail.bind_upTo fun blob => still_ensure.bind_upTo fun _ => still_ensure.bind_upTo fun _ => ?_
  refine upTo_nonce ?_
  refine (still_exec fun _ => rfl).bind_atomic fun time => ?_
  refine (still_exec fun _ => rfl).bind_atomic fun orderId => ?_
  refine atomic_call (fun done _ => ?_) fun done hdone => ?_
  · exact (still_orFail.bind fun _ => still_pure).atomic
  · cases done with
    | none => exact absurd hdone (by simp [changes])
    | some _ => exact sure_pure

theorem updateOrder_upTo (st : AppState) (auth : Authed) (id : String) (req : UpdateOrderRequest) :
    AtomicUpTo server.May changes (recorded .updateOrder (nonceKey id req.nonce))
      (updateOrder st auth id req) := by
  unfold updateOrder
  refine still_orFail.bind_upTo fun idBytes => still_orFail.bind_upTo fun blob => ?_
  refine still_ensure.bind_upTo fun _ => still_ensure.bind_upTo fun _ => ?_
  refine upTo_nonce (atomic_select fun row => ?_)
  refine still_orFail.bind_atomic fun nonce => still_orFail.bind_atomic fun sig => ?_
  refine still_ensure.bind_atomic fun _ => still_ensure.bind_atomic fun _ => ?_
  exact atomic_update

theorem openDispute_upTo (req : OpenDisputeRequest) :
    AtomicUpTo server.May changes (recorded .dispute (nonceKey req.orderId req.nonce))
      (openDispute req) := by
  unfold openDispute
  refine still_orFail.bind_upTo fun idBytes => still_orFail.bind_upTo fun blob => ?_
  refine still_ensure.bind_upTo fun _ => upTo_nonce ?_
  refine (still_exec fun _ => rfl).bind_atomic fun disputeId => atomic_select fun row => ?_
  exact atomic_update

theorem updateDispute_upTo (id : String) (req : UpdateDisputeRequest) :
    AtomicUpTo server.May changes (recorded .dispute (nonceKey id req.nonce)) (updateDispute id req) := by
  unfold updateDispute
  refine still_orFail.bind_upTo fun idBytes => still_orFail.bind_upTo fun blob => ?_
  refine still_ensure.bind_upTo fun _ => upTo_nonce (atomic_select fun row => ?_)
  exact atomic_update

theorem updateChat_upTo (orderId : String) (req : SendMessageRequest) :
    AtomicUpTo server.May changes (recorded .chat (nonceKey orderId req.nonce))
      (updateChat orderId req) := by
  unfold updateChat
  refine still_orFail.bind_upTo fun idBytes => still_orFail.bind_upTo fun blob => ?_
  refine still_ensure.bind_upTo fun _ => ?_
  refine (still_exec fun _ => rfl).bind_upTo fun current => ?_
  refine still_orFail.bind_upTo fun current => still_orFail.bind_upTo fun row => ?_
  exact upTo_nonce atomic_update

/-- The token's nonce is the one that the request spells. -/
theorem decodeToken_nonce {t : AdminToken} {fields : TokenFields}
    (h : (decodeToken t).result = some (.ok fields)) : t.tokenNonce = some fields.nonceHex := by
  obtain ⟨_, _, h⟩ := result_bind_ok h
  obtain ⟨_, _, h⟩ := result_bind_ok h
  obtain ⟨nonceHex, hnonce, h⟩ := result_bind_ok h
  obtain ⟨_, _, h⟩ := result_bind_ok h
  obtain ⟨_, _, h⟩ := result_bind_ok h
  obtain ⟨_, _, h⟩ := result_bind_ok h
  cases h
  exact result_orFail_ok hnonce

theorem decodeToken_result (t : AdminToken) : (decodeToken t).result.isSome :=
  result_bind (result_orFail _ _) fun _ => result_bind (result_orFail _ _) fun _ =>
    result_bind (result_orFail _ _) fun _ => result_bind (result_orFail _ _) fun _ =>
      result_bind (result_orFail _ _) fun _ => result_bind (result_ensure _ _) fun _ => rfl

theorem checkToken_still (P : Primitives) (kp : AdminKeypair) (domain actionId : String) (t : TokenFields) :
    Still server.May changes (checkToken P kp domain actionId t) := by
  unfold checkToken
  refine still_ensure.bind fun _ => still_ensure.bind fun _ => ?_
  exact (still_exec fun _ => rfl).bind fun now => still_ensure

theorem resolveDispute_upTo (st : AppState) (id : String) (req : ResolveDisputeRequest) :
    AtomicUpTo server.May changes (recorded .adminToken (nonceKey id (req.token.tokenNonce.getD "")))
      (resolveDispute st id req) := by
  unfold resolveDispute
  refine still_orFail.bind_upTo fun adminKp => ?_
  refine upTo_of_result (decodeToken_result req.token) fun t ht => ?_
  rw [decodeToken_nonce ht, Option.getD_some]
  refine (checkToken_still _ _ _ _ _).bind_upTo fun _ => upTo_nonce ?_
  refine still_orFail.bind_atomic fun idBytes => still_orFail.bind_atomic fun outcome => ?_
  refine still_ensure.bind_atomic fun _ => atomic_select fun row => ?_
  exact atomic_update

end Handlers

/-- What a request to a handler that writes has changed when it fails: nothing, or it has recorded its
key. -/
def ChangedOnly (target : Route) (body : Body) (past : Past) : Prop :=
  changesIn changes past = [] ∨ ∃ set key, target.replayKey body = some (set, key) ∧
    changesIn changes past = [recorded set key]

theorem changedOnly_of_upTo {α : Type} {target : Route} {body : Body} {set : NonceSet} {key : String}
    {x : Program α} {past : Past} (hkey : target.replayKey body = some (set, key))
    (h : AtomicUpTo server.May changes (recorded set key) x) (hpast : changesIn changes past = []) :
    Spec server.May (fun _ _ => True) (OnError (ChangedOnly target body)) past x := by
  refine spec_mono (fun _ _ h => h) (fun past' r hr => ?_) (h past)
  cases r with
  | ok _ => trivial
  | error _ =>
    rw [hpast] at hr
    exact hr.imp id fun hr => ⟨set, key, hkey, hr⟩

theorem handle_changedOnly (st : AppState) (auth : Option Authed) {target : Route} (body : Body)
    {past : Past} (htarget : target.writes = true) (hpast : changesIn changes past = []) :
    Spec server.May (fun _ _ => True) (OnError (ChangedOnly target body)) past
      (handle st auth target body) := by
  unfold handle
  split
  case h_1 req =>
    exact changedOnly_of_upTo rfl (still_orFail.bind_upTo fun _ => (createOrder_upTo st req).map _) hpast
  case h_3 id req =>
    exact changedOnly_of_upTo rfl (still_orFail.bind_upTo fun auth => (updateOrder_upTo st auth id req).map _)
      hpast
  case h_4 req =>
    exact changedOnly_of_upTo rfl (still_orFail.bind_upTo fun _ => (openDispute_upTo req).map _) hpast
  case h_6 id req =>
    exact changedOnly_of_upTo rfl (still_orFail.bind_upTo fun _ => (updateDispute_upTo id req).map _) hpast
  case h_7 id req => exact changedOnly_of_upTo rfl ((resolveDispute_upTo st id req).map _) hpast
  case h_9 orderId req =>
    exact changedOnly_of_upTo rfl (still_orFail.bind_upTo fun _ => (updateChat_upTo orderId req).map _) hpast
  case h_15 => exact .inl hpast
  all_goals exact absurd htarget (by simp [Route.writes])

theorem statelessAuth_still (st : AppState) (path : String) (headers : AuthHeaders) :
    Still server.May changes (statelessAuthMiddleware st path headers) := by
  unfold statelessAuthMiddleware
  split
  · exact still_pure
  · refine still_orFail.bind fun _ => still_orFail.bind fun _ => still_orFail.bind fun _ => ?_
    refine still_orFail.bind fun _ => still_orFail.bind fun _ => still_orFail.bind fun _ => ?_
    refine still_ensure.bind fun _ => still_orFail.bind fun _ => still_orFail.bind fun _ => ?_
    refine still_orFail.bind fun _ => still_orFail.bind fun _ => ?_
    refine (still_exec fun _ => rfl).bind fun now => still_ensure.bind fun _ => ?_
    refine still_ensure.bind fun _ => still_ensure.bind fun _ => ?_
    exact (still_exec fun _ => rfl).bind fun fresh => still_ensure.bind fun _ => still_pure

theorem handleRequest_changedOnly (st : AppState) (r : Request) :
    Spec server.May (fun _ _ => True) (OnError fun past => ∀ target,
      route r.method r.path = some target → target.writes = true → ChangedOnly target r.body past) []
      (handleRequest st r) := by
  unfold handleRequest
  refine spec_seq (statelessAuth_still st r.path r.headers []) (fun past auth hpast => ?_)
    fun past e hpast target _ _ => .inl hpast
  refine spec_call_bind.mpr ⟨trivial, fun admitted _ => ?_⟩
  have hpast' : changesIn changes (past ++ [(⟨.ask .layersAdmit, admitted⟩ : Reply Server)]) = [] :=
    (changesIn_still rfl past).trans hpast
  refine spec_ensure_bind.mpr ⟨fun _ target _ _ => .inl hpast', fun _ => ?_⟩
  refine spec_orFail_bind.mpr ⟨fun _ target _ _ => .inl hpast', fun target htarget => ?_⟩
  cases hwrites : target.writes with
  | true =>
    refine spec_mono (fun _ _ h => h) (fun past' result h => ?_)
      (handle_changedOnly st auth r.body hwrites hpast')
    cases result with
    | ok _ => trivial
    | error _ =>
      intro target' hroute _
      obtain rfl := Option.some.inj (htarget.symm.trans hroute)
      exact h
  | false =>
    refine spec_of_forall (fun _ _ => trivial) fun past' result => ?_
    cases result with
    | ok _ => trivial
    | error _ =>
      intro target' hroute hother
      obtain rfl := Option.some.inj (htarget.symm.trans hroute)
      exact absurd (hwrites.symm.trans hother) (by simp)

/-! ### Runs -/

section Reaches

variable {D : Deployment} {allow : System → Job → Prop} {orders : OrdersTable} {g : System}

theorem Deployment.Reaches.failed_leaves (h : D.Reaches allow orders g) {pid : Nat} {p : Process}
    (hp : g.procs[pid]? = some p) {r : Request} (hjob : p.job = .request r) {target : Route}
    (hroute : route r.method r.path = some target) (htarget : target.writes = true) {e : Failure}
    (hr : p.prog.result = some (.error e)) :
    LeavesKey (target.replayKey r.body) (eventsOf pid g.history) := by
  have hanswer : ∀ ev ∈ eventsOf pid g.history, ∃ e,
      server.answer ev.reply.1 e ev.before = some (ev.reply.2, ev.after) := fun ev hev =>
    (h.event (List.mem_of_mem_filter hev)).2
  have hstill : ∀ ev ∈ eventsOf pid g.history, changes ev.reply = false → Traceless ev := by
    intro ev hev hno
    obtain ⟨e, ha⟩ := hanswer ev hev
    exact traceless_of_still ha hno
  have hchanged := h.post_request (handleRequest_changedOnly D.api) (List.mem_of_getElem? hp) hjob hr
    target hroute htarget
  rw [Reachable.past_eq_events h hp] at hchanged
  rcases hchanged with hnone | ⟨set, key, hkey, hone⟩
  · exact .inl fun ev hev => hstill ev hev (still_of_changesIn hnone ev hev)
  · obtain ⟨l, ev, l', hl, hreply, hothers⟩ := one_of_changesIn hone
    rw [hl] at hanswer hstill
    obtain ⟨e, ha⟩ := hanswer ev (by simp)
    refine .inr ⟨set, key, l, ev, l', hkey, hl, records_of_fresh ha hreply, fun ev' hev' => ?_⟩
    exact hstill ev' (by rcases List.mem_append.mp hev' with h | h <;> simp [h]) (hothers ev' hev')

end Reaches

/-! ### Rejections -/

/-- A key comes into a set only by the call that records it. -/
theorem answer_newNonce {c : Call} {e : Choice} {s s' : Shared} {a : c.Ans}
    (ha : server.answer c e s = some (a, s')) {set : NonceSet} {key : String} (hkey : key ∈ s'.nonces set) :
    key ∈ s.nonces set ∨ (⟨c, a⟩ : Reply Server) = recorded set key := by
  have hsame : s'.nonces = s.nonces → key ∈ s.nonces set ∨ (⟨c, a⟩ : Reply Server) = recorded set key :=
    fun h => .inl (h ▸ hkey)
  cases c with
  | insertNonce set' key' =>
    simp only [server] at ha
    split at ha
    · obtain ⟨_, rfl⟩ := Prod.mk.inj (Option.some.inj ha)
      exact .inl hkey
    · obtain ⟨rfl, rfl⟩ := Prod.mk.inj (Option.some.inj ha)
      by_cases hset : set = set'
      · subst hset
        rcases List.mem_cons.mp (by simpa using hkey) with rfl | hold
        · exact .inr rfl
        · exact .inl hold
      · exact .inl (by simpa [hset] using hkey)
  | restartApi =>
    obtain ⟨_, rfl⟩ := Prod.mk.inj (Option.some.inj ha)
    exact absurd hkey List.not_mem_nil
  | _ =>
    refine hsame ?_
    simp only [server] at ha
    repeat' split at ha
    all_goals first
      | obtain ⟨_, rfl⟩ := Prod.mk.inj (Option.some.inj ha)
        rfl
      | cases ha

/-- **A request is rejected as a replay only if an earlier one has recorded its key.** -/
theorem Deployment.Reaches.replayed {D : Deployment} {allow : System → Job → Prop} {orders : OrdersTable}
    {g : System} (h : D.Reaches allow orders g) {l l' : List Effect} {ev : Effect}
    (hl : g.history = l ++ ev :: l') {set : NonceSet} {key : String}
    (hreply : ev.reply = ⟨.insertNonce set key, false⟩) : ∃ ev' ∈ l, ev'.reply = recorded set key := by
  obtain ⟨e, ha⟩ := (h.event (show ev ∈ g.history by simp [hl])).2
  obtain ⟨g₀, hg₀, rfl, hs₀, _⟩ := Reachable.upTo h hl
  have hknown := Reachable.shared_inv (R := fun s l => ∀ set key, key ∈ s.nonces set →
    ∃ ev' ∈ l, ev'.reply = recorded set key) (fun _ _ h => absurd h List.not_mem_nil) ?_ hg₀
  · refine hknown set key ?_
    rw [hreply] at ha
    rw [hs₀]
    simp only [server] at ha
    split at ha
    · rename_i hmem
      simpa using hmem
    · exact absurd ha (by simp)
  · intro g pid j past c e a s _ _ ha ih set key hkey
    rcases answer_newNonce ha hkey with hold | hnew
    · obtain ⟨ev', hev', hrecorded⟩ := ih set key hold
      exact ⟨ev', List.mem_append_left _ hev', hrecorded⟩
    · exact ⟨_, List.mem_append_right _ (List.mem_singleton_self _), hnew⟩

/-! ## Listings -/

namespace Listings

/-- The call may have changed something else than the clock. -/
def changes (r : Reply Server) : Bool :=
  match r with
  | ⟨.now, _⟩ => false
  | ⟨.randomBytes _, _⟩ => false
  | ⟨.selectListings .., _⟩ => false
  | ⟨.selectListing _, _⟩ => false
  | ⟨.selectActive, _⟩ => false
  | ⟨.insertCreateNonce _, fresh⟩ => fresh
  | ⟨.insertUpdateNonce _, fresh⟩ => fresh
  | ⟨.insertListing _, done⟩ => done.isSome
  | ⟨.updateListings _, affected⟩ => affected.any (· ≠ 0)
  | ⟨.restartApi, _⟩ => true

/-- The call leaves everything as it is but the clock. -/
def Traceless (ev : Effect) : Prop := ev.after = { ev.before with clock := ev.after.clock }

/-- The call puts the key of the job, which is not there, into its set, and does nothing else. -/
inductive Records : Job → Effect → Prop
  | create {key : Bytes} {req : CreateListingRequest} {ev : Effect}
    (hfresh : req.nonce ∉ ev.before.createNonces)
    (hafter : ev.after = { ev.before with createNonces := req.nonce :: ev.before.createNonces }) :
    Records (.createListing key req) ev
  | update {key : Bytes} {id : String} {req : UpdateListingRequest} {ev : Effect}
    (hfresh : nonceKey id req.nonce ∉ ev.before.updateNonces)
    (hafter : ev.after =
      { ev.before with updateNonces := nonceKey id req.nonce :: ev.before.updateNonces }) :
    Records (.updateListing key id req) ev

/-- The calls of a job that has failed. -/
def LeavesKey (j : Job) (l : List Effect) : Prop :=
  (∀ ev ∈ l, Traceless ev) ∨
    ∃ l₁ ev l₂, l = l₁ ++ ev :: l₂ ∧ Records j ev ∧ ∀ ev' ∈ l₁ ++ l₂, Traceless ev'

theorem traceless_of_still {ev : Effect} {e : Choice}
    (ha : server.answer ev.reply.1 e ev.before = some (ev.reply.2, ev.after))
    (hstill : changes ev.reply = false) : Traceless ev := by
  obtain ⟨pid, j, past, ⟨c, a⟩, s, s'⟩ := ev
  replace ha : server.answer c e s = some (a, s') := ha
  have hsame : s' = s → Traceless ⟨pid, j, past, ⟨c, a⟩, s, s'⟩ := by
    rintro rfl
    exact rfl
  cases c with
  | now =>
    simp only [server] at ha
    split at ha
    · cases ha
      exact rfl
    · exact absurd ha (by simp)
  | randomBytes n =>
    simp only [server] at ha
    split at ha
    · exact hsame (Prod.mk.inj (Option.some.inj ha)).2.symm
    · exact absurd ha (by simp)
  | insertCreateNonce nonce =>
    obtain rfl : a = false := hstill
    simp only [server] at ha
    split at ha
    · exact hsame (Prod.mk.inj (Option.some.inj ha)).2.symm
    · exact absurd ha (by simp)
  | insertUpdateNonce key =>
    obtain rfl : a = false := hstill
    simp only [server] at ha
    split at ha
    · exact hsame (Prod.mk.inj (Option.some.inj ha)).2.symm
    · exact absurd ha (by simp)
  | insertListing i =>
    obtain rfl : a = none := Option.isNone_iff_eq_none.mp (by simpa [changes] using hstill)
    simp only [server] at ha
    split at ha
    · exact hsame (Prod.mk.inj (Option.some.inj ha)).2.symm
    · split at ha
      · exact absurd ha (by simp)
      · exact hsame (Prod.mk.inj (Option.some.inj ha)).2.symm
  | updateListings u =>
    simp only [server] at ha
    split at ha
    · exact hsame (Prod.mk.inj (Option.some.inj ha)).2.symm
    · obtain ⟨rfl, rfl⟩ := Prod.mk.inj (Option.some.inj ha)
      have hzero : s.listings.affected u.toUpdate = 0 := by simpa [changes] using hstill
      exact hsame (by rw [Table.update_of_none hzero])
  | restartApi => exact absurd hstill (by simp [changes])
  | _ =>
    simp only [server] at ha
    repeat' split at ha
    all_goals exact hsame (Prod.mk.inj (Option.some.inj ha)).2.symm

/-- The reply to a job that has recorded its key. -/
inductive Recorded : Job → Reply Server → Prop
  | create {key : Bytes} {req : CreateListingRequest} :
    Recorded (.createListing key req) ⟨.insertCreateNonce req.nonce, true⟩
  | update {key : Bytes} {id : String} {req : UpdateListingRequest} :
    Recorded (.updateListing key id req) ⟨.insertUpdateNonce (nonceKey id req.nonce), true⟩

theorem records_of_fresh {j : Job} {ev : Effect} {e : Choice}
    (ha : server.answer ev.reply.1 e ev.before = some (ev.reply.2, ev.after))
    (hreply : Recorded j ev.reply) : Records j ev := by
  obtain ⟨pid, j', past, reply, s, s'⟩ := ev
  change Recorded j reply at hreply
  cases hreply with
  | create =>
    simp only [server] at ha
    split at ha
    · exact absurd ha (by simp)
    · rename_i hfree
      exact .create hfree (Prod.mk.inj (Option.some.inj ha)).2.symm
  | update =>
    simp only [server] at ha
    split at ha
    · exact absurd ha (by simp)
    · rename_i hfree
      exact .update hfree (Prod.mk.inj (Option.some.inj ha)).2.symm

section Handlers

theorem still_exec {c : Call} (h : ∀ a, changes ⟨c, a⟩ = false) :
    Still server.May changes (exec c) := still_call h

theorem createListing_upTo (key : Bytes) (req : CreateListingRequest) :
    AtomicUpTo server.May changes ⟨.insertCreateNonce req.nonce, true⟩ (createListing key req) := by
  unfold createListing
  refine (still_of_result (decodeBlob_result _)).bind_upTo fun blob => ?_
  refine (still_of_result (decodeSearchToken_result _)).bind_upTo fun searchToken => ?_
  refine (still_of_result (validateLabel_result _ _)).bind_upTo fun status => ?_
  refine (still_of_result (validateLabel_result _ _)).bind_upTo fun currency => ?_
  refine upTo_call (fun fresh (hfresh : fresh = true) => hfresh ▸ rfl) fun fresh => ?_
  refine still_ensure.bind_atomic fun _ => ?_
  refine (still_exec fun _ => rfl).bind_atomic fun time => ?_
  refine (still_exec fun _ => rfl).bind_atomic fun listingId => ?_
  refine atomic_call (fun done _ => ?_) fun done hdone => ?_
  · exact (still_orFail.bind fun _ => still_pure).atomic
  · cases done with
    | none => exact absurd hdone (by simp [changes])
    | some _ => exact sure_pure

theorem updateListing_upTo (key : Bytes) (id : String) (req : UpdateListingRequest) :
    AtomicUpTo server.May changes ⟨.insertUpdateNonce (nonceKey id req.nonce), true⟩
      (updateListing key id req) := by
  unfold updateListing
  refine still_orFail.bind_upTo fun idBytes => ?_
  refine (still_of_result (decodeBlob_result _)).bind_upTo fun blob => ?_
  refine (still_of_result (decodeSearchToken_result _)).bind_upTo fun searchToken => ?_
  refine (still_of_result (validateOptLabel_result _ _)).bind_upTo fun status => ?_
  refine (still_of_result (validateOptLabel_result _ _)).bind_upTo fun currency => ?_
  refine upTo_call (fun fresh (hfresh : fresh = true) => hfresh ▸ rfl) fun fresh => ?_
  refine still_ensure.bind_atomic fun _ => ?_
  refine (still_exec fun _ => rfl).bind_atomic fun current => ?_
  refine still_orFail.bind_atomic fun current => still_orFail.bind_atomic fun row => ?_
  -- the clock is read after the write, and cannot fail
  refine atomic_call (fun affected _ => ?_) fun affected hchange => ?_
  · refine (still_orFail.bind fun _ => still_ensure.bind fun _ => ?_).atomic
    exact (still_exec fun _ => rfl).bind fun _ => still_pure
  · cases affected with
    | none => exact absurd hchange (by simp [changes])
    | some n =>
      have hn : decide (n ≠ 0) = true := by simpa [changes] using hchange
      rw [orFail_some_bind, hn]
      exact sure_call fun _ => sure_pure

end Handlers

/-- The jobs that write. -/
def Job.writes : Job → Bool
  | .createListing .. => true
  | .updateListing .. => true
  | _ => false

theorem program_changedOnly (worker : AppState) (j : Job) :
    Spec server.May (fun _ _ => True) (OnError fun past => j.writes = true →
      changesIn changes past = [] ∨ ∃ reply, Recorded j reply ∧ changesIn changes past = [reply]) []
      (program worker j) := by
  have hother (h : j.writes = false) {x : Program Response} :
      Spec server.May (fun _ _ => True) (OnError fun past => j.writes = true →
        changesIn changes past = [] ∨ ∃ reply, Recorded j reply ∧ changesIn changes past = [reply]) [] x := by
    refine spec_of_forall (fun _ _ => trivial) fun past result => ?_
    cases result with
    | ok _ => trivial
    | error _ => exact fun hj => absurd (h.symm.trans hj) (by simp)
  have hupTo {mark : Reply Server} {x : Program Response} (hmark : Recorded j mark)
      (h : AtomicUpTo server.May changes mark x) :
      Spec server.May (fun _ _ => True) (OnError fun past => j.writes = true →
        changesIn changes past = [] ∨ ∃ reply, Recorded j reply ∧ changesIn changes past = [reply]) [] x := by
    refine spec_mono (fun _ _ h => h) (fun past r hr => ?_) (h [])
    cases r with
    | ok _ => trivial
    | error _ => exact fun _ => hr.imp id fun hr => ⟨mark, hmark, hr⟩
  cases j with
  | createListing key req => exact hupTo .create ((createListing_upTo key req).map _)
  | updateListing key id req => exact hupTo .update ((updateListing_upTo key id req).map _)
  | _ => exact hother rfl

theorem Reaches.failed_leaves {worker : AppState} {listings : ListingsTable} {g : System}
    (h : Reaches worker listings g) {pid : Nat} {p : Process} (hp : g.procs[pid]? = some p)
    (hjob : p.job.writes = true) {e : Failure} (hr : p.prog.result = some (.error e)) :
    LeavesKey p.job (eventsOf pid g.history) := by
  have hanswer : ∀ ev ∈ eventsOf pid g.history, ∃ e,
      server.answer ev.reply.1 e ev.before = some (ev.reply.2, ev.after) := fun ev hev =>
    (Reachable.event (fun _ j _ => program_changedOnly worker j) h ev (List.mem_of_mem_filter hev)).2
  have hstill : ∀ ev ∈ eventsOf pid g.history, changes ev.reply = false → Traceless ev := by
    intro ev hev hno
    obtain ⟨e, ha⟩ := hanswer ev hev
    exact traceless_of_still ha hno
  have hchanged := Reachable.post (fun _ j _ => program_changedOnly worker j) h
    (List.mem_of_getElem? hp) hr hjob
  rw [Reachable.past_eq_events h hp] at hchanged
  rcases hchanged with hnone | ⟨reply, hrecorded, hone⟩
  · exact .inl fun ev hev => hstill ev hev (still_of_changesIn hnone ev hev)
  · obtain ⟨l, ev, l', hl, hreply, hothers⟩ := one_of_changesIn hone
    rw [hl] at hanswer hstill
    obtain ⟨e, ha⟩ := hanswer ev (by simp)
    refine .inr ⟨l, ev, l', hl, records_of_fresh ha (hreply ▸ hrecorded), fun ev' hev' => ?_⟩
    exact hstill ev' (by rcases List.mem_append.mp hev' with h | h <;> simp [h]) (hothers ev' hev')

/-- The reply to a job whose key is there. -/
inductive Refused : Job → Reply Server → Prop
  | create {key : Bytes} {req : CreateListingRequest} :
    Refused (.createListing key req) ⟨.insertCreateNonce req.nonce, false⟩
  | update {key : Bytes} {id : String} {req : UpdateListingRequest} :
    Refused (.updateListing key id req) ⟨.insertUpdateNonce (nonceKey id req.nonce), false⟩

/-- The key of the job is in its set. -/
def HasKey : Job → Shared → Prop
  | .createListing _ req, s => req.nonce ∈ s.createNonces
  | .updateListing _ id req, s => nonceKey id req.nonce ∈ s.updateNonces
  | _, _ => False

theorem hasKey_of_refused {j : Job} {r : Reply Server} (hrefused : Refused j r) {e : Choice}
    {s s' : Shared} (ha : server.answer r.1 e s = some (r.2, s')) : HasKey j s := by
  cases hrefused with
  | create =>
    simp only [server] at ha
    split at ha
    · assumption
    · exact absurd ha (by simp)
  | update =>
    simp only [server] at ha
    split at ha
    · assumption
    · exact absurd ha (by simp)

theorem hasKey_answer {j : Job} {c : Call} {e : Choice} {s s' : Shared} {a : c.Ans}
    (ha : server.answer c e s = some (a, s')) (hkey : HasKey j s') :
    HasKey j s ∨ Recorded j ⟨c, a⟩ := by
  have hsame : s'.createNonces = s.createNonces → s'.updateNonces = s.updateNonces →
      HasKey j s ∨ Recorded j ⟨c, a⟩ := by
    intro hcreate hupdate
    cases j <;> simp_all [HasKey]
  cases c with
  | insertCreateNonce nonce =>
    simp only [server] at ha
    split at ha
    · obtain ⟨_, rfl⟩ := Prod.mk.inj (Option.some.inj ha)
      exact .inl hkey
    · obtain ⟨rfl, rfl⟩ := Prod.mk.inj (Option.some.inj ha)
      cases j with
      | createListing key req =>
        rcases List.mem_cons.mp (show req.nonce ∈ nonce :: s.createNonces from hkey) with rfl | hold
        · exact .inr .create
        · exact .inl hold
      | _ => exact .inl hkey
  | insertUpdateNonce nonce =>
    simp only [server] at ha
    split at ha
    · obtain ⟨_, rfl⟩ := Prod.mk.inj (Option.some.inj ha)
      exact .inl hkey
    · obtain ⟨rfl, rfl⟩ := Prod.mk.inj (Option.some.inj ha)
      cases j with
      | updateListing key id req =>
        rcases List.mem_cons.mp (show nonceKey id req.nonce ∈ nonce :: s.updateNonces from hkey) with
          rfl | hold
        · exact .inr .update
        · exact .inl hold
      | _ => exact .inl hkey
  | restartApi =>
    obtain ⟨_, rfl⟩ := Prod.mk.inj (Option.some.inj ha)
    cases j <;> simp [HasKey] at hkey
  | _ =>
    simp only [server] at ha
    repeat' split at ha
    all_goals first
      | obtain ⟨_, rfl⟩ := Prod.mk.inj (Option.some.inj ha)
        exact hsame rfl rfl
      | cases ha

/-- A job is rejected as a replay only if an earlier one has recorded its key. -/
theorem Reaches.replayed {worker : AppState} {listings : ListingsTable} {g : System}
    (h : Reaches worker listings g) {l l' : List Effect} {ev : Effect} (hl : g.history = l ++ ev :: l')
    {j : Job} (hrefused : Refused j ev.reply) : ∃ ev' ∈ l, Recorded j ev'.reply := by
  obtain ⟨e, ha⟩ := (Reachable.event (fun _ j _ => program_changedOnly worker j) h ev (by simp [hl])).2
  obtain ⟨g₀, hg₀, rfl, hs₀, _⟩ := Reachable.upTo h hl
  have hknown := Reachable.shared_inv (R := fun s l => HasKey j s → ∃ ev' ∈ l, Recorded j ev'.reply)
    (fun hkey => ?_) ?_ hg₀
  · exact hknown (hs₀ ▸ hasKey_of_refused hrefused ha)
  · cases j <;> simp [HasKey, Shared.initial] at hkey
  · intro g pid j' past c e a s _ _ ha ih hkey
    rcases hasKey_answer ha hkey with hold | hnew
    · obtain ⟨ev', hev', hrecorded⟩ := ih hold
      exact ⟨ev', List.mem_append_left _ hev', hrecorded⟩
    · exact ⟨_, List.mem_append_right _ (List.mem_singleton_self _), hnew⟩

end Listings

/-! ## Both systems -/

/-- **A failed request leaves at most its own key.** Of the calls of a request to `create_order`,
`update_order`, `open_dispute`, `update_dispute`, `resolve_dispute`, `update_chat`, `create_listing` or
`update_listing` that fails, none has written a row, and none has changed a set but the one that may have
put the request's key into the set of its handler; and a request is rejected as a replay only if an earlier
call has put its key there. -/
theorem failed_requests_leave_the_key {D : Deployment} {allow : System → Job → Prop} {orders : OrdersTable}
    {g : System} {worker : AppState} {listings : ListingsTable} {gl : Listings.System}
    (h : D.Reaches allow orders g) (hl : Listings.Reaches worker listings gl) :
    ((∀ pid p r target e, g.procs[pid]? = some p → p.job = .request r →
        route r.method r.path = some target → target.writes = true →
        p.prog.result = some (.error e) → LeavesKey (target.replayKey r.body) (eventsOf pid g.history)) ∧
      ∀ l ev l' set key, g.history = l ++ ev :: l' → ev.reply = ⟨.insertNonce set key, false⟩ →
        ∃ ev' ∈ l, ev'.reply = recorded set key) ∧
    (∀ pid p e, gl.procs[pid]? = some p → p.job.writes = true → p.prog.result = some (.error e) →
        Listings.LeavesKey p.job (eventsOf pid gl.history)) ∧
      ∀ l ev l' j, gl.history = l ++ ev :: l' → Listings.Refused j ev.reply →
        ∃ ev' ∈ l, Listings.Recorded j ev'.reply := by
  refine ⟨⟨?_, ?_⟩, ?_, ?_⟩
  · intro pid p r target e hp hjob hroute htarget hr
    exact h.failed_leaves hp hjob hroute htarget hr
  · intro l ev l' set key hsplit hreply
    exact h.replayed hsplit hreply
  · intro pid p e hp hjob hr
    exact Listings.Reaches.failed_leaves hl hp hjob hr
  · intro l ev l' j hsplit hrefused
    exact Listings.Reaches.replayed hl hsplit hrefused

/-! ### A nonce used up -/

namespace Sample

/-- A chat message, under one login or another. -/
def message (l : Login) : Request := l.post (.sendMessage ⟨"AQID", "", "n1"⟩)

/-- Process `pid` has served the message under the login `l`, and has failed with `e`. -/
def failedWith (pid : Nat) (l : Login) (e : Failure) (g : System) : Bool :=
  g.procs[pid]?.any fun p => decide (p.job = .request (message l)) && decide (p.prog.result = some (.error e))

theorem failedWith_iff {pid : Nat} {l : Login} {e : Failure} {g : System}
    (h : failedWith pid l e g = true) :
    ∃ p, g.procs[pid]? = some p ∧ p.job = .request (message l) ∧ p.prog.result = some (.error e) := by
  obtain ⟨p, hp, hcheck⟩ := (Option.any_eq_true _ _).mp h
  simp only [Bool.and_eq_true, decide_eq_true_eq] at hcheck
  exact ⟨p, hp, hcheck⟩

/-- A call that has changed the nonces of the chat. -/
def chatNonceChanged (ev : Effect) : Bool := ev.after.nonces .chat ≠ ev.before.nonces .chat

/-- The database does not take the first message, which is sent again. -/
def retried : (deployment (loginTables [firstChat, secondChat]) none).Trace anyJob (orders [])
    fun g => failedWith 0 firstChat dbError g &&
      failedWith 1 secondChat (conflict "Chat nonce already used") g &&
      (eventsOf 0 g.history).any chatNonceChanged where
  labels := .spawn (.request (message firstChat)) ::
    (acts 0 5 ++ .act 0 { fault := true } :: .spawn (.request (message secondChat)) :: acts 1 5)
  allowed _ _ _ := trivial
  passes := by decide +kernel

theorem message_route (l : Login) (hpath : l.path = "/chat/" ++ orderId) :
    route (message l).method (message l).path = some (.updateChat orderId) := by
  change route .post l.path = _
  rw [hpath]
  decide +kernel

end Sample

open Sample Listings.ListingSample in
/-- The message that failed has left its key, and nothing else. -/
theorem failed_requests_leave_the_key_sample :
    ∃ g, (deployment (loginTables [firstChat, secondChat]) none).Reaches anyJob (orders []) g ∧
      LeavesKey (some (.chat, nonceKey orderId "n1")) (eventsOf 0 g.history) := by
  obtain ⟨g, hg, hcheck⟩ := retried.reaches
  obtain ⟨gl, hgl, _⟩ := run_stores
  simp only [Bool.and_eq_true] at hcheck
  obtain ⟨p, hp, hjob, hr⟩ := failedWith_iff hcheck.1.1
  exact ⟨g, hg, (failed_requests_leave_the_key hg hgl).1.1 0 p _ _ _ hp hjob (message_route firstChat rfl)
    rfl hr⟩

open Sample in
/-- **A message that the database did not take cannot be sent again.** The request has failed, has left
its key, and the same message under a new login is rejected as a replay. -/
theorem failed_request_replayed :
    ∃ g p p', (deployment (loginTables [firstChat, secondChat]) none).Reaches anyJob (orders []) g ∧
      g.procs[0]? = some p ∧ p.job = .request (message firstChat) ∧
      p.prog.result = some (.error dbError) ∧
      (∃ ev ∈ eventsOf 0 g.history, ev.after.nonces .chat ≠ ev.before.nonces .chat) ∧
      g.procs[1]? = some p' ∧ p'.job = .request (message secondChat) ∧
      p'.prog.result = some (.error (conflict "Chat nonce already used")) := by
  obtain ⟨g, hg, hcheck⟩ := retried.reaches
  simp only [Bool.and_eq_true, List.any_eq_true] at hcheck
  obtain ⟨⟨hfailed, hrejected⟩, ev, hev, hchanged⟩ := hcheck
  obtain ⟨p, hp, hjob, hr⟩ := failedWith_iff hfailed
  obtain ⟨p', hp', hjob', hr'⟩ := failedWith_iff hrejected
  exact ⟨g, p, p', hg, hp, hjob, hr, ⟨ev, hev, of_decide_eq_true hchanged⟩, hp', hjob', hr'⟩

end TorMarketplace
