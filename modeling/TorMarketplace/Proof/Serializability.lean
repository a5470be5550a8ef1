import TorMarketplace.Lib.Serial
import TorMarketplace.Proof.Conflicts
import TorMarketplace.Proof.ReadBack
import TorMarketplace.Proof.TransitionAuth

/-!
# Every request takes effect at one moment

The handlers make their statements one by one, with those of others in between, and there is no transaction
around them. Still a request that succeeds answers and writes as if it had had the orders table for itself
at the moment of one of its calls, and one that fails writes nothing (`requests_take_effect_at_once`). The
exception is `get_chat`, which reads twice.
-/

namespace TorMarketplace

open Encoding Interleave Interleave.Store Prog

/-! ## The orders table as a store -/

/-- The statements about orders, when none of them fails. -/
def ordersStore : Store Server OrdersTable where
  owns
    | .selectOrder _ => true
    | .selectOrders => true
    | .insertOrder _ => true
    | .updateOrders _ => true
    | _ => false
  serve
    | .selectOrder id, t =>
      match t.find id with
      | some o => some ((readRow o).map some, t)
      | none => some (some none, t)
    | .selectOrders, t => some (t.rows.mapM readRow, t)
    | .insertOrder i, t =>
      match t.insert i with
      | some t' => some (some (), t')
      | none => some (none, t)
    | .updateOrders u, t => some (some (t.rowsAffected u), t.update u)
    | _, _ => none

/-- The reply is no error of the database. -/
def answered : Reply Server → Bool
  | ⟨.selectOrder _, a⟩ => a.isSome
  | ⟨.selectOrders, a⟩ => a.isSome
  | ⟨.insertOrder _, a⟩ => a.isSome
  | ⟨.updateOrders _, a⟩ => a.isSome
  | _ => true

/-- The store gives the answers of the server. -/
theorem serve_of_answer {c : Call} {e : Choice} {s s' : Shared} {a : c.Ans}
    (ha : server.answer c e s = some (a, s')) (howns : ordersStore.owns c = true)
    (hanswered : answered ⟨c, a⟩ = true) : ordersStore.serve c s.orders = some (a, s'.orders) := by
  cases hfault : e.fault with
  | true =>
    cases c with
    | selectOrder id | selectOrders | insertOrder i | updateOrders u =>
      simp only [server, hfault, if_true] at ha
      obtain ⟨rfl, _⟩ := Prod.mk.inj (Option.some.inj ha)
      exact absurd hanswered (by simp [answered])
    | _ => exact absurd howns (by simp [ordersStore])
  | false =>
    cases c with
    | selectOrder id =>
      simp only [server, hfault, Bool.false_eq_true, if_false] at ha
      simp only [ordersStore]
      cases hfind : s.orders.find id with
      | none | some o =>
        rw [hfind] at ha
        obtain ⟨rfl, rfl⟩ := Prod.mk.inj (Option.some.inj ha)
        rfl
    | selectOrders =>
      simp only [server, hfault, Bool.false_eq_true, if_false] at ha
      obtain ⟨rfl, rfl⟩ := Prod.mk.inj (Option.some.inj ha)
      rfl
    | insertOrder i =>
      simp only [server, hfault, Bool.false_eq_true, if_false] at ha
      simp only [ordersStore]
      cases hinsert : s.orders.insert i with
      | none | some t =>
        rw [hinsert] at ha
        obtain ⟨rfl, rfl⟩ := Prod.mk.inj (Option.some.inj ha)
        rfl
    | updateOrders u =>
      simp only [server, hfault, Bool.false_eq_true, if_false] at ha
      obtain ⟨rfl, rfl⟩ := Prod.mk.inj (Option.some.inj ha)
      rfl
    | _ => exact absurd howns (by simp [ordersStore])

/-- Other calls leave the table alone. -/
theorem orders_of_answer {c : Call} {e : Choice} {s s' : Shared} {a : c.Ans}
    (ha : server.answer c e s = some (a, s')) (hother : ordersStore.owns c = false) :
    s'.orders = s.orders := by
  cases c with
  | selectOrder | selectOrders | insertOrder | updateOrders => exact absurd hother (by simp [ordersStore])
  | _ =>
    simp only [server] at ha
    repeat' split at ha
    all_goals first
      | obtain ⟨_, rfl⟩ := Prod.mk.inj (Option.some.inj ha)
        rfl
      | cases ha

/-! ## What the handlers do with the table -/

/-- The statements of a request that has succeeded: at most one, or a read and a write that names the
version which was read. -/
inductive Transacted : List (Reply Server) → Prop
  | none : Transacted []
  | one {r : Reply Server} (howns : ordersStore.owns r.1 = true) (hanswered : answered r = true) :
      Transacted [r]
  | checked {row : Order} {u : UpdateOrders} {n : Nat} (hguard : u.GuardedBy row) (hn : n ≠ 0) :
      Transacted [⟨.selectOrder row.id, some (some row)⟩, ⟨.updateOrders u, some n⟩]

/-- After the statements `l`, a program that succeeds has made a transaction. -/
abbrev Transacts {α : Type} (l : List (Reply Server)) (x : Program α) : Prop :=
  ordersStore.Ends server.May Transacted l x

section Programs

variable {α : Type}

/-- The query for a row, and what is made of it. -/
theorem transacts_select {id : Bytes} {e : Failure} {f : Order → Program α}
    (hf : ∀ row, row.id = id → Transacts [⟨.selectOrder row.id, some (some row)⟩] (f row)) :
    Transacts [] (exec (.selectOrder id) >>= fun current => orFail current dbError >>= fun current =>
      orFail current e >>= f) := by
  refine ends_own rfl fun current hmay => ends_orFail fun found hfound =>
    ends_orFail fun row hrow => ?_
  subst hfound hrow
  obtain ⟨rfl, _⟩ := may_selectOrder hmay
  exact hf row rfl

/-- The conditional write that ends a handler. -/
theorem transacts_write {row : Order} {u : UpdateOrders} {resp : α} (hguard : u.GuardedBy row) :
    Transacts [⟨.selectOrder row.id, some (some row)⟩] (exec (.updateOrders u) >>= fun affected =>
      orFail affected dbError >>= fun affected => ensure (affected ≠ 0) modified >>= fun _ => pure resp) := by
  refine ends_own rfl fun affected _ => ends_orFail fun n hn => ?_
  subst hn
  cases n with
  | zero => exact ends_fail
  | succ n => exact ends_pure (.checked hguard n.succ_ne_zero)

end Programs

/-! ## The handlers -/

theorem createOrder_transacts (st : AppState) (req : CreateOrderRequest) :
    Transacts [] (createOrder st req) :=
  ends_orFail fun _ _ => ends_ensure <| ends_ensure <|
    ends_other rfl fun _ => ends_ensure <| ends_other rfl fun _ =>
    ends_other rfl fun _ => ends_own rfl fun done _ => ends_orFail fun _ hdone => by
      subst hdone
      exact ends_pure (.one rfl rfl)

theorem updateOrder_transacts (st : AppState) (auth : Authed) (id : String) (req : UpdateOrderRequest) :
    Transacts [] (updateOrder st auth id req) :=
  ends_orFail fun _ _ => ends_orFail fun _ _ => ends_ensure <| ends_ensure <|
    ends_other rfl fun _ => ends_ensure <| transacts_select fun _ hid =>
    ends_orFail fun _ _ => ends_orFail fun _ _ => ends_ensure <| ends_ensure <|
    transacts_write ⟨rfl, hid.symm, rfl⟩

theorem getOrder_transacts (id : String) : Transacts [] (getOrder id) :=
  ends_orFail fun _ _ => transacts_select fun _ _ => ends_pure (.one rfl rfl)

theorem openDispute_transacts (req : OpenDisputeRequest) : Transacts [] (openDispute req) :=
  ends_orFail fun _ _ => ends_orFail fun _ _ => ends_ensure <| ends_other rfl fun _ =>
    ends_ensure <| ends_other rfl fun _ => transacts_select fun _ hid =>
    transacts_write ⟨rfl, hid.symm, rfl⟩

theorem getDispute_transacts (id : String) : Transacts [] (getDispute id) :=
  ends_orFail fun _ _ => transacts_select fun _ _ => ends_ensure <|
    ends_pure (.one rfl rfl)

theorem updateDispute_transacts (id : String) (req : UpdateDisputeRequest) :
    Transacts [] (updateDispute id req) :=
  ends_orFail fun _ _ => ends_orFail fun _ _ => ends_ensure <| ends_other rfl fun _ =>
    ends_ensure <| transacts_select fun _ hid => transacts_write ⟨rfl, hid.symm, rfl⟩

/-- The check of an admin token makes no statement. -/
theorem transacts_token {α : Type} {P : Primitives} {kp : AdminKeypair} {domain actionId : String}
    {t : AdminToken} {f : TokenFields → Program α} (hf : ∀ t, Transacts [] (f t)) :
    Transacts [] (decodeToken t >>= fun t => checkToken P kp domain actionId t >>= fun _ => f t) := by
  simp only [decodeToken, checkToken, bind_bind]
  exact ends_orFail fun _ _ => ends_orFail fun _ _ => ends_orFail fun _ _ =>
    ends_orFail fun _ _ => ends_orFail fun _ _ => ends_ensure <| ends_ensure <|
    ends_ensure <| ends_other rfl fun _ => ends_ensure (hf _)

theorem resolveDispute_transacts (st : AppState) (id : String) (req : ResolveDisputeRequest) :
    Transacts [] (resolveDispute st id req) :=
  ends_orFail fun _ _ => transacts_token fun _ => ends_other rfl fun _ => ends_ensure <|
    ends_orFail fun _ _ => ends_orFail fun _ _ => ends_ensure <|
    transacts_select fun _ hid => transacts_write ⟨rfl, hid.symm, rfl⟩

theorem updateChat_transacts (orderId : String) (req : SendMessageRequest) :
    Transacts [] (updateChat orderId req) :=
  ends_orFail fun _ _ => ends_orFail fun _ _ => ends_ensure <|
    transacts_select fun _ hid => ends_other rfl fun _ => ends_ensure <|
    transacts_write ⟨rfl, hid.symm, rfl⟩

theorem blindSign_transacts (st : AppState) (req : BlindSignRequest) : Transacts [] (blindSign st req) :=
  ends_orFail fun _ _ => ends_orFail fun _ _ => ends_ensure (ends_pure .none)

theorem getAdminPubkey_transacts (st : AppState) : Transacts [] (getAdminPubkey st) :=
  ends_orFail fun _ _ => ends_pure .none

theorem rotateKek_transacts (st : AppState) (req : RotateKekRequest) : Transacts [] (rotateKek st req) :=
  ends_orFail fun _ _ => transacts_token fun _ => ends_other rfl fun _ =>
    ends_other rfl fun _ => ends_orFail fun _ _ => ends_pure .none

theorem challenge_transacts (req : ChallengeRequest) : Transacts [] (challenge req) := by
  simp only [challenge, cleanupChallenges, bind_bind]
  exact ends_orFail fun _ _ => ends_ensure <| ends_other rfl fun _ =>
    ends_other rfl fun _ => ends_other rfl fun _ => ends_other rfl fun _ =>
    ends_other rfl fun _ => ends_other rfl fun _ => ends_pure .none

theorem verify_transacts (st : AppState) (req : VerifyRequest) : Transacts [] (verify st req) := by
  simp only [verify, cleanupChallenges, bind_bind]
  exact ends_orFail fun _ _ => ends_ensure <| ends_orFail fun _ _ =>
    ends_other rfl fun _ => ends_other rfl fun _ => ends_other rfl fun _ =>
    ends_orFail fun _ _ => ends_ensure <| ends_ensure <|
    ends_ensure (ends_pure .none)

theorem handle_transacts (st : AppState) (auth : Option Authed) {target : Route} (body : Body)
    (htarget : ∀ id, target ≠ .getChat id) : Transacts [] (handle st auth target body) := by
  unfold handle
  split
  · exact ends_orFail fun _ _ => (createOrder_transacts st _).map _
  · exact ends_orFail fun _ _ => (getOrder_transacts _).map _
  · exact ends_orFail fun auth _ => (updateOrder_transacts st auth _ _).map _
  · exact ends_orFail fun _ _ => (openDispute_transacts _).map _
  · exact ends_orFail fun _ _ => (getDispute_transacts _).map _
  · exact ends_orFail fun _ _ => (updateDispute_transacts _ _).map _
  · exact (resolveDispute_transacts st _ _).map _
  · exact absurd rfl (htarget _)
  · exact ends_orFail fun _ _ => (updateChat_transacts _ _).map _
  · exact (blindSign_transacts st _).map _
  · exact (getAdminPubkey_transacts st).map _
  · exact (rotateKek_transacts st _).map _
  · exact (challenge_transacts _).map _
  · exact (verify_transacts st _).map _
  · exact ends_fail

theorem handleRequest_transacts (st : AppState) {r : Request}
    (hroute : ∀ id, route r.method r.path ≠ some (.getChat id)) : Transacts [] (handleRequest st r) := by
  have hrest : ∀ auth, Transacts [] (ask .layersAdmit >>= fun admitted => ensure admitted .rejected >>=
      fun _ => orFail (route r.method r.path) .rejected >>= fun target => handle st auth target r.body) :=
    fun auth => ends_other rfl fun _ => ends_ensure <| ends_orFail fun target htarget =>
      handle_transacts st auth r.body fun id heq => hroute id (heq ▸ htarget)
  unfold handleRequest statelessAuthMiddleware
  split
  · exact hrest none
  · simp only [bind_bind]
    exact ends_orFail fun _ _ => ends_orFail fun _ _ => ends_orFail fun _ _ =>
      ends_orFail fun _ _ => ends_orFail fun _ _ => ends_orFail fun _ _ =>
      ends_ensure <| ends_orFail fun _ _ => ends_orFail fun _ _ =>
      ends_orFail fun _ _ => ends_orFail fun _ _ => ends_other rfl fun _ =>
      ends_ensure <| ends_ensure <| ends_ensure <| ends_other rfl fun _ =>
      ends_ensure (hrest _)

/-! ## Runs -/

section Reaches

variable {D : Deployment} {allow : System → Job → Prop} {orders : OrdersTable} {g : System}

/-- Alone with the orders table as it is before the call `ev`, and with the other answers that it has had,
the request has the response `resp`, and leaves the table as it is after the call. -/
def TakesEffectAt (D : Deployment) (p : Process) (r : Request) (resp : Response) (ev : Effect) : Prop :=
  ordersStore.alone (handleRequest D.api r) (ordersStore.others p.past) ev.before.orders =
    some (.ok resp, ev.after.orders)

theorem handleRequest_admitted (st : AppState) (r : Request) :
    Needs server.May ⟨.ask .layersAdmit, true⟩ (handleRequest st r) := by
  unfold handleRequest
  refine needs_bind fun auth => needs_call fun admitted hadmitted => ?_
  cases admitted with
  | false => exact needs_fail
  | true => exact absurd rfl hadmitted

variable {p : Process} {r : Request} {resp : Response} {ev : Effect}

theorem Deployment.Reaches.ranAlone (h : D.Reaches allow orders g) (hp : p ∈ g.procs)
    (hjob : p.job = .request r) (hres : p.prog.result = some (.ok resp)) {t t' : OrdersTable}
    (hserves : ordersStore.Serves t (ordersStore.own p.past) t') :
    ordersStore.alone (handleRequest D.api r) (ordersStore.others p.past) t = some (.ok resp, t') := by
  have halone := Reachable.alone ordersStore h hp hres hserves
  rwa [hjob] at halone

theorem Deployment.Reaches.transaction (h : D.Reaches allow orders g) (hp : p ∈ g.procs)
    (hjob : p.job = .request r) (hres : p.prog.result = some (.ok resp))
    (hroute : ∀ id, route r.method r.path ≠ some (.getChat id)) : Transacted (ordersStore.own p.past) := by
  refine h.post_request (Q := fun r past result => (∀ id, route r.method r.path ≠ some (.getChat id)) →
    OnOk (fun past _ => Transacted (ordersStore.own past)) past result) (fun r => ?_) hp hjob hres hroute
  by_cases hr : ∀ id, route r.method r.path ≠ some (.getChat id)
  · exact spec_mono (fun _ _ h => h) (fun _ _ h _ => h) (handleRequest_transacts D.api hr [] rfl)
  · exact spec_of_forall (fun _ _ => trivial) fun _ _ hno => absurd hno hr

/-- A request takes effect at the last of its statements. -/
theorem Deployment.Reaches.takesEffectAt (h : D.Reaches allow orders g)
    (hp : g.procs[ev.pid]? = some p) (hjob : p.job = .request r) (hres : p.prog.result = some (.ok resp))
    (hroute : ∀ id, route r.method r.path ≠ some (.getChat id)) (hev : ev ∈ g.history)
    (hlast : (ordersStore.own p.past).getLast? = some ev.reply) : TakesEffectAt D p r resp ev := by
  refine h.ranAlone (List.mem_of_getElem? hp) hjob hres ?_
  obtain ⟨e, ha⟩ := (h.event hev).2
  have htransaction := h.transaction (List.mem_of_getElem? hp) hjob hres hroute
  generalize hown : ordersStore.own p.past = l at htransaction hlast
  cases htransaction with
  | none => exact absurd hlast (by simp)
  | @one reply howns hanswered =>
    obtain rfl : reply = ev.reply := by simpa using hlast
    exact ⟨_, serve_of_answer ha howns hanswered, rfl⟩
  | @checked row u n hguard hn =>
    have hreply : ev.reply = ⟨.updateOrders u, some n⟩ := by simpa [eq_comm] using hlast
    have hread : ⟨.selectOrder row.id, some (some row)⟩ ∈ p.past :=
      List.mem_of_mem_filter (show _ ∈ ordersStore.own p.past by simp [hown])
    -- what has been read is still there
    obtain ⟨hfind, _⟩ := h.updated hp hread hev hreply hn hguard.2.1 hguard.2.2
    obtain ⟨read, hreadMem, _, hreadReply⟩ := Reachable.event_of_past h hp hread
    obtain ⟨e', ha'⟩ := (h.event hreadMem).2
    rw [hreadReply] at ha'
    obtain ⟨_, _, hrange⟩ := answer_selectOrder ha'
    rw [hreply] at ha
    refine ⟨ev.before.orders, ?_, _, serve_of_answer ha rfl rfl, rfl⟩
    simp only [ordersStore, hfind, readRow, if_pos hrange, Option.map_some]

/-- The reply reports a new row, or an update that took effect. -/
def writes : Reply Server → Bool
  | ⟨.insertOrder _, done⟩ => done.isSome
  | ⟨.updateOrders _, affected⟩ => affected.any (· ≠ 0)
  | _ => false

theorem owns_of_writes {r : Reply Server} (h : writes r = true) : ordersStore.owns r.1 = true := by
  unfold writes at h
  split at h
  · rfl
  · rfl
  · exact absurd h (by simp)

theorem writes_of_changed {e : Choice} (ha : server.answer ev.reply.1 e ev.before = some (ev.reply.2, ev.after))
    (hchanged : ev.after.orders ≠ ev.before.orders) : writes ev.reply = true := by
  obtain ⟨pid, j, past, ⟨c, a⟩, s, s'⟩ := ev
  replace ha : server.answer c e s = some (a, s') := ha
  by_contra hno
  refine hchanged ?_
  cases c with
  | insertOrder i =>
    rcases answer_insertOrder ha with ⟨_, rfl⟩ | ⟨_, rfl, _⟩
    · rfl
    · exact absurd rfl hno
  | updateOrders u =>
    rcases answer_updateOrders ha with ⟨_, rfl⟩ | ⟨rfl, rfl⟩
    · rfl
    · exact OrdersTable.update_of_none (by simpa [writes] using hno)
  | selectOrder id | selectOrders =>
    simp only [server] at ha
    repeat' split at ha
    all_goals exact (Prod.mk.inj (Option.some.inj ha)).2 ▸ rfl
  | _ => exact orders_of_answer ha rfl

/-- A request that writes goes to a handler that writes. -/
theorem Deployment.Reaches.routed (h : D.Reaches allow orders g) (hev : ev ∈ g.history)
    (hjob : ev.job = .request r) (hwrites : writes ev.reply = true) :
    ∃ target, route r.method r.path = some target ∧ target.writes = true := by
  have hcall := h.statement hev
  rw [hjob] at hcall
  obtain ⟨pid, j, past, ⟨c, a⟩, s, s'⟩ := ev
  cases c with
  | insertOrder i =>
    obtain ⟨target, hroute, rfl, _⟩ := hcall
    exact ⟨_, hroute, rfl⟩
  | updateOrders u =>
    obtain ⟨target, hroute, row, blob, _, _, _, hupdate⟩ := hcall
    refine ⟨target, hroute, ?_⟩
    cases target <;> first | rfl | exact absurd hupdate (by simp [Route.update])
  | _ => exact absurd hwrites (by simp [writes])

/-- A request that fails writes nothing. -/
theorem Deployment.Reaches.failed_unwritten (h : D.Reaches allow orders g)
    (hp : g.procs[ev.pid]? = some p) (hjob : p.job = .request r) {e : Failure}
    (hres : p.prog.result = some (.error e)) (hev : ev ∈ g.history)
    {target : Route} (hroute : route r.method r.path = some target) (htarget : target.writes = true) :
    ev.after.orders = ev.before.orders := by
  have hmem : ev ∈ eventsOf ev.pid g.history := List.mem_filter.mpr ⟨hev, decide_eq_true rfl⟩
  rcases h.failed_leaves hp hjob hroute htarget hres with hall | ⟨set, k, l₁, ev₁, l₂, _, hl, hrecords, hrest⟩
  · rw [(hall ev hmem).same]
  · rw [hl] at hmem
    rcases List.mem_append.mp hmem with hmem | hmem
    · rw [(hrest ev (List.mem_append_left _ hmem)).same]
    · rcases List.mem_cons.mp hmem with rfl | hmem
      · rw [hrecords.same]
      · rw [(hrest ev (List.mem_append_right _ hmem)).same]

/-- **Every request takes effect at one moment.** In every run of all handlers and passes:
* a request that succeeds answers and leaves the table as if it had run alone at the moment of one of its
  calls, unless it is one of `get_chat`;
* a request that has ended has changed the table only at such a moment, and not if it has failed. -/
theorem requests_take_effect_at_once (h : D.Reaches allow orders g) :
    (∀ pid p r resp, g.procs[pid]? = some p → p.job = .request r → p.prog.result = some (.ok resp) →
      (∀ id, route r.method r.path ≠ some (.getChat id)) →
      ∃ ev ∈ g.history, ev.pid = pid ∧ TakesEffectAt D p r resp ev) ∧
    ∀ ev ∈ g.history, ev.after.orders ≠ ev.before.orders → ∀ p r result, g.procs[ev.pid]? = some p →
      p.job = .request r → p.prog.result = some result →
      ∃ resp, result = .ok resp ∧ TakesEffectAt D p r resp ev := by
  refine ⟨fun pid p r resp hp hjob hres hroute => ?_, fun ev hev hchanged p r result hp hjob hres => ?_⟩
  · cases hlast : (ordersStore.own p.past).getLast? with
    | some reply =>
      have hreply : reply ∈ p.past := List.mem_of_mem_filter (List.mem_of_getLast? hlast)
      obtain ⟨ev, hev, rfl, rfl⟩ := Reachable.event_of_past h hp hreply
      exact ⟨ev, hev, rfl, h.takesEffectAt hp hjob hres hroute hev hlast⟩
    | none =>
      -- without a statement, any call will do
      have hadmitted : ⟨.ask .layersAdmit, true⟩ ∈ p.past :=
        h.post_request (fun r => handleRequest_admitted D.api r []) (List.mem_of_getElem? hp) hjob hres
      obtain ⟨ev, hev, hpid, hreply⟩ := Reachable.event_of_past h hp hadmitted
      obtain ⟨e, ha⟩ := (h.event hev).2
      refine ⟨ev, hev, hpid, h.ranAlone (List.mem_of_getElem? hp) hjob hres ?_⟩
      rw [List.getLast?_eq_none_iff.mp hlast]
      exact orders_of_answer ha (by rw [hreply]; rfl)
  · obtain ⟨e, ha⟩ := (h.event hev).2
    have hwrites := writes_of_changed ha hchanged
    obtain ⟨p', hp', hjob'⟩ := Reachable.event_job h ev hev
    obtain rfl := Option.some.inj (hp.symm.trans hp')
    obtain ⟨target, hroute, htarget⟩ := h.routed hev (hjob'.symm.trans hjob) hwrites
    cases result with
    | error e => exact absurd (h.failed_unwritten hp hjob hres hev hroute htarget) hchanged
    | ok resp =>
      have hnoChat : ∀ id, route r.method r.path ≠ some (.getChat id) := by
        rintro id heq
        obtain rfl := Option.some.inj (hroute.symm.trans heq)
        exact absurd htarget (by simp [Route.writes])
      refine ⟨resp, rfl, h.takesEffectAt hp hjob hres hnoChat hev ?_⟩
      have hmem : ev.reply ∈ ordersStore.own p.past := by
        rw [Reachable.past_eq h hp]
        refine List.mem_filter.mpr ⟨?_, owns_of_writes hwrites⟩
        exact List.mem_map_of_mem (List.mem_filter.mpr ⟨hev, decide_eq_true rfl⟩)
      have htransaction := h.transaction (List.mem_of_getElem? hp) hjob hres hnoChat
      generalize ordersStore.own p.past = l at htransaction hmem
      cases htransaction with
      | none => exact absurd hmem List.not_mem_nil
      | one howns hanswered => rw [List.mem_singleton.mp hmem, List.getLast?_singleton]
      | checked hguard hn =>
        rcases List.mem_cons.mp hmem with hread | hmem
        · rw [hread] at hwrites
          exact absurd hwrites (by simp [writes])
        · rw [List.mem_singleton.mp hmem]
          rfl

end Reaches

open Sample in
/-- An update takes effect at one of its calls. -/
theorem requests_take_effect_at_once_sample :
    ∃ g, (updateDeployment update freshTransition).Reaches anyJob (orders []) g ∧
      ∃ p resp, Succeeded g 0 p (update.post (.updateOrder freshTransition.request)) ∧
        ∃ ev ∈ g.history, TakesEffectAt (updateDeployment update freshTransition) p
          (update.post (.updateOrder freshTransition.request)) resp ev := by
  obtain ⟨g, hg, hok⟩ := updateTrace.reaches
  obtain ⟨p, hsucceeded⟩ := succeeded_iff.mp hok
  obtain ⟨resp, hres⟩ := hsucceeded.ok
  have hroute : ∀ id, route .post update.path ≠ some (.getChat id) := by
    have hupdate : route .post update.path = some (.updateOrder orderId) := by decide +kernel
    simp [hupdate]
  obtain ⟨ev, hev, _, htakes⟩ := (requests_take_effect_at_once hg).1 0 p _ resp hsucceeded.proc
    hsucceeded.job hres hroute
  exact ⟨g, hg, p, resp, hsucceeded, ev, hev, htakes⟩

end TorMarketplace
