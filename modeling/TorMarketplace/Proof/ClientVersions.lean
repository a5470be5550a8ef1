import TorMarketplace.Frontend.Orders
import TorMarketplace.Proof.Versions

/-!
# Which version the client signs

`getOrder` stores the version that the server answers only when it takes the order for funded; else
the version stays in the object that it has read. So the version that the next `updateOrder` signs is
the server's if and only if `getOrder` has found it stored, or has stored it (`signs_current_iff`).

The server's part is `Later`: what a later configuration keeps of the rows, and that whatever a process
is answered from then on is no older than the rows are now.
-/

namespace TorMarketplace.Api

open Encoding Interleave Js Prog Versioned

variable {D : Deployment} {orders : OrdersTable} {g g' g'' : System}

/-! ## Later configurations of the server -/

theorem reaches_of_step (h : D.Reaches anyJob orders g) (hstep : ServerStep D g g') :
    D.Reaches anyJob orders g' := by
  cases hstep with
  | spawn j => exact .spawn j h trivial
  | act pid e hact => exact .act pid e h hact

/-- A reply that is no older than the state: a row that it reports is no older than the row is there,
and a row that it reports as inserted is not there. -/
structure Fresh (s : Shared) (r : Reply Server) : Prop where
  reads : ∀ o, Reads r o → ∀ o₀, s.orders.find o.id = some o₀ → o₀.version ≤ o.version
  inserts : ∀ i, r = ⟨.insertOrder i, some ()⟩ → s.orders.find i.id = none

theorem fresh_of_answer {c : Call} {e : Choice} {s s' : Shared} {a : c.Ans}
    (h : server.answer c e s = some (a, s')) : Fresh s ⟨c, a⟩ where
  reads o hr o₀ ho₀ := by
    obtain ⟨_, hfind, _⟩ := answer_reads h hr
    obtain rfl := Option.some.inj (hfind.symm.trans ho₀)
    exact le_rfl
  inserts i hi := by
    cases hi
    rcases answer_insertOrder h with ⟨hnone, _⟩ | ⟨t, _, ht, _⟩
    · exact absurd hnone (by simp)
    · exact (OrdersTable.find_insert ht i.id).1

/-- What a later configuration keeps: the rows, in this version or a later one; the processes, each
with its job; and of what a process has been answered, all that is not fresh it had been answered
before. -/
structure Later (g g' : System) : Prop where
  known : ∀ id o, g.shared.orders.find id = some o →
    Known Order.version g'.shared.orders.find id o
  procs : ∀ {pid : Nat} {p : Process}, g.procs[pid]? = some p →
    ∃ p', g'.procs[pid]? = some p' ∧ p'.job = p.job ∧ (p.prog.result.isSome → p' = p)
  past : ∀ {pid : Nat} {p' : Process}, g'.procs[pid]? = some p' → ∀ r ∈ p'.past,
    (∃ p, g.procs[pid]? = some p ∧ r ∈ p.past) ∨ Fresh g.shared r

theorem Later.refl (g : System) : Later g g where
  known _ _ h := Known.of_some h
  procs h := ⟨_, h, rfl, fun _ => rfl⟩
  past h _ hr := .inl ⟨_, h, hr⟩

theorem Later.trans (h : Later g g') (h' : Later g' g'') : Later g g'' where
  known id o ho := by
    obtain ⟨o', ho', hcase⟩ := h.known id o ho
    obtain ⟨o'', ho'', hcase'⟩ := h'.known id o' ho'
    refine ⟨o'', ho'', ?_⟩
    rcases hcase with rfl | hlt
    · exact hcase'
    · rcases hcase' with rfl | hlt'
      · exact .inr hlt
      · exact .inr (hlt.trans hlt')
  procs hp := by
    obtain ⟨p', hp', hjob, hdone⟩ := h.procs hp
    obtain ⟨p'', hp'', hjob', hdone'⟩ := h'.procs hp'
    refine ⟨p'', hp'', hjob'.trans hjob, fun hr => ?_⟩
    obtain rfl := hdone hr
    exact hdone' hr
  past hp r hr := by
    rcases h'.past hp r hr with ⟨p', hp', hr'⟩ | hfresh
    · exact h.past hp' r hr'
    · refine .inr ⟨fun o ho o₀ ho₀ => ?_, fun i hi => ?_⟩
      · obtain ⟨o₁, ho₁, hcase⟩ := h.known o.id o₀ ho₀
        have hle := hfresh.reads o ho o₁ ho₁
        rcases hcase with rfl | hlt <;> omega
      · have hnone := hfresh.inserts i hi
        cases hfind : g.shared.orders.find i.id with
        | none => rfl
        | some o₀ =>
          obtain ⟨o₁, ho₁, _⟩ := h.known i.id o₀ hfind
          exact absurd (ho₁.symm.trans hnone) (by simp)

/-- A process stays, with its job, and as it is once it has ended. -/
theorem procs_of_step (hstep : ServerStep D g g') {pid : Nat} {p : Process}
    (hp : g.procs[pid]? = some p) :
    ∃ p', g'.procs[pid]? = some p' ∧ p'.job = p.job ∧ (p.prog.result.isSome → p' = p) := by
  cases hstep with
  | spawn j =>
    have hlt := (List.getElem?_eq_some_iff.mp hp).1
    exact ⟨p, by rw [List.getElem?_append_left hlt]; exact hp, rfl, fun _ => rfl⟩
  | act pid' e hact =>
    obtain ⟨j, past, c, k, a, s, hp', _, rfl⟩ := act_cases hact
    by_cases hpid : pid' = pid
    · subst hpid
      obtain rfl := Option.some.inj (hp'.symm.trans hp)
      exact ⟨_, List.getElem?_set_self (List.getElem?_eq_some_iff.mp hp).1, rfl,
        fun hr => absurd hr (by simp [result])⟩
    · exact ⟨p, (List.getElem?_set_ne hpid).trans hp, rfl, fun _ => rfl⟩

theorem later_spawn (g : System) (j : Job) :
    Later g { g with procs := g.procs ++ [⟨j, [], D.program j⟩] } where
  known _ _ h := Known.of_some h
  procs hp := procs_of_step (ServerStep.spawn (D := D) g j) hp
  past {pid p} hp r hr := by
    by_cases hlt : pid < g.procs.length
    · rw [List.getElem?_append_left hlt] at hp
      exact .inl ⟨p, hp, hr⟩
    · rw [List.getElem?_append_right (by omega)] at hp
      obtain rfl := List.mem_singleton.mp (List.mem_of_getElem? hp)
      exact absurd hr List.not_mem_nil

theorem later_of_step (h : D.Reaches anyJob orders g) (hstep : ServerStep D g g') : Later g g' := by
  cases hstep with
  | spawn j => exact later_spawn g j
  | act pid e hact =>
    obtain ⟨j, past, c, k, a, s, hp, ha, rfl⟩ := act_cases hact
    have hlt := (List.getElem?_eq_some_iff.mp hp).1
    have hcall : CallSpec D j past c :=
      (Reachable.spec (fun _ j _ => program_spec D j) h _ (List.mem_of_getElem? hp)).1
    refine ⟨fun id o ho => (hcall.step ha).known (Known.of_some ho),
      fun hp' => procs_of_step (ServerStep.act (D := D) pid e hact) hp', ?_⟩
    · intro pid' p' hp' r hr
      by_cases hpid : pid = pid'
      · subst hpid
        rw [List.getElem?_set_self hlt] at hp'
        obtain rfl := Option.some.inj hp'
        rcases List.mem_append.mp hr with hr | hr
        · exact .inl ⟨_, hp, hr⟩
        · obtain rfl := List.mem_singleton.mp hr
          exact .inr (fresh_of_answer ha)
      · rw [List.getElem?_set_ne hpid] at hp'
        exact .inl ⟨p', hp', hr⟩

/-- The version of a row. -/
def rowVersion (g : System) (id : Bytes) : Option Int := (g.shared.orders.find id).map Order.version

/-- Between two configurations with one version of a row there is no other. -/
theorem Later.between (h : Later g g') (h' : Later g' g'') {id : Bytes} {v : Int}
    (hv : rowVersion g id = some v) (hv' : rowVersion g'' id = some v) :
    rowVersion g' id = some v := by
  obtain ⟨o, ho, rfl⟩ := Option.map_eq_some_iff.mp hv
  obtain ⟨o', ho', hcase⟩ := h.known id o ho
  obtain ⟨o'', ho'', hver⟩ := Option.map_eq_some_iff.mp hv'
  have hle := (h'.known id o' ho').le ho''
  refine Option.map_eq_some_iff.mpr ⟨o', ho', ?_⟩
  rcases hcase with rfl | hlt
  · rfl
  · omega

/-! ## Paths -/

theorem percentDecode_plain {l : Bytes} (h : 37 ∉ l) : percentDecode l = l := by
  induction l with
  | nil => rfl
  | cons b l ih =>
    rw [List.mem_cons, not_or] at h
    rw [percentDecode, ih h.2]
    rintro _ _ _ hb _
    exact h.1 hb.symm

/-- The id of an order, in a path, is itself. -/
theorem pathParam_hexEncode {b : Bytes} {id : String} (h : pathParam (hexEncode b) = some id) :
    id = hexEncode b := by
  unfold pathParam at h
  split at h
  · exact absurd h (by simp)
  · have hplain : (37 : UInt8) ∉ utf8 (hexEncode b) := by
      rw [utf8_hexEncode, List.mem_flatMap]
      rintro ⟨x, _, hx⟩
      have hall : ∀ x : UInt8, (37 : UInt8) ∉ hexPair x := forall_byte (by decide +kernel)
      exact hall x hx
    rw [percentDecode_plain hplain, ofUtf8_utf8] at h
    exact (Option.some.inj h).symm

theorem pathSegments_hexEncode (b : Bytes) :
    pathSegments ("/orders/" ++ hexEncode b) = ["", "orders", hexEncode b] ∧
      pathSegments ("/orders/" ++ hexEncode b ++ "/update") =
        ["", "orders", hexEncode b, "update"] := by
  have hno : ∀ c ∈ (hexEncode b).toList, decide (c = '/') = false := fun c hc =>
    decide_eq_false fun h => not_mem_hexEncode (by decide) b (h ▸ hc)
  have horders : ∀ rest, splitOn (fun c => decide (c = '/')) ("/orders/".toList ++ rest) =
      [] :: "orders".toList :: splitOn (fun c => decide (c = '/')) rest := by
    intro rest
    have hfirst := splitOn_cons (p := fun c => decide (c = '/')) (l := []) (by simp) (c := '/')
      (by simp) ("orders".toList ++ '/' :: rest)
    rw [splitOn_cons (p := fun c => decide (c = '/')) (l := "orders".toList) (by simp) (c := '/')
      (by simp) rest] at hfirst
    exact hfirst
  constructor
  · rw [pathSegments, String.toList_append, horders, splitOn_single hno]
    simp
  · have hupdate := splitOn_cons hno (c := '/') (by simp) "update".toList
    have hrest : splitOn (fun c => decide (c = '/')) "update".toList = ["update".toList] :=
      splitOn_single (by simp)
    rw [hrest] at hupdate
    rw [pathSegments, String.append_assoc, String.toList_append, horders, String.toList_append]
    have hslash : "/update".toList = '/' :: "update".toList := by decide
    rw [hslash, hupdate]
    simp

theorem route_getOrder (b : Bytes) {target : Route}
    (h : route .get ("/orders/" ++ hexEncode b) = some target) :
    target = .getOrder (hexEncode b) := by
  unfold route at h
  rw [(pathSegments_hexEncode b).1] at h
  obtain ⟨id, hid, rfl⟩ := Option.map_eq_some_iff.mp h
  rw [pathParam_hexEncode hid]

theorem route_updateOrder (b : Bytes) {target : Route}
    (h : route .post ("/orders/" ++ hexEncode b ++ "/update") = some target) :
    target = .updateOrder (hexEncode b) := by
  unfold route at h
  rw [(pathSegments_hexEncode b).2] at h
  obtain ⟨id, hid, rfl⟩ := Option.map_eq_some_iff.mp h
  rw [pathParam_hexEncode hid]

theorem route_createOrder : route .post "/orders" = some .createOrder := by decide +kernel

/-! ## Responses -/

/-- What a response with an order says of the calls of the handler that has made it. -/
def AnsweredBy (past : Past) (res : OrderResponse) : Route → Prop
  | .getOrder id => ∃ row, hexDecode id = some row.id ∧
      ⟨.selectOrder row.id, some (some row)⟩ ∈ past ∧ res.version = row.version
  | .updateOrder id => ∃ row, hexDecode id = some row.id ∧
      ⟨.selectOrder row.id, some (some row)⟩ ∈ past ∧ ∃ reply ∈ past, Replaces reply row.id row.version
  | .createOrder => ∃ i, ⟨.insertOrder i, some ()⟩ ∈ past ∧ res.id = hexEncode i.id
  | _ => True

def Answered (r : Request) (past : Past) : Response → Prop
  | .order res => ∃ target, route r.method r.path = some target ∧ AnsweredBy past res target
  | _ => True

theorem createOrder_answered (st : AppState) (req : CreateOrderRequest) (past : Past) :
    Spec server.May (fun _ _ => True) (OnOk fun past' res => AnsweredBy past' res .createOrder) past
      (TorMarketplace.createOrder st req) := by
  simp only [TorMarketplace.createOrder, spec_orFail_bind, spec_ensure_bind, spec_call_bind, spec_pure,
    onOk_ok, onOk_error, implies_true, true_and]
  intro blob _ _ _ fresh _ _ time _ orderId _ done _ _ hdone
  subst hdone
  exact ⟨_, List.mem_concat_self, rfl⟩

theorem getOrder_answered (id : String) (past : Past) :
    Spec server.May (fun _ _ => True) (OnOk fun past' res => AnsweredBy past' res (.getOrder id)) past
      (TorMarketplace.getOrder id) := by
  simp only [TorMarketplace.getOrder, spec_orFail_bind, spec_call_bind, spec_pure, onOk_ok, onOk_error,
    implies_true, true_and]
  intro idBytes hid found hfound _ hrow row hsome
  subst hrow hsome
  obtain ⟨rfl, _⟩ := may_selectOrder hfound
  exact ⟨row, hid, List.mem_concat_self, rfl⟩

theorem updateOrder_answered (st : AppState) (auth : Authed) (id : String) (req : UpdateOrderRequest)
    (past : Past) :
    Spec server.May (fun _ _ => True) (OnOk fun past' res => AnsweredBy past' res (.updateOrder id)) past
      (TorMarketplace.updateOrder st auth id req) := by
  refine spec_mono (fun _ _ _ => trivial) (fun past' r h => ?_) (updateOrder_spec st auth id req past)
  cases r with
  | error _ => trivial
  | ok res =>
    obtain ⟨row, blob, nonceBytes, sigBytes, u, _, ⟨n, hn, hmem⟩, hsaw, hsigned⟩ := h
    exact ⟨row, hsigned.rowId, hsaw, _, hmem, u, effectiveUpdate_eq_some.mpr ⟨n, hn, rfl⟩,
      hsigned.guarded.2.1, hsigned.guarded.2.2⟩

/-- A handler whose responses are no orders. -/
theorem answered_of_other {α : Type} {r : Request} {x : Program α} {past : Past} {wrap : α → Response}
    (hwrap : ∀ a id, wrap a ≠ .order id) :
    Spec server.May (fun _ _ => True) (OnOk (Answered r)) past (x >>= fun a => pure (wrap a)) :=
  spec_seq_onOk spec_trivial fun past' a _ _ => by
    have hne := hwrap a
    cases hres : wrap a with
    | order res => exact absurd hres (hne res)
    | _ => trivial

theorem handle_answered (st : AppState) (auth : Option Authed) (r : Request) {target : Route}
    (htarget : route r.method r.path = some target) (past : Past) :
    Spec server.May (fun _ _ => True) (OnOk (Answered r)) past (handle st auth target r.body) := by
  have horder : ∀ {past' : Past} {res : OrderResponse}, AnsweredBy past' res target →
      Answered r past' (.order res) := fun h => ⟨target, htarget, h⟩
  unfold handle
  split
  all_goals simp only [spec_orFail_bind, onOk_error, implies_true, true_and, spec_fail]
  · exact fun _ _ => spec_seq_onOk (createOrder_answered st _ past) fun _ _ _ h => horder h
  · exact fun _ _ => spec_seq_onOk (getOrder_answered _ past) fun _ _ _ h => horder h
  · exact fun _ _ => spec_seq_onOk (updateOrder_answered st _ _ _ past) fun _ _ _ h => horder h
  · exact fun _ _ => answered_of_other fun _ _ => Response.noConfusion
  · exact fun _ _ => answered_of_other fun _ _ => Response.noConfusion
  · exact fun _ _ => answered_of_other fun _ _ => Response.noConfusion
  · exact answered_of_other fun _ _ => Response.noConfusion
  · exact fun _ _ => answered_of_other fun _ _ => Response.noConfusion
  · exact fun _ _ => answered_of_other fun _ _ => Response.noConfusion
  · exact answered_of_other fun _ _ => Response.noConfusion
  · exact answered_of_other fun _ _ => Response.noConfusion
  · exact answered_of_other fun _ _ => Response.noConfusion
  · exact answered_of_other fun _ _ => Response.noConfusion
  · exact answered_of_other fun _ _ => Response.noConfusion

theorem handleRequest_answered (st : AppState) (r : Request) :
    Spec server.May (fun _ _ => True) (OnOk (Answered r)) [] (handleRequest st r) := by
  unfold handleRequest
  refine spec_seq_onOk (spec_trivial) fun past auth _ _ => ?_
  simp only [spec_call_bind, spec_ensure_bind, spec_orFail_bind, onOk_error, implies_true, true_and]
  exact fun _ _ _ target htarget => handle_answered st auth r htarget _

/-- What a process that has answered a request has done. -/
theorem answered_of_done (h : D.Reaches anyJob orders g) {p : Process} (hp : p ∈ g.procs) {r : Request}
    (hjob : p.job = .request r) {res : Response} (hres : p.prog.result = some (.ok res)) :
    Answered r p.past res :=
  h.post_request (Q := fun r => OnOk (Answered r)) (handleRequest_answered D.api) hp hjob hres

/-! ## The client's calls -/

variable {w w' : World} {l : List (Interleave.Made Browser World)}

/-- What holds between the states before and after a call, or a step of the server. -/
theorem later_of_beside (hw : D.Reaches anyJob orders w.server) (h : Beside D w w') :
    Later w.server w'.server ∧ D.Reaches anyJob orders w'.server := by
  obtain ⟨g, hstep, rfl⟩ := h
  exact ⟨later_of_step hw hstep, reaches_of_step hw hstep⟩

/-- Only a request that is sent changes the server, by a process more. -/
theorem answer_server {c : BrowserCall} {e : Outcome} {a : c.Ans}
    (h : (browser D).answer c e w = some (a, w')) :
    w'.server = w.server ∨ ServerStep D w.server w'.server := by
  cases c with
  | send r =>
    obtain ⟨_, rfl⟩ := Prod.mk.inj (Option.some.inj h)
    exact .inr (.spawn _ _)
  | _ =>
    refine .inl ?_
    simp only [browser] at h
    repeat' split at h
    all_goals first
      | obtain ⟨_, rfl⟩ := Prod.mk.inj (Option.some.inj h)
        rfl
      | cases h

theorem later_of_answer {c : BrowserCall} {e : Outcome} {a : c.Ans}
    (hw : D.Reaches anyJob orders w.server) (h : (browser D).answer c e w = some (a, w')) :
    Later w.server w'.server ∧ D.Reaches anyJob orders w'.server := by
  rcases answer_server h with heq | hstep
  · rw [heq]
    exact ⟨Later.refl _, hw⟩
  · exact ⟨later_of_step hw hstep, reaches_of_step hw hstep⟩

/-- What a call does to the records that the client keeps. -/
def store (states : String → Option OrderState) : Reply Browser → String → Option OrderState
  | ⟨.saveOrderState id st, _⟩ => Function.update states id (some st)
  | _ => states

/-- Only `saveOrderState` changes what the client keeps of an order. -/
theorem answer_store {c : BrowserCall} {e : Outcome} {a : c.Ans}
    (h : (browser D).answer c e w = some (a, w')) : w'.orderStates = store w.orderStates ⟨c, a⟩ := by
  cases c with
  | saveOrderState id st =>
    obtain ⟨_, rfl⟩ := Prod.mk.inj (Option.some.inj h)
    rfl
  | _ =>
    simp only [browser] at h
    repeat' split at h
    all_goals first
      | obtain ⟨_, rfl⟩ := Prod.mk.inj (Option.some.inj h)
        rfl
      | cases h

/-- What a reply about a request tells of the server. -/
def Kept (w : World) : Reply Browser → Prop
  | ⟨.send r, ticket⟩ => ∃ p, w.server.procs[ticket]? = some p ∧ p.job = .request r
  | ⟨.receive ticket, some res⟩ =>
    ∃ p, w.server.procs[ticket]? = some p ∧ p.prog.result = some (.ok res)
  | _ => True

theorem kept_of_procs {r : Reply Browser} (hprocs : ∀ {pid : Nat} {p : Process},
      w.server.procs[pid]? = some p → ∃ p', w'.server.procs[pid]? = some p' ∧ p'.job = p.job ∧
        (p.prog.result.isSome → p' = p)) (h : Kept w r) : Kept w' r := by
  unfold Kept at h ⊢
  split
  · obtain ⟨p, hp, hjob⟩ := h
    obtain ⟨p', hp', hjob', _⟩ := hprocs hp
    exact ⟨p', hp', hjob'.trans hjob⟩
  · obtain ⟨p, hp, hres⟩ := h
    obtain ⟨p', hp', _, hdone⟩ := hprocs hp
    obtain rfl := hdone (by rw [hres]; rfl)
    exact ⟨p', hp', hres⟩
  · trivial

theorem kept_of_answer {c : BrowserCall} {e : Outcome} {a : c.Ans}
    (h : (browser D).answer c e w = some (a, w')) : Kept w' ⟨c, a⟩ := by
  cases c with
  | send r =>
    obtain ⟨rfl, rfl⟩ := Prod.mk.inj (Option.some.inj h)
    exact ⟨⟨.request r, [], D.program (.request r)⟩, List.getElem?_concat_length .., rfl⟩
  | receive ticket =>
    simp only [browser] at h
    split at h
    · obtain ⟨rfl, rfl⟩ := Prod.mk.inj (Option.some.inj h)
      trivial
    · split at h
      case h_1 res hres =>
        obtain ⟨rfl, rfl⟩ := Prod.mk.inj (Option.some.inj h)
        obtain ⟨p, hp, hdone⟩ := Option.bind_eq_some_iff.mp hres
        exact ⟨p, hp, hdone⟩
      case h_2 =>
        obtain ⟨rfl, rfl⟩ := Prod.mk.inj (Option.some.inj h)
        trivial
      case h_3 => exact absurd h (by simp)
  | _ => trivial

section Execution

variable {α : Type} {x y : Script α}

/-- The server goes on while a script runs. -/
theorem steps_later (hw : D.Reaches anyJob orders w.server)
    (h : Steps (browser D) (Beside D) x w l y w') :
    D.Reaches anyJob orders w'.server ∧ Later w.server w'.server ∧
      ∀ made ∈ l, Later w.server made.before.server ∧ Later made.before.server w'.server ∧
        D.Reaches anyJob orders made.before.server :=
  h.rel (fun w w' => Later w.server w'.server) (fun w => D.Reaches anyJob orders w.server)
    (fun _ => Later.refl _) Later.trans later_of_beside later_of_answer hw

theorem steps_kept (h : Steps (browser D) (Beside D) x w l y w') :
    ∀ made ∈ l, Kept w' made.reply := by
  refine h.past_inv (K := Kept) kept_of_answer ?_ ?_
  · rintro w w' r ⟨g, hstep, rfl⟩ hr
    exact kept_of_procs (procs_of_step hstep) hr
  · intro c e w a w' r ha hr
    refine kept_of_procs (fun hp => ?_) hr
    rcases answer_server ha with heq | hstep
    · rw [heq]
      exact ⟨_, hp, rfl, fun _ => rfl⟩
    · exact procs_of_step hstep hp

/-- **What a response to one of the script's requests tells**: the process that has made it had been
answered nothing when the script began. -/
theorem steps_answered (hw : D.Reaches anyJob orders w.server)
    (h : Steps (browser D) (Beside D) x w l y w') {r : Request} {ticket : Nat} {res : Response}
    (hsend : ⟨.send r, ticket⟩ ∈ l.map Made.reply)
    (hreceive : ⟨.receive ticket, some res⟩ ∈ l.map Made.reply) :
    ∃ p ∈ w'.server.procs, Answered r p.past res ∧ ∀ reply ∈ p.past, Fresh w.server.shared reply := by
  obtain ⟨hw', hlater, hmade⟩ := steps_later hw h
  obtain ⟨sent, hsent, hreply⟩ := List.mem_map.mp hsend
  obtain ⟨received, hreceived, hreply'⟩ := List.mem_map.mp hreceive
  have hjob := steps_kept h sent hsent
  have hdone := steps_kept h received hreceived
  rw [hreply] at hjob
  rw [hreply'] at hdone
  obtain ⟨p, hp, hjob⟩ := hjob
  obtain ⟨p', hp', hres⟩ := hdone
  obtain rfl := Option.some.inj (hp.symm.trans hp')
  refine ⟨p, List.mem_of_getElem? hp, answered_of_done hw' (List.mem_of_getElem? hp) hjob hres,
    fun reply hr => ?_⟩
  -- the process is younger than `w`, where there is none of its number
  rcases hlater.past hp reply hr with ⟨p₀, hp₀, _⟩ | hfresh
  · obtain ⟨e, w'', ha⟩ := h.answered hsent
    rw [hreply] at ha
    obtain ⟨hticket, _⟩ := Prod.mk.inj (Option.some.inj ha)
    obtain ⟨p₁, hp₁, _⟩ := (hmade sent hsent).1.procs hp₀
    have hlt := (List.getElem?_eq_some_iff.mp hp₁).1
    change sent.before.server.procs.length = ticket at hticket
    omega
  · exact hfresh

end Execution

/-! ## Responses to an order that is not written -/

/-- A version that a process has replaced is passed. -/
theorem passed_of_replaces (h : D.Reaches anyJob orders g) {p : Process} (hp : p ∈ g.procs)
    {r : Reply Server} (hr : r ∈ p.past) {id : Bytes} {v : Int} (hrep : Replaces r id v) :
    Passed Order.version g.shared.orders.find id v := by
  refine (Reachable.past_stable (fun _ j _ => program_spec D j)
    (K := fun s r => ∀ id v, Replaces r id v → Passed Order.version s.orders.find id v)
    (fun hc ha id v hrep => (hc.passes ha hrep).2)
    (fun hc ha hk id v hrep => (hc.step ha).passed (hk id v hrep)) h).1 p hp r hr id v hrep

section Unwritten

variable {id : Bytes} {v : Int} {p : Process}

/-- What a younger process reads of the row is its version. -/
theorem version_of_read (hw' : D.Reaches anyJob orders g') (hp : p ∈ g'.procs)
    (hfresh : ∀ reply ∈ p.past, Fresh g.shared reply) (hv : rowVersion g id = some v)
    (hv' : rowVersion g' id = some v) {row : Order} (hid : row.id = id)
    (hread : ⟨.selectOrder row.id, some (some row)⟩ ∈ p.past) : row.version = v := by
  obtain ⟨o, ho, rfl⟩ := Option.map_eq_some_iff.mp hv
  obtain ⟨o', ho', hver⟩ := Option.map_eq_some_iff.mp hv'
  have hle := (hfresh _ hread).reads row (.inl rfl) o (hid ▸ ho)
  have hknown := hw'.knownRows.1 p hp _ hread row (.inl rfl)
  have hle' := hknown.le (hid ▸ ho')
  omega

/-- None of them replaces it. -/
theorem not_replaced (hw' : D.Reaches anyJob orders g') (hp : p ∈ g'.procs)
    (hfresh : ∀ reply ∈ p.past, Fresh g.shared reply) (hv : rowVersion g id = some v)
    (hv' : rowVersion g' id = some v) {row : Order} (hid : row.id = id)
    (hread : ⟨.selectOrder row.id, some (some row)⟩ ∈ p.past) {reply : Reply Server}
    (hreply : reply ∈ p.past) : ¬ Replaces reply row.id row.version := by
  intro hrep
  have hver := version_of_read hw' hp hfresh hv hv' hid hread
  obtain ⟨o, ho, hlt⟩ := passed_of_replaces hw' hp hreply hrep
  obtain ⟨o', ho', hver'⟩ := Option.map_eq_some_iff.mp hv'
  rw [hid] at ho
  obtain rfl := Option.some.inj (ho.symm.trans ho')
  omega

/-- None of them inserts it. -/
theorem not_inserted (hfresh : ∀ reply ∈ p.past, Fresh g.shared reply)
    (hv : rowVersion g id = some v) {i : InsertOrders}
    (hins : ⟨.insertOrder i, some ()⟩ ∈ p.past) : i.id ≠ id := by
  rintro rfl
  obtain ⟨o, ho, _⟩ := Option.map_eq_some_iff.mp hv
  exact absurd (ho.symm.trans ((hfresh _ hins).inserts i rfl)) (by simp)

end Unwritten

/-! ## What the scripts save and sign -/

/-- `getOrder` takes the saved order for funded when the server answers the version `v`. -/
def Funds (saved : Option OrderState) (v : Int) : Prop :=
  ∃ st, saved = some st ∧ st.version < v ∧ isPending st.data = true

/-- Where a saved record comes from: a response of `getOrder` to an order that is taken for funded, of
`updateOrder`, or of `createOrder`. -/
inductive SavedFrom (past : List (Reply Browser)) (id : String) : Prop
  | getOrder (headers : AuthHeaders) (ticket : Nat) (res : OrderResponse) (saved : Option OrderState)
      (hsend : ⟨.send ⟨.get, "/orders/" ++ id, headers, .empty⟩, ticket⟩ ∈ past)
      (hreceive : ⟨.receive ticket, some (.order res)⟩ ∈ past)
      (hread : ⟨.getOrderState id, saved⟩ ∈ past) (hfunds : Funds saved res.version)
  | updateOrder (headers : AuthHeaders) (ticket : Nat) (res : OrderResponse) (body : Body)
      (saved : OrderState) (hread : ⟨.getOrderState id, some saved⟩ ∈ past)
      (hsend : ⟨.send ⟨.post, "/orders/" ++ id ++ "/update", headers, body⟩, ticket⟩ ∈ past)
      (hreceive : ⟨.receive ticket, some (.order res)⟩ ∈ past)
  | createOrder (headers : AuthHeaders) (ticket : Nat) (res : OrderResponse) (body : Body)
      (hsend : ⟨.send ⟨.post, "/orders", headers, body⟩, ticket⟩ ∈ past)
      (hreceive : ⟨.receive ticket, some (.order res)⟩ ∈ past) (hid : id = res.id)

/-- What a script's call is made after. -/
def ScriptCall (past : List (Reply Browser)) : BrowserCall → Prop
  | .saveOrderState id _ => SavedFrom past id
  | .signTransition id prevVersion _ _ _ =>
    ∃ saved rest, past = ⟨.getOrderState id, some saved⟩ :: rest ∧ prevVersion = saved.version
  | _ => True

/-- The calls of `getOrder` that has returned `res`. -/
def Got (id : String) (past : List (Reply Browser)) (res : OrderResponse) : Prop :=
  ∃ headers ticket saved rest,
    past = [⟨.authHeaders ("/orders/" ++ id), headers⟩,
      ⟨.send ⟨.get, "/orders/" ++ id, headers, .empty⟩, ticket⟩,
      ⟨.receive ticket, some (.order res)⟩, ⟨.getOrderState id, saved⟩] ++ rest ∧
    ((¬ Funds saved res.version ∧ rest = []) ∨
      (Funds saved res.version ∧ ∃ now data,
        rest = [⟨.dateNow, now⟩, ⟨.saveOrderState id ⟨data, res.version⟩, ()⟩]))

variable {may : (c : BrowserCall) → c.Ans → Prop}

theorem orderResponse_eq {res : Response} {o : OrderResponse} (h : orderResponse res = some o) :
    res = .order o := by
  cases res with
  | order o' => exact congrArg _ (Option.some.inj h)
  | _ => exact absurd h (by simp [orderResponse])

theorem createOrder_script (c : Client) (listingId : JsString) (currency seller : Option JsString) :
    Spec may ScriptCall (OnOk fun _ _ => True) [] (createOrder c listingId currency seller) := by
  simp only [createOrder, requestOrder, request, getWorkerPubkey, encryptWorkerOrder, bind_bind,
    spec_call_bind, spec_orFail_bind, spec_pure, onOk_ok, onOk_error, implies_true, true_and, ScriptCall]
  intro _ _ _ _ _ _ _ _ blobB64 _ nonceBytes _ headers _ ticket _ received _ res hres order horder
  subst hres
  obtain rfl := orderResponse_eq horder
  exact ⟨.createOrder headers ticket order (.createOrder ⟨blobB64, some 7, hexEncode nonceBytes⟩)
    (by simp) (by simp) rfl, trivial⟩

theorem getOrder_script (id : String) :
    Spec may ScriptCall (OnOk fun past r => Got id past r.1) [] (getOrder id) := by
  simp only [getOrder, requestOrder, request, bind_bind, spec_call_bind, spec_orFail_bind, onOk_error,
    implies_true, true_and, ScriptCall]
  intro headers _ ticket _ received _ res hres order horder saved _
  subst hres
  obtain rfl := orderResponse_eq horder
  cases saved with
  | none =>
    refine ⟨headers, ticket, none, [], rfl, .inl ⟨?_, rfl⟩⟩
    rintro ⟨_, h, -⟩
    exact absurd h (by simp)
  | some saved =>
    by_cases hfunds : saved.version < order.version ∧ isPending saved.data = true
    · have hcond : (decide (order.version > saved.version) && isPending saved.data) = true := by
        simp [hfunds.1, hfunds.2]
      simp only [hcond, if_true, spec_call_bind, spec_pure, onOk_ok, ScriptCall, true_and]
      intro now _
      refine ⟨.getOrder headers ticket order (some saved) (by simp) (by simp) (by simp)
        ⟨saved, rfl, hfunds⟩, fun _ _ => ?_⟩
      exact ⟨headers, ticket, some saved, _, rfl, .inr ⟨⟨saved, rfl, hfunds⟩, now, _, rfl⟩⟩
    · have hcond : (decide (order.version > saved.version) && isPending saved.data) = false := by
        rw [Bool.eq_false_iff]
        intro h
        rw [Bool.and_eq_true, decide_eq_true_eq] at h
        exact hfunds h
      simp only [hcond, Bool.false_eq_true, if_false, spec_pure, onOk_ok]
      refine ⟨headers, ticket, some saved, [], rfl, .inl ⟨?_, rfl⟩⟩
      rintro ⟨st, hst, h⟩
      obtain rfl := Option.some.inj hst
      exact hfunds h

theorem updateOrder_script (orderId : String) (newState : JsString) (extra : JsObject) :
    Spec may ScriptCall (OnOk fun _ _ => True) [] (updateOrder orderId newState extra) := by
  simp only [updateOrder, requestOrder, request, getWorkerPubkey, encryptWorkerOrder, bind_bind,
    spec_call_bind, spec_orFail_bind, spec_pure, onOk_ok, onOk_error, implies_true, true_and, ScriptCall]
  intro _ _ saved hsaved _ _ _ _ _ _ _ _ blobB64 _ millis _ nonceBytes _
  subst hsaved
  refine ⟨⟨saved, _, rfl, rfl⟩, ?_⟩
  intro _ _ sig _ headers _ ticket _ received _ res hres order horder
  subst hres
  obtain rfl := orderResponse_eq horder
  exact ⟨.updateOrder headers ticket order
    (.updateOrder ⟨blobB64, sig, hexEncode nonceBytes, UInt64.ofNat (millis / 3600000)⟩) saved
    (by simp) (by simp) (by simp), trivial⟩

theorem sendMessage_script (orderId text : String) :
    Spec may ScriptCall (OnOk fun _ _ => True) [] (sendMessage orderId text) := by
  simp only [sendMessage, requestChat, request, bind_bind, spec_call_bind, spec_orFail_bind, onOk_error,
    implies_true, true_and, ScriptCall]
  intro _ _ _ _ _ _ _ _ _ _ key _ _ _ enc _
  split
  all_goals simp only [spec_call_bind, spec_orFail_bind, spec_orFail, onOk_ok,
    onOk_error, implies_true, and_true, ScriptCall]

theorem script_spec (j : ApiCall) : Spec may ScriptCall (OnOk fun _ _ => True) [] j.script := by
  have hdrop : ∀ {α : Type} {x : Script α} {R : List (Reply Browser) → α → Prop},
      Spec may ScriptCall (OnOk R) [] x →
        Spec may ScriptCall (OnOk fun _ _ => True) [] (x >>= fun _ => (pure () : Script Unit)) :=
    fun hx => spec_seq_onOk hx fun _ _ _ _ => trivial
  cases j with
  | createOrder c listingId currency seller => exact hdrop (createOrder_script c _ _ _)
  | getOrder id => exact hdrop (getOrder_script id)
  | updateOrder orderId newState extra => exact hdrop (updateOrder_script orderId newState extra)
  | sendMessage orderId text => exact hdrop (sendMessage_script orderId text)

/-! ## What the client keeps of an order -/

section Execution

variable {α : Type} {x y : Script α}

theorem steps_store (h : Steps (browser D) (Beside D) x w l y w') :
    w'.orderStates = (l.map Made.reply).foldl store w.orderStates := by
  induction h with
  | refl => rfl
  | env _ hbeside ih =>
    obtain ⟨g, _, rfl⟩ := hbeside
    exact ih
  | act e _ ha ih => rw [List.map_append, List.foldl_append, answer_store ha, ih]; rfl

/-- What a script reads is what has been saved last. -/
theorem read_of_steps (h : Steps (browser D) (Beside D) x w l y w') {id : String}
    {saved : Option OrderState} (past : List (Reply Browser)) {rest : List (Reply Browser)}
    (hl : l.map Made.reply = past ++ ⟨.getOrderState id, saved⟩ :: rest) :
    saved = past.foldl store w.orderStates id := by
  obtain ⟨l₁, l₂, rfl, rfl, hl₂⟩ := List.map_eq_append_iff.mp hl
  obtain ⟨made, l₃, rfl, hmade, _⟩ := List.map_eq_cons_iff.mp hl₂
  obtain ⟨e, w'', ha⟩ := h.answered (List.mem_append_right l₁ List.mem_cons_self)
  obtain ⟨k, hpast⟩ := h.upTo rfl
  rw [hmade] at ha
  obtain ⟨rfl, _⟩ := Prod.mk.inj (Option.some.inj ha)
  rw [steps_store hpast]

/-- What holds of the record of `key`, and of every record that a script saves for it, the script finds
and leaves. -/
theorem steps_entries {R : List (Reply Browser) → α → Prop} {G : Option OrderState → Prop}
    {key : String} (hw : D.Reaches anyJob orders w.server)
    (hx : Spec (browser D).May ScriptCall (OnOk R) [] x)
    (h : Steps (browser D) (Beside D) x w l y w') (h₀ : G (w.orderStates key))
    (hsave : ∀ l₁ z w₁ st, Steps (browser D) (Beside D) x w l₁ z w₁ →
      Later w₁.server w'.server →
      SavedFrom (l₁.map Made.reply) key →
      (∀ saved, ⟨.getOrderState key, saved⟩ ∈ l₁.map Made.reply → G saved) → G (some st)) :
    G (w'.orderStates key) ∧
      ∀ saved, ⟨.getOrderState key, saved⟩ ∈ l.map Made.reply → G saved := by
  induction h with
  | refl => exact ⟨h₀, fun _ h => absurd h List.not_mem_nil⟩
  | env h hbeside ih =>
    have hlater := (later_of_beside (steps_later hw h).1 hbeside).1
    obtain ⟨g, _, rfl⟩ := hbeside
    exact ih fun l₁ z w₁ st hl₁ hle => hsave l₁ z w₁ st hl₁ (hle.trans hlater)
  | @act l c k a w₁ w₂ e h ha ih =>
    have hlater := (later_of_answer (steps_later hw h).1 ha).1
    obtain ⟨hentry, hreads⟩ := ih fun l₁ z w₁ st hl₁ hle => hsave l₁ z w₁ st hl₁ (hle.trans hlater)
    refine ⟨?_, fun saved hread => ?_⟩
    · rw [answer_store ha]
      cases c with
      | saveOrderState id st =>
        by_cases hid : key = id
        · subst hid
          have hfrom : SavedFrom (l.map Made.reply) key := (h.spec hx).1.1
          rw [store, Function.update_self]
          exact hsave l _ w₁ st h hlater hfrom hreads
        · rw [store, Function.update_of_ne hid]
          exact hentry
      | _ => exact hentry
    · rw [List.map_append, List.mem_append] at hread
      rcases hread with hread | hread
      · exact hreads saved hread
      · cases List.mem_singleton.mp hread
        obtain ⟨rfl, _⟩ := Prod.mk.inj (Option.some.inj ha)
        exact hentry

/-- **No script changes the record** of an order that the server holds in the version `v` all along, and
that is not taken for funded in that version. -/
theorem steps_unchanged {R : List (Reply Browser) → α → Prop} {id : Bytes} {v : Int}
    (hw : D.Reaches anyJob orders w.server) (hx : Spec (browser D).May ScriptCall (OnOk R) [] x)
    (h : Steps (browser D) (Beside D) x w l y w') (hv : rowVersion w.server id = some v)
    (hv' : rowVersion w'.server id = some v) (hfunds : ¬ Funds (w.orderStates (hexEncode id)) v) :
    w'.orderStates (hexEncode id) = w.orderStates (hexEncode id) ∧
      ∀ saved, ⟨.getOrderState (hexEncode id), saved⟩ ∈ l.map Made.reply →
        saved = w.orderStates (hexEncode id) := by
  refine steps_entries (G := fun saved => saved = w.orderStates (hexEncode id)) hw hx h rfl
    fun l₁ z w₁ st hl₁ hlater' hfrom hreads => ?_
  exfalso
  obtain ⟨hw₁, hlater, _⟩ := steps_later hw hl₁
  have hv₁ : rowVersion w₁.server id = some v := hlater.between hlater' hv hv'
  rcases hfrom with ⟨headers, ticket, res, saved, hsend, hreceive, hread, hnew⟩ |
    ⟨headers, ticket, res, body, saved, hread, hsend, hreceive⟩ |
    ⟨headers, ticket, res, body, hsend, hreceive, hid⟩
  · obtain ⟨p, hp, ⟨target, htarget, hby⟩, hfresh⟩ := steps_answered hw hl₁ hsend hreceive
    obtain rfl := route_getOrder id htarget
    obtain ⟨row, hrow, hread', hver⟩ := hby
    have hid : row.id = id := Option.some.inj (hrow.symm.trans (hexDecode_hexEncode id))
    rw [hver, version_of_read hw₁ hp hfresh hv hv₁ hid hread', hreads saved hread] at hnew
    exact hfunds hnew
  · obtain ⟨p, hp, ⟨target, htarget, hby⟩, hfresh⟩ := steps_answered hw hl₁ hsend hreceive
    obtain rfl := route_updateOrder id htarget
    obtain ⟨row, hrow, hread', reply, hreply, hrep⟩ := hby
    have hid : row.id = id := Option.some.inj (hrow.symm.trans (hexDecode_hexEncode id))
    exact not_replaced hw₁ hp hfresh hv hv₁ hid hread' hreply hrep
  · obtain ⟨p, hp, ⟨target, htarget, hby⟩, hfresh⟩ := steps_answered hw hl₁ hsend hreceive
    cases htarget.symm.trans route_createOrder
    obtain ⟨i, hins, hid'⟩ := hby
    exact not_inserted hfresh hv hins (hexEncode_inj (hid'.symm.trans hid.symm))

/-- The client keeps records of ids that the server has written. -/
def HexKeys (w : World) : Prop := ∀ key, w.orderStates key ≠ none → ∃ b, key = hexEncode b

theorem steps_hexKeys {R : List (Reply Browser) → α → Prop} (hw : D.Reaches anyJob orders w.server)
    (hx : Spec (browser D).May ScriptCall (OnOk R) [] x)
    (h : Steps (browser D) (Beside D) x w l y w') (hkeys : HexKeys w) : HexKeys w' := by
  intro key
  refine (steps_entries (G := fun saved => saved ≠ none → ∃ b, key = hexEncode b) hw hx h
    (hkeys key) fun l₁ z w₁ st hl₁ _ hfrom hreads _ => ?_).1
  rcases hfrom with ⟨_, _, _, saved, _, _, hread, st', rfl, _⟩ | ⟨_, _, _, _, saved, hread, _, _⟩ |
    ⟨headers, ticket, res, body, hsend, hreceive, rfl⟩
  · exact hreads _ hread (by simp)
  · exact hreads _ hread (by simp)
  · obtain ⟨p, _, hanswered, _⟩ := steps_answered hw hl₁ hsend hreceive
    obtain ⟨target, htarget, hby⟩ := hanswered
    cases htarget.symm.trans route_createOrder
    obtain ⟨i, _, hid⟩ := hby
    exact ⟨i.id, hid⟩

end Execution

variable {id : String} {idBytes : Bytes} {v : Int} {w₀ w₁ w₂ w₃ : World}

theorem session_later (hw : D.Reaches anyJob orders w.server)
    (h : Session (browser D) (Beside D) ApiCall.script w w') :
    D.Reaches anyJob orders w'.server ∧ Later w.server w'.server :=
  h.rel (fun w w' => Later w.server w'.server) (fun w => D.Reaches anyJob orders w.server)
    (fun _ => Later.refl _) Later.trans later_of_beside later_of_answer hw

theorem session_unchanged (hw : D.Reaches anyJob orders w.server)
    (h : Session (browser D) (Beside D) ApiCall.script w w')
    (hv : rowVersion w.server idBytes = some v) (hv' : rowVersion w'.server idBytes = some v)
    (hfunds : ¬ Funds (w.orderStates (hexEncode idBytes)) v) :
    w'.orderStates (hexEncode idBytes) = w.orderStates (hexEncode idBytes) := by
  induction h with
  | refl => rfl
  | env h hbeside ih =>
    obtain ⟨hw₁, hlater₁⟩ := session_later hw h
    have hlater₂ := (later_of_beside hw₁ hbeside).1
    obtain ⟨g, _, rfl⟩ := hbeside
    exact ih (hlater₁.between hlater₂ hv hv')
  | call j h hx ih =>
    obtain ⟨hw₁, hlater₁⟩ := session_later hw h
    have hv₁ := hlater₁.between (steps_later hw₁ hx).2.1 hv hv'
    have hentry := ih hv₁
    rw [(steps_unchanged hw₁ (script_spec j) hx hv₁ hv' (hentry ▸ hfunds)).1, hentry]

theorem session_hexKeys (hw : D.Reaches anyJob orders w.server)
    (h : Session (browser D) (Beside D) ApiCall.script w w') (hkeys : HexKeys w) : HexKeys w' := by
  induction h with
  | refl => exact hkeys
  | env _ hbeside ih =>
    obtain ⟨g, _, rfl⟩ := hbeside
    exact ih
  | call j h hx ih => exact steps_hexKeys (session_later hw h).1 (script_spec j) hx ih

/-- **What `getOrder` leaves**: a record in the version of the response if it takes the order for funded,
and else the record that it has found. -/
theorem getOrder_stores {l : List (Interleave.Made Browser World)} {res : OrderResponse} {data : Option JsObject}
    (h : Steps (browser D) (Beside D) (getOrder id) w l (.ret (res, data)) w') :
    (Funds (w.orderStates id) res.version →
      ∃ data, w'.orderStates id = some ⟨data, res.version⟩) ∧
    (¬ Funds (w.orderStates id) res.version → w'.orderStates id = w.orderStates id) := by
  obtain ⟨headers, ticket, saved, rest, hl, hrest⟩ := (h.spec (getOrder_script id)).1
  have hsaved : saved = w.orderStates id := read_of_steps h [_, _, _] hl
  have hstates := steps_store h
  rw [hl] at hstates
  subst hsaved
  rcases hrest with ⟨hfunds, rfl⟩ | ⟨hfunds, now, data, rfl⟩
  · exact ⟨fun h => absurd h hfunds, fun _ => congrFun hstates id⟩
  · exact ⟨fun _ => ⟨data, (congrFun hstates id).trans (Function.update_self ..)⟩,
      fun h => absurd hfunds h⟩

/-- After `getOrder` has returned, the row has the version that it has answered, or a newer one. -/
theorem version_of_getOrder {l : List (Interleave.Made Browser World)} {res : OrderResponse}
    {data : Option JsObject} (hw : D.Reaches anyJob orders w.server)
    (h : Steps (browser D) (Beside D) (getOrder (hexEncode idBytes)) w l (.ret (res, data)) w') :
    ∃ o, w'.server.shared.orders.find idBytes = some o ∧ res.version ≤ o.version := by
  obtain ⟨headers, ticket, saved, rest, hl, _⟩ := (h.spec (getOrder_script _)).1
  have hsend : ⟨.send ⟨.get, "/orders/" ++ hexEncode idBytes, headers, .empty⟩, ticket⟩ ∈
      l.map Made.reply := by rw [hl]; simp
  have hreceive : ⟨.receive ticket, some (.order res)⟩ ∈ l.map Made.reply := by rw [hl]; simp
  obtain ⟨p, hp, ⟨target, htarget, hby⟩, _⟩ := steps_answered hw h hsend hreceive
  obtain rfl := route_getOrder idBytes htarget
  obtain ⟨row, hrow, hread, hver⟩ := hby
  obtain rfl := Option.some.inj ((hexDecode_hexEncode idBytes).symm.trans hrow)
  obtain ⟨o, ho, hcase⟩ := (steps_later hw h).1.knownRows.1 p hp _ hread row (.inl rfl)
  refine ⟨o, ho, ?_⟩
  rcases hcase with rfl | hlt <;> omega

/-- `updateOrder` signs the version of the record that it finds. -/
theorem signed_version {l : List (Interleave.Made Browser World)} {y : Script (OrderResponse × JsObject)}
    {newState : JsString} {extra : JsObject} {made : Interleave.Made Browser World} {prevVersion : Int}
    {blobBytes nonceBytes : Bytes} {hourBucket : UInt64}
    (h : Steps (browser D) (Beside D) (updateOrder id newState extra) w l y w') (hmade : made ∈ l)
    (hsign : made.reply.1 = .signTransition id prevVersion blobBytes nonceBytes hourBucket) :
    ∃ saved, w.orderStates id = some saved ∧ prevVersion = saved.version := by
  obtain ⟨l₁, l₂, rfl⟩ := List.append_of_mem hmade
  have hcall := (h.spec (updateOrder_script id newState extra)).2 l₁ made l₂ rfl
  rw [hsign] at hcall
  obtain ⟨saved, rest, hpast, hver⟩ := hcall
  obtain ⟨k, hupTo⟩ := h.upTo rfl
  exact ⟨saved, (read_of_steps hupTo [] hpast).symm, hver⟩

/-- The client has the version `v` of the order stored, or stores it when it is answered. -/
def Current (saved : Option OrderState) (v : Int) : Prop :=
  ∃ st, saved = some st ∧ (st.version = v ∨ (st.version < v ∧ isPending st.data = true))

/-- **The version that is signed is the server's** if and only if `getOrder` has found it stored, or has
stored it. -/
theorem signs_current_iff {l l' : List (Interleave.Made Browser World)} {res : OrderResponse}
    {data : Option JsObject} {y : Script (OrderResponse × JsObject)} {newState : JsString}
    {extra : JsObject} {made : Interleave.Made Browser World} {prevVersion : Int} {blobBytes nonceBytes : Bytes}
    {hourBucket : UInt64}
    (h₀ : Session (browser D) (Beside D) ApiCall.script (World.initial orders) w₀)
    (hget : Steps (browser D) (Beside D) (getOrder id) w₀ l (.ret (res, data)) w₁)
    (h₁ : Session (browser D) (Beside D) ApiCall.script w₁ w₂)
    (hupdate : Steps (browser D) (Beside D) (updateOrder id newState extra) w₂ l' y w₃)
    (hmade : made ∈ l')
    (hsign : made.reply.1 = .signTransition id prevVersion blobBytes nonceBytes hourBucket)
    (hid : hexDecode id = some idBytes) (hres : res.version = v)
    (hquiet : rowVersion made.before.server idBytes = some v) :
    rowVersion made.before.server idBytes = some prevVersion ↔ Current (w₀.orderStates id) v := by
  have hinit : D.Reaches anyJob orders (World.initial orders).server := .init
  obtain ⟨hw₀, _⟩ := session_later hinit h₀
  obtain ⟨hw₁, _, _⟩ := steps_later hw₀ hget
  obtain ⟨hw₂, hlater₁⟩ := session_later hw₁ h₁
  obtain ⟨l₁, l₂, hl'⟩ := List.append_of_mem hmade
  obtain ⟨k, hupTo⟩ := hupdate.upTo hl'
  obtain ⟨_, hlater₂, _⟩ := steps_later hw₂ hupTo
  obtain ⟨saved, hsaved, hver⟩ := signed_version hupdate hmade hsign
  -- the id is spelled as the server writes it: the client has a record of it
  have hkeys₀ : HexKeys w₀ := session_hexKeys hinit h₀ fun _ h => absurd rfl h
  have hkeys₁ : HexKeys w₁ := steps_hexKeys hw₀ (getOrder_script id) hget hkeys₀
  have hkeys₂ : HexKeys w₂ := session_hexKeys hw₁ h₁ hkeys₁
  obtain ⟨b, rfl⟩ := hkeys₂ id (by rw [hsaved]; simp)
  obtain rfl := Option.some.inj ((hexDecode_hexEncode b).symm.trans hid)
  have hv₁ : rowVersion w₁.server b = some v := by
    obtain ⟨o, ho, hle⟩ := version_of_getOrder hw₀ hget
    obtain ⟨o', ho', hcase⟩ := (hlater₁.trans hlater₂).known b o ho
    obtain ⟨o'', ho'', hver'⟩ := Option.map_eq_some_iff.mp hquiet
    obtain rfl := Option.some.inj (ho'.symm.trans ho'')
    refine Option.map_eq_some_iff.mpr ⟨o, ho, ?_⟩
    rcases hcase with rfl | hlt
    · exact hver'
    · omega
  have hv₂ : rowVersion w₂.server b = some v := hlater₁.between hlater₂ hv₁ hquiet
  obtain ⟨hfunded, hkept⟩ := getOrder_stores hget
  rw [hres] at hfunded hkept
  rw [hquiet, Option.some.injEq, hver]
  by_cases hfunds : Funds (w₀.orderStates (hexEncode b)) v
  · obtain ⟨data', hstored⟩ := hfunded hfunds
    have hentry := session_unchanged hw₁ h₁ hv₁ hv₂ (by
      rw [hstored]
      rintro ⟨st, hst, hlt, _⟩
      cases hst
      exact absurd hlt (lt_irrefl _))
    obtain rfl : saved = ⟨data', v⟩ :=
      Option.some.inj (hsaved.symm.trans (hentry.trans hstored))
    obtain ⟨st, hst, hlt⟩ := hfunds
    exact ⟨fun _ => ⟨st, hst, .inr hlt⟩, fun _ => rfl⟩
  · have hstored := hkept hfunds
    have hentry := session_unchanged hw₁ h₁ hv₁ hv₂ (by rw [hstored]; exact hfunds)
    have hfound : w₀.orderStates (hexEncode b) = some saved :=
      (hentry.trans hstored).symm.trans hsaved
    constructor
    · exact fun h => ⟨saved, hfound, .inl h.symm⟩
    · rintro ⟨st, hst, heq | hnewer⟩
      · obtain rfl := Option.some.inj (hst.symm.trans hfound)
        exact heq.symm
      · exact absurd ⟨st, hst, hnewer⟩ hfunds

/-! ## A client that does not get on

Its order is written twice; the first `getOrder` takes it for funded and stores the version 2, the
second one is answered 3 and stores nothing. -/

namespace StaleSample

open Sample

def createLogin : Login where
  path := "/orders"
  nonce := "0a"
  hmac := "28757f7e08238fbdb08d5283a39e25e2f1138af4c8afdc9ab636a429764ca59a"
  signature :=
    "51d107bc264a5492cacf8108eedbeb17707045eaef0b5120c28ac8cb1b942e5b" ++
    "ce483ef4a499cdd2184ab4b7fd8e82c8ebce4a80d1ec33266f5aa09611a9d501"

def firstGet : Login where
  path := "/orders/" ++ orderId
  nonce := "0b"
  hmac := "ad2f3d7b14f42356360bdf0e0c692be6e9e3ebe3d1f5a44e181093ce1f09978b"
  signature :=
    "c377b42ce1208eb7372adfd61570e7f530af646775b05bc57cf9d7c4164d1f8f" ++
    "c2c5f24a820fb6197efd78ef431cf57618819cc85aa159cafbeb01ce20b5c40f"

def secondGet : Login where
  path := "/orders/" ++ orderId
  nonce := "0c"
  hmac := "e7b1a9e5c233b8330dab251df1534f4e7226f07b0296222829f511ab1df2185d"
  signature :=
    "8b69a97355fb4de8b35b7ce8d448c5012e436c4ae20cba9b9d2866965c22e28a" ++
    "e3a5b5c74c0b07eff9c43f0fc00a9e3362b6bd918ec0b8be2923c90da88de006"

def market : Deployment :=
  deployment (loginTables [createLogin, firstChat, firstGet, secondChat, secondGet]) none

def noOrders : OrdersTable where
  rows := []
  nodup := List.nodup_nil

def client : Client where
  naclHash _ := []
  pubkey := Sample.pubkey

abbrev Move := Turn (Label Job Choice) Outcome

/-- The client's next calls, one for each of the texts. -/
def calls (texts : List String) : List Move :=
  texts.map fun text => .act { time := 1700000000000, bytes := List.replicate 16 0, text := some text }

/-- The client makes the headers and sends the request. -/
def sends (login : Login) : List Move := [.act { headers := (login.post .empty).headers }, .act {}]

/-- The next `n` calls of the server's process `pid`. -/
def serves (pid n : Nat) : List Move := (acts pid n).map .beside

/-- The choice that draws the order's id. -/
def drawId : Choice where
  time
  ask
    | .randomBytes _ => hex orderId
    | q => q.noAnswer

/-- A chat message to the order, as the process `pid`. -/
def chat (pid : Nat) (login : Login) (nonce : String) : List Move :=
  .beside (.spawn (.request (login.post (.sendMessage ⟨"AQID", "", nonce⟩)))) :: serves pid 6

/-- The order is made, a message is written, the order is taken for funded, and a second message is
written. -/
def before : List (ApiCall × List Move) :=
  [ (.createOrder client [] none none,
      calls ["04", "", "AQID", ""] ++ sends createLogin ++
        (serves 0 5 ++ [.beside (.act 0 drawId)] ++ serves 0 1) ++ calls ["", ""] ++
        chat 1 firstChat "n1"),
    (.getOrder orderId,
      sends firstGet ++ serves 2 4 ++ calls ["", "", "", ""] ++ chat 3 secondChat "n2") ]

/-- What `run` comes to: the world before the second `getOrder`, that call, and `updateOrder` up to the
signature. -/
structure Stale where
  world : World
  got : Under Browser World String (OrderResponse × Option JsObject)
  updating : Under Browser World String (OrderResponse × JsObject)

def run : Option Stale := do
  let world ← playAll (browser market) (serverMove market) ApiCall.script before
    (World.initial noOrders)
  let got ← play (browser market) (serverMove market)
    (sends secondGet ++ serves 4 4 ++ calls ["", ""]) ⟨[], getOrder orderId, world⟩
  let updating ← play (browser market) (serverMove market)
    (calls ["", "", "04", "AQID", "", "", ""]) ⟨[], updateOrder orderId (ascii "confirmed") [], got.state⟩
  pure ⟨world, got, updating⟩

/-- The client keeps version 2, is answered 3, and signs 2. -/
def Stale.signsOld (s : Stale) : Bool :=
  match s.got.prog, s.updating.made.getLast? with
  | .ret (res, _), some ⟨w, ⟨.signTransition id 2 _ _ _, _⟩⟩ =>
    res.version = 3 && id = orderId && rowVersion w.server (hex orderId) = some 3 &&
      (s.world.orderStates orderId).map OrderState.version = some 2
  | _, _ => false

/-- The run as its executions. -/
theorem run_steps : ∃ (w₀ w₁ w₃ : World) (l l' : List (Interleave.Made Browser World)) (res : OrderResponse)
    (data : Option JsObject) (y : Script (OrderResponse × JsObject)) (made : Interleave.Made Browser World)
    (blobBytes nonceBytes : Bytes) (hourBucket : UInt64),
    Session (browser market) (Beside market) ApiCall.script (World.initial noOrders) w₀ ∧
      Steps (browser market) (Beside market) (getOrder orderId) w₀ l (.ret (res, data)) w₁ ∧
      Steps (browser market) (Beside market) (updateOrder orderId (ascii "confirmed") []) w₁ l' y w₃ ∧
      made ∈ l' ∧
      made.reply.1 = .signTransition orderId 2 blobBytes nonceBytes hourBucket ∧
      res.version = 3 ∧ rowVersion made.before.server (hex orderId) = some 3 := by
  have hrun : run.any Stale.signsOld = true := by decide +kernel
  obtain ⟨s, hs, hold⟩ := Option.any_eq_true _ _ |>.mp hrun
  simp only [run, Option.bind_eq_bind, Option.bind_eq_some_iff, Option.pure_def,
    Option.some.injEq] at hs
  obtain ⟨w₀, hw₀, got, hgot, updating, hupdating, rfl⟩ := hs
  have hget := steps_of_play (beside_of_serverMove market) .refl hgot
  have hupdate := steps_of_play (beside_of_serverMove market) .refl hupdating
  unfold Stale.signsOld at hold
  split at hold
  case h_1 res data w id blobBytes nonceBytes hourBucket sig hprog hlast =>
    simp only [Bool.and_eq_true, decide_eq_true_eq] at hold
    obtain ⟨⟨⟨hres, rfl⟩, hquiet⟩, _⟩ := hold
    rw [hprog] at hget
    exact ⟨w₀, _, _, _, _, res, data, _, _, blobBytes, nonceBytes, hourBucket,
      session_of_playAll (beside_of_serverMove market) .refl hw₀, hget, hupdate,
      List.mem_of_getLast? hlast, rfl, hres, hquiet⟩
  case h_2 => exact absurd hold (by simp)

end StaleSample

open StaleSample Sample in
/-- The server holds version 3, `getOrder` has returned it, nobody has written since, and `updateOrder`
signs version 2. -/
theorem signs_old_version : ∃ (w₀ w₁ w₃ : World) (l l' : List (Interleave.Made Browser World))
    (res : OrderResponse) (data : Option JsObject) (y : Script (OrderResponse × JsObject))
    (made : Interleave.Made Browser World) (blobBytes nonceBytes : Bytes) (hourBucket : UInt64),
    Session (browser market) (Beside market) ApiCall.script (World.initial noOrders) w₀ ∧
      Steps (browser market) (Beside market) (getOrder orderId) w₀ l (.ret (res, data)) w₁ ∧
      Steps (browser market) (Beside market) (updateOrder orderId (ascii "confirmed") []) w₁ l' y w₃ ∧
      made ∈ l' ∧ made.reply.1 = .signTransition orderId 2 blobBytes nonceBytes hourBucket ∧
      rowVersion made.before.server (hex orderId) = some res.version ∧
      rowVersion made.before.server (hex orderId) ≠ some 2 := by
  obtain ⟨w₀, w₁, w₃, l, l', res, data, y, made, blobBytes, nonceBytes, hourBucket, h₀, hget, hupdate,
    hmade, hsign, hres, hquiet⟩ := run_steps
  refine ⟨w₀, w₁, w₃, l, l', res, data, y, made, blobBytes, nonceBytes, hourBucket, h₀, hget, hupdate,
    hmade, hsign, hres ▸ hquiet, ?_⟩
  rw [hquiet]
  decide

open StaleSample Sample in
/-- The condition tells this run apart. -/
theorem signs_current_iff_old : ∃ (w₀ : World) (made : Interleave.Made Browser World),
    Session (browser market) (Beside market) ApiCall.script (World.initial noOrders) w₀ ∧
      (rowVersion made.before.server (hex orderId) = some 2 ↔ Current (w₀.orderStates orderId) 3) ∧
      rowVersion made.before.server (hex orderId) = some 3 := by
  obtain ⟨w₀, w₁, w₃, l, l', res, data, y, made, blobBytes, nonceBytes, hourBucket, h₀, hget, hupdate,
    hmade, hsign, hres, hquiet⟩ := run_steps
  have hid : hexDecode orderId = some (hex orderId) := by decide +kernel
  exact ⟨w₀, made, h₀, signs_current_iff h₀ hget .refl hupdate hmade hsign hid hres hquiet, hquiet⟩

end TorMarketplace.Api
