import TorMarketplace.Proof.ClientVersions
import TorMarketplace.Proof.ReadBack

/-!
# What the client takes for funded

`getOrder` takes a pending order for funded when the server answers a version above the stored one. Every
write raises the version, so it does so as soon as anybody has replaced the stored version
(`funds_iff_replaced`), and shows funded orders only if the worker has written the funding by then
(`funded_shown_iff`).
-/

namespace TorMarketplace.Api

open Encoding Interleave Js Prog Versioned

variable {D : Deployment} {orders : OrdersTable} {g g' : System} {w w' : World}

/-! ## The server's history -/

theorem history_of_step (hstep : ServerStep D g g') : g.history <+: g'.history := by
  cases hstep with
  | spawn j => exact List.prefix_rfl
  | act pid e hact =>
    obtain ⟨j, past, c, k, a, s, _, _, rfl⟩ := act_cases hact
    exact List.prefix_append _ _

theorem history_of_beside (h : Beside D w w') : w.server.history <+: w'.server.history := by
  obtain ⟨g, hstep, rfl⟩ := h
  exact history_of_step hstep

theorem history_of_answer {c : BrowserCall} {e : Outcome} {a : c.Ans}
    (h : (browser D).answer c e w = some (a, w')) : w.server.history <+: w'.server.history := by
  rcases answer_server h with heq | hstep
  · rw [heq]
  · exact history_of_step hstep

theorem steps_history {α : Type} {x y : Script α} {l : List (Interleave.Made Browser World)}
    (h : Steps (browser D) (Beside D) x w l y w') :
    w.server.history <+: w'.server.history ∧
      ∀ made ∈ l, w.server.history <+: made.before.server.history := by
  have htrans : ∀ {w w' w'' : World}, w.server.history <+: w'.server.history →
      w'.server.history <+: w''.server.history → w.server.history <+: w''.server.history :=
    fun hle hle' => hle.trans hle'
  obtain ⟨_, hgrown, hmade⟩ := h.rel (fun w w' => w.server.history <+: w'.server.history)
    (fun _ => True) (fun _ => List.prefix_rfl) htrans
    (fun _ h => ⟨history_of_beside h, trivial⟩) (fun _ h => ⟨history_of_answer h, trivial⟩) trivial
  exact ⟨hgrown, fun made hm => (hmade made hm).1⟩

/-- One of the calls has replaced version `v` of the row. -/
def ReplacedIn (id : Bytes) (v : Int) (l : List Effect) : Prop := ∃ ev ∈ l, Replaces ev.reply id v

/-- The row has had version `v` after one of the calls. -/
def SeenIn (id : Bytes) (v : Int) (l : List Effect) : Prop :=
  ∃ ev ∈ l, ∃ o, ev.after.orders.find id = some o ∧ o.version = v

theorem SeenIn.mono {id : Bytes} {v : Int} {l l' : List Effect} (h : SeenIn id v l) (hsub : l <+: l') :
    SeenIn id v l' := by
  obtain ⟨ev, hev, hrow⟩ := h
  exact ⟨ev, hsub.subset hev, hrow⟩

section Versions

variable {id : Bytes} {v : Int}

/-- A replaced version is passed. -/
theorem passed_of_replacedIn (h : D.Reaches anyJob orders g) (hreplaced : ReplacedIn id v g.history) :
    Passed Order.version g.shared.orders.find id v := by
  obtain ⟨ev, hev, hreplaces⟩ := hreplaced
  obtain ⟨l, l', hl⟩ := List.append_of_mem hev
  obtain ⟨hcall, e, ha⟩ := h.event hev
  refine Reachable.since (K := fun s => Passed Order.version s.orders.find id v) h hl
    (hcall.passes ha hreplaces).2 fun e' he' hpassed => ?_
  obtain ⟨hcall', _, ha'⟩ := h.event (show e' ∈ g.history by simp [hl, he'])
  exact (hcall'.step ha').passed hpassed

/-- A version that the row had, and has no more, has been replaced. -/
theorem replacedIn_of_seen (h : D.Reaches anyJob orders g) (hseen : SeenIn id v g.history) {o : Order}
    (ho : g.shared.orders.find id = some o) (hv : o.version ≠ v) : ReplacedIn id v g.history := by
  obtain ⟨ev, hev, o₀, ho₀, hv₀⟩ := hseen
  obtain ⟨l, l', hl⟩ := List.append_of_mem hev
  have hkept := Reachable.since_inv (K := fun l₁ s =>
      (∃ o, s.orders.find id = some o ∧ o.version = v) ∨ ReplacedIn id v l₁) h hl (.inl ⟨o₀, ho₀, hv₀⟩) ?_
  · rcases hkept with ⟨o', ho', hv'⟩ | ⟨ev', hev', hreplaces⟩
    · obtain rfl := Option.some.inj (ho.symm.trans ho')
      exact absurd hv' hv
    · exact ⟨ev', by simp [hl, hev'], hreplaces⟩
  · rintro l₁ e l₂ rfl hcase
    rcases hcase with ⟨o', ho', hv'⟩ | ⟨ev', hev', hreplaces⟩
    · have he : e ∈ g.history := by simp [hl]
      obtain ⟨hcall, _, ha⟩ := h.event he
      rcases (hcall.step ha).some_cases ho' with ⟨⟨u, hu, hid⟩, _⟩ | ⟨_, hsame⟩
      · -- the update has found the version that it names
        obtain ⟨row, hsaw, hguard⟩ := h.guarded he hu
        obtain ⟨hbefore, _⟩ := h.replaces he hu hsaw hguard
        rw [hid] at hbefore
        obtain rfl := Option.some.inj (ho'.symm.trans hbefore)
        exact .inr ⟨e, by simp, u, hu, hid, hguard.2.2.trans (congrArg some hv')⟩
      · exact .inl ⟨o', hsame, hv'⟩
    · exact .inr ⟨ev', List.mem_append_left _ hev', hreplaces⟩

end Versions

/-! ## The versions that the client stores -/

/-- The version that is stored is that of the response. -/
def StoresAnswered (past : List (Reply Browser)) : BrowserCall → Prop
  | .saveOrderState _ st =>
    ∀ ticket res, ⟨.receive ticket, some (.order res)⟩ ∈ past → st.version = res.version
  | _ => True

section Scripts

variable {may : (c : BrowserCall) → c.Ans → Prop}

theorem createOrder_stores (c : Client) (listingId : JsString) (currency seller : Option JsString) :
    Spec may StoresAnswered (OnOk fun _ _ => True) [] (createOrder c listingId currency seller) := by
  simp only [createOrder, requestOrder, request, getWorkerPubkey, encryptWorkerOrder, bind_bind,
    spec_call_bind, spec_orFail_bind, spec_pure, onOk_ok, onOk_error, implies_true, true_and,
    StoresAnswered]
  intro _ _ _ _ _ _ _ _ _ _ _ _ _ _ _ _ received _ res hres order horder
  subst hres
  obtain rfl := orderResponse_eq horder
  refine ⟨fun ticket' res' hmem => ?_, trivial⟩
  obtain ⟨_, rfl⟩ : _ ∧ res' = order := by simpa using hmem
  rfl

theorem getOrder_storesAnswered (id : String) :
    Spec may StoresAnswered (OnOk fun _ _ => True) [] (getOrder id) := by
  simp only [getOrder, requestOrder, request, bind_bind, spec_call_bind, spec_orFail_bind, onOk_error,
    implies_true, true_and, StoresAnswered]
  intro headers _ ticket _ received _ res hres order horder saved _
  subst hres
  obtain rfl := orderResponse_eq horder
  cases saved with
  | none => trivial
  | some saved =>
    cases hcond : (decide (order.version > saved.version) && isPending saved.data) with
    | true =>
      simp only [hcond, if_true, spec_call_bind, spec_pure, onOk_ok, StoresAnswered, true_and,
        implies_true, and_true]
      intro now _ ticket' res' hmem
      obtain ⟨_, rfl⟩ : _ ∧ res' = order := by simpa using hmem
      rfl
    | false =>
      simp only [hcond, Bool.false_eq_true, if_false, spec_pure, onOk_ok]

theorem updateOrder_stores (orderId : String) (newState : JsString) (extra : JsObject) :
    Spec may StoresAnswered (OnOk fun _ _ => True) [] (updateOrder orderId newState extra) := by
  simp only [updateOrder, requestOrder, request, getWorkerPubkey, encryptWorkerOrder, bind_bind,
    spec_call_bind, spec_orFail_bind, spec_pure, onOk_ok, onOk_error, implies_true, true_and,
    StoresAnswered]
  intro _ _ _ _ _ _ _ _ _ _ _ _ _ _ _ _ _ _ _ _ _ _ _ _ _ _ received _ res hres order horder
  subst hres
  obtain rfl := orderResponse_eq horder
  refine ⟨fun ticket' res' hmem => ?_, trivial⟩
  obtain ⟨_, rfl⟩ : _ ∧ res' = order := by simpa using hmem
  rfl

theorem sendMessage_stores (orderId text : String) :
    Spec may StoresAnswered (OnOk fun _ _ => True) [] (sendMessage orderId text) := by
  simp only [sendMessage, requestChat, request, bind_bind, spec_call_bind, spec_orFail_bind, onOk_error,
    implies_true, true_and, StoresAnswered]
  intro _ _ _ _ _ _ _ _ _ _ key _ _ _ enc _
  split
  all_goals simp only [spec_call_bind, spec_orFail_bind, spec_orFail, onOk_ok,
    onOk_error, implies_true, and_true, StoresAnswered]

theorem script_stores (j : ApiCall) : Spec may StoresAnswered (OnOk fun _ _ => True) [] j.script := by
  have hdrop : ∀ {α : Type} {x : Script α}, Spec may StoresAnswered (OnOk fun _ _ => True) [] x →
      Spec may StoresAnswered (OnOk fun _ _ => True) [] (x >>= fun _ => (pure () : Script Unit)) :=
    fun hx => spec_seq_onOk hx fun _ _ _ _ => trivial
  cases j with
  | createOrder c listingId currency seller => exact hdrop (createOrder_stores c _ _ _)
  | getOrder id => exact hdrop (getOrder_storesAnswered id)
  | updateOrder orderId newState extra => exact hdrop (updateOrder_stores orderId newState extra)
  | sendMessage orderId text => exact hdrop (sendMessage_stores orderId text)

end Scripts

section Execution

variable {α : Type} {x y : Script α} {l : List (Interleave.Made Browser World)}

/-- The process that has made a response that came. -/
theorem steps_served (h : Steps (browser D) (Beside D) x w l y w') {r : Request} {ticket : Nat}
    {res : Response} (hsend : ⟨.send r, ticket⟩ ∈ l.map Made.reply)
    (hreceive : ⟨.receive ticket, some res⟩ ∈ l.map Made.reply) :
    ∃ p, w'.server.procs[ticket]? = some p ∧ p.job = .request r ∧ p.prog.result = some (.ok res) := by
  obtain ⟨sent, hsent, hreply⟩ := List.mem_map.mp hsend
  obtain ⟨received, hreceived, hreply'⟩ := List.mem_map.mp hreceive
  have hjob := steps_kept h sent hsent
  have hdone := steps_kept h received hreceived
  rw [hreply] at hjob
  rw [hreply'] at hdone
  obtain ⟨p, hp, hjob⟩ := hjob
  obtain ⟨p', hp', hres⟩ := hdone
  obtain rfl := Option.some.inj (hp.symm.trans hp')
  exact ⟨p, hp, hjob, hres⟩

/-- The read that a response to `getOrder` is made from. -/
theorem read_of_getOrder (hw : D.Reaches anyJob orders g) {ticket : Nat} {p : Process} {b : Bytes}
    {headers : AuthHeaders} {res : OrderResponse} (hp : g.procs[ticket]? = some p)
    (hjob : p.job = .request ⟨.get, "/orders/" ++ hexEncode b, headers, .empty⟩)
    (hres : p.prog.result = some (.ok (.order res))) :
    ∃ row, row.id = b ∧ res.version = row.version ∧ ∃ read ∈ g.history, read.pid = ticket ∧
      read.reply = ⟨.selectOrder row.id, some (some row)⟩ ∧ read.after = read.before ∧
      read.before.orders.find row.id = some row := by
  obtain ⟨target, htarget, hby⟩ := answered_of_done hw (List.mem_of_getElem? hp) hjob hres
  obtain rfl := route_getOrder b htarget
  obtain ⟨row, hrow, hread, hversion⟩ := hby
  obtain rfl : b = row.id := Option.some.inj ((hexDecode_hexEncode b).symm.trans hrow)
  obtain ⟨read, hmem, hpid, hreply⟩ := Reachable.event_of_past hw hp hread
  obtain ⟨_, e, ha⟩ := hw.event hmem
  rw [hreply] at ha
  obtain ⟨hafter, hfind, _⟩ := answer_reads ha (.inl rfl)
  exact ⟨row, rfl, hversion, read, hmem, hpid, hreply, hafter, hfind⟩

/-- The version of a response that is saved is one that the row has had. -/
theorem seen_of_saved (hw : D.Reaches anyJob orders w'.server)
    (h : Steps (browser D) (Beside D) x w l y w') {b : Bytes} {v : Int}
    (hfrom : SavedFrom (l.map Made.reply) (hexEncode b))
    (hversion : ∀ ticket res, ⟨.receive ticket, some (.order res)⟩ ∈ l.map Made.reply → v = res.version) :
    SeenIn b v w'.server.history := by
  rcases hfrom with ⟨headers, ticket, res, saved, hsend, hreceive, _, _⟩ |
    ⟨headers, ticket, res, body, saved, _, hsend, hreceive⟩ |
    ⟨headers, ticket, res, body, hsend, hreceive, hid⟩
  · obtain rfl := hversion ticket res hreceive
    obtain ⟨p, hp, hjob, hres⟩ := steps_served h hsend hreceive
    obtain ⟨row, rfl, hv, read, hread, _, _, hafter, hfind⟩ := read_of_getOrder hw hp hjob hres
    exact ⟨read, hread, row, hafter ▸ hfind, hv.symm⟩
  · obtain rfl := hversion ticket res hreceive
    obtain ⟨p, hp, hjob, hres⟩ := steps_served h hsend hreceive
    obtain ⟨target, htarget, _⟩ := answered_of_done hw (List.mem_of_getElem? hp) hjob hres
    obtain rfl := route_updateOrder b htarget
    obtain ⟨ev, hev, _, hannounced⟩ := hw.wroteOnce hp hjob htarget rfl hres
    generalize hreply : ev.reply = reply at hannounced
    cases hannounced with
    | @updated _ text row blob n hrow hread _ hn =>
      obtain rfl : b = row.id := Option.some.inj ((hexDecode_hexEncode b).symm.trans hrow)
      obtain ⟨_, hafter⟩ := hw.updated hp hread hev hreply hn rfl rfl
      exact ⟨ev, hev, _, hafter, UpdateOrders.set_version rfl row⟩
  · obtain rfl := hversion ticket res hreceive
    obtain ⟨p, hp, hjob, hres⟩ := steps_served h hsend hreceive
    obtain ⟨ev, hev, _, hannounced⟩ := hw.wroteOnce hp hjob route_createOrder rfl hres
    generalize hreply : ev.reply = reply at hannounced
    cases hannounced with
    | @created i text _ =>
      obtain rfl := hexEncode_inj hid
      exact ⟨ev, hev, _, hw.inserted hev hreply, rfl⟩

/-- **What the client stores of an order is a version that the order has had.** -/
def Seen (w : World) : Prop :=
  ∀ b st, w.orderStates (hexEncode b) = some st → SeenIn b st.version w.server.history

theorem steps_seen {R R' : List (Reply Browser) → α → Prop} (hw : D.Reaches anyJob orders w.server)
    (hx : Spec (browser D).May ScriptCall (OnOk R) [] x)
    (hx' : Spec (browser D).May StoresAnswered (OnOk R') [] x)
    (h : Steps (browser D) (Beside D) x w l y w') (hseen : Seen w) : Seen w' := by
  induction h with
  | refl => exact hseen
  | env h hbeside ih =>
    have hgrown := history_of_beside hbeside
    obtain ⟨g, _, rfl⟩ := hbeside
    exact fun b st hst => (ih b st hst).mono hgrown
  | @act l c k a w₁ w₂ e h ha ih =>
    have hgrown := history_of_answer ha
    intro b st hst
    rw [answer_store ha] at hst
    cases c with
    | saveOrderState id st' =>
      by_cases hid : hexEncode b = id
      · subst hid
        rw [store, Function.update_self] at hst
        obtain rfl := Option.some.inj hst
        have hfrom : SavedFrom (l.map Made.reply) (hexEncode b) := (h.spec hx).1.1
        exact (seen_of_saved (steps_later hw h).1 h hfrom (h.spec hx').1.1).mono hgrown
      · rw [store, Function.update_of_ne hid] at hst
        exact (ih b st hst).mono hgrown
    | _ => exact (ih b st hst).mono hgrown

end Execution

theorem session_seen (hw : D.Reaches anyJob orders w.server)
    (h : Session (browser D) (Beside D) ApiCall.script w w') (hseen : Seen w) : Seen w' := by
  induction h with
  | refl => exact hseen
  | env _ hbeside ih =>
    have hgrown := history_of_beside hbeside
    obtain ⟨g, _, rfl⟩ := hbeside
    exact fun b st hst => (ih b st hst).mono hgrown
  | call j h hx ih =>
    exact steps_seen (session_later hw h).1 (script_spec j) (script_stores j) hx ih

/-! ## When `getOrder` takes an order for funded -/

/-- `data.state === 'funded'`. -/
def isFunded (data : JsObject) : Bool :=
  (data.get (ascii "state")).any fun v => match v.val with
    | .str s => s = ascii "funded"
    | _ => false

theorem not_pending_of_funded {data : JsObject} (h : isFunded data = true) : isPending data = false := by
  unfold isFunded at h
  unfold isPending
  cases hget : data.get (ascii "state") with
  | none => rfl
  | some v =>
    rw [hget, Option.any_some] at h
    rw [Option.any_some]
    split at h
    · rename_i s hs
      obtain rfl := of_decide_eq_true h
      have hother : ascii "funded" ≠ ascii "pending" := by decide +kernel
      simp [hs, hother]
    · exact absurd h (by simp)

/-- What `getOrder` saves is funded. -/
def SavesFunded : BrowserCall → Prop
  | .saveOrderState _ st => isFunded st.data = true
  | _ => True

theorem getOrder_savesFunded (id : String) {may : (c : BrowserCall) → c.Ans → Prop} :
    Spec may (fun _ c => SavesFunded c) (OnOk fun _ _ => True) [] (getOrder id) := by
  simp only [getOrder, requestOrder, request, bind_bind, spec_call_bind, spec_orFail_bind, onOk_error,
    implies_true, true_and, SavesFunded]
  intro headers _ ticket _ received _ res _ order _ saved _
  cases saved with
  | none => trivial
  | some saved =>
    cases hcond : (decide (order.version > saved.version) && isPending saved.data) with
    | true =>
      simp only [hcond, if_true, spec_call_bind, spec_pure, onOk_ok, true_and, implies_true,
        and_true]
      intro now _
      have hother : ascii "state" ≠ ascii "funded_at" := by decide +kernel
      rw [isFunded, JsObject.get_assign, if_neg hother, JsObject.get_assign, if_pos rfl]
      simp [str]
    | false =>
      simp only [hcond, Bool.false_eq_true, if_false, spec_pure, onOk_ok]

/-- The record is pending before and funded after. -/
def ShowsFunded (saved saved' : Option OrderState) : Prop :=
  saved.any (fun st => isPending st.data) = true ∧ saved'.any (fun st => isFunded st.data) = true

section GetOrder

variable {id : String} {l : List (Interleave.Made Browser World)} {res : OrderResponse}
variable {data : Option JsObject}

/-- `getOrder` shows the order as funded exactly when it takes it for funded. -/
theorem shows_iff_funds (h : Steps (browser D) (Beside D) (getOrder id) w l (.ret (res, data)) w') :
    ShowsFunded (w.orderStates id) (w'.orderStates id) ↔ Funds (w.orderStates id) res.version := by
  obtain ⟨headers, ticket, saved, rest, hl, hrest⟩ := (h.spec (getOrder_script id)).1
  have hsaved : saved = w.orderStates id := read_of_steps h [_, _, _] hl
  have hstates := steps_store h
  rw [hl] at hstates
  subst hsaved
  rcases hrest with ⟨hfunds, rfl⟩ | ⟨hfunds, now, data, rfl⟩
  · have hkept : w'.orderStates id = w.orderStates id := congrFun hstates id
    refine iff_of_false (fun ⟨hpending, hfunded⟩ => ?_) hfunds
    rw [hkept] at hfunded
    obtain ⟨st, hst, hfunded⟩ := (Option.any_eq_true _ _).mp hfunded
    obtain ⟨st', hst', hpending⟩ := (Option.any_eq_true _ _).mp hpending
    obtain rfl := Option.some.inj (hst.symm.trans hst')
    exact absurd hpending (by simp [not_pending_of_funded hfunded])
  · refine iff_of_true ⟨?_, ?_⟩ hfunds
    · obtain ⟨st, hst, _, hpending⟩ := hfunds
      rw [hst]
      exact hpending
    · have hstored : w'.orderStates id = some ⟨data, res.version⟩ :=
        (congrFun hstates id).trans (Function.update_self ..)
      have hmem : ⟨.saveOrderState id ⟨data, res.version⟩, ()⟩ ∈ l.map Made.reply := by simp [hl]
      obtain ⟨made, hmade, hreply⟩ := List.mem_map.mp hmem
      obtain ⟨l₁, l₂, rfl⟩ := List.append_of_mem hmade
      have hsaves := (h.spec (getOrder_savesFunded id)).2 l₁ made l₂ rfl
      rw [hreply] at hsaves
      rw [hstored]
      exact hsaves

/-- The read that `getOrder` is answered from is made after the script has begun. -/
theorem history_before_read (hw : D.Reaches anyJob orders w.server) {α : Type} {x y : Script α}
    (h : Steps (browser D) (Beside D) x w l y w') {r : Request} {read : Effect}
    {before after : List Effect} (hsend : ⟨.send r, read.pid⟩ ∈ l.map Made.reply)
    (hl : w'.server.history = before ++ read :: after) : w.server.history <+: before := by
  obtain ⟨sent, hsent, hreply⟩ := List.mem_map.mp hsend
  have hnew : read ∉ w.server.history := by
    intro hmem
    have hlt := Reachable.pid_lt hw read hmem
    obtain ⟨p, hp, _⟩ := ((steps_later hw h).2.2 sent hsent).1.procs (List.getElem?_eq_getElem hlt)
    obtain ⟨e, w'', ha⟩ := h.answered hsent
    rw [hreply] at ha
    obtain ⟨hticket, _⟩ := Prod.mk.inj (Option.some.inj ha)
    have hlt' := (List.getElem?_eq_some_iff.mp hp).1
    change sent.before.server.procs.length = read.pid at hticket
    omega
  have hgrown := (steps_history h).1
  have hread : before ++ [read] <+: w'.server.history := ⟨after, by simp [hl]⟩
  rcases List.prefix_or_prefix_of_prefix hgrown hread with hle | hle
  · rcases List.prefix_concat_iff.mp hle with heq | hle
    · exact absurd (heq ▸ List.mem_append_right _ (List.mem_singleton_self _)) hnew
    · exact hle
  · exact absurd (hle.subset (List.mem_append_right _ (List.mem_singleton_self _))) hnew

/-- The call is the worker's funded write of the order: it has replaced a pending content by a funded
one. -/
def FundedWrite (D : Deployment) (id : Bytes) (ev : Effect) : Prop :=
  ev.job = .checkPendingPayments ∧ (∃ u, effectiveUpdate ev.reply = some u ∧ u.whereId = id) ∧
    (∃ o d, ev.before.orders.find id = some o ∧ decodeOrder D.prim D.workerKey o = some d ∧
      d.state = "pending") ∧
    ∃ o d, ev.after.orders.find id = some o ∧ decodeOrder D.prim D.workerKey o = some d ∧
      d.state = "funded"

/-- The worker has committed its funded write of the order. -/
def FundedIn (D : Deployment) (id : Bytes) (l : List Effect) : Prop := ∃ ev ∈ l, FundedWrite D id ev

/-- **`getOrder` takes an order for funded exactly if anybody has replaced the version that the client
stores**, by the time at which the server has read it. -/
theorem funds_iff_replaced {w₀ w₁ : World}
    (h₀ : Session (browser D) (Beside D) ApiCall.script (World.initial orders) w₀)
    (hget : Steps (browser D) (Beside D) (getOrder id) w₀ l (.ret (res, data)) w₁) {saved : OrderState}
    (hsaved : w₀.orderStates id = some saved) :
    ∃ idBytes headers before read after, hexDecode id = some idBytes ∧
      w₁.server.history = before ++ read :: after ∧
      ⟨.send ⟨.get, "/orders/" ++ id, headers, .empty⟩, read.pid⟩ ∈ l.map Made.reply ∧
      read.reply.1 = .selectOrder idBytes ∧
      (Funds (w₀.orderStates id) res.version ↔
        isPending saved.data = true ∧ ReplacedIn idBytes saved.version before) := by
  have hinit : D.Reaches anyJob orders (World.initial orders).server := .init
  obtain ⟨hw₀, _⟩ := session_later hinit h₀
  obtain ⟨hw₁, _, _⟩ := steps_later hw₀ hget
  have hkeys : HexKeys w₀ := session_hexKeys hinit h₀ fun _ h => absurd rfl h
  have hseen : Seen w₀ := session_seen hinit h₀ fun _ _ h => by cases h
  obtain ⟨b, rfl⟩ := hkeys id (by rw [hsaved]; simp)
  obtain ⟨headers, ticket, saved', rest, hl, _⟩ := (hget.spec (getOrder_script _)).1
  have hsend : ⟨.send ⟨.get, "/orders/" ++ hexEncode b, headers, .empty⟩, ticket⟩ ∈
      l.map Made.reply := by rw [hl]; simp
  have hreceive : ⟨.receive ticket, some (.order res)⟩ ∈ l.map Made.reply := by rw [hl]; simp
  obtain ⟨p, hp, hjob, hres⟩ := steps_served hget hsend hreceive
  obtain ⟨row, rfl, hversion, read, hread, rfl, hreply, _, hfind⟩ := read_of_getOrder hw₁ hp hjob hres
  obtain ⟨before, after, hsplit⟩ := List.append_of_mem hread
  refine ⟨row.id, headers, before, read, after, hexDecode_hexEncode _, hsplit, hsend, by rw [hreply], ?_⟩
  obtain ⟨g₀, hg₀, hhistory, hshared, _⟩ := Reachable.upTo hw₁ hsplit
  have hbegan : w₀.server.history <+: g₀.history :=
    hhistory ▸ history_before_read hw₀ hget hsend hsplit
  have hrow : g₀.shared.orders.find row.id = some row := hshared ▸ hfind
  -- the version is above the stored one exactly if that one has been replaced
  have hreplaced : saved.version < row.version ↔ ReplacedIn row.id saved.version before := by
    rw [← hhistory]
    constructor
    · intro hlt
      exact replacedIn_of_seen hg₀ ((hseen row.id saved hsaved).mono hbegan) hrow (by omega)
    · intro hreplaced
      obtain ⟨o, ho, hlt⟩ := passed_of_replacedIn hg₀ hreplaced
      obtain rfl := Option.some.inj (hrow.symm.trans ho)
      exact hlt
  rw [← hreplaced, ← hversion]
  constructor
  · rintro ⟨st, hst, hlt, hpending⟩
    obtain rfl := Option.some.inj (hst.symm.trans hsaved)
    exact ⟨hpending, hlt⟩
  · rintro ⟨hpending, hlt⟩
    exact ⟨saved, hsaved, hlt, hpending⟩

/-- **The client shows an order as funded only if it is**, exactly if whoever has replaced the version that
the client stores of a pending order, the worker's funded write has come by then. -/
theorem funded_shown_iff {w₀ w₁ : World}
    (h₀ : Session (browser D) (Beside D) ApiCall.script (World.initial orders) w₀)
    (hget : Steps (browser D) (Beside D) (getOrder id) w₀ l (.ret (res, data)) w₁) {saved : OrderState}
    (hsaved : w₀.orderStates id = some saved) :
    ∃ idBytes headers before read after, hexDecode id = some idBytes ∧
      w₁.server.history = before ++ read :: after ∧
      ⟨.send ⟨.get, "/orders/" ++ id, headers, .empty⟩, read.pid⟩ ∈ l.map Made.reply ∧
      read.reply.1 = .selectOrder idBytes ∧
      ((ShowsFunded (w₀.orderStates id) (w₁.orderStates id) → FundedIn D idBytes before) ↔
        (isPending saved.data = true → ReplacedIn idBytes saved.version before →
          FundedIn D idBytes before)) := by
  obtain ⟨idBytes, headers, before, read, after, hid, hsplit, hsend, hreply, hfunds⟩ :=
    funds_iff_replaced h₀ hget hsaved
  refine ⟨idBytes, headers, before, read, after, hid, hsplit, hsend, hreply, ?_⟩
  rw [shows_iff_funds hget, hfunds, and_imp]

end GetOrder

/-! ### A chat message -/

namespace StaleSample

open Sample

/-- The order is made, a message is written to it, and the client gets the order. -/
def chatRun : Option (World × Under Browser World String (OrderResponse × Option JsObject)) := do
  let world ← playAll (browser market) (serverMove market) ApiCall.script (before.take 1)
    (World.initial noOrders)
  let got ← play (browser market) (serverMove market)
    (sends firstGet ++ serves 2 4 ++ calls ["", "", "", ""]) ⟨[], getOrder orderId, world⟩
  pure (world, got)

/-- The order is pending before and funded after, and the worker has made no call. -/
def showsUnpaid (r : World × Under Browser World String (OrderResponse × Option JsObject)) : Bool :=
  (match r.2.prog with
    | .ret _ => true
    | _ => false) &&
  (r.1.orderStates orderId).any (fun st => isPending st.data) &&
  (r.2.state.orderStates orderId).any (fun st => isFunded st.data) &&
  r.2.state.server.history.all fun ev => !ev.job.isWorker

theorem chatRun_shows : chatRun.any showsUnpaid = true := by decide +kernel

/-- The run as its executions. -/
theorem chatRun_steps : ∃ (w₀ w₁ : World) (l : List (Interleave.Made Browser World)) (res : OrderResponse)
    (data : Option JsObject) (saved : OrderState),
    Session (browser market) (Beside market) ApiCall.script (World.initial noOrders) w₀ ∧
      Steps (browser market) (Beside market) (getOrder orderId) w₀ l (.ret (res, data)) w₁ ∧
      w₀.orderStates orderId = some saved ∧
      ShowsFunded (w₀.orderStates orderId) (w₁.orderStates orderId) ∧
      ∀ ev ∈ w₁.server.history, ev.job.isWorker = false := by
  obtain ⟨⟨w₀, got⟩, hrun, hshows⟩ := (Option.any_eq_true _ _).mp chatRun_shows
  simp only [chatRun, Option.bind_eq_bind, Option.bind_eq_some_iff, Option.pure_def,
    Option.some.injEq, Prod.mk.injEq] at hrun
  obtain ⟨_, hw₀, _, hgot, rfl, rfl⟩ := hrun
  have hget := steps_of_play (beside_of_serverMove market) .refl hgot
  simp only [showsUnpaid, Bool.and_eq_true, List.all_eq_true, Bool.not_eq_true'] at hshows
  obtain ⟨⟨⟨hprog, hpending⟩, hfunded⟩, hjobs⟩ := hshows
  split at hprog
  · rename_i r hret
    obtain ⟨res, data⟩ := r
    rw [hret] at hget
    obtain ⟨saved, hsaved, _⟩ := (Option.any_eq_true _ _).mp hpending
    exact ⟨_, _, _, res, data, saved, session_of_playAll (beside_of_serverMove market) .refl hw₀, hget, hsaved,
      ⟨hpending, hfunded⟩, hjobs⟩
  · exact absurd hprog (by simp)

end StaleSample

open StaleSample Sample in
/-- The condition tells this run apart. -/
theorem funded_shown_iff_chat : ∃ (w₀ : World) (saved : OrderState) (before : List Effect),
    Session (browser market) (Beside market) ApiCall.script (World.initial noOrders) w₀ ∧
      w₀.orderStates orderId = some saved ∧
      ∃ (idBytes : Bytes) (w₁ : World),
        (ShowsFunded (w₀.orderStates orderId) (w₁.orderStates orderId) → FundedIn market idBytes before) ↔
        (isPending saved.data = true → ReplacedIn idBytes saved.version before →
          FundedIn market idBytes before) := by
  obtain ⟨w₀, w₁, l, res, data, saved, h₀, hget, hsaved, _, _⟩ := chatRun_steps
  obtain ⟨idBytes, _, before, _, _, _, _, _, _, hiff⟩ := funded_shown_iff h₀ hget hsaved
  exact ⟨w₀, saved, before, h₀, hsaved, idBytes, w₁, hiff⟩

open StaleSample Sample in
/-- **A chat message makes the client take the order for funded**: the worker has not made a call. -/
theorem unpaid_shown_funded : ∃ (w₀ w₁ : World) (l : List (Interleave.Made Browser World))
    (res : OrderResponse) (data : Option JsObject),
    Session (browser market) (Beside market) ApiCall.script (World.initial noOrders) w₀ ∧
      Steps (browser market) (Beside market) (getOrder orderId) w₀ l (.ret (res, data)) w₁ ∧
      ShowsFunded (w₀.orderStates orderId) (w₁.orderStates orderId) ∧
      ¬ ∃ idBytes, FundedIn market idBytes w₁.server.history := by
  obtain ⟨w₀, w₁, l, res, data, saved, h₀, hget, hsaved, hshows, hjobs⟩ := chatRun_steps
  refine ⟨w₀, w₁, l, res, data, h₀, hget, hshows, ?_⟩
  rintro ⟨idBytes, ev, hev, hjob, _⟩
  exact absurd (hjobs ev hev) (by simp [hjob, Job.isWorker])

end TorMarketplace.Api
