import TorMarketplace.Proof.AdminTokens
import TorMarketplace.Proof.TimeLocks

/-!
# Disputes

A dispute is stored twice: in the columns `has_dispute` and `dispute_client_blob`, which three handlers
write without looking at the flag, and in the order's content, which the worker moves without looking
at the columns. `dispute_step` says what a call can do to the columns of a row. When the handlers are
called as the flag has it, the columns follow the lifecycle of a dispute (`dispute_lifecycle`). The
timer does not know of an admin's resolution (`resolutions_hold`), and the clients do not see the
disputes that it opens itself (`disputes_visible`).
-/

namespace TorMarketplace

open Encoding Interleave Prog

/-! ## The three handlers -/

/-- The handlers that write the dispute of an order. -/
inductive DisputeOp where
  | opens
  | updates
  | resolves
  deriving DecidableEq

def Route.disputeOp : Route → Option DisputeOp
  | .openDispute => some .opens
  | .updateDispute _ => some .updates
  | .resolveDispute _ => some .resolves
  | _ => none

/-- The flag of a row that the operation is meant for. -/
def DisputeOp.expects : DisputeOp → Int64
  | .opens => 0
  | .updates => 1
  | .resolves => 1

/-- The flag that the operation leaves. -/
def DisputeOp.leaves (flag : Int64) : DisputeOp → Int64
  | .opens => 1
  | .updates => flag
  | .resolves => 0

/-- The call is the `UPDATE` with which a request has replaced the dispute blob of `row` by `blob`. -/
structure Did (ev : Effect) (op : DisputeOp) (row : Order) (blob : Bytes) : Prop where
  request : ∃ r target u, ev.job = .request r ∧ route r.method r.path = some target ∧
    target.disputeOp = some op ∧ r.body.blob = some blob ∧ target.update row blob = some u ∧
    effectiveUpdate ev.reply = some u
  before : ev.before.orders.find row.id = some row

theorem Route.update_guardedBy {target : Route} {row : Order} {blob : Bytes} {u : UpdateOrders}
    (h : target.update row blob = some u) : u.GuardedBy row := by
  cases target
  case updateOrder => exact Option.some.inj h ▸ ⟨rfl, rfl, rfl⟩
  case openDispute => exact Option.some.inj h ▸ ⟨rfl, rfl, rfl⟩
  case updateDispute => exact Option.some.inj h ▸ ⟨rfl, rfl, rfl⟩
  case resolveDispute => exact Option.some.inj h ▸ ⟨rfl, rfl, rfl⟩
  case updateChat => exact Option.some.inj h ▸ ⟨rfl, rfl, rfl⟩
  all_goals exact absurd h (by simp [Route.update])

/-- What a handler's `UPDATE` does to the dispute columns. -/
theorem Route.update_dispute {target : Route} {row : Order} {blob : Bytes} {u : UpdateOrders}
    (h : target.update row blob = some u) :
    (∃ op, target.disputeOp = some op ∧ (u.set row).disputeClientBlob = some blob ∧
      (u.set row).hasDispute = op.leaves row.hasDispute) ∨
    (target.disputeOp = none ∧ u.disputeClientBlob = none ∧ u.hasDispute = none) := by
  cases target
  case updateOrder => exact Option.some.inj h ▸ .inr ⟨rfl, rfl, rfl⟩
  case openDispute => exact Option.some.inj h ▸ .inl ⟨_, rfl, rfl, rfl⟩
  case updateDispute => exact Option.some.inj h ▸ .inl ⟨_, rfl, rfl, rfl⟩
  case resolveDispute => exact Option.some.inj h ▸ .inl ⟨_, rfl, rfl, rfl⟩
  case updateChat => exact Option.some.inj h ▸ .inr ⟨rfl, rfl, rfl⟩
  all_goals exact absurd h (by simp [Route.update])

theorem Did.updates {ev : Effect} {op : DisputeOp} {row : Order} {blob : Bytes}
    (h : Did ev op row blob) : updatesRow row.id ev.reply = true := by
  obtain ⟨_, _, u, _, _, _, _, hupd, hu⟩ := h.request
  exact updatesRow_iff.mpr ⟨u, hu, (Route.update_guardedBy hupd).2.1⟩

/-- Each handler that updates an order has done so when it succeeds. -/
theorem HandlerDone.effective {st : AppState} {headers : AuthHeaders} {past : Past} {target : Route}
    {body : Body} {text : String} (h : HandlerDone st headers past target body)
    (htext : target.orderText body = some text) :
    ∃ u n, n ≠ 0 ∧ (⟨.updateOrders u, some n⟩ : Reply Server) ∈ past := by
  unfold Route.orderText at htext
  split at htext
  · obtain ⟨_, _, _, _, _, _, u, _, hdone⟩ := h
    exact ⟨u, hdone.effective⟩
  · obtain ⟨_, _, _, _, u, _, hwrote⟩ := h
    exact ⟨u, hwrote.effective⟩
  · obtain ⟨_, _, _, _, u, _, hwrote⟩ := h
    exact ⟨u, hwrote.effective⟩
  · obtain ⟨_, _, _, _, u, _, _, hwrote⟩ := h
    exact ⟨u, hwrote.effective⟩
  · obtain ⟨_, _, _, _, u, _, hwrote⟩ := h
    exact ⟨u, hwrote.effective⟩
  · exact absurd htext (by simp)

section Reaches

variable {D : Deployment} {allow : System → Job → Prop} {orders : OrdersTable} {g : System}

/-- A request's update is that of its handler, made of the row it has read. -/
theorem Deployment.Reaches.requestUpdate (h : D.Reaches allow orders g) {ev : Effect}
    (hev : ev ∈ g.history) {r : Request} (hjob : ev.job = .request r) {u : UpdateOrders}
    (hu : effectiveUpdate ev.reply = some u) :
    ∃ target row blob, route r.method r.path = some target ∧
      (target.orderText r.body).bind hexDecode = some row.id ∧ r.body.blob = some blob ∧
      target.update row blob = some u ∧
      (⟨.selectOrder row.id, some (some row)⟩ : Reply Server) ∈ ev.past ∧
      ev.before.orders.find u.whereId = some row ∧ ev.after.orders.find u.whereId = some (u.set row) := by
  have hcall := h.statement hev
  rw [hjob] at hcall
  obtain ⟨n, _, hreply⟩ := effectiveUpdate_eq_some.mp hu
  rw [hreply] at hcall
  obtain ⟨target, hroute, row, blob, hread, hid, hblob, hupd⟩ := hcall
  obtain ⟨hbefore, hafter⟩ := h.replaces hev hu (.row hread) (Route.update_guardedBy hupd)
  exact ⟨target, row, blob, hroute, hid, hblob, hupd, hread, hbefore, hafter⟩

/-- The worker leaves the dispute columns alone. -/
theorem Deployment.Reaches.leavesDispute (h : D.Reaches allow orders g) {ev : Effect}
    (hev : ev ∈ g.history) (hjob : ∀ r, ev.job ≠ .request r) {u : UpdateOrders}
    (hu : effectiveUpdate ev.reply = some u) : u.disputeClientBlob = none ∧ u.hasDispute = none := by
  have hcall := h.statement hev
  obtain ⟨pid, j, past, reply, before, after⟩ := ev
  obtain ⟨n, _, rfl⟩ := effectiveUpdate_eq_some.mp hu
  cases j with
  | request r => exact absurd rfl (hjob r)
  | checkPendingPayments => exact ⟨hcall.2.1, hcall.2.2.1⟩
  | checkTimeLocks =>
    obtain ⟨_, _, _, _, _, _, _, _, _, _, _, rfl⟩ := hcall
    exact ⟨rfl, rfl⟩
  | scanNotifications =>
    obtain ⟨_, _, _, _, _, hwrite⟩ := hcall
    obtain rfl := hwrite.statement
    exact ⟨rfl, rfl⟩
  | runDummyWorker => exact hcall.elim
  | restartApi => exact Call.noConfusion hcall
  | restartWorker => exact Call.noConfusion hcall

/-- Only requests and the worker update orders. -/
theorem Deployment.Reaches.worker_of_update (h : D.Reaches allow orders g) {ev : Effect}
    (hev : ev ∈ g.history) (hjob : ∀ r, ev.job ≠ .request r) {u : UpdateOrders}
    (hu : effectiveUpdate ev.reply = some u) : ev.job.isWorker = true := by
  have hcall := h.statement hev
  obtain ⟨pid, j, past, reply, before, after⟩ := ev
  obtain ⟨n, _, rfl⟩ := effectiveUpdate_eq_some.mp hu
  cases j with
  | request r => exact absurd rfl (hjob r)
  | restartApi => exact Call.noConfusion hcall
  | restartWorker => exact Call.noConfusion hcall
  | _ => rfl

/-- The dispute columns of a row. -/
def SameDispute (o o' : Order) : Prop :=
  o'.disputeClientBlob = o.disputeClientBlob ∧ o'.hasDispute = o.hasDispute

theorem sameDispute_set {u : UpdateOrders} (h : u.disputeClientBlob = none ∧ u.hasDispute = none)
    (o : Order) : SameDispute o (u.set o) := by
  simp [SameDispute, UpdateOrders.set, h.1, h.2]

/-- **What a call does to the dispute of a row**: one of the operations on it, or nothing. -/
theorem Deployment.Reaches.dispute_step (h : D.Reaches allow orders g) {ev : Effect}
    (hev : ev ∈ g.history) {id : Bytes} {o : Order} (ho : ev.before.orders.find id = some o) :
    ∃ o', ev.after.orders.find id = some o' ∧
      ((∃ op blob, Did ev op o blob ∧ o'.disputeClientBlob = some blob ∧
        o'.hasDispute = op.leaves o.hasDispute) ∨ SameDispute o o') := by
  obtain ⟨hcall, _, ha⟩ := h.event hev
  rcases (hcall.step ha).some_cases ho with ⟨⟨u, hu, rfl⟩, _⟩ | ⟨_, hsame⟩
  · by_cases hjob : ∃ r, ev.job = .request r
    · obtain ⟨r, hjob⟩ := hjob
      obtain ⟨target, row, blob, hroute, _, hblob, hupd, _, hbefore, hafter⟩ :=
        h.requestUpdate hev hjob hu
      obtain rfl := Option.some.inj (ho.symm.trans hbefore)
      refine ⟨u.set o, hafter, ?_⟩
      rcases Route.update_dispute hupd with ⟨op, hop, hclient, hflag⟩ | ⟨_, hnone⟩
      · have hid : u.whereId = o.id := (Route.update_guardedBy hupd).2.1
        exact .inl ⟨op, blob, ⟨⟨r, target, u, hjob, hroute, hop, hblob, hupd, hu⟩, hid ▸ ho⟩,
          hclient, hflag⟩
      · exact .inr (sameDispute_set hnone o)
    · obtain ⟨o₁, hsaw, hg⟩ := h.guarded hev hu
      obtain ⟨hbefore, hafter⟩ := h.replaces hev hu hsaw hg
      obtain rfl := Option.some.inj (ho.symm.trans hbefore)
      exact ⟨u.set o, hafter, .inr (sameDispute_set
        (h.leavesDispute hev (fun r hr => hjob ⟨r, hr⟩) hu) o)⟩
  · exact ⟨o, hsame, .inr ⟨rfl, rfl⟩⟩

/-- What an operation has done. -/
theorem Deployment.Reaches.did_after (h : D.Reaches allow orders g) {ev : Effect}
    (hev : ev ∈ g.history) {op : DisputeOp} {row : Order} {blob : Bytes} (hdid : Did ev op row blob) :
    ∃ o, ev.after.orders.find row.id = some o ∧ o.disputeClientBlob = some blob ∧
      o.hasDispute = op.leaves row.hasDispute := by
  obtain ⟨r, target, u, hjob, _, hop, _, hupd, hu⟩ := hdid.request
  obtain ⟨_, row', _, _, _, _, _, _, hbefore, hafter⟩ := h.requestUpdate hev hjob hu
  have hid : u.whereId = row.id := (Route.update_guardedBy hupd).2.1
  rw [hid] at hbefore hafter
  obtain rfl := Option.some.inj (hbefore.symm.trans hdid.before)
  rcases Route.update_dispute hupd with ⟨op', hop', hclient, hflag⟩ | ⟨hnone, _⟩
  · obtain rfl := Option.some.inj (hop'.symm.trans hop)
    exact ⟨_, hafter, hclient, hflag⟩
  · exact absurd (hnone.symm.trans hop) (by simp)

/-- A handler of disputes that succeeds was given its own body. -/
theorem handle_body (st : AppState) (auth : Option Authed) (target : Route) (body : Body)
    (past : Past) :
    Spec server.May (fun _ _ => True)
      (OnOk fun _ _ => target.disputeOp = none ∨ ∃ text, target.orderText body = some text) past
      (handle st auth target body) := by
  have hdone : ∀ {x : Program Response},
      (target.disputeOp = none ∨ ∃ text, target.orderText body = some text) →
        Spec server.May (fun _ _ => True)
          (OnOk fun _ _ => target.disputeOp = none ∨ ∃ text, target.orderText body = some text) past x :=
    fun h => spec_of_forall (fun _ _ => trivial) fun _ r => by
      cases r with
      | ok _ => exact h
      | error _ => trivial
  unfold handle
  split
  all_goals first
    | exact hdone (.inl rfl)
    | exact hdone (.inr ⟨_, rfl⟩)
    | simp

theorem Deployment.Reaches.succeeded_body (h : D.Reaches allow orders g) {pid : Nat} {p : Process}
    {r : Request} (hs : Succeeded g pid p r) {target : Route}
    (hroute : route r.method r.path = some target) {op : DisputeOp}
    (hop : target.disputeOp = some op) : ∃ text, target.orderText r.body = some text := by
  have hbody : ∀ j, Spec server.May (fun _ _ => True)
      (OnOk fun _ _ => j = Job.request r → ∃ text, target.orderText r.body = some text) []
      (D.program j) := by
    intro j
    by_cases hj : j = .request r
    · subst hj
      refine spec_seq_onOk spec_trivial fun past auth _ _ => ?_
      simp only [spec_call_bind, spec_ensure_bind, spec_orFail_bind, onOk_error, implies_true, true_and]
      intro _ _ _ target' htarget
      obtain rfl := Option.some.inj (htarget.symm.trans hroute)
      refine spec_mono (fun _ _ h => h) (fun past' res hres => ?_)
        (handle_body D.api auth target' r.body _)
      cases res with
      | error _ => trivial
      | ok _ =>
        rcases hres with hnone | htext
        · exact absurd (hnone.symm.trans hop) (by simp)
        · exact fun _ => htext
    · exact spec_of_forall (fun _ _ => trivial) fun _ res => by
        cases res with
        | ok _ => exact fun hj' => absurd hj' hj
        | error _ => trivial
  obtain ⟨resp, hres⟩ := hs.ok
  exact Reachable.post (fun _ j _ => hbody j) h (List.mem_of_getElem? hs.proc) hres hs.job

/-- **A request that succeeds has done its operation.** -/
theorem Deployment.Reaches.succeeded_did (h : D.Reaches allow orders g) {pid : Nat} {p : Process}
    {r : Request} (hs : Succeeded g pid p r) {target : Route}
    (hroute : route r.method r.path = some target) {op : DisputeOp}
    (hop : target.disputeOp = some op) :
    ∃ ev ∈ g.history, ev.pid = pid ∧ ∃ row blob, Did ev op row blob := by
  obtain ⟨text, htext⟩ := h.succeeded_body hs hroute hop
  obtain ⟨resp, hres⟩ := hs.ok
  have hdone := h.done (List.mem_of_getElem? hs.proc) hres
  rw [hs.job] at hdone
  obtain ⟨target', hroute', hdone⟩ := hdone
  obtain rfl := Option.some.inj (hroute'.symm.trans hroute)
  obtain ⟨u, n, hn, hmem⟩ := hdone.effective htext
  obtain ⟨ev, hev, rfl, hreply⟩ := Reachable.event_of_past h hs.proc hmem
  obtain ⟨p', hp', hj⟩ := Reachable.event_job h ev hev
  obtain rfl := Option.some.inj (hp'.symm.trans hs.proc)
  have hu : effectiveUpdate ev.reply = some u := effectiveUpdate_eq_some.mpr ⟨n, hn, hreply⟩
  have hjob : ev.job = .request r := hj.symm.trans hs.job
  obtain ⟨target', row, blob, hroute', _, hblob, hupd, _, hbefore, _⟩ := h.requestUpdate hev hjob hu
  obtain rfl := Option.some.inj (hroute'.symm.trans hroute)
  have hid : u.whereId = row.id := (Route.update_guardedBy hupd).2.1
  exact ⟨ev, hev, rfl, row, blob, ⟨r, _, u, hjob, hroute, hop, hblob, hupd, hu⟩, hid ▸ hbefore⟩

/-! ## The lifecycle -/

/-- If a request to one of the three handlers reads its row in this call, the flag is the one that the
operation is meant for. -/
def FlagFits (ev : Effect) : Prop :=
  ∀ r target op row, ev.job = .request r → route r.method r.path = some target →
    target.disputeOp = some op → ev.reply = ⟨.selectOrder row.id, some (some row)⟩ →
      row.hasDispute = op.expects

/-- None of the calls opens a dispute of the order `id`. -/
def NoneOpened (l : List Effect) (id : Bytes) : Prop :=
  ∀ e ∈ l, ∀ row blob, Did e .opens row blob → row.id ≠ id

/-- **The lifecycle of a dispute**: each operation replaces a row with the flag that it is meant for,
and after a resolution with no later opening the dispute blob is the outcome. -/
structure DisputeLifecycle (g : System) : Prop where
  fits : ∀ ev ∈ g.history, ∀ op row blob, Did ev op row blob → row.hasDispute = op.expects
  kept : ∀ l ev l' row outcome, g.history = l ++ ev :: l' → Did ev .resolves row outcome →
    NoneOpened l' row.id →
      ∃ o, g.shared.orders.find row.id = some o ∧ o.disputeClientBlob = some outcome

/-- What an operation replaces is what it has read. -/
theorem Deployment.Reaches.did_fits (h : D.Reaches allow orders g) {ev : Effect}
    (hev : ev ∈ g.history) (hfits : ∀ e ∈ g.history, FlagFits e) {op : DisputeOp} {row : Order}
    {blob : Bytes} (hdid : Did ev op row blob) : row.hasDispute = op.expects := by
  obtain ⟨r, target, u, hjob, hroute, hop, _, hupd, hu⟩ := hdid.request
  obtain ⟨_, row', _, _, _, _, hupd', hread, hbefore, _⟩ := h.requestUpdate hev hjob hu
  have hid : u.whereId = row.id := (Route.update_guardedBy hupd).2.1
  obtain rfl := Option.some.inj ((hid ▸ hbefore).symm.trans hdid.before)
  obtain ⟨l, l', hl⟩ := List.append_of_mem hev
  obtain ⟨e, he, _, hejob, hereply⟩ := Reachable.event_of_event_past h hl hread
  exact hfits e (by simp [hl, he]) r target op row' (hejob.trans hjob) hroute hop hereply

/-- **The lifecycle is kept** by the handlers that are called as the flag has it, with any other writes
in between. -/
theorem dispute_lifecycle (h : D.Reaches anyJob orders g) (hfits : ∀ ev ∈ g.history, FlagFits ev) :
    DisputeLifecycle g := by
  have hexpects : ∀ ev ∈ g.history, ∀ op row blob, Did ev op row blob → row.hasDispute = op.expects :=
    fun ev hev op row blob hdid => h.did_fits hev hfits hdid
  refine ⟨hexpects, fun l ev l' row outcome hl hdid hnone => ?_⟩
  have hev : ev ∈ g.history := by simp [hl]
  -- after the resolution the blob is the outcome, and no dispute is open
  have hkept := Reachable.since (K := fun s => ∃ o, s.orders.find row.id = some o ∧
    o.disputeClientBlob = some outcome ∧ o.hasDispute = 0) h hl ?_ ?_
  · obtain ⟨o, ho, hblob, _⟩ := hkept
    exact ⟨o, ho, hblob⟩
  · exact h.did_after hev hdid
  · rintro e he ⟨o, ho, hblob, hflag⟩
    have hmem : e ∈ g.history := by simp [hl, he]
    obtain ⟨o', ho', hcase⟩ := h.dispute_step hmem ho
    rcases hcase with ⟨op, blob, hdid', _⟩ | ⟨hsame, hsame'⟩
    · -- an update or a resolution would have needed an open dispute
      have hneed := hexpects e hmem op o blob hdid'
      rw [hflag] at hneed
      cases op with
      | opens => exact absurd (OrdersTable.find_some ho).2 (hnone e he o blob hdid')
      | updates => exact absurd hneed (by decide)
      | resolves => exact absurd hneed (by decide)
    · exact ⟨o', ho', hsame.trans hblob, hsame'.trans hflag⟩

/-! ## The admin and the timer -/

/-- After an admin has resolved a dispute, and before the next one is opened, no pass refunds the
order. -/
def ResolutionsHold (D : Deployment) (g : System) : Prop :=
  ∀ l ev l₁ e l₂ row outcome t, g.history = l ++ ev :: (l₁ ++ e :: l₂) →
    Did ev .resolves row outcome → NoneOpened l₁ row.id → ¬ AutoRefundedAt D e row.id t

/-- In this call a pass takes its snapshot, and the order `id` is disputed and expired there. -/
def FindsExpired (D : Deployment) (e : Effect) (id : Bytes) : Prop :=
  e.job = .checkTimeLocks ∧ e.reply.1 = .selectOrders ∧
    ∃ time o d, (⟨.now, time⟩ : Reply Server) ∈ e.past ∧ e.before.orders.find id = some o ∧
      decodeOrder D.prim D.workerKey o = some d ∧ RefundDue (floorTimestamp6h time) d

/-- After an admin has resolved a dispute, and before the next one is opened, no pass finds the order
disputed and expired. -/
def NoneExpires (D : Deployment) (g : System) : Prop :=
  ∀ l ev l₁ e l₂ row outcome, g.history = l ++ ev :: (l₁ ++ e :: l₂) →
    Did ev .resolves row outcome → NoneOpened l₁ row.id → ¬ FindsExpired D e row.id

/-- **Where a pass that refunds an order has found it**: disputed and expired, in its snapshot, and
not written since. -/
theorem Deployment.Reaches.refund_found (h : D.Reaches allow orders g) {l l' : List Effect}
    {e : Effect} (hl : g.history = l ++ e :: l') {id : Bytes} {t : Int64}
    (hrefund : AutoRefundedAt D e id t) :
    ∃ l₁ snap l₂, l = l₁ ++ snap :: l₂ ∧ FindsExpired D snap id ∧
      ∀ e' ∈ l₂, updatesRow id e'.reply = false := by
  obtain ⟨hjob, d, u, o, hu, rfl, hbefore, _, hd, hd'⟩ := hrefund
  have he : e ∈ g.history := by simp [hl]
  have hcall := h.statement he
  rw [hjob] at hcall
  obtain ⟨n, _, hreply⟩ := effectiveUpdate_eq_some.mp hu
  rw [hreply] at hcall
  obtain ⟨time, rows, hbegan, o', ho', d₁, d₂, blob, hd₁, hmove, hseal, rfl⟩ := hcall
  have hsaw : Saw e.past o' := .snapshot (hbegan.subset (by simp)) ho'
  obtain rfl := Option.some.inj
    (hbefore.symm.trans (h.replaces he hu hsaw (contentUpdate_guardedBy o' d₂ blob)).1)
  obtain rfl := Option.some.inj (hd.symm.trans hd₁)
  obtain rfl := Option.some.inj ((decode_set hseal rfl).symm.trans hd')
  have hdue : RefundDue (floorTimestamp6h time) d := by
    generalize hmoved : autoRefunded t d = d' at hmove
    cases hmove with
    | dispute uuid _ =>
      exact absurd (congrArg OrderData.state hmoved) (by simp [autoRefunded, autoDisputed])
    | refund hdue => exact hdue
  -- the snapshot
  obtain ⟨g₀, hg₀, rfl, hs₀, k, hp⟩ := Reachable.upTo h hl
  have hpass : TimeLockPass g₀ e.pid _ time rows := ⟨hp, hjob, hbegan⟩
  obtain ⟨l₁, snap, l₂, hsplit, hpid, hpast, hsnap, hsame, hrows⟩ := hpass.snapshot hg₀
  have hfind : snap.before.orders.find o.id = some o := OrdersTable.find_of_mem (hrows ▸ ho')
  refine ⟨l₁, snap, l₂, hsplit, ⟨?_, by rw [hsnap], time, o, d, ?_, hfind, hd, hdue⟩, fun e' he' => ?_⟩
  · obtain ⟨p, hp', hj⟩ := Reachable.event_job hg₀ snap (by simp [hsplit])
    rw [hpid] at hp'
    obtain rfl := Option.some.inj (hp'.symm.trans hp)
    exact hj.symm.trans hjob
  · rw [hpast]
    exact List.mem_singleton_self _
  · by_contra hupd
    obtain ⟨r, hr, hlt⟩ := Deployment.Reaches.overtaken hg₀ hsplit (hsame ▸ hfind)
      ⟨e', he', eq_true_of_ne_false hupd⟩
    rw [hs₀] at hr
    obtain rfl := Option.some.inj (hr.symm.trans hbefore)
    omega

/-- **A resolution holds** against every pass that does not find the order expired after it. -/
theorem resolutions_hold (h : D.Reaches anyJob orders g) (hnone : NoneExpires D g) :
    ResolutionsHold D g := by
  intro l ev l₁ e l₂ row outcome t hl hdid hopened hrefund
  have hsplit : g.history = (l ++ ev :: l₁) ++ e :: l₂ := by simp [hl]
  obtain ⟨k₁, snap, k₂, hk, hfound, hquiet⟩ := h.refund_found hsplit hrefund
  -- the snapshot comes after the resolution, which would have been a write since
  rcases List.append_eq_append_iff.mp hk with ⟨as, rfl, has⟩ | ⟨bs, rfl, hbs⟩
  · cases as with
    | nil =>
      obtain ⟨rfl, rfl⟩ := List.cons.inj has
      obtain ⟨r, _, _, hjob, _⟩ := hdid.request
      exact absurd (hjob.symm.trans hfound.1) (by simp)
    | cons e' as =>
      obtain ⟨rfl, rfl⟩ := List.cons.inj has
      refine hnone l ev as snap (k₂ ++ e :: l₂) row outcome (by simp [hl]) hdid ?_ hfound
      exact fun e' he' => hopened e' (List.mem_append_left _ he')
  · cases bs with
    | nil =>
      obtain ⟨rfl, rfl⟩ := List.cons.inj hbs
      obtain ⟨r, _, _, hjob, _⟩ := hdid.request
      exact absurd (hjob.symm.trans hfound.1) (by simp)
    | cons e' bs =>
      obtain ⟨rfl, rfl⟩ := List.cons.inj hbs
      exact absurd hdid.updates (by simp [hquiet ev (by simp)])

end Reaches

namespace Sample

def amend : Login where
  path := "/disputes/" ++ orderId ++ "/update"
  nonce := "0e"
  hmac := "f000cd0ff798db6c2787255a479831005260767aa3f7a8a4bd487e242ef3d219"
  signature :=
    "669563510301d4997292a51dcdd2ff09f0da9efa2521de15f3d7dac5a76c607b" ++
    "3806e785fd547151f5175e20ec722229c50c9fcc6eeff45c44a7d569d94a080c"

def amendRequest : Request := amend.post (.updateDispute ⟨"BAUG", "", "n2"⟩)

def disputeDeployment : Deployment := deployment (loginTables [dispute, amend]) none

theorem amend_route : route amendRequest.method amendRequest.path = some (.updateDispute orderId) := by
  decide +kernel

/-- `FlagFits`, as a test. -/
def flagFits (ev : Effect) : Bool :=
  match ev.job, ev.reply with
  | .request r, ⟨.selectOrder _, some (some row)⟩ =>
    (route r.method r.path).all fun target =>
      target.disputeOp.all fun op => row.hasDispute = op.expects
  | _, _ => true

theorem flagFits_fits {ev : Effect} (h : flagFits ev = true) : FlagFits ev := by
  intro r target op row hjob hroute hop hreply
  unfold flagFits at h
  rw [hjob, hreply] at h
  simp only [hroute, hop, Option.all_some, decide_eq_true_eq] at h
  exact h

/-- A dispute is opened, then updated. -/
def amendTrace : disputeDeployment.Trace anyJob (orders [])
    fun g => succeeded 1 amendRequest g && g.history.all flagFits where
  labels := .spawn (.request zeroDispute) :: acts 0 7 ++ .spawn (.request amendRequest) :: acts 1 6
  allowed _ _ _ := trivial
  passes := by decide +kernel

/-- A dispute is updated that was never opened. -/
def noDisputeTrace : disputeDeployment.Trace anyJob (orders [])
    fun g => succeeded 0 amendRequest g &&
      g.history.all fun ev => ev.before.orders.rows.all (·.hasDispute = 0) where
  labels := .spawn (.request amendRequest) :: acts 0 6
  allowed _ _ _ := trivial
  passes := by decide +kernel

end Sample

open Sample in
/-- An open dispute is updated. -/
theorem dispute_lifecycle_sample :
    ∃ g, disputeDeployment.Reaches anyJob (orders []) g ∧ DisputeLifecycle g ∧
      ∃ ev ∈ g.history, ∃ row blob, Did ev .updates row blob ∧ row.hasDispute = 1 := by
  obtain ⟨g, hg, hcheck⟩ := amendTrace.reaches
  obtain ⟨hok, hfits⟩ := Bool.and_eq_true_iff.mp hcheck
  obtain ⟨p, hp⟩ := succeeded_iff.mp hok
  have hlife := dispute_lifecycle hg fun ev hev => flagFits_fits (List.all_eq_true.mp hfits ev hev)
  obtain ⟨ev, hev, _, row, blob, hdid⟩ := hg.succeeded_did hp amend_route rfl
  exact ⟨g, hg, hlife, ev, hev, row, blob, hdid, hlife.fits ev hev _ row blob hdid⟩

open Sample in
/-- The dispute of an order that has none is updated, and the request succeeds. -/
theorem no_dispute_updated :
    ∃ g p, disputeDeployment.Reaches anyJob (orders []) g ∧ Succeeded g 0 p amendRequest ∧
      ¬ DisputeLifecycle g := by
  obtain ⟨g, hg, hcheck⟩ := noDisputeTrace.reaches
  obtain ⟨hok, hflags⟩ := Bool.and_eq_true_iff.mp hcheck
  obtain ⟨p, hp⟩ := succeeded_iff.mp hok
  refine ⟨g, p, hg, hp, fun hlife => ?_⟩
  obtain ⟨ev, hev, _, row, blob, hdid⟩ := hg.succeeded_did hp amend_route rfl
  have hmem := (OrdersTable.find_some hdid.before).1
  have hzero := of_decide_eq_true (List.all_eq_true.mp (List.all_eq_true.mp hflags ev hev) row hmem)
  have hone := hlife.fits ev hev _ row blob hdid
  rw [hzero] at hone
  exact absurd hone (by decide)

namespace Sample

/-- A deployment with an admin, whose worker opens what `t` opens. -/
def resolveDeployment (t : Primitives.Tables) : Deployment :=
  let tables := loginTables [resolve]
  deployment { tables with
    sha256 := [(tokenMessage "dispute:resolve" orderId, hex resolveHash)]
    hmacSha256 := t.hmacSha256 ++ tables.hmacSha256
    chacha := t.chacha } (some adminKeypair)

/-- The table with the one order `orderId`, which has a dispute. -/
def disputedOrders (encryptedOrderBlob : Bytes) : OrdersTable where
  rows := [{ InsertOrders.row ⟨hex orderId, encryptedOrderBlob, 0, none⟩ with hasDispute := 1 }]
  nodup := by simp

def resolveRequest : Request := resolve.resolveDispute "ab"

theorem resolve_route :
    route resolveRequest.method resolveRequest.path = some (.resolveDispute orderId) := by
  decide +kernel

/-- An admin resolves the dispute, then comes a pass. -/
def resolveThenPass : List (Label Job Choice) := .spawn (.request resolveRequest) :: acts 0 7 ++ refundPass

/-- `FindsExpired` for no order, as a test. -/
def findsNone (D : Deployment) (e : Effect) : Bool :=
  match e.reply, e.past with
  | ⟨.selectOrders, _⟩, [⟨.now, time⟩] => e.before.orders.rows.all fun o =>
      (decodeOrder D.prim D.workerKey o).all fun d => !decide (RefundDue (floorTimestamp6h time) d)
  | ⟨.selectOrders, _⟩, _ => false
  | _, _ => true

theorem findsNone_finds {D : Deployment} {e : Effect} (h : findsNone D e = true) (id : Bytes) :
    ¬ FindsExpired D e id := by
  rintro ⟨_, hcall, time, o, d, hnow, hfind, hd, hdue⟩
  unfold findsNone at h
  split at h
  · rename_i time' _ hpast
    rw [hpast] at hnow
    cases List.mem_singleton.mp hnow
    have hrow := List.all_eq_true.mp h o (OrdersTable.find_some hfind).1
    simp [hd, hdue] at hrow
  · exact absurd h (by simp)
  · rename_i hother _
    obtain ⟨pid, j, past, ⟨c, a⟩, before, after⟩ := e
    obtain rfl : c = .selectOrders := hcall
    exact hother a rfl

/-- The order's time lock is not over. -/
def resolvedTrace : (resolveDeployment lockTables).Trace anyJob
    (disputedOrders (sealed 1 abandonedCiphertext))
    fun g => succeeded 0 resolveRequest g &&
      g.history.all (findsNone (resolveDeployment lockTables)) where
  labels := .spawn (.request resolveRequest) :: acts 0 7 ++ .spawn .checkTimeLocks :: acts 1 2
  allowed _ _ _ := trivial
  passes := by decide +kernel

/-- The last call of the run refunds the order. -/
def overriddenTrace : (resolveDeployment workerTables).Trace anyJob
    (disputedOrders (sealed 0 disputedCiphertext))
    fun g => succeeded 0 resolveRequest g &&
      g.history.all (fun ev => (ev.job = .request resolveRequest || ev.job = .checkTimeLocks) &&
        ev.before.orders.rows.all (·.id = hex orderId)) &&
      g.history.getLast?.any fun e => e.job = .checkTimeLocks &&
        movesTo (resolveDeployment workerTables) (hex orderId) disputedOrder refundedOrder e where
  labels := resolveThenPass
  allowed _ _ _ := trivial
  passes := by decide +kernel

end Sample

open Sample in
/-- A resolution holds against a pass that comes before the time lock is over. -/
theorem resolutions_hold_sample :
    ∃ g p, (resolveDeployment lockTables).Reaches anyJob (disputedOrders (sealed 1 abandonedCiphertext)) g ∧
      Succeeded g 0 p resolveRequest ∧ ResolutionsHold (resolveDeployment lockTables) g := by
  obtain ⟨g, hg, hcheck⟩ := resolvedTrace.reaches
  obtain ⟨hok, hnone⟩ := Bool.and_eq_true_iff.mp hcheck
  obtain ⟨p, hp⟩ := succeeded_iff.mp hok
  refine ⟨g, p, hg, hp, resolutions_hold hg fun l ev l₁ e l₂ row outcome hl _ _ => ?_⟩
  exact findsNone_finds (List.all_eq_true.mp hnone e (by simp [hl])) row.id

open Sample in
/-- The pass that comes after the resolution refunds the buyer. -/
theorem resolution_overridden :
    ∃ g p, (resolveDeployment workerTables).Reaches anyJob
        (disputedOrders (sealed 0 disputedCiphertext)) g ∧
      Succeeded g 0 p resolveRequest ∧ ¬ ResolutionsHold (resolveDeployment workerTables) g := by
  obtain ⟨g, hg, hcheck⟩ := overriddenTrace.reaches
  simp only [Bool.and_eq_true, Option.any_eq_true, decide_eq_true_eq] at hcheck
  obtain ⟨⟨hok, hall⟩, e, hlast, hjob, hmoves⟩ := hcheck
  obtain ⟨p, hp⟩ := succeeded_iff.mp hok
  refine ⟨g, p, hg, hp, fun hhold => ?_⟩
  have hev : ∀ ev ∈ g.history, (ev.job = .request resolveRequest ∨ ev.job = .checkTimeLocks) ∧
      ∀ o ∈ ev.before.orders.rows, o.id = hex orderId := fun ev h => by
    simpa using List.all_eq_true.mp hall ev h
  obtain ⟨ev, hmem, _, row, outcome, hdid⟩ := hg.succeeded_did hp resolve_route rfl
  have hid : row.id = hex orderId := (hev ev hmem).2 row (OrdersTable.find_some hdid.before).1
  -- the resolution comes before the last call
  obtain ⟨l, hl⟩ := List.getLast?_eq_some_iff.mp hlast
  rw [hl] at hmem
  rcases List.mem_append.mp hmem with hmem | hmem
  · obtain ⟨l₀, l₁, rfl⟩ := List.append_of_mem hmem
    refine hhold l₀ ev l₁ e [] row outcome passTime (by simp [hl]) hdid ?_
      ⟨hjob, disputedOrder, hid ▸ movesTo_moves hmoves⟩
    rintro e' he' row' blob hopens
    obtain ⟨r, target, _, hr, hroute, hop, _⟩ := hopens.request
    rcases (hev e' (by simp [hl, he'])).1 with hrequest | hpass
    · cases hr.symm.trans hrequest
      obtain rfl := Option.some.inj (resolve_route.symm.trans hroute)
      exact absurd hop (by decide)
    · exact absurd (hr.symm.trans hpass) (by simp)
  · obtain rfl := List.mem_singleton.mp hmem
    obtain ⟨r, _, _, hr, _⟩ := hdid.request
    exact absurd (hr.symm.trans hjob) (by simp)

/-! ## Two copies of a dispute -/

section Copies

variable {D : Deployment} {allow : System → Job → Prop} {orders : OrdersTable} {g : System}

/-- The content of the row is disputed, and the dispute is not resolved. -/
def InDispute (D : Deployment) (o : Order) : Prop :=
  ∃ d, decodeOrder D.prim D.workerKey o = some d ∧ d.state = "disputed" ∧ hasActiveDispute d = true

/-- However the id is spelled, `get_dispute` returns a dispute and `get_order` reports one. -/
def ShowsDispute (s : Shared) (id : Bytes) : Prop :=
  ∀ text e, hexDecode text = some id → e.fault = false →
    (∃ resp, server.solo e (getDispute text) s = some (.ok resp, s)) ∧
      ∃ resp, server.solo e (getOrder text) s = some (.ok resp, s) ∧ resp.hasDispute = true

/-- **Disputes are visible**: an order that is in dispute shows it. -/
def DisputesVisible (D : Deployment) (s : Shared) : Prop :=
  ∀ id o, s.orders.find id = some o → IsI64 o.version → InDispute D o → ShowsDispute s id

/-- What shows a dispute is the flag. -/
theorem showsDispute_iff {s : Shared} {id : Bytes} {o : Order} (ho : s.orders.find id = some o)
    (hv : IsI64 o.version) : ShowsDispute s id ↔ o.hasDispute ≠ 0 := by
  have hanswer : ∀ e : Choice, e.fault = false →
      server.answer (.selectOrder id) e s = some (some (some o), s) := by
    intro e he
    simp [server, he, ho, readRow, hv]
  constructor
  · intro hshows
    obtain ⟨_, resp, hres, hflag⟩ := hshows (hexEncode id) {} (hexDecode_hexEncode id) rfl
    rw [getOrder, hexDecode_hexEncode] at hres
    change server.solo _ (exec (.selectOrder id) >>= _) s = _ at hres
    rw [solo_bind_ok (solo_call (hanswer {} rfl))] at hres
    obtain ⟨hresp, _⟩ := Prod.mk.inj (Option.some.inj hres)
    cases hresp
    simpa using hflag
  · intro hflag text e htext he
    constructor
    · refine ⟨{ id := text
                orderId := hexEncode id
                clientEncryptedBlob := o.disputeClientBlob.map base64Encode
                version := o.version
                hasDispute := true }, ?_⟩
      rw [getDispute, htext]
      change server.solo _ (exec (.selectOrder id) >>= _) s = _
      rw [solo_bind_ok (solo_call (hanswer e he))]
      change server.solo e (ensure (o.hasDispute ≠ 0) _ >>= _) s = _
      rw [decide_eq_true hflag]
      rfl
    · refine ⟨{ id := text
                clientEncryptedBlob := some (base64Encode o.encryptedOrderBlob)
                dayBucket := o.dayBucket
                expiryBucket := o.expiryBucket
                version := o.version
                hasDispute := decide (o.hasDispute ≠ 0) }, ?_, decide_eq_true hflag⟩
      rw [getOrder, htext]
      change server.solo _ (exec (.selectOrder id) >>= _) s = _
      rw [solo_bind_ok (solo_call (hanswer e he))]
      rfl

theorem inDispute_congr {D : Deployment} {o o' : Order} (hid : o'.id = o.id)
    (hblob : o'.encryptedOrderBlob = o.encryptedOrderBlob) : InDispute D o' ↔ InDispute D o := by
  rw [InDispute, InDispute, decodeOrder_congr hid hblob]

/-- The call keeps the two copies of a dispute in step: no client stores a content in dispute in a row
without the flag, the timer opens a dispute only where a client has set the flag, and an admin resolves
only what the worker has left. -/
structure InStep (D : Deployment) (ev : Effect) : Prop where
  inserted : ∀ i, ev.reply = ⟨.insertOrder i, some ()⟩ → ¬ InDispute D i.row
  stored : ∀ r row blob, ev.job = .request r → ev.before.orders.find row.id = some row →
    StoresBlob ev row.id blob → InDispute D { row with encryptedOrderBlob := blob } →
      row.hasDispute ≠ 0
  opened : ∀ row d, ev.job = .checkTimeLocks → ev.before.orders.find row.id = some row →
    updatesRow row.id ev.reply = true → decodeOrder D.prim D.workerKey row = some d →
      d.state = "funded" → row.hasDispute ≠ 0
  resolved : ∀ row outcome, Did ev .resolves row outcome → ¬ InDispute D row

/-- The flag is set where the content is in dispute. -/
def Flagged (D : Deployment) (o : Order) : Prop := InDispute D o → o.hasDispute ≠ 0

/-- What the worker makes of a flagged row is flagged, unless its timer has opened a dispute. -/
theorem WorkerMove.flagged {D : Deployment} {ev : Effect} {d d' : OrderData} {o o' : Order}
    (h : WorkerMove D ev d d') (hd : decodeOrder D.prim D.workerKey o = some d)
    (hd' : decodeOrder D.prim D.workerKey o' = some d') (hflag : o'.hasDispute = o.hasDispute)
    (hopened : ev.job = .checkTimeLocks → d.state = "funded" → o.hasDispute ≠ 0)
    (ho : Flagged D o) : Flagged D o' := by
  rintro ⟨c, hc, hstate, hactive⟩
  obtain rfl := Option.some.inj (hc.symm.trans hd')
  rw [hflag]
  have hkept : d.state = c.state → d.dispute = c.dispute → o.hasDispute ≠ 0 := by
    intro hs hdispute
    refine ho ⟨d, hd, hs.trans hstate, ?_⟩
    rw [hasActiveDispute, hdispute]
    exact hactive
  cases h with
  | poll _ hedge =>
    cases hedge with
    | fund _ _ _ _ _ _ => exact absurd hstate (by simp)
    | cancel _ _ _ _ _ => exact absurd hstate (by simp)
    | settle _ _ _ => exact hkept rfl rfl
  | timeLock hjob _ hmove =>
    cases hmove with
    | dispute _ hdue => exact hopened hjob hdue.1
    | refund _ => exact absurd hstate (by simp [autoRefunded])
  | notify _ => exact hkept rfl rfl

/-- A row that is new has been inserted. -/
theorem answer_newRow {c : Call} {e : Choice} {s s' : Shared} {a : c.Ans}
    (h : server.answer c e s = some (a, s')) {id : Bytes} {o' : Order} (ho : s.orders.find id = none)
    (ho' : s'.orders.find id = some o') :
    ∃ i, (⟨c, a⟩ : Reply Server) = ⟨.insertOrder i, some ()⟩ ∧ o' = i.row := by
  have hsame : s'.orders.find id ≠ s.orders.find id := by simp [ho, ho']
  rcases answer_orders h with heq | ⟨i, rfl⟩ | ⟨u, rfl⟩
  · exact absurd (by rw [heq]) hsame
  · rcases answer_insertOrder h with ⟨_, rfl⟩ | ⟨t, rfl, ht, rfl⟩
    · exact absurd rfl hsame
    · rw [(OrdersTable.find_insert ht id).2] at ho' hsame
      split at ho'
      · exact ⟨i, rfl, (Option.some.inj ho').symm⟩
      · exact absurd (ho.symm.trans ho') (by simp)
  · rcases answer_updateOrders h with ⟨_, rfl⟩ | ⟨_, rfl⟩
    · exact absurd rfl hsame
    · rw [OrdersTable.find_update, ho] at ho'
      exact absurd ho' (by simp)

/-- **What a call can do to a row**: insert it, leave it alone or update it. -/
theorem Deployment.Reaches.row_step (h : D.Reaches allow orders g) {ev : Effect}
    (hev : ev ∈ g.history) {id : Bytes} {o' : Order} (ho' : ev.after.orders.find id = some o') :
    (∃ i, ev.reply = ⟨.insertOrder i, some ()⟩ ∧ o' = i.row) ∨
      ev.before.orders.find id = some o' ∨
      ∃ u o, effectiveUpdate ev.reply = some u ∧ u.whereId = id ∧
        ev.before.orders.find id = some o ∧ o' = u.set o := by
  obtain ⟨hcall, e, ha⟩ := h.event hev
  cases ho : ev.before.orders.find id with
  | some o =>
    rcases (hcall.step ha).some_cases ho with ⟨⟨u, hu, rfl⟩, _⟩ | ⟨_, hsame⟩
    · obtain ⟨o₁, hsaw, hg⟩ := h.guarded hev hu
      obtain ⟨hbefore, hafter⟩ := h.replaces hev hu hsaw hg
      obtain rfl := Option.some.inj (ho.symm.trans hbefore)
      exact .inr (.inr ⟨u, o, hu, rfl, rfl, Option.some.inj (ho'.symm.trans hafter)⟩)
    · exact .inr (.inl (hsame.symm.trans ho'))
  | none => exact .inl (answer_newRow ha ho ho')

/-- A request that keeps the copies in step keeps a row flagged. -/
theorem Deployment.Reaches.flagged_request (h : D.Reaches allow orders g) {ev : Effect}
    (hev : ev ∈ g.history) {r : Request} (hjob : ev.job = .request r) (hstep : InStep D ev)
    {u : UpdateOrders} (hu : effectiveUpdate ev.reply = some u) {o : Order}
    (ho : ev.before.orders.find u.whereId = some o) (hflag : Flagged D o) : Flagged D (u.set o) := by
  intro hdisputed
  obtain ⟨target, row, blob, hroute, _, hblob, hupd, _, hbefore, _⟩ := h.requestUpdate hev hjob hu
  obtain rfl := Option.some.inj (ho.symm.trans hbefore)
  have hid : u.whereId = o.id := (Route.update_guardedBy hupd).2.1
  rw [hid] at ho
  have hdid : ∀ op, target.disputeOp = some op → Did ev op o blob := fun op hop =>
    ⟨⟨r, target, u, hjob, hroute, hop, hblob, hupd, hu⟩, ho⟩
  cases target with
  | updateOrder _ =>
    obtain rfl := Option.some.inj hupd
    exact hstep.stored r o blob hjob ho ⟨_, hu, rfl, rfl⟩ ((inDispute_congr rfl rfl).mp hdisputed)
  | openDispute =>
    obtain rfl := Option.some.inj hupd
    exact (by decide : (1 : Int64) ≠ 0)
  | updateDispute _ =>
    obtain rfl := Option.some.inj hupd
    exact hflag ((inDispute_congr rfl rfl).mp hdisputed)
  | resolveDispute _ =>
    obtain rfl := Option.some.inj hupd
    exact absurd ((inDispute_congr rfl rfl).mp hdisputed) (hstep.resolved o blob (hdid _ rfl))
  | updateChat _ =>
    obtain rfl := Option.some.inj hupd
    exact hflag ((inDispute_congr rfl rfl).mp hdisputed)
  | _ => exact absurd hupd (by simp [Route.update])

/-- The worker, whose timer keeps the copies in step, keeps a row flagged. -/
theorem Deployment.Reaches.flagged_worker (h : D.Reaches allow orders g) {ev : Effect}
    (hev : ev ∈ g.history) (hworker : ∀ r, ev.job ≠ .request r) (hstep : InStep D ev)
    {u : UpdateOrders} (hu : effectiveUpdate ev.reply = some u) {o : Order}
    (ho : ev.before.orders.find u.whereId = some o) (hflag : Flagged D o) : Flagged D (u.set o) := by
  have hupd : updatesRow u.whereId ev.reply = true := updatesRow_iff.mpr ⟨u, hu, rfl⟩
  have hid : o.id = u.whereId := (OrdersTable.find_some ho).2
  have hw : ev.job.isWorker = true := h.worker_of_update hev hworker hu
  obtain ⟨d, d', ⟨u', o', hu', _, hbefore, _, hd, hd'⟩, hmove⟩ := h.workerMove hev hw hupd
  obtain rfl := Option.some.inj (hu.symm.trans hu')
  obtain rfl := Option.some.inj (ho.symm.trans hbefore)
  refine hmove.flagged hd hd' ?_ (fun hjob hs => ?_) hflag
  · exact (sameDispute_set (h.leavesDispute hev hworker hu) o).2
  · rw [← hid] at ho hupd
    exact hstep.opened o d hjob ho hupd hd hs

/-- **Disputes are visible** in every state of a run whose calls keep the two copies in step. -/
theorem disputes_visible (h : D.Reaches anyJob orders g) (hinit : ∀ o ∈ orders.rows, Flagged D o)
    (hstep : ∀ ev ∈ g.history, InStep D ev) : DisputesVisible D g.shared := by
  have hflagged : ∀ id o, g.shared.orders.find id = some o → Flagged D o := by
    refine Reachable.history_inv (R := fun s l => (∀ ev ∈ l, InStep D ev) →
      ∀ id o, s.orders.find id = some o → Flagged D o) (fun _ id o ho => ?_) ?_ h hstep
    · exact hinit o (OrdersTable.find_some ho).1
    · intro g l ev hg hl ih hstep id o' ho'
      have hev : ev ∈ g.history := by simp [hl]
      have hin : InStep D ev := hstep ev (by simp)
      have hbefore := ih fun e he => hstep e (List.mem_append_left _ he)
      rcases Deployment.Reaches.row_step hg hev ho' with
        ⟨i, hreply, rfl⟩ | hsame | ⟨u, o, hu, rfl, ho, rfl⟩
      · exact fun hdisputed => absurd hdisputed (hin.inserted i hreply)
      · exact hbefore id o' hsame
      · by_cases hjob : ∃ r, ev.job = .request r
        · obtain ⟨r, hjob⟩ := hjob
          exact Deployment.Reaches.flagged_request hg hev hjob hin hu ho (hbefore _ o ho)
        · exact Deployment.Reaches.flagged_worker hg hev (fun r hr => hjob ⟨r, hr⟩) hin hu ho
            (hbefore _ o ho)
  exact fun id o ho hv hdisputed => (showsDispute_iff ho hv).mpr (hflagged id o ho hdisputed)

end Copies

namespace Sample

/-- The content of the row of the order is in dispute, and its flag is `flag`. -/
def inDispute (flag : Int64) (g : System) : Bool :=
  (g.shared.orders.find (hex orderId)).any fun o => IsI64 o.version && o.hasDispute = flag &&
    (decodeOrder (deployment workerTables none).prim (deployment workerTables none).workerKey o).any
      fun d => d.state = "disputed" && hasActiveDispute d

theorem inDispute_find {flag : Int64} {g : System} (h : inDispute flag g = true) :
    ∃ o, g.shared.orders.find (hex orderId) = some o ∧ IsI64 o.version ∧ o.hasDispute = flag ∧
      InDispute (deployment workerTables none) o := by
  obtain ⟨o, ho, hcheck⟩ := (Option.any_eq_true _ _).mp h
  simp only [Bool.and_eq_true, decide_eq_true_eq] at hcheck
  obtain ⟨⟨hv, hflag⟩, hcontent⟩ := hcheck
  obtain ⟨d, hd, hdisputed⟩ := (Option.any_eq_true _ _).mp hcontent
  simp only [Bool.and_eq_true, decide_eq_true_eq] at hdisputed
  exact ⟨o, ho, hv, hflag, d, hd, hdisputed⟩

/-- A pass disputes an order of which a client has opened a dispute already. -/
def flaggedTrace : (deployment workerTables none).Trace anyJob
    (disputedOrders (sealed 1 fundedCiphertext))
    fun g => inDispute 1 g && g.history.all fun ev => ev.job = .checkTimeLocks &&
      ev.before.orders.rows.all (·.hasDispute = 1) where
  labels := disputePass
  allowed _ _ _ := trivial
  passes := by decide +kernel

/-- And one that nobody has disputed. -/
def unflaggedTrace : (deployment workerTables none).Trace anyJob (orders (sealed 1 fundedCiphertext))
    (inDispute 0) where
  labels := disputePass
  allowed _ _ _ := trivial
  passes := by decide +kernel

end Sample

open Sample in
/-- The dispute that the timer opens is visible where a client had opened one. -/
theorem disputes_visible_sample :
    ∃ g o, (deployment workerTables none).Reaches anyJob (disputedOrders (sealed 1 fundedCiphertext)) g ∧
      g.shared.orders.find (hex orderId) = some o ∧ InDispute (deployment workerTables none) o ∧
      ShowsDispute g.shared (hex orderId) := by
  obtain ⟨g, hg, hcheck⟩ := flaggedTrace.reaches
  obtain ⟨hdispute, hall⟩ := Bool.and_eq_true_iff.mp hcheck
  obtain ⟨o, ho, hv, _, hdisputed⟩ := inDispute_find hdispute
  have hvisible := disputes_visible hg
    (fun o ho _ => by
      obtain rfl := List.mem_singleton.mp ho
      exact (by decide : (1 : Int64) ≠ 0))
    (fun ev hev => by
      have hpass := List.all_eq_true.mp hall ev hev
      simp only [Bool.and_eq_true, decide_eq_true_eq] at hpass
      obtain ⟨hjob, hflags⟩ := hpass
      have hflag : ∀ o id, ev.before.orders.find id = some o → o.hasDispute ≠ 0 := fun o id hfind => by
        rw [of_decide_eq_true (List.all_eq_true.mp hflags o (OrdersTable.find_some hfind).1)]
        decide
      exact
        { inserted := fun i hreply => by
            have hcall := hg.statement hev
            rw [hjob, hreply] at hcall
            exact hcall.elim
          stored := fun _ row _ _ hfind _ _ => hflag row row.id hfind
          opened := fun row _ _ hfind _ _ _ => hflag row row.id hfind
          resolved := fun _ _ hdid => by
            obtain ⟨_, _, _, hrequest, _⟩ := hdid.request
            exact absurd (hjob.symm.trans hrequest) (by simp) })
  exact ⟨g, o, hg, ho, hdisputed, hvisible _ o ho hv hdisputed⟩

open Sample in
/-- An order is funded, and no dispute of it was ever opened; the timer opens one, which nobody sees. -/
theorem dispute_hidden :
    ∃ g, (deployment workerTables none).Reaches anyJob (orders (sealed 1 fundedCiphertext)) g ∧
      ¬ DisputesVisible (deployment workerTables none) g.shared := by
  obtain ⟨g, hg, hcheck⟩ := unflaggedTrace.reaches
  obtain ⟨o, ho, hv, hflag, hdisputed⟩ := inDispute_find hcheck
  refine ⟨g, hg, fun hvisible => ?_⟩
  exact (showsDispute_iff ho hv).mp (hvisible _ o ho hv hdisputed) hflag

end TorMarketplace
