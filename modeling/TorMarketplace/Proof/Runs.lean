import TorMarketplace.Proof.Worker

/-!
# What holds in every run

The specifications of the handlers and of the passes, put together for every job, and what they give
for the runs of a deployment: every call is one step of the versioned store of orders, and a row
that a process has seen is known to it from then on.
-/

namespace TorMarketplace

open Interleave Prog Versioned

/-- The calls that a job may make. -/
def CallSpec (D : Deployment) : Job → Past → Call → Prop
  | .request r => ApiCall (r.AllowedUpdate D.prim)
  | .restartApi => fun _ c => c = .restartApi
  | .restartWorker => fun _ c => c = .restartWorker
  | _ => WorkerCall D.prim D.workerKey

/-- What the success of a job establishes. -/
def JobDone (D : Deployment) : Job → Past → Response → Prop
  | .request r, past, _ => RequestDone D.api r past
  | _, _, _ => True

/-- A pass, with its result thrown away. -/
theorem pass_spec {P : Past → Call → Prop} {x : Program Unit}
    (h : Spec server.May P (OnOk fun _ _ => True) [] x) :
    Spec server.May P (OnOk fun _ _ => True) [] (Deployment.pass x) :=
  spec_seq_onOk h fun _ _ _ _ => trivial

theorem Deployment.worker_workerKey (D : Deployment) : D.worker.workerKey = some D.workerKey := rfl

/-- **What a job does.** -/
theorem program_spec (D : Deployment) :
    ∀ j, Spec server.May (CallSpec D j) (OnOk (JobDone D j)) [] (D.program j)
  | .request r => handleRequest_spec D.api r
  | .checkPendingPayments => pass_spec (checkPendingPayments_spec D.worker_workerKey [])
  | .checkTimeLocks => pass_spec (checkTimeLocks_spec D.worker_workerKey [])
  | .scanNotifications => pass_spec (scanNotifications_spec D.worker_workerKey [])
  | .runDummyWorker => pass_spec (runDummyWorker_spec D.worker_workerKey [])
  | .restartApi => pass_spec ⟨rfl, fun _ _ => trivial⟩
  | .restartWorker => pass_spec ⟨rfl, fun _ _ => trivial⟩

/-- Whoever updates a row has read it, and replaces the version read. -/
theorem CallSpec.guarded {D : Deployment} {j : Job} {past : Past} {u : UpdateOrders}
    (h : CallSpec D j past (.updateOrders u)) : ∃ o, Saw past o ∧ u.GuardedBy o := by
  cases j with
  | request r => exact h.1
  | restartApi => exact Call.noConfusion h
  | restartWorker => exact Call.noConfusion h
  | _ =>
    obtain ⟨o, d, d', blob, hw⟩ := h
    exact ⟨o, hw.saw, hw.guarded⟩

/-- **Every call of a job is one step of the versioned store of orders.** -/
theorem CallSpec.step {D : Deployment} {j : Job} {past : Past} {c : Call} {e : Choice}
    {s s' : Shared} {a : c.Ans} (h : CallSpec D j past c)
    (ha : server.answer c e s = some (a, s')) :
    Step Order.version (Hits ⟨c, a⟩) s.orders.find s'.orders.find := by
  refine answer_step ha fun u hu => ?_
  subst hu
  obtain ⟨o, _, hg⟩ := h.guarded
  exact hg.1

/-- What a reply reports of a row is known of the table from then on. -/
def KnownRows (s : Shared) (r : Reply Server) : Prop :=
  ∀ o, Reads r o → Known Order.version s.orders.find o.id o

theorem answer_reads {c : Call} {e : Choice} {s s' : Shared} {a : c.Ans}
    (h : server.answer c e s = some (a, s')) {o : Order} (hr : Reads ⟨c, a⟩ o) :
    s' = s ∧ s.orders.find o.id = some o ∧ IsI64 o.version := by
  rcases hr with hr | ⟨rows, hr, ho⟩
  · cases hr
    exact answer_selectOrder h
  · cases hr
    obtain ⟨rfl, rfl, hi⟩ := answer_selectOrders h
    exact ⟨rfl, OrdersTable.find_of_mem ho, hi o ho⟩

section Reaches

variable {D : Deployment} {allow : System → Job → Prop} {orders : OrdersTable} {g : System}

theorem Deployment.Reaches.event (h : D.Reaches allow orders g) {ev : Effect}
    (hev : ev ∈ g.history) :
    CallSpec D ev.job ev.past ev.reply.1 ∧
      ∃ e, server.answer ev.reply.1 e ev.before = some (ev.reply.2, ev.after) :=
  Reachable.event (fun _ j _ => program_spec D j) h ev hev

/-- **What a process has read stays known**, now and at each of its calls. -/
theorem Deployment.Reaches.knownRows (h : D.Reaches allow orders g) :
    (∀ p ∈ g.procs, ∀ r ∈ p.past, KnownRows g.shared r) ∧
      ∀ ev ∈ g.history, ∀ r ∈ ev.past, KnownRows ev.before r :=
  Reachable.past_stable (fun _ j _ => program_spec D j)
    (fun _ ha o ho => by
      obtain ⟨rfl, hfind, _⟩ := answer_reads ha ho
      exact Known.of_some hfind)
    (fun hc ha hk o ho => (hc.step ha).known (hk o ho)) h

/-- Whoever has updated a row had read it. -/
theorem Deployment.Reaches.guarded (h : D.Reaches allow orders g) {ev : Effect}
    (hev : ev ∈ g.history) {u : UpdateOrders} (hu : effectiveUpdate ev.reply = some u) :
    ∃ o, Saw ev.past o ∧ u.GuardedBy o := by
  have hcall := (h.event hev).1
  obtain ⟨pid, j, past, reply, before, after⟩ := ev
  obtain ⟨n, _, rfl⟩ := effectiveUpdate_eq_some.mp hu
  exact CallSpec.guarded hcall

/-- **An effective update replaces the row that its writer has read.** -/
theorem Deployment.Reaches.replaces (h : D.Reaches allow orders g) {ev : Effect}
    (hev : ev ∈ g.history) {u : UpdateOrders} (hu : effectiveUpdate ev.reply = some u) {o : Order}
    (hsaw : Saw ev.past o) (hg : u.GuardedBy o) :
    ev.before.orders.find u.whereId = some o ∧ ev.after.orders.find u.whereId = some (u.set o) := by
  obtain ⟨pid, j, past, reply, before, after⟩ := ev
  obtain ⟨n, hn, rfl⟩ := effectiveUpdate_eq_some.mp hu
  obtain ⟨e, ha⟩ : ∃ e, server.answer (.updateOrders u) e before = some (some n, after) :=
    (h.event hev).2
  rcases answer_updateOrders ha with ⟨hnone, _⟩ | ⟨hsome, rfl⟩
  · exact absurd hnone (by simp)
  obtain rfl := Option.some.inj hsome
  obtain ⟨o', ho', hm⟩ := OrdersTable.rowsAffected_ne_zero.mp hn
  obtain ⟨hid, hver⟩ := (hg.matches_iff o').mp hm
  obtain ⟨r, hr, hreads⟩ := hsaw
  have hknown : Known Order.version before.orders.find o.id o := h.knownRows.2 _ hev r hr o hreads
  have ho : before.orders.find o.id = some o' := hg.2.1 ▸ ho'
  obtain rfl := hknown.eq ho hver
  exact ⟨ho', by rw [OrdersTable.find_update, ho']; simp [hm]⟩

/-- The success of a process, and what it has established. -/
theorem Deployment.Reaches.done (h : D.Reaches allow orders g) {p : Process} (hp : p ∈ g.procs)
    {resp : Response} (hr : p.prog.result = some (.ok resp)) : JobDone D p.job p.past resp :=
  Reachable.post (fun _ j _ => program_spec D j) h hp hr

/-- What holds when a request has ended, holds of the processes that serve requests. -/
theorem Deployment.Reaches.post_request (h : D.Reaches allow orders g)
    {Q : Request → Past → Except Failure Response → Prop}
    (hspec : ∀ r, Spec server.May (fun _ _ => True) (Q r) [] (handleRequest D.api r)) {p : Process}
    (hp : p ∈ g.procs) {r : Request} (hjob : p.job = .request r) {result : Except Failure Response}
    (hr : p.prog.result = some result) : Q r p.past result := by
  refine Reachable.post (P := fun _ _ _ => True)
    (Q := fun j past result => ∀ r, j = .request r → Q r past result) (fun _ j _ => ?_) h hp hr r hjob
  cases j with
  | request r =>
    refine spec_mono (fun _ _ h => h) (fun _ _ hq r' hr' => ?_) (hspec r)
    cases hr'
    exact hq
  | _ => exact spec_of_forall (fun _ _ => trivial) fun _ _ _ hr => Job.noConfusion hr

/-- What the calls of every request satisfy, the calls of the processes that serve requests satisfy. -/
theorem Deployment.Reaches.event_request (h : D.Reaches allow orders g) {P : Past → Call → Prop}
    {Q : Request → Past → Except Failure Response → Prop}
    (hspec : ∀ r, Spec server.May P (Q r) [] (handleRequest D.api r)) {ev : Effect}
    (hev : ev ∈ g.history) {r : Request} (hjob : ev.job = .request r) : P ev.past ev.reply.1 := by
  refine (Reachable.event (P := fun j past c => ∀ r, j = .request r → P past c)
    (Q := fun _ _ _ => True) (fun _ j _ => ?_) h ev hev).1 r hjob
  cases j with
  | request r => exact spec_mono (fun _ _ hc r' _ => hc) (fun _ _ _ => trivial) (hspec r)
  | _ => exact spec_of_forall (fun _ _ _ hr => Job.noConfusion hr) fun _ _ => trivial

end Reaches

/-- A run on fixed inputs that is computed step by step, and whose last state passes a test. -/
structure Deployment.Trace (D : Deployment) (allow : System → Job → Prop) (orders : OrdersTable)
    (test : System → Bool) where
  labels : List (Label Job Choice)
  allowed : ∀ j, .spawn j ∈ labels → ∀ g, allow g j
  passes : (Config.run server D.program labels ⟨Shared.initial orders, [], []⟩).any test = true

/-- Where the run leads. -/
theorem Deployment.Trace.reaches {D : Deployment} {allow : System → Job → Prop}
    {orders : OrdersTable} {test : System → Bool} (t : D.Trace allow orders test) :
    ∃ g, D.Reaches allow orders g ∧ test g = true := by
  obtain ⟨g, hg, htest⟩ := (Option.any_eq_true _ _).mp t.passes
  exact ⟨g, Reachable.of_run t.allowed Reachable.init hg, htest⟩

end TorMarketplace
