import TorMarketplace.Proof.Versions

/-!
# What a transition signature protects

A successful `update_order` stored what its signature covers, and a signature changes a row at most
once, whatever the nonce caches have forgotten (`update_order_once`): the version does it. The hour
in the signed payload is whatever the body says, and is tied to the authenticated hour only if the
two are equal (`transition_hour_iff`). The three other handlers that take a `transition_signature`
do not look at it (`authorised_by_content_iff`).
-/

namespace TorMarketplace

open Encoding Interleave Prog Versioned

/-- Process `pid` is the request `r`, and it has succeeded. -/
structure Succeeded (g : System) (pid : Nat) (p : Process) (r : Request) : Prop where
  proc : g.procs[pid]? = some p
  job : p.job = .request r
  ok : ∃ resp, p.prog.result = some (.ok resp)

/-- The request `req` of `r` goes to `update_order`. -/
structure IsUpdateOrder (r : Request) (id : String) (req : UpdateOrderRequest) : Prop where
  target : route r.method r.path = some (.updateOrder id)
  body : r.body = .updateOrder req

/-- The process has replaced version `v` of the row `k`. -/
def HasReplaced (past : Past) (k : Bytes) (v : Int) : Prop := ∃ reply ∈ past, Replaces reply k v

/-- Process `pid` is a request to `update_order` that has succeeded, and replaced version `v` of
the row `k`. -/
def UpdatedOrder (g : System) (pid : Nat) (k : Bytes) (v : Int) : Prop :=
  ∃ p r id req, Succeeded g pid p r ∧ IsUpdateOrder r id req ∧ hexDecode id = some k ∧
    HasReplaced p.past k v

/-- An update of the row `k` that took effect, by a request to `update_order` with the signature
`sigBytes`. -/
def ChangedWith (ev : Effect) (k sigBytes : Bytes) : Prop :=
  updatesRow k ev.reply = true ∧ ∃ r id req, ev.job = .request r ∧ IsUpdateOrder r id req ∧
    hexDecode req.transitionSignature = some sigBytes

section Reaches

variable {D : Deployment} {allow : System → Job → Prop} {orders : OrdersTable} {g : System}

theorem Deployment.Reaches.updateOrderDone (h : D.Reaches allow orders g) {pid : Nat} {p : Process}
    {r : Request} {id : String} {req : UpdateOrderRequest} (hs : Succeeded g pid p r)
    (hup : IsUpdateOrder r id req) :
    ∃ auth hour row blob nonceBytes sigBytes u, Authenticated r.headers p.past auth hour ∧
      UpdateOrderDone D.prim auth.pubkeyBytes id req p.past row blob nonceBytes sigBytes u := by
  obtain ⟨hproc, hjob, resp, hok⟩ := hs
  have hdone := h.done (List.mem_of_getElem? hproc) hok
  rw [hjob] at hdone
  obtain ⟨target, htarget, hdone⟩ := hdone
  obtain rfl := Option.some.inj (hup.target.symm.trans htarget)
  rw [hup.body] at hdone
  exact hdone

/-- The update of `ev` is signed by the request that made it. -/
theorem Deployment.Reaches.changedWith (h : D.Reaches allow orders g) {ev : Effect}
    (hev : ev ∈ g.history) {k sigBytes : Bytes} (hc : ChangedWith ev k sigBytes) :
    ∃ u pubkey id req row blob nonceBytes, effectiveUpdate ev.reply = some u ∧
      SignedUpdate D.prim pubkey id req row blob nonceBytes sigBytes u ∧ row.id = k := by
  obtain ⟨pid, j, past, reply, before, after⟩ := ev
  obtain ⟨hupd, r, id, req, rfl, hup, hsig⟩ := hc
  obtain ⟨u, hu, rfl⟩ := updatesRow_iff.mp hupd
  obtain ⟨n, _, rfl⟩ := effectiveUpdate_eq_some.mp hu
  obtain ⟨_, target, htarget, hallowed⟩ :
    ApiCall (r.AllowedUpdate D.prim) past (.updateOrders u) := (h.event hev).1
  obtain rfl := Option.some.inj (hup.target.symm.trans htarget)
  rw [hup.body] at hallowed
  obtain ⟨pubkey, row, blob, nonceBytes, sigBytes', _, hsigned⟩ := hallowed
  obtain rfl := Option.some.inj (hsigned.signature.symm.trans hsig)
  exact ⟨u, pubkey, id, req, row, blob, nonceBytes, hu, hsigned, hsigned.guarded.2.1.symm⟩

/-- Two processes do not replace one version of one row. -/
theorem Deployment.Reaches.replaced_by_one (h : D.Reaches allow orders g) {pid pid' : Nat}
    {p p' : Process} (hp : g.procs[pid]? = some p) (hp' : g.procs[pid']? = some p') {k : Bytes}
    {v : Int} (hr : HasReplaced p.past k v) (hr' : HasReplaced p'.past k v) : pid = pid' := by
  obtain ⟨reply, hmem, hrep⟩ := hr
  obtain ⟨reply', hmem', hrep'⟩ := hr'
  exact Reachable.hit_proc (fun _ j _ => program_spec D j)
    (fun r => Replaces r k v) (fun s => Passed Order.version s.orders.find k v)
    (fun hc ha hr => hc.passes ha hr) (fun hc ha hp => (hc.step ha).passed hp) h hp hp' hmem hmem'
    hrep hrep'

/-- **A transition signature changes a row at most once.** Let a signature be of one message only.
In every run, restarts included:
* for each row and each version, at most one `update_order` that replaced it succeeds;
* a successful one stored a blob such that its signature verifies, under the authenticated public
  key, over the row's id, the replaced version, the blob's SHA-256 and the request's nonce;
* of the updates that took effect, no two changed one row with one signature. -/
theorem update_order_once
    (hideal : ∀ pk pk' m m' sig, D.prim.ed25519Verify pk m sig = true →
      D.prim.ed25519Verify pk' m' sig = true → m = m')
    (h : D.Reaches anyJob orders g) :
    (∀ pid pid' k v, UpdatedOrder g pid k v → UpdatedOrder g pid' k v → pid = pid') ∧
    (∀ pid p r id req, Succeeded g pid p r → IsUpdateOrder r id req →
      ∃ auth hour row blob nonceBytes sigBytes u, Authenticated r.headers p.past auth hour ∧
        UpdateOrderDone D.prim auth.pubkeyBytes id req p.past row blob nonceBytes sigBytes u ∧
        UpdatedOrder g pid row.id row.version) ∧
    g.history.Pairwise fun ev ev' => ∀ k sigBytes,
      ¬ (ChangedWith ev k sigBytes ∧ ChangedWith ev' k sigBytes) := by
  refine ⟨?_, fun pid p r id req hs hup => ?_, ?_⟩
  · rintro pid pid' k v ⟨p, r, id, req, hs, _, _, hr⟩ ⟨p', r', id', req', hs', _, _, hr'⟩
    exact h.replaced_by_one hs.proc hs'.proc hr hr'
  · obtain ⟨auth, hour, row, blob, nonceBytes, sigBytes, u, hauth, hdone⟩ := h.updateOrderDone hs hup
    have hsigned := hdone.signed
    obtain ⟨n, hn, hmem⟩ := hdone.effective
    refine ⟨auth, hour, row, blob, nonceBytes, sigBytes, u, hauth, hdone, p, r, id, req, hs, hup,
      hsigned.rowId, _, hmem, u, effectiveUpdate_eq_some.mpr ⟨n, hn, rfl⟩, hsigned.guarded.2⟩
  · refine List.pairwise_iff_getElem.mpr fun i i' hi hi' hlt k sigBytes ⟨hc, hc'⟩ => ?_
    obtain ⟨u, pk, _, _, row, _, _, hu, hsigned, hk⟩ := h.changedWith (List.getElem_mem hi) hc
    obtain ⟨u', pk', _, _, row', _, _, hu', hsigned', hk'⟩ :=
      h.changedWith (List.getElem_mem hi') hc'
    -- one signature, so one message, so one version
    obtain ⟨_, hver⟩ := Bool.and_eq_true_iff.mp hsigned.verified
    obtain ⟨_, hver'⟩ := Bool.and_eq_true_iff.mp hsigned'.verified
    have hcbor := hideal _ _ _ _ _ hver hver'
    have hversion : row.version = row'.version :=
      toCbor_prevVersion hcbor (hk.trans hk'.symm) rfl hsigned.inRange hsigned'.inRange
    refine List.pairwise_iff_getElem.mp (h.replaced_once k row.version) i i' hi hi' hlt ⟨?_, ?_⟩
    · exact ⟨u, hu, hsigned.guarded.2.1.trans hk, hsigned.guarded.2.2⟩
    · exact ⟨u', hu', hsigned'.guarded.2.1.trans hk', hversion ▸ hsigned'.guarded.2.2⟩

end Reaches

namespace Sample

def update : Login where
  path := "/orders/" ++ orderId ++ "/update"
  nonce := "03"
  hmac := "14125cdd2d6afbc39253673887b10b129d17a4cc6372841948acff3c08fb0d8b"
  signature :=
    "cd742407c8dbc940791afed40c94d59044633459e33e340a8a35e86f44801975" ++
    "caa37b55af70d2d9bd06704e780093a3fc24040031ae5c76f8c00ca88edad80f"

/-- A transition signature of the client, for the blob `010203` in place of version 1. -/
structure Transition where
  hourBucket : UInt64
  signature : String

def freshTransition : Transition where
  hourBucket
  signature :=
    "72085dd2baa39c11fcff66a7ef9237fab281d3280afd814d1e3b80c901413cee" ++
    "d2178364a85a6b5b1f64439d3add015d02682345dabca67a92e8922a301c4c0b"

def blobHash : Bytes := hex "039058c6f2c0cb492c533b0a4d14ef77cc0f78abccced5287d84a1a2011cfb81"

def Transition.payload (t : Transition) : TransitionPayload :=
  .new (hex orderId) 1 blobHash (hex "aa") t.hourBucket

def Transition.request (t : Transition) : UpdateOrderRequest := ⟨"AQID", t.signature, "aa", t.hourBucket⟩

/-- The values that an `update_order` with the signature `t` needs that is authenticated by `l`. -/
def updateTables (l : Login) (t : Transition) : Primitives.Tables :=
  let tables := loginTables [l]
  { tables with
    sha256 := [([1, 2, 3], blobHash)]
    signatures := (pubkey, t.payload.toCbor, hex t.signature) :: tables.signatures }

def updateDeployment (l : Login) (t : Transition) : Deployment := deployment (updateTables l t) none

def updateRun (l : Login) (t : Transition) : List (Label Job Choice) :=
  .spawn (.request (l.post (.updateOrder t.request))) :: acts 0 6

/-- Process `pid` of `g` is the request, and it has succeeded. -/
def succeeded (pid : Nat) (r : Request) (g : System) : Bool :=
  g.procs[pid]?.any fun p => decide (p.job = .request r) && p.prog.result.any Except.isOk

theorem succeeded_iff {pid : Nat} {r : Request} {g : System} :
    succeeded pid r g = true ↔ ∃ p, Succeeded g pid p r := by
  simp only [succeeded, Option.any_eq_true, Bool.and_eq_true, decide_eq_true_eq]
  constructor
  · rintro ⟨p, hp, hj, res, hres, hok⟩
    cases res with
    | ok resp => exact ⟨p, hp, hj, resp, hres⟩
    | error _ => exact absurd hok (by simp [Except.isOk, Except.toBool])
  · rintro ⟨p, hp, hj, resp, hres⟩
    exact ⟨p, hp, hj, _, hres, rfl⟩

def updateTrace : (updateDeployment update freshTransition).Trace anyJob (orders [])
    (succeeded 0 (update.post (.updateOrder freshTransition.request))) where
  labels := updateRun update freshTransition
  allowed _ _ _ := trivial
  passes := by decide +kernel

/-- The signatures of a table are of one message each, if they differ. -/
theorem ofTables_ideal {t : Primitives.Tables} (hnd : (t.signatures.map fun e => e.2.2).Nodup)
    (pk pk' m m' sig : Bytes) (h : (Primitives.ofTables t).ed25519Verify pk m sig = true)
    (h' : (Primitives.ofTables t).ed25519Verify pk' m' sig = true) : m = m' := by
  have hmem : (pk, m, sig) ∈ t.signatures := by simpa [Primitives.ofTables] using h
  have hmem' : (pk', m', sig) ∈ t.signatures := by simpa [Primitives.ofTables] using h'
  have heq := List.inj_on_of_nodup_map hnd hmem hmem' rfl
  exact (Prod.mk.inj (Prod.mk.inj heq).2).1

end Sample

open Sample in
/-- The update is accepted, and stays the only one with its signature. -/
theorem update_order_once_sample :
    ∃ g, (updateDeployment update freshTransition).Reaches anyJob (orders []) g ∧
      succeeded 0 (update.post (.updateOrder freshTransition.request)) g = true ∧
      g.history.Pairwise fun ev ev' => ∀ k sigBytes,
        ¬ (ChangedWith ev k sigBytes ∧ ChangedWith ev' k sigBytes) := by
  obtain ⟨g, hg, hok⟩ := updateTrace.reaches
  have hideal := ofTables_ideal (t := updateTables update freshTransition) (by decide +kernel)
  exact ⟨g, hg, hok, (update_order_once hideal hg).2.2⟩

/-! ## The hour of a transition signature -/

/-- What ties the transition signature of a successful `update_order` to its hour: the hour in the
payload that the signature was verified over is the one that the auth middleware has validated, and
so is recent by the clock that the middleware read. -/
def FreshlySigned (P : Primitives) (r : Request) (id : String) (req : UpdateOrderRequest)
    (past : Past) : Prop :=
  ∃ auth hour sigBytes payload now, Authenticated r.headers past auth hour ∧
    (∃ row blob nonceBytes u,
      UpdateOrderDone P auth.pubkeyBytes id req past row blob nonceBytes sigBytes u ∧
      payload = TransitionPayload.new row.id row.version (P.sha256 blob) nonceBytes req.hourBucket) ∧
    verifyTransition P auth.pubkeyBytes payload sigBytes = true ∧ payload.hourBucket = hour ∧
    ⟨.now, now⟩ ∈ past ∧ freshHour (hourOf now) payload.hourBucket = true

/-- **A transition signature is as fresh as the request it comes with exactly when the hour in the
body is the hour in the header.** -/
theorem transition_hour_iff {D : Deployment} {orders : OrdersTable} {g : System}
    (h : D.Reaches anyJob orders g) {pid : Nat} {p : Process} {r : Request} {id : String}
    {req : UpdateOrderRequest} (hs : Succeeded g pid p r) (hup : IsUpdateOrder r id req) :
    FreshlySigned D.prim r id req p.past ↔
      r.headers.hour.bind parseU64 = some req.hourBucket := by
  constructor
  · rintro ⟨auth, hour, sigBytes, payload, now, hauth, ⟨row, blob, nonceBytes, u, _, rfl⟩, _, hhour, _⟩
    rw [hauth.hour, ← hhour]
    rfl
  · intro heq
    obtain ⟨auth, hour, row, blob, nonceBytes, sigBytes, u, hauth, hdone⟩ := h.updateOrderDone hs hup
    obtain ⟨now, hnow, hfresh⟩ := hauth.fresh
    obtain rfl : hour = req.hourBucket := Option.some.inj (hauth.hour.symm.trans heq)
    exact ⟨auth, _, sigBytes, _, now, hauth, ⟨row, blob, nonceBytes, u, hdone, rfl⟩,
      hdone.signed.verified, rfl, hnow, hfresh⟩

open Sample in
/-- The update whose body names the hour of its header is freshly signed. -/
theorem transition_hour_iff_sample :
    ∃ g p r id req, (updateDeployment update freshTransition).Reaches anyJob (orders []) g ∧
      Succeeded g 0 p r ∧ FreshlySigned (updateDeployment update freshTransition).prim r id req p.past := by
  obtain ⟨g, hg, hok⟩ := updateTrace.reaches
  obtain ⟨p, hp⟩ := succeeded_iff.mp hok
  have hup : IsUpdateOrder (update.post (.updateOrder freshTransition.request)) orderId
      freshTransition.request := ⟨by decide +kernel, rfl⟩
  exact ⟨g, p, _, _, _, hg, hp, (transition_hour_iff hg hp hup).mpr (by decide +kernel)⟩

namespace Sample

def staleUpdate : Login where
  path := "/orders/" ++ orderId ++ "/update"
  nonce := "04"
  hmac := "e0e2c07c28d102f7468344a8390871aca6e3e71ddcad34f25e1c9d5d90712f1b"
  signature :=
    "2ef3f8357398e176ec5e4bdcc1be6c75e1af5f70d39f05b52c6a1d821414ab32" ++
    "1b9929e5f471d9efb88141b3f65ee846418a789316a3b356913d64dc0dac4103"

/-- Signed in hour 1. -/
def staleTransition : Transition where
  hourBucket := 1
  signature :=
    "7bb8731634baf66d4072e0d400ba72688221fedf392014e77675c91635effeb5" ++
    "6c19874652deaf5166b6de272507a5fa9666709e9296be4676be4bfcc7e30c0d"

def staleTrace : (updateDeployment staleUpdate staleTransition).Trace anyJob (orders [])
    (succeeded 0 (staleUpdate.post (.updateOrder staleTransition.request))) where
  labels := updateRun staleUpdate staleTransition
  allowed _ _ _ := trivial
  passes := by decide +kernel

end Sample

open Sample in
/-- In hour 472222 an update is accepted whose transition was signed in hour 1. -/
theorem stale_transition_accepted :
    ∃ g p r id req, (updateDeployment staleUpdate staleTransition).Reaches anyJob (orders []) g ∧
      Succeeded g 0 p r ∧ IsUpdateOrder r id req ∧ req.hourBucket = 1 ∧
      r.headers.hour.bind parseU64 = some 472222 ∧
      ¬ FreshlySigned (updateDeployment staleUpdate staleTransition).prim r id req p.past := by
  obtain ⟨g, hg, hok⟩ := staleTrace.reaches
  obtain ⟨p, hp⟩ := succeeded_iff.mp hok
  refine ⟨g, p, _, orderId, staleTransition.request, hg, hp, ⟨by decide +kernel, rfl⟩, rfl,
    by decide +kernel, ?_⟩
  rintro ⟨auth, hour, _, _, _, hauth, ⟨_, _, _, _, _, rfl⟩, _, hhour, _⟩
  have hparse : some hour = some 472222 := hauth.hour.symm.trans (by decide +kernel)
  have hstale : hour = 1 := hhour.symm
  rw [hstale] at hparse
  exact absurd hparse (by decide)

/-! ## Who verifies a transition signature -/

/-- The handlers that take a `transition_signature`. -/
inductive WriteEndpoint where
  | updateOrder
  | openDispute
  | updateDispute
  | updateChat
  deriving DecidableEq

/-- What the four handlers are given alike. -/
structure WriteRequest where
  endpoint : WriteEndpoint
  orderId : String
  blob : String
  transitionSignature : String
  nonce : String

/-- The request as one of the four writes. -/
def Request.write (r : Request) : Option WriteRequest :=
  match route r.method r.path, r.body with
  | some (.updateOrder id), .updateOrder req =>
    some ⟨.updateOrder, id, req.clientEncryptedBlob, req.transitionSignature, req.nonce⟩
  | some .openDispute, .openDispute req =>
    some ⟨.openDispute, req.orderId, req.clientEncryptedBlob, req.transitionSignature, req.nonce⟩
  | some (.updateDispute id), .updateDispute req =>
    some ⟨.updateDispute, id, req.clientEncryptedBlob, req.transitionSignature, req.nonce⟩
  | some (.updateChat id), .sendMessage req =>
    some ⟨.updateChat, id, req.chatEncryptedBlob, req.transitionSignature, req.nonce⟩
  | _, _ => none

/-- The column that the blob of the request is stored in. -/
def WriteEndpoint.column : WriteEndpoint → UpdateOrders → Option Bytes
  | .updateOrder => UpdateOrders.encryptedOrderBlob
  | .openDispute => UpdateOrders.disputeClientBlob
  | .updateDispute => UpdateOrders.disputeClientBlob
  | .updateChat => UpdateOrders.chatEncryptedBlob

/-- The transition signature of the request verifies under the authenticated public key, over a
payload with the row that was updated, the version that was replaced, the SHA-256 of the blob that
was stored, and the nonce of the request. -/
def AuthorisedByContent (P : Primitives) (headers : AuthHeaders) (w : WriteRequest) (past : Past) :
    Prop :=
  ∃ pubkey sigBytes nonceBytes blob u payload,
    headers.pubkey.bind hexDecode = some pubkey ∧
    hexDecode w.transitionSignature = some sigBytes ∧ hexDecode w.nonce = some nonceBytes ∧
    (∃ n, n ≠ 0 ∧ ⟨.updateOrders u, some n⟩ ∈ past) ∧ w.endpoint.column u = some blob ∧
    hexDecode w.orderId = some payload.orderId ∧ u.whereId = payload.orderId ∧
    u.whereVersion = some payload.prevVersion ∧ payload.newBlobSha256 = P.sha256 blob ∧
    payload.nonce = nonceBytes ∧ verifyTransition P pubkey payload sigBytes = true

/-- The requests to `e` that succeed in the runs of `D` have the property `R` of their headers, of
themselves, and of what their process was answered. -/
def OnSuccess (D : Deployment) (orders : OrdersTable) (e : WriteEndpoint)
    (R : AuthHeaders → WriteRequest → Past → Prop) : Prop :=
  ∀ g, D.Reaches anyJob orders g → ∀ pid p r w, Succeeded g pid p r → r.write = some w →
    w.endpoint = e → R r.headers w p.past

/-- The body with its transition signature replaced by text that is none, where the handler is not
`update_order`. -/
def Body.unsigned : Body → Body
  | .openDispute req => .openDispute { req with transitionSignature := "none" }
  | .updateDispute req => .updateDispute { req with transitionSignature := "none" }
  | .sendMessage req => .sendMessage { req with transitionSignature := "none" }
  | body => body

def Job.unsigned : Job → Job
  | .request r => .request { r with body := r.body.unsigned }
  | j => j

/-- **The other handlers do not look at the signature.** -/
theorem program_unsigned (D : Deployment) : ∀ j, D.program j.unsigned = D.program j
  | .request r => by
    have hhandle : ∀ auth target,
        handle D.api auth target r.body.unsigned = handle D.api auth target r.body := by
      intro auth target
      cases r.body <;> cases target <;> rfl
    simp only [Job.unsigned, Deployment.program, handleRequest, hhandle]
  | .checkPendingPayments => rfl
  | .checkTimeLocks => rfl
  | .scanNotifications => rfl
  | .runDummyWorker => rfl
  | .restartApi => rfl
  | .restartWorker => rfl

theorem write_unsigned {r : Request} {w : WriteRequest} (hw : r.write = some w)
    (he : w.endpoint ≠ .updateOrder) :
    Request.write { r with body := r.body.unsigned } =
      some { w with transitionSignature := "none" } := by
  obtain ⟨method, path, headers, body⟩ := r
  simp only [Request.write] at hw ⊢
  split at hw
  · obtain rfl := Option.some.inj hw
    exact absurd rfl he
  all_goals first
    | (rename_i hroute; obtain rfl := Option.some.inj hw; rw [hroute]; rfl)
    | exact absurd hw (by simp)

/-- A successful update is authorised by its content. -/
theorem Deployment.Reaches.authorised {D : Deployment} {orders : OrdersTable} {g : System}
    (h : D.Reaches anyJob orders g) {pid : Nat} {p : Process} {r : Request} {w : WriteRequest}
    (hs : Succeeded g pid p r) (hw : r.write = some w) (he : w.endpoint = .updateOrder) :
    AuthorisedByContent D.prim r.headers w p.past := by
  unfold Request.write at hw
  split at hw
  case h_1 id req hroute hbody =>
    obtain rfl := Option.some.inj hw
    obtain ⟨auth, hour, row, blob, nonceBytes, sigBytes, u, hauth, hdone⟩ :=
      h.updateOrderDone hs ⟨hroute, hbody⟩
    have hsigned := hdone.signed
    exact ⟨auth.pubkeyBytes, sigBytes, nonceBytes, blob, u, _, hauth.pubkey, hsigned.signature,
      hsigned.nonce, hdone.effective, hsigned.stored, hsigned.rowId, hsigned.guarded.2.1,
      hsigned.guarded.2.2, rfl, rfl, hsigned.verified⟩
  all_goals first
    | (obtain rfl := Option.some.inj hw; exact absurd he (by simp))
    | exact absurd hw (by simp)

/-- **Of the four handlers only `update_order` is authorised by content.** For every deployment, all
successful requests to a handler are, if and only if it is `update_order` or none ever succeeds. -/
theorem authorised_by_content_iff (D : Deployment) (orders : OrdersTable) (e : WriteEndpoint) :
    OnSuccess D orders e (AuthorisedByContent D.prim) ↔
      e = .updateOrder ∨ OnSuccess D orders e fun _ _ _ => False := by
  constructor
  · refine fun hall => or_iff_not_imp_left.mpr fun hne g hg pid p r w hs hw he => ?_
    -- the run with the signatures replaced is a run, and succeeds where this one does
    have hg' : D.Reaches anyJob orders (g.mapJob Job.unsigned) :=
      Reachable.mapJob (program_unsigned D) (fun _ _ _ => trivial) hg
    have hs' : Succeeded (g.mapJob Job.unsigned) pid (p.mapJob Job.unsigned)
        { r with body := r.body.unsigned } :=
      ⟨by simp [Config.mapJob, hs.proc], congrArg Job.unsigned hs.job, hs.ok⟩
    have hw' := write_unsigned hw (he ▸ hne)
    obtain ⟨_, sigBytes, _, _, _, _, _, hsig, _⟩ := hall _ hg' pid _ _ _ hs' hw' he
    have hnone : hexDecode "none" = none := by decide +kernel
    exact absurd (hnone.symm.trans hsig) (by simp)
  · rintro (rfl | hnone) g hg pid p r w hs hw he
    · exact hg.authorised hs hw he
    · exact (hnone g hg pid p r w hs hw he).elim

namespace Sample

def dispute : Login where
  path := "/disputes"
  nonce := "05"
  hmac := "f7d9220fb659ddbb0be42e9ff5800e3cc392d58ef098818be454b77e03d97da6"
  signature :=
    "02276383c0200e7dc9f8cd6ca292bd61a09e10afdd6d7862b73fcb77027c7668" ++
    "ede6e707be06f744e522420d9ffcbe22c7b6afbf4a0ed144cad26433d3cfbc06"

def zeroSignature : String := hexEncode (List.replicate 64 0)

def zeroDispute : Request := dispute.post (.openDispute ⟨orderId, "AQID", zeroSignature, "n1"⟩)

def disputeTrace : (deployment (loginTables [dispute]) none).Trace anyJob (orders [])
    (succeeded 0 zeroDispute) where
  labels := .spawn (.request zeroDispute) :: acts 0 7
  allowed _ _ _ := trivial
  passes := by decide +kernel

end Sample

open Sample in
/-- A dispute is opened with a signature of 64 zero bytes. -/
theorem open_dispute_unauthorised :
    ∃ g p r w, (deployment (loginTables [dispute]) none).Reaches anyJob (orders []) g ∧
      Succeeded g 0 p r ∧ r.write = some w ∧ w.endpoint = .openDispute ∧
      hexDecode w.transitionSignature = some (List.replicate 64 0) ∧
      ¬ AuthorisedByContent (deployment (loginTables [dispute]) none).prim r.headers w p.past := by
  obtain ⟨g, hg, hok⟩ := disputeTrace.reaches
  obtain ⟨p, hp⟩ := succeeded_iff.mp hok
  have hroute : route .post dispute.path = some .openDispute := by decide +kernel
  have hzero : hexDecode zeroSignature = some (List.replicate 64 0) := by decide +kernel
  refine ⟨g, p, zeroDispute, ⟨.openDispute, orderId, "AQID", zeroSignature, "n1"⟩, hg, hp, ?_, rfl,
    hzero, ?_⟩
  · unfold Request.write
    rw [show route zeroDispute.method zeroDispute.path = some .openDispute from hroute]
    rfl
  · rintro ⟨pubkey', sigBytes, _, _, _, payload, _, hsig, _, _, _, _, _, _, _, _, hver⟩
    obtain rfl := Option.some.inj (hzero.symm.trans hsig)
    -- the only signature that verifies is that of the login
    have hmem : (pubkey', payload.toCbor, List.replicate 64 0) ∈ (loginTables [dispute]).signatures := by
      simpa [deployment, Primitives.ofTables] using (Bool.and_eq_true_iff.mp hver).2
    obtain ⟨_, _, hlogin⟩ := (by simpa [loginTables] using hmem :
      pubkey' = pubkey ∧ payload.toCbor = _ ∧ List.replicate 64 0 = hex dispute.signature)
    exact absurd hlogin (by decide +kernel)

end TorMarketplace
