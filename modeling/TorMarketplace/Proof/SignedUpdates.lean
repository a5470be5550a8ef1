import TorMarketplace.Frontend.Transition
import TorMarketplace.Proof.Conflicts
import TorMarketplace.Proof.FundedShown
import TorMarketplace.Proof.Sessions
import TorMarketplace.Proof.TransitionAuth

/-!
# When a signed update succeeds

An update that is signed for a version the order has had can be refused by the others only: by one who has
replaced that version, or by one who has used its nonce. If it succeeds, nobody else ever replaces the
version.
-/

namespace TorMarketplace

open Encoding Interleave Js Prog Versioned

/-! ## What the client signs -/

/-- The payload of an update of the order `k`. -/
def updatePayload (P : Primitives) (k : Bytes) (version : Int) (blob nonceBytes : Bytes) (hour : UInt64) :
    TransitionPayload :=
  TransitionPayload.new k version (P.sha256 blob) nonceBytes hour

/-- The client can sign this payload, and the signature is of nothing else. -/
structure Signer.Signs (P : Primitives) (s : Signer) (pubkey : Bytes) (payload : TransitionPayload) :
    Prop where
  seckey : s.seckey.length = 64
  hash : payload.newBlobSha256.length = 32
  isKey : P.isVerifyingKey pubkey = true
  signature : (s.signWith (s.seckey.take 32) payload.toCbor).length = 64
  verifies : ∀ m, P.ed25519Verify pubkey m (s.signWith (s.seckey.take 32) payload.toCbor) = true ↔
    m = payload.toCbor

theorem wasm_signTransition {P : Primitives} {signWith : Bytes → Bytes → Bytes} {seed k blob nonceBytes : Bytes}
    {version : Int64} {hour : UInt64} (hseed : seed.length = 32) (hhash : (P.sha256 blob).length = 32) :
    Wasm.signTransition signWith seed k version (P.sha256 blob) nonceBytes hour =
      .ok (signWith seed (updatePayload P k version.toInt blob nonceBytes hour).toCbor) := by
  have hcbor : Wasm.transitionToCbor k version (P.sha256 blob) nonceBytes hour =
      .ok (updatePayload P k version.toInt blob nonceBytes hour).toCbor := by
    unfold Wasm.transitionToCbor
    rw [if_neg (by simp [hhash])]
    rfl
  unfold Wasm.signTransition
  rw [if_neg (by simp [hseed]), hcbor]
  rfl

/-- The request that is made of it. -/
theorem Signer.Signs.updateRequest {P : Primitives} {s : Signer} {pubkey k nonceBytes : Bytes}
    {version : Int64} {blobB64 : String} {hour : UInt64}
    (h : s.Signs P pubkey (updatePayload P k version.toInt (Api.base64ToU8 blobB64) nonceBytes hour)) :
    s.updateRequest P (hexEncode k) version blobB64 nonceBytes hour =
      .ok ⟨blobB64, hexEncode (s.signWith (s.seckey.take 32)
        (updatePayload P k version.toInt (Api.base64ToU8 blobB64) nonceBytes hour).toCbor),
        hexEncode nonceBytes, hour⟩ := by
  have hid : hexToU8 (ascii (hexEncode k)) = k := hexToU8_u8ToHex k
  have hsign : Wasm.signTransition s.signWith (s.seckey.take 32) k version
      (P.sha256 (Api.base64ToU8 blobB64)) nonceBytes hour = .ok (s.signWith (s.seckey.take 32)
        (updatePayload P k version.toInt (Api.base64ToU8 blobB64) nonceBytes hour).toCbor) :=
    wasm_signTransition (by simp [h.seckey]) h.hash
  unfold Signer.updateRequest Signer.signTransition
  dsimp only
  rw [hid, hsign]
  rfl

/-! ## How the handler ends -/

/-- How `update_order` ends for the order `k`, by what it is answered. -/
inductive UpdateEnds (P : Primitives) (pubkey k blob nonceBytes sigBytes : Bytes)
    (req : UpdateOrderRequest) (past : Past) : Except Failure Response → Prop
  | used (hold : ⟨.insertNonce .updateOrder (nonceKey (hexEncode k) req.nonce), false⟩ ∈ past)
      (hnew : recorded .updateOrder (nonceKey (hexEncode k) req.nonce) ∉ past) :
      UpdateEnds P pubkey k blob nonceBytes sigBytes req past
        (.error (conflict "Update-order nonce already used"))
  | failed : UpdateEnds P pubkey k blob nonceBytes sigBytes req past (.error dbError)
  | missing (h : ⟨.selectOrder k, some none⟩ ∈ past) :
      UpdateEnds P pubkey k blob nonceBytes sigBytes req past (.error (notFound "Order not found"))
  | unsigned {row : Order} (hread : ⟨.selectOrder k, some (some row)⟩ ∈ past)
      (hver : verifyTransition P pubkey (updatePayload P k row.version blob nonceBytes req.hourBucket)
        sigBytes = false) :
      UpdateEnds P pubkey k blob nonceBytes sigBytes req past
        (.error (authFailed "Transition signature invalid"))
  | refused {row : Order} {u : UpdateOrders} (hread : ⟨.selectOrder k, some (some row)⟩ ∈ past)
      (hver : verifyTransition P pubkey (updatePayload P k row.version blob nonceBytes req.hourBucket)
        sigBytes = true) (hguard : u.GuardedBy row) (hwrite : ⟨.updateOrders u, some 0⟩ ∈ past) :
      UpdateEnds P pubkey k blob nonceBytes sigBytes req past (.error modified)
  | written {row : Order} {u : UpdateOrders} {n : Nat}
      (hread : ⟨.selectOrder k, some (some row)⟩ ∈ past)
      (hver : verifyTransition P pubkey (updatePayload P k row.version blob nonceBytes req.hourBucket)
        sigBytes = true) (hguard : u.GuardedBy row)
      (hwrite : ⟨.updateOrders u, some (n + 1)⟩ ∈ past) :
      UpdateEnds P pubkey k blob nonceBytes sigBytes req past
        (.ok (.order ⟨hexEncode k, some req.clientEncryptedBlob, row.dayBucket, row.expiryBucket,
          row.version + 1, false⟩))

section Programs

variable {st : AppState} {k blob nonceBytes sigBytes : Bytes} {req : UpdateOrderRequest}

theorem updateOrder_ends {auth : Authed} (hblob : base64Decode req.clientEncryptedBlob = some blob)
    (hne : blob ≠ []) (hlen : blob.length ≤ maxOrderBlobBytes) (hnonce : hexDecode req.nonce = some nonceBytes)
    (hsig : hexDecode req.transitionSignature = some sigBytes) (hsigLen : sigBytes.length = 64)
    {past : Past} (hnew : recorded .updateOrder (nonceKey (hexEncode k) req.nonce) ∉ past) :
    Spec server.May (fun _ _ => True)
      (UpdateEnds st.prim auth.pubkeyBytes k blob nonceBytes sigBytes req) past
      (updateOrder st auth (hexEncode k) req >>= fun resp => pure (.order resp)) := by
  simp only [updateOrder, bind_bind, hexDecode_hexEncode, hblob, hnonce, hsig, orFail_some_bind,
    ensure_true_bind, decide_true, hne, hlen, hsigLen, ne_eq, not_false_eq_true, spec_call_bind,
    spec_ensure_bind, spec_orFail_bind, true_and]
  intro fresh _
  refine ⟨fun hseen => .used (by simp [hseen]) (by simp [hnew, hseen, recorded]), fun _ current hmay => ⟨fun _ => .failed, fun found hfound =>
    ⟨fun hnone => .missing (by simp [hfound, hnone]), fun row hrow => ?_⟩⟩⟩
  subst hfound hrow
  obtain ⟨hid, _⟩ := may_selectOrder hmay
  refine ⟨fun hbad => .unsigned (by simp) hbad, fun hgood affected _ =>
    ⟨fun _ => .failed, fun n hn => ?_⟩⟩
  subst hn
  cases n with
  | zero =>
    refine ⟨fun _ => .refused (by simp) hgood ⟨rfl, hid.symm, rfl⟩ List.mem_concat_self, fun hno => ?_⟩
    exact absurd hno (by simp)
  | succ n =>
    exact ⟨fun hno => absurd hno (by simp), fun _ =>
      .written (by simp) hgood ⟨rfl, hid.symm, rfl⟩ List.mem_concat_self⟩

/-- The path of the client's request. -/
def updatePath (k : Bytes) : String := "/orders/" ++ hexEncode k ++ "/update"

theorem exempt_updatePath (k : Bytes) : exemptPath (updatePath k) = false := by
  have hpath : utf8 (updatePath k) = utf8 "/orders/" ++ utf8 (hexEncode k ++ "/update") := by
    rw [updatePath, String.append_assoc, utf8_append]
  have hstart : utf8 "/orders/" = [47, 111, 114, 100, 101, 114, 115, 47] := by decide +kernel
  have hauth : utf8 "/auth/" = [47, 97, 117, 116, 104, 47] := by decide +kernel
  have hapi : utf8 "/api/auth/" = [47, 97, 112, 105, 47, 97, 117, 116, 104, 47] := by decide +kernel
  have hpublic : utf8 "/public/" = [47, 112, 117, 98, 108, 105, 99, 47] := by decide +kernel
  simp only [exemptPath, startsWith, hpath, hstart, hauth, hapi, hpublic]
  rfl

theorem route_updatePath {k : Bytes} (hk : k ≠ []) :
    route .post (updatePath k) = some (.updateOrder (hexEncode k)) := by
  have hplain : (37 : UInt8) ∉ utf8 (hexEncode k) := by
    rw [utf8_hexEncode, List.mem_flatMap]
    rintro ⟨x, _, hx⟩
    have hall : ∀ x : UInt8, (37 : UInt8) ∉ hexPair x := forall_byte (by decide +kernel)
    exact hall x hx
  have hnonempty : hexEncode k ≠ "" := fun h => hk (hexEncode_inj (h.trans (by rfl)))
  have hparam : pathParam (hexEncode k) = some (hexEncode k) := by
    rw [pathParam, if_neg hnonempty, Api.percentDecode_plain hplain, ofUtf8_utf8]
  unfold route updatePath
  rw [(Api.pathSegments_hexEncode k).2]
  exact congrArg (Option.map Route.updateOrder) hparam

/-- What the middleware leaves of a request that is authenticated by the key. -/
def AdmitsAs (pubkey : Bytes) (past : Past) (result : Except Failure (Option Authed)) : Prop :=
  ⟨.ask .layersAdmit, true⟩ ∉ past ∧ (∀ set key, recorded set key ∉ past) ∧
    ∀ auth, result = .ok auth → ∃ authed, auth = some authed ∧ authed.pubkeyBytes = pubkey

theorem middleware_admitsAs {path : String} {headers : AuthHeaders} {pubkey : Bytes}
    (hpath : exemptPath path = false) (hpubkey : headers.pubkey.bind hexDecode = some pubkey) :
    Spec server.May (fun _ _ => True) (AdmitsAs pubkey) [] (statelessAuthMiddleware st path headers) := by
  obtain ⟨hexText, htext, hbytes⟩ := Option.bind_eq_some_iff.mp hpubkey
  unfold statelessAuthMiddleware
  rw [if_neg (by simp [hpath])]
  simp [AdmitsAs, recorded, htext, hbytes]

theorem handleRequest_updateEnds {headers : AuthHeaders} {pubkey : Bytes} (hk : k ≠ [])
    (hpubkey : headers.pubkey.bind hexDecode = some pubkey)
    (hblob : base64Decode req.clientEncryptedBlob = some blob)
    (hne : blob ≠ []) (hlen : blob.length ≤ maxOrderBlobBytes) (hnonce : hexDecode req.nonce = some nonceBytes)
    (hsig : hexDecode req.transitionSignature = some sigBytes) (hsigLen : sigBytes.length = 64) :
    Spec server.May (fun _ _ => True)
      (fun past result => ⟨.ask .layersAdmit, true⟩ ∈ past →
        UpdateEnds st.prim pubkey k blob nonceBytes sigBytes req past result) []
      (handleRequest st ⟨.post, updatePath k, headers, .updateOrder req⟩) := by
  unfold handleRequest
  refine spec_seq (middleware_admitsAs (exempt_updatePath k) hpubkey) (fun past auth hadmits => ?_)
    fun past e hadmits hin => absurd hin hadmits.1
  obtain ⟨hno, hnew, hauth⟩ := hadmits
  obtain ⟨authed, rfl, rfl⟩ := hauth auth rfl
  refine spec_call_bind.mpr ⟨trivial, fun admitted _ => ?_⟩
  rw [route_updatePath hk, orFail_some_bind, spec_ensure_bind]
  refine ⟨fun hrefused hin => ?_, fun _ => ?_⟩
  · rcases List.mem_append.mp hin with hin | hin
    · exact absurd hin hno
    · exact absurd hin (by simp [hrefused])
  · have hends : Spec server.May (fun _ _ => True)
        (UpdateEnds st.prim authed.pubkeyBytes k blob nonceBytes sigBytes req)
        (past ++ [⟨.ask .layersAdmit, admitted⟩])
        (handle st (some authed) (.updateOrder (hexEncode k)) (.updateOrder req)) :=
      updateOrder_ends hblob hne hlen hnonce hsig hsigLen (by simp [hnew, recorded])
    refine spec_mono (fun _ _ h => h) (fun past' result h => ?_) hends
    exact fun _ => h

end Programs

/-! ## Runs -/

section Reaches

variable {D : Deployment} {orders : OrdersTable} {g : System}

/-- A row that has been seen is there. -/
theorem find_of_seen (h : D.Reaches anyJob orders g) {id : Bytes} {v : Int}
    (hseen : Api.SeenIn id v g.history) : ∃ o, g.shared.orders.find id = some o := by
  obtain ⟨ev, hev, o, ho, _⟩ := hseen
  obtain ⟨l, l', hl⟩ := List.append_of_mem hev
  have hknown := Reachable.since (K := fun s => Known Order.version s.orders.find id o) h hl
    (Known.of_some ho) fun e he hknown => ?_
  · obtain ⟨o', ho', _⟩ := hknown
    exact ⟨o', ho'⟩
  · obtain ⟨hcall, _, ha⟩ := h.event (show e ∈ g.history by simp [hl, he])
    exact (hcall.step ha).known hknown

/-- What a call finds of a row that has been seen before its process began: the row in the version that
was seen, or that version has been replaced by now. -/
theorem found_of_seen (h : D.Reaches anyJob orders g) {l m : List Effect} (hl : g.history = l ++ m)
    {pid : Nat} (hbefore : ∀ ev ∈ l, ev.pid ≠ pid) {id : Bytes} {v : Int} (hseen : Api.SeenIn id v l)
    {ev : Effect} (hev : ev ∈ g.history) (hpid : ev.pid = pid) :
    ∃ o, ev.before.orders.find id = some o ∧ (o.version = v ∨ Api.ReplacedIn id v g.history) := by
  have hin : ev ∈ m := by
    rcases List.mem_append.mp (hl ▸ hev) with hin | hin
    · exact absurd hpid (hbefore ev hin)
    · exact hin
  obtain ⟨m₁, m₂, rfl⟩ := List.append_of_mem hin
  have hl' : g.history = (l ++ m₁) ++ ev :: m₂ := by simp [hl]
  obtain ⟨g₀, hg₀, hhist, hshared, _⟩ := Reachable.upTo h hl'
  have hseen₀ : Api.SeenIn id v g₀.history := hhist ▸ hseen.mono (List.prefix_append _ _)
  obtain ⟨o, ho⟩ := find_of_seen hg₀ hseen₀
  refine ⟨o, hshared ▸ ho, ?_⟩
  by_cases hv : o.version = v
  · exact .inl hv
  · obtain ⟨ev', hev', hreplaces⟩ := Api.replacedIn_of_seen hg₀ hseen₀ ho hv
    exact .inr ⟨ev', by rw [hl', ← hhist]; exact List.mem_append_left _ hev', hreplaces⟩

/-- Another process has replaced version `v` of the row. -/
def OvertakenBy (g : System) (pid : Nat) (k : Bytes) (v : Int) : Prop :=
  ∃ ev ∈ g.history, ev.pid ≠ pid ∧ Replaces ev.reply k v

/-- A failed request has replaced nothing itself. -/
theorem overtakenBy_of_failed (h : D.Reaches anyJob orders g) {pid : Nat} {p : Process}
    (hp : g.procs[pid]? = some p) {r : Request} (hjob : p.job = .request r) {e : Failure}
    (hfailed : p.prog.result = some (.error e)) {k : Bytes} {v : Int}
    (hreplaced : Api.ReplacedIn k v g.history) : OvertakenBy g pid k v := by
  obtain ⟨ev, hev, hreplaces⟩ := hreplaced
  refine ⟨ev, hev, fun hpid => ?_, hreplaces⟩
  obtain ⟨u, hu, hid, _⟩ := hreplaces
  exact h.hasWon hev (updatesRow_iff.mpr ⟨u, hu, hid⟩) p r e (hpid ▸ hp) hjob hfailed

/-- Who has replaced a version is the only one to do so. -/
theorem not_overtakenBy (h : D.Reaches anyJob orders g) {pid : Nat} {p : Process}
    (hp : g.procs[pid]? = some p) {reply : Reply Server} (hreply : reply ∈ p.past) {k : Bytes} {v : Int}
    (hreplaces : Replaces reply k v) : ¬ OvertakenBy g pid k v := by
  rintro ⟨ev, hev, hpid, hreplaces'⟩
  obtain ⟨p', hp', _⟩ := Reachable.event_job h ev hev
  have hpast : ev.reply ∈ p'.past := by
    rw [Reachable.past_eq h hp']
    exact List.mem_map_of_mem (List.mem_filter.mpr ⟨hev, decide_eq_true rfl⟩)
  exact hpid (h.replaced_by_one hp' hp ⟨_, hpast, hreplaces'⟩ ⟨_, hreply, hreplaces⟩)

/-- Process `pid` is a request to update the order `k` that is signed for its version `version`; it has
come through the layers and has ended. -/
structure SignedRequest (D : Deployment) (g : System) (pid : Nat) (k : Bytes) (version : Int64) where
  signer : Signer
  pubkey : Bytes
  headers : AuthHeaders
  blobB64 : String
  blob : Bytes
  nonceBytes : Bytes
  hour : UInt64
  req : UpdateOrderRequest
  process : Process
  result : Except Failure Response
  signs : signer.Signs D.prim pubkey (updatePayload D.prim k version.toInt blob nonceBytes hour)
  made : signer.updateRequest D.prim (hexEncode k) version blobB64 nonceBytes hour = .ok req
  key : headers.pubkey.bind hexDecode = some pubkey
  order : k ≠ []
  decoded : base64Decode blobB64 = some blob
  nonempty : blob ≠ []
  length : blob.length ≤ maxOrderBlobBytes
  proc : g.procs[pid]? = some process
  job : process.job = .request ⟨.post, updatePath k, headers, .updateOrder req⟩
  passed : ⟨.ask .layersAdmit, true⟩ ∈ process.past
  done : process.prog.result = some result

namespace SignedRequest

variable {pid : Nat} {k : Bytes} {version : Int64}

/-- The bytes of the signature. -/
def sigBytes (R : SignedRequest D g pid k version) : Bytes :=
  R.signer.signWith (R.signer.seckey.take 32)
    (updatePayload D.prim k version.toInt R.blob R.nonceBytes R.hour).toCbor

theorem req_eq (R : SignedRequest D g pid k version) :
    R.req = ⟨R.blobB64, hexEncode R.sigBytes, hexEncode R.nonceBytes, R.hour⟩ := by
  have hblob : Api.base64ToU8 R.blobB64 = R.blob := by rw [Api.base64ToU8, R.decoded, Option.getD_some]
  have hmade := R.made
  rw [(hblob ▸ R.signs : R.signer.Signs D.prim R.pubkey (updatePayload D.prim k version.toInt
    (Api.base64ToU8 R.blobB64) R.nonceBytes R.hour)).updateRequest, hblob] at hmade
  exact (Except.ok.inj hmade).symm

theorem ends (R : SignedRequest D g pid k version) (h : D.Reaches anyJob orders g) :
    UpdateEnds D.prim R.pubkey k R.blob R.nonceBytes R.sigBytes R.req R.process.past R.result := by
  have hreq := R.req_eq
  refine h.post_request (Q := fun r past result => r = ⟨.post, updatePath k, R.headers, .updateOrder R.req⟩ →
    ⟨.ask .layersAdmit, true⟩ ∈ past → UpdateEnds D.prim R.pubkey k R.blob R.nonceBytes R.sigBytes R.req
      past result) (fun r => ?_) (List.mem_of_getElem? R.proc) R.job R.done rfl R.passed
  by_cases hr : r = ⟨.post, updatePath k, R.headers, .updateOrder R.req⟩
  · subst hr
    refine spec_mono (fun _ _ h => h) (fun _ _ h => ?_) (handleRequest_updateEnds R.order R.key
      (hreq ▸ R.decoded) R.nonempty R.length (by rw [hreq]; exact hexDecode_hexEncode _)
      (by rw [hreq]; exact hexDecode_hexEncode _) R.signs.signature)
    exact fun _ => h
  · exact spec_of_forall (fun _ _ => trivial) fun _ _ heq => absurd heq hr

/-- The signature is good for the version that it was made for, and for no other. -/
theorem verifies_iff (R : SignedRequest D g pid k version) {v : Int} (hv : IsI64 v) :
    verifyTransition D.prim R.pubkey (updatePayload D.prim k v R.blob R.nonceBytes R.req.hourBucket)
      R.sigBytes = true ↔ v = version.toInt := by
  have hour : R.req.hourBucket = R.hour := by rw [R.req_eq]
  rw [verifyTransition, R.signs.isKey, Bool.true_and, sigBytes, R.signs.verifies, hour]
  constructor
  · exact fun heq => toCbor_prevVersion heq rfl rfl hv ⟨version.le_toInt, version.toInt_lt⟩
  · rintro rfl
    rfl

/-- The row that the signature was good for. -/
theorem row_of_read (R : SignedRequest D g pid k version) (h : D.Reaches anyJob orders g) {row : Order}
    (hread : ⟨.selectOrder k, some (some row)⟩ ∈ R.process.past)
    (hver : verifyTransition D.prim R.pubkey
      (updatePayload D.prim k row.version R.blob R.nonceBytes R.req.hourBucket) R.sigBytes = true) :
    row.id = k ∧ row.version = version.toInt := by
  obtain ⟨ev, hev, _, hreply⟩ := Reachable.event_of_past h R.proc hread
  obtain ⟨_, e, ha⟩ := h.event hev
  rw [hreply] at ha
  obtain ⟨hid, hrange⟩ := may_selectOrder ⟨e, _, _, ha⟩
  exact ⟨hid, (R.verifies_iff hrange).mp hver⟩

end SignedRequest

/-- **A signed update can be refused by the others only.** The order had the version that the request is
signed for before the request began. -/
theorem signed_update_refused_by_others (h : D.Reaches anyJob orders g) {pid : Nat} {k : Bytes}
    {version : Int64} (R : SignedRequest D g pid k version) {l m : List Effect}
    (hl : g.history = l ++ m) (hbefore : ∀ ev ∈ l, ev.pid ≠ pid) (hseen : Api.SeenIn k version.toInt l) :
    (R.result = .error (conflict "Update-order nonce already used") ∧ ∃ ev ∈ g.history, ev.pid ≠ pid ∧
      ev.reply = recorded .updateOrder (nonceKey (hexEncode k) R.req.nonce)) ∨
    R.result = .error dbError ∨
    ((∃ resp, R.result = .ok (.order resp) ∧ resp.version = version.toInt + 1 ∧
      resp.clientEncryptedBlob = some R.blobB64) ∧ ¬ OvertakenBy g pid k version.toInt) ∨
    ((R.result = .error (authFailed "Transition signature invalid") ∨ R.result = .error modified) ∧
      OvertakenBy g pid k version.toInt) := by
  have hends := R.ends h
  have hdone := R.done
  generalize R.result = result at hends hdone ⊢
  cases hends with
  | used hold hnew =>
    obtain ⟨ev, hev, _, hreply⟩ := Reachable.event_of_past h R.proc hold
    obtain ⟨l₁, l₂, hsplit⟩ := List.append_of_mem hev
    obtain ⟨ev', hev', hreply'⟩ := h.replayed hsplit hreply
    have hin : ev' ∈ g.history := by simp [hsplit, hev']
    refine .inl ⟨rfl, ev', hin, fun hpid => hnew ?_, hreply'⟩
    rw [← hreply', Reachable.past_eq h R.proc]
    exact List.mem_map_of_mem (List.mem_filter.mpr ⟨hin, decide_eq_true hpid⟩)
  | failed => exact .inr (.inl rfl)
  | missing hread =>
    obtain ⟨ev, hev, hpid, hreply⟩ := Reachable.event_of_past h R.proc hread
    obtain ⟨o, ho, _⟩ := found_of_seen h hl hbefore hseen hev hpid
    obtain ⟨_, e, ha⟩ := h.event hev
    rw [hreply] at ha
    exact absurd (answer_selectOrder_found ha ho) (by simp)
  | @unsigned row hread hver =>
    obtain ⟨ev, hev, hpid, hreply⟩ := Reachable.event_of_past h R.proc hread
    obtain ⟨o, ho, hcase⟩ := found_of_seen h hl hbefore hseen hev hpid
    obtain ⟨_, e, ha⟩ := h.event hev
    rw [hreply] at ha
    obtain ⟨_, hfind, hrange⟩ := answer_selectOrder ha
    obtain rfl := Option.some.inj (ho.symm.trans hfind)
    refine .inr (.inr (.inr ⟨.inl rfl, overtakenBy_of_failed h R.proc R.job hdone ?_⟩))
    -- the signature is good for the version that was seen
    exact hcase.resolve_left fun hv => absurd ((R.verifies_iff hrange).mpr hv) (by simp [hver])
  | @refused row u hread hver hguard hwrite =>
    obtain ⟨ev, hev, hpid, hreply⟩ := Reachable.event_of_past h R.proc hwrite
    obtain ⟨o, ho, hcase⟩ := found_of_seen h hl hbefore hseen hev hpid
    refine .inr (.inr (.inr ⟨.inr rfl, overtakenBy_of_failed h R.proc R.job hdone ?_⟩))
    refine hcase.resolve_left fun hv => ?_
    -- the row has the version that the write names, so that it is not refused
    obtain ⟨hid, hversion⟩ := R.row_of_read h hread hver
    obtain ⟨_, e, ha⟩ := h.event hev
    rw [hreply] at ha
    rcases answer_updateOrders ha with ⟨hnone, _⟩ | ⟨hsome, _⟩
    · exact absurd hnone (by simp)
    · refine OrdersTable.rowsAffected_ne_zero.mpr ⟨o, ?_, ?_⟩ (Option.some.inj hsome).symm
      · rw [hguard.2.1, hid]
        exact ho
      · exact (hguard.matches_iff o).mpr ⟨(OrdersTable.find_some ho).2.trans hid.symm, hv.trans hversion.symm⟩
  | @written row u n hread hver hguard hwrite =>
    obtain ⟨hid, hversion⟩ := R.row_of_read h hread hver
    have hreplaces : Replaces ⟨.updateOrders u, some (n + 1)⟩ k version.toInt :=
      ⟨u, effectiveUpdate_eq_some.mpr ⟨n + 1, by simp, rfl⟩, hguard.2.1.trans hid,
        hguard.2.2.trans (congrArg some hversion)⟩
    refine .inr (.inr (.inl ⟨⟨_, rfl, ?_, ?_⟩, not_overtakenBy h R.proc hwrite hreplaces⟩))
    · exact congrArg (· + 1) hversion
    · rw [R.req_eq]

end Reaches

namespace UpdateSample

open Sample SessionSample

def signer : Signer where
  seckey := List.replicate 64 7
  signWith _ _ := hex freshTransition.signature

theorem signer_signs : signer.Signs (Primitives.ofTables (updateTables update freshTransition)) pubkey
    freshTransition.payload where
  seckey := by simp [signer]
  hash := by decide +kernel
  isKey := by decide +kernel
  signature := by decide +kernel
  verifies m := by
    have hmem : (pubkey, freshTransition.payload.toCbor, hex freshTransition.signature) ∈
        (updateTables update freshTransition).signatures := List.mem_cons_self
    have hgood : (Primitives.ofTables (updateTables update freshTransition)).ed25519Verify pubkey
        freshTransition.payload.toCbor (hex freshTransition.signature) = true := by
      simpa [Primitives.ofTables] using hmem
    constructor
    · exact fun hm => ofTables_ideal (by decide +kernel) _ _ _ _ _ hm hgood
    · rintro rfl
      exact hgood

def request : Request := update.post (.updateOrder freshTransition.request)

/-- The first call of the history is another process's, after which the order has version 1. -/
def seenFirst (g : System) : Bool :=
  g.history.head?.any fun ev =>
    ev.pid ≠ 0 && (ev.after.orders.find (hex orderId)).any fun o => o.version = 1

/-- The request is there twice, and the second one has read the clock before the first one runs. -/
def updateTrace : (updateDeployment update freshTransition).Trace anyJob (orders []) fun g =>
    seenFirst g && g.procs[0]?.any fun p =>
      p.job = .request request && p.past.any letThrough && p.prog.result.any Except.isOk where
  labels := .spawn (.request request) :: .spawn (.request request) :: acts 1 1 ++ acts 0 6
  allowed _ _ _ := trivial
  passes := by decide +kernel

end UpdateSample

open Sample SessionSample UpdateSample in
/-- The update succeeds, so that nobody else replaces its version. -/
theorem signed_update_refused_by_others_sample :
    ∃ g, (updateDeployment update freshTransition).Reaches anyJob (orders []) g ∧
      ¬ OvertakenBy g 0 (hex orderId) 1 := by
  obtain ⟨g, hg, hcheck⟩ := UpdateSample.updateTrace.reaches
  obtain ⟨hfirst, hdone⟩ := Bool.and_eq_true_iff.mp hcheck
  obtain ⟨p, hp, htest⟩ := (Option.any_eq_true _ _).mp hdone
  obtain ⟨hboth, hok⟩ := Bool.and_eq_true_iff.mp htest
  obtain ⟨hjob, hthrough⟩ := Bool.and_eq_true_iff.mp hboth
  obtain ⟨result, hresult, hisOk⟩ := (Option.any_eq_true _ _).mp hok
  obtain ⟨ev, hev, hseen⟩ := (Option.any_eq_true _ _).mp hfirst
  obtain ⟨hpid, hversion⟩ := Bool.and_eq_true_iff.mp hseen
  obtain ⟨o, ho, hv⟩ := (Option.any_eq_true _ _).mp hversion
  obtain ⟨m, hl⟩ : ∃ m, g.history = [ev] ++ m := by
    obtain ⟨m, hm⟩ := List.head?_eq_some_iff.mp hev
    exact ⟨m, hm⟩
  let R : SignedRequest (updateDeployment update freshTransition) g 0 (hex orderId) 1 :=
    { signer := signer
      pubkey := pubkey
      headers := request.headers
      blobB64 := "AQID"
      blob := [1, 2, 3]
      nonceBytes := hex "aa"
      hour := hourBucket
      req := freshTransition.request
      process := p
      result := result
      signs := signer_signs
      made := by decide +kernel
      key := by decide +kernel
      order := by decide +kernel
      decoded := by decide +kernel
      nonempty := by decide
      length := by decide
      proc := hp
      job := of_decide_eq_true hjob
      passed := letThrough_iff hthrough
      done := hresult }
  have hresult' : R.result.isOk = true := hisOk
  rcases signed_update_refused_by_others hg R hl (by simpa using hpid)
    ⟨ev, List.mem_singleton_self _, o, ho, of_decide_eq_true hv⟩ with
    ⟨hr, _⟩ | hr | ⟨_, hnot⟩ | ⟨hr | hr, _⟩
  · exact absurd hresult' (by simp [hr, Except.isOk, Except.toBool])
  · exact absurd hresult' (by simp [hr, Except.isOk, Except.toBool])
  · exact ⟨g, hg, hnot⟩
  · exact absurd hresult' (by simp [hr, Except.isOk, Except.toBool])
  · exact absurd hresult' (by simp [hr, Except.isOk, Except.toBool])

end TorMarketplace
