import TorMarketplace.Lib.OneTime
import TorMarketplace.Proof.Callers
import TorMarketplace.Proof.Versions

/-!
# Login challenges are used once

In every run each login uses up a challenge of its own (`challenges_single_use`): the map of
challenges is a store whose entries are taken once (`Lib/OneTime.lean`), and `verify` takes the
challenge before it looks at the signature. What is malformed is refused before that, and a challenge
that is stored after `verify` has cleaned up the map is taken even if it has expired
(`challenge_kept_or_stale`).
-/

namespace TorMarketplace

open Encoding Interleave OneTime Prog

/-! ## The map of challenges -/

/-- What a call does to the map. -/
def challengeOp : Reply Server → Op String (Bytes × Int64)
  | ⟨.insertChallenge id challenge expiresAt, _⟩ => .put id (challenge, expiresAt)
  | ⟨.removeChallenge id, some entry⟩ => .take id entry
  | _ => .other

/-- Its entries. -/
def entries (s : Shared) : Set (String × Bytes × Int64) := {x | x ∈ s.challenges}

theorem answer_challenges {c : Call} {e : Choice} {s s' : Shared} {a : c.Ans}
    (h : server.answer c e s = some (a, s')) :
    (challengeOp ⟨c, a⟩).Leaves (entries s) (entries s') := by
  cases c with
  | insertChallenge id challenge expiresAt =>
    obtain ⟨_, rfl⟩ := Prod.mk.inj (Option.some.inj h)
    intro x hx
    rcases List.mem_cons.mp hx with rfl | hx
    · exact .inl rfl
    · obtain ⟨hx, hne⟩ := List.mem_filter.mp hx
      exact .inr ⟨hx, of_decide_eq_true hne⟩
  | removeChallenge id =>
    obtain ⟨rfl, rfl⟩ := Prod.mk.inj (Option.some.inj h)
    cases hfound : s.challenges.lookup id with
    | none => exact fun x hx => (List.mem_filter.mp hx).1
    | some entry =>
      obtain ⟨l₁, l₂, hsplit, _⟩ := List.lookup_eq_some_iff.mp hfound
      refine ⟨show (id, entry) ∈ s.challenges by simp [hsplit], fun x hx => ?_⟩
      obtain ⟨hx, hne⟩ := List.mem_filter.mp hx
      exact ⟨hx, of_decide_eq_true hne⟩
  | retainChallenges now =>
    obtain ⟨_, rfl⟩ := Prod.mk.inj (Option.some.inj h)
    exact fun x hx => (List.mem_filter.mp hx).1
  | restartApi =>
    obtain ⟨_, rfl⟩ := Prod.mk.inj (Option.some.inj h)
    exact fun x hx => absurd hx List.not_mem_nil
  | _ =>
    simp only [server] at h
    repeat' split at h
    all_goals first
      | obtain ⟨_, rfl⟩ := Prod.mk.inj (Option.some.inj h)
        exact fun x hx => hx
      | cases h

/-! ## What the handlers do -/

/-- A challenge as `challenge` makes it. -/
structure Issued (past : Past) (id : String) (challengeBytes : Bytes) (expiresAt : Int64) : Prop where
  bytes : ⟨.ask (.randomBytes 32), challengeBytes⟩ ∈ past ∧ challengeBytes.length = 32
  id : ∃ idBytes, ⟨.ask (.randomBytes 16), idBytes⟩ ∈ past ∧ id = hexEncode idBytes
  expiresAt : ∃ now, ⟨.now, now⟩ ∈ past ∧ expiresAt = now + challengeTtlSecs

def LoginCall (past : Past) : Call → Prop
  | .insertChallenge id challengeBytes expiresAt => Issued past id challengeBytes expiresAt
  | _ => True

/-- What the auth key in `resp` is given for: a signature of the key's owner over the challenge. -/
structure Proves (st : AppState) (req : VerifyRequest) (challengeBytes : Bytes)
    (resp : VerifyResponse) (pkBytes sigBytes : Bytes) : Prop where
  pubkey : hexDecode req.pubkey = some pkBytes ∧ pkBytes.length = 32
  signature : hexDecode req.signature = some sigBytes ∧ sigBytes.length = 64
  isKey : st.prim.isVerifyingKey pkBytes = true
  signed : st.prim.ed25519Verify pkBytes challengeBytes sigBytes = true
  authKey : resp.authKey = hexEncode (deriveAuthKey st.prim st.serverSecret pkBytes)

/-- The calls of `verify` that has returned `resp`. -/
def Granted (st : AppState) (req : VerifyRequest) (past : Past) (resp : VerifyResponse) : Prop :=
  ∃ before now challengeBytes expiresAt pkBytes sigBytes,
    past = before ++ [⟨.now, now⟩, ⟨.retainChallenges now, ()⟩,
      ⟨.removeChallenge req.challengeId, some (challengeBytes, expiresAt)⟩] ∧
    Proves st req challengeBytes resp pkBytes sigBytes

/-- The key and the signature are hex, and the key has the length of one. -/
def VerifyRequest.wellFormed (req : VerifyRequest) : Bool :=
  (hexDecode req.pubkey).any (fun pkBytes => pkBytes.length = 32) && (hexDecode req.signature).isSome

section Programs

variable {st : AppState} (past : Past)

theorem challenge_login (req : ChallengeRequest) :
    Spec server.May LoginCall (OnOk fun _ _ => True) past (challenge req) := by
  simp only [challenge, cleanupChallenges, LoginCall, bind_bind, spec_orFail_bind, spec_ensure_bind,
    spec_call_bind, spec_pure, onOk_ok, onOk_error, implies_true, true_and, and_true]
  intro _ _ _ challengeBytes hbytes idBytes _ now _ _ _ _ _
  exact ⟨⟨by simp, may_randomBytes hbytes⟩, ⟨idBytes, by simp, rfl⟩, now, by simp, rfl⟩

theorem verify_login (req : VerifyRequest) :
    Spec server.May LoginCall (OnOk (Granted st req)) past (verify st req) := by
  simp only [verify, cleanupChallenges, LoginCall, bind_bind, spec_orFail_bind, spec_ensure_bind,
    spec_call_bind, spec_pure, onOk_ok, onOk_error, implies_true, true_and]
  intro pkBytes hpk hlen sigBytes hsig now _ _ _ entry _ found hfound hkey hsiglen hverify
  subst hfound
  exact ⟨past, now, found.1, found.2, pkBytes, sigBytes, by simp,
    ⟨hpk, of_decide_eq_true hlen⟩, ⟨hsig, of_decide_eq_true hsiglen⟩, hkey, hverify, rfl⟩

/-- A well-formed request removes the challenge, whatever the result. -/
theorem verify_removes {req : VerifyRequest} (h : req.wellFormed = true) :
    Spec server.May (fun _ _ => True)
      (fun past' _ => ∃ entry, ⟨.removeChallenge req.challengeId, entry⟩ ∈ past') past
      (verify st req) := by
  obtain ⟨hpk, hsig⟩ := Bool.and_eq_true_iff.mp h
  obtain ⟨pkBytes, hpk, hlen⟩ := (Option.any_eq_true _ _).mp hpk
  obtain ⟨sigBytes, hsig⟩ := Option.isSome_iff_exists.mp hsig
  simp only [verify, cleanupChallenges, hpk, hlen, hsig, bind_bind, orFail_some_bind, ensure_true_bind,
    spec_orFail_bind, spec_ensure_bind, spec_call_bind, spec_pure, true_and]
  intro now _ _ _ entry _
  have hremoved : ⟨.removeChallenge req.challengeId, entry⟩ ∈ past ++ [⟨.now, now⟩] ++
      [⟨.retainChallenges now, ()⟩] ++ [⟨.removeChallenge req.challengeId, entry⟩] := by simp
  exact ⟨fun _ => ⟨entry, hremoved⟩, fun _ _ => ⟨fun _ => ⟨entry, hremoved⟩, fun _ =>
    ⟨fun _ => ⟨entry, hremoved⟩, fun _ => ⟨fun _ => ⟨entry, hremoved⟩, fun _ => ⟨entry, hremoved⟩⟩⟩⟩⟩

/-- A response with an auth key comes from `verify`. -/
def LoginDone (st : AppState) (body : Body) (past : Past) : Response → Prop
  | .verify resp => ∃ req, body = .verify req ∧ Granted st req past resp
  | _ => True

/-- A handler that has nothing to do with logins. -/
theorem login_of_other {α : Type} {body : Body} {x : Program α} {wrap : α → Response}
    (hx : Spec server.May LoginCall (OnOk fun _ _ => True) past x)
    (hwrap : ∀ a resp, wrap a ≠ .verify resp) :
    Spec server.May LoginCall (OnOk (LoginDone st body)) past (x >>= fun a => pure (wrap a)) :=
  spec_seq_onOk hx fun past' a _ _ => by
    have hne := hwrap a
    cases hres : wrap a with
    | verify resp => exact absurd hres (hne resp)
    | _ => trivial

theorem handle_login (auth : Option Authed) (target : Route) (body : Body) :
    Spec server.May LoginCall (OnOk (LoginDone st body)) past (handle st auth target body) := by
  unfold handle
  split
  all_goals try simp only [spec_orFail_bind, onOk_error, implies_true, true_and, spec_fail]
  · exact fun _ _ => login_of_other past (by simp [createOrder, LoginCall]) fun _ _ => Response.noConfusion
  · exact fun _ _ => login_of_other past (by simp [getOrder, LoginCall]) fun _ _ => Response.noConfusion
  · exact fun _ _ => login_of_other past (by simp [updateOrder, LoginCall]) fun _ _ => Response.noConfusion
  · exact fun _ _ => login_of_other past (by simp [openDispute, LoginCall]) fun _ _ => Response.noConfusion
  · exact fun _ _ => login_of_other past (by simp [getDispute, LoginCall]) fun _ _ => Response.noConfusion
  · exact fun _ _ => login_of_other past (by simp [updateDispute, LoginCall]) fun _ _ => Response.noConfusion
  · refine login_of_other past ?_ fun _ _ => Response.noConfusion
    simp only [resolveDispute, spec_orFail_bind, onOk_error, implies_true, true_and]
    intro kp _
    refine spec_seq_onOk (decodeToken_spec _ past) fun past₁ t _ _ => ?_
    simp [checkToken, LoginCall]
  · refine fun _ _ => login_of_other past ?_ fun _ _ => Response.noConfusion
    simp only [getChat, LoginCall, spec_orFail_bind, spec_call_bind, onOk_error, implies_true, true_and]
    intro idBytes _ current _ row _
    cases row with
    | none => simp
    | some row => simp [LoginCall]
  · exact fun _ _ => login_of_other past (by simp [updateChat, LoginCall]) fun _ _ => Response.noConfusion
  · exact login_of_other past (by simp [blindSign]) fun _ _ => Response.noConfusion
  · exact login_of_other past (by simp [getAdminPubkey]) fun _ _ => Response.noConfusion
  · refine login_of_other past ?_ fun _ _ => Response.noConfusion
    simp only [rotateKek, spec_orFail_bind, onOk_error, implies_true, true_and]
    intro kp _
    refine spec_seq_onOk (decodeToken_spec _ past) fun past₁ t _ _ => ?_
    simp [checkToken, LoginCall]
  · exact login_of_other past (challenge_login past _) fun _ _ => Response.noConfusion
  · rename_i req
    exact spec_seq_onOk (verify_login past req) fun past' resp _ h => ⟨req, rfl, h⟩

end Programs

theorem handleRequest_login (st : AppState) (r : Request) :
    Spec server.May LoginCall (OnOk (LoginDone st r.body)) [] (handleRequest st r) :=
  handleRequest_of_handle st r
    (fun _ c hc => by cases c <;> first | trivial | exact Bool.noConfusion hc)
    fun _ auth target _ _ => handle_login _ auth target r.body

/-- A well-formed call of `verify` that the layers let through removes its challenge. -/
theorem handleRequest_removes (st : AppState) (r : Request) :
    Spec server.May (fun _ _ => True) (fun past _ => ∀ req, route r.method r.path = some .verify →
      r.body = .verify req → req.wellFormed = true → ⟨.ask .layersAdmit, true⟩ ∈ past →
      ∃ entry, ⟨.removeChallenge req.challengeId, entry⟩ ∈ past) [] (handleRequest st r) := by
  by_cases hreq : ∃ req, route r.method r.path = some .verify ∧ r.body = .verify req ∧
    req.wellFormed = true
  case neg =>
    exact spec_of_forall (fun _ _ => trivial) fun _ _ req hroute hbody hwell =>
      absurd ⟨req, hroute, hbody, hwell⟩ hreq
  obtain ⟨req, hroute, hbody, h⟩ := hreq
  suffices hone : Spec server.May (fun _ _ => True) (fun past _ => ⟨.ask .layersAdmit, true⟩ ∈ past →
      ∃ entry, ⟨.removeChallenge req.challengeId, entry⟩ ∈ past) [] (handleRequest st r) by
    refine spec_mono (fun _ _ _ => trivial) (fun past _ hone req' _ hbody' _ => ?_) hone
    obtain rfl := Body.verify.inj (hbody.symm.trans hbody')
    exact hone
  have hauth : Spec server.May (fun _ _ => True)
      (fun past (_ : Except Failure (Option Authed)) => ⟨.ask .layersAdmit, true⟩ ∉ past) []
      (statelessAuthMiddleware st r.path r.headers) := by
    unfold statelessAuthMiddleware
    split
    · simp
    · simp
  unfold handleRequest
  refine spec_seq hauth (fun past auth hno => ?_) fun past _ hno hin => absurd hin hno
  simp only [spec_call_bind, spec_ensure_bind, spec_orFail_bind, hroute, hbody, true_and]
  intro admitted _
  refine ⟨fun hadmitted hin => ?_, fun _ => ⟨fun hnone => absurd hnone (by simp), fun target ht => ?_⟩⟩
  · subst hadmitted
    rcases List.mem_append.mp hin with hin | hin
    · exact absurd hin hno
    · exact absurd (List.mem_singleton.mp hin) (by simp)
  · obtain rfl := Option.some.inj ht
    simp only [handle]
    exact spec_seq (verify_removes _ h) (fun past' a hremoved _ => hremoved)
      fun past' e hremoved _ => hremoved

/-! ## Runs -/

/-- The process `pid` has answered the request `req` with `resp`. -/
def LoggedIn (g : System) (pid : ℕ) (req : VerifyRequest) (resp : VerifyResponse) : Prop :=
  ∃ p r, g.procs[pid]? = some p ∧ p.job = .request r ∧ r.body = .verify req ∧
    p.prog.result = some (.ok (.verify resp))

/-- The login of `pid` has used the challenge that the event `i` of the history has stored, and that had
not expired if it was there when `pid` cleaned up the map. -/
def Uses (D : Deployment) (g : System) (pid : ℕ) (req : VerifyRequest) (resp : VerifyResponse)
    (i : ℕ) : Prop :=
  ∃ ev challengeBytes expiresAt pkBytes sigBytes l cleanup l' now,
    g.history[i]? = some ev ∧
    ev.reply = ⟨.insertChallenge req.challengeId challengeBytes expiresAt, ()⟩ ∧
    Issued ev.past req.challengeId challengeBytes expiresAt ∧
    Proves D.api req challengeBytes resp pkBytes sigBytes ∧
    g.history = l ++ cleanup :: l' ∧ cleanup.pid = pid ∧
    cleanup.reply = ⟨.retainChallenges now, ()⟩ ∧ ⟨.now, now⟩ ∈ cleanup.past ∧
    (i < l.length → now < expiresAt)

/-- A call of `verify` with a well-formed request that the layers have let through. -/
def VerifyCall (p : Process) (req : VerifyRequest) : Prop :=
  ∃ r, p.job = .request r ∧ route r.method r.path = some .verify ∧ r.body = .verify req ∧
    req.wellFormed = true ∧ ⟨.ask .layersAdmit, true⟩ ∈ p.past

/-- **Challenges are used once.** -/
structure ChallengeUse (D : Deployment) (g : System) : Prop where
  /-- Each login uses a challenge, no two logins the same one. -/
  uses : ∃ issued : ℕ → ℕ,
    (∀ pid req resp, LoggedIn g pid req resp → Uses D g pid req resp (issued pid)) ∧
    ∀ pid pid' req req' resp resp', LoggedIn g pid req resp → LoggedIn g pid' req' resp' →
      issued pid = issued pid' → pid = pid'
  /-- An id that was given once yields an auth key once. -/
  once : ∀ id, (∀ (i j : ℕ) (ev ev' : Effect) entry entry', g.history[i]? = some ev → g.history[j]? = some ev' →
      challengeOp ev.reply = .put id entry → challengeOp ev'.reply = .put id entry' → i = j) →
    ∀ pid pid' req req' resp resp', LoggedIn g pid req resp → LoggedIn g pid' req' resp' →
      req.challengeId = id → req'.challengeId = id → pid = pid'
  /-- A call of `verify` removes the challenge that it names, even if it fails. -/
  removes : ∀ pid p req, g.procs[pid]? = some p → VerifyCall p req → p.prog.result.isSome →
    ∃ ev ∈ g.history, ev.pid = pid ∧ (∃ entry, ev.reply = ⟨.removeChallenge req.challengeId, entry⟩) ∧
      ∀ x ∈ entries ev.after, x.1 ≠ req.challengeId

section Reaches

variable {D : Deployment} {allow : System → Job → Prop} {orders : OrdersTable} {g : System}

/-- The map is a store of which the history is the log. -/
theorem Deployment.Reaches.stored (h : D.Reaches allow orders g) :
    Stored (fun ev : Effect => challengeOp ev.reply) g.history (entries g.shared) := by
  refine Reachable.shared_inv (R := fun s l => Stored (fun ev : Effect => challengeOp ev.reply) l
    (entries s)) ?_ (fun _ _ ha ih => ih.snoc (answer_challenges ha)) h
  have hnone : entries (Shared.initial orders) = ∅ := Set.eq_empty_of_forall_notMem fun _ hx =>
    absurd hx List.not_mem_nil
  rw [hnone]
  exact .nil

/-- Every challenge in the map was made by `challenge`. -/
theorem Deployment.Reaches.issued (h : D.Reaches allow orders g) {ev : Effect} (hev : ev ∈ g.history)
    {id : String} {challengeBytes : Bytes} {expiresAt : Int64}
    (hput : challengeOp ev.reply = .put id (challengeBytes, expiresAt)) :
    ev.reply = ⟨.insertChallenge id challengeBytes expiresAt, ()⟩ ∧
      Issued ev.past id challengeBytes expiresAt := by
  have hreply : ev.reply = ⟨.insertChallenge id challengeBytes expiresAt, ()⟩ := by
    unfold challengeOp at hput
    split at hput
    · rename_i heq
      cases hput
      exact heq
    · exact absurd hput (by simp)
    · exact absurd hput (by simp)
  refine ⟨hreply, ?_⟩
  have hmade := h.madeBy hev
  rw [hreply] at hmade
  obtain ⟨r, hjob⟩ := hmade
  have hcall := h.event_request (handleRequest_login D.api) hev hjob
  rw [hreply] at hcall
  exact hcall

/-- A login has taken its challenge. -/
theorem Deployment.Reaches.granted (h : D.Reaches allow orders g) {pid : ℕ} {req : VerifyRequest}
    {resp : VerifyResponse} (hlogin : LoggedIn g pid req resp) :
    ∃ p, g.procs[pid]? = some p ∧ Granted D.api req p.past resp := by
  obtain ⟨p, r, hp, hjob, hbody, hres⟩ := hlogin
  obtain ⟨req', hbody', hgranted⟩ := h.post_request (Q := fun r => OnOk (LoginDone D.api r.body))
    (fun r => spec_mono (fun _ _ _ => trivial) (fun _ _ h => h) (handleRequest_login D.api r))
    (List.mem_of_getElem? hp) hjob hres
  obtain rfl := Body.verify.inj (hbody.symm.trans hbody')
  exact ⟨p, hp, hgranted⟩

/-- After a clean-up no entry is expired. -/
theorem Deployment.Reaches.cleaned (h : D.Reaches allow orders g) {ev : Effect} (hev : ev ∈ g.history)
    {now : Int64} (hreply : ev.reply = ⟨.retainChallenges now, ()⟩) {id : String}
    {challengeBytes : Bytes} {expiresAt : Int64}
    (hin : (id, challengeBytes, expiresAt) ∈ entries ev.after) : now < expiresAt := by
  obtain ⟨e, ha⟩ := (h.event hev).2
  rw [hreply] at ha
  obtain ⟨_, hafter⟩ := Prod.mk.inj (Option.some.inj ha)
  rw [← hafter] at hin
  exact of_decide_eq_true (List.mem_filter.mp hin).2

/-- **A login has taken the challenge that it uses.** -/
theorem Deployment.Reaches.uses (h : D.Reaches allow orders g) {pid : ℕ} {req : VerifyRequest}
    {resp : VerifyResponse} (hlogin : LoggedIn g pid req resp) :
    ∃ i j entry, (∃ ev, g.history[j]? = some ev ∧ ev.pid = pid ∧
        challengeOp ev.reply = .take req.challengeId entry) ∧
      Source (fun ev : Effect => challengeOp ev.reply) g.history i j req.challengeId entry ∧
      Uses D g pid req resp i := by
  obtain ⟨p, hp, before, now, challengeBytes, expiresAt, pkBytes, sigBytes, hpast, hproves⟩ :=
    h.granted hlogin
  have hlast : (before ++ [⟨.now, now⟩, ⟨.retainChallenges now, ()⟩]) ++
      [⟨.removeChallenge req.challengeId, some (challengeBytes, expiresAt)⟩] <+: p.past :=
    ⟨[], by simp [hpast]⟩
  obtain ⟨l, ev, l', hl, hpid, hevPast, hreply⟩ := Reachable.event_at h hp hlast
  have hj : g.history[l.length]? = some ev := by rw [hl]; simp
  have htake : challengeOp ev.reply = .take req.challengeId (challengeBytes, expiresAt) := by
    rw [hreply]
    rfl
  obtain ⟨i, hsource⟩ := h.stored.taken hj htake
  obtain ⟨ins, hins, hput⟩ := hsource.put
  obtain ⟨hinsReply, hissued⟩ := h.issued (List.mem_of_getElem? hins) hput
  -- the clean-up, in the run up to the removal
  obtain ⟨g₀, hg₀, rfl, hshared, k, hp₀⟩ := Reachable.upTo h hl
  have hmiddle : (before ++ [⟨.now, now⟩]) ++ [⟨.retainChallenges now, ()⟩] <+: ev.past :=
    ⟨[], by simp [hevPast]⟩
  obtain ⟨l₁, cleanup, l₂, hl₁, hpid₁, hcleanPast, hcleanReply⟩ :=
    Reachable.event_at hg₀ hp₀ hmiddle
  refine ⟨i, _, _, ⟨ev, hj, hpid, htake⟩, hsource, ins, challengeBytes, expiresAt, pkBytes, sigBytes,
    l₁, cleanup, l₂ ++ ev :: l', now, hins, hinsReply, hissued, hproves, by rw [hl, hl₁]; simp,
    hpid₁.trans hpid, hcleanReply, by simp [hcleanPast], fun hlt => ?_⟩
  by_contra hexpired
  have hgone : (req.challengeId, challengeBytes, expiresAt) ∉ entries g₀.shared := by
    refine Reachable.since
      (K := fun s => (req.challengeId, challengeBytes, expiresAt) ∉ entries s) hg₀ hl₁ ?_ ?_
    · exact fun hin => hexpired
        (Deployment.Reaches.cleaned hg₀ (by simp [hl₁]) hcleanReply hin)
    · intro e he hno hin
      obtain ⟨l₃, l₄, rfl⟩ := List.append_of_mem he
      obtain ⟨_, ha⟩ := (Deployment.Reaches.event hg₀ (hl₁ ▸ by simp : e ∈ g₀.history)).2
      rcases (answer_challenges ha).mem hin with hput' | ⟨hin', _⟩
      · have hsplit : g.history = (l₁ ++ cleanup :: l₃) ++ e :: (l₄ ++ ev :: l') := by
          rw [hl, hl₁]
          simp
        have hm : g.history[(l₁ ++ cleanup :: l₃).length]? = some e := by rw [hsplit]; simp
        have hbound : i < (l₁ ++ cleanup :: l₃).length ∧
            (l₁ ++ cleanup :: l₃).length < g₀.history.length := by
          rw [hl₁]
          simp
          omega
        refine hsource.untouched _ e hbound.1 hbound.2 hm ?_
        rw [show challengeOp e.reply = _ from hput']
        rfl
      · exact hno hin'
  obtain ⟨e, ha⟩ := (h.event (List.mem_of_getElem? hj)).2
  have hleaves : (challengeOp ev.reply).Leaves (entries ev.before) (entries ev.after) :=
    answer_challenges ha
  rw [htake] at hleaves
  exact hgone (hshared ▸ hleaves.1)

/-- **In every run, challenges are used once.** -/
theorem challenges_single_use (h : D.Reaches allow orders g) : ChallengeUse D g := by
  have huse : ∀ pid, ∃ i, ∀ req resp, LoggedIn g pid req resp → ∃ j entry,
      (∃ ev, g.history[j]? = some ev ∧ ev.pid = pid ∧
        challengeOp ev.reply = .take req.challengeId entry) ∧
      Source (fun ev : Effect => challengeOp ev.reply) g.history i j req.challengeId entry ∧
      Uses D g pid req resp i := by
    intro pid
    by_cases hlogin : ∃ req resp, LoggedIn g pid req resp
    · obtain ⟨req, resp, hlogin⟩ := hlogin
      obtain ⟨i, j, entry, huses⟩ := h.uses hlogin
      refine ⟨i, fun req' resp' hlogin' => ?_⟩
      obtain ⟨p, r, hp, hjob, hbody, hres⟩ := hlogin
      obtain ⟨p', r', hp', hjob', hbody', hres'⟩ := hlogin'
      obtain rfl := Option.some.inj (hp.symm.trans hp')
      obtain rfl := Job.request.inj (hjob.symm.trans hjob')
      obtain rfl := Body.verify.inj (hbody.symm.trans hbody')
      obtain rfl := Response.verify.inj (Except.ok.inj (Option.some.inj (hres.symm.trans hres')))
      exact ⟨j, entry, huses⟩
    · exact ⟨0, fun req resp hl => absurd ⟨req, resp, hl⟩ hlogin⟩
  choose issued hissued using huse
  have hinj : ∀ pid pid' req req' resp resp', LoggedIn g pid req resp → LoggedIn g pid' req' resp' →
      issued pid = issued pid' → pid = pid' := by
    intro pid pid' req req' resp resp' hlogin hlogin' heq
    obtain ⟨j, entry, ⟨ev, hj, rfl, htake⟩, hsource, _⟩ := hissued pid req resp hlogin
    obtain ⟨j', entry', ⟨ev', hj', rfl, htake'⟩, hsource', _⟩ := hissued pid' req' resp' hlogin'
    obtain rfl := hsource.inj (heq ▸ hsource') hj htake hj' htake'
    rw [Option.some.inj (hj.symm.trans hj')]
  refine ⟨⟨issued, fun pid req resp hl => ?_, hinj⟩, ?_, ?_⟩
  · obtain ⟨_, _, _, _, huses⟩ := hissued pid req resp hl
    exact huses
  · rintro id honce pid pid' req req' resp resp' hlogin hlogin' rfl hid
    obtain ⟨j, entry, _, hsource, _⟩ := hissued pid req resp hlogin
    obtain ⟨j', entry', _, hsource', _⟩ := hissued pid' req' resp' hlogin'
    obtain ⟨ev, hev, hput⟩ := hsource.put
    obtain ⟨ev', hev', hput'⟩ := hsource'.put
    exact hinj pid pid' req req' resp resp' hlogin hlogin'
      (honce _ _ ev ev' entry entry' hev hev' hput (hid ▸ hput'))
  · rintro pid p req hp ⟨r, hjob, hroute, hbody, hwell, hadmit⟩ hres
    obtain ⟨result, hres⟩ := Option.isSome_iff_exists.mp hres
    obtain ⟨entry, hremoved⟩ := h.post_request (handleRequest_removes D.api)
      (List.mem_of_getElem? hp) hjob hres req hroute hbody hwell hadmit
    obtain ⟨ev, hev, hpid, hreply⟩ := Reachable.event_of_past h hp hremoved
    refine ⟨ev, hev, hpid, ⟨entry, hreply⟩, fun x hx => ?_⟩
    obtain ⟨e, ha⟩ := (h.event hev).2
    rw [hreply] at ha
    obtain ⟨_, hafter⟩ := Prod.mk.inj (Option.some.inj ha)
    rw [← hafter] at hx
    exact of_decide_eq_true (List.mem_filter.mp hx).2

end Reaches

/-! ## Two logins

A challenge is asked for and signed. In the first run a request with a malformed signature comes before
the login; in the second one the challenge is stored after `verify` has cleaned up the map, when its
time is over. -/

namespace LoginSample

open Sample

def challengeBytes : Bytes := List.replicate 32 7

def challengeId : String := "00010203040506070001020304050607"

def tables : Primitives.Tables where
  hmacSha256 := [((utf8 serverSecret, utf8 "auth_key_derivation_v1" ++ pubkey), authKey)]
  verifyingKeys := [pubkey]
  signatures :=
    [(pubkey, challengeBytes, hex (
      "354a15690698dcdac3a8afc2136d8d75be6f52ae0b165a22d5c1a9e5304dfef9" ++
      "e6793ff7555ceeae5a8705a2bfea1b54df40792ebffb34f25f622f1d2e1e3204"))]

def post (path : String) (body : Body) : Job := .request ⟨.post, path, {}, body⟩

def askJob : Job := post "/auth/challenge" (.challenge ⟨pubkeyHex⟩)

def login (signature : String) : VerifyRequest := ⟨pubkeyHex, challengeId, signature⟩

def goodLogin : VerifyRequest :=
  login ("354a15690698dcdac3a8afc2136d8d75be6f52ae0b165a22d5c1a9e5304dfef9" ++
    "e6793ff7555ceeae5a8705a2bfea1b54df40792ebffb34f25f622f1d2e1e3204")

def badLogin : VerifyRequest := login "zz"

def verifyJob (req : VerifyRequest) : Job := post "/auth/verify" (.verify req)

/-- When the challenge expires. -/
def expiry : Int64 := time + challengeTtlSecs

/-- The next `n` calls of process `pid` at the time `now`. -/
def moves (pid n : Nat) (now : Int64) : List (Label Job Choice) :=
  List.replicate n (.act pid { time := now, ask := fun
    | .randomBytes 32 => challengeBytes
    | .randomBytes _ => hex challengeId
    | q => q.noAnswer })

/-- The id is in the map. -/
def hasId (s : Shared) : Bool := s.challenges.any fun x => x.1 = challengeId

theorem hasId_iff {s : Shared} (h : hasId s = true) : ∃ entry, (challengeId, entry) ∈ entries s := by
  obtain ⟨⟨id, entry⟩, hx, hid⟩ := List.any_eq_true.mp h
  obtain rfl : id = challengeId := of_decide_eq_true hid
  exact ⟨entry, hx⟩

/-- The malformed request has failed, and the id is in the map at each of its calls and after them. -/
def keptTrace : (deployment tables none).Trace anyJob (orders [])
    fun g => g.procs[1]?.any (fun p => p.job = verifyJob badLogin &&
        p.prog.result.map Except.isOk = some false) &&
      g.history.all (fun ev => ev.pid ≠ 1 || hasId ev.before) && hasId g.shared where
  labels := .spawn askJob :: moves 0 7 time ++ .spawn (verifyJob badLogin) :: moves 1 1 time
  allowed _ _ _ := trivial
  passes := by decide +kernel

/-- The process has read no other time. -/
def readsOnly (now : Int64) (past : Past) : Bool :=
  past.all fun
    | ⟨.now, now'⟩ => now' = now
    | _ => true

theorem readsOnly_iff {now : Int64} {past : Past} (h : readsOnly now past = true) {now' : Int64}
    (hr : ⟨.now, now'⟩ ∈ past) : now' = now :=
  of_decide_eq_true (List.all_eq_true.mp h _ hr)

/-- The process has taken a challenge that expires then. -/
def took (expiresAt : Int64) (past : Past) : Bool :=
  past.any fun
    | ⟨.removeChallenge id, some (_, expiresAt')⟩ => id = challengeId && expiresAt' = expiresAt
    | _ => false

theorem took_iff {expiresAt : Int64} {past : Past} (h : took expiresAt past = true) :
    ∃ bytes, ⟨.removeChallenge challengeId, some (bytes, expiresAt)⟩ ∈ past := by
  obtain ⟨⟨c, a⟩, hr, htest⟩ := List.any_eq_true.mp h
  split at htest
  · rename_i id bytes expiresAt' heq
    simp only [Bool.and_eq_true, decide_eq_true_eq] at htest
    obtain ⟨rfl, rfl⟩ := htest
    exact ⟨bytes, heq ▸ hr⟩
  · exact absurd htest (by simp)

def isLogin : Option (Except Failure Response) → Bool
  | some (.ok (.verify _)) => true
  | _ => false

theorem isLogin_iff {result : Option (Except Failure Response)} (h : isLogin result = true) :
    ∃ resp, result = some (.ok (.verify resp)) := by
  unfold isLogin at h
  split at h
  · exact ⟨_, rfl⟩
  · exact absurd h (by simp)

/-- The challenge comes into the map when its time is over, and is used. -/
def staleTrace : (deployment tables none).Trace anyJob (orders [])
    fun g => g.procs[1]?.any fun p => p.job = verifyJob goodLogin && isLogin p.prog.result &&
      readsOnly expiry p.past && took expiry p.past where
  labels :=
    .spawn askJob :: moves 0 4 time ++ .spawn (verifyJob goodLogin) :: moves 1 3 expiry ++
      moves 0 3 expiry ++ moves 1 1 expiry
  allowed _ _ _ := trivial
  passes := by decide +kernel

/-- A login, and a second one with the same challenge. -/
def twiceTrace : (deployment tables none).Trace anyJob (orders [])
    fun g => g.procs[1]?.any (fun p => p.job = verifyJob goodLogin && isLogin p.prog.result) &&
      g.procs[2]?.any fun p => p.job = verifyJob goodLogin &&
        p.prog.result.map Except.isOk = some false where
  labels :=
    .spawn askJob :: moves 0 7 time ++ .spawn (verifyJob goodLogin) :: moves 1 4 time ++
      .spawn (verifyJob goodLogin) :: moves 2 4 time
  allowed _ _ _ := trivial
  passes := by decide +kernel

end LoginSample

open LoginSample Sample in
/-- A challenge that can be used is used once. -/
theorem challenges_single_use_sample :
    ∃ g resp, (deployment tables none).Reaches anyJob (orders []) g ∧
      ChallengeUse (deployment tables none) g ∧ LoggedIn g 1 goodLogin resp := by
  obtain ⟨g, hg, hcheck⟩ := twiceTrace.reaches
  obtain ⟨hfirst, _⟩ := Bool.and_eq_true_iff.mp hcheck
  obtain ⟨p, hp, htest⟩ := (Option.any_eq_true _ _).mp hfirst
  obtain ⟨hjob, hresult⟩ := Bool.and_eq_true_iff.mp htest
  obtain ⟨resp, hres⟩ := isLogin_iff hresult
  exact ⟨g, resp, hg, challenges_single_use hg, p, _, hp, of_decide_eq_true hjob, rfl, hres⟩

open LoginSample Sample in
/-- A call of `verify` that names a stored id leaves it there, and a challenge is used by a call that
has read the clock at its expiry only. -/
theorem challenge_kept_or_stale :
    (∃ g p, (deployment tables none).Reaches anyJob (orders []) g ∧ g.procs[1]? = some p ∧
      p.job = verifyJob badLogin ∧ p.prog.result.map Except.isOk = some false ∧
      (∀ ev ∈ g.history, ev.pid = 1 → ∃ entry, (badLogin.challengeId, entry) ∈ entries ev.before) ∧
      ∃ entry, (badLogin.challengeId, entry) ∈ entries g.shared) ∧
    ∃ g p resp bytes, (deployment tables none).Reaches anyJob (orders []) g ∧
      g.procs[1]? = some p ∧ LoggedIn g 1 goodLogin resp ∧
      ⟨.removeChallenge goodLogin.challengeId, some (bytes, expiry)⟩ ∈ p.past ∧
      ∀ now, ⟨.now, now⟩ ∈ p.past → now = expiry := by
  constructor
  · obtain ⟨g, hg, hcheck⟩ := keptTrace.reaches
    obtain ⟨hboth, hstored⟩ := Bool.and_eq_true_iff.mp hcheck
    obtain ⟨hfailed, hbefore⟩ := Bool.and_eq_true_iff.mp hboth
    obtain ⟨p, hp, htest⟩ := (Option.any_eq_true _ _).mp hfailed
    obtain ⟨hjob, hresult⟩ := Bool.and_eq_true_iff.mp htest
    refine ⟨g, p, hg, hp, of_decide_eq_true hjob, of_decide_eq_true hresult, fun ev hev hpid => ?_,
      hasId_iff hstored⟩
    have htest := List.all_eq_true.mp hbefore ev hev
    rw [hpid] at htest
    exact hasId_iff htest
  · obtain ⟨g, hg, hcheck⟩ := staleTrace.reaches
    obtain ⟨p, hp, htest⟩ := (Option.any_eq_true _ _).mp hcheck
    obtain ⟨hthree, htook⟩ := Bool.and_eq_true_iff.mp htest
    obtain ⟨htwo, hreads⟩ := Bool.and_eq_true_iff.mp hthree
    obtain ⟨hjob, hresult⟩ := Bool.and_eq_true_iff.mp htwo
    obtain ⟨resp, hres⟩ := isLogin_iff hresult
    obtain ⟨bytes, htook⟩ := took_iff htook
    exact ⟨g, p, resp, bytes, hg, hp, ⟨p, _, hp, of_decide_eq_true hjob, rfl, hres⟩, htook,
      fun _ hr => readsOnly_iff hreads hr⟩

end TorMarketplace
