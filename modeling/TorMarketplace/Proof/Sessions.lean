import Mathlib.Data.List.TakeDrop
import TorMarketplace.Frontend.Login
import TorMarketplace.Lib.Leases
import TorMarketplace.Proof.Lifetime
import TorMarketplace.Proof.Logins
import TorMarketplace.Proof.RequestBinding

/-!
# What an honest client can rely on

A client that signs the challenge it was given gets its auth key, unless the challenge was dropped
meanwhile, by a restart, by its expiry or by somebody else who names it (`login_succeeds_iff`). With that
key its requests come through the middleware, whatever the others send, unless they are late or their
nonce has been used (`signed_request_admitted`).
-/

namespace TorMarketplace

open Buckets Encoding Interleave Js Leases Prog

/-! ## The challenges between two calls -/

/-- What a call does to the map of challenges. -/
def challengeChange : Call → Change String (Bytes × Int64)
  | .insertChallenge id challengeBytes expiresAt => .put id (challengeBytes, expiresAt)
  | .removeChallenge id => .retain fun id' _ => id' ≠ id
  | .retainChallenges now => .retain fun _ entry => entry.2 > now
  | .restartApi => .retain fun _ _ => false
  | _ => .retain fun _ _ => true

theorem answer_challengeChange {c : Call} {e : Choice} {s s' : Shared} {a : c.Ans}
    (h : server.answer c e s = some (a, s')) :
    s'.challenges = (challengeChange c).apply s.challenges := by
  cases c with
  | insertChallenge id challengeBytes expiresAt =>
    obtain ⟨_, rfl⟩ := Prod.mk.inj (Option.some.inj h)
    rfl
  | removeChallenge id =>
    obtain ⟨_, rfl⟩ := Prod.mk.inj (Option.some.inj h)
    rfl
  | retainChallenges now =>
    obtain ⟨_, rfl⟩ := Prod.mk.inj (Option.some.inj h)
    rfl
  | restartApi =>
    obtain ⟨_, rfl⟩ := Prod.mk.inj (Option.some.inj h)
    exact (List.filter_false _).symm
  | _ =>
    have hall : ∀ l : List (String × Bytes × Int64), (Change.retain fun _ _ => true).apply l = l :=
      fun l => List.filter_true l
    simp only [server] at h
    repeat' split at h
    all_goals first
      | obtain ⟨_, rfl⟩ := Prod.mk.inj (Option.some.inj h)
        exact (hall _).symm
      | cases h

/-- The call drops a challenge that expires then. -/
def drops (id : String) (expiresAt : Int64) : Call → Bool
  | .removeChallenge id' => id' = id
  | .retainChallenges now => !(expiresAt > now)
  | .restartApi => true
  | _ => false

theorem keeps_eq {id : String} {challengeBytes : Bytes} {expiresAt : Int64} {c : Call}
    (hc : (challengeChange c).puts id = false) :
    (challengeChange c).keeps id (challengeBytes, expiresAt) = !drops id expiresAt c := by
  cases c with
  | insertChallenge id' _ _ =>
    have hne : id' ≠ id := of_decide_eq_false hc
    exact decide_eq_true hne
  | removeChallenge id' =>
    have hne : decide (id ≠ id') = !decide (id' = id) := by simp [eq_comm]
    exact hne
  | retainChallenges now => exact (Bool.not_not _).symm
  | _ => rfl

section Reaches

variable {D : Deployment} {allow : System → Job → Prop} {orders : OrdersTable} {g : System}

/-- The map is what the calls have made of it. -/
theorem Deployment.Reaches.challenges_eq (h : D.Reaches allow orders g) :
    g.shared.challenges = Leases.run (g.history.map fun e => challengeChange e.reply.1) [] := by
  refine Reachable.shared_inv (R := fun s l => s.challenges =
    Leases.run (l.map fun e => challengeChange e.reply.1) []) rfl (fun _ _ ha hbefore => ?_) h
  rw [answer_challengeChange ha, hbefore, List.map_append, Leases.run_append]
  rfl

/-- **A challenge is there until it is dropped.** -/
theorem Deployment.Reaches.challenge_lasts (h : D.Reaches allow orders g) {l m : List Effect}
    {ins : Effect} (hl : g.history = l ++ ins :: m) {id : String} {challengeBytes : Bytes}
    {expiresAt : Int64} (hins : ins.reply.1 = .insertChallenge id challengeBytes expiresAt)
    (hno : ∀ e ∈ m, (challengeChange e.reply.1).puts id = false) :
    g.shared.challenges.lookup id =
      if m.any (fun e => drops id expiresAt e.reply.1) then none
      else some (challengeBytes, expiresAt) := by
  have hkeyed : Keyed ([] : List (String × Bytes × Int64)) := List.nodup_nil
  have hput : challengeChange (.insertChallenge id challengeBytes expiresAt) =
      .put id (challengeBytes, expiresAt) := rfl
  have hall : (m.map fun e => challengeChange e.reply.1).all
      (fun c => c.keeps id (challengeBytes, expiresAt)) = !m.any fun e => drops id expiresAt e.reply.1 := by
    rw [List.all_map, List.not_any_eq_all_not, Bool.eq_iff_iff, List.all_eq_true, List.all_eq_true]
    exact forall₂_congr fun e he => Eq.congr_left (keeps_eq (hno e he))
  rw [h.challenges_eq, hl, List.map_append, List.map_cons, Leases.run_append, Leases.run_cons, hins,
    lookup_run (hkeyed.run.apply _) (by simpa using hno), hput, lookup_put, Option.filter_some, hall]
  cases m.any fun e => drops id expiresAt e.reply.1 <;> rfl

/-- What was never stored is not there. -/
theorem Deployment.Reaches.challenge_absent (h : D.Reaches allow orders g) {id : String}
    (hno : ∀ e ∈ g.history, (challengeChange e.reply.1).puts id = false) :
    g.shared.challenges.lookup id = none := by
  have hkeyed : Keyed ([] : List (String × Bytes × Int64)) := List.nodup_nil
  rw [h.challenges_eq, lookup_run hkeyed (by simpa using hno)]
  rfl

end Reaches

/-! ## The two requests of a login -/

def challengePath : String := "/auth/challenge"

def verifyPath : String := "/auth/verify"

/-- The request for a challenge. -/
def askChallenge (headers : AuthHeaders) (req : ChallengeRequest) : Request :=
  ⟨.post, challengePath, headers, .challenge req⟩

def sendVerify (headers : AuthHeaders) (req : VerifyRequest) : Request :=
  ⟨.post, verifyPath, headers, .verify req⟩

/-- The client can sign `m`, and its key is one. -/
structure AuthClient.Signs (P : Primitives) (c : AuthClient) (m : Bytes) : Prop where
  pubkey : hexDecode c.authPubkeyHex = some c.pubkeyBytes
  length : c.pubkeyBytes.length = 32
  isKey : P.isVerifyingKey c.pubkeyBytes = true
  signature : (c.signDetached m).length = 64
  verifies : P.ed25519Verify c.pubkeyBytes m (c.signDetached m) = true

section Programs

variable {st : AppState}

/-- What a request for a challenge has stored when it answers. -/
def Given (past : Past) : Response → Prop
  | .challenge resp => ∃ challengeBytes expiresAt,
    ⟨.insertChallenge resp.challengeId challengeBytes expiresAt, ()⟩ ∈ past ∧
      resp.challenge = hexEncode challengeBytes
  | _ => True

theorem askChallenge_given (headers : AuthHeaders) (req : ChallengeRequest) :
    Spec server.May (fun _ _ => True) (OnOk Given) [] (handleRequest st (askChallenge headers req)) := by
  have hexempt : exemptPath challengePath = true := by decide +kernel
  have hroute : route .post challengePath = some .challenge := by decide +kernel
  simp only [handleRequest, statelessAuthMiddleware, askChallenge, hexempt, hroute, if_true, handle,
    challenge, cleanupChallenges, bind_bind, spec_pure_bind, spec_orFail_bind, spec_ensure_bind,
    spec_call_bind, spec_pure, onOk_ok, onOk_error, implies_true, true_and, Option.some.injEq, forall_eq']
  intro _ _ _ _ _ _ challengeBytes _ idBytes _ now _ _ _ _ _ _ _
  exact ⟨challengeBytes, now + challengeTtlSecs, by simp, rfl⟩

/-- How `verify` ends for a client that can sign the challenge: by what it finds in the map. -/
structure Honestly (st : AppState) (c : AuthClient) (id : String) (challengeBytes : Bytes) (past : Past)
    (result : Except Failure Response) : Prop where
  removes : ∃ entry, ⟨.removeChallenge id, entry⟩ ∈ past
  found : ∀ expiresAt, ⟨.removeChallenge id, some (challengeBytes, expiresAt)⟩ ∈ past →
    result = .ok (.verify ⟨hexEncode (deriveAuthKey st.prim st.serverSecret c.pubkeyBytes)⟩)
  missing : ⟨.removeChallenge id, none⟩ ∈ past →
    result = .error (badRequest "challenge not found or expired")

theorem sendVerify_honest (headers : AuthHeaders) {c : AuthClient} {resp : ChallengeResponse}
    {challengeBytes : Bytes} (hc : c.Signs st.prim challengeBytes)
    (hresp : resp.challenge = hexEncode challengeBytes) :
    Spec server.May (fun _ _ => True)
      (fun past result => ⟨.ask .layersAdmit, true⟩ ∈ past →
        Honestly st c resp.challengeId challengeBytes past result) []
      (handleRequest st (sendVerify headers (c.verifyRequest resp))) := by
  have hexempt : exemptPath verifyPath = true := by decide +kernel
  have hroute : route .post verifyPath = some .verify := by decide +kernel
  have hsign : c.sign resp.challenge = hexEncode (c.signDetached challengeBytes) := by
    rw [AuthClient.sign, hresp]
    exact congrArg (fun m => hexEncode (c.signDetached m)) (hexToU8_u8ToHex challengeBytes)
  simp only [handleRequest, statelessAuthMiddleware, sendVerify, hexempt, hroute, if_true, handle,
    verify, cleanupChallenges, AuthClient.verifyRequest, hsign, hexDecode_hexEncode, hc.pubkey, hc.length,
    hc.isKey, hc.signature, bind_bind, spec_pure_bind, spec_orFail_bind, spec_ensure_bind, spec_call_bind,
    spec_pure, true_and, orFail_some_bind, ensure_true_bind, decide_true]
  intro admitted _
  refine ⟨fun hno hin => absurd hin (by simp [hno]), fun hpassedted now _ cleaned _ entry _ => ?_⟩
  -- the one removal of the challenge
  have hmem : ∀ entry', (⟨.removeChallenge resp.challengeId, entry'⟩ : Reply Server) ∈
      [] ++ [⟨.ask .layersAdmit, admitted⟩] ++ [⟨.now, now⟩] ++ [⟨.retainChallenges now, cleaned⟩] ++
        [⟨.removeChallenge resp.challengeId, entry⟩] ↔ entry' = entry := by simp
  refine ⟨fun hnone _ => ⟨⟨entry, (hmem _).mpr rfl⟩, fun expiresAt hin => ?_, fun _ => rfl⟩,
    fun found hfound => ⟨fun hbad _ => ⟨⟨entry, (hmem _).mpr rfl⟩, fun expiresAt hin => ?_, fun hin => ?_⟩,
      fun _ _ => ⟨⟨entry, (hmem _).mpr rfl⟩, fun _ _ => rfl, fun hin => ?_⟩⟩⟩
  · exact absurd (((hmem _).mp hin).trans hnone) (by simp)
  · obtain rfl := Option.some.inj (hfound.symm.trans ((hmem _).mp hin).symm)
    exact absurd (hc.verifies.symm.trans hbad) (by simp)
  · exact absurd (((hmem _).mp hin).trans hfound) (by simp)
  · exact absurd (((hmem _).mp hin).trans hfound) (by simp)

end Programs

/-! ## Logins -/

section Reaches

variable {D : Deployment} {allow : System → Job → Prop} {orders : OrdersTable} {g : System}

/-- The event stores a challenge under the id. -/
def Stores (id : String) (ev : Effect) : Prop := (challengeChange ev.reply.1).puts id = true

instance (id : String) (ev : Effect) : Decidable (Stores id ev) := inferInstanceAs (Decidable (_ = true))

/-- A challenge id is drawn once. -/
def IssuedOnce (g : System) (id : String) : Prop :=
  g.history.Pairwise fun ev ev' => ¬ (Stores id ev ∧ Stores id ev')

instance (g : System) (id : String) : Decidable (IssuedOnce g id) :=
  inferInstanceAs (Decidable (List.Pairwise _ _))

theorem IssuedOnce.others {id : String} (honce : IssuedOnce g id) {l m : List Effect} {ins : Effect}
    (hl : g.history = l ++ ins :: m) (hins : Stores id ins) :
    (∀ e ∈ l, (challengeChange e.reply.1).puts id = false) ∧
      ∀ e ∈ m, (challengeChange e.reply.1).puts id = false := by
  rw [IssuedOnce, hl, List.pairwise_append, List.pairwise_cons] at honce
  obtain ⟨_, ⟨hm, _⟩, hlm⟩ := honce
  exact ⟨fun e he => Bool.eq_false_iff.mpr fun hput => hlm e he ins List.mem_cons_self ⟨hput, hins⟩,
    fun e he => Bool.eq_false_iff.mpr fun hput => hm e he ⟨hins, hput⟩⟩

/-- Between the calls of `asker`, which stores the challenge, and `pid`, which takes it, it has not been
dropped. -/
def NotDropped (g : System) (asker pid : ℕ) (id : String) : Prop :=
  ∃ l ins m rem l' challengeBytes expiresAt, g.history = l ++ ins :: (m ++ rem :: l') ∧
    ins.pid = asker ∧ ins.reply.1 = .insertChallenge id challengeBytes expiresAt ∧
    rem.pid = pid ∧ rem.reply.1 = .removeChallenge id ∧
    m.any (fun e => drops id expiresAt e.reply.1) = false

/-- The process has answered a request for a challenge. -/
def Challenged (g : System) (asker : ℕ) (resp : ChallengeResponse) : Prop :=
  ∃ p headers req, g.procs[asker]? = some p ∧ p.job = .request (askChallenge headers req) ∧
    p.prog.result = some (.ok (.challenge resp))

theorem Deployment.Reaches.given (h : D.Reaches allow orders g) {asker : ℕ} {resp : ChallengeResponse}
    (hasked : Challenged g asker resp) : ∃ ins ∈ g.history, ∃ challengeBytes expiresAt, ins.pid = asker ∧
      ins.reply.1 = .insertChallenge resp.challengeId challengeBytes expiresAt ∧
      resp.challenge = hexEncode challengeBytes := by
  obtain ⟨p, headers, req, hp, hjob, hres⟩ := hasked
  have hgiven := h.post_request
    (Q := fun r => fun past result => r = askChallenge headers req → OnOk Given past result) (fun r => ?_)
    (List.mem_of_getElem? hp) hjob hres rfl
  · obtain ⟨challengeBytes, expiresAt, hin, hresp⟩ := hgiven
    obtain ⟨ins, hins, hpid, hreply⟩ := Reachable.event_of_past h hp hin
    exact ⟨ins, hins, challengeBytes, expiresAt, hpid, by rw [hreply], hresp⟩
  · by_cases hr : r = askChallenge headers req
    · subst hr
      exact spec_mono (fun _ _ h => h) (fun _ _ h _ => h) (askChallenge_given headers req)
    · exact spec_of_forall (fun _ _ => trivial) fun _ _ heq => absurd heq hr

/-- What a removal finds is what the map holds. -/
theorem Deployment.Reaches.removed (h : D.Reaches allow orders g) {l l' : List Effect} {rem : Effect}
    (hl : g.history = l ++ rem :: l') {id : String} (hrem : rem.reply.1 = .removeChallenge id) :
    ∃ g₀, D.Reaches allow orders g₀ ∧ g₀.history = l ∧
      rem.reply = ⟨.removeChallenge id, g₀.shared.challenges.lookup id⟩ := by
  obtain ⟨g₀, hg₀, hhist, hshared, _⟩ := Reachable.upTo h hl
  obtain ⟨e, ha⟩ := (h.event (by simp [hl] : rem ∈ g.history)).2
  obtain ⟨pid, j, past, ⟨c, a⟩, before, after⟩ := rem
  obtain rfl : c = .removeChallenge id := hrem
  obtain ⟨hfound, _⟩ := Prod.mk.inj (Option.some.inj ha)
  exact ⟨g₀, hg₀, hhist, by rw [hshared]; exact congrArg (Sigma.mk _) hfound.symm⟩

/-- **A login succeeds exactly if its challenge was not dropped**: with every other request, worker pass
and restart in any order beside the two requests of the client. -/
theorem login_succeeds_iff (h : D.Reaches allow orders g) {asker pid : ℕ} {resp : ChallengeResponse}
    (hasked : Challenged g asker resp) (honce : IssuedOnce g resp.challengeId) {c : AuthClient}
    (hc : c.Signs D.prim (hexToU8 (ascii resp.challenge))) {p : Process} {headers : AuthHeaders}
    (hp : g.procs[pid]? = some p) (hjob : p.job = .request (sendVerify headers (c.verifyRequest resp)))
    (hpassed : ⟨.ask .layersAdmit, true⟩ ∈ p.past) {result : Except Failure Response}
    (hdone : p.prog.result = some result) :
    (NotDropped g asker pid resp.challengeId → result =
      .ok (.verify ⟨hexEncode (deriveAuthKey D.prim D.serverSecret c.pubkeyBytes)⟩)) ∧
    (¬ NotDropped g asker pid resp.challengeId →
      result = .error (badRequest "challenge not found or expired")) := by
  obtain ⟨ins, hins, challengeBytes, expiresAt, hasker, hcall, hresp⟩ := h.given hasked
  have hbytes : hexToU8 (ascii resp.challenge) = challengeBytes := by
    rw [hresp]
    exact hexToU8_u8ToHex challengeBytes
  rw [hbytes] at hc
  have hstores : Stores resp.challengeId ins := by
    rw [Stores, hcall]
    exact decide_eq_true rfl
  have hhonest : Honestly D.api c resp.challengeId challengeBytes p.past result := by
    refine h.post_request (Q := fun r past result => r = sendVerify headers (c.verifyRequest resp) →
      ⟨.ask .layersAdmit, true⟩ ∈ past → Honestly D.api c resp.challengeId challengeBytes past result)
      (fun r => ?_) (List.mem_of_getElem? hp) hjob hdone rfl hpassed
    by_cases hr : r = sendVerify headers (c.verifyRequest resp)
    · subst hr
      exact spec_mono (fun _ _ h => h) (fun _ _ h _ => h) (sendVerify_honest headers hc hresp)
    · exact spec_of_forall (fun _ _ => trivial) fun _ _ heq => absurd heq hr
  obtain ⟨l, t, hl⟩ := List.append_of_mem hins
  obtain ⟨hbefore, hafter⟩ := honce.others hl hstores
  constructor
  · rintro ⟨l₁, ins', m, rem, l', bytes', expiresAt', hsplit, _, hcall', hpid, hrem, hkept⟩
    have hl' : g.history = (l₁ ++ ins' :: m) ++ rem :: l' := by simp [hsplit]
    have hstores' : Stores resp.challengeId ins' := by
      rw [Stores, hcall']
      exact decide_eq_true rfl
    -- the challenge that was stored under the id is the one of the response
    have hsame : ins' = ins := by
      have hmem : ins' ∈ l ++ ins :: t := by
        rw [← hl, hsplit]
        simp
      rcases List.mem_append.mp hmem with hin | hin
      · exact absurd hstores' (by simp [Stores, hbefore ins' hin])
      · rcases List.mem_cons.mp hin with heq | hin
        · exact heq
        · exact absurd hstores' (by simp [Stores, hafter ins' hin])
    subst hsame
    obtain ⟨rfl, rfl⟩ : challengeBytes = bytes' ∧ expiresAt = expiresAt' := by
      simpa using hcall.symm.trans hcall'
    obtain ⟨g₀, hg₀, hhist, hreply⟩ := h.removed hl' hrem
    have hno := (honce.others hsplit hstores').2
    rw [Deployment.Reaches.challenge_lasts hg₀ hhist hcall' fun e he => hno e (by simp [he]), hkept] at hreply
    have hpast : rem.reply ∈ p.past := by
      rw [Reachable.past_eq h hp, callsOf]
      exact List.mem_map_of_mem (List.mem_filter.mpr ⟨by simp [hl'], decide_eq_true hpid⟩)
    rw [hreply] at hpast
    exact hhonest.found expiresAt hpast
  · intro hdropped
    obtain ⟨entry, hin⟩ := hhonest.removes
    obtain ⟨rem, hremMem, hpid, hreply⟩ := Reachable.event_of_past h hp hin
    suffices hnone : entry = none from hhonest.missing (hnone ▸ hin)
    have hrem : rem.reply.1 = .removeChallenge resp.challengeId := by rw [hreply]
    have hmem : rem ∈ l ++ ins :: t := hl ▸ hremMem
    rcases List.mem_append.mp hmem with hmem | hmem
    · -- the removal comes before the challenge is stored
      obtain ⟨l₁, l₂, rfl⟩ := List.append_of_mem hmem
      have hl' : g.history = l₁ ++ rem :: (l₂ ++ ins :: t) := by simp [hl]
      obtain ⟨g₀, hg₀, hhist, hfound⟩ := h.removed hl' hrem
      rw [Deployment.Reaches.challenge_absent hg₀ fun e he => hbefore e (by simp [hhist ▸ he]), hreply]
        at hfound
      simpa using hfound
    · rcases List.mem_cons.mp hmem with rfl | hmem
      · exact absurd (hcall.symm.trans hrem) (by simp)
      · obtain ⟨m, l', rfl⟩ := List.append_of_mem hmem
        have hl' : g.history = (l ++ ins :: m) ++ rem :: l' := by simp [hl]
        obtain ⟨g₀, hg₀, hhist, hfound⟩ := h.removed hl' hrem
        rw [Deployment.Reaches.challenge_lasts hg₀ hhist hcall fun e he => hafter e (by simp [he]), hreply]
          at hfound
        cases hany : m.any fun e => drops resp.challengeId expiresAt e.reply.1 with
        | true => simpa [hany] using hfound
        | false =>
          exact absurd ⟨l, ins, m, rem, l', challengeBytes, expiresAt, hl, hasker, hcall, hpid, hrem, hany⟩
            hdropped

end Reaches

namespace SessionSample

open Sample LoginSample

/-- The client whose login `LoginSample` has. -/
def client : AuthClient where
  authPubkeyHex := pubkeyHex
  authKeyHex := ""
  signDetached _ := hex goodLogin.signature

def given : ChallengeResponse := ⟨challengeId, hexEncode challengeBytes⟩

theorem client_signs : client.Signs (Primitives.ofTables tables) (hexToU8 (ascii given.challenge)) := by
  constructor
  all_goals decide +kernel

def isGiven : Option (Except Failure Response) → Bool
  | some (.ok (.challenge resp)) => resp = given
  | _ => false

theorem isGiven_iff {result : Option (Except Failure Response)} (h : isGiven result = true) :
    result = some (.ok (.challenge given)) := by
  unfold isGiven at h
  split at h
  · rw [of_decide_eq_true h]
  · exact absurd h (by simp)

def letThrough : Reply Server → Bool
  | ⟨.ask .layersAdmit, admitted⟩ => admitted
  | _ => false

theorem letThrough_iff {past : Past} (h : past.any letThrough = true) : ⟨.ask .layersAdmit, true⟩ ∈ past := by
  obtain ⟨⟨c, a⟩, hr, htest⟩ := List.any_eq_true.mp h
  unfold letThrough at htest
  split at htest
  · rename_i admitted heq
    obtain rfl : admitted = true := htest
    exact heq ▸ hr
  · exact absurd htest (by simp)

/-- A login. -/
def loginTrace : (deployment tables none).Trace anyJob (orders [])
    fun g => g.procs[0]?.any (fun p => p.job = .request (askChallenge {} client.challengeRequest) &&
        isGiven p.prog.result) &&
      (g.procs[1]?.any fun p => p.job = .request (sendVerify {} (client.verifyRequest given)) &&
        isLogin p.prog.result && p.past.any letThrough) &&
      decide (IssuedOnce g challengeId) where
  labels := .spawn (.request (askChallenge {} client.challengeRequest)) :: moves 0 7 time ++
    .spawn (.request (sendVerify {} (client.verifyRequest given))) :: moves 1 4 time
  allowed _ _ _ := trivial
  passes := by decide +kernel

end SessionSample

open SessionSample LoginSample Sample in
/-- The login succeeds, so that nobody has dropped its challenge. -/
theorem login_succeeds_iff_sample : ∃ g, (deployment tables none).Reaches anyJob (orders []) g ∧
    NotDropped g 0 1 challengeId := by
  obtain ⟨g, hg, hcheck⟩ := loginTrace.reaches
  obtain ⟨hboth, honce⟩ := Bool.and_eq_true_iff.mp hcheck
  obtain ⟨hask, hverify⟩ := Bool.and_eq_true_iff.mp hboth
  obtain ⟨p₀, hp₀, htest⟩ := (Option.any_eq_true _ _).mp hask
  obtain ⟨hjob₀, hgiven⟩ := Bool.and_eq_true_iff.mp htest
  obtain ⟨p, hp, htest⟩ := (Option.any_eq_true _ _).mp hverify
  obtain ⟨hboth, hthrough⟩ := Bool.and_eq_true_iff.mp htest
  obtain ⟨hjob, hlogin⟩ := Bool.and_eq_true_iff.mp hboth
  obtain ⟨resp, hres⟩ := isLogin_iff hlogin
  obtain ⟨_, hfails⟩ := login_succeeds_iff hg
    (show Challenged g 0 given from ⟨p₀, {}, _, hp₀, of_decide_eq_true hjob₀, isGiven_iff hgiven⟩)
    (of_decide_eq_true honce) client_signs hp (of_decide_eq_true hjob) (letThrough_iff hthrough) hres
  refine ⟨g, hg, ?_⟩
  by_contra hdropped
  exact absurd (hfails hdropped) (by simp)

/-! ## Requests with the auth key -/

section Programs

variable {st : AppState}

/-- How the middleware ends for a request that the client has made. -/
def Admits (c : AuthClient) (st : AppState) (hour : UInt64) (nonce : Bytes) (past : Past) :
    Except Failure (Option Authed) → Prop
  | .ok auth => auth = some ⟨hashPubkey st.prim c.pubkeyBytes, c.pubkeyBytes⟩ ∧
    ⟨.checkReplay hour nonce, true⟩ ∈ past
  | .error e => (e = authFailed "stale hour bucket" ∧
      ∃ now, past = [⟨.now, now⟩] ∧ freshHour (hourOf now) hour = false) ∨
    (e = authFailed "replay detected" ∧ ∃ now, past = [⟨.now, now⟩, ⟨.checkReplay hour nonce, false⟩])

/-- The client with the auth key that a login has given it. -/
def AuthClient.loggedIn (st : AppState) (c : AuthClient) : AuthClient :=
  c.setAuth ⟨hexEncode (deriveAuthKey st.prim st.serverSecret c.pubkeyBytes)⟩

theorem AuthClient.loggedIn_authKey (c : AuthClient) :
    (c.loggedIn st).authKeyBytes = deriveAuthKey st.prim st.serverSecret c.pubkeyBytes :=
  hexToU8_u8ToHex _

theorem middleware_admits {c : AuthClient} {path : String} {now : Nat} {nonceBytes : Bytes}
    (hpath : exemptPath path = false) (hnow : now / 3600000 < 2 ^ 64)
    (hc : c.Signs st.prim ((c.loggedIn st).signedMessage st.prim ⟨path, UInt64.ofNat (now / 3600000), nonceBytes⟩)) :
    Spec server.May (fun _ _ => True) (Admits c st (UInt64.ofNat (now / 3600000)) nonceBytes) []
      (statelessAuthMiddleware st path ((c.loggedIn st).makeAuthHeaders st.prim path now nonceBytes)) := by
  have hparse := parseU64_toString hnow
  have hmac : verifyHmac st.prim (deriveAuthKey st.prim st.serverSecret c.pubkeyBytes) c.pubkeyBytes
      (UInt64.ofNat (now / 3600000)) path nonceBytes
      ((c.loggedIn st).hmacSig st.prim ⟨path, UInt64.ofNat (now / 3600000), nonceBytes⟩) = true := by
    rw [← c.loggedIn_authKey]
    exact decide_eq_true rfl
  have hsig : verifySignature st.prim c.pubkeyBytes
      ((c.loggedIn st).hmacSig st.prim ⟨path, UInt64.ofNat (now / 3600000), nonceBytes⟩) c.pubkeyBytes
      (UInt64.ofNat (now / 3600000)) nonceBytes (c.signDetached ((c.loggedIn st).signedMessage st.prim
        ⟨path, UInt64.ofNat (now / 3600000), nonceBytes⟩)) = true := by
    have hv := hc.verifies
    simp only [verifySignature, hc.isKey, hc.signature, decide_true, Bool.and_self, Bool.true_and]
    rwa [AuthClient.signedMessage_eq] at hv ⊢
  have hpk : hexDecode (c.loggedIn st).authPubkeyHex = some c.pubkeyBytes := hc.pubkey
  have hsd : (c.loggedIn st).signDetached = c.signDetached := rfl
  unfold statelessAuthMiddleware
  rw [if_neg (by simp [hpath])]
  simp only [AuthClient.makeAuthHeaders, orFail_some_bind, hpk, hc.length, hparse, hexDecode_hexEncode,
    decide_true, ensure_true_bind, hmac, hsd, hsig, spec_call_bind, spec_ensure_bind, spec_pure, true_and]
  intro now' _
  refine ⟨fun hstale => .inl ⟨rfl, now', rfl, hstale⟩, fun _ fresh _ => ⟨fun hseen => ?_, fun hnew => ?_⟩⟩
  · subst hseen
    exact .inr ⟨rfl, now', rfl⟩
  · subst hnew
    exact ⟨rfl, by simp⟩

/-- How a request that the client has made comes through the middleware. -/
def Passes (hour : UInt64) (nonce : Bytes) (past : Past) (result : Except Failure Response) : Prop :=
  (∃ admitted, ⟨.ask .layersAdmit, admitted⟩ ∈ past) ∨
    (result = .error (authFailed "stale hour bucket") ∧
      ∃ now, past = [⟨.now, now⟩] ∧ freshHour (hourOf now) hour = false) ∨
    (result = .error (authFailed "replay detected") ∧
      ∃ now, past = [⟨.now, now⟩, ⟨.checkReplay hour nonce, false⟩])

theorem handleRequest_passes {c : AuthClient} {method : Method} {path : String} {body : Body} {now : Nat}
    {nonceBytes : Bytes} (hpath : exemptPath path = false) (hnow : now / 3600000 < 2 ^ 64)
    (hc : c.Signs st.prim
      ((c.loggedIn st).signedMessage st.prim ⟨path, UInt64.ofNat (now / 3600000), nonceBytes⟩)) :
    Spec server.May (fun _ _ => True) (Passes (UInt64.ofNat (now / 3600000)) nonceBytes) []
      (handleRequest st
        ⟨method, path, (c.loggedIn st).makeAuthHeaders st.prim path now nonceBytes, body⟩) := by
  unfold handleRequest
  refine spec_seq (middleware_admits hpath hnow hc) (fun past auth _ => ?_) fun past e hends => ?_
  · refine spec_call_bind.mpr ⟨trivial, fun admitted _ => ?_⟩
    -- whatever comes after that call, it stays in the past
    refine spec_mono (fun _ _ h => h) (fun past' r hr => .inl ⟨admitted, hr.1 ?_⟩)
      (spec_past (Q := fun _ _ => True) (fun _ h => h)
        (spec_of_forall (fun _ _ => trivial) fun _ _ => trivial))
    simp
  · rcases hends with ⟨rfl, hstale⟩ | ⟨rfl, hseen⟩
    · exact .inr (.inl ⟨rfl, hstale⟩)
    · exact .inr (.inr ⟨rfl, hseen⟩)

end Programs

section Reaches

variable {D : Deployment} {allow : System → Job → Prop} {orders : OrdersTable} {g : System}

/-- A nonce in the cache was accepted. -/
theorem Deployment.Reaches.cached (h : D.Reaches allow orders g) {hour : UInt64} {nonce : Bytes}
    (hmem : nonce ∈ bucket g.shared.replayCache hour) :
    ∃ ev ∈ g.history, ev.reply = ⟨.checkReplay hour nonce, true⟩ := by
  refine Reachable.shared_inv (R := fun s (l : List Effect) => nonce ∈ bucket s.replayCache hour →
    ∃ ev ∈ l, ev.reply = ⟨.checkReplay hour nonce, true⟩)
    (fun hmem => absurd hmem List.not_mem_nil) ?_ h hmem
  intro g pid j past c e a s _ _ ha ih hmem
  have hold : nonce ∈ bucket g.shared.replayCache hour → ∃ ev ∈ g.history ++
      [⟨pid, j, past, ⟨c, a⟩, g.shared, s⟩], ev.reply = ⟨.checkReplay hour nonce, true⟩ := by
    intro hbefore
    obtain ⟨ev, hev, hreply⟩ := ih hbefore
    exact ⟨ev, List.mem_append_left _ hev, hreply⟩
  by_cases hcheck : ∃ hour' nonce', c = .checkReplay hour' nonce'
  · obtain ⟨hour', nonce', rfl⟩ := hcheck
    obtain ⟨hfresh, hcache⟩ := answer_checkReplay ha
    rw [hcache] at hmem
    rcases mem_of_mem_check rfl hmem with hbefore | ⟨rfl, rfl, hnew⟩
    · exact hold hbefore
    · exact ⟨_, List.mem_append_right _ List.mem_cons_self, congrArg (Sigma.mk _) (hfresh.trans hnew)⟩
  · by_cases hrestart : c = .restartApi
    · subst hrestart
      obtain ⟨_, rfl⟩ := Prod.mk.inj (Option.some.inj ha)
      exact absurd hmem List.not_mem_nil
    · rw [answer_replayCache ha hrestart fun hour' nonce' heq => hcheck ⟨hour', nonce', heq⟩] at hmem
      exact hold hmem

/-- **A logged in client gets through**: a request that it has made with the auth key of its login comes
through the middleware whatever the others do, unless the server's clock read another hour, or another
request had been accepted with the same hour and nonce. -/
theorem signed_request_admitted (h : D.Reaches allow orders g) {c : AuthClient} {pid : ℕ} {p : Process}
    {method : Method} {path : String} {body : Body} {now : Nat} {nonceBytes : Bytes}
    (hpath : exemptPath path = false) (hnow : now / 3600000 < 2 ^ 64)
    (hc : c.Signs D.prim ((c.loggedIn D.api).signedMessage D.prim
      ⟨path, UInt64.ofNat (now / 3600000), nonceBytes⟩))
    (hp : g.procs[pid]? = some p) (hjob : p.job = .request
      ⟨method, path, (c.loggedIn D.api).makeAuthHeaders D.prim path now nonceBytes, body⟩)
    {result : Except Failure Response} (hdone : p.prog.result = some result) :
    (∃ admitted, ⟨.ask .layersAdmit, admitted⟩ ∈ p.past) ∨
      (result = .error (authFailed "stale hour bucket") ∧ ∃ read, ⟨.now, read⟩ ∈ p.past ∧
        freshHour (hourOf read) (UInt64.ofNat (now / 3600000)) = false) ∨
      (result = .error (authFailed "replay detected") ∧ ∃ ev ∈ g.history, ev.pid ≠ pid ∧
        ev.reply = ⟨.checkReplay (UInt64.ofNat (now / 3600000)) nonceBytes, true⟩) := by
  have hpasses : Passes (UInt64.ofNat (now / 3600000)) nonceBytes p.past result := by
    refine h.post_request (Q := fun r past result => r = ⟨method, path,
      (c.loggedIn D.api).makeAuthHeaders D.prim path now nonceBytes, body⟩ →
        Passes (UInt64.ofNat (now / 3600000)) nonceBytes past result)
      (fun r => ?_) (List.mem_of_getElem? hp) hjob hdone rfl
    by_cases hr : r = ⟨method, path, (c.loggedIn D.api).makeAuthHeaders D.prim path now nonceBytes, body⟩
    · subst hr
      exact spec_mono (fun _ _ h => h) (fun _ _ h _ => h) (handleRequest_passes hpath hnow hc)
    · exact spec_of_forall (fun _ _ => trivial) fun _ _ heq => absurd heq hr
  rcases hpasses with hthrough | ⟨hres, read, hpast, hstale⟩ | ⟨hres, read, hpast⟩
  · exact .inl hthrough
  · exact .inr (.inl ⟨hres, read, by simp [hpast], hstale⟩)
  · refine .inr (.inr ⟨hres, ?_⟩)
    have hseen : ⟨.checkReplay (UInt64.ofNat (now / 3600000)) nonceBytes, false⟩ ∈ p.past := by simp [hpast]
    obtain ⟨ev, hev, _, hreply⟩ := Reachable.event_of_past h hp hseen
    obtain ⟨l, l', hl⟩ := List.append_of_mem hev
    obtain ⟨g₀, hg₀, hhist, hshared, _⟩ := Reachable.upTo h hl
    obtain ⟨_, ha⟩ := (h.event hev).2
    rw [hreply] at ha
    have hmem := mem_of_check_refuses rfl (answer_checkReplay ha).1.symm
    rw [← hshared] at hmem
    obtain ⟨ev', hev', hreply'⟩ := Deployment.Reaches.cached hg₀ hmem
    have hin : ev' ∈ g.history := by simp [hl, ← hhist, hev']
    refine ⟨ev', hin, fun hpid => ?_, hreply'⟩
    -- the client's own request has one such call, which is refused
    have hown : ev'.reply ∈ p.past := by
      rw [Reachable.past_eq h hp, callsOf]
      exact List.mem_map_of_mem (List.mem_filter.mpr ⟨hin, decide_eq_true hpid⟩)
    rw [hreply', hpast] at hown
    simp at hown

end Reaches

namespace SessionSample

open Sample

def browserDeployment : Deployment := { deployment browserTables none with prim := browserPrim }

theorem browser_loggedIn : browser.loggedIn browserDeployment.api = browser := by
  have hkey : hexEncode (deriveAuthKey browserPrim serverSecret browser.pubkeyBytes) = browser.authKeyHex := by
    rw [browser_bytes.1]
    decide +kernel
  exact congrArg (fun k => { browser with authKeyHex := k }) hkey

/-- When the browser has made its request, in milliseconds. -/
def sentAt : Nat := 1700000000000

theorem sent_triple : (⟨browserChat.path, UInt64.ofNat (sentAt / 3600000), hex browserChat.nonce⟩ : AuthTriple) =
    browserTriple := by
  decide +kernel

theorem browser_signs : browser.Signs browserDeployment.prim
    ((browser.loggedIn browserDeployment.api).signedMessage browserDeployment.prim
      ⟨browserChat.path, UInt64.ofNat (sentAt / 3600000), hex browserChat.nonce⟩) := by
  rw [sent_triple]
  change browser.Signs browserPrim
    ((browser.loggedIn browserDeployment.api).signedMessage browserPrim browserTriple)
  rw [browser_loggedIn, AuthClient.signedMessage_eq, browser_bytes.2.2]
  constructor
  · rw [browser_bytes.1]
    decide +kernel
  · rw [browser_bytes.1]
    decide +kernel
  · rw [browser_bytes.1]
    decide +kernel
  · decide +kernel
  · rw [browser_bytes.1]
    decide +kernel

/-- The request, and somebody who sends it once more. -/
def browserRequest : Request :=
  ⟨.get, browserChat.path, (browser.loggedIn browserDeployment.api).makeAuthHeaders browserDeployment.prim
    browserChat.path sentAt (hex browserChat.nonce), .empty⟩

def refusedAsReplay : Option (Except Failure Response) → Bool
  | some (.error e) => e = authFailed "replay detected"
  | _ => false

theorem refusedAsReplay_iff {result : Option (Except Failure Response)} (h : refusedAsReplay result = true) :
    result = some (.error (authFailed "replay detected")) := by
  unfold refusedAsReplay at h
  split at h
  · rw [of_decide_eq_true h]
  · exact absurd h (by simp)

/-- The request has not come to the layers behind the middleware. -/
def unasked : Reply Server → Bool
  | ⟨.ask _, _⟩ => false
  | _ => true

def resentTrace : browserDeployment.Trace anyJob (orders []) fun g =>
    g.procs[1]?.any fun p => p.job = .request browserRequest && refusedAsReplay p.prog.result &&
      p.past.all unasked where
  labels := .spawn (.request browserRequest) :: acts 0 2 ++ .spawn (.request browserRequest) :: acts 1 2
  allowed _ _ _ := trivial
  passes := by decide +kernel

theorem not_asked {past : Past} (h : past.all unasked = true) {q : Query} {a : q.Ans} :
    ⟨.ask q, a⟩ ∉ past := fun hin => absurd (List.all_eq_true.mp h _ hin) (by simp [unasked])

end SessionSample

open SessionSample Sample in
/-- Whoever sends a request once more is refused: it was the other one that was accepted. -/
theorem signed_request_admitted_replay : ∃ g, browserDeployment.Reaches anyJob (orders []) g ∧
    ∃ ev ∈ g.history, ev.pid ≠ 1 ∧
      ev.reply = ⟨.checkReplay (UInt64.ofNat (sentAt / 3600000)) (hex browserChat.nonce), true⟩ := by
  obtain ⟨g, hg, hcheck⟩ := resentTrace.reaches
  obtain ⟨p, hp, htest⟩ := (Option.any_eq_true _ _).mp hcheck
  obtain ⟨hboth, hunasked⟩ := Bool.and_eq_true_iff.mp htest
  obtain ⟨hjob, hrefused⟩ := Bool.and_eq_true_iff.mp hboth
  have hpath : exemptPath browserChat.path = false := by decide +kernel
  have hnow : sentAt / 3600000 < 2 ^ 64 := by decide
  rcases signed_request_admitted hg hpath hnow browser_signs hp (of_decide_eq_true hjob)
    (refusedAsReplay_iff hrefused) with ⟨_, hthrough⟩ | ⟨hstale, _⟩ | ⟨_, hother⟩
  · exact absurd hthrough (not_asked hunasked)
  · exact absurd hstale (by decide)
  · exact ⟨g, hg, hother⟩

end TorMarketplace
