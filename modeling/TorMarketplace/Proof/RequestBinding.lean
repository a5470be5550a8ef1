import Mathlib.Data.Set.Defs
import TorMarketplace.Frontend.Api
import TorMarketplace.Proof.Versions

/-!
# What a request's authentication is bound to

The HMAC of a request runs path and nonce together, so that it is the HMAC of other pairs too; the
signature fixes the nonce, and what is left of the HMAC's input is the path. So a request that the
middleware accepts under a key is one that the key has signed for (`request_bound_to_triple`), and
one that the browser client has made is accepted (`makeAuthHeaders_accepted`).
-/

namespace TorMarketplace

open Encoding Js Interleave Prog

/-- Some execution of the middleware, whatever the clock and whichever nonces have been used, lets
the request through with the extensions `a`. -/
def Accepts (st : AppState) (path : String) (headers : AuthHeaders) (a : Authed) : Prop :=
  ∃ past, Yields server.May [] (statelessAuthMiddleware st path headers) past (.ok (some a))

/-- What the middleware has checked of a request with this hour, nonce and HMAC. -/
structure Verified (st : AppState) (path : String) (headers : AuthHeaders) (a : Authed)
    (hour : UInt64) (nonce hmac : Bytes) : Prop where
  parsed : headers.hour.bind parseU64 = some hour
  decoded : headers.nonce.bind hexDecode = some nonce
  computed : verifyHmac st.prim (deriveAuthKey st.prim st.serverSecret a.pubkeyBytes) a.pubkeyBytes hour
    path nonce hmac
  signature : ∃ sig, verifySignature st.prim a.pubkeyBytes hmac a.pubkeyBytes hour nonce sig

theorem Accepts.verified {st : AppState} {path : String} {headers : AuthHeaders} {a : Authed}
    (h : Accepts st path headers a) :
    ∃ hour nonce hmac, Verified st path headers a hour nonce hmac := by
  obtain ⟨past, hrun⟩ := h
  suffices hspec : Spec server.May (fun _ _ => True) (OnOk fun _ auth => ∀ a, auth = some a →
      ∃ hour nonce hmac, Verified st path headers a hour nonce hmac) []
      (statelessAuthMiddleware st path headers) from hspec.yields hrun a rfl
  unfold statelessAuthMiddleware
  split
  · simp
  · simp only [spec_orFail_bind, spec_ensure_bind, spec_call_bind, spec_pure, onOk_ok,
      onOk_error, implies_true, true_and, Option.some.injEq]
    rintro pubkeyHex hpk hmacHex hhmac hourStr hhour nonceHex hnonce sigHex hsig pkBytes hpkBytes _
      hmacBytes hhmacBytes hour hparse nonce hnonceBytes sigBytes hsigBytes _ _ _ hverified hsigned
      _ _ _ _ rfl
    refine ⟨hour, nonce, hmacBytes, ?_, ?_, hverified, sigBytes, hsigned⟩
    · simp [hhour, hparse]
    · simp [hnonce, hnonceBytes]

/-- The assumptions about a client whose key has signed the challenges of the triples `signed` and
nothing else: its auth key is the one that the server derives, no other input has the HMAC of one
that it has made, and nobody else has signatures of its key. -/
structure HonestKey (st : AppState) (c : AuthClient) (signed : Set AuthTriple) : Prop where
  authKey : c.authKeyBytes = deriveAuthKey st.prim st.serverSecret c.pubkeyBytes
  digest : ∀ key m, (st.prim.hmacSha256 key m).length = 32
  hmacInj : ∀ t ∈ signed, ∀ m, st.prim.hmacSha256 c.authKeyBytes m = c.hmacSig st.prim t →
    m = c.hmacInput t
  unforgeable : ∀ m sig, st.prim.ed25519Verify c.pubkeyBytes m sig →
    ∃ t ∈ signed, m = c.signedMessage st.prim t

/-- **A challenge has one reading**: the HMAC has its 32 bytes, and the hour its eight. -/
theorem challenge_inj {hmac hmac' pubkey nonce nonce' : Bytes} {hour hour' : UInt64}
    (hlen : hmac.length = hmac'.length)
    (h : buildChallenge hmac pubkey hour nonce = buildChallenge hmac' pubkey hour' nonce') :
    hmac = hmac' ∧ hour = hour' ∧ nonce = nonce' := by
  simp only [buildChallenge, List.append_assoc] at h
  obtain ⟨hhmac, hrest⟩ := List.append_inj h hlen
  obtain ⟨hle, hnonce⟩ := List.append_inj (List.append_cancel_left hrest) (by simp)
  exact ⟨hhmac, leBytes_inj hle, hnonce⟩

/-- **An accepted request is one that its key has signed for**, path, hour and nonce. -/
theorem request_bound_to_triple {st : AppState} {c : AuthClient} {signed : Set AuthTriple}
    (hkey : HonestKey st c signed) {path : String} {headers : AuthHeaders} {a : Authed}
    (haccept : Accepts st path headers a) (hpk : a.pubkeyBytes = c.pubkeyBytes) :
    ∃ t ∈ signed, t.path = path ∧ headers.hour.bind parseU64 = some t.hour ∧
      headers.nonce.bind hexDecode = some t.nonce := by
  obtain ⟨hour, nonce, hmac, hv⟩ := haccept.verified
  obtain ⟨sig, hsig⟩ := hv.signature
  have hhmac : st.prim.hmacSha256 c.authKeyBytes
      (c.pubkeyBytes ++ leBytes hour ++ utf8 path ++ nonce) = hmac := by
    have := of_decide_eq_true hv.computed
    rwa [computeHmac, hpk, ← hkey.authKey] at this
  -- the signed challenge fixes HMAC, hour and nonce
  obtain ⟨t, ht, hmsg⟩ := hkey.unforgeable _ sig (hpk ▸ (Bool.and_eq_true_iff.mp hsig).2)
  rw [AuthClient.signedMessage_eq] at hmsg
  have hlen : hmac.length = (c.hmacSig st.prim t).length := by
    rw [← hhmac, AuthClient.hmacSig, hkey.digest, hkey.digest]
  obtain ⟨hsame, rfl, rfl⟩ := challenge_inj hlen hmsg
  -- and the HMAC's input then fixes the path
  have hinput := hkey.hmacInj t ht _ (hhmac.trans hsame)
  simp only [AuthClient.hmacInput, List.append_assoc, List.append_cancel_left_eq] at hinput
  exact ⟨t, ht, (utf8_inj (List.append_cancel_right hinput)).symm, hv.parsed, hv.decoded⟩

/-- **A request that the browser client has made is accepted**, within the hour and with a nonce
that is new. -/
theorem makeAuthHeaders_accepted (st : AppState) {c : AuthClient} {path : String} {now : Nat}
    {nonceBytes : Bytes} {e : Choice} {s : Shared} (hpath : exemptPath path = false)
    (hpk : hexDecode c.authPubkeyHex = some c.pubkeyBytes) (hlen : c.pubkeyBytes.length = 32)
    (hkey : c.authKeyBytes = deriveAuthKey st.prim st.serverSecret c.pubkeyBytes)
    (hver : st.prim.isVerifyingKey c.pubkeyBytes)
    (hsign : ∀ m, m = c.signedMessage st.prim ⟨path, UInt64.ofNat (now / 3600000), nonceBytes⟩ →
      (c.signDetached m).length = 64 ∧
        st.prim.ed25519Verify c.pubkeyBytes m (c.signDetached m))
    (hnow : now / 3600000 < 2 ^ 64) (hclock : s.clock ≤ e.time)
    (hhour : freshHour (hourOf e.time) (UInt64.ofNat (now / 3600000)))
    (hfresh : (checkReplayCache s.replayCache (UInt64.ofNat (now / 3600000)) nonceBytes).1) :
    Accepts st path (c.makeAuthHeaders st.prim path now nonceBytes)
      ⟨hashPubkey st.prim c.pubkeyBytes, c.pubkeyBytes⟩ := by
  have hparse := parseU64_toString hnow
  have hmac : verifyHmac st.prim (deriveAuthKey st.prim st.serverSecret c.pubkeyBytes) c.pubkeyBytes
      (UInt64.ofNat (now / 3600000)) path nonceBytes
      (c.hmacSig st.prim ⟨path, UInt64.ofNat (now / 3600000), nonceBytes⟩) := by
    rw [← hkey]
    exact decide_eq_true rfl
  have hsig : verifySignature st.prim c.pubkeyBytes
      (c.hmacSig st.prim ⟨path, UInt64.ofNat (now / 3600000), nonceBytes⟩) c.pubkeyBytes
      (UInt64.ofNat (now / 3600000)) nonceBytes (c.signDetached (c.signedMessage st.prim
        ⟨path, UInt64.ofNat (now / 3600000), nonceBytes⟩)) := by
    obtain ⟨hl, hv⟩ := hsign _ rfl
    simp only [verifySignature, hver, hl, decide_true, Bool.and_self, Bool.true_and]
    rwa [AuthClient.signedMessage_eq] at hv ⊢
  obtain ⟨cache, hcache⟩ : ∃ cache, checkReplayCache s.replayCache (UInt64.ofNat (now / 3600000))
      nonceBytes = (true, cache) := ⟨_, Prod.ext hfresh rfl⟩
  suffices hsolo : server.solo e
      (statelessAuthMiddleware st path (c.makeAuthHeaders st.prim path now nonceBytes)) s =
      some (.ok (some ⟨hashPubkey st.prim c.pubkeyBytes, c.pubkeyBytes⟩),
        { s with clock := e.time, replayCache := cache }) from yields_of_solo [] hsolo
  unfold statelessAuthMiddleware
  rw [if_neg (by simp [hpath])]
  simp only [AuthClient.makeAuthHeaders, orFail_some_bind, hpk, hlen, hparse, hexDecode_hexEncode,
    decide_true, ensure_true_bind]
  have hclocked : server.answer .now e s = some (e.time, { s with clock := e.time }) :=
    if_pos hclock
  have hreplay : server.answer (.checkReplay (UInt64.ofNat (now / 3600000)) nonceBytes) e
      { s with clock := e.time } = some (true, { s with clock := e.time, replayCache := cache }) := by
    simp only [server, hcache]
  rw [solo_bind_ok (solo_call hclocked)]
  simp only [hhour, hmac, hsig, ensure_true_bind]
  rw [solo_bind_ok (solo_call hreplay)]
  rfl

namespace Sample

/-- A login with a nonce of 16 bytes. -/
def browserChat : Login where
  path := "/chat/" ++ orderId
  nonce := "a0a1a2a3a4a5a6a7a8a9aaabacadaeaf"
  hmac := "e7f23a583b94021480a6ee23a656faf925575bc4f4b4803f9d2b54ac8dfa7ec8"
  signature :=
    "17bbd45eca29e0804e049a1310ca553b9db791bdb6c8e8cf8951bd528a95a911" ++
    "5de8e8837ba252225d7f862f00740e8d59f231f76c68bfc5f296dd3e43a8db01"

def browserTables : Primitives.Tables := loginTables [browserChat]

/-- Digests have 32 bytes, also those that are in no table. -/
def browserPrim : Primitives :=
  { Primitives.ofTables browserTables with
    hmacSha256 := fun k m => (browserTables.hmacSha256.lookup (k, m)).getD (List.replicate 32 0) }

def browserApi : AppState := { deployment browserTables none with prim := browserPrim }.api

def browser : AuthClient where
  authPubkeyHex := pubkeyHex
  authKeyHex := "6127b6b85e081c4e053bf8b0b2d3a874b599f0f77a73feaaeebaefccf91789fc"
  signDetached _ := hex browserChat.signature

def browserTriple : AuthTriple := ⟨browserChat.path, hourBucket, hex browserChat.nonce⟩

def browserHeaders : AuthHeaders :=
  browser.makeAuthHeaders browserPrim browserChat.path 1700000000000 (hex browserChat.nonce)

theorem browser_bytes : browser.pubkeyBytes = pubkey ∧ browser.authKeyBytes = authKey ∧
    browser.challengeBytes browserPrim browserTriple =
      buildChallenge (hex browserChat.hmac) pubkey hourBucket (hex browserChat.nonce) := by
  refine ⟨?_, ?_, ?_⟩
  all_goals decide +kernel

theorem browser_digest (key m : Bytes) : (browserPrim.hmacSha256 key m).length = 32 := by
  change ((browserTables.hmacSha256.lookup (key, m)).getD (List.replicate 32 0)).length = 32
  cases hl : browserTables.hmacSha256.lookup (key, m) with
  | none => rfl
  | some d =>
    have hall : ∀ e ∈ browserTables.hmacSha256, e.2.length = 32 := by decide +kernel
    obtain ⟨l₁, l₂, heq, _⟩ := List.lookup_eq_some_iff.mp hl
    exact hall ((key, m), d) (by simp [heq])

theorem browser_hmacInj (m : Bytes) (h : browserPrim.hmacSha256 browser.authKeyBytes m =
    browser.hmacSig browserPrim browserTriple) : m = browser.hmacInput browserTriple := by
  rw [browser_bytes.2.1] at h
  have hsig : browser.hmacSig browserPrim browserTriple = hex browserChat.hmac := by decide +kernel
  change (browserTables.hmacSha256.lookup (authKey, m)).getD (List.replicate 32 0) = _ at h
  rw [hsig] at h
  cases hl : browserTables.hmacSha256.lookup (authKey, m) with
  | none =>
    rw [hl] at h
    exact absurd h (by decide +kernel)
  | some d =>
    obtain ⟨l₁, l₂, heq, _⟩ := List.lookup_eq_some_iff.mp hl
    have hmem : ((authKey, m), d) ∈ browserTables.hmacSha256 := by simp [heq]
    simp only [browserTables, loginTables, List.map_cons, List.map_nil, List.mem_cons,
      List.not_mem_nil, or_false, Prod.mk.injEq] at hmem
    rcases hmem with ⟨⟨hkey, _⟩, _⟩ | ⟨⟨_, hm⟩, _⟩
    · exact absurd hkey (by decide +kernel)
    · rw [hm, AuthClient.hmacInput, browser_bytes.1]
      rfl

theorem browser_honest : HonestKey browserApi browser {browserTriple} where
  authKey := by
    rw [browser_bytes.2.1, browser_bytes.1]
    decide +kernel
  digest := browser_digest
  hmacInj t ht m h := by
    obtain rfl : t = browserTriple := ht
    exact browser_hmacInj m h
  unforgeable m sig h := by
    refine ⟨browserTriple, rfl, ?_⟩
    have hmem : (browser.pubkeyBytes, m, sig) ∈ browserTables.signatures :=
      List.contains_iff_mem.mp h
    obtain ⟨_, hm, _⟩ := (by simpa [browserTables, loginTables] using hmem :
      browser.pubkeyBytes = pubkey ∧ m = _ ∧ sig = hex browserChat.signature)
    exact hm.trans (browser_bytes.2.2.symm.trans (AuthClient.signedMessage_eq _ _ _).symm)

/-- The state of the server when it gets the request. -/
def clocked : Choice := { time }

theorem browser_accepted : Accepts browserApi browserChat.path browserHeaders
    ⟨hashPubkey browserPrim browser.pubkeyBytes, browser.pubkeyBytes⟩ := by
  refine makeAuthHeaders_accepted browserApi (e := clocked) (s := Shared.initial (orders []))
    (by decide +kernel) ?_ ?_ browser_honest.authKey ?_ (fun m hm => ?_) (by decide) (by decide)
    (by decide +kernel) (by decide +kernel)
  · rw [browser_bytes.1]
    decide +kernel
  · rw [browser_bytes.1]
    decide +kernel
  · rw [browser_bytes.1]
    decide +kernel
  · rw [hm, AuthClient.signedMessage_eq]
    change _ ∧ browserPrim.ed25519Verify _ (browser.challengeBytes browserPrim browserTriple) _
    rw [browser_bytes.2.2, browser_bytes.1]
    decide +kernel

end Sample

open Sample in
/-- A request of the browser's, and what it is bound to. -/
theorem request_bound_to_triple_sample :
    ∃ a, Accepts browserApi browserChat.path browserHeaders a ∧
      browserHeaders.hour.bind parseU64 = some browserTriple.hour ∧
      browserHeaders.nonce.bind hexDecode = some browserTriple.nonce := by
  obtain ⟨t, rfl, _, hhour, hnonce⟩ := request_bound_to_triple browser_honest browser_accepted rfl
  exact ⟨_, browser_accepted, hhour, hnonce⟩

end TorMarketplace
