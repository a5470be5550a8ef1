import TorMarketplace.Gateway.RateLimit
import TorMarketplace.Lib.Keyed
import TorMarketplace.Proof.Versions

/-!
# Whose budget a request spends

The limiter's map is a map of independent windows (`check_eq`), so that a client's verdicts depend on
the requests with the client's key alone. The key of an authenticated request is the hex of a digest,
which is no `ip:` key and not `anonymous`; but it can be the `x-auth-pubkey` header of a request that
nobody has authenticated. Where no request takes it there, budgets do not interfere
(`budget_depends_on_own_times`).
-/

namespace TorMarketplace

open Encoding Interleave Prog

/-! ## The limiter as a map of windows -/

/-- `check` at one key. -/
def RateLimiter.entryStep (limiter : RateLimiter) (entry : Option RateEntry) (now : Instant) :
    Bool × Option RateEntry :=
  match entry with
  | some entry =>
    if now - entry.windowStart > limiter.windowDuration then (true, some ⟨1, now⟩)
    else if entry.count ≥ limiter.maxRequests then (false, some entry)
    else (true, some { entry with count := entry.count + 1 })
  | none => (true, some ⟨1, now⟩)

theorem RateLimiter.check_eq (limiter : RateLimiter) (buckets : RateBuckets) (key : String)
    (now : Instant) :
    limiter.check buckets key now = Keyed.stepAt limiter.entryStep buckets key now := by
  unfold check Keyed.stepAt entryStep
  cases hentry : buckets key with
  | none => rfl
  | some entry =>
    dsimp only
    by_cases hwindow : now - entry.windowStart > limiter.windowDuration
    · rw [if_pos hwindow, if_pos hwindow]
    · rw [if_neg hwindow, if_neg hwindow]
      by_cases hcount : entry.count ≥ limiter.maxRequests
      · rw [if_pos hcount, if_pos hcount, ← hentry, Function.update_eq_self]
      · rw [if_neg hcount, if_neg hcount]

/-- The verdicts on the requests of one client, made at these instants with nobody else there. -/
def RateLimiter.budget (limiter : RateLimiter) (times : List Instant) : List Bool :=
  Keyed.outputs limiter.entryStep none times

/-! ## Keys -/

theorem hexEncode_ne_empty {b : Bytes} (hb : b ≠ []) : hexEncode b ≠ "" := by
  intro h
  have hdecode := hexDecode_hexEncode b
  rw [h] at hdecode
  exact hb (Option.some.inj hdecode).symm

theorem hexEncode_ne_anonymous (b : Bytes) : hexEncode b ≠ "anonymous" := by
  intro h
  exact not_mem_hexEncode (c := 'y') (by decide) b (h ▸ by decide)

theorem ip_ne_hexEncode (s : String) (b : Bytes) : "ip:" ++ s ≠ hexEncode b := by
  intro h
  refine not_mem_hexEncode (c := ':') (by decide) b (h ▸ ?_)
  simp

theorem hashPubkey_ne_nil {P : Primitives} (hdigest : ∀ m, (P.blake3 m).length = 32) (m : Bytes) :
    hashPubkey P m ≠ [] := by
  intro hm
  have hlen := hdigest m
  rw [← hashPubkey, hm] at hlen
  exact absurd hlen (by decide)

/-- An authenticated request has the key of its public key's hash. -/
theorem getRateLimitKey_some {a : Authed} (hne : a.pubkeyHash ≠ []) (headers : HeaderMap) :
    getRateLimitKey (some a) headers = hexEncode a.pubkeyHash := by
  simp [getRateLimitKey, hexEncode_ne_empty hne]

/-- **Without authentication only the header leads to the key of a digest.** -/
theorem getRateLimitKey_none_iff {digest : Bytes} (hne : digest ≠ []) (headers : HeaderMap) :
    getRateLimitKey none headers = hexEncode digest ↔
      textHeader headers "x-auth-pubkey" = some (hexEncode digest) := by
  have hnamed : pubkeyHeaderKey headers = some (hexEncode digest) ↔
      textHeader headers "x-auth-pubkey" = some (hexEncode digest) := by
    rw [pubkeyHeaderKey, Option.filter_eq_some_iff]
    simp [hexEncode_ne_empty hne, hexEncode_ne_anonymous]
  rw [← hnamed]
  unfold getRateLimitKey
  rw [Option.bind_none]
  cases hkey : pubkeyHeaderKey headers with
  | some key => simp
  | none =>
    simp only [reduceCtorEq, iff_false]
    cases textHeader headers "x-forwarded-for" with
    | some ip => exact ip_ne_hexEncode _ digest
    | none =>
      cases textHeader headers "x-real-ip" with
      | some ip => exact ip_ne_hexEncode ip digest
      | none => exact (hexEncode_ne_anonymous digest).symm

/-! ## Requests -/

/-- The extensions with which a request has come to the limiter. -/
def Passage.checkedAs : Passage → Option (Option Authed)
  | .checked auth _ => some auth
  | .refused _ => none

/-- The request is authenticated as `pk`. -/
def IsOwn (pk : Bytes) : Option Authed → Prop
  | some a => a.pubkeyBytes = pk
  | none => False

instance (pk : Bytes) : DecidablePred (IsOwn pk)
  | some a => inferInstanceAs (Decidable (a.pubkeyBytes = pk))
  | none => inferInstanceAs (Decidable False)

/-- A request with these extensions leaves the budget of `pk` alone: the hash of another
authenticated key is not that of `pk`, and a request that is not authenticated does not present
that hash as its `x-auth-pubkey`. -/
def LeavesBudget (P : Primitives) (pk : Bytes) (headers : HeaderMap) : Option Authed → Prop
  | some a => hashPubkey P a.pubkeyBytes ≠ hashPubkey P pk
  | none => textHeader headers "x-auth-pubkey" ≠ some (hexEncode (hashPubkey P pk))

instance (P : Primitives) (pk : Bytes) (headers : HeaderMap) : DecidablePred (LeavesBudget P pk headers)
  | some _ => inferInstanceAs (Decidable (_ ≠ _))
  | none => inferInstanceAs (Decidable (_ ≠ _))

/-- Nobody but the holder of `pk` spends its budget. -/
def BudgetKept (P : Primitives) (pk : Bytes) (l : List (Arrival × Passage)) : Prop :=
  ∀ p ∈ l, ∀ auth ∈ p.2.checkedAs, IsOwn pk auth ∨ LeavesBudget P pk p.1.request.headers auth

instance (P : Primitives) (pk : Bytes) (l : List (Arrival × Passage)) :
    Decidable (BudgetKept P pk l) :=
  inferInstanceAs (Decidable (∀ p ∈ l, ∀ auth ∈ p.2.checkedAs, _))

/-- The instants and the verdicts of the requests authenticated as `pk`. -/
def ownChecks (pk : Bytes) (l : List (Arrival × Passage)) : List (Instant × Bool) :=
  l.filterMap fun p =>
    match p.2 with
    | .checked (some a) allowed => if a.pubkeyBytes = pk then some (p.1.instant, allowed) else none
    | _ => none

def ownTimes (pk : Bytes) (l : List (Arrival × Passage)) : List Instant :=
  (ownChecks pk l).map Prod.fst

def ownVerdicts (pk : Bytes) (l : List (Arrival × Passage)) : List Bool :=
  (ownChecks pk l).map Prod.snd

/-! ## The condition is exact -/

section Exact

/-- A window that has room for `n` requests more lets them through. -/
theorem outputs_of_room (limiter : RateLimiter) (t : Instant) {n : Nat} {c : UInt32}
    (hroom : c.toNat + n ≤ limiter.maxRequests.toNat) :
    Keyed.outputs limiter.entryStep (some ⟨c, t⟩) (List.replicate n t) = List.replicate n true := by
  induction n generalizing c with
  | zero => rfl
  | succ n ih =>
    have hlt : ¬ c ≥ limiter.maxRequests := by
      rw [ge_iff_le, UInt32.le_iff_toNat_le]
      omega
    have hnext : (c + 1).toNat = c.toNat + 1 := by
      have hmax := limiter.maxRequests.toNat_lt
      rw [UInt32.toNat_add, show (1 : UInt32).toNat = 1 from rfl]
      omega
    have hstep : limiter.entryStep (some ⟨c, t⟩) t = (true, some ⟨c + 1, t⟩) := by
      simp [RateLimiter.entryStep, hlt]
    rw [List.replicate_succ, List.replicate_succ, Keyed.outputs, hstep, ih (by omega)]

/-- A window that has room for less than `n` requests refuses one of them. -/
theorem refuses_of_no_room (limiter : RateLimiter) (t : Instant) {n : Nat} {c : UInt32} (hn : 0 < n)
    (hroom : limiter.maxRequests.toNat < c.toNat + n) :
    false ∈ Keyed.outputs limiter.entryStep (some ⟨c, t⟩) (List.replicate n t) := by
  induction n generalizing c with
  | zero => exact absurd hn (by omega)
  | succ n ih =>
    rw [List.replicate_succ, Keyed.outputs]
    by_cases hfull : c ≥ limiter.maxRequests
    · have hstep : (limiter.entryStep (some ⟨c, t⟩) t).1 = false := by
        simp [RateLimiter.entryStep, hfull]
      rw [hstep]
      exact List.mem_cons_self
    · have hstep : limiter.entryStep (some ⟨c, t⟩) t = (true, some ⟨c + 1, t⟩) := by
        simp [RateLimiter.entryStep, hfull]
      have hlt : c.toNat < limiter.maxRequests.toNat := by
        rw [ge_iff_le, UInt32.le_iff_toNat_le] at hfull
        omega
      have hnext : (c + 1).toNat = c.toNat + 1 := by
        have hmax := limiter.maxRequests.toNat_lt
        rw [UInt32.toNat_add, show (1 : UInt32).toNat = 1 from rfl]
        omega
      rw [hstep]
      exact List.mem_cons_of_mem true (ih (by omega) (by omega))

/-- As many requests as a window has at most pass, if they come alone. -/
theorem budget_full (limiter : RateLimiter) (t : Instant) :
    limiter.budget (List.replicate (max limiter.maxRequests.toNat 1) t) =
      List.replicate (max limiter.maxRequests.toNat 1) true := by
  obtain ⟨n, hn⟩ : ∃ n, max limiter.maxRequests.toNat 1 = n + 1 :=
    ⟨max limiter.maxRequests.toNat 1 - 1, by omega⟩
  rw [hn, List.replicate_succ, List.replicate_succ, RateLimiter.budget, Keyed.outputs]
  cases n with
  | zero => rfl
  | succ n =>
    have hone : (1 : UInt32).toNat = 1 := rfl
    have hrest := outputs_of_room limiter t (n := n + 1) (c := 1) (by omega)
    exact congrArg (List.cons true) hrest

/-- **A check of a fresh limiter spends the budget of a key if and only if it is a check of the
key.** -/
theorem spends_iff (limiter : RateLimiter) (key budgetKey : String) (now : Instant) :
    (∃ times, Keyed.outputs limiter.entryStep
      ((limiter.check (fun _ => none) key now).2 budgetKey) times ≠ limiter.budget times) ↔
      key = budgetKey := by
  have hafter : (limiter.check (fun _ => none) key now).2 budgetKey =
      if budgetKey = key then some ⟨1, now⟩ else none := by
    rw [RateLimiter.check_eq]
    exact Function.update_apply (fun _ => none) key (some (RateEntry.mk 1 now)) budgetKey
  rw [hafter]
  constructor
  · rintro ⟨times, hne⟩
    by_contra hkey
    rw [if_neg (Ne.symm hkey)] at hne
    exact hne rfl
  · rintro rfl
    refine ⟨List.replicate (max limiter.maxRequests.toNat 1) now, fun heq => ?_⟩
    rw [if_pos rfl, budget_full] at heq
    have hone : (1 : UInt32).toNat = 1 := rfl
    have hrefused := refuses_of_no_room limiter now (n := max limiter.maxRequests.toNat 1) (c := 1)
      (by omega) (by omega)
    rw [heq] at hrefused
    exact absurd (List.eq_of_mem_replicate hrefused) (by decide)

/-- **A request of somebody else leaves a budget alone if and only if** `LeavesBudget`. -/
theorem leavesBudget_iff {P : Primitives} (hdigest : ∀ m, (P.blake3 m).length = 32)
    (limiter : RateLimiter) (pk : Bytes) (headers : HeaderMap) (now : Instant) {auth : Option Authed}
    (hhash : ∀ x, auth = some x → x.pubkeyHash = hashPubkey P x.pubkeyBytes) :
    LeavesBudget P pk headers auth ↔ ∀ times, Keyed.outputs limiter.entryStep
      ((limiter.check (fun _ => none) (getRateLimitKey auth headers) now).2
        (hexEncode (hashPubkey P pk))) times = limiter.budget times := by
  have hkey : LeavesBudget P pk headers auth ↔
      getRateLimitKey auth headers ≠ hexEncode (hashPubkey P pk) := by
    cases auth with
    | none => exact not_congr (getRateLimitKey_none_iff (hashPubkey_ne_nil hdigest pk) headers).symm
    | some x =>
      have hx := hhash x rfl
      rw [getRateLimitKey_some (hx ▸ hashPubkey_ne_nil hdigest _), hx]
      exact not_congr ⟨fun h => h ▸ rfl, hexEncode_inj⟩
  rw [hkey, ne_eq, ← spends_iff limiter _ _ now, not_exists]
  exact forall_congr' fun times => not_not

end Exact

/-! ## What the layers do -/

section Layers

variable {st : AppState} {limiter : RateLimiter} {pk : Bytes}

/-- What one request does to the limiter. -/
inductive Entered (st : AppState) (limiter : RateLimiter) (s : LayerState) (a : Arrival) :
    Passage → LayerState → Prop
  | refused (e : Failure) (shared : Shared) : Entered st limiter s a (.refused e) ⟨shared, s.buckets⟩
  | checked (auth : Option Authed) (shared : Shared)
      (hauth : ∀ x, auth = some x → x.pubkeyHash = hashPubkey st.prim x.pubkeyBytes) :
      Entered st limiter s a
        (.checked auth (limiter.check s.buckets (getRateLimitKey auth a.request.headers) a.instant).1)
        ⟨shared, (limiter.check s.buckets (getRateLimitKey auth a.request.headers) a.instant).2⟩

/-- The extension of a request is the hash of its public key. -/
theorem statelessAuthMiddleware_hash (st : AppState) (path : String) (headers : AuthHeaders)
    (past : Past) :
    Spec server.May (fun _ _ => True) (OnOk fun _ auth => ∀ a, auth = some a →
      a.pubkeyHash = hashPubkey st.prim a.pubkeyBytes) past
      (statelessAuthMiddleware st path headers) := by
  unfold statelessAuthMiddleware
  split
  · simp
  · simp only [spec_orFail_bind, spec_ensure_bind, spec_call_bind, spec_pure, onOk_ok,
      onOk_error, implies_true, true_and, Option.some.injEq, forall_eq']

theorem enter_entered {s s' : LayerState} {a : Arrival} {p : Passage}
    (h : enter st limiter s a = some (p, s')) : Entered st limiter s a p s' := by
  unfold enter at h
  dsimp only at h
  split at h
  case h_1 => exact absurd h (by simp)
  case h_2 e shared _ =>
    obtain ⟨rfl, rfl⟩ := Prod.mk.inj (Option.some.inj h)
    exact .refused e shared
  case h_3 auth shared hsolo =>
    obtain ⟨rfl, rfl⟩ := Prod.mk.inj (Option.some.inj h)
    obtain ⟨past, hyields⟩ := yields_of_solo [] hsolo
    exact .checked auth shared ((statelessAuthMiddleware_hash st _ _ []).yields hyields)

/-- The middleware reads the clock and uses the nonce. -/
theorem statelessAuthMiddleware_calls (st : AppState) (path : String) (headers : AuthHeaders)
    (past : Past) :
    Spec (fun _ _ => True) (fun _ c => c = Call.now ∨ ∃ hour nonce, c = Call.checkReplay hour nonce)
      (OnOk fun _ _ => True) past (statelessAuthMiddleware st path headers) := by
  unfold statelessAuthMiddleware
  split
  · simp
  · simp

/-- Every request comes somewhere. -/
theorem enter_isSome (st : AppState) (limiter : RateLimiter) (s : LayerState) (a : Arrival) :
    (enter st limiter s a).isSome := by
  have hsolo : (server.solo { time := a.unixTime }
      (statelessAuthMiddleware st a.request.path (authHeaders a.request.headers))
      { s.shared with clock := a.unixTime }).isSome := by
    refine solo_isSome (fun s : Shared => s.clock = a.unixTime) ?_
      (statelessAuthMiddleware_calls st _ _ []) rfl
    rintro _ c s (rfl | ⟨hour, nonce, rfl⟩) hclock
    · exact ⟨a.unixTime, _, if_pos (hclock ▸ Int64.le_refl _), rfl⟩
    · exact ⟨_, _, rfl, hclock⟩
  obtain ⟨⟨r, shared⟩, hr⟩ := Option.isSome_iff_exists.mp hsolo
  unfold enter
  dsimp only
  rw [hr]
  cases r <;> rfl

theorem enterAll_isSome (st : AppState) (limiter : RateLimiter) (arrivals : List Arrival) :
    ∀ s, (enterAll st limiter s arrivals).isSome := by
  induction arrivals with
  | nil => exact fun _ => rfl
  | cons a arrivals ih =>
    intro s
    obtain ⟨⟨p, s'⟩, henter⟩ := Option.isSome_iff_exists.mp (enter_isSome st limiter s a)
    obtain ⟨rest, hrest⟩ := Option.isSome_iff_exists.mp (ih s')
    rw [enterAll, henter]
    change (enterAll st limiter s' arrivals >>= fun rest => pure ((a, p) :: rest)).isSome
    rw [hrest]
    rfl

/-- The key, the instant and the verdict of each request that has come to the limiter. -/
def checks (l : List (Arrival × Passage)) : List (String × Instant × Bool) :=
  l.filterMap fun p =>
    match p.2 with
    | .checked auth allowed =>
      some (getRateLimitKey auth p.1.request.headers, p.1.instant, allowed)
    | .refused _ => none

/-- **The verdicts are those of the limiter** on the keys and the instants. -/
theorem checks_of_enterAll {arrivals : List Arrival} {s : LayerState} {l : List (Arrival × Passage)}
    (h : enterAll st limiter s arrivals = some l) :
    Keyed.outputsAt limiter.entryStep s.buckets ((checks l).map fun c => (c.1, c.2.1)) =
      (checks l).map fun c => (c.1, c.2.2) := by
  induction arrivals generalizing s l with
  | nil =>
    obtain rfl := Option.some.inj h
    rfl
  | cons a arrivals ih =>
    rw [enterAll] at h
    obtain ⟨⟨p, s'⟩, henter, h⟩ := Option.bind_eq_some_iff.mp h
    obtain ⟨rest, hrest, h⟩ := Option.bind_eq_some_iff.mp h
    obtain rfl := Option.some.inj h
    have ih' := ih hrest
    cases enter_entered henter with
    | refused e shared => exact ih'
    | checked auth shared _ =>
      change (_, (Keyed.stepAt _ _ _ _).1) :: Keyed.outputsAt _ _ _ = (_, (limiter.check _ _ _).1) :: _
      rw [RateLimiter.check_eq] at ih' ⊢
      exact congrArg (List.cons _) ih'

/-- The extensions that the layers have given. -/
theorem hash_of_enterAll {arrivals : List Arrival} {s : LayerState} {l : List (Arrival × Passage)}
    (h : enterAll st limiter s arrivals = some l) {a : Arrival} {x : Authed} {allowed : Bool}
    (hmem : (a, .checked (some x) allowed) ∈ l) : x.pubkeyHash = hashPubkey st.prim x.pubkeyBytes := by
  induction arrivals generalizing s l with
  | nil =>
    obtain rfl := Option.some.inj h
    exact absurd hmem List.not_mem_nil
  | cons b arrivals ih =>
    rw [enterAll] at h
    obtain ⟨⟨p, s'⟩, henter, h⟩ := Option.bind_eq_some_iff.mp h
    obtain ⟨rest, hrest, h⟩ := Option.bind_eq_some_iff.mp h
    obtain rfl := Option.some.inj h
    rcases List.mem_cons.mp hmem with heq | hmem
    · obtain ⟨rfl, rfl⟩ := Prod.mk.inj heq
      cases enter_entered henter with
      | checked _ _ hauth => exact hauth x rfl
    · exact ih hrest hmem

/-- **The budget's checks are the client's own**, if nobody else spends the budget. -/
theorem select_checks (hdigest : ∀ m, (st.prim.blake3 m).length = 32)
    {l : List (Arrival × Passage)}
    (hhash : ∀ a x allowed, (a, .checked (some x) allowed) ∈ l →
      x.pubkeyHash = hashPubkey st.prim x.pubkeyBytes)
    (hkept : BudgetKept st.prim pk l) :
    Keyed.select (hexEncode (hashPubkey st.prim pk)) (checks l) = ownChecks pk l := by
  have hne := hashPubkey_ne_nil hdigest
  rw [Keyed.select, checks, ownChecks, List.filterMap_filterMap]
  refine List.filterMap_congr ?_
  rintro ⟨a, p⟩ hmem
  cases p with
  | refused e => rfl
  | checked auth allowed =>
    cases auth with
    | none =>
      have hleaves : LeavesBudget st.prim pk a.request.headers none :=
        (hkept _ hmem none rfl).resolve_left id
      have hkey := mt (getRateLimitKey_none_iff (hne pk) a.request.headers).mp hleaves
      simp [hkey]
    | some x =>
      have hx := hhash a x allowed hmem
      rw [Option.bind_some, getRateLimitKey_some (hx ▸ hne x.pubkeyBytes), hx]
      by_cases hown : x.pubkeyBytes = pk
      · simp [hown]
      · have hleaves : hashPubkey st.prim x.pubkeyBytes ≠ hashPubkey st.prim pk :=
          (hkept _ hmem (some x) rfl).resolve_left hown
        have hkey : hexEncode (hashPubkey st.prim x.pubkeyBytes) ≠ hexEncode (hashPubkey st.prim pk) :=
          fun h => hleaves (hexEncode_inj h)
        simp [hown, hkey]

/-- The verdicts of a client whose budget nobody else spends. -/
theorem ownVerdicts_eq (hdigest : ∀ m, (st.prim.blake3 m).length = 32) {arrivals : List Arrival}
    {l : List (Arrival × Passage)} (h : enterAll st limiter .initial arrivals = some l)
    (hkept : BudgetKept st.prim pk l) : ownVerdicts pk l = limiter.budget (ownTimes pk l) := by
  have hall := checks_of_enterAll h
  have hselect := select_checks hdigest (fun a x allowed hmem => hash_of_enterAll h hmem) hkept
  have hout := Keyed.outputs_at limiter.entryStep (hexEncode (hashPubkey st.prim pk))
    ((checks l).map fun c => (c.1, c.2.1)) LayerState.initial.buckets
  rw [hall, Keyed.select_map, Keyed.select_map, hselect] at hout
  exact hout

/-- **Budgets do not interfere** where only the holder of a key spends its budget: the verdicts on
the key's requests are those of a limiter that gets these requests alone, whatever else arrives. -/
theorem budget_depends_on_own_times (hdigest : ∀ m, (st.prim.blake3 m).length = 32)
    {arrivals : List Arrival} {l : List (Arrival × Passage)}
    (h : enterAll st limiter .initial arrivals = some l) (hkept : BudgetKept st.prim pk l) :
    ownVerdicts pk l = limiter.budget (ownTimes pk l) ∧
      ∀ arrivals' l', enterAll st limiter .initial arrivals' = some l' → BudgetKept st.prim pk l' →
        ownTimes pk l' = ownTimes pk l → ownVerdicts pk l' = ownVerdicts pk l := by
  have hown := ownVerdicts_eq hdigest h hkept
  refine ⟨hown, fun arrivals' l' h' hkept' htimes => ?_⟩
  rw [ownVerdicts_eq hdigest h' hkept', htimes, hown]

end Layers

namespace LimitSample

open Sample

/-- A digest has 32 bytes. -/
def blake3 (m : Bytes) : Bytes :=
  if m = pubkey then hex "4a78877c4a0926fc5d5cb282bb45c11c8489b202fe1890fa0c6593e6192b9f75"
  else List.replicate 32 0

theorem blake3_length (m : Bytes) : (blake3 m).length = 32 := by
  unfold blake3
  split
  · decide +kernel
  · rfl

def api : AppState :=
  { (deployment (loginTables [firstChat]) none).api with
    prim := { Primitives.ofTables (loginTables [firstChat]) with blake3 } }

/-- `rate_limit_per_minute` of the default configuration. -/
def limiter : RateLimiter := .new 30 60

def ownRequest : HttpRequest where
  method := "POST"
  path := firstChat.path
  headers :=
    [("x-auth-pubkey", utf8 pubkeyHex), ("x-auth-hmac", utf8 firstChat.hmac),
      ("x-auth-hour", utf8 "472222"), ("x-auth-nonce", utf8 firstChat.nonce),
      ("x-auth-signature", utf8 firstChat.signature)]

/-- A request for a login challenge that presents an `x-auth-pubkey`. -/
def loginRequest (key : String) : HttpRequest where
  method := "POST"
  path := "/auth/challenge"
  headers := [("x-forwarded-for", utf8 "10.0.0.1"), ("x-auth-pubkey", utf8 key)]

def own : Arrival := ⟨ownRequest, time, 5⟩

/-- Thirty requests in the same second. -/
def burst (key : String) : List Arrival := List.replicate 30 ⟨loginRequest key, time, 4⟩

/-- The times and the verdicts of the client's requests in a sequence. -/
def seen (arrivals : List Arrival) : Option (List Instant × List Bool) :=
  (enterAll api limiter .initial arrivals).map fun l => (ownTimes pubkey l, ownVerdicts pubkey l)

end LimitSample

open LimitSample Sample in
/-- A burst of anonymous requests does not count for the client's. -/
theorem budget_depends_on_own_times_sample :
    ∃ l, enterAll api limiter .initial (burst "anonymous" ++ [own]) = some l ∧
      ownTimes pubkey l = [5] ∧ ownVerdicts pubkey l = limiter.budget [5] := by
  obtain ⟨l, hl⟩ : ∃ l, enterAll api limiter .initial (burst "anonymous" ++ [own]) = some l :=
    Option.isSome_iff_exists.mp (by decide +kernel)
  have hfacts : (enterAll api limiter .initial (burst "anonymous" ++ [own])).all (fun l =>
      decide (BudgetKept api.prim pubkey l ∧ ownTimes pubkey l = [5])) = true := by decide +kernel
  rw [hl] at hfacts
  obtain ⟨hkept, htimes⟩ := of_decide_eq_true hfacts
  exact ⟨l, hl, htimes, htimes ▸ (budget_depends_on_own_times blake3_length hl hkept).1⟩

open LimitSample Sample in
/-- **The header spends the budget**: after a burst of requests that nobody has authenticated, and
that present the hash of the client's key, the client's first request is refused. -/
theorem budgets_interfere : ¬ ∀ arrivals arrivals' l l',
    enterAll api limiter .initial arrivals = some l →
      enterAll api limiter .initial arrivals' = some l' → ownTimes pubkey l' = ownTimes pubkey l →
        ownVerdicts pubkey l' = ownVerdicts pubkey l := by
  intro hclaim
  have halone : seen [own] = some ([5], [true]) := by decide +kernel
  have hafter : seen (burst (hexEncode (hashPubkey api.prim pubkey)) ++ [own]) =
      some ([5], [false]) := by decide +kernel
  obtain ⟨l, hl, hseen⟩ := Option.map_eq_some_iff.mp halone
  obtain ⟨l', hl', hseen'⟩ := Option.map_eq_some_iff.mp hafter
  obtain ⟨htimes, hverdicts⟩ := Prod.mk.inj hseen
  obtain ⟨htimes', hverdicts'⟩ := Prod.mk.inj hseen'
  have hsame := hclaim _ _ l l' hl hl' (htimes'.trans htimes.symm)
  rw [hverdicts, hverdicts'] at hsame
  exact absurd hsame (by decide)

end TorMarketplace
