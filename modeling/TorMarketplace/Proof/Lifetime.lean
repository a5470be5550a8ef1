import TorMarketplace.Lib.Buckets
import TorMarketplace.Proof.Versions

/-!
# One lifetime of the API process

What the API process remembers in its own memory: the nonce sets of the handlers, which forget
nothing until it restarts (`nonce_once`), and the replay cache of the auth middleware, which drops
the buckets that are more than an hour older than the request at hand. So a replay passes if its
request is so late that the hour of its bucket is two behind; otherwise the overflow guard must have
cleared the bucket (`replay_cache_sound`).
-/

namespace TorMarketplace

open Buckets Encoding Interleave Prog

/-- One lifetime of the API process. -/
def noRestart : System → Job → Prop := fun _ j => j ≠ .restartApi

theorem answer_insertNonce {set : NonceSet} {key : String} {e : Choice} {s s' : Shared}
    (h : server.answer (.insertNonce set key) e s = some (true, s')) :
    key ∉ s.nonces set ∧ key ∈ s'.nonces set := by
  simp only [server] at h
  split at h
  · exact absurd h (by simp)
  · rename_i hfree
    obtain ⟨_, rfl⟩ := Prod.mk.inj (Option.some.inj h)
    simp_all

/-- A nonce set forgets nothing until the API restarts. -/
theorem answer_nonces {c : Call} {e : Choice} {s s' : Shared} {a : c.Ans}
    (h : server.answer c e s = some (a, s')) (hc : c ≠ .restartApi) {set : NonceSet} {key : String}
    (hk : key ∈ s.nonces set) : key ∈ s'.nonces set := by
  cases c with
  | restartApi => exact absurd rfl hc
  | insertNonce set' key' =>
    simp only [server] at h
    split at h
    · obtain ⟨_, rfl⟩ := Prod.mk.inj (Option.some.inj h)
      exact hk
    · obtain ⟨_, rfl⟩ := Prod.mk.inj (Option.some.inj h)
      by_cases hset : set = set'
      · subst hset
        simp [hk]
      · simpa [hset] using hk
  | _ =>
    simp only [server] at h
    repeat' split at h
    all_goals first
      | obtain ⟨_, rfl⟩ := Prod.mk.inj (Option.some.inj h)
        exact hk
      | cases h

/-- Only its own job restarts the API. -/
theorem CallSpec.ne_restartApi {D : Deployment} {j : Job} (hj : j ≠ .restartApi) {past : Past}
    {c : Call} (h : CallSpec D j past c) : c ≠ .restartApi := by
  rintro rfl
  cases j with
  | restartApi => exact hj rfl
  | restartWorker => exact Call.noConfusion h
  | _ => exact h

/-! ## The replay cache -/

/-- A bucket stays in the cache at a use in the hour `hourBucket`. -/
def liveAt (hourBucket bucket : UInt64) : Bool :=
  bucket ≥ if hourBucket = 0 then 0 else hourBucket - 1

def overfull (entry : List Bytes) : Bool := entry.length ≥ maxNoncesPerBucket

/-- `check_replay` uses the nonce in the bucket of its hour. -/
theorem checkReplayCache_eq (cache : List (UInt64 × List Bytes)) (hour : UInt64) (nonce : Bytes) :
    checkReplayCache cache hour nonce = check (liveAt hour) overfull cache hour nonce := by
  simp [checkReplayCache, check, bucket, liveAt, overfull]

theorem liveAt_iff {hour b : UInt64} : liveAt hour b = true ↔ hour.toNat ≤ b.toNat + 1 := by
  unfold liveAt
  rw [decide_eq_true_eq, ge_iff_le, UInt64.le_iff_toNat_le]
  by_cases hzero : hour = 0
  · simp [hzero]
  · have hone : 1 ≤ hour := by
      rw [UInt64.le_iff_toNat_le]
      exact Nat.pos_of_ne_zero fun h => hzero (UInt64.toNat_inj.mp h)
    rw [if_neg hzero, UInt64.toNat_sub_of_le _ _ hone]
    exact Nat.sub_le_iff_le_add

theorem answer_checkReplay {hour : UInt64} {nonce : Bytes} {e : Choice} {s s' : Shared} {a : Bool}
    (h : server.answer (.checkReplay hour nonce) e s = some (a, s')) :
    a = (check (liveAt hour) overfull s.replayCache hour nonce).1 ∧
      s'.replayCache = (check (liveAt hour) overfull s.replayCache hour nonce).2 := by
  simp only [server, checkReplayCache_eq, Option.some.injEq, Prod.mk.injEq] at h
  obtain ⟨rfl, rfl⟩ := h
  exact ⟨rfl, rfl⟩

/-- Nothing else uses the cache. -/
theorem answer_replayCache {c : Call} {e : Choice} {s s' : Shared} {a : c.Ans}
    (h : server.answer c e s = some (a, s')) (hc : c ≠ .restartApi)
    (hno : ∀ hour nonce, c ≠ .checkReplay hour nonce) : s'.replayCache = s.replayCache := by
  cases c with
  | restartApi => exact absurd rfl hc
  | checkReplay hour nonce => exact absurd rfl (hno hour nonce)
  | _ =>
    simp only [server] at h
    repeat' split at h
    all_goals first
      | obtain ⟨_, rfl⟩ := Prod.mk.inj (Option.some.inj h)
        rfl
      | cases h

section Reaches

variable {D : Deployment} {allow : System → Job → Prop} {orders : OrdersTable} {g : System}

/-- In one lifetime of the API, a nonce is accepted once. -/
theorem Deployment.Reaches.nonce_once (h : D.Reaches noRestart orders g) {pid pid' : Nat}
    {p p' : Process} (hp : g.procs[pid]? = some p) (hp' : g.procs[pid']? = some p')
    {set : NonceSet} {key : String} (hr : ⟨.insertNonce set key, true⟩ ∈ p.past)
    (hr' : ⟨.insertNonce set key, true⟩ ∈ p'.past) : pid = pid' := by
  refine Reachable.hit_proc (P := fun j past c => CallSpec D j past c ∧ c ≠ .restartApi)
    (Q := fun j => OnOk (JobDone D j)) (fun _ j hj => ?_)
    (fun r => r = ⟨.insertNonce set key, true⟩) (fun s => key ∈ s.nonces set)
    (fun _ ha hh => ?_) (fun hc ha hk => answer_nonces ha hc.2 hk) h hp hp' hr hr' rfl rfl
  · exact spec_mono (fun _ _ hc => ⟨hc, hc.ne_restartApi hj⟩) (fun _ _ hr => hr) (program_spec D j)
  · cases hh
    exact answer_insertNonce ha

/-- In one lifetime of the API, nobody restarts it. -/
theorem Deployment.Reaches.event_noRestart (h : D.Reaches noRestart orders g) {ev : Effect}
    (hev : ev ∈ g.history) : ev.reply.1 ≠ .restartApi := by
  have hbody : ∀ g j, noRestart g j → Spec server.May
      (fun past c => CallSpec D j past c ∧ c ≠ .restartApi) (OnOk (JobDone D j)) [] (D.program j) :=
    fun _ j hj => spec_mono (fun _ _ hc => ⟨hc, hc.ne_restartApi hj⟩) (fun _ _ hr => hr)
      (program_spec D j)
  exact (Reachable.event (P := fun j past c => CallSpec D j past c ∧ c ≠ .restartApi)
    (Q := fun j => OnOk (JobDone D j)) hbody h ev hev).1.2

/-- The overflow guard clears the bucket `hour` in this call. -/
def Overflows (ev : Effect) (hour : UInt64) : Prop :=
  ∃ nonce fresh, ev.reply = ⟨.checkReplay hour nonce, fresh⟩ ∧
    overfull (bucket ev.before.replayCache hour) = true

/-- **A nonce passes twice in an hour only over the overflow guard**: the guard has cleared the
bucket of the hour in between, or does so at the second use. -/
def ReplaySound (g : System) : Prop :=
  ∀ l₀ ev l₁ ev' l₂ hour nonce, g.history = l₀ ++ ev :: (l₁ ++ ev' :: l₂) →
    ev.reply = ⟨.checkReplay hour nonce, true⟩ → ev'.reply = ⟨.checkReplay hour nonce, true⟩ →
      ∃ e ∈ l₁ ++ [ev'], Overflows e hour

/-- When a request comes to `check_replay`, none has come there before with an hour later than the
next one. -/
def Punctual (g : System) : Prop :=
  ∀ l ev l' hour nonce fresh, g.history = l ++ ev :: l' →
    ev.reply = ⟨.checkReplay hour nonce, fresh⟩ → ∀ e ∈ l, ∀ hour' nonce' fresh',
      e.reply = ⟨.checkReplay hour' nonce', fresh'⟩ → hour'.toNat ≤ hour.toNat + 1

/-- A call that does not drop the bucket, nor clear it, keeps what is in there. -/
theorem Deployment.Reaches.remembers (h : D.Reaches noRestart orders g) {ev : Effect}
    (hev : ev ∈ g.history) {hour : UInt64} {nonce : Bytes}
    (hlive : ∀ hour' nonce' fresh', ev.reply = ⟨.checkReplay hour' nonce', fresh'⟩ →
      hour'.toNat ≤ hour.toNat + 1) (hfull : ¬ Overflows ev hour)
    (hmem : nonce ∈ bucket ev.before.replayCache hour) :
    nonce ∈ bucket ev.after.replayCache hour := by
  have hrestart := h.event_noRestart hev
  obtain ⟨e, ha⟩ := (h.event hev).2
  obtain ⟨pid, j, past, ⟨c, a⟩, before, after⟩ := ev
  by_cases hcheck : ∃ hour' nonce', c = .checkReplay hour' nonce'
  · obtain ⟨hour', nonce', rfl⟩ := hcheck
    rw [(answer_checkReplay ha).2]
    refine remembers_check rfl (liveAt_iff.mpr (hlive hour' nonce' _ rfl)) (fun heq => ?_) hmem
    subst heq
    exact Bool.eq_false_iff.mpr fun hover => hfull ⟨nonce', _, rfl, hover⟩
  · have hsame := answer_replayCache ha hrestart fun hour' nonce' heq => hcheck ⟨hour', nonce', heq⟩
    exact (congrArg (nonce ∈ bucket · hour) hsame).mpr hmem

/-- **The replay cache is sound** in every lifetime of the API whose requests are punctual. -/
theorem replay_cache_sound (h : D.Reaches noRestart orders g) (hpunctual : Punctual g) :
    ReplaySound g := by
  intro l₀ ev l₁ ev' l₂ hour nonce hl hfirst hsecond
  by_contra hno
  have hno : ∀ e ∈ l₁ ++ [ev'], ¬ Overflows e hour := fun e he hover => hno ⟨e, he, hover⟩
  have hl' : g.history = (l₀ ++ ev :: l₁) ++ ev' :: l₂ := by rw [hl, List.append_assoc]; rfl
  obtain ⟨g₀, hg₀, hhist, hshared, _⟩ := Reachable.upTo h hl'
  -- the nonce is remembered from its first use until the second
  have hmem : nonce ∈ bucket g₀.shared.replayCache hour := by
    refine Reachable.since (K := fun s => nonce ∈ bucket s.replayCache hour) hg₀ hhist ?_
      fun e he => ?_
    · obtain ⟨e, ha⟩ := (h.event (hl ▸ by simp : ev ∈ g.history)).2
      obtain ⟨pid, j, past, ⟨c, a⟩, before, after⟩ := ev
      cases hfirst
      rw [(answer_checkReplay ha).2]
      exact mem_check_self rfl
    · refine Deployment.Reaches.remembers hg₀ (by simp [hhist, he])
        (fun hour' nonce' fresh' hreply => ?_) (hno e (List.mem_append_left _ he))
      exact hpunctual _ ev' l₂ hour nonce true hl' hsecond e (by simp [he]) hour' nonce' fresh' hreply
  obtain ⟨e, ha⟩ := (h.event (hl' ▸ by simp : ev' ∈ g.history)).2
  rw [hshared] at hmem
  have hfull : ¬ Overflows ev' hour := hno ev' (by simp)
  obtain ⟨pid, j, past, ⟨c, a⟩, before, after⟩ := ev'
  cases hsecond
  have hrefused : (check (liveAt hour) overfull before.replayCache hour nonce).1 = false :=
    check_refuses rfl (liveAt_iff.mpr (Nat.le_succ _))
      (Bool.eq_false_iff.mpr fun hover => hfull ⟨nonce, true, rfl, hover⟩) hmem
  rw [← (answer_checkReplay ha).1] at hrefused
  exact absurd hrefused (by simp)

end Reaches

namespace Sample

/-- None of the steps restarts the API. -/
def keepsRunning (ls : List (Label Job Choice)) : Bool :=
  ls.all fun l => match l with
    | .spawn j => j ≠ .restartApi
    | .act _ _ => true

theorem keepsRunning_noRestart {ls : List (Label Job Choice)} (h : keepsRunning ls = true) :
    ∀ j, .spawn j ∈ ls → ∀ g, noRestart g j := by
  intro j hj g
  have hall := List.all_eq_true.mp h _ hj
  exact of_decide_eq_true (p := j ≠ .restartApi) hall

/-- A login of the hour 472224. -/
def lateChat : Login where
  path := "/chat/" ++ orderId
  nonce := "0c"
  hmac := "681dbf0ea78f2066aa30f1fcbc46d7b3d47ddf687388c7c3427da857028dac89"
  signature :=
    "da27eb93646d8a246dd0d828c6474fcc0e69692213057c262b9da52478d88277" ++
    "270b04ea044f995599fd1e16ebffbf10c221f25a4bb62237adc4614396056408"

def lateTables : Primitives.Tables :=
  let tables := loginTables [firstChat]
  { tables with
    hmacSha256 :=
      ((authKey, pubkey ++ leBytes 472224 ++ utf8 lateChat.path ++ hex lateChat.nonce),
        hex lateChat.hmac) :: tables.hmacSha256
    signatures :=
      (pubkey, buildChallenge (hex lateChat.hmac) pubkey 472224 (hex lateChat.nonce),
        hex lateChat.signature) :: tables.signatures }

def chatRequest : Request := firstChat.post (.sendMessage ⟨"AQID", "", "n1"⟩)

def lateRequest : Request :=
  let r := lateChat.post (.sendMessage ⟨"AQID", "", "n2"⟩)
  { r with headers := { r.headers with hour := some "472224" } }

/-- The event is a use of the nonce of `chatRequest`, with this verdict. -/
def usesNonce (fresh : Bool) (ev : Effect) : Bool :=
  match ev.reply with
  | ⟨.checkReplay hour nonce, verdict⟩ => hour = hourBucket && nonce = hex "01" && verdict = fresh
  | _ => false

theorem usesNonce_iff {fresh : Bool} {ev : Effect} (h : usesNonce fresh ev = true) :
    ev.reply = ⟨.checkReplay hourBucket (hex "01"), fresh⟩ := by
  obtain ⟨pid, j, past, reply, before, after⟩ := ev
  unfold usesNonce at h
  dsimp only at h ⊢
  split at h
  · simp only [Bool.and_eq_true, decide_eq_true_eq] at h
    obtain ⟨⟨rfl, rfl⟩, rfl⟩ := h
    rfl
  · exact absurd h (by simp)

/-- No bucket is anywhere near its limit. -/
def neverFull (l : List Effect) : Bool :=
  l.all fun ev => !overfull (bucket ev.before.replayCache hourBucket)

theorem neverFull_iff {l : List Effect} (h : neverFull l = true) :
    ∀ e ∈ l, ¬ Overflows e hourBucket := by
  rintro e he ⟨_, _, _, hover⟩
  have := List.all_eq_true.mp h e he
  rw [hover] at this
  exact absurd this (by simp)

/-- A request, its replay, and between the replay's two calls a request of the hour after next. -/
def lateReplay : List (Label Job Choice) :=
  [.spawn (.request chatRequest), .act 0 { time }, .act 0 { time }, .spawn (.request chatRequest),
    .act 1 { time }, .spawn (.request lateRequest), .act 2 { time := 1700007200 },
    .act 2 { time := 1700007200 }, .act 1 { time := 1700007200 }]

def lateTrace : (deployment lateTables none).Trace noRestart (orders [])
    fun g => match g.history with
      | [_, ev, e₁, e₂, e₃, ev'] =>
        usesNonce true ev && usesNonce true ev' && neverFull [e₁, e₂, e₃, ev']
      | _ => false where
  labels := lateReplay
  allowed := keepsRunning_noRestart rfl
  passes := by decide +kernel

/-- The hours of all uses of the replay cache are the same. -/
def oneHour (l : List Effect) : Bool :=
  l.all fun ev => match ev.reply with
    | ⟨.checkReplay hour _, _⟩ => hour = hourBucket
    | _ => true

theorem oneHour_punctual {g : System} (h : oneHour g.history = true) : Punctual g := by
  have hall : ∀ e ∈ g.history, ∀ hour nonce fresh, e.reply = ⟨.checkReplay hour nonce, fresh⟩ →
      hour = hourBucket := fun e he hour nonce fresh hreply => by
    have := List.all_eq_true.mp h e he
    rw [hreply] at this
    exact of_decide_eq_true this
  intro l ev l' hour nonce fresh hl hreply e he hour' nonce' fresh' hreply'
  rw [hall ev (by simp [hl]) _ _ _ hreply, hall e (by simp [hl, he]) _ _ _ hreply']
  exact Nat.le_succ _

/-- A request and its replay. -/
def replayTrace : (deployment lateTables none).Trace noRestart (orders [])
    fun g => oneHour g.history && g.history.any (usesNonce true) &&
      g.history.any (usesNonce false) where
  labels :=
    .spawn (.request chatRequest) :: acts 0 2 ++ .spawn (.request chatRequest) :: acts 1 2
  allowed := keepsRunning_noRestart rfl
  passes := by decide +kernel

end Sample

open Sample in
/-- A replay in the same hour is refused. -/
theorem replay_cache_sound_sample :
    ∃ g, (deployment lateTables none).Reaches noRestart (orders []) g ∧ ReplaySound g ∧
      (∃ ev ∈ g.history, ev.reply = ⟨.checkReplay hourBucket (hex "01"), true⟩) ∧
      ∃ ev ∈ g.history, ev.reply = ⟨.checkReplay hourBucket (hex "01"), false⟩ := by
  obtain ⟨g, hg, hcheck⟩ := replayTrace.reaches
  obtain ⟨hboth, hrefused⟩ := Bool.and_eq_true_iff.mp hcheck
  obtain ⟨hhour, hpassed⟩ := Bool.and_eq_true_iff.mp hboth
  obtain ⟨ev, hev, hfresh⟩ := List.any_eq_true.mp hpassed
  obtain ⟨ev', hev', hstale⟩ := List.any_eq_true.mp hrefused
  exact ⟨g, hg, replay_cache_sound hg (oneHour_punctual hhour), ⟨ev, hev, usesNonce_iff hfresh⟩,
    ev', hev', usesNonce_iff hstale⟩

open Sample in
/-- A replay passes that is held up between its two calls until the hour after next, when another
request drops the bucket. -/
theorem replay_accepted_twice :
    ∃ g, (deployment lateTables none).Reaches noRestart (orders []) g ∧ ¬ ReplaySound g := by
  obtain ⟨g, hg, hcheck⟩ := lateTrace.reaches
  refine ⟨g, hg, fun hsound => ?_⟩
  split at hcheck
  case h_2 => exact absurd hcheck (by simp)
  case h_1 e₀ ev e₁ e₂ e₃ ev' hhist =>
    simp only [Bool.and_eq_true] at hcheck
    obtain ⟨e, he, hover⟩ := hsound [e₀] ev [e₁, e₂, e₃] ev' [] hourBucket (hex "01") hhist
      (usesNonce_iff hcheck.1.1) (usesNonce_iff hcheck.1.2)
    exact neverFull_iff hcheck.2 e he hover

end TorMarketplace
