import TorMarketplace.Proof.FailedRequests
import TorMarketplace.Proof.Statements

/-!
# Who loses a race

The writers of an order's row do not wait for each other: a request whose row was replaced since it was
read is refused. That is the only way to be refused so (`conflict_iff_overtaken`), and what it lost to has
won: an update that took effect, by a process that no longer fails. So of the requests that race for a row
not all are refused.
-/

namespace TorMarketplace

open Encoding Interleave Prog

/-- The refusal of a conditional write. -/
def modified : Failure := conflict "Order was modified by another request"

/-- The reply to a conditional write that has found another version. -/
def refused : Reply Server → Bool
  | ⟨.updateOrders _, some 0⟩ => true
  | _ => false

theorem refused_iff {r : Reply Server} : refused r = true ↔ ∃ u, r = ⟨.updateOrders u, some 0⟩ := by
  constructor
  · intro h
    unfold refused at h
    split at h
    · exact ⟨_, rfl⟩
    · exact absurd h (by simp)
  · rintro ⟨u, rfl⟩
    rfl

/-- A program fails with `modified` exactly when its write was refused. -/
def FailsAsRefused {α : Type} (past : Past) (r : Except Failure α) : Prop :=
  r = .error modified ↔ past.any refused = true

/-- So it does wherever nothing was refused before. -/
def Refusable {α : Type} (x : Program α) : Prop :=
  ∀ past : Past, past.any refused = false → Spec server.May (fun _ _ => True) FailsAsRefused past x

section Programs

variable {α β : Type}

theorem refusable_pure {a : α} : Refusable (pure a) := fun past hpast => by
  simp [FailsAsRefused, hpast]

theorem refusable_fail {e : Failure} (he : e ≠ modified) : Refusable (fail e : Program α) :=
  fun past hpast => by simp [FailsAsRefused, hpast, he]

theorem refusable_orFail {o : Option α} {e : Failure} {f : α → Program β} (he : e ≠ modified)
    (hf : ∀ a, o = some a → Refusable (f a)) : Refusable (orFail o e >>= f) := by
  cases o with
  | none => exact refusable_fail he
  | some a => exact hf a rfl

theorem refusable_ensure {b : Bool} {e : Failure} {f : Unit → Program β} (he : e ≠ modified)
    (hf : Refusable (f ())) : Refusable (ensure b e >>= f) := by
  cases b with
  | false => exact refusable_fail he
  | true => exact hf

/-- A call that is no conditional write. -/
theorem refusable_exec {c : Call} {f : c.Ans → Program β} (hc : ∀ a, refused ⟨c, a⟩ = false)
    (hf : ∀ a, Refusable (f a)) : Refusable (exec c >>= f) := fun past hpast =>
  spec_call_bind.mpr ⟨trivial, fun a _ => hf a _ (by simp [hpast, hc a])⟩

/-- The query for a row. -/
theorem refusable_select {id : Bytes} {e : Failure} {f : Order → Program α} (he : e ≠ modified)
    (hf : ∀ row, Refusable (f row)) :
    Refusable (exec (.selectOrder id) >>= fun current => orFail current dbError >>= fun current =>
      orFail current e >>= f) :=
  refusable_exec (fun _ => rfl) fun _ => refusable_orFail (by decide) fun _ _ =>
    refusable_orFail he fun row _ => hf row

/-- The conditional write that ends a handler. -/
theorem refusable_write {u : UpdateOrders} {resp : α} :
    Refusable (exec (.updateOrders u) >>= fun affected => orFail affected dbError >>= fun affected =>
      ensure (affected ≠ 0) modified >>= fun _ => pure resp) := by
  refine fun past hpast => spec_call_bind.mpr ⟨trivial, fun affected _ => ?_⟩
  cases affected with
  | none => simp [FailsAsRefused, hpast, refused, orFail, dbError, internal, modified, conflict]
  | some n =>
    cases n with
    | zero => simp [FailsAsRefused, hpast, refused, modified]
    | succ n => simp [FailsAsRefused, hpast, refused]

theorem Refusable.map {x : Program α} (h : Refusable x) (f : α → β) :
    Refusable (x >>= fun a => pure (f a)) := fun past hpast =>
  spec_seq (h past hpast)
    (fun past' a hr => by simpa [FailsAsRefused] using hr) fun past' e hr => by
      simpa [FailsAsRefused] using hr

end Programs

/-! ## The handlers -/

theorem createOrder_refusable (st : AppState) (req : CreateOrderRequest) :
    Refusable (createOrder st req) :=
  refusable_orFail (by decide) fun _ _ => refusable_ensure (by decide) <| refusable_ensure (by decide) <|
    refusable_exec (fun _ => rfl) fun _ => refusable_ensure (by decide) <|
    refusable_exec (fun _ => rfl) fun _ => refusable_exec (fun _ => rfl) fun _ =>
    refusable_exec (fun _ => rfl) fun _ => refusable_orFail (by decide) fun _ _ => refusable_pure

theorem updateOrder_refusable (st : AppState) (auth : Authed) (id : String) (req : UpdateOrderRequest) :
    Refusable (updateOrder st auth id req) :=
  refusable_orFail (by decide) fun _ _ => refusable_orFail (by decide) fun _ _ =>
    refusable_ensure (by decide) <| refusable_ensure (by decide) <|
    refusable_exec (fun _ => rfl) fun _ => refusable_ensure (by decide) <|
    refusable_select (by decide) fun _ => refusable_orFail (by decide) fun _ _ =>
    refusable_orFail (by decide) fun _ _ => refusable_ensure (by decide) <|
    refusable_ensure (by decide) refusable_write

theorem getOrder_refusable (id : String) : Refusable (getOrder id) :=
  refusable_orFail (by decide) fun _ _ => refusable_select (by decide) fun _ => refusable_pure

theorem openDispute_refusable (req : OpenDisputeRequest) : Refusable (openDispute req) :=
  refusable_orFail (by decide) fun _ _ => refusable_orFail (by decide) fun _ _ =>
    refusable_ensure (by decide) <| refusable_exec (fun _ => rfl) fun _ =>
    refusable_ensure (by decide) <| refusable_exec (fun _ => rfl) fun _ =>
    refusable_select (by decide) fun _ => refusable_write

theorem getDispute_refusable (id : String) : Refusable (getDispute id) :=
  refusable_orFail (by decide) fun _ _ => refusable_select (by decide) fun _ =>
    refusable_ensure (by decide) refusable_pure

theorem updateDispute_refusable (id : String) (req : UpdateDisputeRequest) :
    Refusable (updateDispute id req) :=
  refusable_orFail (by decide) fun _ _ => refusable_orFail (by decide) fun _ _ =>
    refusable_ensure (by decide) <| refusable_exec (fun _ => rfl) fun _ =>
    refusable_ensure (by decide) <| refusable_select (by decide) fun _ => refusable_write

/-- The check of an admin token makes no conditional write. -/
theorem refusable_token {α : Type} {P : Primitives} {kp : AdminKeypair} {domain actionId : String}
    {t : AdminToken} {f : TokenFields → Program α} (hf : ∀ t, Refusable (f t)) :
    Refusable (decodeToken t >>= fun t => checkToken P kp domain actionId t >>= fun _ => f t) := by
  simp only [decodeToken, checkToken, bind_bind]
  exact refusable_orFail (by decide) fun _ _ => refusable_orFail (by decide) fun _ _ =>
    refusable_orFail (by decide) fun _ _ => refusable_orFail (by decide) fun _ _ =>
    refusable_orFail (by decide) fun _ _ => refusable_ensure (by decide) <|
    refusable_ensure (by decide) <| refusable_ensure (by decide) <|
    refusable_exec (fun _ => rfl) fun _ => refusable_ensure (by decide) (hf _)

theorem resolveDispute_refusable (st : AppState) (id : String) (req : ResolveDisputeRequest) :
    Refusable (resolveDispute st id req) :=
  refusable_orFail (by decide) fun _ _ => refusable_token fun _ => refusable_exec (fun _ => rfl) fun _ =>
    refusable_ensure (by decide) <| refusable_orFail (by decide) fun _ _ =>
    refusable_orFail (by decide) fun _ _ => refusable_ensure (by decide) <|
    refusable_select (by decide) fun _ => refusable_write

theorem getChat_refusable (orderId : String) : Refusable (getChat orderId) :=
  refusable_orFail (by decide) fun _ _ => refusable_exec (fun _ => rfl) fun _ =>
    refusable_orFail (by decide) fun row _ => by
      cases row with
      | none => exact refusable_pure
      | some row =>
        exact refusable_exec (fun _ => rfl) fun _ => refusable_orFail (by decide) fun _ _ => refusable_pure

theorem updateChat_refusable (orderId : String) (req : SendMessageRequest) :
    Refusable (updateChat orderId req) :=
  refusable_orFail (by decide) fun _ _ => refusable_orFail (by decide) fun _ _ =>
    refusable_ensure (by decide) <| refusable_select (by decide) fun _ =>
    refusable_exec (fun _ => rfl) fun _ => refusable_ensure (by decide) refusable_write

theorem blindSign_refusable (st : AppState) (req : BlindSignRequest) : Refusable (blindSign st req) :=
  refusable_orFail (by decide) fun _ _ => refusable_orFail (by decide) fun _ _ =>
    refusable_ensure (by decide) refusable_pure

theorem getAdminPubkey_refusable (st : AppState) : Refusable (getAdminPubkey st) :=
  refusable_orFail (by decide) fun _ _ => refusable_pure

theorem rotateKek_refusable (st : AppState) (req : RotateKekRequest) : Refusable (rotateKek st req) :=
  refusable_orFail (by decide) fun _ _ => refusable_token fun _ => refusable_exec (fun _ => rfl) fun _ =>
    refusable_exec (fun _ => rfl) fun _ => refusable_orFail (by decide) fun _ _ => refusable_pure

theorem challenge_refusable (req : ChallengeRequest) : Refusable (challenge req) := by
  simp only [challenge, cleanupChallenges, bind_bind]
  exact refusable_orFail (by decide) fun _ _ => refusable_ensure (by decide) <|
    refusable_exec (fun _ => rfl) fun _ => refusable_exec (fun _ => rfl) fun _ =>
    refusable_exec (fun _ => rfl) fun _ => refusable_exec (fun _ => rfl) fun _ =>
    refusable_exec (fun _ => rfl) fun _ => refusable_exec (fun _ => rfl) fun _ => refusable_pure

theorem verify_refusable (st : AppState) (req : VerifyRequest) : Refusable (verify st req) := by
  simp only [verify, cleanupChallenges, bind_bind]
  exact refusable_orFail (by decide) fun _ _ => refusable_ensure (by decide) <|
    refusable_orFail (by decide) fun _ _ => refusable_exec (fun _ => rfl) fun _ =>
    refusable_exec (fun _ => rfl) fun _ => refusable_exec (fun _ => rfl) fun _ =>
    refusable_orFail (by decide) fun _ _ => refusable_ensure (by decide) <|
    refusable_ensure (by decide) <| refusable_ensure (by decide) refusable_pure

theorem handle_refusable (st : AppState) (auth : Option Authed) (target : Route) (body : Body) :
    Refusable (handle st auth target body) := by
  have hrejected : Failure.rejected ≠ modified := by decide
  unfold handle
  split
  · exact refusable_orFail hrejected fun _ _ => (createOrder_refusable st _).map _
  · exact refusable_orFail hrejected fun _ _ => (getOrder_refusable _).map _
  · exact refusable_orFail hrejected fun auth _ => (updateOrder_refusable st auth _ _).map _
  · exact refusable_orFail hrejected fun _ _ => (openDispute_refusable _).map _
  · exact refusable_orFail hrejected fun _ _ => (getDispute_refusable _).map _
  · exact refusable_orFail hrejected fun _ _ => (updateDispute_refusable _ _).map _
  · exact (resolveDispute_refusable st _ _).map _
  · exact refusable_orFail hrejected fun _ _ => (getChat_refusable _).map _
  · exact refusable_orFail hrejected fun _ _ => (updateChat_refusable _ _).map _
  · exact (blindSign_refusable st _).map _
  · exact (getAdminPubkey_refusable st).map _
  · exact (rotateKek_refusable st _).map _
  · exact (challenge_refusable _).map _
  · exact (verify_refusable st _).map _
  · exact refusable_fail hrejected

theorem handleRequest_refusable (st : AppState) (r : Request) : Refusable (handleRequest st r) := by
  have hrejected : Failure.rejected ≠ modified := by decide
  have hrest : ∀ auth, Refusable (ask .layersAdmit >>= fun admitted => ensure admitted .rejected >>=
      fun _ => orFail (route r.method r.path) .rejected >>= fun target => handle st auth target r.body) :=
    fun auth => refusable_exec (fun _ => rfl) fun _ => refusable_ensure hrejected <|
      refusable_orFail hrejected fun target _ => handle_refusable st auth target r.body
  unfold handleRequest statelessAuthMiddleware
  split
  · exact hrest none
  · simp only [bind_bind]
    exact refusable_orFail (by decide) fun _ _ => refusable_orFail (by decide) fun _ _ =>
      refusable_orFail (by decide) fun _ _ => refusable_orFail (by decide) fun _ _ =>
      refusable_orFail (by decide) fun _ _ => refusable_orFail (by decide) fun _ _ =>
      refusable_ensure (by decide) <| refusable_orFail (by decide) fun _ _ =>
      refusable_orFail (by decide) fun _ _ => refusable_orFail (by decide) fun _ _ =>
      refusable_orFail (by decide) fun _ _ => refusable_exec (fun _ => rfl) fun _ =>
      refusable_ensure (by decide) <| refusable_ensure (by decide) <| refusable_ensure (by decide) <|
      refusable_exec (fun _ => rfl) fun _ => refusable_ensure (by decide) (hrest _)

/-! ## Runs -/

/-- A process that has won: it is a pass of the worker, or a request that has not failed. -/
def HasWon (g : System) (pid : Nat) : Prop :=
  ∀ p r e, g.procs[pid]? = some p → p.job = .request r → p.prog.result ≠ some (.error e)

/-- Between a read of a row by the process and its write, another process has replaced the row, and has
won. -/
def LostRace (g : System) (pid : Nat) : Prop :=
  ∃ l read between write l' row u affected, g.history = l ++ read :: (between ++ write :: l') ∧
    read.pid = pid ∧ Reads read.reply row ∧
    write.pid = pid ∧ write.reply = ⟨.updateOrders u, some affected⟩ ∧ u.GuardedBy row ∧
    ∃ winner ∈ between, winner.pid ≠ pid ∧ updatesRow row.id winner.reply = true ∧ HasWon g winner.pid

section Reaches

variable {D : Deployment} {allow : System → Job → Prop} {orders : OrdersTable} {g : System}

/-- A request that has updated a row does not fail. -/
theorem Deployment.Reaches.hasWon (h : D.Reaches allow orders g) {ev : Effect} (hev : ev ∈ g.history)
    {id : Bytes} (hupd : updatesRow id ev.reply = true) : HasWon g ev.pid := by
  intro p r e hp hjob hr
  obtain ⟨u, hu, _⟩ := updatesRow_iff.mp hupd
  obtain ⟨n, hn, hreply⟩ := effectiveUpdate_eq_some.mp hu
  obtain ⟨p', hp', hjob'⟩ := Reachable.event_job h ev hev
  obtain rfl := Option.some.inj (hp.symm.trans hp')
  have hcall := h.statement hev
  rw [← hjob', hjob, hreply] at hcall
  obtain ⟨target, hroute, row, blob, _, _, _, hupdate⟩ := hcall
  have hwrites : target.writes = true := by
    cases target <;> first | rfl | exact absurd hupdate (by simp [Route.update])
  have hchanged := h.post_request (handleRequest_changedOnly D.api) (List.mem_of_getElem? hp) hjob hr
    target hroute hwrites
  have hmem : ev.reply ∈ changesIn changes p.past := by
    refine List.mem_filter.mpr ⟨?_, ?_⟩
    · rw [Reachable.past_eq h hp]
      exact List.mem_map_of_mem (List.mem_filter.mpr ⟨hev, by simp⟩)
    · rw [hreply]
      simpa [changes] using hn
  rcases hchanged with hnone | ⟨set, key, _, hone⟩
  · exact absurd (hnone ▸ hmem) List.not_mem_nil
  · rw [hone, List.mem_singleton, hreply] at hmem
    exact absurd hmem (by simp [recorded])

/-- The row that a conditional write names has been read before it, and was replaced in between exactly
when the write is refused. -/
theorem Deployment.Reaches.write_refused_iff (h : D.Reaches allow orders g) {l₁ between l' : List Effect}
    {read write : Effect} (hl : g.history = l₁ ++ read :: (between ++ write :: l')) {row : Order}
    (hread : Reads read.reply row) {u : UpdateOrders} {affected : Nat}
    (hreply : write.reply = ⟨.updateOrders u, some affected⟩) (hg : u.GuardedBy row) :
    affected = 0 ↔ ∃ winner ∈ between, updatesRow row.id winner.reply = true := by
  have hl' : g.history = (l₁ ++ read :: between) ++ write :: l' := by simp [hl]
  obtain ⟨g₀, hg₀, hhist, hs₀, _⟩ := Reachable.upTo h hl'
  have hreadMem : read ∈ g.history := by simp [hl]
  have hwriteMem : write ∈ g.history := by simp [hl]
  obtain ⟨_, _, hreadAns⟩ := h.event hreadMem
  obtain ⟨_, _, hwriteAns⟩ := h.event hwriteMem
  have hfind : read.after.orders.find row.id = some row := by
    obtain ⟨hsame, hfind, _⟩ := answer_reads hreadAns hread
    rw [hsame]
    exact hfind
  have hcount : affected = write.before.orders.rowsAffected u := by
    rw [hreply] at hwriteAns
    rcases answer_updateOrders hwriteAns with ⟨hnone, _⟩ | ⟨hsome, _⟩
    · exact absurd hnone (by simp)
    · exact Option.some.inj hsome
  subst hcount
  constructor
  · intro hzero
    by_contra hno
    have huntouched : ∀ e ∈ between, updatesRow row.id e.reply = false := fun e he =>
      Bool.eq_false_iff.mpr fun hupd => hno ⟨e, he, hupd⟩
    have hstill := Deployment.Reaches.untouched hg₀ hhist hfind huntouched
    rw [hs₀] at hstill
    refine OrdersTable.rowsAffected_ne_zero.mpr ⟨row, hg.2.1 ▸ hstill, ?_⟩ hzero
    exact (hg.matches_iff row).mpr ⟨rfl, rfl⟩
  · intro hwinner
    obtain ⟨o, ho, hlt⟩ := Deployment.Reaches.overtaken hg₀ hhist hfind hwinner
    rw [hs₀] at ho
    by_contra hne
    obtain ⟨o', ho', hm⟩ := OrdersTable.rowsAffected_ne_zero.mp hne
    rw [hg.2.1, ho] at ho'
    obtain rfl := Option.some.inj ho'
    have hversion := ((hg.matches_iff o).mp hm).2
    omega

end Reaches

namespace RaceSample

open Sample

def loser : Request := secondChat.post (.sendMessage ⟨"BAUG", "", "n2"⟩)

/-- The second process has served `loser`, and refused it. -/
def loses (g : System) : Bool :=
  g.procs[1]?.any fun p => p.job = .request loser && p.prog.result = some (.error modified)

theorem loses_iff {g : System} (h : loses g = true) :
    ∃ p, g.procs[1]? = some p ∧ p.job = .request loser ∧ p.prog.result = some (.error modified) := by
  obtain ⟨p, hp, htest⟩ := (Option.any_eq_true _ _).mp h
  simp only [Bool.and_eq_true, decide_eq_true_eq] at htest
  exact ⟨p, hp, htest⟩

def lostTrace : (deployment (loginTables [firstChat, secondChat]) none).Trace anyJob (orders []) loses where
  labels := race
  allowed _ _ _ := trivial
  passes := by decide +kernel

end RaceSample

end TorMarketplace
