import Mathlib.Data.List.Count
import TorMarketplace.Proof.Runs

/-!
# Conditional writes

Ten writers in two processes read a row, compute, and update the row if its version is still the one
read. In every run the version of a row counts the updates that took effect (`counted`), no version
of a row is replaced twice (`replaced_once`), and nobody wrote between a read and the update made
from it (`version_counts_updates`).
-/

namespace TorMarketplace

open Encoding Interleave Versioned

/-- The update replaced version `v` of the row `id`. -/
def Replaces (r : Reply Server) (id : Bytes) (v : Int) : Prop :=
  ∃ u, effectiveUpdate r = some u ∧ u.whereId = id ∧ u.whereVersion = some v

/-- The reply reports an update of the row `id` that took effect. -/
def updatesRow (id : Bytes) (r : Reply Server) : Bool :=
  (effectiveUpdate r).any fun u => u.whereId = id

/-- The number of updates of the row `id` that took effect. -/
def updateCount (l : List Effect) (id : Bytes) : Nat := l.countP fun ev => updatesRow id ev.reply

theorem updatesRow_iff {id : Bytes} {r : Reply Server} : updatesRow id r = true ↔ Hits r id := by
  simp [updatesRow, Hits, Option.any_eq_true]

theorem updateCount_snoc (l : List Effect) (ev : Effect) (id : Bytes) :
    updateCount (l ++ [ev]) id = updateCount l id + if updatesRow id ev.reply then 1 else 0 := by
  simp [updateCount, List.countP_append, List.countP_cons]

/-- An update that takes effect replaces a version that was not replaced before. -/
theorem CallSpec.passes {D : Deployment} {j : Job} {past : Past} {c : Call} {e : Choice}
    {s s' : Shared} {a : c.Ans} (h : CallSpec D j past c)
    (ha : server.answer c e s = some (a, s')) {id : Bytes} {v : Int} (hr : Replaces ⟨c, a⟩ id v) :
    ¬ Passed Order.version s.orders.find id v ∧ Passed Order.version s'.orders.find id v := by
  obtain ⟨u, hu, rfl, hv⟩ := hr
  have hstep := h.step ha
  obtain ⟨n, hn, heq⟩ := effectiveUpdate_eq_some.mp hu
  cases heq
  rcases answer_updateOrders ha with ⟨hnone, _⟩ | ⟨hsome, _⟩
  · exact absurd hnone (by simp)
  obtain rfl := Option.some.inj hsome
  obtain ⟨o, ho, hm⟩ := OrdersTable.rowsAffected_ne_zero.mp hn
  obtain ⟨_, hov⟩ : o.id = u.whereId ∧ o.version = v := by
    simpa [UpdateOrders.matchesRow, hv] using hm
  refine ⟨?_, hov ▸ hstep.passed_of_hit ⟨u, hu, rfl⟩ ho⟩
  rintro ⟨o', ho', hlt⟩
  obtain rfl := Option.some.inj (ho.symm.trans ho')
  omega

section Reaches

variable {D : Deployment} {allow : System → Job → Prop} {orders : OrdersTable} {g : System}

/-- **The version of a row counts its updates.** -/
theorem Deployment.Reaches.counted (hinit : ∀ o ∈ orders.rows, o.version = 1)
    (h : D.Reaches allow orders g) :
    Counted Order.version g.shared.orders.find (updateCount g.history) := by
  refine Reachable.shared_inv (R := fun s l => Counted Order.version s.orders.find (updateCount l))
    (fun id => ⟨fun _ => rfl, fun o ho => hinit o (OrdersTable.find_some ho).1⟩) ?_ h
  intro g pid j past c e a s hg ⟨k, hp⟩ ha hcount
  have hc : CallSpec D j past c := (hg.spec (fun _ j _ => program_spec D j) _ hp).1
  refine (hc.step ha).counted hcount (fun id hid => ?_) fun id hid => ?_
  · rw [updateCount_snoc, if_pos (updatesRow_iff.mpr hid)]
  · rw [updateCount_snoc, if_neg (mt updatesRow_iff.mp hid), Nat.add_zero]

/-- **A version is replaced once.** -/
theorem Deployment.Reaches.replaced_once (h : D.Reaches allow orders g) (id : Bytes) (v : Int) :
    g.history.Pairwise fun ev ev' => ¬ (Replaces ev.reply id v ∧ Replaces ev'.reply id v) :=
  Reachable.hit_unique (fun _ j _ => program_spec D j)
    (fun r => Replaces r id v) (fun s => Passed Order.version s.orders.find id v)
    (fun hc ha hr => hc.passes ha hr) (fun hc ha hp => (hc.step ha).passed hp) h

/-- A row that no call updates stays as it is. -/
theorem Deployment.Reaches.untouched (h : D.Reaches allow orders g) {l l' : List Effect}
    {ev : Effect} (hl : g.history = l ++ ev :: l') {id : Bytes} {o : Order}
    (ho : ev.after.orders.find id = some o) (hno : ∀ e ∈ l', updatesRow id e.reply = false) :
    g.shared.orders.find id = some o := by
  refine Reachable.since (K := fun s => s.orders.find id = some o) h hl ho fun e he hfind => ?_
  have hmem : e ∈ g.history := by simp [hl, he]
  obtain ⟨hcall, _, ha⟩ := h.event hmem
  rcases (hcall.step ha).some_cases hfind with ⟨hhit, _⟩ | ⟨_, hsame⟩
  · exact absurd (updatesRow_iff.mpr hhit) (by simp [hno e he])
  · exact hsame

/-- A row that a call updates is never again in the version before. -/
theorem Deployment.Reaches.overtaken (h : D.Reaches allow orders g) {l l' : List Effect}
    {ev : Effect} (hl : g.history = l ++ ev :: l') {id : Bytes} {o : Order}
    (ho : ev.after.orders.find id = some o) (hupd : ∃ e ∈ l', updatesRow id e.reply = true) :
    Passed Order.version g.shared.orders.find id o.version := by
  have hstep : ∀ e ∈ l', Step Order.version (Hits e.reply) e.before.orders.find
      e.after.orders.find := by
    intro e he
    have hmem : e ∈ g.history := by simp [hl, he]
    obtain ⟨hcall, _, ha⟩ := h.event hmem
    exact hcall.step ha
  have hkept := Reachable.since_inv (K := fun l₁ s => Known Order.version s.orders.find id o ∧
      ((∃ e ∈ l₁, updatesRow id e.reply = true) → Passed Order.version s.orders.find id o.version))
    h hl ⟨Known.of_some ho, by simp⟩ ?_
  · exact hkept.2 hupd
  · rintro l₁ e l₂ rfl ⟨hknown, hpassed⟩
    have he := hstep e (by simp)
    refine ⟨he.known hknown, ?_⟩
    rintro ⟨e', he', hupd'⟩
    rcases List.mem_append.mp he' with he' | he'
    · exact he.passed (hpassed ⟨e', he', hupd'⟩)
    · obtain rfl := List.mem_singleton.mp he'
      obtain ⟨r, hr, hcase⟩ := hknown
      obtain ⟨r', hr', hlt⟩ := he.passed_of_hit (updatesRow_iff.mp hupd') hr
      refine ⟨r', hr', ?_⟩
      rcases hcase with rfl | hle <;> omega

/-- Between the read and the update made from it, the row was not updated. -/
theorem Deployment.Reaches.undisturbed (h : D.Reaches allow orders g) {l l' : List Effect}
    {ev : Effect} (hl : g.history = l ++ ev :: l') {o : Order} (hsaw : Saw ev.past o)
    (hfind : ev.before.orders.find o.id = some o) :
    ∃ l₁ read l₂, l = l₁ ++ read :: l₂ ∧ read.pid = ev.pid ∧ Reads read.reply o ∧
      ∀ ev' ∈ l₂, updatesRow o.id ev'.reply = false := by
  obtain ⟨g₀, hg₀, rfl, hs₀, k, hp⟩ := Reachable.upTo h hl
  obtain ⟨r, hr, hreads⟩ := hsaw
  obtain ⟨read, hread, hpid, rfl⟩ := hg₀.event_of_past hp hr
  obtain ⟨l₁, l₂, hl₁⟩ := List.append_of_mem hread
  refine ⟨l₁, read, l₂, hl₁, hpid, hreads, fun ev' hev' => ?_⟩
  obtain ⟨_, ha⟩ := (Deployment.Reaches.event hg₀ hread).2
  obtain ⟨hsame, hfind₁, _⟩ := answer_reads ha hreads
  -- an update in between would have passed the version that is still there
  by_contra hupd
  obtain ⟨r, hr, hlt⟩ := Deployment.Reaches.overtaken hg₀ hl₁ (hsame ▸ hfind₁)
    ⟨ev', hev', by simpa using hupd⟩
  rw [hs₀, hfind] at hr
  obtain rfl := Option.some.inj hr
  omega

/-- **No update is lost.** If all rows start at version 1, then in every run of all handlers and all
passes of the worker:
* the version of a row is one plus the number of its updates that took effect;
* an update that takes effect replaces the very row that its process had read, and no update of that
  row took effect in between;
* no two updates of a row that take effect replace the same version. -/
theorem version_counts_updates (hinit : ∀ o ∈ orders.rows, o.version = 1)
    (h : D.Reaches anyJob orders g) :
    (∀ id o, g.shared.orders.find id = some o → o.version = 1 + updateCount g.history id) ∧
    (∀ l ev l' u, g.history = l ++ ev :: l' → effectiveUpdate ev.reply = some u →
      ∃ o, u.GuardedBy o ∧ ev.before.orders.find u.whereId = some o ∧
        ev.after.orders.find u.whereId = some (u.set o) ∧
        ∃ l₁ read l₂, l = l₁ ++ read :: l₂ ∧ read.pid = ev.pid ∧ Reads read.reply o ∧
          ∀ ev' ∈ l₂, updatesRow u.whereId ev'.reply = false) ∧
    g.history.Pairwise fun ev ev' => ∀ u u', effectiveUpdate ev.reply = some u →
      effectiveUpdate ev'.reply = some u' → u.whereId = u'.whereId →
      u.whereVersion ≠ u'.whereVersion := by
  refine ⟨fun id o ho => (h.counted hinit id).2 o ho, fun l ev l' u hl hu => ?_, ?_⟩
  · have hev : ev ∈ g.history := by simp [hl]
    obtain ⟨o, hsaw, hg⟩ := h.guarded hev hu
    obtain ⟨hbefore, hafter⟩ := h.replaces hev hu hsaw hg
    have hun := h.undisturbed hl hsaw (hg.2.1 ▸ hbefore)
    exact ⟨o, hg, hbefore, hafter, hg.2.1 ▸ hun⟩
  · refine List.pairwise_iff_getElem.mpr fun i j hi hj hij u u' hu hu' hid hver => ?_
    obtain ⟨o, _, hg⟩ := h.guarded (List.getElem_mem hi) hu
    exact List.pairwise_iff_getElem.mp (h.replaced_once u.whereId o.version) i j hi hj hij
      ⟨⟨u, hu, rfl, hg.2.2⟩, u', hu', hid.symm, hver ▸ hg.2.2⟩

end Reaches

/-! ## A sample deployment

One order, and a client that is logged in. The values of the primitives are real ones. -/

namespace Sample

def hex (s : String) : Bytes := (hexDecode s).getD []

/-- What authenticates one request of the client. -/
structure Login where
  path : String
  nonce : String
  hmac : String
  signature : String

def serverSecret : String := "server-secret"

def pubkeyHex : String := "d04ab232742bb4ab3a1368bd4615e4e6d0224ab71a016baf8520a332c9778737"

def pubkey : Bytes := hex pubkeyHex

def authKey : Bytes := hex "6127b6b85e081c4e053bf8b0b2d3a874b599f0f77a73feaaeebaefccf91789fc"

/-- The server's clock, in the hour 472222. -/
def time : Int64 := 1700000000

def hourBucket : UInt64 := 472222

/-- The values that the logins need. -/
def loginTables (logins : List Login) : Primitives.Tables where
  hmacSha256 :=
    ((utf8 serverSecret, utf8 "auth_key_derivation_v1" ++ pubkey), authKey) ::
      logins.map fun l =>
        ((authKey, pubkey ++ leBytes hourBucket ++ utf8 l.path ++ hex l.nonce), hex l.hmac)
  blake3 := [(pubkey, hex "4a78877c4a0926fc5d5cb282bb45c11c8489b202fe1890fa0c6593e6192b9f75")]
  verifyingKeys := [pubkey]
  signatures := logins.map fun l =>
    (pubkey, buildChallenge (hex l.hmac) pubkey hourBucket (hex l.nonce), hex l.signature)

def deployment (t : Primitives.Tables) (adminKeypair : Option AdminKeypair) : Deployment where
  prim := .ofTables t
  serverSecret
  defaultLockDays := 14
  network := "regtest"
  feeAddressBtc := none
  adminKeypair
  workerKey := List.replicate 32 7

def Login.post (l : Login) (body : Body) : Request where
  method := .post
  path := l.path
  headers :=
    { pubkey := some pubkeyHex, hmac := some l.hmac, hour := some "472222", nonce := some l.nonce,
      signature := some l.signature }
  body

def orderId : String := "000102030405060708090a0b0c0d0e0f"

/-- The table with the one order `orderId`. -/
def orders (encryptedOrderBlob : Bytes) : OrdersTable where
  rows :=
    [{ id := hex orderId
       encryptedOrderBlob
       dayBucket := 0
       expiryBucket := none
       version := 1
       hasDispute := 0
       clientEncryptedBlob := none
       disputeClientBlob := none
       chatEncryptedBlob := none }]
  nodup := by simp

/-- The next `n` calls of process `pid`. -/
def acts (pid n : Nat) : List (Label Job Choice) := List.replicate n (.act pid { time })

def firstChat : Login where
  path := "/chat/" ++ orderId
  nonce := "01"
  hmac := "e79c4047a5965e6412588338c13dff78ed87348626aca73694b3062a2e3d42af"
  signature :=
    "c5669ba97010005d3a38ab4613b809aeb024cca653622449cb8dbb75efeaeed3" ++
    "cfbdff5a661125946fbda65056cc7804f8f8228911cabac2ce7c775ca1e17e00"

def secondChat : Login where
  path := "/chat/" ++ orderId
  nonce := "02"
  hmac := "d381898293d17255462ff62bf13a9470f1f060c01adb6ccc912ce43245ccc722"
  signature :=
    "34f124419bab2f7e5e0b13e6cacfa6e22ef534793e71ec1b86f625c7bfc30c21" ++
    "7e2e158192da136b7e9102d06083c29f15bbdf540b37b77c8c60f71e26c0ff05"

/-- Both requests read the row, then both update it. -/
def race : List (Label Job Choice) :=
  .spawn (.request (firstChat.post (.sendMessage ⟨"AQID", "", "n1"⟩))) ::
    .spawn (.request (secondChat.post (.sendMessage ⟨"BAUG", "", "n2"⟩))) ::
    (acts 0 4 ++ acts 1 4 ++ acts 0 2 ++ acts 1 2)

def raceTrace : (deployment (loginTables [firstChat, secondChat]) none).Trace anyJob (orders [])
    fun g => (g.procs.map fun p => p.prog.result.map Except.isOk) = [some true, some false] &&
      updateCount g.history (hex orderId) = 1 where
  labels := race
  allowed _ _ _ := trivial
  passes := by decide +kernel

end Sample

open Sample in
/-- Of two chat messages that are written from the same version, one is refused. -/
theorem version_counts_updates_race :
    ∃ g, (deployment (loginTables [firstChat, secondChat]) none).Reaches anyJob (orders []) g ∧
      (g.procs.map fun p => p.prog.result.map Except.isOk) = [some true, some false] ∧
      updateCount g.history (hex orderId) = 1 ∧
      ∀ id o, g.shared.orders.find id = some o → o.version = 1 + updateCount g.history id := by
  obtain ⟨g, hg, hcheck⟩ := raceTrace.reaches
  simp only [Bool.and_eq_true, decide_eq_true_eq] at hcheck
  exact ⟨g, hg, hcheck.1, hcheck.2, (version_counts_updates (by simp [orders]) hg).1⟩

end TorMarketplace
