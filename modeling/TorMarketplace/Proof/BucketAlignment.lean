import TorMarketplace.Proof.DummyOrders
import TorMarketplace.Proof.ListingCalls
import TorMarketplace.Proof.OrderExpiry
import TorMarketplace.Proof.WorkerState

/-!
# The buckets of the rows

`day_bucket` and `expiry_bucket` are not encrypted, and every writer rounds what it stores there to six
hours, except for the dummy worker: it stores the expiry that it has drawn. So the buckets of all rows
are rounded as long as the lifetimes drawn are whole buckets (`buckets_aligned`), and one other
lifetime shows which row is a dummy.
-/

namespace TorMarketplace

open Encoding Interleave Prog

/-- A time that is a multiple of six hours. -/
def BucketAligned (ts : Int64) : Prop := (21600 : Int) ∣ ts.toInt

instance (ts : Int64) : Decidable (BucketAligned ts) := inferInstanceAs (Decidable (_ ∣ _))

theorem bucketAligned_floor (ts : Int64) : BucketAligned (floorTimestamp6h ts) := floorTimestamp6h_dvd ts

/-- The two buckets of an order. -/
def Order.BucketsAligned (o : Order) : Prop :=
  BucketAligned o.dayBucket ∧ ∀ ts, o.expiryBucket = some ts → BucketAligned ts

def OrdersTable.BucketsAligned (t : OrdersTable) : Prop := ∀ o ∈ t.rows, o.BucketsAligned

/-! ## The lifetime of a dummy order -/

section Lifetime

open Draws DummyWorker

/-- The draw of a dummy order's lifetime: a day, to three weeks. -/
def lifetimeDraw : Draw := .range 86400 (21 * 86400)

/-- An order that the dummy worker can draw at `now`, with a lifetime of whole buckets. -/
def WholeLifetime (now : Int64) (order : Bytes × OrderData) : Prop :=
  ∃ past, Yields Drawn [] (dummyOrder now) past (.ok order) ∧
    ∀ lifetime : Int, ⟨lifetimeDraw, lifetime⟩ ∈ past → 21600 ∣ lifetime

/-- What is drawn between two steps that matter. -/
theorem drawn_seq {α β : Type} {S : List (Reply Drawing) → β → Prop} {past : List (Reply Drawing)}
    {x : Gen α} {f : α → Gen β}
    (hf : ∀ past' a, past ⊆ past' → Spec Drawn (fun _ _ => True) (OnOk S) past' (f a)) :
    Spec Drawn (fun _ _ => True) (OnOk S) past (x >>= f) :=
  spec_seq_onOk spec_trivial fun past' a hsub _ => hf past' a hsub

theorem checked_value {n : Int} {past : List (Reply Drawing)} :
    Spec Drawn (fun _ _ => True) (OnOk fun _ t => t.toInt = n) past (checked n) := by
  unfold checked
  split
  case isTrue h => exact toInt_ofInt h
  case isFalse => trivial

theorem floored_aligned {ts : Int64} {past : List (Reply Drawing)} :
    Spec Drawn (fun _ _ => True) (OnOk fun _ t => BucketAligned t) past (floored ts) := by
  unfold floored
  refine drawn_seq fun past' q _ => ?_
  refine spec_mono (fun _ _ h => h) (fun past'' r hr => ?_) (show Spec Drawn _ _ past' _ from checked_value)
  cases r with
  | ok t => exact ⟨q.toInt, by rw [show t.toInt = q.toInt * 21600 from hr, Int.mul_comm]⟩
  | error _ => trivial

theorem genRange_drawn {lo hi : Int} {past : List (Reply Drawing)} :
    Spec Drawn (fun _ _ => True) (OnOk fun past' n => ⟨.range lo hi, n⟩ ∈ past') past
      (genRange lo hi) := by
  unfold genRange
  split
  · exact ⟨trivial, fun n _ => List.mem_append_right _ List.mem_cons_self⟩
  · trivial

/-- **The expiry of a dummy order is rounded exactly if the lifetime drawn is**: the creation is. -/
theorem dummyOrder_expiry (now : Int64) :
    Spec Drawn (fun _ _ => True) (OnOk fun past order => ∃ (lifetime : Int) (expiresAt : Int64),
        ⟨lifetimeDraw, lifetime⟩ ∈ past ∧ order.2.expiresAt = some expiresAt ∧
          (BucketAligned expiresAt ↔ 21600 ∣ lifetime)) [] (dummyOrder now) := by
  unfold dummyOrder
  refine drawn_seq fun _ orderId _ => drawn_seq fun _ listingId _ => drawn_seq fun _ monero _ => ?_
  refine drawn_seq fun _ ageHours _ => drawn_seq fun _ age _ => drawn_seq fun _ created _ => ?_
  refine spec_seq_onOk floored_aligned fun _ createdAt _ hcreated => ?_
  refine drawn_seq fun _ st _ => drawn_seq fun _ buyerHash _ => drawn_seq fun _ sellerHash _ => ?_
  refine drawn_seq fun _ chat _ => drawn_seq fun _ dispute _ => drawn_seq fun _ feePercent _ => ?_
  refine drawn_seq fun _ ownerPubkey _ => drawn_seq fun _ feeAddress _ => drawn_seq fun _ addr _ => ?_
  refine drawn_seq fun _ amount _ => drawn_seq fun _ buyer _ => drawn_seq fun _ seller _ => ?_
  refine drawn_seq fun _ timeLock _ => ?_
  refine spec_seq_onOk genRange_drawn fun past₁ lifetime _ hlifetime => ?_
  refine spec_seq_onOk checked_value fun past₂ expiresAt hsub₂ hexpires => ?_
  refine drawn_seq fun past₃ txid hsub₃ => ?_
  refine ⟨lifetime, expiresAt, hsub₃ (hsub₂ hlifetime), rfl, ?_⟩
  unfold BucketAligned at hcreated ⊢
  omega

theorem WholeLifetime.aligned {now : Int64} {order : Bytes × OrderData} (h : WholeLifetime now order)
    {ts : Int64} (hts : order.2.expiresAt = some ts) : BucketAligned ts := by
  obtain ⟨past, hyields, hwhole⟩ := h
  obtain ⟨lifetime, expiresAt, hdraw, hexpires, haligned⟩ := (dummyOrder_expiry now).yields hyields
  obtain rfl := Option.some.inj (hexpires.symm.trans hts)
  exact haligned.mpr (hwhole lifetime hdraw)

end Lifetime

/-! ## The orders -/

/-- What the calls of a job store is rounded, but for an expiry that the dummy worker has drawn. -/
def BucketCall (past : Past) : Call → Prop
  | .insertOrder i => BucketAligned i.dayBucket ∧ ∀ ts, i.expiryBucket = some ts → BucketAligned ts ∨
      ∃ now order, ⟨.ask (.dummyOrder now), order⟩ ∈ past ∧ order.2.expiresAt = some ts
  | .updateOrders u => ∀ ts, u.expiryBucket = some (some ts) → BucketAligned ts
  | _ => True

theorem bucketCall_contentUpdate (past : Past) (o : Order) (d : OrderData) (blob : Bytes) :
    BucketCall past (.updateOrders (contentUpdate o d blob)) := by
  intro ts hts
  obtain ⟨expiresAt, _, rfl⟩ := Option.map_eq_some_iff.mp (Option.some.inj hts)
  exact bucketAligned_floor expiresAt

/-- Of the handlers only `create_order` sets buckets. -/
theorem HandlerCall.bucketCall {target : Route} {body : Body} {past : Past} {c : Call}
    (h : HandlerCall target body past c) (htarget : target ≠ .createOrder) : BucketCall past c := by
  cases c with
  | insertOrder i => exact absurd h.1 htarget
  | updateOrders u =>
    obtain ⟨row, blob, _, _, _, hu⟩ := h
    have hnone : u.expiryBucket = none := by
      cases target <;> simp only [Route.update, Option.some.injEq, reduceCtorEq] at hu <;> rw [← hu]
    intro ts hts
    rw [hnone] at hts
    exact absurd hts (by simp)
  | _ => trivial

section Handlers

theorem createOrder_bucketCalls (st : AppState) (req : CreateOrderRequest) (past : Past) :
    Spec server.May BucketCall (OnOk fun _ _ => True) past (createOrder st req) := by
  simp only [createOrder, BucketCall, spec_orFail_bind, spec_ensure_bind, spec_call_bind, spec_pure,
    onOk_ok, onOk_error, implies_true, and_true, true_and]
  intro blob _ _ _ fresh _ _ time _ id _
  refine ⟨bucketAligned_floor _, fun ts hts => .inl ?_⟩
  obtain rfl := Option.some.inj hts
  exact bucketAligned_floor _

theorem handle_bucketCalls (st : AppState) (auth : Option Authed) (target : Route) (body : Body)
    (past : Past) :
    Spec server.May BucketCall (OnOk fun _ _ => True) past (handle st auth target body) := by
  by_cases htarget : target = .createOrder
  · subst htarget
    cases body with
    | createOrder req =>
      simp only [handle, spec_orFail_bind, onOk_error, implies_true, true_and]
      exact fun _ _ => spec_seq_onOk (createOrder_bucketCalls st req past) fun _ _ _ _ => trivial
    | _ => trivial
  · exact spec_mono (fun _ _ h => h.bucketCall htarget) (fun _ _ h => h)
      (handle_statements past st auth target body)

theorem handleRequest_bucketCalls (st : AppState) (r : Request) :
    Spec server.May BucketCall (OnOk fun _ _ => True) [] (handleRequest st r) :=
  handleRequest_of_handle st r
    (fun _ c hc => by cases c <;> first | trivial | exact Bool.noConfusion hc)
    fun _ auth target _ _ => handle_bucketCalls st auth target r.body _

end Handlers

/-- The dummy worker rounds its clock, and stores the expiry as it has drawn it. -/
theorem runDummyWorker_bucketCalls (st : AppState) :
    Spec server.May BucketCall (OnOk fun _ _ => True) [] (runDummyWorker st) := by
  simp only [runDummyWorker, BucketCall, spec_call_bind, true_and]
  intro run _
  split
  · simp
  simp only [BucketCall, spec_call_bind, true_and]
  intro time _ order _
  cases st.workerKey with
  | none => simp
  | some key =>
    simp only [BucketCall, spec_call_bind, true_and]
    intro nonce _
    split
    · simp
    simp only [spec_call_bind, spec_orFail, onOk_ok, onOk_error, implies_true, and_true]
    exact ⟨bucketAligned_floor time, fun ts hts => .inr ⟨floorTimestamp6h time, order, by simp, hts⟩⟩

/-- **Which buckets a job stores.** -/
theorem program_bucketCalls (D : Deployment) :
    ∀ j, Spec server.May BucketCall (OnOk fun _ _ => True) [] (D.program j)
  | .request r => handleRequest_bucketCalls D.api r
  | .checkPendingPayments => by
    refine spec_mono (fun past c h => ?_) (fun _ r _ => by cases r <;> trivial)
      (pass_spec (spec_mono (fun _ _ h => h) (fun _ r _ => by cases r <;> trivial)
        (spec_and (checkPendingPayments_decides D.worker_workerKey []) (checkPendingPayments_content []))))
    obtain ⟨hpoll, hcontent⟩ := h
    cases c with
    | insertOrder i => exact hpoll.elim
    | updateOrders u =>
      intro ts hts
      obtain ⟨expiresAt, rfl⟩ := hcontent.2 ts hts
      exact bucketAligned_floor expiresAt
    | _ => trivial
  | .checkTimeLocks => by
    refine spec_mono (fun past c h => ?_) (fun _ _ h => h)
      (pass_spec (checkTimeLocks_statements D.worker_workerKey))
    cases c with
    | insertOrder i => exact h.elim
    | updateOrders u =>
      obtain ⟨_, _, _, o, _, _, d, blob, _, _, _, rfl⟩ := h
      exact bucketCall_contentUpdate past o d blob
    | _ => trivial
  | .scanNotifications => by
    refine spec_mono (fun past c h => ?_) (fun _ _ h => h)
      (pass_spec (scanNotifications_statements D.worker_workerKey []))
    cases c with
    | insertOrder i => exact h.elim
    | updateOrders u =>
      obtain ⟨o, d, addr, buyerPubkey, blob, hwrite⟩ := h
      rw [hwrite.statement]
      exact bucketCall_contentUpdate past o _ blob
    | _ => trivial
  | .runDummyWorker => pass_spec (runDummyWorker_bucketCalls D.worker)
  | .restartApi => pass_spec ⟨trivial, fun _ _ => trivial⟩
  | .restartWorker => pass_spec ⟨trivial, fun _ _ => trivial⟩

namespace OrdersTable.BucketsAligned

variable {t t' : OrdersTable}

theorem insert (h : t.BucketsAligned) {i : InsertOrders} (hi : i.row.BucketsAligned)
    (ht : t.insert i = some t') : t'.BucketsAligned := by
  unfold OrdersTable.insert at ht
  split at ht
  · exact absurd ht (by simp)
  obtain rfl := Option.some.inj ht
  intro o ho
  rcases List.mem_append.mp ho with ho | ho
  · exact h o ho
  · obtain rfl := List.mem_singleton.mp ho
    exact hi

theorem update (h : t.BucketsAligned) {u : UpdateOrders}
    (hu : ∀ ts, u.expiryBucket = some (some ts) → BucketAligned ts) : (t.update u).BucketsAligned := by
  intro o ho
  obtain ⟨o, hmem, rfl⟩ := List.mem_map.mp ho
  obtain ⟨hday, hexpiry⟩ := h o hmem
  split
  · refine ⟨hday, fun ts hts => ?_⟩
    cases hset : u.expiryBucket with
    | none => exact hexpiry ts (by simpa [UpdateOrders.set, hset] using hts)
    | some b => exact hu ts (by simpa [UpdateOrders.set, hset] using hts)
  · exact ⟨hday, hexpiry⟩

end OrdersTable.BucketsAligned

/-- The dummy order of a reply was drawn with a lifetime of whole buckets. -/
def DrawnWhole (r : Reply Server) : Prop :=
  ∀ now order, r = ⟨.ask (.dummyOrder now), order⟩ → WholeLifetime now order

/-- **The orders stay rounded** in every run whose dummy orders were drawn with whole lifetimes. -/
theorem Deployment.Reaches.ordersAligned {D : Deployment} {allow : System → Job → Prop}
    {orders : OrdersTable} {g : System} (h : D.Reaches allow orders g) (horders : orders.BucketsAligned)
    (hdrawn : ∀ ev ∈ g.history, DrawnWhole ev.reply) : g.shared.orders.BucketsAligned := by
  refine Reachable.history_inv (R := fun s l => (∀ ev ∈ l, DrawnWhole ev.reply) → s.orders.BucketsAligned)
    (fun _ => horders) ?_ h hdrawn
  intro g l ev hg hl ih hdrawn
  have hev : ev ∈ g.history := by simp [hl]
  obtain ⟨hcall, e, ha⟩ := Reachable.event (fun _ j _ => program_bucketCalls D j) hg ev hev
  have hbefore := ih fun e he => hdrawn e (List.mem_append_left _ he)
  obtain ⟨pid, j, past, ⟨c, a⟩, before, after⟩ := ev
  replace ha : server.answer c e before = some (a, after) := ha
  change after.orders.BucketsAligned
  rcases answer_orders ha with heq | ⟨i, rfl⟩ | ⟨u, rfl⟩
  · exact heq ▸ hbefore
  · rcases answer_insertOrder ha with ⟨_, rfl⟩ | ⟨t, _, ht, rfl⟩
    · exact hbefore
    · refine hbefore.insert ⟨hcall.1, fun ts hts => ?_⟩ ht
      rcases hcall.2 ts hts with haligned | ⟨now, order, hask, hexpires⟩
      · exact haligned
      · obtain ⟨e, he, _, _, hreply⟩ := hg.event_of_event_past hl hask
        exact (hdrawn e (List.mem_append_left _ he) now order hreply).aligned hexpires
  · rcases answer_updateOrders ha with ⟨_, rfl⟩ | ⟨_, rfl⟩
    · exact hbefore
    · exact hbefore.update hcall

/-! ## The listings -/

/-- The rows of the listings table, with their bucket. -/
def ListingsTable.BucketsAligned (t : ListingsTable) : Prop :=
  ∀ l ∈ t.rows, BucketAligned l.dayBucket

namespace Listings

/-- What the calls of a job store is rounded. -/
def BucketCall : Call → Prop
  | .insertListing i => BucketAligned i.dayBucket
  | _ => True

theorem createListing_bucketCalls (key : Bytes) (req : CreateListingRequest) :
    Spec server.May (fun _ => BucketCall) (fun _ _ => True) [] (createListing key req) := by
  unfold createListing
  refine spec_still (decodeBlob_result _) fun blob => ?_
  refine spec_still (decodeSearchToken_result _) fun token => ?_
  refine spec_still (validateLabel_result _ _) fun status => ?_
  refine spec_still (validateLabel_result _ _) fun currency => ?_
  simp only [BucketCall, spec_call_bind, spec_ensure_bind, spec_orFail_bind, spec_pure, implies_true,
    and_true, true_and]
  exact fun _ _ _ time _ _ _ => bucketAligned_floor time

/-- **Which buckets a job stores.** -/
theorem program_bucketCalls (worker : AppState) (j : Job) :
    Spec server.May (fun _ => BucketCall) (fun _ _ => True) [] (program worker j) := by
  cases j with
  | createListing key req => exact spec_map (createListing_bucketCalls key req)
  | listListings query =>
    refine spec_map ?_
    unfold listListings
    exact spec_still (decodeQuery_result _) fun _ => spec_call_bind.mpr ⟨trivial, fun _ _ =>
      spec_still (result_orFail _ _) fun _ => trivial⟩
  | getListing key id => exact spec_map (by simp [getListing, BucketCall])
  | updateListing key id req =>
    exact spec_map (updateListing_calls key id req fun _ _ =>
      ⟨trivial, trivial, trivial, fun _ _ _ => trivial⟩)
  | checkListingExpiry =>
    refine spec_map (spec_mono (fun _ c h => ?_) (fun _ _ h => h) (checkListingExpiry_calls worker))
    cases c with
    | insertListing i => exact h.elim
    | _ => trivial
  | restartApi => exact ⟨trivial, fun _ _ => trivial⟩

/-- **The listings stay rounded**, in every run. -/
theorem Reaches.listingsAligned {worker : AppState} {listings : ListingsTable} {g : System}
    (h : Reaches worker listings g) (hlistings : listings.BucketsAligned) :
    g.shared.listings.BucketsAligned := by
  refine Reachable.history_inv (R := fun s _ => s.listings.BucketsAligned) hlistings ?_ h
  intro g l ev hg hl hbefore
  have hev : ev ∈ g.history := by simp [hl]
  obtain ⟨hcall, e, ha⟩ := Reachable.event (fun _ j _ => program_bucketCalls worker j) hg ev hev
  obtain ⟨pid, j, past, ⟨c, a⟩, before, after⟩ := ev
  replace ha : server.answer c e before = some (a, after) := ha
  change after.listings.BucketsAligned
  cases c with
  | insertListing i =>
    simp only [server] at ha
    split at ha
    · obtain ⟨-, rfl⟩ := Prod.mk.inj (Option.some.inj ha)
      exact hbefore
    split at ha
    · rename_i t ht
      obtain ⟨-, rfl⟩ := Prod.mk.inj (Option.some.inj ha)
      intro l hl
      rcases Table.mem_insert ht hl with rfl | hl
      · exact hcall
      · exact hbefore l hl
    · obtain ⟨-, rfl⟩ := Prod.mk.inj (Option.some.inj ha)
      exact hbefore
  | updateListings u =>
    simp only [server] at ha
    split at ha
    · obtain ⟨-, rfl⟩ := Prod.mk.inj (Option.some.inj ha)
      exact hbefore
    · obtain ⟨-, rfl⟩ := Prod.mk.inj (Option.some.inj ha)
      intro l hl
      obtain ⟨l, hmem, rfl⟩ := List.mem_map.mp hl
      have hday : (u.toUpdate.apply l).dayBucket = l.dayBucket := by
        unfold Table.Update.apply
        split <;> rfl
      exact hday ▸ hbefore l hmem
  | _ =>
    simp only [server] at ha
    repeat' split at ha
    all_goals first
      | obtain ⟨_, rfl⟩ := Prod.mk.inj (Option.some.inj ha)
        exact hbefore
      | cases ha

end Listings

/-! ## Both tables -/

/-- **The plaintext buckets of both tables stay multiples of six hours**, in every run of both systems in
which each dummy order is drawn with a lifetime of whole buckets. -/
theorem buckets_aligned {D : Deployment} {allow : System → Job → Prop} {orders : OrdersTable}
    {listings : ListingsTable} {g : System} {gl : Listings.System} (horders : orders.BucketsAligned)
    (hlistings : listings.BucketsAligned) (h : D.Reaches allow orders g)
    (hl : Listings.Reaches D.worker listings gl) (hdrawn : ∀ ev ∈ g.history, DrawnWhole ev.reply) :
    g.shared.orders.BucketsAligned ∧ gl.shared.listings.BucketsAligned :=
  ⟨h.ordersAligned horders hdrawn, Listings.Reaches.listingsAligned hl hlistings⟩

/-! ### Two lifetimes -/

namespace DummySample

open Draws DummyWorker Sample

/-- A generator that draws XMR, the state of a roll of 0, the lifetime `lifetime`, and else the least of
a range. -/
def generator (lifetime : Int) : Machine Drawing Unit Unit where
  answer
    | .unit, _, s => some (0, s)
    | .range lo hi, _, s =>
      if lo < hi then some (if lifetimeDraw = .range lo hi then lifetime else lo, s) else none
    | .bool _, _, s => some (true, s)
    | .bytes n, _, s => some (List.replicate n 0, s)

/-- The order that the generator makes at `passTime`: it is created twelve hours before, at 1699941600. -/
def dummy (lifetime : Int64) : OrderData where
  listingId := List.replicate 16 0
  buyerPubkeyHash := List.replicate 32 0
  sellerPubkeyHash := List.replicate 32 0
  buyerPubkey := some (String.ofList (List.replicate 64 '0'))
  sellerPubkey := some (String.ofList (List.replicate 64 '0'))
  state := "pending"
  currency := "XMR"
  escrowAddress := some (String.ofList ('4' :: List.replicate 94 '0'))
  escrowAmount := some "1.000000000000"
  timeLockSeconds := 86400
  createdAt := 1699941600
  fundedAt := none
  shippedAt := none
  confirmedAt := none
  releasedAt := none
  refundedAt := none
  expiresAt := some (1699941600 + lifetime)
  disputedAt := none
  disputeId := none
  ownerPubkey := none
  feePercent := none
  feeAddress := none
  dispute := none
  chatMessages :=
    [{ id := List.replicate 16 0
       senderPubkeyHash := List.replicate 32 0
       encryptedBody := List.replicate 48 0
       createdAt := 1699941600
       expiresAt := 1707717600 }]
  settlementTxid := none

def dummyId : Bytes := List.replicate 16 0

def dummyKey : Bytes := hex "98fd9c22695ee2590fd423a89643f4cc36bf1763a11e0a9ee1cf23e3faab7cee"

/-- The ciphertext before the last digit of the expiry. -/
def ciphertextBefore : Bytes :=
  List.flatMap (beBytes 44)
    [ 0x32ebf948f8e32eb32bb83764ac8edf56c4a4fef3d43b669e4fbfabb22c4c68b5e06373f882a1c17c2456e103,
      0x7825e29cdbe80e06f9f338e60f78f7a48dac854c2243c2ff234a3542ae3c8a128dd38cf8b56773a0ac90cd86,
      0xd9d4de68a5d23119ba52748880be20a88bce7e62e1ffc031cbdb0e4813e811b5945794d448eadf819bb610b6,
      0x1313b12ad69901c91b936aab41b3e597ca5e0f4fddbea9b97930e92b27a6e557d8b1d89a6b55ef315f86f452,
      0x24c4b8ff311c5b145f6b7f2c94a211e3ee27a6b068beafbd14ef4e4fc35add4dea0bc1292aaafecc17e9a5f6,
      0x441d49918ee061de013613133f7f86f92462ba52b02ecf2017757d8426cc982ccf115adfb6e29decb0e1d424,
      0xbd5464a043207524a03af5293798de0446a49f0633781ba4a7c320fcd48c0f5fe4b64b6641478aebac9a3e9f,
      0xab607544f22fd04f5900c63af592ff267b2d8abcc2e5737aa61566fcbd3b3cf43ed92dfa23ace43a522bb19b,
      0xa837894ff421c88239386c6f1464aab03b41524c295a3125e6f81dda0956c1ba5563f5f2dbc800332b1cfe39,
      0xa5850c1e677d6bc4eae584b70001c9c8d012ef0854ea6b9d41c9bbfd0224396cc39dcd8d03f537841187b48d,
      0xf1bedafcbd0f731eeefedb91035abb3b146ac2bfd004d7865e72cb0fb583442e03d095f6f7d06c8e8368416a,
      0x59ebcec220d03f8c732382bf423558096f95b4b2afe1d46610fbb337390d71dd772de82d8de5559452598950,
      0xd3b506ff2528bd5b9e31cf4c4ead942c9cec1cc31dbf6e2c431ebfc348c09caa27333e1d3c24f1e4a1d18e2f,
      0x46c24bb23fd24e49953cd48f6319e9eac971673a403a0456647d3f76e2ce0fd0ee7dc9d78c700d3a433d31be,
      0x46aeb56a963ec4eefb828d2538ac47374f92074088998f81f7a0b88eac429217811846f468f1f7a9d14112df,
      0x8dff4a7b92f17212a941d92fb2631fe001c82520d71604aa5626e8f2008c301335269034cf38693572afb08f ] ++
  beBytes 30 0xd8ebe02488d112577b64f4ff0ca583f531ee9ee1597e3d9d760021d77486

/-- And after it, up to the tag. -/
def ciphertextAfter : Bytes :=
  List.flatMap (beBytes 44)
    [ 0x3eb0ea72e6c61610864c331df45e9333267a83501b0256adb6378284ea3b8becebc13c543fe801836e46efec,
      0x0ee4cefebd6a50a17c77b26aa072205b11ad532c0354a473eb96406fbfe20dd6679ed2cab13cd2c34be45e9b,
      0x6b6235eaacf2db3027a43d89fc2b3969a64815b54a56c248ab210c716aa7012f98b77801ea1a22f6c6956140,
      0xca55943d03f83d99253cbc3cdeac77209ef8c8cbdc51bcd206ee62136c13eaa7de8b33a1768294828d14a0f3,
      0x72e70e1ff511aa66b8cd4ac034d56adaab1fb6c5847edb333bcaf411badb9a44ba1999bc6690e1f1bb05e70a,
      0x527e59c2768ef7227a1ec43dda6ca0d38c38fb6eb0ab9fd59e376ae29168168bb3b2a0bc9c7ad2743ed539bb,
      0xa8b5fd2c7ffe1daa2a58acbf31fb004c91ba9dffcfd6fe7cce2d35638e795b5dd3f77e87ace9cba304cc6232,
      0x1416339312ec916a580b19532368c2f09034fc1c62dc7e613a0f71fdd1851139e5ec9b965d81879cbbcb08d2,
      0x663f985daa957e45f9a7022dac06e0cb99de4c5e8176c2920479545d23ab63c22a3a1711938c92662d9919fa,
      0xd49bba9d47eb7f326bcb0480ee403d78a20d52ca3de540596a494a4fef51d46214c106ec2601c27ab41a2191 ] ++
  beBytes 3 0x51c1bf

/-- The order of a lifetime under the nonce of zeros: with the last digit, and the tag, in hexadecimal. -/
def dummyCiphertext (digit : UInt8) (tag : String) : Bytes :=
  ciphertextBefore ++ digit :: ciphertextAfter ++ hex tag

/-- A day, and a day and a second. -/
def dummyTables : Primitives.Tables where
  hmacSha256 := [((List.replicate 32 7, utf8 "oblivious-order-v1" ++ dummyId), dummyKey)]
  chacha :=
    [((dummyKey, List.replicate 12 0, dummyCiphertext 144 "95db29c5b92d2aece0f92090831f4d12"),
        (dummy 86400).toVec),
      ((dummyKey, List.replicate 12 0, dummyCiphertext 145 "3022dfadf3de0c29caa7795ae7d7c8fa"),
        (dummy 86401).toVec)]

/-- A pass of the dummy worker that inserts an order of the lifetime. -/
def dummyPass (lifetime : Int64) : List (Label Job Choice) :=
  .spawn .runDummyWorker :: List.replicate 5 (.act 0
    { time
      ask := fun
        | .randomBytes n => List.replicate n 0
        | .dummyRoll => true
        | .dummyOrder _ => (dummyId, dummy lifetime)
        | q => q.noAnswer })

/-- The pass has drawn the order at `passTime`. -/
def drew (lifetime : Int64) (ev : Effect) : Bool :=
  match ev.reply with
  | ⟨.ask (.dummyOrder now), order⟩ => now = passTime && order = (dummyId, dummy lifetime)
  | _ => true

/-- The pass has drawn no other order, and inserted it with the bucket of its expiry. -/
def inserted (lifetime : Int64) (g : System) : Bool :=
  g.history.all (drew lifetime) && g.shared.orders.rows.map (fun o => (o.dayBucket, o.expiryBucket)) =
    [(passTime, some (1699941600 + lifetime))]

def wholeTrace : (deployment dummyTables none).Trace anyJob .empty (inserted 86400) where
  labels := dummyPass 86400
  allowed _ _ _ := trivial
  passes := by decide +kernel

def unroundedTrace : (deployment dummyTables none).Trace anyJob .empty (inserted 86401) where
  labels := dummyPass 86401
  allowed _ _ _ := trivial
  passes := by decide +kernel

theorem inserted_row {lifetime : Int64} {g : System} (h : inserted lifetime g = true) :
    ∃ o ∈ g.shared.orders.rows, o.dayBucket = passTime ∧
      o.expiryBucket = some (1699941600 + lifetime) := by
  simp only [inserted, Bool.and_eq_true, decide_eq_true_eq] at h
  have hmem : (passTime, some (1699941600 + lifetime)) ∈
      g.shared.orders.rows.map fun o => (o.dayBucket, o.expiryBucket) := by simp [h.2]
  obtain ⟨o, ho, heq⟩ := List.mem_map.mp hmem
  exact ⟨o, ho, (Prod.mk.inj heq).1, (Prod.mk.inj heq).2⟩

theorem generator_draws :
    ((generator 86400).solo () (dummyOrder passTime) ()).map Prod.fst =
        some (.ok (dummyId, dummy 86400)) ∧
      ((generator 86401).solo () (dummyOrder passTime) ()).map Prod.fst =
        some (.ok (dummyId, dummy 86401)) := by
  decide +kernel

theorem drawn_of_generator {lifetime : Int} (hlifetime : 86400 ≤ lifetime ∧ lifetime < 21 * 86400)
    (c : Drawing.Call) (a : Drawing.Ans c) (h : (generator lifetime).May c a) : Drawn c a := by
  obtain ⟨_, _, _, hanswer⟩ := h
  cases c with
  | unit =>
    obtain rfl := (Prod.mk.inj (Option.some.inj hanswer)).1
    exact ⟨0, by decide, by simp⟩
  | range lo hi =>
    change (if lo < hi then some _ else none) = some _ at hanswer
    split at hanswer
    case isFalse => exact absurd hanswer (by simp)
    case isTrue hlt =>
      obtain rfl := (Prod.mk.inj (Option.some.inj hanswer)).1
      split
      case isTrue heq =>
        obtain ⟨rfl, rfl⟩ := Draw.range.inj heq
        exact hlifetime
      case isFalse => exact ⟨Int.le_refl lo, hlt⟩
  | bool => trivial
  | bytes k =>
    obtain rfl := (Prod.mk.inj (Option.some.inj hanswer)).1
    exact List.length_replicate

/-- The order of the generator, from its own draws. -/
theorem drawn_dummy {lifetime : Int} {order : Bytes × OrderData}
    (hlifetime : 86400 ≤ lifetime ∧ lifetime < 21 * 86400)
    (h : ((generator lifetime).solo () (dummyOrder passTime) ()).map Prod.fst = some (.ok order)) :
    ∃ past, Yields Drawn [] (dummyOrder passTime) past (.ok order) ∧
      ∀ n : Int, ⟨lifetimeDraw, n⟩ ∈ past → n = lifetime := by
  obtain ⟨⟨r, s⟩, hsolo, rfl⟩ := Option.map_eq_some_iff.mp h
  obtain ⟨past, hyields⟩ := yields_of_solo [] hsolo
  refine ⟨past, hyields.mono (drawn_of_generator hlifetime), fun n hn => ?_⟩
  obtain ⟨_, _, _, hanswer⟩ := hyields.answered (fun _ h => absurd h List.not_mem_nil) _ hn
  exact (Prod.mk.inj (Option.some.inj hanswer)).1.symm

end DummySample

open DummySample Sample in
/-- A dummy order that lives for a day. -/
theorem buckets_aligned_day :
    ∃ g, (deployment dummyTables none).Reaches anyJob .empty g ∧
      (∃ o ∈ g.shared.orders.rows, o.expiryBucket = some 1700028000) ∧
      g.shared.orders.BucketsAligned := by
  obtain ⟨g, hg, hinserted⟩ := wholeTrace.reaches
  obtain ⟨o, ho, _, hexpiry⟩ := inserted_row hinserted
  have hwhole : WholeLifetime passTime (dummyId, dummy 86400) := by
    obtain ⟨past, hyields, hdraw⟩ := drawn_dummy (by decide) generator_draws.1
    exact ⟨past, hyields, fun n hn => hdraw n hn ▸ by decide⟩
  have hdrawn : ∀ ev ∈ g.history, DrawnWhole ev.reply := by
    rintro ⟨_, _, _, reply, _, _⟩ hev now order rfl
    simp only [inserted, Bool.and_eq_true, List.all_eq_true] at hinserted
    have hdrew := hinserted.1 _ hev
    simp only [drew, Bool.and_eq_true, decide_eq_true_eq] at hdrew
    rw [hdrew.1, hdrew.2]
    exact hwhole
  have hnone : OrdersTable.empty.BucketsAligned := fun _ h => absurd h List.not_mem_nil
  have hnoListing : ListingsTable.BucketsAligned (Table.empty Listing.id) := fun _ h =>
    absurd h List.not_mem_nil
  exact ⟨g, hg, ⟨o, ho, hexpiry⟩, (buckets_aligned hnone hnoListing hg Reachable.init hdrawn).1⟩

open DummySample DummyWorker Draws Sample in
/-- **A dummy order that lives for a day and a second**: its expiry bucket is no multiple of six hours. -/
theorem dummy_expiry_unrounded :
    ∃ g o past, (deployment dummyTables none).Reaches anyJob .empty g ∧
      Yields Drawn [] (dummyOrder passTime) past (.ok (dummyId, dummy 86401)) ∧
      o ∈ g.shared.orders.rows ∧ o.dayBucket = passTime ∧ o.expiryBucket = some 1700028001 ∧
      ¬ BucketAligned 1700028001 ∧ ¬ g.shared.orders.BucketsAligned := by
  obtain ⟨g, hg, hinserted⟩ := unroundedTrace.reaches
  obtain ⟨o, ho, hday, hexpiry⟩ := inserted_row hinserted
  obtain ⟨past, hyields, _⟩ := drawn_dummy (by decide) generator_draws.2
  have hno : ¬ BucketAligned 1700028001 := by decide
  exact ⟨g, o, past, hg, hyields, ho, hday, hexpiry, hno, fun h => hno ((h o ho).2 _ hexpiry)⟩

end TorMarketplace
