import TorMarketplace.Proof.ChatReads
import TorMarketplace.Proof.Disputes
import TorMarketplace.Proof.Listings

/-!
# Reading back what was written

A handler that writes makes up its response from the request, the clock and constants, and reads nothing
after the write. What `get_order`, `get_dispute` and `get_listing` return in the state after the write is
compared with it: a created row always reads back as it was announced, an updated one if the flag, the
bucket and the version are as the handler has assumed (`responses_read_back_iff`).
-/

namespace TorMarketplace

open Encoding Interleave Prog Versioned

/-! ## Responses and reads -/

/-- The version of a new row. -/
theorem isI64_one : IsI64 1 := by decide

/-- The fields of two responses agree, the blobs as bytes. -/
structure OrderResponse.Same (r r' : OrderResponse) : Prop where
  blob : r.clientEncryptedBlob.map base64Decode = r'.clientEncryptedBlob.map base64Decode
  dayBucket : r.dayBucket = r'.dayBucket
  expiryBucket : r.expiryBucket = r'.expiryBucket
  version : r.version = r'.version
  hasDispute : r.hasDispute = r'.hasDispute

structure DisputeResponse.Same (r r' : DisputeResponse) : Prop where
  blob : r.clientEncryptedBlob.map base64Decode = r'.clientEncryptedBlob.map base64Decode
  version : r.version = r'.version
  hasDispute : r.hasDispute = r'.hasDispute

/-- A response agrees with the read of the same id in `s`, when nobody else is about. -/
def ReadsBack (s : Shared) : Response → Prop
  | .order resp => ∃ read s', server.solo {} (getOrder resp.id) s = some (.ok read, s') ∧ read.Same resp
  | .dispute resp =>
    ∃ read s', server.solo {} (getDispute resp.id) s = some (.ok read, s') ∧ read.Same resp
  | _ => False

section Reads

variable {s : Shared} {id : String} {b : Bytes} {row : Order}

theorem selectOrder_alone (hfind : s.orders.find b = some row) :
    server.answer (.selectOrder b) {} s = some ((readRow row).map some, s) := by
  simp [server, hfind]

/-- `get_order` in a state that has the order. -/
theorem getOrder_alone (hid : hexDecode id = some b) (hfind : s.orders.find b = some row)
    {read : OrderResponse} {s' : Shared} :
    server.solo {} (getOrder id) s = some (.ok read, s') ↔
      IsI64 row.version ∧ s' = s ∧ read = ⟨id, some (base64Encode row.encryptedOrderBlob), row.dayBucket,
        row.expiryBucket, row.version, row.hasDispute ≠ 0⟩ := by
  have hread := selectOrder_alone hfind
  unfold getOrder
  rw [hid]
  change server.solo {} (exec (.selectOrder b) >>= _) s = _ ↔ _
  rw [solo_bind_ok (solo_call hread)]
  by_cases hversion : IsI64 row.version
  · have hrow : readRow row = some row := if_pos hversion
    rw [hrow]
    simp only [hversion, true_and]
    constructor
    · intro h
      cases h
      exact ⟨rfl, rfl⟩
    · rintro ⟨rfl, rfl⟩
      rfl
  · have hrow : readRow row = none := if_neg hversion
    rw [hrow]
    exact iff_of_false (fun h => by cases h) fun h => hversion h.1

/-- `get_dispute` in a state that has the order. -/
theorem getDispute_alone (hid : hexDecode id = some b) (hfind : s.orders.find b = some row)
    {read : DisputeResponse} {s' : Shared} :
    server.solo {} (getDispute id) s = some (.ok read, s') ↔
      IsI64 row.version ∧ row.hasDispute ≠ 0 ∧ s' = s ∧
        read = ⟨id, hexEncode b, row.disputeClientBlob.map base64Encode, row.version, true⟩ := by
  have hread := selectOrder_alone hfind
  unfold getDispute
  rw [hid]
  change server.solo {} (exec (.selectOrder b) >>= _) s = _ ↔ _
  rw [solo_bind_ok (solo_call hread)]
  by_cases hversion : IsI64 row.version
  · have hrow : readRow row = some row := if_pos hversion
    rw [hrow]
    simp only [hversion, true_and]
    change server.solo {} (ensure (decide (row.hasDispute ≠ 0)) _ >>= _) s = _ ↔ _
    rw [solo_ensure_bind]
    by_cases hflag : row.hasDispute = 0
    · rw [if_neg (by simp [hflag])]
      exact iff_of_false (fun h => by cases h) fun h => h.1 hflag
    · rw [if_pos (by simp [hflag])]
      constructor
      · intro h
        cases h
        exact ⟨hflag, rfl, rfl⟩
      · rintro ⟨_, rfl, rfl⟩
        rfl
  · have hrow : readRow row = none := if_neg hversion
    rw [hrow]
    exact iff_of_false (fun h => by cases h) fun h => hversion h.1

end Reads

/-! ## The write of a request -/

/-- The call writes to the table of the orders. -/
def isWrite (c : Call) : Bool :=
  match c with
  | .insertOrder _ => true
  | .updateOrders _ => true
  | _ => false

/-- The writes of process `pid`. -/
def writesOf (pid : Nat) (l : List Effect) : List Effect :=
  (l.filter fun ev => ev.pid = pid).filter fun ev => isWrite ev.reply.1

theorem writesOf_reply (pid : Nat) (l : List Effect) :
    (writesOf pid l).map Event.reply = (callsOf pid l).filter fun reply => isWrite reply.1 := by
  rw [callsOf, List.filter_map]
  rfl

/-- The write that `update_order` makes of a row that it has read. -/
def orderWrite (row : Order) (blob : Bytes) : UpdateOrders :=
  { encryptedOrderBlob := some blob, bumpVersion := true, whereId := row.id,
    whereVersion := some row.version }

/-- The write that `update_dispute` makes. -/
def disputeWrite (row : Order) (blob : Bytes) : UpdateOrders :=
  { disputeClientBlob := some blob, bumpVersion := true, whereId := row.id,
    whereVersion := some row.version }

/-- What three handlers have written when they answer, after the calls `past`. -/
inductive Announced (past : Past) : Route → Reply Server → Response → Prop
  | created {i : InsertOrders} {text : String}
    (hblob : base64Decode text = some i.encryptedOrderBlob) :
    Announced past .createOrder ⟨.insertOrder i, some ()⟩
      (.order ⟨hexEncode i.id, some text, i.dayBucket, i.expiryBucket, 1, false⟩)
  | updated {id text : String} {row : Order} {blob : Bytes} {n : Nat} (hid : hexDecode id = some row.id)
    (hread : ⟨.selectOrder row.id, some (some row)⟩ ∈ past) (hblob : base64Decode text = some blob)
    (hn : n ≠ 0) :
    Announced past (.updateOrder id) ⟨.updateOrders (orderWrite row blob), some n⟩
      (.order ⟨id, some text, row.dayBucket, row.expiryBucket, row.version + 1, false⟩)
  | disputeUpdated {id text : String} {row : Order} {blob : Bytes} {n : Nat}
    (hid : hexDecode id = some row.id) (hread : ⟨.selectOrder row.id, some (some row)⟩ ∈ past)
    (hblob : base64Decode text = some blob) (hn : n ≠ 0) :
    Announced past (.updateDispute id) ⟨.updateOrders (disputeWrite row blob), some n⟩
      (.dispute ⟨id, id, some text, row.version + 1, true⟩)

/-- The handlers that `Announced` is about. -/
def Route.announces : Route → Bool
  | .createOrder => true
  | .updateOrder _ => true
  | .updateDispute _ => true
  | _ => false

/-- The request has made one write, and announced it. -/
def AnnouncedOnce (target : Route) (past : Past) (response : Response) : Prop :=
  ∃ reply, (past.filter fun r => isWrite r.1) = [reply] ∧ Announced past target reply response

theorem createOrder_wrote (st : AppState) (req : CreateOrderRequest) {past : Past}
    (hpast : (past.filter fun r => isWrite r.1) = []) :
    Spec server.May (fun _ _ => True) (OnOk fun past' resp =>
      AnnouncedOnce .createOrder past' (.order resp)) past (createOrder st req) := by
  simp only [createOrder, spec_orFail_bind, spec_ensure_bind, spec_call_bind, spec_pure, onOk_ok,
    onOk_error, implies_true, true_and]
  intro blob hblob _ _ fresh _ _ time _ orderId _ done _ _ hdone
  subst hdone
  refine ⟨⟨.insertOrder ⟨orderId, blob, floorTimestamp6h time, _⟩, some ()⟩, ?_, .created hblob⟩
  simp only [List.filter_append, hpast]
  rfl

theorem updateOrder_wrote (st : AppState) (auth : Authed) (id : String) (req : UpdateOrderRequest)
    {past : Past} (hpast : (past.filter fun r => isWrite r.1) = []) :
    Spec server.May (fun _ _ => True) (OnOk fun past' resp =>
      AnnouncedOnce (.updateOrder id) past' (.order resp)) past (updateOrder st auth id req) := by
  simp only [updateOrder, spec_orFail_bind, spec_ensure_bind, spec_call_bind, spec_pure, onOk_ok,
    onOk_error, implies_true, true_and]
  intro b hid blob hblob _ _ fresh _ _ current hcurrent found hfound row hrow nonce _ sig _ _ _
    affected _ n hn hne
  subst_vars
  obtain ⟨rfl, _⟩ := may_selectOrder hcurrent
  refine ⟨⟨.updateOrders (orderWrite row blob), some n⟩, ?_,
    .updated hid (by simp) hblob (of_decide_eq_true hne)⟩
  simp only [List.filter_append, hpast]
  rfl

theorem updateDispute_wrote (id : String) (req : UpdateDisputeRequest) {past : Past}
    (hpast : (past.filter fun r => isWrite r.1) = []) :
    Spec server.May (fun _ _ => True) (OnOk fun past' resp =>
      AnnouncedOnce (.updateDispute id) past' (.dispute resp)) past (updateDispute id req) := by
  simp only [updateDispute, spec_orFail_bind, spec_ensure_bind, spec_call_bind, spec_pure, onOk_ok,
    onOk_error, implies_true, true_and]
  intro b hid blob hblob _ fresh _ _ current hcurrent found hfound row hrow affected _ n hn hne
  subst_vars
  obtain ⟨rfl, _⟩ := may_selectOrder hcurrent
  refine ⟨⟨.updateOrders (disputeWrite row blob), some n⟩, ?_,
    .disputeUpdated hid (by simp) hblob (of_decide_eq_true hne)⟩
  simp only [List.filter_append, hpast]
  rfl

theorem handle_wrote (st : AppState) (auth : Option Authed) {target : Route} (body : Body) {past : Past}
    (htarget : target.announces = true) (hpast : (past.filter fun r => isWrite r.1) = []) :
    Spec server.May (fun _ _ => True) (OnOk (AnnouncedOnce target)) past (handle st auth target body) := by
  unfold handle
  split
  case h_1 req =>
    simp only [spec_orFail_bind, onOk_error, implies_true, true_and]
    exact fun _ _ => spec_seq_onOk (createOrder_wrote st req hpast) fun _ _ _ h => h
  case h_3 id req =>
    simp only [spec_orFail_bind, onOk_error, implies_true, true_and]
    exact fun auth _ => spec_seq_onOk (updateOrder_wrote st auth id req hpast) fun _ _ _ h => h
  case h_6 id req =>
    simp only [spec_orFail_bind, onOk_error, implies_true, true_and]
    exact fun _ _ => spec_seq_onOk (updateDispute_wrote id req hpast) fun _ _ _ h => h
  case h_15 => exact trivial
  all_goals exact absurd htarget (by simp [Route.announces])

theorem handleRequest_wrote (st : AppState) (r : Request) :
    Spec server.May (fun _ _ => True) (OnOk fun past response => ∀ target,
      route r.method r.path = some target → target.announces = true → AnnouncedOnce target past response) []
      (handleRequest st r) := by
  refine handleRequest_of_handle st r (fun _ _ _ => trivial) fun past auth target hlayers htarget => ?_
  have hpast : (past.filter fun reply => isWrite reply.1) = [] :=
    filter_layers (fun c hc => by cases c <;> first | rfl | exact Bool.noConfusion hc) hlayers
  cases hannounces : target.announces with
  | true =>
    refine spec_mono (fun _ _ h => h) (fun past' result h => ?_)
      (handle_wrote st auth r.body hannounces hpast)
    cases result with
    | error _ => trivial
    | ok response =>
      intro target' hroute _
      obtain rfl := Option.some.inj (htarget.symm.trans hroute)
      exact h
  | false =>
    refine spec_of_forall (fun _ _ => trivial) fun past' result => ?_
    cases result with
    | error _ => trivial
    | ok response =>
      intro target' hroute hother
      obtain rfl := Option.some.inj (htarget.symm.trans hroute)
      exact absurd (hannounces.symm.trans hother) (by simp)

/-! ## Orders -/

/-- What a handler assumes of the row that it writes to, of which its response says nothing else. -/
def AsAssumed : Route → Shared → Prop
  | .updateOrder id, s => ∃ b row, hexDecode id = some b ∧ s.orders.find b = some row ∧
      row.hasDispute = 0 ∧ IsI64 (row.version + 1)
  | .updateDispute id, s => ∃ b row, hexDecode id = some b ∧ s.orders.find b = some row ∧
      row.hasDispute ≠ 0 ∧ IsI64 (row.version + 1)
  | _, _ => True

/-- The row of an id is the one that is found there. -/
theorem exists_row_iff {s : Shared} {id : String} {b : Bytes} {row : Order} {P : Order → Prop}
    (hid : hexDecode id = some b) (hfind : s.orders.find b = some row) :
    (∃ b row, hexDecode id = some b ∧ s.orders.find b = some row ∧ P row) ↔ P row := by
  constructor
  · rintro ⟨b', row', hb, hrow, hP⟩
    obtain rfl := Option.some.inj (hid.symm.trans hb)
    obtain rfl := Option.some.inj (hfind.symm.trans hrow)
    exact hP
  · exact fun hP => ⟨b, row, hid, hfind, hP⟩

section Reaches

variable {D : Deployment} {allow : System → Job → Prop} {orders : OrdersTable} {g : System}

/-- A request that has been answered has made one write, and has announced it. -/
theorem Deployment.Reaches.wroteOnce (h : D.Reaches allow orders g) {pid : Nat} {p : Process}
    (hp : g.procs[pid]? = some p) {r : Request} (hjob : p.job = .request r) {target : Route}
    (hroute : route r.method r.path = some target) (htarget : target.announces = true) {resp : Response}
    (hr : p.prog.result = some (.ok resp)) :
    ∃ ev ∈ g.history, writesOf pid g.history = [ev] ∧ Announced p.past target ev.reply resp := by
  obtain ⟨reply, hwrites, hwrote⟩ := h.post_request (handleRequest_wrote D.api)
    (List.mem_of_getElem? hp) hjob hr target hroute htarget
  have hpast : p.past = callsOf pid g.history := Reachable.past_eq h hp
  rw [hpast, ← writesOf_reply] at hwrites
  obtain ⟨ev, rest, hev, hreply, hnil⟩ := List.map_eq_cons_iff.mp hwrites
  obtain rfl := List.map_eq_nil_iff.mp hnil
  have hmem : ev ∈ writesOf pid g.history := by simp [hev]
  exact ⟨ev, List.mem_of_mem_filter (List.mem_of_mem_filter hmem), hev, hreply ▸ hwrote⟩

/-- An effective update replaces the row that its process was given under the version. -/
theorem Deployment.Reaches.updated (h : D.Reaches allow orders g) {pid : Nat} {p : Process}
    (hp : g.procs[pid]? = some p) {row : Order}
    (hread : ⟨.selectOrder row.id, some (some row)⟩ ∈ p.past) {ev : Effect} (hev : ev ∈ g.history)
    {u : UpdateOrders} {n : Nat} (hreply : ev.reply = ⟨.updateOrders u, some n⟩) (hn : n ≠ 0)
    (hid : u.whereId = row.id) (hversion : u.whereVersion = some row.version) :
    ev.before.orders.find row.id = some row ∧ ev.after.orders.find row.id = some (u.set row) := by
  have hu : effectiveUpdate ev.reply = some u := effectiveUpdate_eq_some.mpr ⟨n, hn, hreply⟩
  obtain ⟨o, hsaw, hguard⟩ := h.guarded hev hu
  obtain ⟨hbefore, hafter⟩ := h.replaces hev hu hsaw hguard
  obtain ⟨read, hmem, _, hreads⟩ := Reachable.event_of_past h hp hread
  have hfind := h.select_finds hmem hreads
  rw [hid] at hbefore hafter
  have hsame : o.version = row.version := Option.some.inj (hguard.2.2.symm.trans hversion)
  obtain rfl : o = row :=
    h.row_of_version ⟨read, hmem, .inl rfl⟩ ⟨ev, hev, .inl rfl⟩ hfind hbefore hsame
  exact ⟨hbefore, hafter⟩

/-- An inserted row is there. -/
theorem Deployment.Reaches.inserted (h : D.Reaches allow orders g) {ev : Effect} (hev : ev ∈ g.history)
    {i : InsertOrders} (hreply : ev.reply = ⟨.insertOrder i, some ()⟩) :
    ev.after.orders.find i.id = some i.row := by
  obtain ⟨_, e, ha⟩ := h.event hev
  rw [hreply] at ha
  rcases answer_insertOrder ha with ⟨hnone, _⟩ | ⟨t, _, ht, hafter⟩
  · exact absurd hnone (by simp)
  · rw [hafter]
    exact ((OrdersTable.find_insert ht i.id).2).trans (if_pos rfl)

/-- **The response to a write of an order reads back exactly if the row was as the handler assumed.** -/
theorem Deployment.Reaches.readsBack_iff (h : D.Reaches allow orders g) {pid : Nat} {p : Process}
    (hp : g.procs[pid]? = some p) {target : Route} {ev : Effect} (hev : ev ∈ g.history) {resp : Response}
    (hwrote : Announced p.past target ev.reply resp) :
    ReadsBack ev.after resp ↔ AsAssumed target ev.before := by
  generalize hreply : ev.reply = reply at hwrote
  cases hwrote with
  | @created i text hblob =>
    refine iff_of_true ?_ trivial
    have hfind := h.inserted hev hreply
    refine ⟨_, _, (getOrder_alone (hexDecode_hexEncode i.id) hfind).mpr ⟨isI64_one, rfl, rfl⟩, ?_⟩
    exact ⟨by simp [InsertOrders.row, base64Decode_base64Encode, hblob], rfl, rfl, rfl, rfl⟩
  | @updated id text row blob n hid hread hblob hn =>
    obtain ⟨hbefore, hafter⟩ := h.updated hp hread hev hreply hn rfl rfl
    have hassumed : AsAssumed (.updateOrder id) ev.before ↔
        row.hasDispute = 0 ∧ IsI64 (row.version + 1) := exists_row_iff hid hbefore
    rw [hassumed]
    constructor
    · rintro ⟨read, s', hread, hsame⟩
      obtain ⟨hversion, _, rfl⟩ := (getOrder_alone hid hafter).mp hread
      exact ⟨by simpa [orderWrite, UpdateOrders.set] using hsame.hasDispute, hversion⟩
    · rintro ⟨hflag, hversion⟩
      refine ⟨_, _, (getOrder_alone hid hafter).mpr ⟨hversion, rfl, rfl⟩, ?_⟩
      exact ⟨by simp [orderWrite, UpdateOrders.set, base64Decode_base64Encode, hblob], rfl, rfl, rfl,
        by simp [orderWrite, UpdateOrders.set, hflag]⟩
  | @disputeUpdated id text row blob n hid hread hblob hn =>
    obtain ⟨hbefore, hafter⟩ := h.updated hp hread hev hreply hn rfl rfl
    have hassumed : AsAssumed (.updateDispute id) ev.before ↔
        row.hasDispute ≠ 0 ∧ IsI64 (row.version + 1) := exists_row_iff hid hbefore
    rw [hassumed]
    constructor
    · rintro ⟨read, s', hread, _⟩
      obtain ⟨hversion, hflag, _, _⟩ := (getDispute_alone hid hafter).mp hread
      exact ⟨hflag, hversion⟩
    · rintro ⟨hflag, hversion⟩
      refine ⟨_, _, (getDispute_alone hid hafter).mpr ⟨hversion, hflag, rfl, rfl⟩, ?_⟩
      exact ⟨by simp [disputeWrite, UpdateOrders.set, base64Decode_base64Encode, hblob], rfl, rfl⟩

end Reaches

/-! ## Listings -/

namespace Listings

structure ListingResponse.Same (r r' : ListingResponse) : Prop where
  blob : hexDecode r.clientEncryptedBlob = hexDecode r'.clientEncryptedBlob
  searchToken : r.searchToken.map hexDecode = r'.searchToken.map hexDecode
  status : r.status = r'.status
  currency : r.currency = r'.currency
  dayBucket : r.dayBucket = r'.dayBucket
  version : r.version = r'.version

/-- A response agrees with the read of the same id in `s`, whoever reads. -/
def ReadsBack (s : Shared) : Response → Prop
  | .listing resp => ∀ key, ∃ read s',
      server.solo {} (getListing key resp.id) s = some (.ok read, s') ∧ read.Same resp
  | _ => False

/-- `get_listing` in a state that has the listing. -/
theorem getListing_alone {s : Shared} {key : Bytes} {id : String} {b : Bytes} {row : Listing}
    (hid : hexDecode id = some b) (hfind : s.listings.find b = some row) {read : ListingResponse}
    {s' : Shared} :
    server.solo {} (getListing key id) s = some (.ok read, s') ↔
      IsI64 row.version ∧ s' = s ∧ read = Listing.toResponse row id := by
  have hread : server.answer (.selectListing b) {} s = some ((readListing row).map some, s) := by
    simp [server, hfind]
  unfold getListing
  rw [hid]
  change server.solo {} (exec (.selectListing b) >>= _) s = _ ↔ _
  rw [solo_bind_ok (solo_call hread)]
  by_cases hversion : IsI64 row.version
  · have hrow : readListing row = some row := if_pos hversion
    rw [hrow]
    simp only [hversion, true_and]
    constructor
    · intro h
      cases h
      exact ⟨rfl, rfl⟩
    · rintro ⟨rfl, rfl⟩
      rfl
  · have hrow : readListing row = none := if_neg hversion
    rw [hrow]
    exact iff_of_false (fun h => by cases h) fun h => hversion h.1

/-- The call writes to the table. -/
def isWrite (c : Call) : Bool :=
  match c with
  | .insertListing _ => true
  | .updateListings _ => true
  | _ => false

/-- The writes of process `pid`. -/
def writesOf (pid : Nat) (l : List Effect) : List Effect :=
  (l.filter fun ev => ev.pid = pid).filter fun ev => isWrite ev.reply.1

theorem writesOf_reply (pid : Nat) (l : List Effect) :
    (writesOf pid l).map Event.reply = (callsOf pid l).filter fun reply => isWrite reply.1 := by
  rw [callsOf, List.filter_map]
  rfl

/-- What the two handlers have written when they answer, after the calls `past`. -/
inductive Announced (past : Past) : Job → Reply Server → Response → Prop
  | created {key : Bytes} {req : CreateListingRequest} {i : InsertListing} {text : String}
    {token : Option String} (hblob : hexDecode text = some i.encryptedListingBlob)
    (htoken : token.map hexDecode = i.searchToken.map some) :
    Announced past (.createListing key req) ⟨.insertListing i, some ()⟩
      (.listing ⟨hexEncode i.id, text, token, i.status, i.currency, i.dayBucket, 1⟩)
  | updated {key : Bytes} {id : String} {req : UpdateListingRequest} {text : String}
    {token : Option String} {u : UpdateListings} {searchToken : Option Bytes} {currency : String}
    {time : Int64} {n : Nat} (hid : hexDecode id = some u.whereId)
    (hblob : hexDecode text = some u.encryptedListingBlob)
    (htoken : token.map hexDecode = searchToken.map some) (hset : u.searchToken = some searchToken)
    (hcurrency : u.currency = some currency) (hn : n ≠ 0) (hnow : ∀ t, ⟨.now, t⟩ ∈ past ↔ t = time) :
    Announced past (.updateListing key id req) ⟨.updateListings u, some n⟩
      (.listing ⟨id, text, token, u.status, currency, floorTimestamp6h time, u.whereVersion + 1⟩)

/-- The jobs that `Announced` is about. -/
def Job.announces : Job → Bool
  | .createListing .. => true
  | .updateListing .. => true
  | _ => false

/-- The sequence rule for a first part that makes no call. -/
theorem spec_still_onOk {α β : Type} {P : Past → Call → Prop} {R : Past → β → Prop} {x : Program α}
    {f : α → Program β} {past : Past} (hx : x.result.isSome)
    (hf : ∀ a, x.result = some (.ok a) → Spec server.May P (OnOk R) past (f a)) :
    Spec server.May P (OnOk R) past (x >>= f) := by
  cases x with
  | ret a => exact hf a rfl
  | fail e => trivial
  | step c k => exact absurd hx (by simp [result])

theorem decodeBlob_ok {text : String} {blob : Bytes}
    (h : (decodeBlob text).result = some (.ok blob)) : hexDecode text = some blob := by
  obtain ⟨b, hb, h⟩ := result_bind_ok h
  obtain ⟨_, _, h⟩ := result_bind_ok h
  obtain ⟨_, _, h⟩ := result_bind_ok h
  cases h
  exact result_orFail_ok hb

theorem decodeSearchToken_ok {token : Option String} {bytes : Option Bytes}
    (h : (decodeSearchToken token).result = some (.ok bytes)) :
    token.map hexDecode = bytes.map some := by
  cases token with
  | none =>
    cases h
    rfl
  | some hex =>
    obtain ⟨b, hb, h⟩ := result_bind_ok h
    obtain ⟨_, _, h⟩ := result_bind_ok h
    cases h
    exact congrArg some (result_orFail_ok hb)

/-- The job has made one write, and announced it. -/
def AnnouncedOnce (j : Job) (past : Past) (response : Response) : Prop :=
  ∃ reply, (past.filter fun r => isWrite r.1) = [reply] ∧ Announced past j reply response

theorem createListing_wrote (key : Bytes) (req : CreateListingRequest) :
    Spec server.May (fun _ _ => True) (OnOk fun past resp =>
      AnnouncedOnce (.createListing key req) past (.listing resp)) [] (createListing key req) := by
  unfold createListing
  refine spec_still_onOk (decodeBlob_result _) fun blob hblob => ?_
  refine spec_still_onOk (decodeSearchToken_result _) fun token htoken => ?_
  refine spec_still_onOk (validateLabel_result _ _) fun status _ => ?_
  refine spec_still_onOk (validateLabel_result _ _) fun currency _ => ?_
  simp only [spec_orFail_bind, spec_ensure_bind, spec_call_bind, spec_pure, onOk_ok, onOk_error,
    implies_true, true_and]
  intro fresh _ _ time _ listingId _ done _ _ hdone
  subst hdone
  exact ⟨_, rfl, .created (i := ⟨listingId, blob, floorTimestamp6h time, token, status, currency⟩)
    (decodeBlob_ok hblob) (decodeSearchToken_ok htoken)⟩

theorem updateListing_wrote (key : Bytes) (id : String) (req : UpdateListingRequest) :
    Spec server.May (fun _ _ => True) (OnOk fun past resp =>
      AnnouncedOnce (.updateListing key id req) past (.listing resp)) [] (updateListing key id req) := by
  unfold updateListing
  rw [spec_orFail_bind]
  refine ⟨fun _ => trivial, fun b hid => ?_⟩
  refine spec_still_onOk (decodeBlob_result _) fun blob hblob => ?_
  refine spec_still_onOk (decodeSearchToken_result _) fun token htoken => ?_
  refine spec_still_onOk (validateOptLabel_result _ _) fun status _ => ?_
  refine spec_still_onOk (validateOptLabel_result _ _) fun currency _ => ?_
  simp only [spec_orFail_bind, spec_ensure_bind, spec_call_bind, spec_pure, onOk_ok, onOk_error,
    implies_true, true_and]
  intro fresh _ _ current _ found _ row _ affected _ n hn hne time _
  subst hn
  have hnow : ∀ (t : Int64), (⟨.now, t⟩ : Reply Server) ∈ ([⟨.insertUpdateNonce (nonceKey id req.nonce), fresh⟩,
      ⟨.selectListing b, current⟩, ⟨.updateListings ⟨blob, some token, status.getD row.status,
        some (currency.getD row.currency), b, row.version⟩, some n⟩, ⟨.now, time⟩] : Past) ↔ t = time := by
    simp
  exact ⟨_, rfl, .updated hid (decodeBlob_ok hblob) (decodeSearchToken_ok htoken) rfl rfl
    (of_decide_eq_true hne) hnow⟩

theorem program_wrote (worker : AppState) (j : Job) :
    Spec server.May (fun _ _ => True) (OnOk fun past resp => j.announces = true → AnnouncedOnce j past resp) []
      (program worker j) := by
  have hother (h : j.announces = false) {x : Program Response} :
      Spec server.May (fun _ _ => True) (OnOk fun past resp => j.announces = true → AnnouncedOnce j past resp)
        [] x := by
    refine spec_of_forall (fun _ _ => trivial) fun past result => ?_
    cases result with
    | error _ => trivial
    | ok resp => exact fun hj => absurd (h.symm.trans hj) (by simp)
  cases j with
  | createListing key req => exact spec_seq_onOk (createListing_wrote key req) fun _ _ _ h _ => h
  | updateListing key id req => exact spec_seq_onOk (updateListing_wrote key id req) fun _ _ _ h _ => h
  | _ => exact hother rfl

/-- What `update_listing` assumes of the row that it writes to: its bucket is that of the clock. -/
def AsAssumed : Job → Past → Shared → Prop
  | .updateListing _ id _, past, s => ∃ b row time, hexDecode id = some b ∧
      s.listings.find b = some row ∧ ⟨.now, time⟩ ∈ past ∧ row.dayBucket = floorTimestamp6h time ∧
      IsI64 (row.version + 1)
  | _, _, _ => True

section Reaches

variable {worker : AppState} {listings : ListingsTable} {g : System}

theorem Reaches.answered (h : Reaches worker listings g) {ev : Effect} (hev : ev ∈ g.history) :
    ∃ e, server.answer ev.reply.1 e ev.before = some (ev.reply.2, ev.after) :=
  (Reachable.event (P := fun _ _ _ => True) (Q := fun _ _ _ => True)
    (fun _ _ _ => spec_of_forall (fun _ _ => trivial) fun _ _ => trivial) h ev hev).2

/-- A request that has been answered has made one write, and has announced it. -/
theorem Reaches.wroteOnce (h : Reaches worker listings g) {pid : Nat} {p : Process}
    (hp : g.procs[pid]? = some p) (hjob : p.job.announces = true) {resp : Response}
    (hr : p.prog.result = some (.ok resp)) :
    ∃ ev ∈ g.history, writesOf pid g.history = [ev] ∧ Announced p.past p.job ev.reply resp := by
  obtain ⟨reply, hwrites, hwrote⟩ := Reachable.post (fun _ j _ => program_wrote worker j) h
    (List.mem_of_getElem? hp) hr hjob
  have hpast : p.past = callsOf pid g.history := Reachable.past_eq h hp
  rw [hpast, ← writesOf_reply] at hwrites
  obtain ⟨ev, rest, hev, hreply, hnil⟩ := List.map_eq_cons_iff.mp hwrites
  obtain rfl := List.map_eq_nil_iff.mp hnil
  have hmem : ev ∈ writesOf pid g.history := by simp [hev]
  exact ⟨ev, List.mem_of_mem_filter (List.mem_of_mem_filter hmem), hev, hreply ▸ hwrote⟩

theorem Reaches.inserted (h : Reaches worker listings g) {ev : Effect} (hev : ev ∈ g.history)
    {i : InsertListing} (hreply : ev.reply = ⟨.insertListing i, some ()⟩) :
    ev.after.listings.find i.id = some i.row := by
  obtain ⟨e, ha⟩ := h.answered hev
  rw [hreply] at ha
  simp only [server] at ha
  split at ha
  · exact absurd ha (by simp)
  · split at ha
    · rename_i t ht
      obtain ⟨_, hafter⟩ := Prod.mk.inj (Option.some.inj ha)
      rw [← hafter]
      exact ((Table.find_insert ht i.row.id).2).trans (if_pos rfl)
    · exact absurd ha (by simp)

/-- An update that has taken effect has found the row in the version that it names. -/
theorem Reaches.updated (h : Reaches worker listings g) {ev : Effect} (hev : ev ∈ g.history)
    {u : UpdateListings} {n : Nat} (hreply : ev.reply = ⟨.updateListings u, some n⟩) (hn : n ≠ 0) :
    ∃ row, ev.before.listings.find u.whereId = some row ∧ row.version = u.whereVersion ∧
      ev.after.listings.find u.whereId = some (u.set row) := by
  obtain ⟨e, ha⟩ := h.answered hev
  rw [hreply] at ha
  simp only [server] at ha
  split at ha
  · exact absurd ha (by simp)
  obtain ⟨hcount, hafter⟩ := Prod.mk.inj (Option.some.inj ha)
  rw [Table.affected_of_key fun l => UpdateListings.id_of_matches] at hcount
  cases hfind : ev.before.listings.find u.whereId with
  | none =>
    rw [hfind] at hcount
    exact absurd (Option.some.inj hcount).symm hn
  | some row =>
    rw [hfind] at hcount
    cases hmatch : u.toUpdate.matchesRow row with
    | false =>
      rw [Option.any_some, hmatch] at hcount
      exact absurd (Option.some.inj hcount).symm hn
    | true =>
      refine ⟨row, rfl, (of_decide_eq_true hmatch).2, ?_⟩
      rw [← hafter]
      change (ev.before.listings.update u.toUpdate).find u.whereId = _
      rw [Table.find_update, hfind, Option.map_some, Table.Update.apply, if_pos hmatch]
      rfl

theorem map_hexEncode_hexDecode (token : Option Bytes) :
    (token.map hexEncode).map hexDecode = token.map some := by
  cases token with
  | none => rfl
  | some b => exact congrArg some (hexDecode_hexEncode b)

/-- **The response to a write of a listing reads back exactly if the row was as the handler assumed.** -/
theorem Reaches.readsBack_iff (h : Reaches worker listings g) {past : Past} {j : Job} {ev : Effect}
    (hev : ev ∈ g.history) {resp : Response} (hwrote : Announced past j ev.reply resp) :
    ReadsBack ev.after resp ↔ AsAssumed j past ev.before := by
  generalize hreply : ev.reply = reply at hwrote
  cases hwrote with
  | @created key req i text token hblob htoken =>
    refine iff_of_true (fun key => ?_) trivial
    have hfind := h.inserted hev hreply
    refine ⟨_, _, (getListing_alone (hexDecode_hexEncode i.id) hfind).mpr ⟨isI64_one, rfl, rfl⟩, ?_⟩
    exact ⟨(hexDecode_hexEncode _).trans hblob.symm, (map_hexEncode_hexDecode _).trans htoken.symm, rfl,
      rfl, rfl, rfl⟩
  | @updated key id req text token u searchToken currency time n hid hblob htoken hset hcurrency hn hnow =>
    obtain ⟨row, hbefore, hversion, hafter⟩ := h.updated hev hreply hn
    have hassumed : AsAssumed (.updateListing key id req) past ev.before ↔
        row.dayBucket = floorTimestamp6h time ∧ IsI64 (row.version + 1) := by
      constructor
      · rintro ⟨b, row', time', hb, hrow, htime, hassumed⟩
        obtain rfl := Option.some.inj (hid.symm.trans hb)
        obtain rfl := Option.some.inj (hbefore.symm.trans hrow)
        obtain rfl := (hnow time').mp htime
        exact hassumed
      · exact fun hassumed => ⟨_, row, time, hid, hbefore, (hnow time).mpr rfl, hassumed⟩
    rw [hassumed]
    constructor
    · intro hread
      obtain ⟨read, s', hread, hsame⟩ := hread []
      obtain ⟨hi64, _, rfl⟩ := (getListing_alone hid hafter).mp hread
      exact ⟨hsame.dayBucket, hi64⟩
    · rintro ⟨hbucket, hi64⟩ key'
      refine ⟨_, _, (getListing_alone hid hafter).mpr ⟨hi64, rfl, rfl⟩, ?_⟩
      refine ⟨(hexDecode_hexEncode _).trans hblob.symm, ?_, rfl, ?_, hbucket, ?_⟩
      · change ((u.searchToken.getD row.searchToken).map hexEncode).map hexDecode = _
        rw [hset, map_hexEncode_hexDecode]
        exact htoken.symm
      · change u.currency.getD row.currency = currency
        rw [hcurrency]
        rfl
      · change row.version + 1 = u.whereVersion + 1
        rw [hversion]

end Reaches

end Listings

/-! ## Both systems -/

/-- **Write responses match reads exactly where the handler's assumption holds.** Whatever `create_order`,
`update_order`, `update_dispute`, `create_listing` and `update_listing` answer, in the state after their
one write the same id reads back as it was announced if and only if the row was as assumed: always for a
new row; for `update_order`, if the order had no dispute; for `update_dispute`, if it had one; for
`update_listing`, if its bucket is that of the clock. -/
theorem responses_read_back_iff {D : Deployment} {allow : System → Job → Prop} {orders : OrdersTable}
    {g : System} {worker : AppState} {listings : ListingsTable} {gl : Listings.System}
    (h : D.Reaches allow orders g) (hl : Listings.Reaches worker listings gl) :
    (∀ pid p r target resp, g.procs[pid]? = some p → p.job = .request r →
      route r.method r.path = some target → target.announces = true →
      p.prog.result = some (.ok resp) →
      ∃ ev, writesOf pid g.history = [ev] ∧ (ReadsBack ev.after resp ↔ AsAssumed target ev.before)) ∧
    ∀ pid p resp, gl.procs[pid]? = some p → p.job.announces = true → p.prog.result = some (.ok resp) →
      ∃ ev, Listings.writesOf pid gl.history = [ev] ∧
        (Listings.ReadsBack ev.after resp ↔ Listings.AsAssumed p.job p.past ev.before) := by
  constructor
  · intro pid p r target resp hp hjob hroute htarget hr
    obtain ⟨ev, hev, hwrites, hwrote⟩ := h.wroteOnce hp hjob hroute htarget hr
    exact ⟨ev, hwrites, h.readsBack_iff hp hev hwrote⟩
  · intro pid p resp hp hjob hr
    obtain ⟨ev, hev, hwrites, hwrote⟩ := Listings.Reaches.wroteOnce hl hp hjob hr
    exact ⟨ev, hwrites, Listings.Reaches.readsBack_iff hl hev hwrote⟩

open Sample Listings.ListingSample in
/-- A dispute is opened and updated, beside a run of the listings. -/
theorem responses_read_back_sample :
    ∃ g gl, disputeDeployment.Reaches anyJob (orders []) g ∧
      Listings.Reaches worker (Table.empty Listing.id) gl ∧
      ∃ resp ev, writesOf 1 g.history = [ev] ∧
        (ReadsBack ev.after resp ↔ AsAssumed (.updateDispute orderId) ev.before) := by
  obtain ⟨g, hg, hcheck⟩ := amendTrace.reaches
  obtain ⟨gl, hgl, _⟩ := run_stores
  obtain ⟨hok, _⟩ := Bool.and_eq_true_iff.mp hcheck
  obtain ⟨p, hp, hjob, resp, hr⟩ := succeeded_iff.mp hok
  obtain ⟨ev, hwrites, hiff⟩ :=
    (responses_read_back_iff hg hgl).1 1 p amendRequest _ resp hp hjob amend_route rfl hr
  exact ⟨g, gl, hg, hgl, resp, ev, hwrites, hiff⟩

open Sample in
/-- **The dispute of an order that has none is updated**, and `get_dispute` does not find it. -/
theorem updated_dispute_unread :
    ∃ g p resp ev, disputeDeployment.Reaches anyJob (orders []) g ∧ g.procs[0]? = some p ∧
      p.job = .request amendRequest ∧ p.prog.result = some (.ok resp) ∧ writesOf 0 g.history = [ev] ∧
      ¬ ReadsBack ev.after resp := by
  obtain ⟨g, hg, hcheck⟩ := noDisputeTrace.reaches
  obtain ⟨hok, hflags⟩ := Bool.and_eq_true_iff.mp hcheck
  obtain ⟨p, hp, hjob, resp, hr⟩ := succeeded_iff.mp hok
  obtain ⟨ev, hev, hwrites, hwrote⟩ := hg.wroteOnce hp hjob amend_route rfl hr
  refine ⟨g, p, resp, ev, hg, hp, hjob, hr, hwrites, fun hread => ?_⟩
  obtain ⟨b, row, _, hfind, hflag, _⟩ := (hg.readsBack_iff hp hev hwrote).mp hread
  have hmem := (OrdersTable.find_some hfind).1
  exact hflag (of_decide_eq_true (List.all_eq_true.mp (List.all_eq_true.mp hflags ev hev) row hmem))

end TorMarketplace
