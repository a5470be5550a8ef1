import TorMarketplace.Proof.ReadBack

/-!
# What a submission replaces

A client reads the blob of a chat, a dispute or a listing, changes it, and submits the new one. The
handler reads the row a second time, for its version, and its write is conditional on that version. So a
submission replaces what the client has read exactly if that is still there when the handler reads the row
(`submission_replaces_read_iff`); what another client has submitted in between is lost
(`acknowledged_edit_lost`).
-/

namespace TorMarketplace

open Encoding Interleave Prog Versioned

/-- The two calls that are left of a list, in the list. -/
theorem exists_of_filter_pair {α : Type} {p : α → Bool} {l : List α} {a b : α}
    (h : l.filter p = [a, b]) : ∃ l₁ l₂ l₃, l = l₁ ++ a :: l₂ ++ b :: l₃ := by
  obtain ⟨l₁, rest, rfl, -, -, hrest⟩ := List.filter_eq_cons_iff.mp h
  obtain ⟨l₂, l₃, rfl, -⟩ := List.filter_eq_cons_iff.mp hrest
  exact ⟨l₁, l₂, l₃, by simp⟩

/-! ## Chats and disputes -/

/-- The blobs of an order that clients read, change and submit. -/
inductive SharedBlob where
  | chat
  | dispute
  deriving DecidableEq

namespace SharedBlob

def column : SharedBlob → Order → Option Bytes
  | .chat => Order.chatEncryptedBlob
  | .dispute => Order.disputeClientBlob

/-- The blob of the order, as a read reports it. -/
def text (kind : SharedBlob) (id : Bytes) (s : Shared) : Option String :=
  ((s.orders.find id).bind kind.column).map base64Encode

end SharedBlob

/-- The blob that a request reads. -/
def Route.reads : Route → Option (SharedBlob × Bytes)
  | .getChat orderId => (hexDecode orderId).map (Prod.mk .chat)
  | .getDispute id => (hexDecode id).map (Prod.mk .dispute)
  | _ => none

/-- The blob that a request replaces by one that its client has changed. -/
def Route.submits : Route → Option (SharedBlob × Bytes)
  | .updateChat orderId => (hexDecode orderId).map (Prod.mk .chat)
  | .updateDispute id => (hexDecode id).map (Prod.mk .dispute)
  | _ => none

/-- The blob in a response. -/
def Response.blobText : Response → Option String
  | .chat resp => resp.chatEncryptedBlob
  | .dispute resp => resp.clientEncryptedBlob
  | _ => none

/-- The request of `p` was answered with `resp`. -/
def Served (p : Process) (target : Route) (resp : Response) : Prop :=
  ∃ r, p.job = .request r ∧ route r.method r.path = some target ∧ p.prog.result = some (.ok resp)

/-- A client has read `text`, and process `pid` has accepted what it has submitted instead. -/
structure EditCycle (kind : SharedBlob) (id : Bytes) (g : System) (text : Option String) (pid : Nat) :
    Prop where
  read : ∃ p ∈ g.procs, ∃ target resp, Served p target resp ∧ target.reads = some (kind, id) ∧
    resp.blobText = text
  submitted : ∃ p target resp, g.procs[pid]? = some p ∧ Served p target resp ∧
    target.submits = some (kind, id)

/-- The call reads a row, or writes to the table. -/
def isRowCall (c : Call) : Bool := isSelect c || isWrite c

/-- The calls of process `pid` on the table of the orders. -/
def rowCallsOf (pid : Nat) (l : List Effect) : List Effect :=
  (l.filter fun ev => ev.pid = pid).filter fun ev => isRowCall ev.reply.1

theorem rowCallsOf_reply (pid : Nat) (l : List Effect) :
    (rowCallsOf pid l).map Event.reply = (callsOf pid l).filter fun reply => isRowCall reply.1 := by
  rw [callsOf, List.filter_map]
  rfl

/-- A read of the row `id`, and a write of it that has found the version read. -/
inductive ReadThenWrite (id : Bytes) : List (Reply Server) → Prop
  | intro {row : Order} {u : UpdateOrders} {n : Nat} (hrow : row.id = id) (hid : u.whereId = row.id)
    (hversion : u.whereVersion = some row.version) (hn : n ≠ 0) :
    ReadThenWrite id [⟨.selectOrder row.id, some (some row)⟩, ⟨.updateOrders u, some n⟩]

section Handlers

variable {past : Past}

theorem updateChat_rowCalls (orderId : String) (req : SendMessageRequest)
    (hpast : (past.filter fun reply => isRowCall reply.1) = []) :
    Spec server.May (fun _ _ => True) (OnOk fun past' _ => ∀ id, hexDecode orderId = some id →
      ReadThenWrite id (past'.filter fun reply => isRowCall reply.1)) past (updateChat orderId req) := by
  simp only [updateChat, spec_orFail_bind, spec_ensure_bind, spec_call_bind, spec_pure, onOk_ok,
    onOk_error, implies_true, true_and]
  intro b hid blob _ _ current hcurrent found hfound row hrow fresh _ _ affected _ n hn hne id hid'
  subst_vars
  obtain ⟨rfl, _⟩ := may_selectOrder hcurrent
  obtain rfl := Option.some.inj (hid.symm.trans hid')
  simp only [List.filter_append, hpast]
  exact .intro rfl rfl rfl (of_decide_eq_true hne)

theorem updateDispute_rowCalls (idText : String) (req : UpdateDisputeRequest)
    (hpast : (past.filter fun reply => isRowCall reply.1) = []) :
    Spec server.May (fun _ _ => True) (OnOk fun past' _ => ∀ id, hexDecode idText = some id →
      ReadThenWrite id (past'.filter fun reply => isRowCall reply.1)) past (updateDispute idText req) := by
  simp only [updateDispute, spec_orFail_bind, spec_ensure_bind, spec_call_bind, spec_pure, onOk_ok,
    onOk_error, implies_true, true_and]
  intro b hid blob _ _ fresh _ _ current hcurrent found hfound row hrow affected _ n hn hne id hid'
  subst_vars
  obtain ⟨rfl, _⟩ := may_selectOrder hcurrent
  obtain rfl := Option.some.inj (hid.symm.trans hid')
  simp only [List.filter_append, hpast]
  exact .intro rfl rfl rfl (of_decide_eq_true hne)

theorem handle_rowCalls (st : AppState) (auth : Option Authed) {target : Route} (body : Body)
    {kind : SharedBlob} {id : Bytes} (hsubmits : target.submits = some (kind, id))
    (hpast : (past.filter fun reply => isRowCall reply.1) = []) :
    Spec server.May (fun _ _ => True)
      (OnOk fun past' _ => ReadThenWrite id (past'.filter fun reply => isRowCall reply.1)) past
      (handle st auth target body) := by
  unfold handle
  split
  case h_6 idText req =>
    obtain ⟨b, hid, heq⟩ := Option.map_eq_some_iff.mp hsubmits
    obtain ⟨-, rfl⟩ := Prod.mk.inj heq
    simp only [spec_orFail_bind, onOk_error, implies_true, true_and]
    exact fun _ _ => spec_seq_onOk (updateDispute_rowCalls idText req hpast) fun _ _ _ h => h b hid
  case h_9 orderId req =>
    obtain ⟨b, hid, heq⟩ := Option.map_eq_some_iff.mp hsubmits
    obtain ⟨-, rfl⟩ := Prod.mk.inj heq
    simp only [spec_orFail_bind, onOk_error, implies_true, true_and]
    exact fun _ _ => spec_seq_onOk (updateChat_rowCalls orderId req hpast) fun _ _ _ h => h b hid
  case h_15 => exact trivial
  all_goals exact absurd hsubmits (by simp [Route.submits])

theorem handleRequest_rowCalls (st : AppState) (r : Request) :
    Spec server.May (fun _ _ => True) (OnOk fun past' _ => ∀ target kind id,
      route r.method r.path = some target → target.submits = some (kind, id) →
        ReadThenWrite id (past'.filter fun reply => isRowCall reply.1)) [] (handleRequest st r) := by
  refine handleRequest_of_handle st r (fun _ _ _ => trivial) fun past auth target hlayers htarget => ?_
  have hpast : (past.filter fun reply => isRowCall reply.1) = [] :=
    filter_layers (fun c hc => by cases c <;> first | rfl | exact Bool.noConfusion hc) hlayers
  cases hsubmits : target.submits with
  | some submitted =>
    refine spec_mono (fun _ _ h => h) (fun past' result h => ?_)
      (handle_rowCalls st auth r.body hsubmits hpast)
    cases result with
    | error _ => trivial
    | ok response =>
      intro target' kind id hroute hsubmits'
      obtain rfl := Option.some.inj (htarget.symm.trans hroute)
      obtain rfl := Option.some.inj (hsubmits.symm.trans hsubmits')
      exact h
  | none =>
    refine spec_of_forall (fun _ _ => trivial) fun past' result => ?_
    cases result with
    | error _ => trivial
    | ok response =>
      intro target' kind id hroute hsubmits'
      obtain rfl := Option.some.inj (htarget.symm.trans hroute)
      exact absurd (hsubmits.symm.trans hsubmits') (by simp)

end Handlers

/-- The handler of a submission makes two calls on the table, and finds the same row with both. -/
theorem Deployment.Reaches.submission {D : Deployment} {allow : System → Job → Prop}
    {orders : OrdersTable} {g : System} (h : D.Reaches allow orders g) {kind : SharedBlob} {id : Bytes}
    {text : Option String} {pid : Nat} (hcycle : EditCycle kind id g text pid) :
    ∃ read write, rowCallsOf pid g.history = [read, write] ∧ updatesRow id write.reply = true ∧
      write.before.orders.find id = read.before.orders.find id := by
  obtain ⟨p, target, resp, hp, ⟨r, hjob, hroute, hr⟩, hsubmits⟩ := hcycle.submitted
  have hcalls := h.post_request (handleRequest_rowCalls D.api) (List.mem_of_getElem? hp) hjob hr target kind
    id hroute hsubmits
  have hpast : p.past = callsOf pid g.history := Reachable.past_eq h hp
  generalize hreplies : (p.past.filter fun reply => isRowCall reply.1) = replies at hcalls
  have hmap : (rowCallsOf pid g.history).map Event.reply = replies := by
    rw [rowCallsOf_reply, ← hpast, hreplies]
  cases hcalls with
  | @intro row u n hrow hid hversion hn =>
    obtain ⟨read, rest, hcalls, hread, hrest⟩ := List.map_eq_cons_iff.mp hmap
    obtain ⟨write, rest', rfl, hwrite, hnil⟩ := List.map_eq_cons_iff.mp hrest
    obtain rfl := List.map_eq_nil_iff.mp hnil
    have hmem : ∀ ev ∈ rowCallsOf pid g.history, ev ∈ g.history := fun ev hev =>
      List.mem_of_mem_filter (List.mem_of_mem_filter hev)
    have hreadMem := hmem read (by simp [hcalls])
    have hwriteMem := hmem write (by simp [hcalls])
    have hrowRead : ⟨.selectOrder row.id, some (some row)⟩ ∈ p.past := by
      refine List.mem_of_mem_filter (p := fun reply => isRowCall reply.1) ?_
      simp [hreplies]
    obtain ⟨hbefore, -⟩ := h.updated hp hrowRead hwriteMem hwrite hn hid hversion
    have hfind := h.select_finds hreadMem hread
    subst hrow
    refine ⟨read, write, hcalls, ?_, hbefore.trans hfind.symm⟩
    exact updatesRow_iff.mpr ⟨u, effectiveUpdate_eq_some.mpr ⟨n, hn, hwrite⟩, hid⟩

/-! ## Listings -/

namespace Listings

/-- The blob of a listing, as `get_listing` reports it. -/
def blobText (id : Bytes) (s : Shared) : Option String :=
  (s.listings.find id).map fun l => hexEncode l.encryptedListingBlob

/-- A client has read `text`, and process `pid` has accepted what it has submitted instead. -/
structure EditCycle (id : Bytes) (g : System) (text : String) (pid : Nat) : Prop where
  read : ∃ p ∈ g.procs, ∃ key hex resp, p.job = .getListing key hex ∧ hexDecode hex = some id ∧
    p.prog.result = some (.ok (.listing resp)) ∧ resp.clientEncryptedBlob = text
  submitted : ∃ p key hex req resp, g.procs[pid]? = some p ∧ p.job = .updateListing key hex req ∧
    hexDecode hex = some id ∧ p.prog.result = some (.ok resp)

/-- The call reads a row, or writes to the table. -/
def isRowCall (c : Call) : Bool :=
  match c with
  | .selectListing _ => true
  | c => isWrite c

/-- The calls of process `pid` on the table of the listings. -/
def rowCallsOf (pid : Nat) (l : List Effect) : List Effect :=
  (l.filter fun ev => ev.pid = pid).filter fun ev => isRowCall ev.reply.1

theorem rowCallsOf_reply (pid : Nat) (l : List Effect) :
    (rowCallsOf pid l).map Event.reply = (callsOf pid l).filter fun reply => isRowCall reply.1 := by
  rw [callsOf, List.filter_map]
  rfl

/-- A read of the listing `id`, and a write of it that has found the version read. -/
inductive ReadThenWrite (id : Bytes) : List (Reply Server) → Prop
  | intro {row : Listing} {u : UpdateListings} {n : Nat} (hid : u.whereId = id)
    (hversion : u.whereVersion = row.version) (hn : n ≠ 0) :
    ReadThenWrite id [⟨.selectListing id, some (some row)⟩, ⟨.updateListings u, some n⟩]

theorem updateListing_rowCalls (key : Bytes) (hex : String) (req : UpdateListingRequest) :
    Spec server.May (fun _ _ => True) (OnOk fun past _ => ∀ id, hexDecode hex = some id →
      ReadThenWrite id (past.filter fun reply => isRowCall reply.1)) [] (updateListing key hex req) := by
  unfold updateListing
  rw [spec_orFail_bind]
  refine ⟨fun _ => trivial, fun b hid => ?_⟩
  refine spec_still_onOk (decodeBlob_result _) fun blob _ => ?_
  refine spec_still_onOk (decodeSearchToken_result _) fun token _ => ?_
  refine spec_still_onOk (validateOptLabel_result _ _) fun status _ => ?_
  refine spec_still_onOk (validateOptLabel_result _ _) fun currency _ => ?_
  simp only [spec_orFail_bind, spec_ensure_bind, spec_call_bind, spec_pure, onOk_ok, onOk_error,
    implies_true, true_and]
  intro fresh _ _ current _ found hfound row hrow affected _ n hn hne time _ id hid'
  subst_vars
  obtain rfl := Option.some.inj (hid.symm.trans hid')
  exact .intro rfl rfl (of_decide_eq_true hne)

theorem program_rowCalls (worker : AppState) (j : Job) :
    Spec server.May (fun _ _ => True) (OnOk fun past _ => ∀ key hex req id, j = .updateListing key hex req →
      hexDecode hex = some id → ReadThenWrite id (past.filter fun reply => isRowCall reply.1)) []
      (program worker j) := by
  cases j with
  | updateListing key hex req =>
    refine spec_seq_onOk (updateListing_rowCalls key hex req) fun past resp _ h => ?_
    intro key' hex' req' id heq hid
    cases heq
    exact h id hid
  | _ =>
    refine spec_of_forall (fun _ _ => trivial) fun past result => ?_
    cases result with
    | error _ => trivial
    | ok resp => exact fun _ _ _ _ heq => Job.noConfusion heq

/-- **A call is one step of the versioned store of listings.** -/
theorem answer_step {c : Call} {e : Choice} {s s' : Shared} {a : c.Ans}
    (h : server.answer c e s = some (a, s')) :
    Step Listing.version (fun k => (s.listings.find k).isSome ∧ s'.listings.find k ≠ s.listings.find k)
      s.listings.find s'.listings.find := by
  have hsame (heq : s'.listings = s.listings) : Step Listing.version
      (fun k => (s.listings.find k).isSome ∧ s'.listings.find k ≠ s.listings.find k)
      s.listings.find s'.listings.find := by
    rw [heq]
    exact Step.refl fun k hk => hk.2 rfl
  cases c with
  | insertListing i =>
    simp only [server] at h
    split at h
    · exact hsame (by cases h; rfl)
    split at h
    · rename_i t ht
      obtain ⟨-, rfl⟩ := Prod.mk.inj (Option.some.inj h)
      obtain hnew := Table.insert_eq_none.not.mp (by rw [ht]; simp)
      intro k
      have hfind := (Table.find_insert ht k).2
      by_cases hk : k = i.row.id
      · rw [if_pos hk] at hfind
        have hnone : s.listings.find k = none := by simpa [hk] using hnew
        exact .inr ⟨fun hhit => by simp [hnone] at hhit, .inr ⟨hnone, i.row, hfind, rfl⟩⟩
      · rw [if_neg hk] at hfind
        exact .inr ⟨fun hhit => hhit.2 hfind, .inl hfind⟩
    · exact hsame (by cases h; rfl)
  | updateListings u =>
    simp only [server] at h
    split at h
    · exact hsame (by cases h; rfl)
    obtain ⟨-, rfl⟩ := Prod.mk.inj (Option.some.inj h)
    intro k
    have hfind : (s.listings.update u.toUpdate).find k = (s.listings.find k).map u.toUpdate.apply :=
      Table.find_update ..
    cases hk : s.listings.find k with
    | none =>
      rw [hk] at hfind
      exact .inr ⟨fun hhit => absurd hhit.1 (by simp [hk]), .inl hfind⟩
    | some l =>
      rw [hk, Option.map_some, Table.Update.apply] at hfind
      split at hfind
      · refine .inl ⟨⟨by rw [hk]; rfl, fun heq => ?_⟩, l, u.set l, rfl, hfind, rfl⟩
        have hversion := congrArg Listing.version (Option.some.inj (hfind.symm.trans (heq.trans hk)))
        exact absurd hversion (by simp [UpdateListings.toUpdate, UpdateListings.set])
      · exact .inr ⟨fun hhit => hhit.2 (hfind.trans hk.symm), .inl hfind⟩
  | _ =>
    refine hsame ?_
    simp only [server] at h
    repeat' split at h
    all_goals first
      | cases h; rfl
      | exact absurd h (by simp)

section Reaches

variable {worker : AppState} {listings : ListingsTable} {g : System}

/-- What a SELECT has reported. -/
theorem Reaches.select_finds (h : Reaches worker listings g) {ev : Effect} (hev : ev ∈ g.history)
    {id : Bytes} {row : Listing} (hreply : ev.reply = ⟨.selectListing id, some (some row)⟩) :
    ev.before.listings.find id = some row ∧ ev.after = ev.before := by
  obtain ⟨e, ha⟩ := h.answered hev
  rw [hreply] at ha
  simp only [server] at ha
  split at ha
  · exact absurd ha (by simp)
  split at ha
  · rename_i l hl
    obtain ⟨hread, hafter⟩ := Prod.mk.inj (Option.some.inj ha)
    unfold readListing at hread
    split at hread
    · obtain rfl := Option.some.inj (Option.some.inj hread)
      exact ⟨hl, hafter.symm⟩
    · exact absurd hread (by simp)
  · exact absurd ha (by simp)

/-- The handler of a submission makes two calls on the table, and finds the same row with both. -/
theorem Reaches.submission (h : Reaches worker listings g) {id : Bytes} {text : String} {pid : Nat}
    (hcycle : EditCycle id g text pid) :
    ∃ read write, rowCallsOf pid g.history = [read, write] ∧
      write.after.listings.find id ≠ write.before.listings.find id ∧
      write.before.listings.find id = read.before.listings.find id := by
  obtain ⟨p, key, hex, req, resp, hp, hjob, hid, hr⟩ := hcycle.submitted
  have hcalls := Reachable.post (fun _ j _ => program_rowCalls worker j) h (List.mem_of_getElem? hp) hr key hex
    req id hjob hid
  have hpast : p.past = callsOf pid g.history := Reachable.past_eq h hp
  rw [hpast, ← rowCallsOf_reply] at hcalls
  generalize hreplies : (rowCallsOf pid g.history).map Event.reply = replies at hcalls
  cases hcalls with
  | @intro row u n hwhere hversion hn =>
    obtain ⟨read, rest, hcalls, hread, hrest⟩ := List.map_eq_cons_iff.mp hreplies
    obtain ⟨write, rest', rfl, hwrite, hnil⟩ := List.map_eq_cons_iff.mp hrest
    obtain rfl := List.map_eq_nil_iff.mp hnil
    obtain ⟨l₁, l₂, l₃, hsplit⟩ := exists_of_filter_pair (l := g.history)
      (p := fun ev => decide (ev.pid = pid) && isRowCall ev.reply.1)
      (by rw [← hcalls, rowCallsOf, List.filter_filter]; simp only [Bool.and_comm])
    obtain ⟨hfind, hsame⟩ := h.select_finds (by simp [hsplit]) hread
    have hmem : write ∈ g.history := by simp [hsplit]
    obtain ⟨row', hbefore, hversion', hafter⟩ := h.updated hmem hwrite hn
    rw [hwhere] at hbefore hafter
    -- the row is known from the read on
    obtain ⟨g₀, hg₀, hhist, hshared, -⟩ := Reachable.upTo h hsplit
    have hknown : Known Listing.version g₀.shared.listings.find id row := by
      refine Reachable.since (K := fun s => Known Listing.version s.listings.find id row) hg₀ hhist
        (Known.of_some (hsame ▸ hfind)) fun e he hknown => ?_
      have hmem₀ : e ∈ g₀.history := by simp [hhist, he]
      obtain ⟨e', ha⟩ := Reaches.answered hg₀ hmem₀
      exact (answer_step ha).known hknown
    obtain rfl : row' = row := hknown.eq (hshared ▸ hbefore) (hversion'.trans hversion)
    refine ⟨read, write, hcalls, fun heq => ?_, hbefore.trans hfind.symm⟩
    rw [hafter, hbefore] at heq
    have := congrArg Listing.version (Option.some.inj heq)
    exact absurd this (by simp [UpdateListings.set])

end Reaches

end Listings

/-! ## Both systems -/

/-- **A submission replaces what its client has read exactly if that is still there when its handler reads
the row.** For chats, disputes and listings, in every interleaving. -/
theorem submission_replaces_read_iff {D : Deployment} {orders : OrdersTable} {g : System}
    {worker : AppState} {listings : ListingsTable} {gl : Listings.System}
    (h : D.Reaches anyJob orders g) (hl : Listings.Reaches worker listings gl) :
    (∀ kind id text pid, EditCycle kind id g text pid →
      ∃ read write, rowCallsOf pid g.history = [read, write] ∧ updatesRow id write.reply = true ∧
        (kind.text id write.before = text ↔ kind.text id read.before = text)) ∧
    ∀ id text pid, Listings.EditCycle id gl text pid →
      ∃ read write, Listings.rowCallsOf pid gl.history = [read, write] ∧
        write.after.listings.find id ≠ write.before.listings.find id ∧
        (Listings.blobText id write.before = some text ↔ Listings.blobText id read.before = some text) := by
  constructor
  · intro kind id text pid hcycle
    obtain ⟨read, write, hcalls, hupdates, hsame⟩ := h.submission hcycle
    have htext : kind.text id write.before = kind.text id read.before := by
      rw [SharedBlob.text, SharedBlob.text, hsame]
    exact ⟨read, write, hcalls, hupdates, by rw [htext]⟩
  · intro id text pid hcycle
    obtain ⟨read, write, hcalls, hchanges, hsame⟩ := Listings.Reaches.submission hl hcycle
    have htext : Listings.blobText id write.before = Listings.blobText id read.before := by
      rw [Listings.blobText, Listings.blobText, hsame]
    exact ⟨read, write, hcalls, hchanges, by rw [htext]⟩

/-! ### An edit that is lost -/

namespace Sample

/-- The message of a client that has read the chat. -/
def answerChat : Request := secondChat.post (.sendMessage ⟨"AQID", "", "n2"⟩)

def cycleTrace : (deployment (loginTables [firstChat, secondChat]) none).Trace anyJob (orders [])
    fun g => ChatSample.answered ⟨orderId, none, 1⟩ g && succeeded 1 answerChat g where
  labels := .spawn (.request ChatSample.readChat) :: acts 0 5 ++
    .spawn (.request answerChat) :: acts 1 6
  allowed _ _ _ := trivial
  passes := by decide +kernel

theorem answerChat_route : route answerChat.method answerChat.path = some (.updateChat orderId) := by
  decide +kernel

end Sample

namespace Listings.ListingSample

def other : UpdateListingRequest := ⟨"cc", none, none, none, "m"⟩

/-- A client reads the listing; another one replaces it; the first submits what it has made of its own
copy. -/
def lostLabels : List (Label Job Choice) :=
  [.spawn (.createListing seller create), .act 0 {}, .act 0 {}, .act 0 { bytes := target }, .act 0 {},
    .spawn (.getListing seller (hexEncode target)), .act 1 {},
    .spawn (.updateListing [2] (hexEncode target) update), .act 2 {}, .act 2 {}, .act 2 {}, .act 2 {},
    .spawn (.updateListing seller (hexEncode target) other), .act 3 {}, .act 3 {}, .act 3 {}, .act 3 {}]

/-- The blob that a request was answered with. -/
def answeredText (p : Process) : Option String :=
  match p.prog.result with
  | some (.ok (.listing resp)) => some resp.clientEncryptedBlob
  | _ => none

theorem answeredText_eq_some {p : Process} {text : String} (h : answeredText p = some text) :
    ∃ resp, p.prog.result = some (.ok (.listing resp)) ∧ resp.clientEncryptedBlob = text := by
  unfold answeredText at h
  split at h
  · rename_i resp hresp
    exact ⟨resp, hresp, Option.some.inj h⟩
  · exact absurd h (by simp)

theorem lostRun_passes : (Config.run server (program worker) lostLabels
    ⟨Shared.initial (Table.empty Listing.id), [], []⟩).any (fun g =>
      g.procs.map (fun p => (p.job, answeredText p)) =
        [(.createListing seller create, some "aa"), (.getListing seller (hexEncode target), some "aa"),
          (.updateListing [2] (hexEncode target) update, some "bb"),
          (.updateListing seller (hexEncode target) other, some "cc")] ∧
      (rowCallsOf 3 g.history).map (fun ev => blobText target ev.before) = [some "bb", some "bb"]) =
        true := by
  decide +kernel

/-- The two clients' cycles, and the blob that the second submission has replaced. -/
theorem lostRun : ∃ g, Reaches worker (Table.empty Listing.id) g ∧ EditCycle target g "aa" 2 ∧
    EditCycle target g "aa" 3 ∧
    (rowCallsOf 3 g.history).map (fun ev => blobText target ev.before) = [some "bb", some "bb"] := by
  obtain ⟨g, hrun, htest⟩ := (Option.any_eq_true _ _).mp lostRun_passes
  obtain ⟨hprocs, hblobs⟩ := of_decide_eq_true htest
  have hproc (pid : Nat) (j : Job) (text : String)
      (h : (g.procs.map fun p => (p.job, answeredText p))[pid]? = some (j, some text)) :
      ∃ p resp, g.procs[pid]? = some p ∧ p.job = j ∧ p.prog.result = some (.ok (.listing resp)) ∧
        resp.clientEncryptedBlob = text := by
    rw [List.getElem?_map] at h
    obtain ⟨p, hp, heq⟩ := Option.map_eq_some_iff.mp h
    obtain ⟨hjob, htext⟩ := Prod.mk.inj heq
    obtain ⟨resp, hresp, hblob⟩ := answeredText_eq_some htext
    exact ⟨p, resp, hp, hjob, hresp, hblob⟩
  have hid : hexDecode (hexEncode target) = some target := hexDecode_hexEncode target
  obtain ⟨p, resp, hp, hjob, hresp, hblob⟩ := hproc 1 _ "aa" (by rw [hprocs]; rfl)
  obtain ⟨p₂, resp₂, hp₂, hjob₂, hresp₂, -⟩ := hproc 2 _ "bb" (by rw [hprocs]; rfl)
  obtain ⟨p₃, resp₃, hp₃, hjob₃, hresp₃, -⟩ := hproc 3 _ "cc" (by rw [hprocs]; rfl)
  have hread : ∃ p ∈ g.procs, ∃ key hex resp, p.job = .getListing key hex ∧ hexDecode hex = some target ∧
      p.prog.result = some (.ok (.listing resp)) ∧ resp.clientEncryptedBlob = "aa" :=
    ⟨p, List.mem_of_getElem? hp, _, _, resp, hjob, hid, hresp, hblob⟩
  exact ⟨g, Reachable.of_run (fun _ _ _ => trivial) Reachable.init hrun,
    ⟨hread, p₂, _, _, _, _, hp₂, hjob₂, hid, hresp₂⟩, ⟨hread, p₃, _, _, _, _, hp₃, hjob₃, hid, hresp₃⟩,
    hblobs⟩

end Listings.ListingSample

open Sample Listings.ListingSample in
/-- A message that answers an empty chat, beside two edits of a listing. -/
theorem submission_replaces_read_sample :
    ∃ g gl, (deployment (loginTables [firstChat, secondChat]) none).Reaches anyJob (orders []) g ∧
      Listings.Reaches worker (Table.empty Listing.id) gl ∧
      (∃ read write, rowCallsOf 1 g.history = [read, write] ∧
        updatesRow (hex orderId) write.reply = true ∧
        (SharedBlob.chat.text (hex orderId) write.before = none ↔
          SharedBlob.chat.text (hex orderId) read.before = none)) ∧
      ∃ read write, Listings.rowCallsOf 3 gl.history = [read, write] ∧
        write.after.listings.find target ≠ write.before.listings.find target ∧
        (Listings.blobText target write.before = some "aa" ↔
          Listings.blobText target read.before = some "aa") := by
  obtain ⟨g, hg, hcheck⟩ := cycleTrace.reaches
  obtain ⟨hread, hanswer⟩ := Bool.and_eq_true_iff.mp hcheck
  obtain ⟨p, hp, hjob, hr⟩ := ChatSample.answered_iff hread
  obtain ⟨p', hp', hjob', resp, hr'⟩ := succeeded_iff.mp hanswer
  obtain ⟨gl, hgl, -, hcycle, -⟩ := lostRun
  have hid : hexDecode orderId = some (hex orderId) := by decide +kernel
  have hchat : EditCycle .chat (hex orderId) g none 1 :=
    ⟨⟨p, List.mem_of_getElem? hp, _, _, ⟨_, hjob, ChatSample.readChat_route, hr⟩,
      by rw [Route.reads, hid]; rfl, rfl⟩,
      p', _, _, hp', ⟨_, hjob', answerChat_route, hr'⟩, by rw [Route.submits, hid]; rfl⟩
  obtain ⟨hchats, hlistings⟩ := submission_replaces_read_iff hg hgl
  exact ⟨g, gl, hg, hgl, hchats _ _ _ _ hchat, hlistings _ _ _ hcycle⟩

open Listings.ListingSample in
/-- **The blob that is replaced is another client's, not the one that was read.** -/
theorem acknowledged_edit_lost :
    ∃ g read write, Listings.Reaches worker (Table.empty Listing.id) g ∧
      Listings.EditCycle target g "aa" 2 ∧ Listings.EditCycle target g "aa" 3 ∧
      Listings.rowCallsOf 3 g.history = [read, write] ∧
      Listings.blobText target write.before = some "bb" := by
  obtain ⟨g, hg, hfirst, hsecond, hblobs⟩ := lostRun
  obtain ⟨read, rest, hcalls, -, hrest⟩ := List.map_eq_cons_iff.mp hblobs
  obtain ⟨write, rest', rfl, hwrite, hnil⟩ := List.map_eq_cons_iff.mp hrest
  obtain rfl := List.map_eq_nil_iff.mp hnil
  exact ⟨g, read, write, hg, hfirst, hsecond, hcalls, hwrite⟩

end TorMarketplace
