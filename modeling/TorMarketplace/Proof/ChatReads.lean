import TorMarketplace.Proof.Versions

/-!
# What `get_chat` returns

`get_chat` reads the version of an order and its chat blob in two statements. The pair is one that the
row had exactly if the blob did not change between them (`chat_snapshot_iff`): a version says everything
about a row, so the only state with the version returned is that of the first statement.
-/

namespace TorMarketplace

open Encoding Interleave Prog Versioned

/-! ## The states of a row -/

/-- What is known of the rows in `s` when the table has come to `s'`. -/
def RowsLater (s s' : Shared) : Prop :=
  ∀ id, (∀ o, s.orders.find id = some o → Known Order.version s'.orders.find id o) ∧
    (s.orders.find id = none → ∀ o, s'.orders.find id = some o → 1 ≤ o.version)

theorem RowsLater.refl (s : Shared) : RowsLater s s := fun _ =>
  ⟨fun _ ho => Known.of_some ho, fun hnone _ ho => absurd (hnone.symm.trans ho) (by simp)⟩

theorem RowsLater.trans {s s' s'' : Shared} (h : RowsLater s s') (h' : RowsLater s' s'') :
    RowsLater s s'' := by
  refine fun id => ⟨fun o ho => ?_, fun hnone o'' ho'' => ?_⟩
  · obtain ⟨o', ho', hcase⟩ := (h id).1 o ho
    obtain ⟨o'', ho'', hcase'⟩ := (h' id).1 o' ho'
    refine ⟨o'', ho'', ?_⟩
    rcases hcase with rfl | hlt
    · exact hcase'
    · rcases hcase' with rfl | hlt' <;> exact .inr (by omega)
  · cases ho' : s'.orders.find id with
    | none => exact (h' id).2 ho' o'' ho''
    | some o' =>
      have hle := ((h' id).1 o' ho').le ho''
      have hone := (h id).2 hnone o' ho'
      omega

/-- A step of the store goes on from what is known. -/
theorem RowsLater.of_step {hit : Bytes → Prop} {s s' : Shared}
    (h : Step Order.version hit s.orders.find s'.orders.find) : RowsLater s s' := by
  refine fun id => ⟨fun o ho => h.known (Known.of_some ho), fun hnone o ho => ?_⟩
  rcases h id with ⟨_, r, _, hr, _⟩ | ⟨_, heq | ⟨_, r, hr, hv⟩⟩
  · exact absurd (hnone.symm.trans hr) (by simp)
  · exact absurd (hnone.symm.trans (heq.symm.trans ho)) (by simp)
  · obtain rfl := Option.some.inj (hr.symm.trans ho)
    omega

section Reaches

variable {D : Deployment} {allow : System → Job → Prop} {orders : OrdersTable} {g : System}

theorem Deployment.Reaches.rowsLater (h : D.Reaches allow orders g) {s s' : Shared}
    (hs : Held g.history s) (hs' : Held g.history s') : RowsLater s s' ∨ RowsLater s' s :=
  Reachable.held_ordered RowsLater.refl RowsLater.trans h
    (fun _ hev => let ⟨hcall, _, ha⟩ := h.event hev; .of_step (hcall.step ha)) hs hs'

/-- **A version says everything about a row**, whenever in a run it is seen. -/
theorem Deployment.Reaches.row_of_version (h : D.Reaches allow orders g) {s s' : Shared}
    (hs : Held g.history s) (hs' : Held g.history s') {id : Bytes} {o o' : Order}
    (ho : s.orders.find id = some o) (ho' : s'.orders.find id = some o')
    (hv : o'.version = o.version) : o' = o := by
  rcases h.rowsLater hs hs' with hle | hle
  · exact ((hle id).1 o ho).eq ho' hv
  · exact (((hle id).1 o' ho').eq ho hv.symm).symm

/-- A row that is not always there never has the version 0. -/
theorem Deployment.Reaches.version_ne_zero (h : D.Reaches allow orders g) {s s' : Shared}
    (hs : Held g.history s) (hs' : Held g.history s') {id : Bytes} {o' : Order}
    (hnone : s.orders.find id = none) (ho' : s'.orders.find id = some o') : o'.version ≠ 0 := by
  rcases h.rowsLater hs hs' with hle | hle
  · have hone := (hle id).2 hnone o' ho'
    omega
  · obtain ⟨o, ho, _⟩ := (hle id).1 o' ho'
    exact absurd (hnone.symm.trans ho) (by simp)

end Reaches

/-! ## The statements of `get_chat` -/

/-- The call reads a row. -/
def isSelect (c : Call) : Bool :=
  match c with
  | .selectOrder _ => true
  | _ => false

/-- What `get_chat` reads of the order `id`, and the version and the blob that it returns. -/
inductive ChatReads (id : Bytes) : List (Reply Server) → Int → Option Bytes → Prop
  | found (row : Order) (later : Option Order) :
    ChatReads id [⟨.selectOrder id, some (some row)⟩, ⟨.selectOrder id, some later⟩] row.version
      (later.bind Order.chatEncryptedBlob)
  | missing : ChatReads id [⟨.selectOrder id, some none⟩] 0 none

/-- The request has been answered from these reads. -/
def ChatAnswered (r : Request) (past : Past) (response : Response) : Prop :=
  ∀ orderId resp, route r.method r.path = some (.getChat orderId) → response = .chat resp →
    ∃ id blob, hexDecode orderId = some id ∧ resp.chatEncryptedBlob = blob.map base64Encode ∧
      ChatReads id (past.filter fun reply => isSelect reply.1) resp.version blob

theorem getChat_reads (orderId : String) {past : Past}
    (hpast : (past.filter fun reply => isSelect reply.1) = []) :
    Spec server.May (fun _ _ => True) (OnOk fun past' resp => ∃ id blob, hexDecode orderId = some id ∧
      resp.chatEncryptedBlob = blob.map base64Encode ∧
      ChatReads id (past'.filter fun reply => isSelect reply.1) resp.version blob) past
      (getChat orderId) := by
  simp only [getChat, spec_orFail_bind, spec_call_bind, onOk_error, implies_true, true_and]
  intro id hid row _ found _
  subst_vars
  cases found with
  | none =>
    refine ⟨id, none, hid, rfl, ?_⟩
    rw [List.filter_append, hpast]
    exact .missing
  | some row =>
    simp only [spec_orFail_bind, spec_call_bind, spec_pure, onOk_ok, onOk_error, implies_true, true_and]
    intro read _ later hlater
    subst hlater
    refine ⟨id, later.bind Order.chatEncryptedBlob, hid, rfl, ?_⟩
    rw [List.filter_append, List.filter_append, hpast]
    exact .found row later

theorem handleRequest_chatReads (st : AppState) (r : Request) :
    Spec server.May (fun _ _ => True) (OnOk (ChatAnswered r)) [] (handleRequest st r) := by
  refine handleRequest_of_handle st r (fun _ _ _ => trivial) fun past auth target hlayers htarget => ?_
  have hpast : (past.filter fun reply => isSelect reply.1) = [] :=
    filter_layers (fun c hc => by cases c <;> first | rfl | exact Bool.noConfusion hc) hlayers
  by_cases hchat : ∃ orderId, target = .getChat orderId
  · obtain ⟨orderId, rfl⟩ := hchat
    have hhandle : handle st auth (.getChat orderId) r.body =
        (orFail auth .rejected >>= fun _ => getChat orderId >>= fun resp => pure (.chat resp)) := rfl
    rw [hhandle]
    simp only [spec_orFail_bind, onOk_error, implies_true, true_and]
    refine fun _ _ => spec_seq_onOk (getChat_reads orderId hpast) fun past' resp _ hresp => ?_
    intro orderId' resp' hroute heq
    obtain rfl := Response.chat.inj heq
    obtain rfl := Route.getChat.inj (Option.some.inj (htarget.symm.trans hroute))
    exact hresp
  · refine spec_of_forall (fun _ _ => trivial) fun past' result => ?_
    cases result with
    | error _ => trivial
    | ok response =>
      intro orderId resp hroute _
      exact absurd ⟨orderId, Option.some.inj (htarget.symm.trans hroute)⟩ hchat

/-! ## The pair -/

/-- What `get_chat` would return of a row, read at once. -/
def chatPair : Option Order → Int × Option String
  | some o => (o.version, o.chatEncryptedBlob.map base64Encode)
  | none => (0, none)

/-- The chat blob of an order. -/
def chatColumn (id : Bytes) (s : Shared) : Option Bytes :=
  (s.orders.find id).bind Order.chatEncryptedBlob

/-- The calls of process `pid` that read a row. -/
def selectsOf (pid : Nat) (l : List Effect) : List Effect :=
  (l.filter fun ev => ev.pid = pid).filter fun ev => isSelect ev.reply.1

theorem selectsOf_reply (pid : Nat) (l : List Effect) :
    (selectsOf pid l).map Event.reply = (callsOf pid l).filter fun reply => isSelect reply.1 := by
  rw [callsOf, List.filter_map]
  rfl

theorem base64Encode_inj {b b' : Bytes} (h : base64Encode b = base64Encode b') : b = b' := by
  have hdecode := congrArg base64Decode h
  rwa [base64Decode_base64Encode, base64Decode_base64Encode, Option.some.injEq] at hdecode

section Reaches

variable {D : Deployment} {allow : System → Job → Prop} {orders : OrdersTable} {g : System}

/-- What a reply to a SELECT says of the table. -/
theorem Deployment.Reaches.select_finds (h : D.Reaches allow orders g) {ev : Effect}
    (hev : ev ∈ g.history) {id : Bytes} {row : Option Order}
    (hreply : ev.reply = ⟨.selectOrder id, some row⟩) : ev.before.orders.find id = row := by
  obtain ⟨_, e, ha⟩ := h.event hev
  obtain ⟨pid, j, past, reply, before, after⟩ := ev
  subst hreply
  cases hfind : before.orders.find id with
  | none =>
    simp only [server, hfind] at ha
    split at ha <;> simp_all
  | some o => exact (answer_selectOrder_found ha hfind).symm

/-- **The pair that `get_chat` returns is one that the row had at some point of the run exactly if the
chat blob is the same at both of its statements.** -/
theorem chat_snapshot_iff (h : D.Reaches allow orders g) {pid : Nat} {p : Process}
    (hp : g.procs[pid]? = some p) {r : Request} (hjob : p.job = .request r) {orderId : String}
    (hroute : route r.method r.path = some (.getChat orderId)) {resp : ChatResponse}
    (hr : p.prog.result = some (.ok (.chat resp))) :
    ∃ id, hexDecode orderId = some id ∧
      ((∃ s, Held g.history s ∧
          chatPair (s.orders.find id) = (resp.version, resp.chatEncryptedBlob)) ↔
        (selectsOf pid g.history).Pairwise fun ev ev' =>
          chatColumn id ev.before = chatColumn id ev'.before) := by
  obtain ⟨id, blob, hid, hblob, hreads⟩ :=
    h.post_request (handleRequest_chatReads D.api) (List.mem_of_getElem? hp) hjob hr orderId resp hroute rfl
  refine ⟨id, hid, ?_⟩
  have hpast : p.past = callsOf pid g.history := Reachable.past_eq h hp
  rw [hpast, ← selectsOf_reply] at hreads
  have hmem : ∀ ev ∈ selectsOf pid g.history, ev ∈ g.history := fun ev hev =>
    List.mem_of_mem_filter (List.mem_of_mem_filter hev)
  rw [hblob]
  generalize hv : resp.version = v at hreads
  generalize hselects : selectsOf pid g.history = selects at hreads hmem ⊢
  generalize hreplies : selects.map Event.reply = replies at hreads
  cases hreads with
  | missing =>
    obtain ⟨ev, rest, rfl, hreply, hnil⟩ := List.map_eq_cons_iff.mp hreplies
    obtain rfl := List.map_eq_nil_iff.mp hnil
    have hev := hmem ev (by simp)
    refine iff_of_true ⟨ev.before, ⟨ev, hev, .inl rfl⟩, ?_⟩ (List.pairwise_singleton _ _)
    rw [h.select_finds hev hreply]
    rfl
  | found row later =>
    obtain ⟨ev, rest, rfl, hreply, hrest⟩ := List.map_eq_cons_iff.mp hreplies
    obtain ⟨ev', rest', rfl, hreply', hnil⟩ := List.map_eq_cons_iff.mp hrest
    obtain rfl := List.map_eq_nil_iff.mp hnil
    have hev := hmem ev (by simp)
    have hfind := h.select_finds hev hreply
    have hfind' := h.select_finds (hmem ev' (by simp)) hreply'
    have hheld : Held g.history ev.before := ⟨ev, hev, .inl rfl⟩
    have hcolumns : chatColumn id ev.before = row.chatEncryptedBlob ∧
        chatColumn id ev'.before = later.bind Order.chatEncryptedBlob := by
      rw [chatColumn, chatColumn, hfind, hfind']
      exact ⟨rfl, rfl⟩
    simp only [List.pairwise_cons, List.mem_singleton, forall_eq, List.not_mem_nil, false_implies,
      implies_true, List.Pairwise.nil, and_true]
    rw [hcolumns.1, hcolumns.2]
    constructor
    · rintro ⟨s, hs, hpair⟩
      cases ho : s.orders.find id with
      | none =>
        rw [ho] at hpair
        exact absurd (Prod.mk.inj hpair).1.symm (h.version_ne_zero hs hheld ho hfind)
      | some o =>
        rw [ho] at hpair
        obtain ⟨hversion, hchat⟩ := Prod.mk.inj hpair
        obtain rfl := h.row_of_version hheld hs hfind ho hversion
        exact Option.map_injective (fun _ _ => base64Encode_inj) hchat
    · intro hsame
      refine ⟨ev.before, hheld, ?_⟩
      rw [hfind, ← hsame]
      rfl

end Reaches

/-! ### A torn read -/

namespace ChatSample

open Sample

def readChat : Request := { firstChat.post .empty with method := .get }

/-- The chat is read while a first message is written: the version before it, and the blob after. -/
def tornRead : ChatResponse := ⟨orderId, some "AQID", 1⟩

/-- The reader has its version when the writer comes, and reads the blob when the writer is done. -/
def torn : List (Label Job Choice) :=
  .spawn (.request readChat) ::
    .spawn (.request (secondChat.post (.sendMessage ⟨"AQID", "", "n2"⟩))) ::
    (acts 0 4 ++ acts 1 6 ++ acts 0 1)

/-- The pair is one of a row of the run. -/
def holdsPair (pair : Int × Option String) (g : System) : Bool :=
  g.history.any fun ev => chatPair (ev.before.orders.find (hex orderId)) = pair ||
    chatPair (ev.after.orders.find (hex orderId)) = pair

theorem holdsPair_of_held {pair : Int × Option String} {g : System}
    (h : ∃ s, Held g.history s ∧ chatPair (s.orders.find (hex orderId)) = pair) :
    holdsPair pair g = true := by
  obtain ⟨s, ⟨ev, hev, hs⟩, hpair⟩ := h
  simp only [holdsPair, List.any_eq_true, Bool.or_eq_true, decide_eq_true_eq]
  refine ⟨ev, hev, ?_⟩
  rcases hs with rfl | rfl
  · exact .inl hpair
  · exact .inr hpair

/-- The first process has answered `resp`. -/
def answered (resp : ChatResponse) (g : System) : Bool :=
  match g.procs[0]? with
  | some p => p.job = .request readChat && p.prog.result = some (.ok (.chat resp))
  | none => false

theorem answered_iff {resp : ChatResponse} {g : System} (h : answered resp g = true) :
    ∃ p, g.procs[0]? = some p ∧ p.job = .request readChat ∧
      p.prog.result = some (.ok (.chat resp)) := by
  unfold answered at h
  split at h
  · rename_i p hp
    simp only [Bool.and_eq_true, decide_eq_true_eq] at h
    exact ⟨p, hp, h⟩
  · exact absurd h (by simp)

def tornTrace : (deployment (loginTables [firstChat, secondChat]) none).Trace anyJob (orders [])
    fun g => answered tornRead g && !holdsPair (1, some "AQID") g where
  labels := torn
  allowed _ _ _ := trivial
  passes := by decide +kernel

theorem readChat_route : route readChat.method readChat.path = some (.getChat orderId) := by
  decide +kernel

end ChatSample

open ChatSample Sample in
theorem chat_snapshot_torn :
    ∃ g id, (deployment (loginTables [firstChat, secondChat]) none).Reaches anyJob (orders []) g ∧
      hexDecode orderId = some id ∧
      ((∃ s, Held g.history s ∧ chatPair (s.orders.find id) = (1, some "AQID")) ↔
        (selectsOf 0 g.history).Pairwise fun ev ev' =>
          chatColumn id ev.before = chatColumn id ev'.before) := by
  obtain ⟨g, hg, hcheck⟩ := tornTrace.reaches
  simp only [Bool.and_eq_true] at hcheck
  obtain ⟨p, hp, hjob, hr⟩ := answered_iff hcheck.1
  obtain ⟨id, hid, hiff⟩ := chat_snapshot_iff hg hp hjob readChat_route hr
  exact ⟨g, id, hg, hid, hiff⟩

open ChatSample Sample in
/-- **A version that never had the blob**: the order's version 1 had no chat. -/
theorem chat_read_torn :
    ∃ g p, (deployment (loginTables [firstChat, secondChat]) none).Reaches anyJob (orders []) g ∧
      g.procs[0]? = some p ∧ p.prog.result = some (.ok (.chat tornRead)) ∧
      ¬ ∃ s, Held g.history s ∧ chatPair (s.orders.find (hex orderId)) =
        (tornRead.version, tornRead.chatEncryptedBlob) := by
  obtain ⟨g, hg, hcheck⟩ := tornTrace.reaches
  simp only [Bool.and_eq_true, Bool.not_eq_true'] at hcheck
  obtain ⟨p, hp, _, hr⟩ := answered_iff hcheck.1
  refine ⟨g, p, hg, hp, hr, fun hheld => ?_⟩
  have hholds : holdsPair (1, some "AQID") g = true := holdsPair_of_held hheld
  exact absurd (hcheck.2.symm.trans hholds) (by simp)

end TorMarketplace
