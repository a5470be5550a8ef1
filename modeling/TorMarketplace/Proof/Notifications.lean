import TorMarketplace.Proof.Callers
import TorMarketplace.Proof.TimeLocks

/-!
# Notifications

Whether a buyer can reach an order through the chain. The payload has 32 bytes for an id and the
scanner insists on them, while the ids that are inserted have 16, so no order that the system has made
can be addressed (`inserted_not_addressable`). Which outputs of a transaction keep the scan from the
first notification among them (`first_notification_iff`). And whether a notification that names an
order reaches it: a pass that goes on after a failed RPC, or after an `UPDATE` that has found no row,
moves the cursor past what it has not done; else nothing is lost (`none_lost`).
-/

namespace TorMarketplace

open Encoding Interleave Prog

/-! ## The payload -/

/-- The output that notifies the order `id` of the buyer key `key`. -/
def notificationOutput (id key : Bytes) : DecodedVout where
  scriptPubKey :=
    { type := some "nulldata"
      asm := some ("OP_RETURN " ++ hexEncode (notificationMagic ++ id ++ key)) }

theorem hexNibble_not_space : ∀ n < 16, isUnicodeSpace (hexNibble (UInt8.ofNat n)) = false := by
  decide

theorem hexEncode_not_space {b : Bytes} {c : Char} (h : c ∈ (hexEncode b).toList) :
    isUnicodeSpace c = false := by
  rw [hexEncode, String.toList_ofList] at h
  obtain ⟨n, hn, rfl⟩ := mem_hexEncode h
  exact hexNibble_not_space n hn

/-- A text without spaces has nothing to trim. -/
theorem trim_eq_self {s : List Char} (h : ∀ c ∈ s, isUnicodeSpace c = false) : trim s = s := by
  have hfront : ∀ {l : List Char}, (∀ c ∈ l, isUnicodeSpace c = false) →
      l.dropWhile isUnicodeSpace = l := by
    intro l hl
    cases l with
    | nil => rfl
    | cons c l => rw [List.dropWhile_cons_of_neg (by simp [hl c List.mem_cons_self])]
  have hback : ∀ c ∈ s.reverse, isUnicodeSpace c = false := fun c hc => h c (List.mem_reverse.mp hc)
  rw [trim, hfront h, hfront hback, List.reverse_reverse]

theorem opReturnData_hexEncode (b : Bytes) :
    opReturnData ("OP_RETURN " ++ hexEncode b) = some (hexEncode b) := by
  have htext : ("OP_RETURN " ++ hexEncode b).toList = "OP_RETURN ".toList ++ (hexEncode b).toList :=
    String.toList_append
  have hpre : "OP_RETURN ".toList.isPrefixOf ("OP_RETURN " ++ hexEncode b).toList = true :=
    List.isPrefixOf_iff_prefix.mpr (htext ▸ List.prefix_append _ _)
  have hrest : ("OP_RETURN " ++ hexEncode b).toList.drop "OP_RETURN ".toList.length =
      (hexEncode b).toList := by
    rw [htext, List.drop_left]
  rw [opReturnData, if_pos hpre, hrest, trim_eq_self fun _ => hexEncode_not_space, String.ofList_toList]

/-- **The payload comes back**, if its fields have their widths. -/
theorem extractNotification_output {id key : Bytes} (hid : id.length = 32) (hkey : key.length = 33) :
    extractNotification [notificationOutput id key] = some (id, key) := by
  have hpre : notificationMagic.isPrefixOf (notificationMagic ++ id ++ key) = true :=
    List.isPrefixOf_iff_prefix.mpr (List.append_assoc _ _ _ ▸ List.prefix_append _ _)
  have hrest : (notificationMagic ++ id ++ key).drop notificationMagic.length = id ++ key := by
    rw [List.append_assoc, List.drop_left]
  have hlength : ¬ (id ++ key).length < 65 := by simp [hid, hkey]
  have htake : (id ++ key).take 32 = id := by rw [← hid, List.take_left]
  have hdrop : ((id ++ key).drop 32).take 33 = key := by
    rw [← hid, List.drop_left, ← hkey, List.take_length]
  simp only [extractNotification, notificationOutput, Option.bind_some, opReturnData_hexEncode,
    hexDecode_hexEncode, ne_eq, not_true, if_false, hpre, hrest, hlength, htake, hdrop]

/-! ## The first notification -/

/-- The notification in an output: `nulldata`, with an ASM of `OP_RETURN` and the hex of the magic and
65 more bytes at least. -/
def notificationIn (vout : DecodedVout) : Option (Bytes × Bytes) :=
  if vout.scriptPubKey.type = some "nulldata" then
    match (vout.scriptPubKey.asm.bind opReturnData).bind hexDecode with
    | some bytes =>
      let payload := bytes.drop notificationMagic.length
      if notificationMagic.isPrefixOf bytes ∧ 65 ≤ payload.length then
        some (payload.take 32, (payload.drop 32).take 33)
      else none
    | none => none
  else none

/-- The outputs at which the scan returns: those with no type, and the `nulldata` ones that are not
`OP_RETURN` followed by hex. -/
def endsScan (vout : DecodedVout) : Bool :=
  match vout.scriptPubKey.type with
  | none => true
  | some scriptType =>
    scriptType = "nulldata" && ((vout.scriptPubKey.asm.bind opReturnData).bind hexDecode).isNone

/-- One turn of the loop. -/
theorem extractNotification_cons (vout : DecodedVout) (vouts : List DecodedVout) :
    extractNotification (vout :: vouts) =
      if endsScan vout then none else (notificationIn vout).or (extractNotification vouts) := by
  rw [extractNotification, endsScan, notificationIn]
  cases vout.scriptPubKey.type with
  | none => rfl
  | some scriptType =>
    by_cases hdata : scriptType = "nulldata"
    · subst hdata
      cases (vout.scriptPubKey.asm.bind opReturnData).bind hexDecode with
      | none => rfl
      | some bytes =>
        by_cases hmagic : notificationMagic.isPrefixOf bytes
        · by_cases hshort : bytes.length - notificationMagic.length < 65
          · simp [hmagic, hshort, Nat.not_le.mpr hshort]
          · simp [hmagic, hshort, Nat.not_lt.mp hshort]
        · simp [hmagic]
    · simp [hdata]

theorem notificationIn_output {id key : Bytes} (hid : id.length = 32) (hkey : key.length = 33) :
    notificationIn (notificationOutput id key) = some (id, key) := by
  have hfound := extractNotification_output hid hkey
  rw [extractNotification_cons] at hfound
  split at hfound
  · exact absurd hfound (by simp)
  · simpa [extractNotification] using hfound

theorem notificationIn_of_endsScan {vout : DecodedVout} (h : endsScan vout = true) :
    notificationIn vout = none := by
  unfold endsScan at h
  unfold notificationIn
  cases htype : vout.scriptPubKey.type with
  | none => rfl
  | some scriptType =>
    rw [htype] at h
    obtain ⟨hdata, hnone⟩ := Bool.and_eq_true_iff.mp h
    rw [of_decide_eq_true hdata, if_pos rfl, Option.isNone_iff_eq_none.mp hnone]

/-- **The first notification of a transaction is found if and only if no output before it ends the
scan**; where there is none, none is found. -/
theorem first_notification_iff (vouts : List DecodedVout) :
    extractNotification vouts = vouts.findSome? notificationIn ↔
      ((vouts.findSome? notificationIn).isSome →
        ∀ vout ∈ vouts.takeWhile (fun vout => (notificationIn vout).isNone), endsScan vout = false) := by
  induction vouts with
  | nil => simp [extractNotification]
  | cons vout vouts ih =>
    rw [extractNotification_cons, List.findSome?_cons, List.takeWhile_cons]
    by_cases hends : endsScan vout = true
    · -- the scan returns here: right only where no later output notifies
      rw [if_pos hends, notificationIn_of_endsScan hends]
      cases hrest : vouts.findSome? notificationIn with
      | none => simp
      | some found => simp [hends]
    · rw [if_neg hends]
      cases hin : notificationIn vout with
      | some found => simp
      | none => simpa [hends] using ih

/-- A second push in an `OP_RETURN` hides the notification that follows. -/
theorem two_pushes_end_scan :
    extractNotification [⟨⟨some "nulldata", some "OP_RETURN 0102 0304"⟩⟩,
        notificationOutput (List.replicate 32 1) (List.replicate 33 2)] = none ∧
      [⟨⟨some "nulldata", some "OP_RETURN 0102 0304"⟩⟩,
        notificationOutput (List.replicate 32 1) (List.replicate 33 2)].findSome? notificationIn =
          some (List.replicate 32 1, List.replicate 33 2) := by
  have hin : notificationIn (notificationOutput (List.replicate 32 1) (List.replicate 33 2)) =
      some (List.replicate 32 1, List.replicate 33 2) :=
    notificationIn_output (by decide) (by decide)
  have hends : endsScan ⟨⟨some "nulldata", some "OP_RETURN 0102 0304"⟩⟩ = true := by decide +kernel
  constructor
  · rw [extractNotification_cons, if_pos hends]
  · rw [List.findSome?_cons, notificationIn_of_endsScan hends, List.findSome?_cons, hin]

/-! ## Who can be addressed -/

/-- Some transaction makes the scanner look up the order `id` of the table, for the buyer `key`. -/
def Addressable (t : OrdersTable) (id key : Bytes) : Prop :=
  ∃ vouts id', extractNotification vouts = some (id', key) ∧ id'.length = 32 ∧
    ∃ o, t.find id' = some o ∧ o.id = id

theorem Addressable.length {t : OrdersTable} {id key : Bytes} (h : Addressable t id key) :
    id.length = 32 := by
  obtain ⟨_, id', _, hlength, o, hfind, hid⟩ := h
  rw [← hid, (OrdersTable.find_some hfind).2]
  exact hlength

/-- Exactly the ids of 32 bytes can be addressed. -/
theorem addressable_iff {t : OrdersTable} {o : Order} {key : Bytes} (ho : o ∈ t.rows)
    (hkey : key.length = 33) : Addressable t o.id key ↔ o.id.length = 32 := by
  refine ⟨Addressable.length, fun hid => ?_⟩
  exact ⟨_, o.id, extractNotification_output hid hkey, hid, o, OrdersTable.find_of_mem ho, rfl⟩

/-- Whatever order is inserted can be addressed, for every valid key. -/
def AllAddressable (D : Deployment) (orders : OrdersTable) : Prop :=
  ∀ g, D.Reaches anyJob orders g → ∀ ev ∈ g.history, ∀ i,
    ev.reply = ⟨.insertOrder i, some ()⟩ → ∀ key, key.length = 33 →
      parseSecpPubkey D.prim (hexEncode key) = true → Addressable g.shared.orders i.id key

section Reaches

variable {D : Deployment} {allow : System → Job → Prop} {orders : OrdersTable} {g : System}

/-- Every id that is inserted has 16 bytes. -/
theorem Deployment.Reaches.inserted_length (h : D.Reaches allow orders g) {ev : Effect}
    (hev : ev ∈ g.history) {i : InsertOrders} (hi : ev.reply = ⟨.insertOrder i, some ()⟩) :
    i.id.length = 16 := by
  have hcall := h.statement hev
  obtain ⟨pid, j, past, reply, before, after⟩ := ev
  obtain rfl : reply = ⟨.insertOrder i, some ()⟩ := hi
  cases j with
  | request r =>
    obtain ⟨_, _, _, _, hlength⟩ := hcall
    exact hlength
  | runDummyWorker => exact hcall.1
  | checkPendingPayments => exact hcall.1.elim
  | checkTimeLocks => exact hcall.elim
  | scanNotifications => exact hcall.elim
  | restartApi => exact Call.noConfusion hcall
  | restartWorker => exact Call.noConfusion hcall

/-- **No order that was inserted can be addressed**, by whatever transaction, for whatever key. -/
theorem inserted_not_addressable (h : D.Reaches anyJob orders g) {ev : Effect}
    (hev : ev ∈ g.history) {i : InsertOrders} (hi : ev.reply = ⟨.insertOrder i, some ()⟩)
    (key : Bytes) : ¬ Addressable g.shared.orders i.id key := by
  intro haddr
  have hid : i.id.length = 16 := h.inserted_length hev hi
  exact absurd (haddr.length.symm.trans hid) (by decide)

end Reaches

namespace Sample

def create : Login where
  path := "/orders"
  nonce := "0d"
  hmac := "02cdd3486cbe94a0688aa0d30f438b6491777d0bab73f940307cdda6e9a14d42"
  signature :=
    "ec20a01b12f7f912898161638e068ec9568554e88736607fdc08c72cf878100a" ++
    "58941bd806e886721eca349c003477c9e0581b5a87f0ea351e44a6162c12aa0f"

/-- The generator of secp256k1. -/
def buyerKey : Bytes := hex "0279be667ef9dcbbac55a06295ce870b07029bfcdb2dce28d959f2815b16f81798"

def createTables : Primitives.Tables := { loginTables [create] with secpPubkeys := [buyerKey] }

def createDeployment : Deployment := deployment createTables none

def createTrace : createDeployment.Trace anyJob (orders [])
    fun g => g.history.any fun ev =>
      match ev.reply with
      | ⟨.insertOrder _, some _⟩ => true
      | _ => false where
  labels :=
    .spawn (.request (create.post (.createOrder ⟨"AQID", none, "n1"⟩))) :: draws 5 0 7
  allowed _ _ _ := trivial
  passes := by decide +kernel

/-- The run inserts an order. -/
theorem createTrace_inserts :
    ∃ g ev i, createDeployment.Reaches anyJob (orders []) g ∧ ev ∈ g.history ∧
      ev.reply = ⟨.insertOrder i, some ()⟩ := by
  obtain ⟨g, hg, hcheck⟩ := createTrace.reaches
  obtain ⟨ev, hev, hreply⟩ := List.any_eq_true.mp hcheck
  split at hreply
  case h_2 => exact absurd hreply (by simp)
  case h_1 i _ hi => exact ⟨g, ev, i, hg, hev, hi⟩

theorem buyerKey_valid :
    buyerKey.length = 33 ∧
      parseSecpPubkey createDeployment.prim (hexEncode buyerKey) = true := by
  decide +kernel

end Sample

open Sample in
/-- A buyer with a valid key cannot address the order that a client has created. -/
theorem inserted_not_addressable_sample :
    ∃ g ev i, createDeployment.Reaches anyJob (orders []) g ∧ ev ∈ g.history ∧
      ev.reply = ⟨.insertOrder i, some ()⟩ ∧ ¬ Addressable g.shared.orders i.id buyerKey := by
  obtain ⟨g, ev, i, hg, hev, hi⟩ := createTrace_inserts
  exact ⟨g, ev, i, hg, hev, hi, inserted_not_addressable hg hev hi buyerKey⟩

open Sample in
theorem created_order_unreachable : ¬ AllAddressable createDeployment (orders []) := by
  intro hall
  obtain ⟨g, ev, i, hg, hev, hi⟩ := createTrace_inserts
  have haddr := hall g hg ev hev i hi buyerKey buyerKey_valid.1 buyerKey_valid.2
  exact absurd (haddr.length.symm.trans (hg.inserted_length hev hi)) (by decide)

/-! ## The turns of a pass -/

theorem extractNotification_length {id key : Bytes} : ∀ {vouts : List DecodedVout},
    extractNotification vouts = some (id, key) → id.length = 32
  | [], h => absurd h (by simp [extractNotification])
  | vout :: vouts, h => by
    rw [extractNotification] at h
    split at h
    · exact absurd h (by simp)
    split at h
    · exact extractNotification_length h
    split at h
    · exact absurd h (by simp)
    rename_i bytes _
    split at h
    · exact extractNotification_length h
    dsimp only at h
    split at h
    · exact extractNotification_length h
    · rename_i hlength
      obtain ⟨rfl, _⟩ := Prod.mk.inj (Option.some.inj h)
      rw [List.length_take]
      omega

/-- The content of the row is one that a notification is to be written to. -/
def Open (D : Deployment) (o : Order) : Prop :=
  ∃ d, decodeOrder D.prim D.workerKey o = some d ∧ d.escrowAddress = none

/-- What the scanner takes the outputs of a transaction for: an order and a valid key. -/
def Names (D : Deployment) (vouts : List DecodedVout) (id key : Bytes) : Prop :=
  extractNotification vouts = some (id, key) ∧ parseSecpPubkey D.prim (hexEncode key) = true

/-- The calls of a turn that writes to the row `o`, after the lookup and up to the entry of the
tracker. -/
def writeCalls (txid hex addr : String) (vouts : List DecodedVout) (o : Order) (key nonce : Bytes)
    (u : UpdateOrders) (n : Nat) (time : Int64) : Past :=
  [⟨.ask (.rawTransaction txid), some hex⟩, ⟨.ask (.decodeRawTransaction hex), some vouts⟩,
    ⟨.selectOrder o.id, some (some o)⟩,
    ⟨.ask (.createStealthAddress (hexEncode key) o.id), some addr⟩,
    ⟨.ask (.randomBytes 12), nonce⟩, ⟨.updateOrders u, some n⟩, ⟨.now, time⟩]

/-- The calls of the turn of a transaction whose lookup has found `already`, once it has ended. -/
inductive Turn (D : Deployment) (txid : String) : Option NotificationTracker → Past → Prop
  | tracked (t : NotificationTracker) : Turn D txid (some t) []
  | noTransaction : Turn D txid none [⟨.ask (.rawTransaction txid), none⟩]
  | notDecoded (hex : String) :
      Turn D txid none
        [⟨.ask (.rawTransaction txid), some hex⟩, ⟨.ask (.decodeRawTransaction hex), none⟩]
  | nothing (hex : String) {vouts : List DecodedVout} (h : extractNotification vouts = none) :
      Turn D txid none
        [⟨.ask (.rawTransaction txid), some hex⟩, ⟨.ask (.decodeRawTransaction hex), some vouts⟩]
  | skipped (hex : String) (row : Option Order) {vouts : List DecodedVout} {id key : Bytes}
      (h : extractNotification vouts = some (id, key))
      (hrow : Names D vouts id key → ∀ o, row = some o → ¬ Open D o) :
      Turn D txid none
        [⟨.ask (.rawTransaction txid), some hex⟩, ⟨.ask (.decodeRawTransaction hex), some vouts⟩,
          ⟨.selectOrder id, some row⟩]
  | noAddress (hex : String) (vouts : List DecodedVout) (id key : Bytes) (o : Order) :
      Turn D txid none
        [⟨.ask (.rawTransaction txid), some hex⟩, ⟨.ask (.decodeRawTransaction hex), some vouts⟩,
          ⟨.selectOrder id, some (some o)⟩,
          ⟨.ask (.createStealthAddress (hexEncode key) id), none⟩]
  | written (hex addr : String) (nonce : Bytes) (n : Nat) (time : Int64) {vouts : List DecodedVout}
      {o : Order} {key : Bytes} {d : OrderData} {blob txHash : Bytes} (hid : hexDecode txid = some txHash) (h : Names D vouts o.id key)
      (hd : decodeOrder D.prim D.workerKey o = some d) (hno : d.escrowAddress = none)
      (hseal : Seals D.prim D.workerKey o.id (notified addr key d) blob) :
      Turn D txid none
        (writeCalls txid hex addr vouts o key nonce (contentUpdate o (notified addr key d) blob) n time ++
          [⟨.insertTracker ⟨txHash, o.id, key, floorTimestamp6h time⟩, some ()⟩])

/-- No call of a turn after its lookup is a lookup. -/
theorem Turn.no_lookup {D : Deployment} {txid : String} {t : Option NotificationTracker} {body : Past}
    (h : Turn D txid t body) : ∀ r ∈ body, ∀ txHash, r.1 ≠ .selectTracker txHash := by
  cases h <;> simp [writeCalls]

theorem Turn.no_list {D : Deployment} {txid : String} {t : Option NotificationTracker} {body : Past}
    (h : Turn D txid t body) : ∀ r ∈ body, ∀ since, r.1 ≠ .ask (.listSinceBlock since) := by
  cases h <;> simp [writeCalls]

/-- Every lookup has been followed by a turn. -/
def Handled (D : Deployment) (past : Past) : Prop :=
  ∀ pre txHash a rest, past = pre ++ ⟨.selectTracker txHash, a⟩ :: rest →
    ∃ txid t body more, a = some t ∧ rest = body ++ more ∧ hexDecode txid = some txHash ∧
      Turn D txid t body

/-- The lookup of a transaction has been made. -/
def LookedUp (past : Past) (tx : TxEntry) : Prop :=
  1 ≤ tx.confirmations → ∃ txHash a, hexDecode tx.txid = some txHash ∧
    (⟨.selectTracker txHash, a⟩ : Reply Server) ∈ past

/-- One more turn. -/
theorem Handled.append {D : Deployment} {past : Past} {txid : String} {txHash : Bytes}
    {t : Option NotificationTracker} {body : Past} (h : Handled D past)
    (hid : hexDecode txid = some txHash) (hturn : Turn D txid t body) :
    Handled D (past ++ ⟨.selectTracker txHash, some t⟩ :: body) := by
  intro pre txHash' a rest hsplit
  rcases List.append_eq_append_iff.mp hsplit with ⟨as, rfl, hrest⟩ | ⟨bs, hpast, hrest⟩
  · -- the lookup is the new one, or one in the body of the turn
    cases as with
    | nil =>
      obtain ⟨hhead, rfl⟩ := List.cons.inj hrest
      cases hhead
      exact ⟨txid, t, body, [], rfl, by simp, hid, hturn⟩
    | cons r as =>
      obtain ⟨_, hbody⟩ := List.cons.inj hrest
      exact absurd rfl (hturn.no_lookup ⟨.selectTracker txHash', a⟩ (by simp [hbody]) txHash')
  · cases bs with
    | nil =>
      obtain ⟨hhead, rfl⟩ := List.cons.inj hrest
      cases hhead
      exact ⟨txid, t, rest, [], rfl, by simp, hid, hturn⟩
    | cons r bs =>
      obtain ⟨rfl, rfl⟩ := List.cons.inj hrest
      obtain ⟨txid', t', body', more, ha, rfl, hid', hturn'⟩ := h pre txHash' a bs hpast
      exact ⟨txid', t', body', _, ha, List.append_assoc _ _ _, hid', hturn'⟩

/-- The calls of a pass that write what the scanner remembers: an entry of the tracker completes a
turn, and the cursor moves once every transaction of the list has been looked up and handled. -/
def ScanStep (D : Deployment) (past : Past) : Call → Prop
  | .insertTracker t => ∃ pre txid body, past = pre ++ ⟨.selectTracker t.txHash, some none⟩ :: body ∧
      Turn D txid none (body ++ [⟨.insertTracker t, some ()⟩])
  | .setLastNotifBlock new => ∀ since txs,
      (⟨.ask (.listSinceBlock since), some (txs, new)⟩ : Reply Server) ∈ past →
        Handled D past ∧ ∀ tx ∈ txs, LookedUp past tx
  | _ => True

section Pass

variable {D : Deployment} {past : Past}

/-- What the turn of a transaction adds to the past. -/
def TurnTaken (D : Deployment) (tx : TxEntry) (past past' : Past) : Prop :=
  (tx.confirmations < 1 ∧ past' = past) ∨ ∃ txHash t body, hexDecode tx.txid = some txHash ∧
    past' = past ++ ⟨.selectTracker txHash, some t⟩ :: body ∧ Turn D tx.txid t body

theorem scanTx_turn (tx : TxEntry) :
    Spec server.May (ScanStep D) (OnOk fun past' _ => TurnTaken D tx past past') past
      (scanTx D.worker tx) := by
  unfold scanTx
  split
  · rename_i hfew
    exact .inl ⟨hfew, rfl⟩
  simp only [ScanStep, spec_orFail_bind, spec_call_bind, onOk_error, implies_true, true_and]
  intro txHash hid tracker _ already htracker
  subst htracker
  have htaken : ∀ {past' : Past} {body : Past},
      past' = past ++ ⟨.selectTracker txHash, some already⟩ :: body → Turn D tx.txid already body →
        TurnTaken D tx past past' :=
    fun hpast' hturn => .inr ⟨txHash, already, _, hid, hpast', hturn⟩
  cases already with
  | some t => exact htaken rfl (.tracked t)
  | none =>
    rw [if_neg (by simp)]
    simp only [ScanStep, spec_call_bind, true_and]
    intro raw _
    cases raw with
    | none => exact htaken (by simp) .noTransaction
    | some hex =>
      simp only [ScanStep, spec_call_bind, true_and]
      intro decoded _
      cases decoded with
      | none => exact htaken (by simp) (.notDecoded hex)
      | some vouts =>
        rw [Option.bind_some]
        cases hext : extractNotification vouts with
        | none => exact htaken (by simp) (.nothing hex hext)
        | some named =>
          obtain ⟨id, key⟩ := named
          dsimp only
          rw [if_neg (not_not.mpr (extractNotification_length hext))]
          simp only [ScanStep, spec_orFail_bind, spec_call_bind, onOk_error, implies_true, true_and]
          intro read hread row hrow
          subst hrow
          rw [D.worker_workerKey]
          cases row with
          | none => exact htaken (by simp) (.skipped hex none hext fun _ _ h => by simp at h)
          | some o =>
            obtain ⟨rfl, _⟩ := may_selectOrder hread
            have hclosed : (Names D vouts o.id key → ¬ Open D o) → Turn D tx.txid none
                [⟨.ask (.rawTransaction tx.txid), some hex⟩,
                  ⟨.ask (.decodeRawTransaction hex), some vouts⟩,
                  ⟨.selectOrder o.id, some (some o)⟩] :=
              fun h => .skipped hex (some o) hext fun hn o' ho' => by
                obtain rfl := Option.some.inj ho'
                exact h hn
            dsimp only
            split
            · rename_i hnone
              refine htaken (by simp) (hclosed ?_)
              rintro _ ⟨d, hd, _⟩
              exact absurd (hnone.symm.trans hd) (by simp)
            rename_i d hd
            split
            · rename_i hescrow
              refine htaken (by simp) (hclosed ?_)
              rintro _ ⟨d', hd', hno⟩
              obtain rfl := Option.some.inj (hd.symm.trans hd')
              simp [hno] at hescrow
            rename_i hescrow
            split
            · rename_i hkey
              exact htaken (by simp) (hclosed fun hn => absurd hn.2 hkey)
            rename_i hkey
            simp only [ScanStep, spec_call_bind, true_and]
            intro addr _
            cases addr with
            | none => exact htaken (by simp) (.noAddress hex vouts o.id key o)
            | some addr =>
              simp only [sealOrder, ScanStep, bind_bind, spec_call_bind, spec_orFail_bind,
                spec_orFail, onOk_ok, onOk_error, implies_true, true_and]
              intro nonce hnonce blob hblob affected _ n hn time _
              subst hn
              have hturn := Turn.written hex addr nonce n time hid ⟨hext, not_not.mp hkey⟩ hd
                (Option.not_isSome_iff_eq_none.mp hescrow) ⟨nonce, may_randomBytes hnonce, hblob⟩
              refine ⟨⟨past, tx.txid, _, ?_, hturn⟩, fun done _ _ hdone => ?_⟩
              · simp [writeCalls, contentUpdate, notified]
              · subst hdone
                exact htaken (by simp [writeCalls, contentUpdate, notified]) hturn

/-- The loop of a pass that was told of `txs` has done the first of them. -/
structure Scanned (D : Deployment) (txs : List TxEntry) (new : String) (done : List TxEntry)
    (past : Past) : Prop where
  handled : Handled D past
  lookedUp : ∀ tx ∈ done, LookedUp past tx
  listed : ∀ since l, (⟨.ask (.listSinceBlock since), l⟩ : Reply Server) ∈ past → l = some (txs, new)

theorem LookedUp.mono {past past' : Past} {tx : TxEntry} (h : LookedUp past tx) (hsub : past ⊆ past') :
    LookedUp past' tx := by
  intro hconf
  obtain ⟨txHash, a, hid, hmem⟩ := h hconf
  exact ⟨txHash, a, hid, hsub hmem⟩

/-- One more turn of the loop. -/
theorem Scanned.turn {txs : List TxEntry} {new : String} {done : List TxEntry} {tx : TxEntry}
    {past' : Past} (h : Scanned D txs new done past) (htaken : TurnTaken D tx past past') :
    Scanned D txs new (done ++ [tx]) past' := by
  rcases htaken with ⟨hfew, rfl⟩ | ⟨txHash, t, body, hid, rfl, hturn⟩
  · refine ⟨h.handled, fun tx' htx' => ?_, h.listed⟩
    rcases List.mem_append.mp htx' with htx' | htx'
    · exact h.lookedUp tx' htx'
    · obtain rfl := List.mem_singleton.mp htx'
      exact fun hconf => absurd hfew (Int64.not_lt.mpr hconf)
  · refine ⟨h.handled.append hid hturn, fun tx' htx' => ?_, fun since l hl => ?_⟩
    · rcases List.mem_append.mp htx' with htx' | htx'
      · exact (h.lookedUp tx' htx').mono (List.subset_append_left _ _)
      · obtain rfl := List.mem_singleton.mp htx'
        exact fun _ => ⟨txHash, some t, hid, by simp⟩
    · rcases List.mem_append.mp hl with hl | hl
      · exact h.listed since l hl
      · rcases List.mem_cons.mp hl with hl | hl
        · exact absurd (congrArg Sigma.fst hl) (by simp)
        · exact absurd rfl (hturn.no_list _ hl since)

/-- **What a pass does with what the scanner remembers.** -/
theorem scanNotifications_steps :
    Spec server.May (ScanStep D) (OnOk fun _ _ => True) [] (scanNotifications D.worker) := by
  simp only [scanNotifications, ScanStep, spec_ensure_bind, spec_call_bind, onOk_error, implies_true,
    true_and]
  intro _ lastBlock _
  cases lastBlock with
  | none =>
    simp only [ScanStep, spec_orFail_bind, spec_call_bind, onOk_error, implies_true, true_and]
    exact fun height _ _ _ hash _ _ _ => ⟨fun _ _ h => by simp at h, fun _ _ => trivial⟩
  | some blockHash =>
    simp only [ScanStep, spec_call_bind, true_and]
    intro listed _
    cases listed with
    | none => simp
    | some listed =>
      obtain ⟨txs, new⟩ := listed
      have hloop : Spec server.May (ScanStep D) (OnOk fun past _ => Scanned D txs new txs past)
          [⟨.lastNotifBlock, some blockHash⟩,
            ⟨.ask (.listSinceBlock blockHash), some (txs, new)⟩]
          (forEach (scanTx D.worker) txs) := by
        refine spec_forEach_done (Scanned D txs new) (fun done tx rest past _ hdone => ?_)
          (fun _ h => h) ⟨?_, by simp, ?_⟩
        · refine spec_mono (fun _ _ h => h) (fun past' r hr => ?_) (scanTx_turn tx)
          cases r with
          | ok _ => exact hdone.turn hr
          | error _ => trivial
        · intro pre txHash a rest hsplit
          have hmem : (⟨.selectTracker txHash, a⟩ : Reply Server) ∈
              pre ++ ⟨.selectTracker txHash, a⟩ :: rest := by simp
          rw [← hsplit] at hmem
          simp at hmem
        · intro since l hl
          rcases List.mem_cons.mp hl with hl | hl
          · exact absurd (congrArg Sigma.fst hl) (by simp)
          · cases List.mem_singleton.mp hl
            rfl
      refine spec_seq_onOk hloop fun past _ _ hscanned => ⟨fun since txs' hlisted => ?_, fun _ _ => trivial⟩
      obtain rfl := (Prod.mk.inj (Option.some.inj (hscanned.listed since _ hlisted))).1
      exact ⟨hscanned.handled, hscanned.lookedUp⟩

end Pass

/-! ## What is lost -/

/-- The node's transactions: what is stored under a hash, and the outputs of what is stored. -/
structure TxStore where
  raw : Bytes → String
  outputs : String → List DecodedVout

/-- What the scanner takes a transaction for. -/
def TxStore.carries (store : TxStore) (txHash : Bytes) : Option (Bytes × Bytes) :=
  extractNotification (store.outputs (store.raw txHash))

/-- If the call has asked for a transaction and got an answer, it is the node's. -/
structure TxStore.Answers (store : TxStore) (ev : Effect) : Prop where
  raw : ∀ txid txHash hex, ev.reply = ⟨.ask (.rawTransaction txid), some hex⟩ →
    hexDecode txid = some txHash → hex = store.raw txHash
  outputs : ∀ hex vouts, ev.reply = ⟨.ask (.decodeRawTransaction hex), some vouts⟩ →
    vouts = store.outputs hex

/-- The row `id` was given a stealth address for the buyer `key`. -/
def Notified (D : Deployment) (l : List Effect) (id key : Bytes) : Prop :=
  ∃ e ∈ l, ∃ u o d addr blob, effectiveUpdate e.reply = some u ∧ o.id = id ∧
    NotifyWrite D.prim D.workerKey e.past u o d addr key blob

theorem Notified.mono {D : Deployment} {l l' : List Effect} {id key : Bytes}
    (h : Notified D l id key) (hsub : l ⊆ l') : Notified D l' id key := by
  obtain ⟨e, he, hwrite⟩ := h
  exact ⟨e, hsub he, hwrite⟩

/-- The order `id` exists, decodes, and has no escrow address. -/
def OpenAt (D : Deployment) (s : Shared) (id : Bytes) : Prop :=
  ∃ o, s.orders.find id = some o ∧ Open D o

/-- In the call `adv` a pass moves the cursor past the confirmed transaction `tx`. -/
def MovesPast (adv : Effect) (tx : TxEntry) : Prop :=
  adv.job = .scanNotifications ∧ 1 ≤ tx.confirmations ∧
    ∃ since txs new, adv.reply = ⟨.setLastNotifBlock new, ()⟩ ∧
      (⟨.ask (.listSinceBlock since), some (txs, new)⟩ : Reply Server) ∈ adv.past ∧ tx ∈ txs

/-- The pass that makes the call `adv` has looked the transaction up in the call `look`. -/
def Looks (adv look : Effect) (txHash : Bytes) : Prop :=
  look.pid = adv.pid ∧ look.reply.1 = .selectTracker txHash

/-- The transaction is a notification of the order `id`, with a valid key. -/
def TxStore.Notifies (store : TxStore) (D : Deployment) (txHash id key : Bytes) : Prop :=
  store.carries txHash = some (id, key) ∧ parseSecpPubkey D.prim (hexEncode key) = true

/-- **No notification is lost.** Whenever a pass moves the cursor past a confirmed transaction, it has
looked it up; and if it is a valid notification, and its order was open at the lookup or is open now,
then the order was given an address for it. Every entry of the tracker has done that, too. -/
def NoneLost (D : Deployment) (store : TxStore) (g : System) : Prop :=
  (∀ l adv l' tx, g.history = l ++ adv :: l' → MovesPast adv tx →
    ∃ txHash, hexDecode tx.txid = some txHash ∧ (∃ look ∈ l, Looks adv look txHash) ∧
      ∀ look ∈ l, Looks adv look txHash → ∀ id key, store.Notifies D txHash id key →
        OpenAt D look.before id ∨ OpenAt D adv.before id → Notified D l id key) ∧
  ∀ t ∈ g.shared.notificationTracker, store.carries t.txHash = some (t.orderId, t.buyerPubkey) ∧
    Notified D g.history t.orderId t.buyerPubkey

/-! ### When nothing is lost -/

/-- The call `e` was made in the turn that began with the lookup `look`. -/
def InTurn (look e : Effect) : Prop :=
  e.pid = look.pid ∧ ∃ mid, e.past = look.past ++ look.reply :: mid ∧
    ∀ r ∈ mid, ∀ txHash, r.1 ≠ .selectTracker txHash

/-- The node, or the wallet, has not answered. -/
inductive RpcFails : Reply Server → Prop
  | raw (txid : String) : RpcFails ⟨.ask (.rawTransaction txid), none⟩
  | decode (hex : String) : RpcFails ⟨.ask (.decodeRawTransaction hex), none⟩
  | address (key : String) (id : Bytes) : RpcFails ⟨.ask (.createStealthAddress key id), none⟩

/-- If the call is an `UPDATE`, it finds the row that it was made for. -/
def FindsRow (ev : Effect) : Prop :=
  ∀ u, ev.reply.1 = .updateOrders u →
    ∃ o, ev.before.orders.find u.whereId = some o ∧ u.GuardedBy o

/-- Nobody writes a row between the `SELECT` and the `UPDATE` of a pass; and in the turn of a
notification whose order is open at the lookup or when the cursor moves, the order is open at the
`SELECT`, and no RPC fails. -/
structure ScansCleanly (D : Deployment) (store : TxStore) (g : System) : Prop where
  undisturbed : ∀ ev ∈ g.history, ev.job = .scanNotifications → FindsRow ev
  turn : ∀ l adv l' tx txHash, g.history = l ++ adv :: l' → MovesPast adv tx →
    hexDecode tx.txid = some txHash → ∀ look ∈ l, Looks adv look txHash →
      ∀ id key, store.Notifies D txHash id key →
        OpenAt D look.before id ∨ OpenAt D adv.before id → ∀ e ∈ l, InTurn look e →
          ¬ RpcFails e.reply ∧ (e.reply.1 = .selectOrder id → OpenAt D e.before id)

/-! ### The tracker -/

theorem answer_selectTracker {txHash : Bytes} {e : Choice} {s s' : Shared} {t : NotificationTracker}
    (h : server.answer (.selectTracker txHash) e s = some (some (some t), s')) :
    t ∈ s.notificationTracker ∧ t.txHash = txHash := by
  simp only [server] at h
  split at h
  · exact absurd h (by simp)
  · simp only [Option.some.injEq, Prod.mk.injEq] at h
    exact ⟨List.mem_of_find?_eq_some h.1, of_decide_eq_true (List.find?_some h.1 :)⟩

/-- An entry of the tracker was there before, or is inserted. -/
theorem answer_tracker {c : Call} {e : Choice} {s s' : Shared} {a : c.Ans}
    (h : server.answer c e s = some (a, s')) {t : NotificationTracker}
    (ht : t ∈ s'.notificationTracker) : t ∈ s.notificationTracker ∨ c = .insertTracker t := by
  cases c with
  | insertTracker t' =>
    simp only [server] at h
    repeat' split at h
    all_goals obtain ⟨_, rfl⟩ := Prod.mk.inj (Option.some.inj h)
    · exact .inl ht
    · exact .inl ht
    · rcases List.mem_append.mp ht with ht | ht
      · exact .inl ht
      · exact .inr (congrArg Call.insertTracker (List.mem_singleton.mp ht).symm)
  | _ =>
    refine .inl ?_
    simp only [server] at h
    repeat' split at h
    all_goals first
      | obtain ⟨_, rfl⟩ := Prod.mk.inj (Option.some.inj h)
        exact ht
      | cases h

section Reaches

variable {D : Deployment} {allow : System → Job → Prop} {orders : OrdersTable} {g : System}
variable {store : TxStore}

theorem Deployment.Reaches.scanStep (h : D.Reaches allow orders g) {ev : Effect}
    (hev : ev ∈ g.history) (hjob : ev.job = .scanNotifications) : ScanStep D ev.past ev.reply.1 := by
  have hbody : ∀ j, Spec server.May (fun past c => j = Job.scanNotifications → ScanStep D past c)
      (OnOk fun _ _ => True) [] (D.program j) := by
    intro j
    by_cases hj : j = .scanNotifications
    · subst hj
      exact spec_mono (fun _ _ h _ => h) (fun _ _ h => h) (pass_spec scanNotifications_steps)
    · exact spec_of_forall (fun _ _ hj' => absurd hj' hj) fun _ r => by cases r <;> trivial
  exact (Reachable.event (fun _ j _ => hbody j) h ev hev).1 hjob

/-- An `UPDATE` that finds its row takes effect. -/
theorem Deployment.Reaches.effective (h : D.Reaches allow orders g) {ev : Effect}
    (hev : ev ∈ g.history) (hfinds : FindsRow ev) {u : UpdateOrders} {n : Nat}
    (hreply : ev.reply = ⟨.updateOrders u, some n⟩) : effectiveUpdate ev.reply = some u := by
  obtain ⟨o, hfind, hg⟩ := hfinds u (by rw [hreply])
  obtain ⟨e, ha⟩ := (h.event hev).2
  rw [hreply] at ha
  rcases answer_updateOrders ha with ⟨hnone, _⟩ | ⟨hsome, _⟩
  · exact absurd hnone (by simp)
  obtain rfl := Option.some.inj hsome
  have hmatches : u.matchesRow o = true := (hg.matches_iff o).mpr ⟨rfl, rfl⟩
  rw [hreply]
  exact effectiveUpdate_eq_some.mpr ⟨_, OrdersTable.rowsAffected_ne_zero.mpr ⟨o, hfind, hmatches⟩, rfl⟩

/-- **A turn that has written has notified the order** that the transaction names, if its `UPDATE`
has found the row. -/
theorem Deployment.Reaches.turn_notified (h : D.Reaches allow orders g) {pid : Nat} {p : Process}
    (hp : g.procs[pid]? = some p) (hanswers : ∀ ev ∈ g.history, store.Answers ev)
    (hfinds : ∀ ev ∈ g.history, ev.job = .scanNotifications → FindsRow ev)
    (hjob : p.job = .scanNotifications) {pre : Past} {txid hex addr : String} {txHash key nonce blob : Bytes}
    {vouts : List DecodedVout} {o : Order} {d : OrderData} {n : Nat} {time : Int64}
    (hpast : pre ++ writeCalls txid hex addr vouts o key nonce
      (contentUpdate o (notified addr key d) blob) n time <+: p.past)
    (hid : hexDecode txid = some txHash) (hnames : Names D vouts o.id key)
    (hd : decodeOrder D.prim D.workerKey o = some d) (hno : d.escrowAddress = none)
    (hseal : Seals D.prim D.workerKey o.id (notified addr key d) blob) :
    store.carries txHash = some (o.id, key) ∧ Notified D g.history o.id key := by
  have hmem : ∀ r ∈ writeCalls txid hex addr vouts o key nonce
      (contentUpdate o (notified addr key d) blob) n time, r ∈ p.past :=
    fun r hr => hpast.subset (List.mem_append_right _ hr)
  constructor
  · obtain ⟨ev, hev, _, hreply⟩ := Reachable.event_of_past h hp (hmem _ List.mem_cons_self)
    obtain ⟨ev', hev', _, hreply'⟩ := Reachable.event_of_past h hp
      (hmem ⟨.ask (.decodeRawTransaction hex), some vouts⟩ (by simp [writeCalls]))
    obtain rfl := (hanswers ev hev).raw txid txHash hex hreply hid
    obtain rfl := (hanswers ev' hev').outputs _ vouts hreply'
    exact hnames.1
  · have hsplit : (pre ++ (writeCalls txid hex addr vouts o key nonce
        (contentUpdate o (notified addr key d) blob) n time).take 5) ++
          [⟨.updateOrders (contentUpdate o (notified addr key d) blob), some n⟩] <+: p.past := by
      refine List.IsPrefix.trans ?_ hpast
      rw [List.append_assoc]
      exact (List.prefix_append_right_inj pre).mpr ⟨[⟨.now, time⟩], rfl⟩
    obtain ⟨l, ev, l', hl, rfl, hevpast, hreply⟩ := Reachable.event_at h hp hsplit
    have hev : ev ∈ g.history := by simp [hl]
    obtain ⟨p', hp', hj⟩ := Reachable.event_job h ev hev
    obtain rfl := Option.some.inj (hp'.symm.trans hp)
    have heff := h.effective hev (hfinds ev hev (hj.symm.trans hjob)) hreply
    refine ⟨ev, hev, _, o, d, addr, blob, heff, rfl, ⟨?_, ?_, hd, hno, ?_, hseal, rfl⟩⟩
    · rw [hevpast]
      simp [writeCalls]
    · exact extractNotification_length hnames.1
    · rw [hevpast]
      simp [writeCalls]

/-- The turn that an entry of the tracker completes. -/
theorem Turn.of_insert {txid : String} {body : Past} {t : NotificationTracker}
    (h : Turn D txid none (body ++ [⟨.insertTracker t, some ()⟩])) :
    ∃ hex addr vouts o nonce d blob n time, hexDecode txid = some t.txHash ∧ t.orderId = o.id ∧
      Names D vouts o.id t.buyerPubkey ∧ decodeOrder D.prim D.workerKey o = some d ∧
      d.escrowAddress = none ∧
      Seals D.prim D.workerKey o.id (notified addr t.buyerPubkey d) blob ∧
      body = writeCalls txid hex addr vouts o t.buyerPubkey nonce
        (contentUpdate o (notified addr t.buyerPubkey d) blob) n time := by
  generalize hbody : body ++ [⟨.insertTracker t, some ()⟩] = calls at h
  have hlast := congrArg List.getLast? hbody
  cases h with
  | written hex addr nonce n time hid hnames hd hno hseal =>
    obtain ⟨rfl, heq⟩ := List.append_inj' hbody rfl
    cases List.singleton_inj.mp heq
    exact ⟨hex, addr, _, _, nonce, _, _, n, time, hid, rfl, hnames, hd, hno, hseal, rfl⟩
  | _ => simp at hlast

/-- **What is in the tracker was notified.** -/
theorem Deployment.Reaches.tracked (h : D.Reaches allow orders g) :
    (∀ ev ∈ g.history, store.Answers ev) →
    (∀ ev ∈ g.history, ev.job = .scanNotifications → FindsRow ev) →
      ∀ t ∈ g.shared.notificationTracker, store.carries t.txHash = some (t.orderId, t.buyerPubkey) ∧
        Notified D g.history t.orderId t.buyerPubkey := by
  refine Reachable.history_inv (R := fun s l => (∀ ev ∈ l, store.Answers ev) →
    (∀ ev ∈ l, ev.job = .scanNotifications → FindsRow ev) →
      ∀ t ∈ s.notificationTracker, store.carries t.txHash = some (t.orderId, t.buyerPubkey) ∧
        Notified D l t.orderId t.buyerPubkey) (fun _ _ _ ht => absurd ht List.not_mem_nil) ?_ h
  intro g l ev hg hl ih hanswers hfinds t ht
  have hg' : D.Reaches allow orders g := hg
  have hev : ev ∈ g.history := by simp [hl]
  have hold : l ⊆ l ++ [ev] := List.subset_append_left l [ev]
  obtain ⟨e, ha⟩ := (hg'.event hev).2
  rcases answer_tracker ha ht with ht | hinsert
  · obtain ⟨hcarries, hnotified⟩ := ih (fun ev hev => hanswers ev (hold hev))
      (fun ev hev => hfinds ev (hold hev)) t ht
    exact ⟨hcarries, hnotified.mono hold⟩
  · have hmade := hg'.madeBy hev
    have hstep := hg'.scanStep hev
    rw [hinsert] at hmade hstep
    have hjob : ev.job = .scanNotifications := hmade
    obtain ⟨pre, txid, body, hpast, hturn⟩ := hstep hjob
    obtain ⟨hex, addr, vouts, o, nonce, d, blob, n, time, hid, horder, hnames, hd, hno, hseal, rfl⟩ :=
      hturn.of_insert
    -- the turn is in the history before the entry
    obtain ⟨g₀, hg₀, rfl, _, k, hp₀⟩ := Reachable.upTo hg hl
    have hpre : (pre ++ [⟨.selectTracker t.txHash, some none⟩]) ++
        writeCalls txid hex addr vouts o t.buyerPubkey nonce
          (contentUpdate o (notified addr t.buyerPubkey d) blob) n time <+: ev.past := by
      simp [hpast]
    obtain ⟨hcarries, hnotified⟩ := Deployment.Reaches.turn_notified hg₀ hp₀
      (fun ev hev => hanswers ev (hold hev)) (fun ev hev => hfinds ev (hold hev)) hjob hpre hid hnames
      hd hno hseal
    rw [horder]
    exact ⟨hcarries, hnotified.mono hold⟩

/-- **A turn that nothing disturbs notifies its order.** -/
theorem Deployment.Reaches.turn_done (h : D.Reaches allow orders g) {pid : Nat} {p : Process}
    (hp : g.procs[pid]? = some p) (hjob : p.job = .scanNotifications) (hhandled : Handled D p.past)
    (hanswers : ∀ ev ∈ g.history, store.Answers ev)
    (hfinds : ∀ ev ∈ g.history, ev.job = .scanNotifications → FindsRow ev) {look : Effect}
    (hlook : look ∈ g.history) (hpid : look.pid = pid) {txHash id key : Bytes}
    (hcall : look.reply.1 = .selectTracker txHash) (hnotifies : store.Notifies D txHash id key)
    (hquiet : ∀ e ∈ g.history, InTurn look e →
      ¬ RpcFails e.reply ∧ (e.reply.1 = .selectOrder id → OpenAt D e.before id)) :
    Notified D g.history id key := by
  subst hpid
  obtain ⟨a, hreply⟩ : ∃ a, look.reply = ⟨.selectTracker txHash, a⟩ := by
    generalize look.reply = r at hcall
    obtain ⟨c, a⟩ := r
    obtain rfl := hcall
    exact ⟨a, rfl⟩
  obtain ⟨rest, hrest⟩ := Reachable.event_begins h hlook hp
  have hsplit : p.past = look.past ++ ⟨.selectTracker txHash, a⟩ :: rest := by
    rw [← hrest, hreply, List.append_assoc]
    rfl
  obtain ⟨txid, t, body, more, rfl, rfl, hid, hturn⟩ := hhandled _ _ _ _ hsplit
  -- each call of the turn is in the history
  have hat : ∀ mid r post, body = mid ++ r :: post →
      ∃ e ∈ g.history, InTurn look e ∧ e.reply = r := by
    intro mid r post hbody
    have hpre : (look.past ++ look.reply :: mid) ++ [r] <+: p.past :=
      ⟨post ++ more, by rw [hsplit, hreply, hbody]; simp⟩
    obtain ⟨l, e, l', hl, hepid, hepast, hereply⟩ := Reachable.event_at h hp hpre
    exact ⟨e, by simp [hl], ⟨hepid, mid, hepast, fun r' hr' => hturn.no_lookup r' (by simp [hbody, hr'])⟩,
      hereply⟩
  have hnoFail : ∀ mid r post, body = mid ++ r :: post → ¬ RpcFails r := by
    intro mid r post hbody hfails
    obtain ⟨e, he, hin, rfl⟩ := hat mid r post hbody
    exact (hquiet e he hin).1 hfails
  have hcarries : ∀ hex vouts post, body = ⟨.ask (.rawTransaction txid), some hex⟩ ::
      ⟨.ask (.decodeRawTransaction hex), some vouts⟩ :: post →
        extractNotification vouts = some (id, key) := by
    intro hex vouts post hbody
    obtain ⟨e, he, _, hraw⟩ := hat [] _ _ hbody
    obtain ⟨e', he', _, hout⟩ := hat [⟨.ask (.rawTransaction txid), some hex⟩] _ _ hbody
    obtain rfl := (hanswers e he).raw txid txHash hex hraw hid
    obtain rfl := (hanswers e' he').outputs _ vouts hout
    exact hnotifies.1
  cases hturn with
  | tracked t =>
    obtain ⟨l, l', hl⟩ := List.append_of_mem hlook
    obtain ⟨g₀, hg₀, rfl, hs₀, _⟩ := Reachable.upTo h hl
    obtain ⟨e, ha⟩ := (h.event hlook).2
    rw [hreply] at ha
    obtain ⟨ht, rfl⟩ := answer_selectTracker ha
    have hold : g₀.history ⊆ g.history := by simp [hl]
    obtain ⟨hcarried, hnotified⟩ := Deployment.Reaches.tracked hg₀
      (fun ev hev => hanswers ev (hold hev)) (fun ev hev => hfinds ev (hold hev)) t (hs₀ ▸ ht)
    obtain ⟨rfl, rfl⟩ := Prod.mk.inj (Option.some.inj (hcarried.symm.trans hnotifies.1))
    exact hnotified.mono hold
  | noTransaction => exact absurd (.raw txid) (hnoFail [] _ [] rfl)
  | notDecoded hex =>
    exact absurd (.decode hex) (hnoFail [⟨.ask (.rawTransaction txid), some hex⟩] _ [] rfl)
  | nothing hex hnone =>
    have hsome := hcarries hex _ [] rfl
    rw [hnone] at hsome
    exact absurd hsome (by simp)
  | skipped hex row hext hrow =>
    have hsome := hcarries hex _ _ rfl
    obtain ⟨rfl, rfl⟩ := Prod.mk.inj (Option.some.inj (hext.symm.trans hsome))
    obtain ⟨e, he, hin, hselect⟩ := hat [_, _] _ [] rfl
    obtain ⟨o, hfind, hopen⟩ := (hquiet e he hin).2 (by rw [hselect])
    obtain ⟨ch, ha⟩ := (h.event he).2
    rw [hselect] at ha
    exact absurd hopen (hrow ⟨hext, hnotifies.2⟩ o (answer_selectOrder_found ha hfind))
  | noAddress hex vouts id' key' o =>
    exact absurd (.address _ _) (hnoFail [_, _, _] _ [] rfl)
  | @written hex addr nonce n time vouts o key' d blob txHash' _ hnames hd hno hseal =>
    have hsome := hcarries hex _ _ rfl
    obtain ⟨rfl, rfl⟩ := Prod.mk.inj (Option.some.inj (hnames.1.symm.trans hsome))
    have hpre : (look.past ++ [⟨.selectTracker txHash, some none⟩]) ++
        writeCalls txid hex addr vouts o key' nonce (contentUpdate o (notified addr key' d) blob) n
          time <+: p.past := by
      simp [hsplit]
    exact (h.turn_notified hp hanswers hfinds hjob hpre hid hnames hd hno hseal).2

end Reaches

namespace Sample

/-- An id of 32 bytes. -/
def wideId : String := "000102030405060708090a0b0c0d0e0f101112131415161718191a1b1c1d1e1f"

def openOrder : OrderData := { fundedOrder with state := "pending" }

/-- `openOrder` for the wide id, under the nonce of fours. -/
def openCiphertext : Bytes :=
  List.flatMap (beBytes 44)
    [ 0x33e1d7677417c7dc6d5ed0cd007c6cc2446c888dd80aae76f38089b77eb2ce74a8ff020e39d5f2b5dd5e231f,
      0xc472de4cbed5804124cb511d5307128388b421edf6a36251be03a09f85d9edb2b64076ea4aeaac6de23518cf,
      0x9b89a490db086fcc0b664769a676e521aecf38bd54febeb51a567d551c37113808c24319f60eb3008c1c7d52,
      0x294f69382dd31ec2f12a4676a733228b188bce338cc54a1bedf3162d136dffb73561a386b8090d5b16353b00,
      0xf04011e884d4db767fdd74c12445927a7dc1bcad232d87874504057c2b27ac699fa9dd20dbe0f97d7f611e52,
      0x7635eb54934a6393770838571ec98e7558bfa3562548438a6fd3387fd80c52a2631290af72ac2e275cba8944,
      0x38bdaa201aa2cc6d4b83a0100f8abfed0cb06534dcce7e6fc5b4f2ea0ed0c3051baac1780dcf3c1c41f2b866,
      0xa3cab39343a575fc8f6e4f29ca4d4e0bdd9919deb71684e100055db2ac016dddf8e8b5f7f1bd3cecbef90939,
      0x7fd2ba51ce8772c5137ae1d1260ca54129dec889c06d4fc7c3488a834e9ecd363d8abe7a7abeae3d4556f0c0,
      0x13b2c09ed7e627f41c8f0b242809ca9270ff2aa40012c4f9a03142b6f1589e165accc343015de5bc453a011b,
      0x53382da0a99d75b9c24148e7b13ea0141cad07a151f37314201d6c3e422cf6f3db5d58b2480e7d339e1c719f ] ++
  beBytes 18 0x8306a67018f4d74d6e86e5f5a648ab17edaf

/-- `openOrder` with its stealth address, under the nonce of fives. -/
def notifiedCiphertext : Bytes :=
  List.flatMap (beBytes 44)
    [ 0x0b111cde8eda2aa54821a70bf32cd99201b7cb5f04adefeaf88a625d1ded25152c14329f3befa7e5ae0412f4,
      0xa6d80b3fb1ab971f915a4f48b0b66b1f8826120f29d4d65c80d62b91b20dd5544d5a5ea9465b3d3549805b02,
      0xda001ace080df7ff4493be3b43274a99f5e84190491afa4e352e914f1def1c2b8a210975202684779d8129a3,
      0xe99bf31e61c42daf72233ac8941ddd1d77120cc9d1024086e9e7f4014ee0770b9172bb382faca792f2540ad4,
      0x772146003e6d004909e9fbbf8dcb05663f3ea439ff5eae2e28e6beafeba72f8559d425fd3bc17d05465a4963,
      0x6bec60a430a178afdf06cb5b9afff208342e08c84d5f101fe79c2ed6efd88dd6b2da7780e2f9fbfe844f7a25,
      0x844701bdd28ce63f511c8e01097210b83aef06004bf018d449b8f2d2465cfeae9cb08de32ad8753d9343b8df,
      0xccca330f62889ca0f1c2566857007819aac23bf0582fbe9b74c8ad387deebe47d3048628146eba9136357e99,
      0x7f5856a7a703cf975fd63ef9ae8129517581474a52290aaf697f22cc47fd81ea6084052b3dbc9c853840016b,
      0xe8f6c1ec6dfd8c89632a53ae42ba0b48ec12155dcaa3215d47572c3f040b26d790c6b6c0ac38a8d9c8f61dea,
      0x84488d24df9fb36014eda7e5eccd4fa04b50ca12055f579c8066f285283a3da0c05a9bd626cce74bddbe6eb7,
      0x232b33174f09dc466fed969e130b62d0caa40ae58e1d4d7cd5c13c2f655ec3fc39f6096f77d49be547b4aba8,
      0x26f8adef79af3eaf8642ecb0a591591dc2aa234c169d5252fd80ccb63eea8ac7bfe5fdd5c7b62478d83e2307 ] ++
  beBytes 5 0xb27e89e9e1

def wideOrders : OrdersTable where
  rows := [InsertOrders.row ⟨hex wideId, sealed 4 openCiphertext, 0, none⟩]
  nodup := by simp

def wideChat : Login where
  path := "/chat/" ++ wideId
  nonce := "10"
  hmac := "85eb9d93fa90c2eb22e1af3badaf0024c695bbd359036fba2c974a7c22fbb830"
  signature :=
    "fcf0f2835c961596ad4d4e1146a17bfd4da92d5b14f7f169a75f318268702dea" ++
    "e5f840666c51a6a5dd195b6617cba29854ef0f19676bfe63a883e57e9a389f0f"

def wideKey : Bytes := hex "030690d2a4386b62a95c542759ef725f915cc8d111c61195ee1da25af0ab033d"

def notifyTables : Primitives.Tables :=
  let tables := loginTables [wideChat]
  { tables with
    hmacSha256 :=
      ((List.replicate 32 7, utf8 "oblivious-order-v1" ++ hex wideId), wideKey) :: tables.hmacSha256
    chacha :=
      [((wideKey, List.replicate 12 4, openCiphertext), openOrder.toVec),
        ((wideKey, List.replicate 12 5, notifiedCiphertext),
          (notified "bcrt1qstealth" buyerKey openOrder).toVec)]
    secpPubkeys := [buyerKey] }

def notifyDeployment : Deployment := deployment notifyTables none

def notification : TxEntry := ⟨"aa", 1⟩

/-- Every transaction is the notification. -/
def notificationStore : TxStore where
  raw _ := "00"
  outputs _ := [notificationOutput (hex wideId) buyerKey]

/-- The next `n` calls of process `pid`, which draws fives and hears of the notification. -/
def nodeActs (pid n : Nat) : List (Label Job Choice) :=
  List.replicate n (.act pid
    { time
      ask := fun
        | .randomBytes n => List.replicate n 5
        | .blockHeight => some 1
        | .blockHash _ => some "b0"
        | .listSinceBlock _ => some ([notification], "b1")
        | .rawTransaction _ => some "00"
        | .decodeRawTransaction _ => some [notificationOutput (hex wideId) buyerKey]
        | .createStealthAddress .. => some "bcrt1qstealth"
        | q => q.noAnswer })

/-- `TxStore.Answers`, as a test. -/
def storeAnswers (ev : Effect) : Bool :=
  match ev.reply with
  | ⟨.ask (.rawTransaction _), some hex⟩ => hex = "00"
  | ⟨.ask (.decodeRawTransaction _), some vouts⟩ => vouts = [notificationOutput (hex wideId) buyerKey]
  | _ => true

theorem storeAnswers_answers {ev : Effect} (h : storeAnswers ev = true) :
    notificationStore.Answers ev := by
  unfold storeAnswers at h
  constructor
  · intro txid txHash hex hreply _
    rw [hreply] at h
    exact of_decide_eq_true h
  · intro hex vouts hreply
    rw [hreply] at h
    exact of_decide_eq_true h

/-- Nothing disturbs a pass in this call. -/
def cleanCall (ev : Effect) : Bool :=
  match ev.reply with
  | ⟨.ask (.rawTransaction _), none⟩ => false
  | ⟨.ask (.decodeRawTransaction _), none⟩ => false
  | ⟨.ask (.createStealthAddress _ _), none⟩ => false
  | ⟨.selectOrder id, _⟩ => (ev.before.orders.find id).any fun o =>
      (decodeOrder notifyDeployment.prim notifyDeployment.workerKey o).any (·.escrowAddress.isNone)
  | ⟨.updateOrders u, _⟩ => (ev.before.orders.find u.whereId).any fun o =>
      u.bumpVersion && u.whereId = o.id && u.whereVersion = some o.version
  | _ => true

theorem cleanCall_findsRow {ev : Effect} (h : cleanCall ev = true) : FindsRow ev := by
  intro u hu
  unfold cleanCall at h
  generalize ev.reply = r at h hu
  obtain ⟨c, a⟩ := r
  obtain rfl := hu
  simp only [Option.any_eq_true, Bool.and_eq_true, decide_eq_true_eq] at h
  obtain ⟨o, ho, ⟨hbump, hid⟩, hversion⟩ := h
  exact ⟨o, ho, hbump, hid, hversion⟩

theorem cleanCall_turn {ev : Effect} (h : cleanCall ev = true) :
    ¬ RpcFails ev.reply ∧ ∀ id, ev.reply.1 = .selectOrder id → OpenAt notifyDeployment ev.before id := by
  unfold cleanCall at h
  constructor
  · intro hfails
    generalize ev.reply = r at h hfails
    cases hfails <;> simp at h
  · intro id hid
    generalize ev.reply = r at h hid
    obtain ⟨c, a⟩ := r
    obtain rfl := hid
    simp only [Option.any_eq_true] at h
    obtain ⟨o, ho, d, hd, hno⟩ := h
    exact ⟨o, ho, d, hd, Option.isNone_iff_eq_none.mp hno⟩

/-- The first pass only remembers the block; the second finds the notification. -/
def notifyTrace : notifyDeployment.Trace anyJob wideOrders
    fun g => g.history.all (fun ev => storeAnswers ev && cleanCall ev) &&
      g.shared.notificationTracker.any fun t => t.orderId = hex wideId && t.buyerPubkey = buyerKey where
  labels := .spawn .scanNotifications :: nodeActs 0 4 ++ .spawn .scanNotifications :: nodeActs 1 12
  allowed _ _ _ := trivial
  passes := by decide +kernel

/-- The pass moves the cursor past the notification in this call, and its order is open. -/
def losesNotification (ev : Effect) : Bool :=
  match ev.reply, ev.past with
  | ⟨.setLastNotifBlock new, _⟩, _ :: ⟨.ask (.listSinceBlock _), some (txs, new')⟩ :: _ =>
    ev.job = .scanNotifications && new = new' && txs = [notification] &&
      (ev.before.orders.find (hex wideId)).any fun o =>
        (decodeOrder notifyDeployment.prim notifyDeployment.workerKey o).any (·.escrowAddress.isNone)
  | _, _ => false

theorem losesNotification_moves {ev : Effect} (h : losesNotification ev = true) :
    MovesPast ev notification ∧ OpenAt notifyDeployment ev.before (hex wideId) := by
  unfold losesNotification at h
  split at h
  case h_2 => exact absurd h (by simp)
  case h_1 new _ r since txs new' rest hreply hpast =>
    simp only [Bool.and_eq_true, decide_eq_true_eq, Option.any_eq_true] at h
    obtain ⟨⟨⟨hjob, rfl⟩, rfl⟩, o, ho, d, hd, hno⟩ := h
    refine ⟨⟨hjob, by decide, since, [notification], new, hreply, ?_, List.mem_singleton_self _⟩,
      o, ho, d, hd, Option.isNone_iff_eq_none.mp hno⟩
    rw [hpast]
    simp

/-- A message to the order comes between the `SELECT` and the `UPDATE` of the second pass. -/
def lossTrace : notifyDeployment.Trace anyJob wideOrders
    fun g => g.history.all (fun ev => storeAnswers ev &&
        (effectiveUpdate ev.reply).all (·.encryptedOrderBlob.isNone)) &&
      g.history.any losesNotification && !g.shared.notificationTracker.isEmpty where
  labels := .spawn .scanNotifications :: nodeActs 0 4 ++ .spawn .scanNotifications :: nodeActs 1 6 ++
    .spawn (.request (wideChat.post (.sendMessage ⟨"AQID", "", "n1"⟩))) :: acts 2 6 ++ nodeActs 1 6
  allowed _ _ _ := trivial
  passes := by decide +kernel

theorem notification_notifies :
    notificationStore.Notifies notifyDeployment (hex "aa") (hex wideId) buyerKey := by
  unfold TxStore.Notifies
  decide +kernel

end Sample

end TorMarketplace
