import TorMarketplace.Proof.Notifications

/-!
# Settlements

A retry broadcasts a transaction and then writes its id down, with an `UPDATE` that looks for the
version that was read before. Nobody looks at whether the `UPDATE` has found its row, so the id of a
transaction can be lost, and later passes find the address spent. `checkPendingPayments_settles` says
what follows a broadcast in its pass; the id is kept where nothing comes in between
(`settlement_recorded`).
-/

namespace TorMarketplace

open Encoding Interleave Prog

/-! ## A retry -/

/-- The order and the transaction id, if the reply is to a broadcast that has succeeded. -/
def broadcastOf : Reply Server → Option (Bytes × String)
  | ⟨.ask (.broadcastSettlement orderId _ _ _ _), some txid⟩ => some (orderId, txid)
  | _ => none

def Quiet (past : Past) : Prop := ∀ r ∈ past, broadcastOf r = none

theorem Quiet.append {past past' : Past} (h : Quiet past) (h' : Quiet past') : Quiet (past ++ past') :=
  fun r hr => (List.mem_append.mp hr).elim (h r) (h' r)

/-- The content `d`, with the id of its settlement. -/
def settledBy (txid : String) (d : OrderData) : OrderData := { d with settlementTxid := some txid }

/-- What follows the broadcast of `txid` for the order `o` of content `d`: the content is sealed with
the id, and an `UPDATE` of the row that was read stores it. -/
inductive Records (D : Deployment) (o : Order) (d : OrderData) (txid : String) : Past → Prop
  | update {nonce blob : Bytes} (affected : Option Nat) (more : Past) (hnonce : nonce.length = 12)
      (hseal : encryptOrderBlob D.prim nonce (settledBy txid d).toVec D.workerKey o.id = some blob) :
      Records D o d txid (⟨.ask (.randomBytes 12), nonce⟩ ::
        ⟨.updateOrders (contentUpdate o (settledBy txid d) blob), affected⟩ :: more)
  | unsealed {nonce : Bytes} (more : Past)
      (hno : encryptOrderBlob D.prim nonce (settledBy txid d).toVec D.workerKey o.id = none) :
      Records D o d txid (⟨.ask (.randomBytes 12), nonce⟩ :: more)

/-- The retry of an order has read `o`, released and with no settlement, before it broadcasts. -/
structure ReadyToSettle (D : Deployment) (o : Order) (d : OrderData) : Prop where
  decoded : decodeOrder D.prim D.workerKey o = some d
  released : d.state = "released"
  unsettled : d.settlementTxid = none

/-- Every broadcast comes after a read of its row, and is followed by what records it. -/
def Settling (D : Deployment) (past : Past) : Prop :=
  ∀ pre r rest id txid, past = pre ++ r :: rest → broadcastOf r = some (id, txid) →
    ∃ o d, o.id = id ∧ (⟨.selectOrder id, some (some o)⟩ : Reply Server) ∈ pre ∧
      ReadyToSettle D o d ∧ Records D o d txid rest

theorem Records.append {D : Deployment} {o : Order} {d : OrderData} {txid : String} {rest : Past}
    (h : Records D o d txid rest) (more : Past) : Records D o d txid (rest ++ more) := by
  cases h with
  | update affected more' hnonce hseal => exact .update affected (more' ++ more) hnonce hseal
  | unsealed more' hno => exact .unsealed (more' ++ more) hno

theorem Settling.of_quiet {D : Deployment} {past : Past} (h : Quiet past) : Settling D past := by
  intro pre r rest id txid hsplit hr
  have hnone := h r (by simp [hsplit])
  exact absurd (hnone.symm.trans hr) (by simp)

/-- More calls, which settle by themselves. -/
theorem Settling.append {D : Deployment} {past body : Past} (h : Settling D past)
    (hbody : Settling D body) : Settling D (past ++ body) := by
  intro pre r rest id txid hsplit hr
  rcases List.append_eq_append_iff.mp hsplit with ⟨as, rfl, hrest⟩ | ⟨bs, hpast, hrest⟩
  · obtain ⟨o, d, hid, hread, hready, hrecords⟩ := hbody as r rest id txid hrest hr
    exact ⟨o, d, hid, List.mem_append_right _ hread, hready, hrecords⟩
  · cases bs with
    | nil =>
      obtain ⟨o, d, hid, hread, _⟩ := hbody [] r rest id txid hrest.symm hr
      exact absurd hread List.not_mem_nil
    | cons r' bs =>
      obtain ⟨rfl, rfl⟩ := List.cons.inj hrest
      obtain ⟨o, d, hid, hread, hready, hrecords⟩ := h pre r bs id txid hpast hr
      exact ⟨o, d, hid, hread, hready, hrecords.append body⟩

/-- One broadcast, after the read and before what records it. -/
theorem settling_broadcast {D : Deployment} {o : Order} {d : OrderData} {txid : String}
    {pre rest : Past} {r : Reply Server} (hpre : Quiet pre) (hrest : Quiet rest)
    (hr : broadcastOf r = some (o.id, txid))
    (hread : (⟨.selectOrder o.id, some (some o)⟩ : Reply Server) ∈ pre) (hready : ReadyToSettle D o d)
    (hrecords : Records D o d txid rest) : Settling D (pre ++ r :: rest) := by
  intro pre' r' rest' id txid' hsplit hr'
  have hloud : ∀ {past : Past}, Quiet past → r' ∉ past := fun hquiet hmem =>
    absurd ((hquiet r' hmem).symm.trans hr') (by simp)
  rcases List.append_eq_append_iff.mp hsplit with ⟨as, rfl, has⟩ | ⟨bs, rfl, hbs⟩
  · cases as with
    | nil =>
      obtain ⟨rfl, rfl⟩ := List.cons.inj has
      obtain ⟨rfl, rfl⟩ := Prod.mk.inj (Option.some.inj (hr.symm.trans hr'))
      exact ⟨o, d, rfl, List.mem_append_left _ hread, hready, hrecords⟩
    | cons r₀ as =>
      obtain ⟨_, rfl⟩ := List.cons.inj has
      exact absurd (by simp) (hloud hrest)
  · cases bs with
    | nil =>
      obtain ⟨rfl, rfl⟩ := List.cons.inj hbs
      obtain ⟨rfl, rfl⟩ := Prod.mk.inj (Option.some.inj (hr.symm.trans hr'))
      exact ⟨o, d, rfl, by simpa using hread, hready, hrecords⟩
    | cons r₀ bs =>
      obtain ⟨rfl, _⟩ := List.cons.inj hbs
      exact absurd (by simp) (hloud hpre)

section Pass

variable {D : Deployment} (past : Past)

/-- What has been added to `past` settles by itself. -/
def SettlesSince (D : Deployment) (past past' : Past) : Prop :=
  ∃ body, past' = past ++ body ∧ Settling D body

theorem SettlesSince.of_quiet {past' body : Past} (hpast' : past' = past ++ body) (h : Quiet body) :
    SettlesSince D past past' :=
  ⟨body, hpast', .of_quiet h⟩

/-- How a settlement of the content `d` ends, and what it has added to the past. -/
def SettleEnds {ε : Type} (orderId : Bytes) (d : OrderData) (past past' : Past)
    (r : Except ε OrderData) : Prop :=
  (∃ body, past' = past ++ body ∧ Quiet body ∧ ∀ d', r = .ok d' → d' = d) ∨
    ∃ pre b txid, past' = past ++ pre ++ [b] ∧ Quiet pre ∧ broadcastOf b = some (orderId, txid) ∧
      r = .ok (settledBy txid d)

theorem settleStealthOrder_ends (st : AppState) (orderId : Bytes) (d : OrderData) :
    Spec server.May (fun _ _ => True) (SettleEnds orderId d past) past
      (settleStealthOrder st orderId d) := by
  have hfails : ∀ {past' body : Past} {e : Failure}, past' = past ++ body → Quiet body →
      SettleEnds orderId d past past' (.error e) :=
    fun hpast' h => .inl ⟨_, hpast', h, fun _ heq => by cases heq⟩
  have hnothing : Quiet [] := fun r hr => absurd hr List.not_mem_nil
  have hutxo : ∀ address answer, Quiet [⟨.ask (.hasConfirmedUtxo address), answer⟩] :=
    fun address answer => by simp [Quiet, broadcastOf]
  unfold settleStealthOrder
  split
  · exact .inl ⟨[], (List.append_nil past).symm, hnothing, fun _ heq => (Except.ok.inj heq).symm⟩
  simp only [spec_ensure_bind, spec_orFail_bind, spec_call_bind, spec_pure, true_and]
  refine ⟨fun _ => hfails (List.append_nil past).symm hnothing, fun _ => ?_⟩
  refine ⟨fun _ => hfails (List.append_nil past).symm hnothing, fun address _ utxo _ => ?_⟩
  refine ⟨fun _ => hfails rfl (hutxo _ _), fun found _ => ?_⟩
  refine ⟨fun _ => hfails rfl (hutxo _ _), fun _ => ?_⟩
  refine ⟨fun _ => hfails rfl (hutxo _ _), fun sellerPk _ => ?_⟩
  refine ⟨fun _ => hfails rfl (hutxo _ _), fun _ => ?_⟩
  refine ⟨fun _ => hfails rfl (hutxo _ _), fun feeAddress _ => ?_⟩
  refine ⟨fun _ => hfails rfl (hutxo _ _), fun buyerPk _ => ?_⟩
  refine ⟨fun _ => hfails rfl (hutxo _ _), fun _ answer _ => ?_⟩
  refine ⟨fun hnone => ?_, fun txid htxid => ?_⟩
  · subst hnone
    exact hfails (List.append_assoc _ _ _) ((hutxo _ _).append (by simp [Quiet, broadcastOf]))
  · subst htxid
    exact .inr ⟨_, _, txid, rfl, hutxo _ _, rfl, rfl⟩

theorem retryBtcSettlement_settles (orderId : Bytes) :
    Spec server.May (fun _ _ => True) (fun past' _ => SettlesSince D past past') past
      (retryBtcSettlement D.worker orderId) := by
  have hquiet : ∀ {past' body : Past}, past' = past ++ body → Quiet body → SettlesSince D past past' :=
    fun hpast' h => ⟨_, hpast', .of_quiet h⟩
  have hread : ∀ row, Quiet [⟨.selectOrder orderId, row⟩] := fun row => by simp [Quiet, broadcastOf]
  have hnothing : Quiet [] := fun r hr => absurd hr List.not_mem_nil
  unfold retryBtcSettlement loadOrder
  simp only [bind_bind, spec_orFail_bind, spec_call_bind, true_and]
  refine ⟨fun _ => hquiet (List.append_nil _).symm hnothing, fun key hkey row hrow => ?_⟩
  refine ⟨fun _ => hquiet rfl (hread _), fun found hfound => ?_⟩
  refine ⟨fun _ => hquiet rfl (hread _), fun o ho => ?_⟩
  subst hfound ho
  obtain ⟨rfl, _⟩ := may_selectOrder hrow
  obtain rfl := Option.some.inj (D.worker_workerKey.symm.trans hkey)
  refine ⟨fun _ => hquiet rfl (hread _), fun raw hraw => ?_⟩
  refine ⟨fun _ => hquiet rfl (hread _), fun d hd => ?_⟩
  have hdecode : decodeOrder D.prim D.workerKey o = some d := by
    have hopens : decryptOrderBlob D.prim o.encryptedOrderBlob D.workerKey o.id = some raw := hraw
    rw [decodeOrder, hopens, Option.bind_some, hd]
  rw [spec_pure_bind]
  dsimp only
  split
  · exact hquiet rfl (hread _)
  rename_i hno
  simp only [not_or, not_not, Option.not_isSome_iff_eq_none] at hno
  have hready : ReadyToSettle D o d := ⟨hdecode, hno.1, hno.2⟩
  rw [spec_attempt_bind]
  refine spec_mono (fun _ _ h => h) (fun past₁ r hr => ?_) (settleStealthOrder_ends _ D.worker o.id d)
  rcases hr with ⟨body, rfl, hbody, hsame⟩ | ⟨pre, b, txid, rfl, hpre, hb, rfl⟩
  · -- nothing was broadcast
    have hend : SettlesSince D past (past ++ [⟨.selectOrder o.id, some (some o)⟩] ++ body) :=
      hquiet (List.append_assoc _ _ _) ((hread _).append hbody)
    cases r with
    | error _ => exact hend
    | ok d' =>
      obtain rfl := hsame d' rfl
      dsimp only
      rw [if_neg (by simp [hno.2])]
      exact hend
  · -- a transaction was broadcast, and is recorded
    have hpre' : Quiet (⟨.selectOrder o.id, some (some o)⟩ :: pre) := (hread _).append hpre
    have hrecorded : ∀ {rest : Past}, Quiet rest → Records D o d txid rest →
        SettlesSince D past (past ++ [⟨.selectOrder o.id, some (some o)⟩] ++ pre ++ [b] ++ rest) :=
      fun hrest hrecords => ⟨_, by simp, settling_broadcast hpre' hrest hb (by simp) hready hrecords⟩
    simp only [settledBy, Option.isSome_some, if_true, sealOrder, bind_bind, spec_call_bind,
      spec_orFail_bind, spec_pure, true_and]
    intro nonce hnonce
    refine ⟨fun hnone => ?_, fun blob hblob affected _ => ?_⟩
    · exact hrecorded (by simp [Quiet, broadcastOf]) (.unsealed [] hnone)
    · have hend := hrecorded (by simp [Quiet, broadcastOf])
        (.update affected [] (may_randomBytes hnonce) hblob)
      simp only [List.append_assoc] at hend ⊢
      exact ⟨fun _ => hend, fun _ _ => hend⟩

/-- A program that broadcasts nothing. -/
abbrev Silent {α : Type} (past : Past) (x : Program α) : Prop :=
  Spec server.May (fun _ c => ∀ a, broadcastOf ⟨c, a⟩ = none) (OnOk fun _ _ => True) past x

theorem attempt_silent {x : Program Unit} (h : Silent past x) :
    Silent past (do let _ ← Prog.attempt x; pure ()) := by
  rw [Silent, spec_attempt_bind]
  exact spec_mono (fun _ _ h => h) (fun _ _ _ => trivial) h

theorem markOrderFunded_silent (st : AppState) (orderId : Bytes) (now : Int64) :
    Silent past (markOrderFunded st orderId now) := by
  simp [markOrderFunded, loadOrder, sealOrder, broadcastOf]

theorem markOrderCancelled_silent (st : AppState) (orderId : Bytes) :
    Silent past (markOrderCancelled st orderId) := by
  simp [markOrderCancelled, loadOrder, sealOrder, broadcastOf]

theorem checkPayment_silent (st : AppState) (chain : Chain) (parseAmount : String → Option UInt64)
    (required : UInt64) (now : Int64) (rowId : Bytes) (d : OrderData) :
    Silent past (checkPayment chain parseAmount required st now rowId d) := by
  have hfund := fun past => attempt_silent past (markOrderFunded_silent past st rowId now)
  have hcancel := fun past => attempt_silent past (markOrderCancelled_silent past st rowId)
  unfold checkPayment
  split
  · simp
  simp only [spec_orFail_bind, onOk_error, implies_true, true_and]
  intro expected _
  split
  · simp
  simp only [broadcastOf, spec_call_bind, implies_true, true_and]
  intro status _
  cases status with
  | none => simp
  | some status =>
    dsimp only
    repeat' split
    all_goals first | exact hfund _ | exact hcancel _ | simp

theorem verifyPayments_silent (st : AppState) (xmrOrders btcOrders : List (Bytes × OrderData))
    (now : Int64) : Silent past (verifyPayments st xmrOrders btcOrders now) := by
  have hchain : ∀ {chain : Chain} {past : Past} {body : Program Unit},
      (∀ past, Silent past body) → Silent past (whenNoFork chain body) := by
    intro chain past body hbody
    simp only [whenNoFork, Silent, broadcastOf, spec_call_bind, implies_true, true_and]
    intro fork _
    split
    · exact hbody _
    · simp
  unfold verifyPayments
  split
  · simp
  · refine spec_seq_onOk (hchain fun _ => ?_) fun _ _ _ _ => hchain fun _ => ?_
    · exact spec_forEach_onOk fun _ _ _ _ => checkPayment_silent _ _ _ _ _ _ _ _
    · exact spec_forEach_onOk fun _ _ _ _ => checkPayment_silent _ _ _ _ _ _ _ _

/-- A silent program leaves a quiet past quiet. -/
theorem quiet_of_silent {x : Program Unit} (hx : Silent past x) (hquiet : Quiet past) :
    Spec server.May (fun _ _ => True) (fun past' _ => Quiet past') past x := by
  refine spec_mono (fun _ _ _ => trivial) (fun _ _ h => of_eq_true h.2)
    (spec_frame (f := Quiet) (b := True) (fun p c a hc hp => eq_true ?_) (eq_true hquiet) hx)
  exact (of_eq_true hp).append (by simpa [Quiet] using hc a)

/-- **What a pass does after a broadcast**: it records the id, unless the content can not be sealed. -/
theorem checkPendingPayments_settles :
    Spec server.May (fun _ _ => True) (fun past _ => Settling D past) []
      (checkPendingPayments D.worker) := by
  have hnothing : Quiet [] := fun r hr => absurd hr List.not_mem_nil
  have hclock : ∀ time, Quiet [⟨.now, time⟩] := fun time => by simp [Quiet, broadcastOf]
  have hrows : ∀ time rows, Quiet ([⟨.now, time⟩] ++ [⟨.selectOrders, rows⟩]) := fun time rows => by
    simp [Quiet, broadcastOf]
  simp only [checkPendingPayments, getWorkerKey, spec_orFail_bind, spec_call_bind, true_and,
    List.nil_append]
  refine fun time _ => ⟨fun _ => .of_quiet (hclock _), fun key _ rows _ => ?_⟩
  refine ⟨fun _ => .of_quiet (hrows _ _), fun _ _ => ?_⟩
  refine spec_seq (quiet_of_silent _ (verifyPayments_silent _ _ _ _ _) (hrows _ _))
    (fun past _ hquiet => ?_) (fun past _ hquiet => .of_quiet hquiet)
  simp only [spec_call_bind, true_and]
  intro keys _
  refine spec_forEach (Settling D) (fun _ h => h) (fun id _ past hsettling => ?_) (.of_quiet ?_)
  · rw [tryRetryBtcSettlement, spec_attempt_bind]
    refine spec_mono (fun _ _ h => h) (fun past' r hr => ?_) (retryBtcSettlement_settles past id)
    obtain ⟨body, rfl, hbody⟩ := hr
    exact hsettling.append hbody
  · exact hquiet.append (by simp [Quiet, broadcastOf])

end Pass

section Reaches

variable {D : Deployment} {allow : System → Job → Prop} {orders : OrdersTable} {g : System}

/-! ## Runs -/

/-- The content of the row `id` has the settlement `txid`. -/
def SettledAs (D : Deployment) (s : Shared) (id : Bytes) (txid : String) : Prop :=
  ∃ o d, s.orders.find id = some o ∧ decodeOrder D.prim D.workerKey o = some d ∧
    d.settlementTxid = some txid

/-- In this call a pass has broadcast `txid` for the order `id`. -/
def Broadcasts (ev : Effect) (id : Bytes) (txid : String) : Prop :=
  ev.job = .checkPendingPayments ∧ broadcastOf ev.reply = some (id, txid)

/-- The process is a pass of the poller that has ended. -/
def PassEnded (g : System) (pid : Nat) : Prop :=
  ∃ p r, g.procs[pid]? = some p ∧ p.job = .checkPendingPayments ∧ p.prog.result = some r

/-- The call is the `UPDATE` that records the broadcast of `txid` for the order `id`. -/
def RecordsIn (ev : Effect) (id : Bytes) (txid : String) : Prop :=
  (∃ u, ev.reply.1 = .updateOrders u) ∧
    ∃ pre b n, ev.past = pre ++ [b, n] ∧ broadcastOf b = some (id, txid)

/-- A blob that a client stores has the settlement `txid`, too. -/
def HoldsTxid (D : Deployment) (id blob : Bytes) (txid : String) : Prop :=
  ∃ d, (decryptOrderBlob D.prim blob D.workerKey id).bind OrderData.fromSlice = some d ∧
    d.settlementTxid = some txid

/-- Between the read of a row and the `UPDATE` that records its settlement nobody else updates the row;
the cipher and the database do not fail there; and no client replaces the content afterwards by one
without the settlement. -/
structure SettlesCleanly (D : Deployment) (g : System) : Prop where
  sealable : ∀ ev ∈ g.history, ∀ pre b id txid nonce o d, ev.past = pre ++ [b] →
    broadcastOf b = some (id, txid) → ev.reply = ⟨.ask (.randomBytes 12), nonce⟩ →
      (⟨.selectOrder id, some (some o)⟩ : Reply Server) ∈ pre →
        decodeOrder D.prim D.workerKey o = some d →
          encryptOrderBlob D.prim nonce (settledBy txid d).toVec D.workerKey o.id ≠ none
  undisturbed : ∀ ev ∈ g.history, ∀ id txid, RecordsIn ev id txid →
    FindsRow ev ∧ ∀ u, ev.reply ≠ ⟨.updateOrders u, none⟩
  kept : ∀ l ev l' id txid, g.history = l ++ ev :: l' → RecordsIn ev id txid → ∀ e ∈ l',
    e.job.isWorker = false → ∀ blob, StoresBlob e id blob → HoldsTxid D id blob txid

/-- The worker keeps a settlement. -/
theorem WorkerEdge.settlementTxid {d d' : OrderData} {txid : String} (h : WorkerEdge d d')
    (hd : d.settlementTxid = some txid) : d'.settlementTxid = some txid := by
  cases h with
  | settle _ _ hno => exact absurd (hno.symm.trans hd) (by simp)
  | _ => exact hd

/-- A settlement is kept by every call that does not store a content without it. -/
theorem Deployment.Reaches.settledAs_event (h : D.Reaches allow orders g) {ev : Effect}
    (hev : ev ∈ g.history) {id : Bytes} {txid : String}
    (hkept : ev.job.isWorker = false → ∀ blob, StoresBlob ev id blob → HoldsTxid D id blob txid)
    (hsettled : SettledAs D ev.before id txid) : SettledAs D ev.after id txid := by
  obtain ⟨o, d, ho, hd, htxid⟩ := hsettled
  obtain ⟨hcall, _, ha⟩ := h.event hev
  rcases (hcall.step ha).some_cases ho with ⟨⟨u, hu, rfl⟩, _⟩ | ⟨_, hsame⟩
  · by_cases hw : ev.job.isWorker = true
    · obtain ⟨o', c, d', blob, hbefore, hafter, _, hc, hedge, hseal, hstored⟩ := h.workerUpdate hev hw hu
      obtain rfl := Option.some.inj (ho.symm.trans hbefore)
      obtain rfl := Option.some.inj (hd.symm.trans hc)
      exact ⟨_, d', hafter, decode_set hseal hstored, hedge.settlementTxid htxid⟩
    · obtain ⟨o', hsaw, hg⟩ := h.guarded hev hu
      obtain ⟨hbefore, hafter⟩ := h.replaces hev hu hsaw hg
      obtain rfl := Option.some.inj (ho.symm.trans hbefore)
      cases hblob : u.encryptedOrderBlob with
      | none =>
        have hsame : (u.set o).encryptedOrderBlob = o.encryptedOrderBlob := by
          simp [UpdateOrders.set, hblob]
        have hdecode : decodeOrder D.prim D.workerKey (u.set o) = decodeOrder D.prim D.workerKey o :=
          decodeOrder_congr rfl hsame
        exact ⟨_, d, hafter, hdecode.trans hd, htxid⟩
      | some blob =>
        obtain ⟨c, hc, hctxid⟩ := hkept (by simpa using hw) blob ⟨u, hu, rfl, hblob⟩
        have hnew : (u.set o).encryptedOrderBlob = blob := by simp [UpdateOrders.set, hblob]
        refine ⟨_, c, hafter, ?_, hctxid⟩
        rw [decodeOrder, hnew, UpdateOrders.set_id, ← hg.2.1]
        exact hc
  · exact ⟨o, d, hsame, hd, htxid⟩

/-- The pass of a process that has ended has recorded what it has broadcast, or could not. -/
theorem Deployment.Reaches.settling (h : D.Reaches allow orders g) {pid : Nat} {p : Process}
    (hp : g.procs[pid]? = some p) {r : Except Failure Response} (hres : p.prog.result = some r)
    (hjob : p.job = .checkPendingPayments) : Settling D p.past := by
  have hbody : ∀ j, Spec server.May (fun _ _ => True)
      (fun past _ => j = Job.checkPendingPayments → Settling D past) [] (D.program j) := by
    intro j
    by_cases hj : j = .checkPendingPayments
    · subst hj
      exact spec_seq checkPendingPayments_settles (fun _ _ h _ => h) (fun _ _ h _ => h)
    · exact spec_of_forall (fun _ _ => trivial) fun _ _ hj' => absurd hj' hj
  exact Reachable.post (fun _ j _ => hbody j) h (List.mem_of_getElem? hp) hres hjob

/-- After the last call of the process a later pass has seen the row, and has ended. -/
def SeenAgain (g : System) (pid : Nat) (id : Bytes) : Prop :=
  ∃ l snap l' rows, g.history = l ++ snap :: l' ∧ snap.reply = ⟨.selectOrders, some rows⟩ ∧
    (∃ o ∈ rows, o.id = id) ∧ PassEnded g snap.pid ∧ ∀ e ∈ snap :: l', e.pid ≠ pid

end Reaches

namespace Sample

/-- A released order, at the address of the generator. -/
def releasedOrder : OrderData :=
  { fundedOrder with
    buyerPubkey := some "0279be667ef9dcbbac55a06295ce870b07029bfcdb2dce28d959f2815b16f81798"
    sellerPubkey := some "02c6047f9441ed7d6d3045406e95c07cd85c778e4b8cef3ca7abac09b95c709ee5"
    state := "released"
    escrowAddress := some "bcrt1qw508d6qejxtdg4y5r3zarvary0c5xw7kygt080"
    escrowAmount := some "0.001" }

/-- The transaction that settles the order. -/
def settlementId : String := "7f7f7f7f7f7f7f7f7f7f7f7f7f7f7f7f7f7f7f7f7f7f7f7f7f7f7f7f7f7f7f7f"

/-- `releasedOrder` under the nonce of eights. -/
def releasedCiphertext : Bytes :=
  List.flatMap (beBytes 44)
    [ 0x2e15d601eab5b563816bc985e979a5ef244b893538fb8fb438d3941813be6bf9c61f06d460a72602c5ad467e,
      0xb0b0874db48487fb295ebc065fc8450e561e4c63710445c6667a606e1b0e8168b98e42cd02b22b088d9f8614,
      0x4dc37a40a2849f482ba9fd7295891889360d7b30a31b434d01c59127edd11ef3855e48b6fe99f4d4c92cd113,
      0x03db048d5d4840108c660015823dc63eb64e04e8ce0c2c5da913bfdaa034f231b0761aa2b1412f252ac14a07,
      0x5e0ea2e907ed755411f66c56e4d21b3605851b36f9cb9b92e92dba5782b624d52764197c7510f0e3777fec26,
      0xa6d18b848e8b3d537bd0cdcb1f2e3327b728fc8e3549ab6358309dc47a19902fd41c2aed97bce85792a4530c,
      0xc70e79e47d17660d7a975e064a9e56ab72ac280346c8f7760e9081f1a46f2268e226af596d9d88b1946ad6f4,
      0x40f50e472c75070fe681072e764cc5b944af2fd83035c235275009444986c7deb82a88c82e5fea853dd9ee62,
      0x3d4dcb540a36711829b5c83d40ca9e114678c70d4133b2979c279ca19b96139eb04cb5373eae74bd8008dda4,
      0x1304f55fde9a14da6d15a3ecaebe87a4baf60fd7cf5511792bdd945190eeb3bf2983aa412dc550890e81ae72,
      0x625adb53de4a6e22b8c2df60da588ba030890fe5cd3b83e517ba8f38047f6b02b2071c2c0e3cda6e78de8c7c,
      0xcf60ba1f4b9fb5625094ff03a5677d74d22b5c9d90ccabeb66b32bfdbd1f5c7faa19cbc9209368855bfb2eb6,
      0xc326637fd9f40c6f6627aa09ae758f0b4128a6aba1529655470b6642fccb774703948df6344055616dae5e18,
      0xbe5104a1f5f99b140d3ae8a2e8718339ba8b000b21028534e511c65a13ab56462746e557d90e631c9b545e52,
      0x5932b5703dee1ea5b04dc45c134806033971b0285f7c16af6f254dd937030d92a8317b231e0b62dedeed521c ] ++
  beBytes 16 0x79ee217efe1cc42994031962bc047e8a

/-- `releasedOrder` with its settlement, under the nonce of nines. -/
def settledCiphertext : Bytes :=
  List.flatMap (beBytes 44)
    [ 0x0b647631d77b37a73a1a34df84b9d939b647f965ff49bc9d58c2d33f9bb8a2772b13603198ae52d3b3a20138,
      0x76db4f62416a5d33bbc6f5bbaeeaca877ab832bf2ead92c93f71db3046d1ffe155d85fb63299a308c2889cb1,
      0x0b30db624926d614ca81aa7eb4727844ed5446867c52493ed12f54f0f1dd8c783ea20214a125dadf2377f775,
      0x3b29a0017e8fd3a171823fe29e76f1769d96ea51f0fb3be90281cee5c82213745dfd97d0cf98a6837f1288ca,
      0x12bac486e7703aee711565b105719a9f80c3bf6adf6e44ead42b74a28b9b0690d0f0f0cb07cdce8fbe1a3238,
      0xae359e5354eed9d3097634ce9444710129cb234a97222c353babda1b6069f3473d37dfc8dc5e47de8d4d6d59,
      0x0da976773455cb5bc5a3ffda6573196f91e07cf53c6027fe994659f143333886f6e9a7dea4805bd362424b1c,
      0x7f459d7bf950924c704e75ab9c4e4d463cb990fc9bac832532857de81e73b2183771789164b12b7f7d60abe1,
      0x790e8483832946ce530d293c70a330b1770b1664624550d05c05a4ca518180d44832268396577902abbc839c,
      0x035443d88a28c245416a6c55de0ffc400ccfae933e00af4bfc3c900f0908cd5de9a0097ef10fc18ff52f841b,
      0x530ecf6df45c0cd21c683b557f7eee3a74e9638ab06556eb5228e5a14e1a4cb9fd1960943e42a6587bffc278,
      0x8e3053577d2a81622c79df4481c40e3b4a37cc5cc102f9209b7087acf2c44698d5c117ff0c26a7f1c2653372,
      0x95aa489701e413ecfe9cb4fae22924315ac064a9629d49512ea844509e92040954484e968cfccdc6ec888834,
      0x09a00f1a423968f186e501b6c3cc4845731ee08884a2634727a82326952d2a9a7e7f01d5373e288ff38839f0,
      0x2bb5263ebcd1de1d62ba69f705cddb481b654500e4ae3bd8c3f72fc0aedb78937191fa0e9573e63746ca3ea5,
      0x6d558b1407707a99f567a43250968d17534fbe9cbc3680d092fc6a2f9d318d275dec7aa8920749fc07536ebc ] ++
  beBytes 34 0xe7dc7dc0a3026bf174fe02de2624c9b5d73027bbf66542d0be8470ba76859edacc3d

def settleTables : Primitives.Tables :=
  let tables := loginTables [firstChat]
  { tables with
    hmacSha256 := workerTables.hmacSha256 ++ tables.hmacSha256
    chacha :=
      [((orderKey, List.replicate 12 8, releasedCiphertext), releasedOrder.toVec),
        ((orderKey, List.replicate 12 9, settledCiphertext), (settledBy settlementId releasedOrder).toVec)]
    secpPubkeys :=
      [buyerKey, hex "02c6047f9441ed7d6d3045406e95c07cd85c778e4b8cef3ca7abac09b95c709ee5"] }

def settleDeployment : Deployment :=
  { deployment settleTables none with feeAddressBtc := some "mrCDrCybB6J1vRfbwM5hemdJz73FwDBC8r" }

/-- The next `n` calls of process `pid`, which draws nines. The address has an output or has none. -/
def settleActs (unspent : Bool) (pid n : Nat) : List (Label Job Choice) :=
  List.replicate n (.act pid
    { time
      ask := fun
        | .randomBytes n => List.replicate n 9
        | .hasConfirmedUtxo _ => some unspent
        | .broadcastSettlement .. => some settlementId
        | q => q.noAnswer })

/-- Process 0 has broadcast the settlement of the order. -/
def broadcasts (ev : Effect) : Bool :=
  ev.pid = 0 && ev.job = .checkPendingPayments &&
    broadcastOf ev.reply = some (hex orderId, settlementId)

def passEnded (pid : Nat) (g : System) : Bool :=
  g.procs[pid]?.any fun p => p.job = .checkPendingPayments && p.prog.result.isSome

theorem passEnded_ended {pid : Nat} {g : System} (h : passEnded pid g = true) : PassEnded g pid := by
  obtain ⟨p, hp, hcheck⟩ := (Option.any_eq_true _ _).mp h
  simp only [Bool.and_eq_true, decide_eq_true_eq, Option.isSome_iff_exists] at hcheck
  obtain ⟨hjob, r, hres⟩ := hcheck
  exact ⟨p, r, hp, hjob, hres⟩

/-- The call of a pass finds its row, and can seal what it has broadcast. -/
def settlesCall (ev : Effect) : Bool :=
  ev.job = .checkPendingPayments &&
    match ev.reply with
    | ⟨.updateOrders u, affected⟩ => affected.isSome && (ev.before.orders.find u.whereId).any fun o =>
        u.bumpVersion && u.whereId = o.id && u.whereVersion = some o.version
    | ⟨.ask (.randomBytes _), nonce⟩ => ev.past.all fun r =>
        match r with
        | ⟨.selectOrder _, some (some o)⟩ =>
          (decodeOrder settleDeployment.prim settleDeployment.workerKey o).all fun d =>
            (encryptOrderBlob settleDeployment.prim nonce (settledBy settlementId d).toVec
              settleDeployment.workerKey o.id).isSome
        | _ => true
    | _ => true

/-- What is broadcast is the settlement. -/
def oneSettlement (ev : Effect) : Bool := (broadcastOf ev.reply).all (·.2 = settlementId)

def settleTrace : settleDeployment.Trace anyJob (orders (sealed 8 releasedCiphertext))
    fun g => g.history.any broadcasts && passEnded 0 g &&
      g.history.all fun ev => settlesCall ev && oneSettlement ev where
  labels := .spawn .checkPendingPayments :: settleActs true 0 8
  allowed _ _ _ := trivial
  passes := by decide +kernel

/-- After the settlement and a message comes a second pass, which finds the address spent. -/
def seenAgain (g : System) : Bool :=
  match g.history.drop 15 with
  | snap :: l' => (snap :: l').all (·.pid ≠ 0) && passEnded snap.pid g &&
      match snap.reply with
      | ⟨.selectOrders, some rows⟩ => rows.any (·.id = hex orderId)
      | _ => false
  | [] => false

def lostTrace : settleDeployment.Trace anyJob (orders (sealed 8 releasedCiphertext))
    fun g => g.history.any broadcasts && passEnded 0 g && seenAgain g &&
      (g.shared.orders.find (hex orderId)).all fun o =>
        (decodeOrder settleDeployment.prim settleDeployment.workerKey o).all (·.settlementTxid.isNone) where
  labels := .spawn .checkPendingPayments :: settleActs true 0 6 ++
    .spawn (.request (firstChat.post (.sendMessage ⟨"AQID", "", "n1"⟩))) :: acts 1 6 ++
    settleActs false 0 2 ++ .spawn .checkPendingPayments :: settleActs false 2 5
  allowed _ _ _ := trivial
  passes := by decide +kernel

end Sample

open Sample in
theorem Sample.settlesCall_clean {g : System}
    (hg : settleDeployment.Reaches anyJob (orders (sealed 8 releasedCiphertext)) g)
    (hcalls : ∀ ev ∈ g.history, settlesCall ev = true ∧ oneSettlement ev = true) :
    SettlesCleanly settleDeployment g := by
  have hcall : ∀ ev ∈ g.history, ev.job = .checkPendingPayments := fun ev hev => by
    have h := (hcalls ev hev).1
    simp only [settlesCall, Bool.and_eq_true, decide_eq_true_eq] at h
    exact h.1
  refine ⟨?_, ?_, ?_⟩
  · intro ev hev pre b id txid nonce o d hpast hb hreply hread hd hnone
    obtain ⟨l, l', hl⟩ := List.append_of_mem hev
    obtain ⟨e, he, _, _, rfl⟩ := Reachable.event_of_event_past hg hl (r := b) (by simp [hpast])
    have hone := (hcalls e (by simp [hl, he])).2
    rw [oneSettlement, hb] at hone
    obtain rfl : txid = settlementId := of_decide_eq_true hone
    have hseals := (hcalls ev hev).1
    rw [settlesCall, hreply] at hseals
    have hrow := List.all_eq_true.mp (Bool.and_eq_true_iff.mp hseals).2 _
      (hpast ▸ List.mem_append_left _ hread)
    simp [hd, hnone] at hrow
  · rintro ev hev id txid ⟨⟨u, hu⟩, _⟩
    have hfinds := (hcalls ev hev).1
    unfold settlesCall at hfinds
    unfold FindsRow
    generalize ev.reply = r at hfinds hu
    obtain ⟨c, a⟩ := r
    obtain rfl := hu
    simp only [Bool.and_eq_true, Option.any_eq_true, decide_eq_true_eq] at hfinds
    obtain ⟨_, hsome, o, ho, ⟨hbump, hid⟩, hversion⟩ := hfinds
    refine ⟨fun u' hu' => ?_, fun u' hreply => ?_⟩
    · obtain rfl := Call.updateOrders.inj hu'
      exact ⟨o, ho, hbump, hid, hversion⟩
    · cases hreply
      exact absurd hsome (by simp)
  · intro l ev l' id txid hl _ e he hw
    rw [hcall e (by simp [hl, he])] at hw
    exact absurd hw (by simp [Job.isWorker])

end TorMarketplace
