import TorMarketplace.Proof.Credits
import TorMarketplace.Proof.Statements

/-!
# The announcement of a funding

`mark_order_funded` sends the order's id to the subscribers before it seals the new content and updates
the row under the version it has read. So an order is announced without being funded exactly if one of
these two then fails (`funding_announced_iff`).
-/

namespace TorMarketplace

open Encoding Interleave Prog

/-- What `mark_order_funded` makes of a content. -/
def funded (now : Int64) (d : OrderData) : OrderData :=
  { d with state := "funded", fundedAt := some now }

/-- The calls of `mark_order_funded`, in order. -/
inductive FundCalls (st : AppState) (orderId : Bytes) (now : Int64) : Past → Prop where
  /-- No row is read that holds a pending order. -/
  | none {past : Past} (hquiet : ∀ id, ⟨.notifyPayment id, ()⟩ ∉ past)
      (hread : ∀ row d key, ⟨.selectOrder orderId, some (some row)⟩ ∈ past →
        st.workerKey = some key → decodeOrder st.prim key row = some d → d.state ≠ "pending") :
      FundCalls st orderId now past
  | unsealed (key : Bytes) (row : Order) (d : OrderData) (nonce : Bytes) (hkey : st.workerKey = some key)
      (hdecoded : decodeOrder st.prim key row = some d) (hpending : d.state = "pending")
      (hseal : encryptOrderBlob st.prim nonce (funded now d).toVec key orderId = none) :
      FundCalls st orderId now
        [⟨.selectOrder orderId, some (some row)⟩, ⟨.notifyPayment (hexEncode orderId), ()⟩,
          ⟨.ask (.randomBytes 12), nonce⟩]
  | updated (key : Bytes) (row : Order) (d : OrderData) (nonce blob : Bytes) (affected : Option Nat)
      (hkey : st.workerKey = some key) (hdecoded : decodeOrder st.prim key row = some d)
      (hpending : d.state = "pending") (hnonce : nonce.length = 12)
      (hseal : encryptOrderBlob st.prim nonce (funded now d).toVec key orderId = some blob)
      (hid : row.id = orderId) :
      FundCalls st orderId now
        [⟨.selectOrder orderId, some (some row)⟩, ⟨.notifyPayment (hexEncode orderId), ()⟩,
          ⟨.ask (.randomBytes 12), nonce⟩,
          ⟨.updateOrders (contentUpdate row (funded now d) blob), affected⟩]

theorem markOrderFunded_calls (st : AppState) (orderId : Bytes) (now : Int64) :
    Spec server.May (fun _ _ => True) (fun past _ => FundCalls st orderId now past) []
      (markOrderFunded st orderId now) := by
  simp only [markOrderFunded, loadOrder, sealOrder, bind_bind, spec_orFail_bind, spec_call_bind,
    spec_pure_bind, spec_ensure_bind, spec_ensure, true_and, List.nil_append, List.cons_append,
    decide_eq_false_iff_not, decide_eq_true_eq]
  refine ⟨fun _ => .none (by simp) (by simp), fun key hkey read hread => ?_⟩
  -- an exit that no pending order comes to
  have hquiet (hno : ∀ row d, read = some (some row) → decodeOrder st.prim key row = some d →
      d.state ≠ "pending") : FundCalls st orderId now [⟨.selectOrder orderId, read⟩] := by
    refine .none (by simp) fun row d key' hrow hkey' => ?_
    obtain rfl := Option.some.inj (hkey.symm.trans hkey')
    simp only [List.mem_singleton, Sigma.mk.injEq, heq_eq_eq, true_and] at hrow
    exact hno row d hrow.symm
  refine ⟨fun hnone => hquiet (by simp [hnone]), fun found hfound => ?_⟩
  refine ⟨fun hnone => hquiet (by simp [hfound, hnone]), fun row hrow => ?_⟩
  subst hfound hrow
  obtain ⟨hid, _⟩ := may_selectOrder hread
  refine ⟨fun hnone => hquiet ?_, fun raw hraw => ⟨fun hnone => hquiet ?_, fun d hd => ?_⟩⟩
  · simp only [Option.some.injEq]
    rintro _ d rfl hd
    simp [decodeOrder, hnone] at hd
  · simp only [Option.some.injEq]
    rintro _ d rfl hd
    simp [decodeOrder, hraw, hnone] at hd
  have hdecoded : decodeOrder st.prim key row = some d := by rw [decodeOrder, hraw, Option.bind_some, hd]
  refine ⟨fun hstate => hquiet ?_, fun hpending _ _ nonce hnonce => ?_⟩
  · simp only [Option.some.injEq]
    rintro _ d' rfl hd'
    obtain rfl := Option.some.inj (hdecoded.symm.trans hd')
    exact hstate
  refine ⟨fun hseal => .unsealed key row d nonce hkey hdecoded hpending hseal, fun blob hseal affected _ => ?_⟩
  have hdone : FundCalls st orderId now
      [⟨.selectOrder orderId, some (some row)⟩, ⟨.notifyPayment (hexEncode orderId), ()⟩,
        ⟨.ask (.randomBytes 12), nonce⟩,
        ⟨.updateOrders (contentUpdate row (funded now d) blob), affected⟩] :=
    .updated key row d nonce blob affected hkey hdecoded hpending (may_randomBytes hnonce) hseal hid
  subst hid
  exact ⟨fun _ => hdone, fun n _ => ⟨fun _ => hdone, fun _ => hdone⟩⟩

/-! ## What is announced, and what is committed -/

/-- The subscribers of the order are told that it is funded. -/
def Announces (orderId : Bytes) (moves : List (Move Server Shared)) : Prop :=
  ∃ mv ∈ moves, mv.reply = ⟨.notifyPayment (hexEncode orderId), ()⟩

/-- One of the calls commits the row of the order in state funded. -/
def CommitsFunded (st : AppState) (orderId : Bytes) (moves : List (Move Server Shared)) : Prop :=
  ∃ mv ∈ moves, ∃ key u o d, st.workerKey = some key ∧ effectiveUpdate mv.reply = some u ∧
    u.whereId = orderId ∧ mv.after.orders.find orderId = some o ∧
    decodeOrder st.prim key o = some d ∧ d.state = "funded"

/-- If the row read holds a pending order, its new content can be sealed under the nonce drawn, the
`UPDATE` reports no error, and it finds the row in the version read. -/
def Undisturbed (st : AppState) (orderId : Bytes) (now : Int64) (moves : List (Move Server Shared)) :
    Prop :=
  ∀ key row d, st.workerKey = some key →
    (∃ mv ∈ moves, mv.reply = ⟨.selectOrder orderId, some (some row)⟩) →
    decodeOrder st.prim key row = some d → d.state = "pending" →
      (∀ mv ∈ moves, ∀ nonce, mv.reply = ⟨.ask (.randomBytes 12), nonce⟩ →
        (encryptOrderBlob st.prim nonce (funded now d).toVec key orderId).isSome) ∧
      ∀ mv ∈ moves, ∀ u affected, mv.reply = ⟨.updateOrders u, affected⟩ → affected ≠ none ∧
        ∃ row', mv.before.orders.find orderId = some row' ∧ row'.version = row.version

section Updated

variable {st : AppState} {key blob : Bytes} {row : Order} {d : OrderData} {before after : Shared}
variable {e : Choice} {affected : Option Nat}

/-- The update takes effect exactly if it does not fail and finds the version read. -/
theorem contentUpdate_effective
    (ha : server.answer (.updateOrders (contentUpdate row d blob)) e before = some (affected, after)) :
    effectiveUpdate ⟨.updateOrders (contentUpdate row d blob), affected⟩ =
        some (contentUpdate row d blob) ↔
      affected ≠ none ∧ ∃ row', before.orders.find row.id = some row' ∧ row'.version = row.version := by
  have hfound : before.orders.rowsAffected (contentUpdate row d blob) ≠ 0 ↔
      ∃ row', before.orders.find row.id = some row' ∧ row'.version = row.version := by
    rw [OrdersTable.rowsAffected_ne_zero]
    refine exists_congr fun row' => and_congr_right fun hfind => ?_
    rw [(contentUpdate_guardedBy row d blob).matches_iff]
    exact and_iff_right (OrdersTable.find_some hfind).2
  rcases answer_updateOrders ha with ⟨rfl, _⟩ | ⟨rfl, _⟩
  · exact iff_of_false (by simp [effectiveUpdate]) (by simp)
  · rw [← hfound, effectiveUpdate_eq_some]
    constructor
    · rintro ⟨n, hn, heq⟩
      cases heq
      exact ⟨by simp, hn⟩
    · exact fun hn => ⟨_, hn.2, rfl⟩

/-- What an update that takes effect leaves. -/
theorem contentUpdate_stores
    (ha : server.answer (.updateOrders (contentUpdate row d blob)) e before = some (affected, after))
    (heffective : effectiveUpdate ⟨.updateOrders (contentUpdate row d blob), affected⟩ =
      some (contentUpdate row d blob)) (hseal : Seals st.prim key row.id d blob) :
    ∃ o, after.orders.find row.id = some o ∧ decodeOrder st.prim key o = some d := by
  obtain ⟨n, hn, heq⟩ := effectiveUpdate_eq_some.mp heffective
  cases heq
  rcases answer_updateOrders ha with ⟨hnone, _⟩ | ⟨hsome, rfl⟩
  · exact absurd hnone (by simp)
  obtain rfl := Option.some.inj hsome
  obtain ⟨o, ho, hmatches⟩ := OrdersTable.rowsAffected_ne_zero.mp hn
  refine ⟨(contentUpdate row d blob).set o, ?_, Seals.decode ?_⟩
  · rw [OrdersTable.find_update, show before.orders.find row.id = some o from ho]
    simp [hmatches]
  · rw [UpdateOrders.set_id, (OrdersTable.find_some ho).2]
    exact hseal

end Updated

/-- **A funding is announced only when it is committed, exactly if nothing comes between** the
announcement and the commit: in every execution, whatever others do between its calls. -/
theorem funding_announced_iff {st : AppState} {orderId : Bytes} {now : Int64}
    {moves : List (Move Server Shared)} {r : Except Failure Unit}
    (h : Executes server (markOrderFunded st orderId now) moves r) :
    (Announces orderId moves → CommitsFunded st orderId moves) ↔ Undisturbed st orderId now moves := by
  have hcalls : FundCalls st orderId now (moves.map Move.reply) :=
    (markOrderFunded_calls st orderId now).yields (h.yields [])
  have hanswer := h.answer
  generalize hreplies : moves.map Move.reply = replies at hcalls
  have hreply : ∀ mv ∈ moves, mv.reply ∈ replies := fun mv hmv => hreplies ▸ List.mem_map_of_mem hmv
  have hmove : ∀ reply ∈ replies, ∃ mv ∈ moves, mv.reply = reply := fun reply hmem =>
    List.mem_map.mp (hreplies ▸ hmem)
  cases hcalls with
  | none hquiet hread =>
    refine iff_of_true (fun ⟨mv, hmv, hnotify⟩ => ?_) fun key row d hkey ⟨mv, hmv, hrow⟩ hd hpending => ?_
    · exact absurd (hnotify ▸ hreply mv hmv) (hquiet _)
    · exact absurd hpending (hread row d key (hrow ▸ hreply mv hmv) hkey hd)
  | unsealed key row d nonce hkey hdecoded hpending hseal =>
    obtain ⟨select, hselect, hrow⟩ := hmove _ List.mem_cons_self
    refine iff_of_false (fun hlands => ?_) fun hund => ?_
    · obtain ⟨mv, hmv, _, u, _, _, _, hu, _⟩ := hlands (hmove _ (by simp))
      obtain ⟨n, _, heq⟩ := effectiveUpdate_eq_some.mp hu
      exact absurd (heq ▸ hreply mv hmv) (by simp)
    · obtain ⟨draw, hdraw, hnonce⟩ := hmove ⟨.ask (.randomBytes 12), nonce⟩ (by simp)
      have hsome := (hund key row d hkey ⟨select, hselect, hrow⟩ hdecoded hpending).1 draw hdraw nonce hnonce
      rw [hseal] at hsome
      exact absurd hsome (by simp)
  | updated key row d nonce blob affected hkey hdecoded hpending hnonce hseal hid =>
    subst hid
    have heffective : ∀ mv ∈ moves,
        mv.reply = ⟨.updateOrders (contentUpdate row (funded now d) blob), affected⟩ →
        ∃ e, server.answer (.updateOrders (contentUpdate row (funded now d) blob)) e mv.before =
          some (affected, mv.after) := by
      rintro ⟨before, reply, after⟩ hmv rfl
      exact hanswer _ hmv
    constructor
    · intro hlands
      obtain ⟨mv, hmv, _, u, _, _, _, hu, _⟩ := hlands (hmove _ (by simp))
      obtain ⟨n, hn, heq⟩ := effectiveUpdate_eq_some.mp hu
      obtain ⟨rfl, rfl⟩ : u = contentUpdate row (funded now d) blob ∧ affected = some n := by
        have hmem := heq ▸ hreply mv hmv
        simpa [eq_comm] using hmem
      intro key' row' d' hkey' ⟨select, hselect, hrow'⟩ hdecoded' _
      obtain rfl := Option.some.inj (hkey.symm.trans hkey')
      obtain rfl : row' = row := by
        have hmem := hrow' ▸ hreply select hselect
        simpa using hmem
      obtain rfl := Option.some.inj (hdecoded.symm.trans hdecoded')
      refine ⟨fun draw hdraw nonce' hnonce' => ?_, fun update hupdate u' affected' hu' => ?_⟩
      · obtain rfl : nonce' = nonce := by
          have hmem := hnonce' ▸ hreply draw hdraw
          simpa using hmem
        rw [hseal]
        rfl
      · obtain ⟨rfl, rfl⟩ : u' = contentUpdate row' (funded now d) blob ∧ affected' = some n := by
          have hmem := hu' ▸ hreply update hupdate
          simpa using hmem
        obtain ⟨e, ha⟩ := heffective update hupdate hu'
        exact (contentUpdate_effective ha).mp (effectiveUpdate_eq_some.mpr ⟨n, hn, rfl⟩)
    · intro hund _
      obtain ⟨select, hselect, hrow⟩ := hmove _ List.mem_cons_self
      obtain ⟨update, hupdate, hu⟩ :=
        hmove ⟨.updateOrders (contentUpdate row (funded now d) blob), affected⟩ (by simp)
      obtain ⟨e, ha⟩ := heffective update hupdate hu
      have hdone := (contentUpdate_effective ha).mpr
        ((hund key row d hkey ⟨select, hselect, hrow⟩ hdecoded hpending).2 update hupdate _ _ hu)
      have hseals : Seals st.prim key row.id (funded now d) blob := ⟨nonce, hnonce, hseal⟩
      obtain ⟨o, ho, hd⟩ := contentUpdate_stores ha hdone hseals
      exact ⟨update, hupdate, key, _, o, _, hkey, hu ▸ hdone, rfl, ho, hd, rfl⟩

namespace Sample

/-- The row of the order, in which somebody else has written a chat since it was read. -/
def chatted : OrdersTable :=
  (orders (sealed 4 expiredBtcCiphertext)).update
    { chatEncryptedBlob := some [1], bumpVersion := true, whereId := hex orderId,
      whereVersion := some 1 }

/-- The nonce of zeros is drawn, and nothing fails. -/
def choice : Choice where
  ask := fun
    | .randomBytes n => List.replicate n 0
    | q => q.noAnswer

/-- The pending order is read and announced; at the update the table is `last`. -/
def fundEnv (last : OrdersTable) : List (Shared × Choice) :=
  List.replicate 3 (Shared.initial (orders (sealed 4 expiredBtcCiphertext)), choice) ++
    [(Shared.initial last, choice)]

/-- What `mark_order_funded` then does. -/
def fundMoves (last : OrdersTable) : Option (List (Move Server Shared) × Except Failure Unit) :=
  server.replay (fundEnv last) (markOrderFunded (deployment twinTables none).worker (hex orderId) passTime)

def notifies (orderId : Bytes) : Reply Server → Bool
  | ⟨.notifyPayment id, _⟩ => id = hexEncode orderId
  | _ => false

/-- The call commits the order as funded. -/
def commits (mv : Move Server Shared) : Bool :=
  (effectiveUpdate mv.reply).any fun u => u.whereId = hex orderId &&
    (mv.after.orders.find (hex orderId)).any fun o =>
      (decodeOrder (deployment twinTables none).prim (List.replicate 32 7) o).any (·.state = "funded")

theorem fundMoves_announced :
    (fundMoves (orders (sealed 4 expiredBtcCiphertext))).any
        (fun r => r.1.any (fun mv => notifies (hex orderId) mv.reply) && r.1.any commits) = true ∧
      (fundMoves chatted).any (fun r => r.1.any (fun mv => notifies (hex orderId) mv.reply) &&
        r.1.all fun mv => effectiveUpdate mv.reply = none) = true := by
  decide +kernel

theorem announces_of_notifies {moves : List (Move Server Shared)}
    (h : moves.any (fun mv => notifies (hex orderId) mv.reply) = true) :
    Announces (hex orderId) moves := by
  obtain ⟨mv, hmv, hnotifies⟩ := List.any_eq_true.mp h
  refine ⟨mv, hmv, ?_⟩
  obtain ⟨before, ⟨c, a⟩, after⟩ := mv
  cases c with
  | notifyPayment id =>
    obtain rfl := of_decide_eq_true hnotifies
    rfl
  | _ => exact absurd hnotifies (by simp [notifies])

theorem commitsFunded_of_commits {moves : List (Move Server Shared)} (h : moves.any commits = true) :
    CommitsFunded (deployment twinTables none).worker (hex orderId) moves := by
  obtain ⟨mv, hmv, hcommits⟩ := List.any_eq_true.mp h
  simp only [commits, Option.any_eq_true, Bool.and_eq_true, decide_eq_true_eq] at hcommits
  obtain ⟨u, hu, hid, o, ho, d, hd, hstate⟩ := hcommits
  exact ⟨mv, hmv, List.replicate 32 7, u, o, d, rfl, hu, hid, ho, hd, hstate⟩

end Sample

open Sample in
/-- A funding that is left alone. -/
theorem funding_announced_alone :
    ∃ moves r, Executes server
        (markOrderFunded (deployment twinTables none).worker (hex orderId) passTime) moves r ∧
      Announces (hex orderId) moves ∧
      Undisturbed (deployment twinTables none).worker (hex orderId) passTime moves := by
  obtain ⟨⟨moves, r⟩, hreplay, hcheck⟩ := (Option.any_eq_true _ _).mp fundMoves_announced.1
  obtain ⟨hnotifies, hcommits⟩ := Bool.and_eq_true_iff.mp hcheck
  have hexec := executes_of_replay hreplay
  exact ⟨moves, r, hexec, announces_of_notifies hnotifies,
    (funding_announced_iff hexec).mp fun _ => commitsFunded_of_commits hcommits⟩

open Sample in
/-- **A chat is written meanwhile**: the order is announced as funded, and stays pending. -/
theorem announced_not_funded :
    ∃ moves r, Executes server
        (markOrderFunded (deployment twinTables none).worker (hex orderId) passTime) moves r ∧
      Announces (hex orderId) moves ∧
      ¬ CommitsFunded (deployment twinTables none).worker (hex orderId) moves := by
  obtain ⟨⟨moves, r⟩, hreplay, hcheck⟩ := (Option.any_eq_true _ _).mp fundMoves_announced.2
  obtain ⟨hnotifies, hnone⟩ := Bool.and_eq_true_iff.mp hcheck
  refine ⟨moves, r, executes_of_replay hreplay, announces_of_notifies hnotifies, ?_⟩
  rintro ⟨mv, hmv, _, u, _, _, _, hu, _⟩
  have hno : effectiveUpdate mv.reply = none := of_decide_eq_true (List.all_eq_true.mp hnone mv hmv)
  exact absurd (hu.symm.trans hno) (by simp)

end TorMarketplace
