import TorMarketplace.Proof.TransitionAuth

/-!
# The state of an order

Whatever clients write in between, each update of the worker that takes effect follows an edge of
`state_transitions`, or leaves the state alone (`worker_follows_transitions`). Along its own updates
an order makes progress (`WorkerEdge.progress`), so the worker never comes back to a content. A
client can bring one back, with a blob that the worker has written before; without that, nothing
does (`no_rollback_unless_reopened`).
-/

namespace TorMarketplace

open Encoding Interleave

/-! ## One update -/

/-- **Each writer keeps to the transitions.** -/
theorem WorkerEdge.transition {d d' : OrderData} (h : WorkerEdge d d') :
    d'.state = d.state ∨ d'.state ∈ d.stateTransitions := by
  cases h with
  | fund now h => simp [OrderData.stateTransitions, h, stateTransitions]
  | cancel h => simp [OrderData.stateTransitions, h, stateTransitions]
  | settle txid h hno => exact .inl rfl
  | release now h => exact .inr (List.contains_iff_mem.mp h)
  | autoDispute now expiresAt dispute h => exact .inr (List.contains_iff_mem.mp h)
  | refund now h => exact .inr (List.contains_iff_mem.mp h)
  | notify addr buyerPubkey h => exact .inl rfl

/-- The states that an order does not leave. -/
def terminalStates : List String := ["cancelled", "released", "refunded"]

theorem WorkerEdge.terminal {d d' : OrderData} (h : WorkerEdge d d')
    (ht : d.state ∈ terminalStates) : d'.state = d.state := by
  rcases h.transition with h | h
  · exact h
  · have hnone : d.stateTransitions = [] := by
      simp only [terminalStates, List.mem_cons, List.not_mem_nil, or_false] at ht
      rcases ht with ht | ht | ht <;> simp [OrderData.stateTransitions, ht, stateTransitions]
    rw [hnone] at h
    exact absurd h List.not_mem_nil

/-- How far a state is from `pending`. -/
def stateRank : String → Nat
  | "funded" => 1
  | "shipped" => 2
  | "confirmed" => 3
  | "disputed" => 3
  | "released" => 4
  | "refunded" => 4
  | "cancelled" => 4
  | _ => 0

/-- How far an order has come: its state, and what the worker has added to it. -/
def progress (d : OrderData) : Nat :=
  stateRank d.state + d.escrowAddress.isSome.toNat + d.settlementTxid.isSome.toNat

/-- Every transition is progress. -/
theorem stateRank_lt {s s' : String} (h : s' ∈ stateTransitions s) : stateRank s < stateRank s' := by
  unfold stateTransitions at h
  split at h
  all_goals simp only [List.mem_cons, List.not_mem_nil, or_false] at h
  all_goals rcases h with rfl | rfl <;> decide

/-- **Each writer brings the order forward.** -/
theorem WorkerEdge.progress {d d' : OrderData} (h : WorkerEdge d d') :
    progress d < progress d' := by
  cases h with
  | fund now h => simp [TorMarketplace.progress, h, stateRank]
  | cancel h => simp [TorMarketplace.progress, h, stateRank]
  | settle txid h hno => simp [TorMarketplace.progress, hno]
  | release now h =>
    have := stateRank_lt (List.contains_iff_mem.mp h)
    simp only [TorMarketplace.progress]
    omega
  | autoDispute now expiresAt dispute h =>
    have := stateRank_lt (List.contains_iff_mem.mp h)
    simp only [TorMarketplace.progress]
    omega
  | refund now h =>
    have := stateRank_lt (List.contains_iff_mem.mp h)
    simp only [TorMarketplace.progress]
    omega
  | notify addr buyerPubkey h => simp [TorMarketplace.progress, h]

/-! ## Runs -/

/-- The update stores the blob `b` in the row `k`, and took effect. -/
def StoresBlob (ev : Effect) (k b : Bytes) : Prop :=
  ∃ u, effectiveUpdate ev.reply = some u ∧ u.whereId = k ∧ u.encryptedOrderBlob = some b

section Reaches

variable {D : Deployment} {allow : System → Job → Prop} {orders : OrdersTable} {g : System}

/-- What an update of the worker that took effect has done to its row. -/
theorem Deployment.Reaches.workerUpdate (h : D.Reaches allow orders g) {ev : Effect}
    (hev : ev ∈ g.history) (hw : ev.job.isWorker = true) {u : UpdateOrders}
    (hu : effectiveUpdate ev.reply = some u) :
    ∃ o d d' blob, ev.before.orders.find u.whereId = some o ∧
      ev.after.orders.find u.whereId = some (u.set o) ∧ u.whereId = o.id ∧
      decodeOrder D.prim D.workerKey o = some d ∧ WorkerEdge d d' ∧
      Seals D.prim D.workerKey o.id d' blob ∧ u.encryptedOrderBlob = some blob := by
  have hcall := (h.event hev).1
  obtain ⟨pid, j, past, reply, before, after⟩ := ev
  obtain ⟨n, _, rfl⟩ := effectiveUpdate_eq_some.mp hu
  obtain ⟨o, d, d', blob, hwrite⟩ :
      ∃ o d d' blob, WorkerWrite D.prim D.workerKey past u o d d' blob := by
    cases j with
    | request _ => exact absurd hw (by simp [Job.isWorker])
    | restartApi => exact absurd hw (by simp [Job.isWorker])
    | restartWorker => exact absurd hw (by simp [Job.isWorker])
    | _ => exact hcall
  obtain ⟨hbefore, hafter⟩ := h.replaces hev hu hwrite.saw hwrite.guarded
  exact ⟨o, d, d', blob, hbefore, hafter, hwrite.guarded.2.1, hwrite.decoded, hwrite.edge,
    hwrite.sealed, hwrite.stored⟩

/-- What was sealed into an update is what the updated row decodes to. -/
theorem decode_set {P : Primitives} {workerKey blob : Bytes} {d : OrderData} {u : UpdateOrders}
    {o : Order} (hseal : Seals P workerKey o.id d blob) (hstored : u.encryptedOrderBlob = some blob) :
    decodeOrder P workerKey (u.set o) = some d :=
  Seals.decode (by simpa [UpdateOrders.set, hstored] using hseal)

/-- **The worker follows the transitions.** In every run, an update of the worker that takes effect
changes the state in the row it replaces along an edge of `state_transitions`, or not at all; it
takes no order out of a terminal state. -/
theorem worker_follows_transitions (h : D.Reaches anyJob orders g) :
    ∀ ev ∈ g.history, ev.job.isWorker = true → ∀ u, effectiveUpdate ev.reply = some u →
      ∃ o d d', ev.before.orders.find u.whereId = some o ∧
        ev.after.orders.find u.whereId = some (u.set o) ∧
        decodeOrder D.prim D.workerKey o = some d ∧
        decodeOrder D.prim D.workerKey (u.set o) = some d' ∧
        (d'.state = d.state ∨ d'.state ∈ d.stateTransitions) ∧
        (d.state ∈ terminalStates → d'.state = d.state) := by
  intro ev hev hw u hu
  obtain ⟨o, d, d', blob, hbefore, hafter, _, hd, hedge, hseal, hstored⟩ := h.workerUpdate hev hw hu
  exact ⟨o, d, d', hbefore, hafter, hd, decode_set hseal hstored, hedge.transition, hedge.terminal⟩

/-- The row `k` is there, and if its blob opens, its content is at least `n` far. -/
def AtLeast (D : Deployment) (s : Shared) (k : Bytes) (n : Nat) : Prop :=
  ∃ o, s.orders.find k = some o ∧
    ∀ raw, decryptOrderBlob D.prim o.encryptedOrderBlob D.workerKey k = some raw →
      ∃ d, OrderData.fromSlice raw = some d ∧ n ≤ progress d

/-- The clients' updates in `l` store no blob in the row `k` that the worker's key opens. -/
def NoneReopened (D : Deployment) (k : Bytes) (l : List Effect) : Prop :=
  ∀ ev ∈ l, ev.job.isWorker = false → ∀ b, StoresBlob ev k b →
    decryptOrderBlob D.prim b D.workerKey k = none

theorem atLeast_sealed {s : Shared} {k b : Bytes} {o : Order} {d : OrderData}
    (hfind : s.orders.find k = some o) (hb : o.encryptedOrderBlob = b)
    (hseal : Seals D.prim D.workerKey k d b) : AtLeast D s k (progress d) := by
  obtain ⟨nonce, hnonce, hseal⟩ := hseal
  refine ⟨o, hfind, fun raw hraw => ?_⟩
  rw [hb, decrypt_encryptOrderBlob hnonce hseal] at hraw
  obtain rfl := Option.some.inj hraw
  exact ⟨d, OrderData.fromSlice_toVec d, Nat.le_refl _⟩

theorem AtLeast.mono {s : Shared} {k : Bytes} {n n' : Nat} (h : AtLeast D s k n) (hle : n' ≤ n) :
    AtLeast D s k n' := by
  obtain ⟨o, ho, hall⟩ := h
  refine ⟨o, ho, fun raw hraw => ?_⟩
  obtain ⟨d, hd, hn⟩ := hall raw hraw
  exact ⟨d, hd, Nat.le_trans hle hn⟩

/-- An update of the worker takes the row further. -/
theorem Deployment.Reaches.atLeast_worker (h : D.Reaches allow orders g) {ev : Effect}
    (hev : ev ∈ g.history) (hw : ev.job.isWorker = true) {k : Bytes}
    (hupd : updatesRow k ev.reply = true) {n : Nat} (hn : AtLeast D ev.before k n) :
    AtLeast D ev.after k (n + 1) := by
  obtain ⟨u, hu, rfl⟩ := updatesRow_iff.mp hupd
  obtain ⟨o, d, d', blob, hbefore, hafter, hid, hd, hedge, hseal, hstored⟩ :=
    h.workerUpdate hev hw hu
  refine (atLeast_sealed hafter (by simp [UpdateOrders.set, hstored]) (hid ▸ hseal)).mono ?_
  -- what it has replaced was at least `n` far
  obtain ⟨o', ho', hall⟩ := hn
  obtain rfl := Option.some.inj (hbefore.symm.trans ho')
  obtain ⟨raw, hraw, hslice⟩ := Option.bind_eq_some_iff.mp hd
  obtain ⟨d₀, hd₀, hle⟩ := hall raw (hid ▸ hraw)
  obtain rfl := Option.some.inj (hslice.symm.trans hd₀)
  exact Nat.lt_of_le_of_lt hle hedge.progress

/-- No other call takes a row back. -/
theorem Deployment.Reaches.atLeast_event (h : D.Reaches allow orders g) {ev : Effect}
    (hev : ev ∈ g.history) {k : Bytes} {n : Nat} (hn : AtLeast D ev.before k n)
    (hclient : ev.job.isWorker = false → ∀ b, StoresBlob ev k b →
      decryptOrderBlob D.prim b D.workerKey k = none) : AtLeast D ev.after k n := by
  obtain ⟨hcall, e, ha⟩ := h.event hev
  obtain ⟨o, ho, hall⟩ := hn
  rcases (hcall.step ha).some_cases ho with ⟨hhit, _⟩ | ⟨_, hsame⟩
  case inr => exact ⟨o, hsame, hall⟩
  cases hw : ev.job.isWorker with
  | true => exact (h.atLeast_worker hev hw (updatesRow_iff.mpr hhit) ⟨o, ho, hall⟩).mono (by omega)
  | false =>
    obtain ⟨u, hu, rfl⟩ := hhit
    obtain ⟨o', hsaw, hg⟩ := h.guarded hev hu
    obtain ⟨hbefore, hafter⟩ := h.replaces hev hu hsaw hg
    obtain rfl := Option.some.inj (hbefore.symm.trans ho)
    refine ⟨u.set o', hafter, fun raw hraw => ?_⟩
    cases hb : u.encryptedOrderBlob with
    | none =>
      rw [show (u.set o').encryptedOrderBlob = o'.encryptedOrderBlob by
        simp [UpdateOrders.set, hb]] at hraw
      exact hall raw hraw
    | some b =>
      rw [show (u.set o').encryptedOrderBlob = b by simp [UpdateOrders.set, hb],
        hclient hw b ⟨u, hu, rfl, hb⟩] at hraw
      exact absurd hraw (by simp)

/-- After an update of the worker with content `d`, the row is at least as far as `d`, and further
once the worker has updated it again. -/
theorem Deployment.Reaches.progressed (h : D.Reaches allow orders g) {k b : Bytes} {d : OrderData}
    (hd : Seals D.prim D.workerKey k d b) {l l' : List Effect} {ev : Effect}
    (hl : g.history = l ++ ev :: l') (hb : StoresBlob ev k b) (hclient : NoneReopened D k l') :
    AtLeast D g.shared k (progress d) ∧
      ((∃ ev' ∈ l', ev'.job.isWorker = true ∧ updatesRow k ev'.reply = true) →
        AtLeast D g.shared k (progress d + 1)) := by
  refine Reachable.history_inv (R := fun s history => ∀ l l' ev, history = l ++ ev :: l' →
    StoresBlob ev k b → NoneReopened D k l' → AtLeast D s k (progress d) ∧
      ((∃ ev' ∈ l', ev'.job.isWorker = true ∧ updatesRow k ev'.reply = true) →
        AtLeast D s k (progress d + 1))) (fun _ _ _ hl => absurd hl (by simp)) ?_ h l l' ev hl hb hclient
  intro g history last hg hhist ih l l' ev hl hb hclient
  have hlast : last ∈ g.history := by simp [hhist]
  rcases List.eq_nil_or_concat l' with rfl | ⟨l'', last', rfl⟩
  · -- the update itself
    obtain ⟨-, hev⟩ := List.append_inj' hl rfl
    obtain rfl := List.singleton_inj.mp hev
    obtain ⟨u, hu, rfl, hstored⟩ := hb
    obtain ⟨o, hsaw, hguard⟩ := Deployment.Reaches.guarded hg hlast hu
    obtain ⟨_, hafter⟩ := Deployment.Reaches.replaces hg hlast hu hsaw hguard
    refine ⟨atLeast_sealed hafter (by simp [UpdateOrders.set, hstored]) hd, ?_⟩
    rintro ⟨_, hmem, _⟩
    exact absurd hmem List.not_mem_nil
  · -- one call more
    rw [List.concat_eq_append, ← List.cons_append, ← List.append_assoc] at hl
    obtain ⟨rfl, hev⟩ := List.append_inj' hl rfl
    obtain rfl := List.singleton_inj.mp hev
    rw [List.concat_eq_append] at hclient ⊢
    obtain ⟨hold, hfurther⟩ := ih l l'' ev rfl hb fun e he =>
      hclient e (List.mem_append_left _ he)
    have hkeep : ∀ {n}, AtLeast D last.before k n → AtLeast D last.after k n := fun hn =>
      Deployment.Reaches.atLeast_event hg hlast hn (hclient last (by simp))
    refine ⟨hkeep hold, ?_⟩
    rintro ⟨ev', hmem, hw, hupd⟩
    rcases List.mem_append.mp hmem with hmem | hmem
    · exact hkeep (hfurther ⟨ev', hmem, hw, hupd⟩)
    · obtain rfl := List.mem_singleton.mp hmem
      exact Deployment.Reaches.atLeast_worker hg hlast hw hupd hold

end Reaches

namespace Sample

def fundedOrder : OrderData where
  listingId := [1]
  buyerPubkeyHash := [2]
  sellerPubkeyHash := [3]
  buyerPubkey := none
  sellerPubkey := none
  state := "funded"
  currency := "BTC"
  escrowAddress := none
  escrowAmount := none
  timeLockSeconds := 0
  createdAt := 0
  fundedAt := none
  shippedAt := none
  confirmedAt := none
  releasedAt := none
  refundedAt := none
  expiresAt := none
  disputedAt := none
  disputeId := none
  ownerPubkey := none
  feePercent := none
  feeAddress := none
  dispute := none
  chatMessages := []
  settlementTxid := none

/-- The time of a pass of the worker. -/
def passTime : Int64 := floorTimestamp6h time

def autoDispute : DisputeData where
  id := uuidString (List.replicate 16 0)
  openedBy := "02"
  reason := "Auto-dispute: seller timeout after 2x time lock"
  resolution := none
  resolvedBy := none
  resolvedAt := none
  createdAt := passTime
  evidence := []

/-- `fundedOrder` after a pass of the time-lock checker. -/
def disputedOrder : OrderData :=
  { fundedOrder with
    state := "disputed"
    disputedAt := some passTime
    expiresAt := some passTime
    disputeId := some autoDispute.id
    dispute := some autoDispute }

/-- `disputedOrder` after another. -/
def refundedOrder : OrderData :=
  { disputedOrder with
    dispute := some (autoResolve passTime autoDispute)
    state := "refunded"
    refundedAt := some passTime }

def orderKey : Bytes := hex "8bc047e5add8c44eca9c40a023d6a447bf80f4b74a6d94e584157c852fe77d13"

/-- `fundedOrder` under the nonce of ones. -/
def fundedCiphertext : Bytes :=
  List.flatMap (beBytes 44)
    [ 0x51deb3752538d18e7ee521bdf80b739fd1131efc0eb02f0d296974e80275a708c3fa1bf65204f5c6e77e758f,
      0xfc6661762990d821a73058bde0d007f01e2a65d119b3af7c97e6e255c3112a3eb0ff647a568e71c12996829d,
      0x82656010a620e71c82550caf27d1aa01ae11b90df542e692335be0de450beb6e5fb39baabb6f344e3e961eec,
      0x991fb51ebdb5bad44d77d9135fd05ef6f045e2822ecb606bd4589e6381a2ea43bef7fd5aa46fac8bc54e81d3,
      0xc7de875e98e24671953ea33c9fe69f86d2bcc6a069b5d8ca426aa98442f18f20d402fbe38fd5a73696c9edc2,
      0xb47485c2f8eefe36ac24a19c9cc5f1fe6e1cd35c011eea7bceeb9dc49e849f4e65b1efb19b48dba90daa4eae,
      0xed34974b55db2e9a4330485d3c0cf869c3ee91d28440b5d84ed038aab2388d6db0d0a65fa27753065c9371fa,
      0x5b9b14e32b4a9a6c6413910a41b605a6b2b48640bd357dfdbdcf12b4618547cc74159468504d8ea62c38d455,
      0x6a07ee53069921ee7f8a3d75cb9a496d6061db2abcbb3077e5d2518155bc3fb5c2121c191633c2e581a1fb46,
      0x8289fed6373fce3f278cc46c1b51fead3fb9392a446d5ae11fcc5cb1ffb6aae2d87712cecc0daa748f9a3fc1,
      0x4f630840419ddfa1ff11689eb7ca972e04850f8092ada78c28b358c85c6a8ecf268bfcce18d0f4e257f8452f ] ++
  beBytes 17 0x524098c20676724386f4e8db5bf785330c

/-- `disputedOrder` under the nonce of zeros. -/
def disputedCiphertext : Bytes :=
  List.flatMap (beBytes 44)
    [ 0x353765c1cd2b632a1d9316a2b8d55c36db3a04e77343312350259ffc3cacfb4a2eea062d01dc7b8573b59b59,
      0x52bcd773c5e64a55b7c47b9248a00dc9003827fc07e7431c5d88371e554c21b78947a62506bb37cc320d6716,
      0xebacb929e76886763f32217fa1f9d10c7881ffba597bbdfa832c8596bcd9ddefc6ec8a74c473069d87be2097,
      0x34a5535e3d167b9fa90a9f9add13174b4296393e7507d5a618e2889419ff3587476bb5db12b41a7a6f81482a,
      0x953513dd055ef0d265565d7fea4476a9ef0186e8101f13b7ce254551f83cec50169176fc4097939645bdbac7,
      0xbc1b635904fa09d95549f7d703de2a2a26b177360c54eb5c597df5083134a16bae39a9eeeba21ac46e3a93f3,
      0x8a96b47c63b4ad42017b12054b5c8216fd94a6ed0dfcd71dd6869ff4a0723874703cb76013eda6e98abb04f8,
      0x5faac6b89beb056ce43571a6de54040cce721aca2e001625155ad04c0cd9c491031a76b526b3712c2ac2aeaa,
      0x6fdb930d14b38ffed814d8747b8f863d51e70d13f3613198a65b6b7aa1f7fa1e4c77f8c230e1e597d52e5e03,
      0xf437b598e3eabc7c47270365f7907688055ae5202b062815c40886da2e6cfb3aa1e18d0c6c56b60c5cf5ede4,
      0x2e4a7fd20bc9f558e19038ea4a3d289a90a27720b27d9f66875e13a8042aabf037bc04a7b9dda182cc74e29c,
      0x1ad81d37a8e4387166b3ac09eaa277968e2a71f0694ff5915fbbbe4e5dfc772df5b442e014367dd90a357bcb,
      0xd5e3135228cda58d32de0879fb9dd64332c2ac760b3e59e25bcd27a2df5c154e5b5dc9cf9403feee0c5c75f6,
      0xde096ee27e8b8be1b86344c90cca583e0789f2325acf3f0116c4b013661a4d63b9942037552ba2bb2a9a69f3,
      0xa30d29651c7ead0c26a2e4f854f3ef38c6fcbab24d80e400941744e24571a89836f98f1da74117979ba4c962,
      0xcc7c78fa8fe2ae5d945ee394bac5d0d95cabe52b74f380c76a519871f19d0418894e5a894a56f8eee0d64427,
      0xe18bccb35c0e0bd9a23b808018e2787afe20e67ea5d4d64a599ef4cd25e986981e479a29613059bec6e5f342 ] ++
  beBytes 12 0x3e5606f48d050a95db07abe9

/-- `refundedOrder` under the nonce of twos. -/
def refundedCiphertext : Bytes :=
  List.flatMap (beBytes 44)
    [ 0xc083078019f658c3c27e55dcc7cc64d48e7c5fd8009ea438c16477e08f9cc3f5227e629606b63e152d11e346,
      0x5affc77dadcf151f1f3b6515b9d2dae0c889ac7f3ca1dbe4c2737c4a61d7cb6962a2aefa6ba9d726b9cfbff0,
      0xfa0566efca1b83af22b30963d7ddf54dd0530129d374965e42c33920a2362955703af72d87013722b9077e7f,
      0xfaefb5756ecb48d4d4f62b22d50eca73c8aebc05d012bb9d06c8b292ef12dbff4e9ca5fcdb847f4482c599a2,
      0x386fb0c9739bcb3e893bcd29e8f1e3e768a64b8bbad6e29a0f998ad30320f6083a0f8f905d1ba9b43b0bbf25,
      0x90441ddf2f236bc2d4e74a0f730db85b3e63c7d6b1447d9c4ec9f97dc4696634bc72c22eba40479353b43217,
      0xa7e0bd9d155f3db5eef15035fe0970413d4ab0d4a363d445451e686daf8169ed6cf53ec98439850d1fc3663e,
      0xc3397c015e44ffc43c22570a6f7742f639881b12182079ec472965f8073a3ca8806ee354260977d44129b0c7,
      0xdd91eba436af5938014ef30e3581990fb9737653aec1138db1e67d8926043d38db85c1c37262cf5e60744b1a,
      0xc500b7cb57d6d5545437d439e10690c430afecf1bc3e1a9c7c9f2be1bcadade7fcbcf0f1c3474f6a9efd1fa7,
      0x76405e2fcd227d0c86dc63aa50db4c493abe24d038a9197e25c594788c866b470150764919aaf8f29d2e3c3e,
      0x44ea9bc7c1553b5db2c48d19904e6298a64704ba9af026f8eafd106de324a2458346e6638da5797c8f670b12,
      0x1bf8540d7944cb87a71d9263a6efbfbd1c1982abb470ed5855ee6b1efa4006e63870e9abb090d1ead54f9758,
      0x7badc9028470958f0e7030932aff8dc5e3ae7d7e1c0ee627068cbf799b3db6028d0b5ba94d374dd2de9210ac,
      0x12e560b795a6e6d52b8998a57e405db77813e17c00dadb3769c90f0d78484dc0111fb1fc3e5ce62ca7c1d1e1,
      0xf62256f2a2f37d46baffad6fe101d6777a6d5ccf024ace41df254deb81dbc8b9d6ed223a28e4b35d32ac5f7c,
      0xd0e793159796af0c072b2f93e713219984f739540276004b28fc2d8d7c0177a221c03ca893226350aa95524f ] ++
  beBytes 37 0x3d23571828da6d61e53affb8192beb3118370387071a4d3cfa2023abc8010d262f5933decd

def sealed (x : UInt8) (ciphertext : Bytes) : Bytes := List.replicate 12 x ++ ciphertext

/-- What opens the three blobs of the order. -/
def workerTables : Primitives.Tables where
  hmacSha256 := [((List.replicate 32 7, utf8 "oblivious-order-v1" ++ hex orderId), orderKey)]
  chacha :=
    [((orderKey, List.replicate 12 1, fundedCiphertext), fundedOrder.toVec),
      ((orderKey, List.replicate 12 0, disputedCiphertext), disputedOrder.toVec),
      ((orderKey, List.replicate 12 2, refundedCiphertext), refundedOrder.toVec)]

/-- The next `n` calls of process `pid`, which draws bytes `x`. -/
def draws (x : UInt8) (pid n : Nat) : List (Label Job Choice) :=
  List.replicate n (.act pid
    { time
      ask := fun
        | .randomBytes n => List.replicate n x
        | q => q.noAnswer })

/-- A pass that disputes the funded order. -/
def disputePass : List (Label Job Choice) := .spawn .checkTimeLocks :: draws 0 0 5

/-- And one that refunds it. -/
def refundPass : List (Label Job Choice) := .spawn .checkTimeLocks :: draws 2 1 4

/-- The update is the worker's, and stores `b` in the row of the order. -/
def workerStored (b : Bytes) (ev : Effect) : Bool :=
  ev.job.isWorker && (effectiveUpdate ev.reply).any fun u =>
    u.whereId = hex orderId && u.encryptedOrderBlob = some b

theorem workerStored_iff {b : Bytes} {ev : Effect} :
    workerStored b ev = true ↔ ev.job.isWorker = true ∧ StoresBlob ev (hex orderId) b := by
  simp [workerStored, StoresBlob, Option.any_eq_true]

/-- What the worker has stored after the two passes: the disputed order, then the refunded one. -/
def bothStored (g : System) : Bool :=
  match g.history with
  | _ :: _ :: _ :: _ :: ev₁ :: _ :: _ :: _ :: ev₂ :: _ =>
    workerStored (sealed 0 disputedCiphertext) ev₁ && workerStored (sealed 2 refundedCiphertext) ev₂
  | _ => false

def rollBack : Login where
  path := "/orders/" ++ orderId ++ "/update"
  nonce := "0b"
  hmac := "d23877788475936c8ca073307f588348d76caeec6e3409aceda4e2aec83ce2d8"
  signature :=
    "49e9213c3bcaad966f184e75a3e3e1ee42c626cbe55b3e7a877e702418ac88ac" ++
    "a59ea9427ab8da29589ccf52c6a9b46137591acdecdd115422c854951a72a60f"

def rolledBackHash : Bytes := hex "48d7976180536b234b40aed427f3076d6439549da9f9518abd0437eaf84fa20a"

def rollBackSignature : String :=
  "e5a46209172e817a9969f9009b91a89c27fea9dbdfcb8bcbc64a81e2b0677cb0" ++
  "915b3508dce4951b6297818e324e4016b05680488a7d9600d2321b0594171802"

/-- The blob of `disputedOrder`, as the worker had stored it. -/
def disputedBase64 : String :=
  "AAAAAAAAAAAAAAAANTdlwc0rYyodkxaiuNVcNts6BOdzQzEjUCWf/Dys+0ou6gYtAdx7hXO1m1lSvNdzxeZKVbfE" ++
  "e5JIoA3JADgn/AfnQxxdiDceVUwht4lHpiUGuzfMMg1nFuusuSnnaIZ2PzIhf6H50Qx4gf+6WXu9+oMshZa82d3v" ++
  "xuyKdMRzBp2HviCXNKVTXj0We5+pCp+a3RMXS0KWOT51B9WmGOKIlBn/NYdHa7XbErQaem+BSCqVNRPdBV7w0mVW" ++
  "XX/qRHap7wGG6BAfE7fOJUVR+DzsUBaRdvxAl5OWRb26x7wbY1kE+gnZVUn31wPeKiomsXc2DFTrXFl99QgxNKFr" ++
  "rjmp7uuiGsRuOpPzipa0fGO0rUIBexIFS1yCFv2Upu0N/Ncd1oaf9KByOHRwPLdgE+2m6Yq7BPhfqsa4m+sFbOQ1" ++
  "cabeVAQMznIayi4AFiUVWtBMDNnEkQMadrUms3EsKsKuqm/bkw0Us4/+2BTYdHuPhj1R5w0T82ExmKZba3qh9/oe" ++
  "THf4wjDh5ZfVLl4D9De1mOPqvHxHJwNl95B2iAVa5SArBigVxAiG2i5s+zqh4Y0MbFa2DFz17eQuSn/SC8n1WOGQ" ++
  "OOpKPSiakKJ3ILJ9n2aHXhOoBCqr8De8BKe53aGCzHTinBrYHTeo5DhxZrOsCeqid5aOKnHwaU/1kV+7vk5d/Hct" ++
  "9bRC4BQ2fdkKNXvL1eMTUijNpY0y3gh5+53WQzLCrHYLPlniW80not9cFU5bXcnPlAP+7gxcdfbeCW7ifouL4bhj" ++
  "RMkMylg+B4nyMlrPPwEWxLATZhpNY7mUIDdVK6K7Kppp86MNKWUcfq0MJqLk+FTz7zjG/LqyTYDkAJQXROJFcaiY" ++
  "NvmPHadBF5ebpMlizHx4+o/irl2UXuOUusXQ2Vyr5St084DHalGYcfGdBBiJTlqJSlb47uDWRCfhi8yzXA4L2aI7" ++
  "gIAY4nh6/iDmfqXU1kpZnvTNJemGmB5HmilhMFm+xuXzQj5WBvSNBQqV2wer6Q=="

def rollBackRequest : Request :=
  rollBack.post (.updateOrder ⟨disputedBase64, rollBackSignature, "aa", hourBucket⟩)

/-- `workerTables`, and what the client's update needs. -/
def rollBackTables : Primitives.Tables :=
  let tables := loginTables [rollBack]
  { workerTables with
    sha256 := [(sealed 0 disputedCiphertext, rolledBackHash)]
    hmacSha256 := tables.hmacSha256 ++ workerTables.hmacSha256
    blake3 := tables.blake3
    verifyingKeys := tables.verifyingKeys
    signatures :=
      (pubkey,
        TransitionPayload.toCbor (.new (hex orderId) 3 rolledBackHash (hex "aa") hourBucket),
        hex rollBackSignature) :: tables.signatures }

def disputePassTrace : (deployment workerTables none).Trace anyJob (orders (sealed 1 fundedCiphertext))
    fun g => g.history.any (workerStored (sealed 0 disputedCiphertext)) where
  labels := disputePass
  allowed _ _ _ := trivial
  passes := by decide +kernel

def refundTrace : (deployment workerTables none).Trace anyJob (orders (sealed 1 fundedCiphertext))
    fun g => bothStored g && g.history.all (·.job.isWorker) where
  labels := disputePass ++ refundPass
  allowed _ _ _ := trivial
  passes := by decide +kernel

def rollBackTrace :
    (deployment rollBackTables none).Trace anyJob (orders (sealed 1 fundedCiphertext))
      fun g => bothStored g && succeeded 2 rollBackRequest g &&
        (g.shared.orders.find (hex orderId)).any
          fun o => o.encryptedOrderBlob = sealed 0 disputedCiphertext where
  labels := disputePass ++ refundPass ++ .spawn (.request rollBackRequest) :: acts 2 6
  allowed _ _ _ := trivial
  passes := by decide +kernel

end Sample

open Sample in
/-- A pass over a funded order whose seller has not shipped disputes it. -/
theorem worker_follows_transitions_sample :
    ∃ g ev u o d d', (deployment workerTables none).Reaches anyJob
        (orders (sealed 1 fundedCiphertext)) g ∧ ev ∈ g.history ∧ ev.job.isWorker = true ∧
      effectiveUpdate ev.reply = some u ∧ ev.before.orders.find u.whereId = some o ∧
      decodeOrder (deployment workerTables none).prim (List.replicate 32 7) o = some d ∧
      decodeOrder (deployment workerTables none).prim (List.replicate 32 7) (u.set o) = some d' ∧
      (d'.state = d.state ∨ d'.state ∈ d.stateTransitions) := by
  obtain ⟨g, hg, hcheck⟩ := disputePassTrace.reaches
  obtain ⟨ev, hev, hstored⟩ := List.any_eq_true.mp hcheck
  obtain ⟨hw, u, hu, _, _⟩ := workerStored_iff.mp hstored
  obtain ⟨o, d, d', hbefore, _, hd, hd', hstate, _⟩ := worker_follows_transitions hg ev hev hw u hu
  exact ⟨g, ev, u, o, d, d', hg, hev, hw, hu, hbefore, hd, hd', hstate⟩

end TorMarketplace
