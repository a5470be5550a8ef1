import TorMarketplace.Proof.Statements
import TorMarketplace.Proof.WorkerState

/-!
# Time locks

What the passes of the time-lock checker do over time. A shipped order is never released by one
(`shipped_never_released`).
-/

namespace TorMarketplace

open Encoding Interleave Prog

/-! ## A pass -/

/-- A pass of the time-lock checker, with the time it has read and the snapshot it has taken. -/
structure TimeLockPass (g : System) (pid : Nat) (p : Process) (time : Int64) (rows : List Order) :
    Prop where
  proc : g.procs[pid]? = some p
  job : p.job = .checkTimeLocks
  began : [⟨.now, time⟩, ⟨.selectOrders, some rows⟩] <+: p.past

section Reaches

variable {D : Deployment} {allow : System → Job → Prop} {orders : OrdersTable} {g : System}
variable {pid : Nat} {p : Process} {time : Int64} {rows : List Order}

/-- Each update of a pass is one of its writes at its time over its snapshot. -/
theorem TimeLockPass.writes (hp : TimeLockPass g pid p time rows) (h : D.Reaches allow orders g)
    {ev : Effect} (hev : ev ∈ g.history) (hpid : ev.pid = pid) {u : UpdateOrders}
    (hu : effectiveUpdate ev.reply = some u) :
    TimeLockWrites D.prim D.workerKey (floorTimestamp6h time) rows (.updateOrders u) := by
  subst hpid
  obtain ⟨p', hp', hj⟩ := Reachable.event_job h ev hev
  obtain rfl := Option.some.inj (hp'.symm.trans hp.proc)
  have hcall := h.statement hev
  have hpre := Reachable.event_begins h hev hp'
  obtain ⟨pid, j, past, reply, before, after⟩ := ev
  obtain ⟨n, _, rfl⟩ := effectiveUpdate_eq_some.mp hu
  obtain rfl : j = .checkTimeLocks := hj.symm.trans hp.job
  obtain ⟨time', rows', hbegan, hwrites⟩ := hcall
  -- both beginnings are that of the process
  have hsame := List.prefix_of_prefix_length_le
    (hbegan.trans ((List.prefix_append past _).trans hpre)) hp.began (by simp)
  have heq := hsame.eq_of_length (by simp)
  simp only [List.cons.injEq, Sigma.mk.injEq, heq_eq_eq, true_and, Option.some.injEq, and_true] at heq
  obtain ⟨rfl, rfl⟩ := heq
  exact hwrites

/-- Where in the run a pass has taken its snapshot. -/
theorem TimeLockPass.snapshot (hp : TimeLockPass g pid p time rows) (h : D.Reaches allow orders g) :
    ∃ l snap l', g.history = l ++ snap :: l' ∧ snap.pid = pid ∧ snap.past = [⟨.now, time⟩] ∧
      snap.reply = ⟨.selectOrders, some rows⟩ ∧ snap.after = snap.before ∧
      snap.before.orders.rows = rows := by
  have hbegan : ([⟨.now, time⟩] : Past) ++ [⟨.selectOrders, some rows⟩] <+: p.past := hp.began
  obtain ⟨l, snap, l', hl, hpid, hpast, hreply⟩ := Reachable.event_at h hp.proc hbegan
  have hmem : snap ∈ g.history := by simp [hl]
  obtain ⟨e, ha⟩ := (h.event hmem).2
  rw [hreply] at ha
  obtain ⟨hafter, hrows, _⟩ := answer_selectOrders ha
  exact ⟨l, snap, l', hl, hpid, hpast, hreply, hafter, hrows.symm⟩

/-- A snapshot has one row of an id. -/
theorem TimeLockPass.row_eq (hp : TimeLockPass g pid p time rows) (h : D.Reaches allow orders g)
    {o o' : Order} (ho : o ∈ rows) (ho' : o' ∈ rows) (hid : o.id = o'.id) : o = o' := by
  obtain ⟨_, snap, _, _, _, _, _, _, rfl⟩ := hp.snapshot h
  exact List.inj_on_of_nodup_map snap.before.orders.nodup ho ho' hid

/-! ## Shipped orders -/

/-- The automatic release of a shipped order is due. -/
def ReleaseDue (now : Int64) (d : OrderData) : Prop :=
  d.state = "shipped" ∧ hasActiveDispute d = false ∧
    now ≥ saturatingAdd (d.shippedAt.getD d.createdAt) d.timeLockSeconds

instance (now : Int64) (d : OrderData) : Decidable (ReleaseDue now d) :=
  inferInstanceAs (Decidable (_ ∧ _ ∧ _))

/-- What `handle_shipped` would make of an order. -/
def autoReleased (now : Int64) (d : OrderData) : OrderData :=
  { d with state := "released", releasedAt := some now }

/-- Process `pid` has written the content `d` to the row `id`. -/
def WritesContent (D : Deployment) (g : System) (pid : Nat) (id : Bytes) (d : OrderData) : Prop :=
  ∃ ev ∈ g.history, ev.pid = pid ∧ ∃ u blob, effectiveUpdate ev.reply = some u ∧ u.whereId = id ∧
    u.encryptedOrderBlob = some blob ∧ Seals D.prim D.workerKey id d blob

/-- Every pass that ends well releases the orders that are due, if nobody else writes their rows. -/
def AutoReleases (D : Deployment) (orders : OrdersTable) : Prop :=
  ∀ g, D.Reaches anyJob orders g → ∀ pid p time rows, TimeLockPass g pid p time rows →
    p.prog.result = some (.ok .done) → ∀ o ∈ rows, ∀ d, decodeOrder D.prim D.workerKey o = some d →
      ReleaseDue (floorTimestamp6h time) d →
      (∀ ev ∈ g.history, ev.pid ≠ pid → updatesRow o.id ev.reply = false) →
      WritesContent D g pid o.id (autoReleased (floorTimestamp6h time) d)

/-- **A shipped order is never released by the timer.** No pass writes the row of a shipped order at
all, whenever it comes. -/
theorem shipped_never_released (h : D.Reaches anyJob orders g)
    (hp : TimeLockPass g pid p time rows) {o : Order} (ho : o ∈ rows) {d : OrderData}
    (hd : decodeOrder D.prim D.workerKey o = some d) (hdue : ReleaseDue (floorTimestamp6h time) d) :
    (∀ ev ∈ g.history, ev.pid = pid → updatesRow o.id ev.reply = false) ∧
      ¬ WritesContent D g pid o.id (autoReleased (floorTimestamp6h time) d) := by
  have hnone : ∀ ev ∈ g.history, ev.pid = pid → ∀ u, effectiveUpdate ev.reply = some u →
      u.whereId ≠ o.id := by
    intro ev hev hpid u hu hid
    obtain ⟨o', ho', d', _, _, hd', hmove, _, rfl⟩ := hp.writes h hev hpid hu
    obtain rfl := hp.row_eq h ho' ho hid
    obtain rfl := Option.some.inj (hd.symm.trans hd')
    -- neither move is of a shipped order
    cases hmove with
    | dispute uuid hdue' => exact absurd (hdue.1.symm.trans hdue'.1) (by decide)
    | refund hdue' => exact absurd (hdue.1.symm.trans hdue'.1) (by decide)
  refine ⟨fun ev hev hpid => ?_, ?_⟩
  · by_contra hupd
    obtain ⟨u, hu, hid⟩ := updatesRow_iff.mp (by simpa using hupd)
    exact hnone ev hev hpid u hu hid
  · rintro ⟨ev, hev, hpid, u, _, hu, hid, _⟩
    exact hnone ev hev hpid u hu hid

end Reaches

namespace Sample

def shippedOrder : OrderData := { fundedOrder with state := "shipped" }

/-- `shippedOrder` under the nonce of nines. -/
def shippedCiphertext : Bytes :=
  List.flatMap (beBytes 44)
    [ 0x0b647631d77b37a73a1a34df84b9d939b647f965ff49bc9d58c2d33f9bb8a2772b13603198ae52d3b3a20138,
      0x76db4f62416a5d33bbc6f5bbaeeaca877ab832bf2ead92c93f71db3046d1ffe155d85fb63299ef4d9cd389f1,
      0x1d6381394932b000dc81a37aae65774ba80e18936b425867927a14fae49ed6282cb40414e13b9cdf3337bd74,
      0x6c7fe0457695a0c0509125a6c334a53dcac39912e7fa25e01480b3afd335147d08fdc8819cd8aac21047d2c3,
      0x5ee08495b87a78e62b5d74f55829cbf0dac9e534e32d16eadf7d25b29e960ed9c6f1bacd03df9888804c2778,
      0xf566824850a282d45b2252ca855369437ed43b07c134666669a9da135a69f400637b8686d30717cf874d6849,
      0x5dfe31513f779d55dda8f9d57b304c4295e87de62a763083c21019a85f32659badfee583a6c344d26d5e6019,
      0x6c53de20fe0f8401205d6ca98c0c4b001bafd3b5d8a5827966997da05565b10e317b6b9164a866307d61e5b7,
      0x771ccedac06811961426293537c632ab780c6535685151db4a29f68503c6c7ce186d29829f5f0a41b9fbdcf3,
      0x5f1357ce8122d30324656d1b884dab4a0586d381320dad5eea2bed54135f9b5fb0ee013ba01cdb95f664cc18,
      0x4306fc20a21d5edd1d5b3a1c2e7fea3174fb32d58f671bbd0377ffa04e130dfee1085995284fa71e1ef0c336 ] ++
  beBytes 18 0xd82330648886ff6023516c47eedb1f746125

def shippedTables : Primitives.Tables :=
  { workerTables with
    chacha := [((orderKey, List.replicate 12 9, shippedCiphertext), shippedOrder.toVec)] }

def shippedDeployment : Deployment := deployment shippedTables none

/-- The row of the shipped order. -/
def shippedRow : Order := InsertOrders.row ⟨hex orderId, sealed 9 shippedCiphertext, 0, none⟩

/-- Process 0 is a pass at `time` over `rows` that has ended with `r`. -/
def passEnds (time : Int64) (rows : List Order) (r : Except Failure Response) (g : System) : Bool :=
  g.procs[0]?.any fun p => p.job = .checkTimeLocks && p.prog.result = some r &&
    match p.past with
    | ⟨.now, t⟩ :: ⟨.selectOrders, some rows'⟩ :: _ => t = time && rows' = rows
    | _ => false

theorem passEnds_iff {time : Int64} {rows : List Order} {r : Except Failure Response} {g : System}
    (h : passEnds time rows r g = true) :
    ∃ p, TimeLockPass g 0 p time rows ∧ p.prog.result = some r := by
  obtain ⟨p, hp, hcheck⟩ := (Option.any_eq_true _ _).mp h
  simp only [Bool.and_eq_true, decide_eq_true_eq] at hcheck
  obtain ⟨⟨hjob, hres⟩, hpast⟩ := hcheck
  refine ⟨p, ⟨hp, hjob, ?_⟩, hres⟩
  split at hpast
  · rename_i rest hcalls
    simp only [Bool.and_eq_true, decide_eq_true_eq] at hpast
    obtain ⟨rfl, rfl⟩ := hpast
    exact ⟨rest, hcalls.symm⟩
  · exact absurd hpast (by simp)

def shippedTrace : shippedDeployment.Trace anyJob (orders (sealed 9 shippedCiphertext))
    fun g => passEnds time [shippedRow] (.ok .done) g &&
      g.history.all fun ev => (effectiveUpdate ev.reply).isNone where
  labels := .spawn .checkTimeLocks :: acts 0 2
  allowed _ _ _ := trivial
  passes := by decide +kernel

theorem shippedRow_due :
    decodeOrder shippedDeployment.prim shippedDeployment.workerKey shippedRow = some shippedOrder ∧
      ReleaseDue (floorTimestamp6h time) shippedOrder := by
  decide +kernel

end Sample

open Sample in
/-- A pass over a shipped order whose time lock of no seconds is over ends well, and leaves it. -/
theorem shipped_never_released_sample :
    ∃ g p, shippedDeployment.Reaches anyJob (orders (sealed 9 shippedCiphertext)) g ∧
      TimeLockPass g 0 p time [shippedRow] ∧ p.prog.result = some (.ok .done) ∧
      ¬ WritesContent shippedDeployment g 0 shippedRow.id
        (autoReleased (floorTimestamp6h time) shippedOrder) := by
  obtain ⟨g, hg, hcheck⟩ := shippedTrace.reaches
  obtain ⟨p, hp, hres⟩ := passEnds_iff (Bool.and_eq_true_iff.mp hcheck).1
  exact ⟨g, p, hg, hp, hres, (shipped_never_released hg hp (List.mem_singleton_self _)
    shippedRow_due.1 shippedRow_due.2).2⟩

open Sample in
/-- Though nobody else writes its row, the order is not released. -/
theorem shipped_order_kept :
    ¬ AutoReleases shippedDeployment (orders (sealed 9 shippedCiphertext)) := by
  intro hall
  obtain ⟨g, hg, hcheck⟩ := shippedTrace.reaches
  obtain ⟨hpass, hnone⟩ := Bool.and_eq_true_iff.mp hcheck
  obtain ⟨p, hp, hres⟩ := passEnds_iff hpass
  have hsilent : ∀ ev ∈ g.history, effectiveUpdate ev.reply = none := fun ev hev =>
    Option.isNone_iff_eq_none.mp (List.all_eq_true.mp hnone ev hev)
  obtain ⟨ev, hev, _, u, _, hu, _⟩ := hall g hg 0 p time [shippedRow] hp hres shippedRow
    (List.mem_singleton_self _) shippedOrder shippedRow_due.1 shippedRow_due.2
    fun ev hev _ => by simp [updatesRow, hsilent ev hev]
  rw [hsilent ev hev] at hu
  exact absurd hu (by simp)

section Reaches

variable {D : Deployment} {allow : System → Job → Prop} {orders : OrdersTable} {g : System}

/-! ## No early refund -/

/-- The call has replaced the content `d` of the row `id` by `d'`. -/
def Moves (D : Deployment) (ev : Effect) (id : Bytes) (d d' : OrderData) : Prop :=
  ∃ u o, effectiveUpdate ev.reply = some u ∧ u.whereId = id ∧
    ev.before.orders.find id = some o ∧ ev.after.orders.find id = some (u.set o) ∧
    decodeOrder D.prim D.workerKey o = some d ∧ decodeOrder D.prim D.workerKey (u.set o) = some d'

theorem Moves.updates {ev : Effect} {id : Bytes} {d d' : OrderData} (h : Moves D ev id d d') :
    updatesRow id ev.reply = true := by
  obtain ⟨u, _, hu, hid, _⟩ := h
  exact updatesRow_iff.mpr ⟨u, hu, hid⟩

/-- What a call has made of a content is determined. -/
theorem Moves.unique {ev : Effect} {id : Bytes} {c c' d d' : OrderData} (h : Moves D ev id c c')
    (h' : Moves D ev id d d') : c = d ∧ c' = d' := by
  obtain ⟨_, o, _, _, hbefore, hafter, hc, hc'⟩ := h
  obtain ⟨_, o', _, _, hbefore', hafter', hd, hd'⟩ := h'
  obtain rfl := Option.some.inj (hbefore.symm.trans hbefore')
  have heq := Option.some.inj (hafter.symm.trans hafter')
  rw [heq] at hc'
  exact ⟨Option.some.inj (hc.symm.trans hd), Option.some.inj (hc'.symm.trans hd')⟩

/-- How an update of the worker moves the content of its row. -/
inductive WorkerMove (D : Deployment) (ev : Effect) (d : OrderData) : OrderData → Prop
  | poll {o : Order} {d' : OrderData} (hjob : ev.job = .checkPendingPayments)
      (h : PollEdge D.prim D.workerKey ev.past o d d') : WorkerMove D ev d d'
  | timeLock {d' : OrderData} {time : Int64} (hjob : ev.job = .checkTimeLocks)
      (hclock : ⟨.now, time⟩ ∈ ev.past) (h : TimeLockMove (floorTimestamp6h time) d d') :
      WorkerMove D ev d d'
  | notify {addr : String} {buyerPubkey : Bytes} (hjob : ev.job = .scanNotifications) :
      WorkerMove D ev d (notified addr buyerPubkey d)

/-- **What the worker does to a row**, by its jobs. -/
theorem Deployment.Reaches.workerMove (h : D.Reaches allow orders g) {ev : Effect}
    (hev : ev ∈ g.history) (hw : ev.job.isWorker = true) {id : Bytes}
    (hupd : updatesRow id ev.reply = true) :
    ∃ d d', Moves D ev id d d' ∧ WorkerMove D ev d d' := by
  obtain ⟨u, hu, rfl⟩ := updatesRow_iff.mp hupd
  have hcall := h.statement hev
  have hreplaces := fun o hsaw hg => h.replaces hev hu (o := o) hsaw hg
  obtain ⟨pid, j, past, reply, before, after⟩ := ev
  obtain ⟨n, hn, rfl⟩ := effectiveUpdate_eq_some.mp hu
  have hmoves : ∀ {o d d' blob}, Saw past o → u.GuardedBy o →
      decodeOrder D.prim D.workerKey o = some d → Seals D.prim D.workerKey o.id d' blob →
      u.encryptedOrderBlob = some blob →
      Moves D ⟨pid, j, past, ⟨.updateOrders u, some n⟩, before, after⟩ u.whereId d d' := by
    intro o d d' blob hsaw hg hd hseal hstored
    obtain ⟨hbefore, hafter⟩ := hreplaces o hsaw hg
    exact ⟨u, o, hu, rfl, hbefore, hafter, hd, decode_set hseal hstored⟩
  cases j with
  | request _ => exact absurd hw (by simp [Job.isWorker])
  | restartApi => exact absurd hw (by simp [Job.isWorker])
  | restartWorker => exact absurd hw (by simp [Job.isWorker])
  | runDummyWorker => exact hcall.elim
  | checkPendingPayments =>
    obtain ⟨⟨o, d, d', blob, hwrite, hedge⟩, _⟩ := hcall
    exact ⟨d, d', hmoves hwrite.saw hwrite.guarded hwrite.decoded hwrite.sealed hwrite.stored,
      .poll rfl hedge⟩
  | checkTimeLocks =>
    obtain ⟨time, rows, hbegan, o, ho, d, d', blob, hd, hmove, hseal, rfl⟩ := hcall
    have hmem : ∀ r ∈ ([⟨.now, time⟩, ⟨.selectOrders, some rows⟩] : Past), r ∈ past :=
      fun r hr => hbegan.subset hr
    exact ⟨d, d', hmoves (.snapshot (hmem _ (by simp)) ho) (contentUpdate_guardedBy ..) hd hseal rfl,
      .timeLock rfl (hmem _ (by simp)) hmove⟩
  | scanNotifications =>
    obtain ⟨o, d, addr, buyerPubkey, blob, hwrite⟩ := hcall
    obtain rfl := hwrite.statement
    exact ⟨d, _, hmoves (.row hwrite.read) (contentUpdate_guardedBy ..) hwrite.decoded hwrite.sealed rfl,
      .notify rfl⟩

/-! ### The clock -/

theorem answer_clock {c : Call} {e : Choice} {s s' : Shared} {a : c.Ans}
    (h : server.answer c e s = some (a, s')) : s.clock ≤ s'.clock := by
  cases c with
  | now =>
    simp only [server] at h
    split at h
    · rename_i hle
      obtain ⟨_, rfl⟩ := Prod.mk.inj (Option.some.inj h)
      exact hle
    · exact absurd h (by simp)
  | _ =>
    simp only [server] at h
    repeat' split at h
    all_goals first
      | obtain ⟨_, rfl⟩ := Prod.mk.inj (Option.some.inj h)
        exact Int64.le_refl _
      | cases h

theorem answer_now {e : Choice} {s s' : Shared} {t : Int64}
    (h : server.answer .now e s = some (t, s')) : s.clock ≤ t ∧ s'.clock = t := by
  simp only [server] at h
  split at h
  · rename_i hle
    obtain ⟨rfl, rfl⟩ := Prod.mk.inj (Option.some.inj h)
    exact ⟨hle, rfl⟩
  · exact absurd h (by simp)

theorem Deployment.Reaches.clock_nonneg (h : D.Reaches allow orders g) : 0 ≤ g.shared.clock :=
  Reachable.shared_inv (R := fun s _ => 0 ≤ s.clock) (Int64.le_refl _)
    (fun _ _ ha hle => Int64.le_trans hle (answer_clock ha)) h

/-- No process reads a time before 1970. -/
theorem Deployment.Reaches.time_nonneg (h : D.Reaches allow orders g) {ev : Effect}
    (hev : ev ∈ g.history) {t : Int64} (ht : ⟨.now, t⟩ ∈ ev.past) : 0 ≤ t := by
  obtain ⟨l, l', hl⟩ := List.append_of_mem hev
  obtain ⟨g₀, hg₀, _, _, k, hp⟩ := Reachable.upTo h hl
  obtain ⟨read, hread, _, hreply⟩ := Reachable.event_of_past hg₀ hp ht
  obtain ⟨m, m', hm⟩ := List.append_of_mem hread
  obtain ⟨g₁, hg₁, _, hs₁, _⟩ := Reachable.upTo hg₀ hm
  obtain ⟨e, ha⟩ := (Deployment.Reaches.event hg₀ hread).2
  rw [hreply] at ha
  exact Int64.le_trans (hs₁ ▸ Deployment.Reaches.clock_nonneg hg₁) (answer_now ha).1

end Reaches

/-! ### Sums of timestamps -/

/-- The range of an `i64` as a clamp. -/
def clampI64 (n : Int) : Int := max (-2 ^ 63) (min (2 ^ 63 - 1) n)

theorem saturate_toInt (n : Int) : (saturate n).toInt = clampI64 n := by
  unfold saturate clampI64
  rw [Int64.toInt_minValue, Int64.toInt_maxValue]
  split
  · rw [Int64.toInt_minValue]
    omega
  split
  · rw [Int64.toInt_maxValue]
    omega
  · rw [Int64.toInt_ofInt_of_le (by omega) (by omega)]
    omega

/-- **A sum does not overflow**: it is the exact one, or the bound on its side. -/
theorem saturatingAdd_toInt (a b : Int64) :
    (saturatingAdd a b).toInt = clampI64 (a.toInt + b.toInt) :=
  saturate_toInt _

theorem saturatingMul_toInt (a b : Int64) :
    (saturatingMul a b).toInt = clampI64 (a.toInt * b.toInt) :=
  saturate_toInt _

/-- **Rounding does not overflow**, though its product is a plain one. -/
theorem floorTimestamp6h_toInt (ts : Int64) :
    (floorTimestamp6h ts).toInt = ts.toInt.tdiv 21600 * 21600 := by
  have hdiv : (ts / 21600).toInt = ts.toInt.tdiv 21600 :=
    Int64.toInt_div_of_ne_right ts 21600 (by decide)
  have hlt := Int64.toInt_lt ts
  have hle := Int64.le_toInt ts
  have habs : -2 ^ 63 ≤ ts.toInt.tdiv 21600 * 21600 ∧ ts.toInt.tdiv 21600 * 21600 < 2 ^ 63 := by
    rcases Int.le_total 0 ts.toInt with h | h
    · rw [Int.tdiv_eq_ediv_of_nonneg h]
      omega
    · rw [← Int.neg_neg ts.toInt, Int.neg_tdiv, Int.tdiv_eq_ediv_of_nonneg (by omega)]
      omega
  rw [floorTimestamp6h, Int64.toInt_mul, hdiv, show (21600 : Int64).toInt = 21600 from rfl,
    Int.bmod_eq_of_le (by omega) (by omega)]

theorem floorTimestamp6h_nonneg {ts : Int64} (h : 0 ≤ ts) : 0 ≤ floorTimestamp6h ts := by
  rw [Int64.le_iff_toInt_le] at h ⊢
  rw [floorTimestamp6h_toInt, Int.tdiv_eq_ediv_of_nonneg h]
  change (0 : Int) ≤ ts.toInt at h
  change (0 : Int) ≤ _
  omega

/-- The three waits of an abandoned order, one after the other. -/
theorem three_locks {f lock t₁ t : Int64} (hf : 0 ≤ f) (hlock : 0 ≤ lock)
    (h₁ : t₁ ≥ saturatingAdd f (saturatingMul lock 2)) (h : t ≥ saturatingAdd t₁ lock) :
    t₁ ≤ t ∧ t ≥ saturate (f.toInt + 3 * lock.toInt) := by
  simp only [ge_iff_le, Int64.le_iff_toInt_le, saturatingAdd_toInt, saturatingMul_toInt,
    saturate_toInt, clampI64, show (0 : Int64).toInt = 0 from rfl,
    show (2 : Int64).toInt = 2 from rfl] at *
  have := Int64.toInt_lt t₁
  constructor <;> omega

section Reaches

variable {D : Deployment} {allow : System → Job → Prop} {orders : OrdersTable} {g : System}
variable {id : Bytes} {f lock : Int64}

/-! ### From funding to refund -/

/-- The poller has marked the order as funded at `f`, with the lock `lock`. -/
def MarkedFunded (D : Deployment) (ev : Effect) (id : Bytes) (f lock : Int64) : Prop :=
  ev.job = .checkPendingPayments ∧ ∃ d, Moves D ev id d { d with state := "funded", fundedAt := some f } ∧
    d.timeLockSeconds = lock

/-- A pass has disputed the order automatically at `t`. -/
def AutoDisputedAt (D : Deployment) (ev : Effect) (id : Bytes) (t : Int64) : Prop :=
  ev.job = .checkTimeLocks ∧ ∃ d uuid, Moves D ev id d (autoDisputed uuid t d)

/-- A pass has refunded the order automatically at `t`. -/
def AutoRefundedAt (D : Deployment) (ev : Effect) (id : Bytes) (t : Int64) : Prop :=
  ev.job = .checkTimeLocks ∧ ∃ d, Moves D ev id d (autoRefunded t d)

/-- Where an order that was funded at `f` has come to, after the calls `l`: it waits, or was disputed
in one of them, or is refunded. -/
inductive LockPhase (D : Deployment) (id : Bytes) (f lock : Int64) (l : List Effect) (d : OrderData) :
    Prop
  | waiting (hstate : d.state = "funded") (hf : d.fundedAt = some f)
  | disputed (hstate : d.state = "disputed") {ev : Effect} {t : Int64} (hev : ev ∈ l)
      (ht : AutoDisputedAt D ev id t) (hdue : t ≥ saturatingAdd f (saturatingMul lock 2))
      (hexpires : d.expiresAt = some (saturatingAdd t lock))
  | refunded (hstate : d.state = "refunded")

theorem LockPhase.mono {l l' : List Effect} {d : OrderData} (h : LockPhase D id f lock l d)
    (hsub : l ⊆ l') : LockPhase D id f lock l' d := by
  cases h with
  | waiting hstate hf => exact .waiting hstate hf
  | disputed hstate hev ht hdue hexpires => exact .disputed hstate (hsub hev) ht hdue hexpires
  | refunded hstate => exact .refunded hstate

/-- **One update of the worker** takes the order from one phase to the next, or leaves it in its
phase. -/
theorem LockPhase.move {l : List Effect} {ev : Effect} {d d' : OrderData}
    (h : LockPhase D id f lock l d) (hlock : d.timeLockSeconds = lock) (hmoves : Moves D ev id d d')
    (hmove : WorkerMove D ev d d') :
    d'.timeLockSeconds = lock ∧ LockPhase D id f lock (l ++ [ev]) d' := by
  have hstate : d.state = "funded" ∨ d.state = "disputed" ∨ d.state = "refunded" := by
    cases h with
    | waiting hs _ => exact .inl hs
    | disputed hs _ _ _ _ => exact .inr (.inl hs)
    | refunded hs => exact .inr (.inr hs)
  cases hmove with
  | poll hjob hedge =>
    -- the poller writes pending and released orders only
    have hno : d.state = "pending" ∨ d.state = "released" := by
      cases hedge with
      | fund _ _ _ _ _ hc => exact .inl hc
      | cancel _ _ _ _ _ hc => exact .inl hc
      | settle _ _ hc => exact .inr hc
    rcases hstate with hs | hs | hs <;> rcases hno with hn | hn <;>
      exact absurd (hs.symm.trans hn) (by decide)
  | timeLock hjob hclock hmove =>
    cases hmove with
    | dispute uuid hdue =>
      refine ⟨hlock, ?_⟩
      cases h with
      | waiting hs hf =>
        refine .disputed rfl (List.mem_append_right l List.mem_cons_self) ⟨hjob, d, uuid, hmoves⟩ ?_ ?_
        · have := hdue.2.2
          rwa [hf, Option.getD_some, hlock] at this
        · rw [← hlock]
          rfl
      | disputed hs _ _ _ _ => exact absurd (hs.symm.trans hdue.1) (by decide)
      | refunded hs => exact absurd (hs.symm.trans hdue.1) (by decide)
    | refund hdue => exact ⟨hlock, .refunded rfl⟩
  | notify hjob =>
    refine ⟨hlock, LockPhase.mono ?_ (List.subset_append_left l [ev])⟩
    cases h with
    | waiting hs hf => exact .waiting hs hf
    | disputed hs hev ht hdue hexpires => exact .disputed hs hev ht hdue hexpires
    | refunded hs => exact .refunded hs

/-- The phase of the row, after a run of updates of the worker. -/
theorem Deployment.Reaches.lockPhase (h : D.Reaches allow orders g) {l l' : List Effect} {ev : Effect}
    (hl : g.history = l ++ ev :: l') (hfund : MarkedFunded D ev id f lock)
    (honly : ∀ e ∈ l', updatesRow id e.reply = true → e.job.isWorker = true) :
    ∃ o d, g.shared.orders.find id = some o ∧ decodeOrder D.prim D.workerKey o = some d ∧
      d.timeLockSeconds = lock ∧ LockPhase D id f lock l' d := by
  refine Reachable.since_inv (K := fun l₁ s => ∃ o d, s.orders.find id = some o ∧
    decodeOrder D.prim D.workerKey o = some d ∧ d.timeLockSeconds = lock ∧
    LockPhase D id f lock l₁ d) h hl ?_ ?_
  · obtain ⟨_, d, ⟨u, o, _, _, _, hafter, _, hd⟩, hlock⟩ := hfund
    exact ⟨u.set o, _, hafter, hd, hlock, .waiting rfl rfl⟩
  · rintro l₁ e l₂ rfl ⟨o, d, hfind, hd, hlock, hphase⟩
    have he : e ∈ g.history := by simp [hl]
    obtain ⟨hcall, _, ha⟩ := h.event he
    cases hupd : updatesRow id e.reply with
    | true =>
      obtain ⟨c, c', hmoves, hmove⟩ := h.workerMove he (honly e (by simp) hupd) hupd
      obtain ⟨u, o', hu, hid, hbefore, hafter, hc, hc'⟩ := hmoves
      obtain rfl := Option.some.inj (hfind.symm.trans hbefore)
      obtain rfl := Option.some.inj (hd.symm.trans hc)
      obtain ⟨hlock', hphase'⟩ := hphase.move hlock ⟨u, o, hu, hid, hbefore, hafter, hc, hc'⟩ hmove
      exact ⟨u.set o, c', hafter, hc', hlock', hphase'⟩
    | false =>
      rcases (hcall.step ha).some_cases hfind with ⟨hhit, _⟩ | ⟨_, hsame⟩
      · exact absurd (updatesRow_iff.mpr hhit) (by simp [hupd])
      · exact ⟨o, d, hsame, hd, hlock, hphase.mono (List.subset_append_left l₁ [e])⟩

/-- The poller funds an order at a time that it has read. -/
theorem Deployment.Reaches.funded_nonneg (h : D.Reaches allow orders g) {ev : Effect}
    (hev : ev ∈ g.history) (hfund : MarkedFunded D ev id f lock) : 0 ≤ f := by
  obtain ⟨hjob, d, hmoves, _⟩ := hfund
  have hw : ev.job.isWorker = true := by rw [hjob]; rfl
  obtain ⟨c, c', hmoves', hmove⟩ := h.workerMove hev hw hmoves.updates
  obtain ⟨rfl, rfl⟩ := hmoves.unique hmoves'
  generalize hd' : ({ d with state := "funded", fundedAt := some f } : OrderData) = d' at hmove
  cases hmove with
  | poll _ hedge =>
    cases hedge with
    | fund _ hdecision _ _ _ _ =>
      have hf := congrArg OrderData.fundedAt hd'
      obtain rfl := Option.some.inj hf
      exact floorTimestamp6h_nonneg (h.time_nonneg hev hdecision.clock)
    | cancel _ _ _ _ _ => exact absurd (congrArg OrderData.state hd') (by simp)
    | settle _ _ hc =>
      have hs : "funded" = d.state := congrArg OrderData.state hd'
      exact absurd (hs.trans hc) (by decide)
  | timeLock hjob' _ _ => exact absurd (hjob.symm.trans hjob') (by simp)
  | notify hjob' => exact absurd (hjob.symm.trans hjob') (by simp)

end Reaches

namespace Sample

/-- A pending order with a lock of twelve hours. -/
def lockedOrder : OrderData :=
  { fundedOrder with
    state := "pending"
    escrowAddress := some "bcrt1qescrow"
    escrowAmount := some "0.001"
    timeLockSeconds := 43200 }

def fundedAt : Int64 := 1699984800

def disputedAt : Int64 := 1700071200

def refundedAt : Int64 := 1700114400

def lockedFunded : OrderData := { lockedOrder with state := "funded", fundedAt := some fundedAt }

def lockedDisputed : OrderData := autoDisputed (List.replicate 16 1) disputedAt lockedFunded

def lockedRefunded : OrderData := autoRefunded refundedAt lockedDisputed

/-- `lockedOrder` under the nonce of threes. -/
def pendingCiphertext : Bytes :=
  List.flatMap (beBytes 44)
    [ 0x96804e6de60b251a4dd1efb12c6fa0577ea51721f29ca28e9769a627a0fc978cfd56ed38b485821b5371767d,
      0x8439ab931a34fd52c22475d1174e95f8f1b082d9e4866339d9ab79a88fdd65cce643056aefe33ae2665615ec,
      0x6fb4355534162771a4c949f5d3dcb768751c68f9a65382e1188e2788d5d2666e23478b53ffbc5320d366ccd5,
      0x088ea5337c18e43f70450e6bb237aabea154e9aab3bb1f39523998d52bc71008181e6044c2e42a9a3a5c0496,
      0xe1ad829ddc57e6f3adeaa56f840095591e680f902159a1acc1a2a55168b04269f61469200aeffca7cf4cc8a7,
      0xe1a420ac2e88d6acf5ef9eb2822217b2bfad1e1650db8faac5832df25d23877bd5f0cd96b2acd9b04d63400f,
      0x7e874d2c6e8ff5ff37a0d1d76516615efb515066f7d2b404a6bd3c913e361471327705a513bba475d4c6cf77,
      0x3e145ccb14c19c17500994947fcd442502d1f4c766ef46f8a279bead146d68fb2890bd79a44f57d458d61114,
      0x6d1b3416b64879ab4cdf710c9eb08f24f7956c9e124587ce3ccfd7e24edd341c0cbc42f5151440477d9335f7,
      0xc27a7a69abb00e1c9ba260d37bab05919d2997f2c666c1e8cb732497bece5db57cab4fa7b77f351fd04d6341,
      0x2c840532e18cc8af87382259828572db20f1b00d8e7ba560a7a685c132007a2ec599731d9ebad10cf577c3f3 ] ++
  beBytes 35 0x82ce7158c9e2e0b815ece757e10e1e3216fc865024f8697d097a632bd715c59f2837c7

/-- `lockedFunded` under the nonce of zeros. -/
def lockedCiphertext : Bytes :=
  List.flatMap (beBytes 44)
    [ 0x353765c1cd2b632a1d9316a2b8d55c36db3a04e77343312350259ffc3cacfb4a2eea062d01dc7b8573b59b59,
      0x52bcd773c5e64a55b7c47b9248a00dc9003827fc07e7431c5d88371e554c21b78947a62506bb37cc320d6716,
      0xebacb929e76886763f32217fa1f9d10c7881ffba597bbdfa832c8596bcdbc1f2d2fc9a338c7349ca96b9378b,
      0x32b2121d3d6e0d9edf659fd38c15164747a62f057011d4a70eb3c19441f2329f1a36f2cd02a507623af20b22,
      0x89230fc6503bffca664f1f29bc1739fc9e5dd9ba596c42a6c4274e6ae771b50b65c070ed4a98838003d8ef80,
      0xac11635904ff0ed25058f6ec3dcb7c3272f437784603f6505569da0c2149fa2eba3afea2bffa0ed63d79dfe6,
      0x8b8da969628f93575763461e525cc218ad92a5e60ae6c014ec83b4b7ee3e7776697cf93e54f9b6eb8bbf13c2,
      0x5a8185f6d7a40775a47b38fcdc58101cd3491eda535b5331160d9c1854cdd6c457487bae30b05b393b84cba5,
      0x6e95c51000eedfb4905594212ffcc52d1aae1313eb6842d3a6102228e4b3af711523eac873a4b9cbc9210144,
      0xaa62eaf7a3afee3a126e116fa9d52ad41948b3756c757a1fc10586c6053eb436bfe89802745ea6056fb8abe6,
      0x394a53d14c81f848e38836f240213786c9f47467ed4c8b6e8f0054b81f69e5c12fb51bf8fadead829e3bcda4 ] ++
  beBytes 40 0x14c01570b5f4762e29e6f24d85e63fcfda257bae2c13b4dcfdc625bda5423f97e63a9e896a5c9696

/-- `lockedDisputed` under the nonce of ones. -/
def abandonedCiphertext : Bytes :=
  List.flatMap (beBytes 44)
    [ 0x51deb3752538d18e7ee521bdf80b739fd1131efc0eb02f0d296974e80275a708c3fa1bf65204f5c6e77e758f,
      0xfc6661762990d821a73058bde0d007f01e2a65d119b3af7c97e6e255c3112a3eb0ff647a568e71c12996829d,
      0x82656010a620e71c82550caf27d1aa01ae11b90df542e692335be0de4509f7734ba38bedf36f7b192f9109f0,
      0x9f08f45dbdcdccd53b18d95a0ed65ffaf575f4b92bdd616ac209d72fceece40ceee6bf48b373b8a6cb54cc8a,
      0x8bcfd60784f85d42d871b8209cf7e2d09fef83cf2ae199890e7ab3cb1d9ecf6dd41bc1f19ed3ac0793ceedc2,
      0xb06b9594bdacb830ba1ea19cdb9bc0ea7652c54e5e54e57ed0ea9cffa091c95631f5b5e48e5380f25bfc17f0,
      0xa2229b7d44df69c4722450132a40ff60c3a7d2c28e4a8cd0489f67a098359563a8ccb655bb3515115da075ef,
      0x0ac41ec9265294746f1e8d0f1ff1049cb5b5ca1eb6244ef0e5cf4cb367995e943314b3794d1dd1bb0635cc5b,
      0x7252b01046dd64bf14d3697bd39055727c388d20af8a3471989815d40ee976a0c94e5945563d84ea97b4d142,
      0x82a4f4d77b71ce3578c999300643a9e56ad7687f0d2f0ea25dc356eebaebebfecb234a8d8d48ef219c906096,
      0x0f2d4b154c90cc8ad0096f86a1d2d27119d259b7e3a3e39a28985cc14b648ecf26f6b2d804d8baf41beb4c26,
      0x70c62b53595ad89f8bd76bf296dcdefcb2b78b550993b733b016a15fc3c149a3cb900403c8595f3efd6ec19f,
      0xd64a9b00b8d69b26454621a8257eb19c803e2022217ed1b6510eb5dcd171e68bf991e9cbe65eb5746b246715,
      0x9f04f6640ae04bffcf265cd9c516547aecc7e630f598b4be74fb27fb7446a322b4f3c1aa1b206c81a856d306,
      0x637ec84d1ff79c79547f68d23385e2d436b476b4ebb007c201cf4a7ea3b6fd65d6b973d175b76505a550b6c2,
      0xc63554d8b852bbed6dae0e584bbdc16b8843c7a35504be18de649779cc4a431a7783d6987419783a4c323e7a,
      0xe8a687159dc112238629d43b97e92f93ef1cb1151bb338860b0a33da4627a7fadc95430036ccfbea3a614b02 ] ++
  beBytes 35 0xcd2b2ef4498cd4bdd00ea086b70bf13a5b60e590e71a2cd0e2f9a3bf379fc8abf150d9

/-- `lockedRefunded` under the nonce of twos. -/
def returnedCiphertext : Bytes :=
  List.flatMap (beBytes 44)
    [ 0xc083078019f658c3c27e55dcc7cc64d48e7c5fd8009ea438c16477e08f9cc3f5227e629606b63e152d11e346,
      0x5affc77dadcf151f1f3b6515b9d2dae0c889ac7f3ca1dbe4c2737c4a61d7cb6962a2aefa6ba9d726b9cfbff0,
      0xfa0566efca1b83af22b30963d7ddf54dd0530129d374965e42c33920a2362955703af72d87013722b9077e7f,
      0xfaefb5756ecb48d4d4f62b22d50eca73c8aebc05d012bb9d06c8b292ef5eccf050c4b6e8cd946e599aeddae3,
      0x757fadde23ced214843a8e7ef2ecacb815fa0ad8e1b8b3d34e828dda155da0577546b3915d19b2bf3b27fc6b,
      0x864d1fc33d693ccfc2e74f24771dc5002434918ab144688149ddec7cff577362a4799a62ef15538508eb6c5d,
      0xece1b891017039a593aa4a62a80b290f2303fed2ad7ed7486812792bca8e68a33ab769d78d73d2111eca6700,
      0xd1283a640e06e4c76b6f0f5e73651cb13a85051f0f2155d2527f7df3013c35a08862e35c261579935d30aac5,
      0xcd96d1a11dec172b0c4ff5063d8c950bb16f641be5d60a8bb5f66db318197b20d090c1c37265ce5c60744a08,
      0x9159f4961292803b1063c633f31b91c431afedf1bd231a9d7c9e24fdaff2eba4a9ff9fb09b15153fd6ef14f9,
      0x321c0333de66344bb6db68bd41e152487aef2fdc76ff5b292fccdd058b876a6a1446770846aaf9bccb6c6b36,
      0x41b5c9d4d0554606ad829618c1076292f80258e686e272bca9bd5529ab36a80e9102b27187b7647d8f660b13,
      0x1bf9490d7844ca88bb0ecd22eeb1ebe97256cbb8be63ed5b47f3795daf1057a5743da3ec9f80c1da9a52dc11,
      0x29e88f459272948f036f3a8f28b1c6e9f3b567275806f323168afa71c36ea7078c0b09e5563d4b959dc516e9,
      0x00ec78a793efbbc329c7d3ba7e0644b67f5aef7250cdcd2b6ad31f1d4e455ac0111fa2ec2c46d73bfc9e87f6,
      0xfe7315bca6f36a76b4f0ea319c01d7212f03198f48079318c5395fb5c6cbd5b0c1fc230116f1e54539aa5975,
      0xd8ef9f159f96b302463c3c9bf7132ba580a121356e3c1c597ba37dcb135c3ef337d732a9856e3a6ed5832b61,
      0x257b011725d67c50fc00f8b31128ac78547834b656d08e2a70a5dda22a835a07d3828ba277ffa9f68a3f46a1 ] ++
  beBytes 16 0x94d5b781372d08dd2a0453696cf0fbd8

def lockTables : Primitives.Tables :=
  { workerTables with
    chacha :=
      [((orderKey, List.replicate 12 3, pendingCiphertext), lockedOrder.toVec),
        ((orderKey, List.replicate 12 0, lockedCiphertext), lockedFunded.toVec),
        ((orderKey, List.replicate 12 1, abandonedCiphertext), lockedDisputed.toVec),
        ((orderKey, List.replicate 12 2, returnedCiphertext), lockedRefunded.toVec)] }

def lockDeployment : Deployment := deployment lockTables none

/-- The next `n` calls of process `pid` at `time`, which draws bytes `x` and hears of a payment. -/
def paidActs (time : Int64) (x : UInt8) (pid n : Nat) : List (Label Job Choice) :=
  List.replicate n (.act pid
    { time
      ask := fun
        | .randomBytes n => List.replicate n x
        | .checkForFork _ => some false
        | .checkPayment .. => some ⟨true, 100000, 6, none, none, false⟩
        | q => q.noAnswer })

/-- The order is funded, disputed a day later, and refunded half a day later. -/
def lockRun : List (Label Job Choice) :=
  .spawn .checkPendingPayments :: paidActs time 0 0 10 ++
    .spawn .checkTimeLocks :: paidActs (disputedAt + 5) 1 1 5 ++
    .spawn .checkTimeLocks :: paidActs (refundedAt + 5) 2 2 4

/-- `Moves`, as a test. -/
def movesTo (D : Deployment) (id : Bytes) (d d' : OrderData) (ev : Effect) : Bool :=
  (effectiveUpdate ev.reply).any fun u => (ev.before.orders.find id).any fun o =>
    u.whereId = id && ev.after.orders.find id = some (u.set o) &&
      decodeOrder D.prim D.workerKey o = some d && decodeOrder D.prim D.workerKey (u.set o) = some d'

theorem movesTo_moves {D : Deployment} {id : Bytes} {d d' : OrderData} {ev : Effect}
    (h : movesTo D id d d' ev = true) : Moves D ev id d d' := by
  simp only [movesTo, Option.any_eq_true, Bool.and_eq_true, decide_eq_true_eq] at h
  obtain ⟨u, hu, o, ho, ⟨⟨hid, hafter⟩, hd⟩, hd'⟩ := h
  exact ⟨u, o, hu, hid, ho, hafter, hd, hd'⟩

/-- After the funding, the calls up to the refund. -/
def lockEvents (g : System) : Bool :=
  match g.history.drop 8 with
  | fund :: l =>
    fund.job = .checkPendingPayments &&
      movesTo lockDeployment (hex orderId) lockedOrder lockedFunded fund &&
      l.all (·.job.isWorker) &&
      (l.drop 9).head?.any fun ev => ev.job = .checkTimeLocks &&
        movesTo lockDeployment (hex orderId) lockedDisputed lockedRefunded ev
  | [] => false

def lockTrace : lockDeployment.Trace anyJob (orders (sealed 3 pendingCiphertext)) lockEvents where
  labels := lockRun
  allowed _ _ _ := trivial
  passes := by decide +kernel

end Sample

end TorMarketplace
