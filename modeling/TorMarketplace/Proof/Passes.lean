import TorMarketplace.Proof.TimeLocks

/-!
# Passes over many orders

How a pass of the time-lock checker ends (`checkTimeLocks_ends`), and which rows of its snapshot it
has written by then. A write that comes too late ends the pass, so the orders behind it wait for the
next one (`moves_independently_iff`).
-/

namespace TorMarketplace

open Encoding Interleave Prog

/-- The updates of the orders table that took effect, in order. -/
def effectiveUpdates (past : Past) : List UpdateOrders := past.filterMap effectiveUpdate

theorem effectiveUpdates_snoc (past : Past) (r : Reply Server) :
    effectiveUpdates (past ++ [r]) = effectiveUpdates past ++ (effectiveUpdate r).toList := by
  rw [effectiveUpdates, List.filterMap_append]
  cases hr : effectiveUpdate r <;> simp [effectiveUpdates, hr]

theorem mem_effectiveUpdates {past : Past} {u : UpdateOrders} :
    u ∈ effectiveUpdates past ↔ ∃ r ∈ past, effectiveUpdate r = some u :=
  List.mem_filterMap

/-- The pass at `now` is to move the order of the row `o`. -/
def EligibleRow (P : Primitives) (workerKey : Bytes) (now : Int64) (o : Order) : Prop :=
  ∃ d, decodeOrder P workerKey o = some d ∧ (DisputeDue now d ∨ RefundDue now d)

/-- How a pass ends whose write comes too late. -/
def lateWrite : Failure := .worker "order modified by concurrent writer"

section Pass

variable {st : AppState} {workerKey : Bytes} {now : Int64} {rows : List Order} {o : Order}
variable {d : OrderData}

/-- After the turn of the row `o`: it was written, or there was nothing to write, or the turn has
ended the pass. -/
def RowDone (P : Primitives) (workerKey : Bytes) (now : Int64) (o : Order) (past past' : Past) :
    Except Failure Unit → Prop
  | .ok _ => (EligibleRow P workerKey now o ∧
        ∃ u, u.GuardedBy o ∧ effectiveUpdates past' = effectiveUpdates past ++ [u]) ∨
      (¬ EligibleRow P workerKey now o ∧ effectiveUpdates past' = effectiveUpdates past)
  | .error e => effectiveUpdates past' = effectiveUpdates past ∧
      (e = lateWrite → EligibleRow P workerKey now o ∧
        ∃ u, u.GuardedBy o ∧ (⟨.updateOrders u, some 0⟩ : Reply Server) ∈ past')

/-- Nothing is claimed of the calls. -/
abbrev Ends {α : Type} (Q : Past → Except Failure α → Prop) (past : Past) (x : Program α) : Prop :=
  Spec server.May (fun _ _ => True) Q past x

theorem writeOrder_ends (hkey : st.workerKey = some workerKey) {d' : OrderData} {past₀ past : Past}
    (hpast : effectiveUpdates past = effectiveUpdates past₀)
    (hel : EligibleRow st.prim workerKey now o) :
    Ends (RowDone st.prim workerKey now o past₀) past (writeOrder st o.id d' o.version) := by
  have hkey' : getWorkerKey st = pure workerKey := by
    rw [getWorkerKey, hkey]
    rfl
  simp only [writeOrder, sealOrder, hkey', Ends, bind_bind, spec_pure_bind, spec_orFail_bind,
    spec_call_bind, spec_ensure, true_and]
  intro nonce _
  have hdraw : effectiveUpdates (past ++ [⟨.ask (.randomBytes 12), nonce⟩]) =
      effectiveUpdates past₀ := by
    rw [effectiveUpdates_snoc, hpast]
    exact List.append_nil _
  refine ⟨fun _ => ⟨hdraw, fun h => absurd h (by decide)⟩, fun blob _ affected _ =>
    ⟨?_, fun n hn => ⟨?_, ?_⟩⟩⟩
  · rintro rfl
    refine ⟨?_, fun h => absurd h (by decide)⟩
    rw [effectiveUpdates_snoc, hdraw]
    exact List.append_nil _
  · intro hzero
    obtain rfl : n = 0 := by simpa using hzero
    subst hn
    refine ⟨?_, fun _ => ⟨hel, contentUpdate o d' blob, contentUpdate_guardedBy o d' blob,
      List.mem_append_right _ List.mem_cons_self⟩⟩
    rw [effectiveUpdates_snoc, hdraw]
    exact List.append_nil _
  · intro hne
    subst hn
    refine .inl ⟨hel, contentUpdate o d' blob, contentUpdate_guardedBy o d' blob, ?_⟩
    have heff : effectiveUpdate ⟨.updateOrders (contentUpdate o d' blob), some n⟩ =
        some (contentUpdate o d' blob) :=
      effectiveUpdate_eq_some.mpr ⟨n, of_decide_eq_true hne, rfl⟩
    rw [effectiveUpdates_snoc, hdraw]
    exact congrArg (_ ++ Option.toList ·) heff

/-- **One row of a pass**: it is written exactly if it is to be moved. -/
theorem checkTimeLock_ends (hkey : st.workerKey = some workerKey) (past : Past) :
    Ends (RowDone st.prim workerKey now o past) past (checkTimeLock st workerKey now o) := by
  have hskip : ¬ EligibleRow st.prim workerKey now o →
      Ends (RowDone st.prim workerKey now o past) past (pure ()) := fun h => .inr ⟨h, rfl⟩
  unfold checkTimeLock
  split
  · rename_i hnone
    refine hskip ?_
    rintro ⟨d, hd, _⟩
    rw [hnone] at hd
    exact absurd hd (by simp)
  rename_i d hd
  have hrow : EligibleRow st.prim workerKey now o ↔ DisputeDue now d ∨ RefundDue now d := by
    simp [EligibleRow, hd]
  split
  · rename_i hstate
    rw [handleShipped_eq st o.id now o.version hstate]
    refine hskip ?_
    rw [hrow]
    rintro (hdue | hdue) <;> exact absurd (hstate.symm.trans hdue.1) (by decide)
  split
  · rename_i hstate
    have hcan : d.canTransitionTo "disputed" = true := by
      simp [OrderData.canTransitionTo, OrderData.stateTransitions, hstate, stateTransitions]
    unfold handleFunded
    by_cases hactive : hasActiveDispute d = true
    · rw [if_pos hactive]
      refine hskip ?_
      rw [hrow]
      rintro (hdue | hdue)
      · exact absurd (hactive.symm.trans hdue.2.1) (by decide)
      · exact absurd (hstate.symm.trans hdue.1) (by decide)
    rw [if_neg hactive, if_neg (not_not.mpr hcan)]
    dsimp only
    split
    · rename_i hdue
      simp only [Ends, spec_call_bind, true_and]
      intro uuid _
      refine writeOrder_ends hkey ?_ (hrow.mpr (.inl ⟨hstate, Bool.eq_false_iff.mpr hactive, hdue⟩))
      rw [effectiveUpdates_snoc]
      exact List.append_nil _
    · rename_i hdue
      refine hskip ?_
      rw [hrow]
      rintro (h | h)
      · exact hdue h.2.2
      · exact absurd (hstate.symm.trans h.1) (by decide)
  split
  · rename_i hstate
    have hcan : d.canTransitionTo "refunded" = true := by
      simp [OrderData.canTransitionTo, OrderData.stateTransitions, hstate, stateTransitions]
    unfold handleDisputed
    rw [if_neg (not_not.mpr hcan)]
    dsimp only
    split
    · rename_i hdue
      exact writeOrder_ends hkey rfl (hrow.mpr (.inr ⟨hstate, hdue⟩))
    · rename_i hdue
      refine hskip ?_
      rw [hrow]
      rintro (h | h)
      · exact absurd (hstate.symm.trans h.1) (by decide)
      · exact hdue h.2
  · rename_i hshipped hfunded hdisputed
    refine hskip ?_
    rw [hrow]
    rintro (h | h)
    · exact hfunded h.1
    · exact hdisputed h.1

/-- The rows `done` have had their turn: those that were to be moved are written, and no others. -/
def RowsDone (P : Primitives) (workerKey : Bytes) (now : Int64) (done : List Order) (past : Past) :
    Prop :=
  (∀ o ∈ done, EligibleRow P workerKey now o → ∃ u ∈ effectiveUpdates past, u.GuardedBy o) ∧
    ∀ u ∈ effectiveUpdates past, ∃ o ∈ done, u.GuardedBy o

/-- How a pass over the snapshot `rows` ends: with every row done, or late for one of them. -/
def PassDone {α : Type} (P : Primitives) (workerKey : Bytes) (now : Int64) (rows : List Order)
    (past : Past) : Except Failure α → Prop
  | .ok _ => RowsDone P workerKey now rows past
  | .error e => e = lateWrite → ∃ done o rest, rows = done ++ o :: rest ∧
      RowsDone P workerKey now done past ∧ EligibleRow P workerKey now o ∧
      ∃ u, u.GuardedBy o ∧ (⟨.updateOrders u, some 0⟩ : Reply Server) ∈ past

theorem checkRows_ends (hkey : st.workerKey = some workerKey) {past : Past}
    (hpast : effectiveUpdates past = []) :
    Ends (PassDone st.prim workerKey now rows) past
      (forEach (checkTimeLock st workerKey now) rows) := by
  refine spec_forEach_done (RowsDone st.prim workerKey now) ?_ (fun _ h => h) ?_
  · intro done o rest past hrows ⟨hdone, hwritten⟩
    refine spec_mono (fun _ _ h => h) (fun past' r hr => ?_) (checkTimeLock_ends hkey past)
    cases r with
    | error e =>
      obtain ⟨heff, hlate⟩ := hr
      intro he
      obtain ⟨hel, u, hg, hmem⟩ := hlate he
      exact ⟨done, o, rest, hrows, by rw [RowsDone, heff]; exact ⟨hdone, hwritten⟩, hel, u, hg, hmem⟩
    | ok _ =>
      simp only [List.forall_mem_append, List.forall_mem_singleton, RowsDone]
      rcases hr with ⟨_, u, hg, heff⟩ | ⟨hno, heff⟩
      · rw [heff]
        refine ⟨⟨fun o' ho' hel => ?_, fun _ => ⟨u, by simp, hg⟩⟩, fun u' hu' => ?_⟩
        · obtain ⟨u', hu', hg'⟩ := hdone o' ho' hel
          exact ⟨u', List.mem_append_left _ hu', hg'⟩
        · rcases List.mem_append.mp hu' with hu' | hu'
          · obtain ⟨o', ho', hg'⟩ := hwritten u' hu'
            exact ⟨o', List.mem_append_left _ ho', hg'⟩
          · obtain rfl := List.mem_singleton.mp hu'
            exact ⟨o, by simp, hg⟩
      · rw [heff]
        refine ⟨⟨hdone, fun hel => absurd hel hno⟩, fun u' hu' => ?_⟩
        obtain ⟨o', ho', hg'⟩ := hwritten u' hu'
        exact ⟨o', List.mem_append_left _ ho', hg'⟩
  · simp [RowsDone, hpast]

/-- **How a pass ends.** -/
theorem checkTimeLocks_ends (hkey : st.workerKey = some workerKey) :
    Ends (fun past r => ∀ time rows, [⟨.now, time⟩, ⟨.selectOrders, some rows⟩] <+: past →
      PassDone st.prim workerKey (floorTimestamp6h time) rows past r) [] (checkTimeLocks st) := by
  have hkey' : getWorkerKey st = pure workerKey := by
    rw [getWorkerKey, hkey]
    rfl
  simp only [checkTimeLocks, hkey', Ends, spec_pure_bind, spec_orFail_bind, spec_call_bind, true_and]
  intro time _ orders _
  refine ⟨?_, fun rows hrows => ?_⟩
  · rintro rfl time' rows' hpre
    have heq := hpre.eq_of_length (by simp)
    simp at heq
  · subst hrows
    have hloop : Ends (PassDone st.prim workerKey (floorTimestamp6h time) rows)
        [⟨.now, time⟩, ⟨.selectOrders, some rows⟩]
        (forEach (checkTimeLock st workerKey (floorTimestamp6h time)) rows) :=
      checkRows_ends hkey rfl
    refine spec_mono (fun _ _ _ => trivial) (fun past r hr time' rows' hpre => ?_)
      (spec_begins List.prefix_rfl hloop)
    obtain ⟨hdone, hpre'⟩ := hr
    have heq := (List.prefix_of_prefix_length_le hpre hpre' (by simp)).eq_of_length (by simp)
    cases heq
    exact hdone

end Pass

section Reaches

variable {D : Deployment} {allow : System → Job → Prop} {orders : OrdersTable} {g : System}
variable {pid : Nat} {time : Int64} {rows : List Order} {during : List Effect}
variable {r : Except Failure Response}

/-- A pass that has ended with `r`, and the calls of all processes between its snapshot and its end. -/
structure EndedPass (g : System) (pid : Nat) (time : Int64) (rows : List Order) (during : List Effect)
    (r : Except Failure Response) : Prop where
  pass : ∃ p, TimeLockPass g pid p time rows ∧ p.prog.result = some r
  window : ∃ l snap later, g.history = l ++ snap :: (during ++ later) ∧ snap.pid = pid ∧
    snap.past = [⟨.now, time⟩] ∧ snap.reply = ⟨.selectOrders, some rows⟩ ∧ ∀ e ∈ later, e.pid ≠ pid

/-- The pass has moved the order of the row. -/
def Transitioned (pid : Nat) (during : List Effect) (o : Order) : Prop :=
  ∃ e ∈ during, e.pid = pid ∧ updatesRow o.id e.reply = true

/-- Somebody else has written the row during the pass. -/
def ConcurrentlyWritten (pid : Nat) (during : List Effect) (o : Order) : Prop :=
  ∃ e ∈ during, e.pid ≠ pid ∧ updatesRow o.id e.reply = true

/-- Somebody else has written the row before the pass has. -/
def WrittenFirst (pid : Nat) (during : List Effect) (o : Order) : Prop :=
  ∃ e, (during.find? fun e => updatesRow o.id e.reply) = some e ∧ e.pid ≠ pid

/-- Every row that the pass is to move, and that nobody else writes, is moved. -/
def MovesIndependently (D : Deployment) (pid : Nat) (time : Int64) (rows : List Order)
    (during : List Effect) : Prop :=
  ∀ o ∈ rows, EligibleRow D.prim D.workerKey (floorTimestamp6h time) o →
    ¬ ConcurrentlyWritten pid during o → Transitioned pid during o

/-- Behind a row that the pass is to move and that somebody else writes first, every row to be moved
is written by somebody else too. -/
def ConflictsLast (D : Deployment) (pid : Nat) (time : Int64) (rows : List Order)
    (during : List Effect) : Prop :=
  ∀ done o rest, rows = done ++ o :: rest →
    EligibleRow D.prim D.workerKey (floorTimestamp6h time) o → WrittenFirst pid during o →
    ∀ o' ∈ rest, EligibleRow D.prim D.workerKey (floorTimestamp6h time) o' →
      ConcurrentlyWritten pid during o'

/-- The end of a pass, in a run. -/
theorem Deployment.Reaches.passDone (h : D.Reaches allow orders g) {p : Process}
    (hp : TimeLockPass g pid p time rows) (hr : p.prog.result = some r) :
    PassDone D.prim D.workerKey (floorTimestamp6h time) rows p.past r := by
  have hends : ∀ j, Ends (fun past r => j = Job.checkTimeLocks → ∀ time rows,
      [⟨.now, time⟩, ⟨.selectOrders, some rows⟩] <+: past →
        PassDone D.prim D.workerKey (floorTimestamp6h time) rows past r) [] (D.program j) := by
    intro j
    by_cases hj : j = .checkTimeLocks
    · subst hj
      exact spec_seq (checkTimeLocks_ends D.worker_workerKey)
        (fun past _ hdone _ time rows hpre => hdone time rows hpre)
        (fun past e hdone _ time rows hpre => hdone time rows hpre)
    · exact spec_of_forall (fun _ _ => trivial) fun _ _ hj' => absurd hj' hj
  exact Reachable.post (fun _ j _ => hends j) h (List.mem_of_getElem? hp.proc) hr hp.job time rows
    hp.began

/-- The updates of a pass come after its snapshot. -/
theorem EndedPass.mem_during {p : Process} (hp : TimeLockPass g pid p time rows)
    (h : D.Reaches allow orders g) {l later : List Effect} {snap : Effect}
    (hl : g.history = l ++ snap :: (during ++ later)) (hpid : snap.pid = pid)
    (hpast : snap.past = [⟨.now, time⟩]) (hreply : snap.reply = ⟨.selectOrders, some rows⟩)
    (hlater : ∀ e ∈ later, e.pid ≠ pid) {u : UpdateOrders} {n : Nat}
    (hu : (⟨.updateOrders u, some n⟩ : Reply Server) ∈ p.past) :
    ∃ e ∈ during, e.pid = pid ∧ e.reply = ⟨.updateOrders u, some n⟩ := by
  obtain ⟨e, he, hepid, hereply⟩ := Reachable.event_of_past h hp.proc hu
  rw [hl] at he
  simp only [List.mem_append, List.mem_cons] at he
  rcases he with he | rfl | he | he
  · -- before the snapshot the pass has read the clock only
    obtain ⟨l₁, l₂, rfl⟩ := List.append_of_mem he
    have hsplit : g.history = l₁ ++ e :: (l₂ ++ snap :: (during ++ later)) := by simp [hl]
    have hmem : snap ∈ l₂ ++ snap :: (during ++ later) := by simp
    have hpre := Reachable.event_past_begins h hsplit hmem (hpid.trans hepid.symm)
    rw [hpast, hereply] at hpre
    have hlen := hpre.length_le
    simp only [List.length_append, List.length_singleton] at hlen
    have hnil : e.past = [] := List.eq_nil_of_length_eq_zero (by omega)
    rw [hnil] at hpre
    have heq := hpre.eq_of_length (by simp)
    simp at heq
  · rw [hreply] at hereply
    simp at hereply
  · exact ⟨e, he, hepid, hereply⟩
  · exact absurd hepid (hlater e he)

/-- A row that the pass has written was written by nobody else before. -/
theorem EndedPass.not_writtenFirst (h : D.Reaches allow orders g) {l later : List Effect}
    {snap : Effect} (hl : g.history = l ++ snap :: (during ++ later)) {o : Order}
    (hfind : snap.after.orders.find o.id = some o) {e : Effect} (he : e ∈ during) (hpid : e.pid = pid)
    {u : UpdateOrders} (hu : effectiveUpdate e.reply = some u) (hg : u.GuardedBy o) :
    ¬ WrittenFirst pid during o := by
  rintro ⟨e', hfirst, hpid'⟩
  obtain ⟨during₁, during₂, rfl⟩ := List.append_of_mem he
  -- up to the write of the pass, the row is in the version of the snapshot
  have hsplit : g.history = (l ++ snap :: during₁) ++ e :: (during₂ ++ later) := by simp [hl]
  obtain ⟨g₀, hg₀, hhist, hs₀, _⟩ := Reachable.upTo h hsplit
  have hmem : e ∈ g.history := by simp [hl]
  obtain ⟨_, a, ha⟩ := h.event hmem
  have hmatch : ∃ o', e.before.orders.find o.id = some o' ∧ o'.version = o.version := by
    obtain ⟨n, hn, hreply⟩ := effectiveUpdate_eq_some.mp hu
    rw [hreply] at ha
    rcases answer_updateOrders ha with ⟨hnone, _⟩ | ⟨hsome, _⟩
    · exact absurd hnone (by simp)
    obtain rfl := Option.some.inj hsome
    obtain ⟨o', ho', hm⟩ := OrdersTable.rowsAffected_ne_zero.mp hn
    exact ⟨o', hg.2.1 ▸ ho', ((hg.matches_iff o').mp hm).2⟩
  have hquiet : ∀ e₁ ∈ during₁, updatesRow o.id e₁.reply = false := by
    intro e₁ he₁
    by_contra hupd
    obtain ⟨r, hr, hlt⟩ := Deployment.Reaches.overtaken hg₀ hhist hfind
      ⟨e₁, he₁, by simpa using hupd⟩
    obtain ⟨o', ho', hv⟩ := hmatch
    rw [hs₀, ho'] at hr
    obtain rfl := Option.some.inj hr
    omega
  have hupd : updatesRow o.id e.reply = true := updatesRow_iff.mpr ⟨u, hu, hg.2.1⟩
  rw [List.find?_append, List.find?_eq_none.mpr fun e₁ he₁ => by simp [hquiet e₁ he₁],
    Option.none_or, List.find?_cons, hupd] at hfirst
  obtain rfl := Option.some.inj hfirst
  exact hpid' hpid

/-- A row for which the pass came too late was written by somebody during the pass. -/
theorem EndedPass.late (h : D.Reaches allow orders g) {l later : List Effect}
    {snap : Effect} (hl : g.history = l ++ snap :: (during ++ later)) {o : Order}
    (hfind : snap.after.orders.find o.id = some o) {e : Effect} (he : e ∈ during)
    {u : UpdateOrders} (hreply : e.reply = ⟨.updateOrders u, some 0⟩) (hg : u.GuardedBy o) :
    ∃ e' ∈ during, updatesRow o.id e'.reply = true := by
  obtain ⟨during₁, during₂, rfl⟩ := List.append_of_mem he
  have hsplit : g.history = (l ++ snap :: during₁) ++ e :: (during₂ ++ later) := by simp [hl]
  obtain ⟨g₀, hg₀, hhist, hs₀, _⟩ := Reachable.upTo h hsplit
  by_contra hnone
  have hquiet : ∀ e₁ ∈ during₁, updatesRow o.id e₁.reply = false := fun e₁ he₁ => by
    by_contra hupd
    exact hnone ⟨e₁, by simp [he₁], by simpa using hupd⟩
  have hsame := Deployment.Reaches.untouched hg₀ hhist hfind hquiet
  rw [hs₀] at hsame
  have hmem : e ∈ g.history := by simp [hl]
  obtain ⟨_, a, ha⟩ := h.event hmem
  rw [hreply] at ha
  rcases answer_updateOrders ha with ⟨hno, _⟩ | ⟨hsome, _⟩
  · exact absurd hno (by simp)
  refine OrdersTable.rowsAffected_ne_zero.mpr ⟨o, hg.2.1 ▸ hsame, (hg.matches_iff o).mpr ⟨rfl, rfl⟩⟩ ?_
  exact (Option.some.inj hsome).symm

/-- Whoever stands before a member of a list without repetitions stands in every beginning of the list
with that member. -/
theorem mem_of_before {α : Type} {l done rest done' rest' : List α} {x y : α} (hnd : l.Nodup)
    (h : l = done ++ x :: rest) (h' : l = done' ++ rest') (hy : y ∈ rest) (hy' : y ∈ done') :
    x ∈ done' := by
  rcases List.append_eq_append_iff.mp (h.symm.trans h') with ⟨as, hdone, hrest⟩ | ⟨bs, hdone, _⟩
  · rw [hdone] at hy' ⊢
    cases as with
    | nil =>
      -- then `y` stands on both sides of `x`
      rw [List.append_nil] at hy'
      rw [h, List.nodup_append] at hnd
      exact absurd rfl (hnd.2.2 y hy' y (List.mem_cons_of_mem x hy))
    | cons z as =>
      obtain ⟨rfl, _⟩ := List.cons.inj hrest
      simp
  · rw [h, List.nodup_append] at hnd
    exact absurd rfl (hnd.2.2 y (hdone ▸ List.mem_append_left bs hy') y (List.mem_cons_of_mem x hy))

/-- **When a pass treats its orders independently.** A pass that is not ended by a database error or
a failed encryption moves every order that it is to move and nobody else writes, if and only if
somebody else writes first, at most, a row behind which nothing is left to do. -/
theorem moves_independently_iff (h : D.Reaches anyJob orders g)
    (hpass : EndedPass g pid time rows during r) (hr : r = .ok .done ∨ r = .error lateWrite) :
    MovesIndependently D pid time rows during ↔ ConflictsLast D pid time rows during := by
  obtain ⟨⟨p, hp, hres⟩, l, snap, later, hl, hspid, hspast, hsreply, hlater⟩ := hpass
  have hdone := h.passDone hp hres
  have hmem : snap ∈ g.history := by simp [hl]
  obtain ⟨_, e₀, ha⟩ := h.event hmem
  rw [hsreply] at ha
  obtain ⟨hafter, hrows, _⟩ := answer_selectOrders ha
  have hfind : ∀ o ∈ rows, snap.after.orders.find o.id = some o := fun o ho =>
    hafter ▸ OrdersTable.find_of_mem (hrows ▸ ho)
  have hnodup : rows.Nodup := hrows ▸ snap.before.orders.nodup.of_map
  have hduring : ∀ {u n}, (⟨.updateOrders u, some n⟩ : Reply Server) ∈ p.past →
      ∃ e ∈ during, e.pid = pid ∧ e.reply = ⟨.updateOrders u, some n⟩ := fun hu =>
    EndedPass.mem_during hp h hl hspid hspast hsreply hlater hu
  -- what the pass has written it has written during the pass, and first
  have hwrote : ∀ {o u}, o ∈ rows → u ∈ effectiveUpdates p.past → u.GuardedBy o →
      Transitioned pid during o ∧ ¬ WrittenFirst pid during o := by
    intro o u ho hu hg
    obtain ⟨reply, hreply, heff⟩ := mem_effectiveUpdates.mp hu
    obtain ⟨n, _, rfl⟩ := effectiveUpdate_eq_some.mp heff
    obtain ⟨e, he, hpid, hereply⟩ := hduring hreply
    rw [← hereply] at heff
    exact ⟨⟨e, he, hpid, updatesRow_iff.mpr ⟨u, heff, hg.2.1⟩⟩,
      EndedPass.not_writtenFirst h hl (hfind o ho) he hpid heff hg⟩
  have hwriter : ∀ {o}, Transitioned pid during o → ∃ u ∈ effectiveUpdates p.past, u.whereId = o.id := by
    rintro o ⟨e, he, hpid, hupd⟩
    obtain ⟨u, hu, hid⟩ := updatesRow_iff.mp hupd
    have hmem : e ∈ g.history := by simp [hl, he]
    have hpre := Reachable.event_begins h hmem (hpid ▸ hp.proc)
    exact ⟨u, mem_effectiveUpdates.mpr ⟨e.reply, hpre.subset (by simp), hu⟩, hid⟩
  have hrow : ∀ {o o'}, o ∈ rows → o' ∈ rows → o.id = o'.id → o = o' := hp.row_eq h
  constructor
  · intro hall done o rest hsplit hel hfirst o' ho' hel'
    have ho : o ∈ rows := by simp [hsplit]
    have ho'rows : o' ∈ rows := by simp [hsplit, ho']
    by_contra hno
    obtain ⟨u', hu', hid'⟩ := hwriter (hall o' ho'rows hel' hno)
    -- the pass has come as far as `o'`, so it has written `o`
    have hbefore : ∃ done₁ rest₁, rows = done₁ ++ rest₁ ∧
        RowsDone D.prim D.workerKey (floorTimestamp6h time) done₁ p.past := by
      rcases hr with rfl | rfl
      · exact ⟨rows, [], by simp, hdone⟩
      · obtain ⟨done₁, x, rest₁, hsplit₁, hdone₁, _⟩ := hdone rfl
        exact ⟨done₁, x :: rest₁, hsplit₁, hdone₁⟩
    obtain ⟨done₁, rest₁, hsplit₁, hwritten, hfrom⟩ := hbefore
    obtain ⟨o₁, ho₁, hg₁⟩ := hfrom u' hu'
    obtain rfl := hrow (by simp [hsplit₁, ho₁]) ho'rows (hg₁.2.1.symm.trans hid')
    obtain ⟨u, hu, hg⟩ := hwritten o (mem_of_before hnodup hsplit hsplit₁ ho' ho₁) hel
    exact (hwrote ho hu hg).2 hfirst
  · intro hlast o' ho' hel' hno
    rcases hr with rfl | rfl
    · obtain ⟨u, hu, hg⟩ := hdone.1 o' ho' hel'
      exact (hwrote ho' hu hg).1
    · obtain ⟨done, x, rest, hsplit, ⟨hwritten, hfrom⟩, hel, u, hg, hu⟩ := hdone rfl
      have hx : x ∈ rows := by simp [hsplit]
      obtain ⟨e, he, _, hereply⟩ := hduring hu
      obtain ⟨e', he', hupd⟩ := EndedPass.late h hl (hfind x hx) he hereply hg
      -- it was not the pass that wrote `x`
      have hothers : ∀ e ∈ during, updatesRow x.id e.reply = true → e.pid ≠ pid := by
        intro e he hupd hpid
        obtain ⟨u', hu', hid'⟩ := hwriter ⟨e, he, hpid, hupd⟩
        obtain ⟨o₁, ho₁, hg₁⟩ := hfrom u' hu'
        obtain rfl := hrow (by simp [hsplit, ho₁]) hx (hg₁.2.1.symm.trans hid')
        rw [hsplit, List.nodup_append] at hnodup
        exact absurd rfl (hnodup.2.2 o₁ ho₁ o₁ List.mem_cons_self)
      have hfirst : WrittenFirst pid during x := by
        cases hfound : during.find? fun e => updatesRow x.id e.reply with
        | none => exact absurd hupd (List.find?_eq_none.mp hfound e' he')
        | some e₁ => exact ⟨e₁, hfound, hothers e₁ (List.mem_of_find?_eq_some hfound)
            (by simpa using List.find?_some hfound)⟩
      rw [hsplit] at ho'
      rcases List.mem_append.mp ho' with hin | hin
      · obtain ⟨u', hu', hg'⟩ := hwritten o' hin hel'
        exact (hwrote (hsplit ▸ ho') hu' hg').1
      · rcases List.mem_cons.mp hin with rfl | hin
        · exact absurd ⟨e', he', hothers e' he' hupd, hupd⟩ hno
        · exact absurd (hlast done x rest hsplit hel hfirst o' hin hel') hno

/-- The calls after the snapshot of an ended pass. -/
theorem TimeLockPass.ended (h : D.Reaches allow orders g) {p : Process}
    (hp : TimeLockPass g pid p time rows) (hr : p.prog.result = some r) :
    ∃ during, during ⊆ g.history ∧ EndedPass g pid time rows during r := by
  obtain ⟨l, snap, during, hl, hpid, hpast, hreply, _⟩ := hp.snapshot h
  refine ⟨during, fun e he => by simp [hl, he], ⟨p, hp, hr⟩, l, snap, [], ?_, hpid, hpast, hreply, by simp⟩
  rw [List.append_nil, hl]

end Reaches

namespace Sample

def fundedRow : Order := InsertOrders.row ⟨hex orderId, sealed 1 fundedCiphertext, 0, none⟩

def passTrace : (deployment workerTables none).Trace anyJob (orders (sealed 1 fundedCiphertext))
    (passEnds time [fundedRow] (.ok .done)) where
  labels := disputePass
  allowed _ _ _ := trivial
  passes := by decide +kernel

/-- `fundedOrder` as the content of a second order, under the nonce of eights. -/
def nextCiphertext : Bytes :=
  List.flatMap (beBytes 44)
    [ 0x1498b9afc80a5aa807e99913df87dc593c1b058c6e29282ba08c9ae7b38f3e6ad9c70f47123f065711260fcd,
      0x4df2edbd643605906d4909a61136fa47a45f77dbf78f78ec5ec7bf23465f425ffdd2dd327ca814342aa700a9,
      0x3cba82519816bc67dfa4b6ff2ca381a83e2e5274c90c968232c74cba387e73ba4796be07326f28daefef1fc5,
      0xb80640abf75af8f3306a9476aaabd9f7302a073eac7e2fb389a795aacee404c8e5311c887d665d774b995ebe,
      0xc5b8d3ed97f0e5dea0e510ec7ee7d5ec5cba6687da7f91ce013974dffe910338f72e14bbafa68636e2bf1dbf,
      0x445ac227268802a95256c00d378b34e7251cd285efba39046f63c9f39b7c38bbfb8c26aac6bcec3d9a354a66,
      0x9d00fe40bfb13e7970c560226e7036d136c22b36fee45237657a6ea26f7786d1cb02825cd7182a1f0d6f082c,
      0x2d9e0ef9c76de42f3fa66c3628cfae6702cfd0b4048cbfd05531a0cc3de5dee3b6002fcf381b73ea7f5bd7f4,
      0xa172fd977f5b8fe3e3fbd932ca3133549fdfc65a8aafae70134674f66c2cacfaacd4d1917efb1395104eb646,
      0x917aec2846030b702afd9bca87c8d632d1dcf9de3c04aeabcb491739739918dede9e2cf4cb1f3cb2553a078e,
      0x32fc029f5fbc681a792ab1a6e338b512aa2d29f4fa05c8986862ea05d1645e461f46dd683598e620f71cf515 ] ++
  beBytes 17 0xf2f888d3f48576153f3b0512b0b7984237

def nextId : String := "101112131415161718191a1b1c1d1e1f"

def nextKey : Bytes := hex "f84fa56a88f597e7e47fda2c35b5e3144e2efd9f580488856b1e48c2ebc2c22b"

def nextRow : Order := InsertOrders.row ⟨hex nextId, sealed 8 nextCiphertext, 0, none⟩

/-- The funded order, and a second one behind it. -/
def bothOrders : OrdersTable where
  rows := [fundedRow, nextRow]
  nodup := by decide +kernel

/-- `workerTables`, the content of the second order, and what the login of a client needs. -/
def conflictTables : Primitives.Tables :=
  let tables := loginTables [firstChat]
  { workerTables with
    hmacSha256 :=
      ((List.replicate 32 7, utf8 "oblivious-order-v1" ++ hex nextId), nextKey) ::
        (tables.hmacSha256 ++ workerTables.hmacSha256)
    chacha := ((nextKey, List.replicate 12 8, nextCiphertext), fundedOrder.toVec) :: workerTables.chacha
    blake3 := tables.blake3
    verifyingKeys := tables.verifyingKeys
    signatures := tables.signatures }

def conflictDeployment : Deployment := deployment conflictTables none

/-- A chat message to the first order comes between the snapshot of the pass and its first write. -/
def conflictTrace : conflictDeployment.Trace anyJob bothOrders
    fun g => passEnds time [fundedRow, nextRow] (.error lateWrite) g &&
      g.history.all fun ev => !updatesRow nextRow.id ev.reply where
  labels := .spawn .checkTimeLocks :: draws 0 0 2 ++
    .spawn (.request (firstChat.post (.sendMessage ⟨"AQID", "", "n1"⟩))) :: acts 1 6 ++ draws 0 0 3
  allowed _ _ _ := trivial
  passes := by decide +kernel

theorem nextRow_due :
    decodeOrder conflictDeployment.prim conflictDeployment.workerKey nextRow = some fundedOrder ∧
      DisputeDue (floorTimestamp6h time) fundedOrder := by
  decide +kernel

end Sample

open Sample in
/-- With nobody else about, a pass over one funded order moves it. -/
theorem moves_independently_sample :
    ∃ g during, (deployment workerTables none).Reaches anyJob (orders (sealed 1 fundedCiphertext)) g ∧
      EndedPass g 0 time [fundedRow] during (.ok .done) ∧
      MovesIndependently (deployment workerTables none) 0 time [fundedRow] during := by
  obtain ⟨g, hg, hcheck⟩ := passTrace.reaches
  obtain ⟨p, hp, hres⟩ := passEnds_iff hcheck
  obtain ⟨during, _, hended⟩ := hp.ended hg hres
  refine ⟨g, during, hg, hended, (moves_independently_iff hg hended (.inl rfl)).mpr ?_⟩
  -- there is no row behind the first
  intro done o rest hsplit _ _ o' ho'
  rcases List.append_eq_singleton_iff.mp hsplit.symm with ⟨_, hrest⟩ | ⟨_, hrest⟩
  · rw [(List.cons.inj hrest).2] at ho'
    exact absurd ho' List.not_mem_nil
  · exact absurd hrest (by simp)

open Sample in
/-- A message to the first order keeps a pass from the second. -/
theorem conflict_ends_pass :
    ∃ g during, conflictDeployment.Reaches anyJob bothOrders g ∧
      EndedPass g 0 time [fundedRow, nextRow] during (.error lateWrite) ∧
      ¬ MovesIndependently conflictDeployment 0 time [fundedRow, nextRow] during := by
  obtain ⟨g, hg, hcheck⟩ := conflictTrace.reaches
  obtain ⟨hpass, hnone⟩ := Bool.and_eq_true_iff.mp hcheck
  obtain ⟨p, hp, hres⟩ := passEnds_iff hpass
  obtain ⟨during, hsub, hended⟩ := hp.ended hg hres
  refine ⟨g, during, hg, hended, fun hall => ?_⟩
  have hquiet : ∀ e ∈ during, updatesRow nextRow.id e.reply = false := fun e he => by
    simpa using List.all_eq_true.mp hnone e (hsub he)
  obtain ⟨e, he, _, hupd⟩ := hall nextRow (by simp) ⟨fundedOrder, nextRow_due.1, .inl nextRow_due.2⟩
    fun ⟨e, he, _, hupd⟩ => absurd hupd (by simp [hquiet e he])
  exact absurd hupd (by simp [hquiet e he])

end TorMarketplace
