import TorMarketplace.System

/-!
# What the calls do

Facts about the machine `server` that no program enters into: what a reply says of the state it was
given in, and what a call can do to the orders table.
-/

namespace TorMarketplace

open Encoding Interleave Versioned

/-- The UPDATE of the orders table that a reply reports as effective. -/
def effectiveUpdate : Reply Server → Option UpdateOrders
  | ⟨.updateOrders u, some (_ + 1)⟩ => some u
  | _ => none

/-- The keys of the rows that a call replaced. -/
def Hits (r : Reply Server) (k : Bytes) : Prop := ∃ u, effectiveUpdate r = some u ∧ u.whereId = k

theorem effectiveUpdate_eq_some {r : Reply Server} {u : UpdateOrders} :
    effectiveUpdate r = some u ↔ ∃ n, n ≠ 0 ∧ r = ⟨.updateOrders u, some n⟩ := by
  constructor
  · intro h
    unfold effectiveUpdate at h
    split at h
    · rename_i u' n
      obtain rfl := Option.some.inj h
      exact ⟨n + 1, Nat.succ_ne_zero n, rfl⟩
    · exact absurd h (by simp)
  · rintro ⟨n, hn, rfl⟩
    obtain ⟨m, rfl⟩ := Nat.exists_eq_succ_of_ne_zero hn
    rfl

/-! ## Replies -/

/-- The reply reports the row `o`, alone or in a snapshot of the table. -/
def Reads (r : Reply Server) (o : Order) : Prop :=
  r = ⟨.selectOrder o.id, some (some o)⟩ ∨ ∃ rows, r = ⟨.selectOrders, some rows⟩ ∧ o ∈ rows

/-- A row that a process has read. -/
def Saw (past : Past) (o : Order) : Prop := ∃ r ∈ past, Reads r o

theorem Saw.row {past : Past} {o : Order} (h : ⟨.selectOrder o.id, some (some o)⟩ ∈ past) :
    Saw past o :=
  ⟨_, h, .inl rfl⟩

theorem Saw.snapshot {past : Past} {rows : List Order} {o : Order}
    (h : ⟨.selectOrders, some rows⟩ ∈ past) (ho : o ∈ rows) : Saw past o :=
  ⟨_, h, .inr ⟨rows, rfl, ho⟩⟩

theorem Saw.mono {past past' : Past} {o : Order} (h : Saw past o) (hsub : past ⊆ past') :
    Saw past' o :=
  h.imp fun _ hr => ⟨hsub hr.1, hr.2⟩

theorem readRow_eq_some {o o' : Order} : readRow o = some o' ↔ IsI64 o.version ∧ o' = o := by
  unfold readRow
  split <;> simp_all [eq_comm]

theorem mapM_readRow {rows rows' : List Order} (h : rows.mapM readRow = some rows') :
    rows' = rows ∧ ∀ o ∈ rows, IsI64 o.version := by
  induction rows generalizing rows' with
  | nil => simpa [eq_comm] using h
  | cons o rows ih =>
    simp only [List.mapM_cons, Option.bind_eq_bind, Option.bind_eq_some_iff, Option.pure_def,
      Option.some.injEq] at h
    obtain ⟨o', ho', rows'', hrows, rfl⟩ := h
    obtain ⟨hi, rfl⟩ := readRow_eq_some.mp ho'
    obtain ⟨rfl, hall⟩ := ih hrows
    exact ⟨rfl, List.forall_mem_cons.mpr ⟨hi, hall⟩⟩

theorem answer_selectOrder {id : Bytes} {e : Choice} {s s' : Shared} {o : Order}
    (h : server.answer (.selectOrder id) e s = some (some (some o), s')) :
    s' = s ∧ s.orders.find id = some o ∧ IsI64 o.version := by
  simp only [server] at h
  split at h
  · exact absurd h (by simp)
  · split at h
    · rename_i o' ho'
      simp only [Option.some.injEq, Prod.mk.injEq, Option.map_eq_some_iff, readRow_eq_some] at h
      obtain ⟨⟨o₁, ⟨hi, rfl⟩, rfl⟩, rfl⟩ := h
      exact ⟨rfl, ho', hi⟩
    · exact absurd h (by simp)

/-- A row of the table is found. -/
theorem answer_selectOrder_found {id : Bytes} {e : Choice} {s s' : Shared} {row : Option Order}
    {o : Order} (h : server.answer (.selectOrder id) e s = some (some row, s'))
    (ho : s.orders.find id = some o) : row = some o := by
  simp only [server] at h
  split at h
  · exact absurd h (by simp)
  · rw [ho] at h
    simp only [Option.some.injEq, Prod.mk.injEq, Option.map_eq_some_iff, readRow_eq_some] at h
    obtain ⟨⟨o', ⟨_, rfl⟩, rfl⟩, _⟩ := h
    rfl

theorem answer_selectOrders {e : Choice} {s s' : Shared} {rows : List Order}
    (h : server.answer .selectOrders e s = some (some rows, s')) :
    s' = s ∧ rows = s.orders.rows ∧ ∀ o ∈ rows, IsI64 o.version := by
  simp only [server] at h
  split at h
  · exact absurd h (by simp)
  · simp only [Option.some.injEq, Prod.mk.injEq] at h
    obtain ⟨hrows, rfl⟩ := h
    obtain ⟨rfl, hall⟩ := mapM_readRow hrows
    exact ⟨rfl, rfl, hall⟩

/-- A row is read under its own id, with a version that fits. -/
theorem may_selectOrder {id : Bytes} {o : Order}
    (h : server.May (.selectOrder id) (some (some o))) : o.id = id ∧ IsI64 o.version := by
  obtain ⟨e, s, s', h⟩ := h
  obtain ⟨_, hfind, hi⟩ := answer_selectOrder h
  exact ⟨(OrdersTable.find_some hfind).2, hi⟩

theorem may_randomBytes {n : Nat} {b : Bytes} (h : server.May (.ask (.randomBytes n)) b) :
    b.length = n := by
  obtain ⟨e, s, s', h⟩ := h
  simp only [server] at h
  split at h
  · rename_i hv
    simp only [Option.some.injEq, Prod.mk.injEq] at h
    rw [h.1] at hv
    exact of_decide_eq_true hv
  · exact absurd h (by simp)

/-! ## The orders table -/

theorem answer_updateOrders {u : UpdateOrders} {e : Choice} {s s' : Shared} {a : Option Nat}
    (h : server.answer (.updateOrders u) e s = some (a, s')) :
    (a = none ∧ s' = s) ∨ (a = some (s.orders.rowsAffected u) ∧
      s' = { s with orders := s.orders.update u }) := by
  simp only [server] at h
  split at h <;> simp only [Option.some.injEq, Prod.mk.injEq] at h
  · exact .inl ⟨h.1.symm, h.2.symm⟩
  · exact .inr ⟨h.1.symm, h.2.symm⟩

theorem answer_insertOrder {i : InsertOrders} {e : Choice} {s s' : Shared} {a : Option Unit}
    (h : server.answer (.insertOrder i) e s = some (a, s')) :
    (a = none ∧ s' = s) ∨
      ∃ t, a = some () ∧ s.orders.insert i = some t ∧ s' = { s with orders := t } := by
  simp only [server] at h
  split at h
  · simp only [Option.some.injEq, Prod.mk.injEq] at h
    exact .inl ⟨h.1.symm, h.2.symm⟩
  · split at h <;> simp only [Option.some.injEq, Prod.mk.injEq] at h
    · rename_i t ht
      exact .inr ⟨t, h.1.symm, ht, h.2.symm⟩
    · exact .inl ⟨h.1.symm, h.2.symm⟩

/-- Only inserts and updates of orders touch the orders table. -/
theorem answer_orders {c : Call} {e : Choice} {s s' : Shared} {a : c.Ans}
    (h : server.answer c e s = some (a, s')) :
    s'.orders = s.orders ∨ (∃ i, c = .insertOrder i) ∨ ∃ u, c = .updateOrders u := by
  cases c with
  | insertOrder i => exact .inr (.inl ⟨i, rfl⟩)
  | updateOrders u => exact .inr (.inr ⟨u, rfl⟩)
  | _ =>
    refine .inl ?_
    simp only [server] at h
    repeat' split at h
    all_goals first
      | obtain ⟨_, rfl⟩ := Prod.mk.inj (Option.some.inj h)
        rfl
      | cases h

/-- **A call is one step of the versioned store of orders**, if its update bumps the version. -/
theorem answer_step {c : Call} {e : Choice} {s s' : Shared} {a : c.Ans}
    (h : server.answer c e s = some (a, s'))
    (hbump : ∀ u, c = .updateOrders u → u.bumpVersion = true) :
    Step Order.version (Hits ⟨c, a⟩) s.orders.find s'.orders.find := by
  by_cases hu : ∃ u, c = .updateOrders u
  · obtain ⟨u, rfl⟩ := hu
    rcases answer_updateOrders h with ⟨rfl, rfl⟩ | ⟨rfl, rfl⟩
    · exact Step.refl fun k ⟨u', hu', _⟩ => by cases hu'
    · refine (OrdersTable.update_step s.orders (hbump u rfl)).congr fun k => ?_
      constructor
      · rintro ⟨rfl, hn⟩
        exact ⟨u, effectiveUpdate_eq_some.mpr ⟨_, hn, rfl⟩, rfl⟩
      · rintro ⟨u', hu', rfl⟩
        obtain ⟨n, hn, heq⟩ := effectiveUpdate_eq_some.mp hu'
        cases heq
        exact ⟨rfl, hn⟩
  · have hno : ∀ k, ¬ Hits ⟨c, a⟩ k := by
      rintro k ⟨u, hu', _⟩
      obtain ⟨n, _, heq⟩ := effectiveUpdate_eq_some.mp hu'
      exact hu ⟨u, congrArg Sigma.fst heq⟩
    rcases answer_orders h with heq | ⟨i, rfl⟩ | hu'
    · rw [heq]
      exact Step.refl hno
    · rcases answer_insertOrder h with ⟨_, rfl⟩ | ⟨t, _, ht, rfl⟩
      · exact Step.refl hno
      · exact (OrdersTable.insert_step ht).congr fun k => ⟨False.elim, hno k⟩
    · exact absurd hu' hu

end TorMarketplace
