import Mathlib.Data.List.Nodup
import TorMarketplace.Lib.Encoding
import TorMarketplace.Lib.Versioned

/-!
# The orders table

Rows as `models::Order` reads them, and the three kinds of statement the program runs on the table.
An `UPDATE orders SET … WHERE id = ? [AND version = ?]` is data, so that a writer that forgets the
version guard or the version bump is a value like any other; `OrdersTable.update_step` needs the
bump, and only the programs' own statements supply it.

The primary key is the row id, so a table has no two rows of one id. SQLite's integers are modelled
by `Int`: reading a version that does not fit an `i64` is an error of the reader.
-/

namespace TorMarketplace

open Encoding

structure Order where
  id : Bytes
  encryptedOrderBlob : Bytes
  dayBucket : Int64
  expiryBucket : Option Int64
  version : Int
  hasDispute : Int64
  clientEncryptedBlob : Option Bytes
  disputeClientBlob : Option Bytes
  chatEncryptedBlob : Option Bytes
  deriving DecidableEq

/-- `INSERT INTO orders (id, encrypted_order_blob, day_bucket, expiry_bucket)`. -/
structure InsertOrders where
  id : Bytes
  encryptedOrderBlob : Bytes
  dayBucket : Int64
  expiryBucket : Option Int64
  deriving DecidableEq

/-- The row inserted: the other columns have their defaults. -/
def InsertOrders.row (i : InsertOrders) : Order where
  id := i.id
  encryptedOrderBlob := i.encryptedOrderBlob
  dayBucket := i.dayBucket
  expiryBucket := i.expiryBucket
  version := 1
  hasDispute := 0
  clientEncryptedBlob := none
  disputeClientBlob := none
  chatEncryptedBlob := none

/-- `UPDATE orders SET … WHERE id = ? AND …`: a column that is not set is `none`. -/
structure UpdateOrders where
  encryptedOrderBlob : Option Bytes := none
  expiryBucket : Option (Option Int64) := none
  disputeClientBlob : Option Bytes := none
  hasDispute : Option Int64 := none
  chatEncryptedBlob : Option Bytes := none
  /-- `version = version + 1`. -/
  bumpVersion : Bool
  whereId : Bytes
  /-- `AND version = ?`. -/
  whereVersion : Option Int
  deriving DecidableEq

namespace UpdateOrders

def matchesRow (u : UpdateOrders) (o : Order) : Bool :=
  o.id = u.whereId && (match u.whereVersion with
    | some v => o.version = v
    | none => true)

def set (u : UpdateOrders) (o : Order) : Order :=
  { o with
    encryptedOrderBlob := u.encryptedOrderBlob.getD o.encryptedOrderBlob
    expiryBucket := u.expiryBucket.getD o.expiryBucket
    disputeClientBlob := u.disputeClientBlob.or o.disputeClientBlob
    hasDispute := u.hasDispute.getD o.hasDispute
    chatEncryptedBlob := u.chatEncryptedBlob.or o.chatEncryptedBlob
    version := if u.bumpVersion then o.version + 1 else o.version }

@[simp] theorem set_id (u : UpdateOrders) (o : Order) : (u.set o).id = o.id := rfl

theorem set_version {u : UpdateOrders} (h : u.bumpVersion = true) (o : Order) :
    (u.set o).version = o.version + 1 := by
  simp [set, h]

/-- The statement of `o`'s reader: it replaces exactly the version it read, and counts it up. -/
def GuardedBy (u : UpdateOrders) (o : Order) : Prop :=
  u.bumpVersion = true ∧ u.whereId = o.id ∧ u.whereVersion = some o.version

theorem GuardedBy.matches_iff {u : UpdateOrders} {o : Order} (h : u.GuardedBy o) (o' : Order) :
    u.matchesRow o' ↔ o'.id = o.id ∧ o'.version = o.version := by
  simp [matchesRow, h.2.1, h.2.2]

end UpdateOrders

/-- The table, in the order in which `SELECT * FROM orders` returns its rows. -/
structure OrdersTable where
  rows : List Order
  nodup : (rows.map Order.id).Nodup

namespace OrdersTable

def empty : OrdersTable := ⟨[], List.nodup_nil⟩

/-- `SELECT … FROM orders WHERE id = ?`. -/
def find (t : OrdersTable) (id : Bytes) : Option Order := t.rows.find? fun o => o.id = id

/-- The table after an insert, if the id is free. -/
def insert (t : OrdersTable) (i : InsertOrders) : Option OrdersTable :=
  if h : i.id ∈ t.rows.map Order.id then none
  else some
    { rows := t.rows ++ [i.row]
      nodup := by
        rw [List.map_append]
        refine List.nodup_append.mpr ⟨t.nodup, List.nodup_singleton _, fun a ha b hb hab => ?_⟩
        obtain rfl := List.mem_singleton.mp hb
        exact h ((show a = i.id from hab) ▸ ha) }

/-- The table after an update. -/
def update (t : OrdersTable) (u : UpdateOrders) : OrdersTable where
  rows := t.rows.map fun o => if u.matchesRow o then u.set o else o
  nodup := by
    have hid : (Order.id ∘ fun o => if u.matchesRow o then u.set o else o) = Order.id := by
      funext o
      simp only [Function.comp]
      split <;> rfl
    rw [List.map_map, hid]
    exact t.nodup

/-- `rows_affected()`. -/
def rowsAffected (t : OrdersTable) (u : UpdateOrders) : Nat := t.rows.countP u.matchesRow

theorem find_some {t : OrdersTable} {id : Bytes} {o : Order} (h : t.find id = some o) :
    o ∈ t.rows ∧ o.id = id := by
  have hid := List.find?_some h
  exact ⟨List.mem_of_find?_eq_some h, of_decide_eq_true hid⟩

/-- Whatever row is in the table is found under its id. -/
theorem find_of_mem {t : OrdersTable} {o : Order} (h : o ∈ t.rows) : t.find o.id = some o := by
  obtain ⟨rows, hnd⟩ := t
  unfold find
  induction rows with
  | nil => exact absurd h List.not_mem_nil
  | cons o' rows ih =>
    rw [List.map_cons, List.nodup_cons] at hnd
    rcases List.mem_cons.mp h with rfl | h
    · simp
    · have hne : o'.id ≠ o.id := fun heq => hnd.1 (heq ▸ List.mem_map_of_mem h)
      simpa [List.find?_cons, hne] using ih hnd.2 h

theorem find_update (t : OrdersTable) (u : UpdateOrders) (id : Bytes) :
    (t.update u).find id = (t.find id).map fun o => if u.matchesRow o then u.set o else o := by
  obtain ⟨rows, hnd⟩ := t
  simp only [find, update]
  induction rows with
  | nil => rfl
  | cons o rows ih =>
    rw [List.map_cons, List.nodup_cons] at hnd
    have hid : (if u.matchesRow o then u.set o else o).id = o.id := by split <;> rfl
    by_cases h : o.id = id
    · simp [hid, h]
    · simpa [List.find?_cons, hid, h] using ih hnd.2

/-- An update is effective exactly when the row of its id matches it. -/
theorem rowsAffected_ne_zero {t : OrdersTable} {u : UpdateOrders} :
    t.rowsAffected u ≠ 0 ↔ ∃ o, t.find u.whereId = some o ∧ u.matchesRow o := by
  unfold rowsAffected
  rw [Nat.ne_zero_iff_zero_lt, List.countP_pos_iff]
  constructor
  · rintro ⟨o, ho, hm⟩
    have hid : o.id = u.whereId := by
      simp only [UpdateOrders.matchesRow, Bool.and_eq_true, decide_eq_true_eq] at hm
      exact hm.1
    exact ⟨o, hid ▸ find_of_mem ho, hm⟩
  · rintro ⟨o, ho, hm⟩
    exact ⟨o, (find_some ho).1, hm⟩

theorem find_insert {t t' : OrdersTable} {i : InsertOrders} (h : t.insert i = some t') (id : Bytes) :
    t.find i.id = none ∧ t'.find id = if id = i.id then some i.row else t.find id := by
  unfold insert at h
  split at h
  · exact absurd h (by simp)
  · rename_i hfree
    obtain rfl := Option.some.inj h
    have hnone : t.find i.id = none := List.find?_eq_none.mpr fun o ho hid =>
      hfree (of_decide_eq_true hid ▸ List.mem_map_of_mem ho)
    refine ⟨hnone, ?_⟩
    simp only [find] at hnone ⊢
    rw [List.find?_append]
    split
    · rename_i heq
      subst heq
      rw [hnone]
      simp [InsertOrders.row]
    · rename_i hne
      have : ¬ i.id = id := fun h => hne h.symm
      simp [InsertOrders.row, this]

/-! ## The table as a versioned store -/

/-- The keys whose rows an update replaces. -/
def Hit (t : OrdersTable) (u : UpdateOrders) (k : Bytes) : Prop :=
  k = u.whereId ∧ t.rowsAffected u ≠ 0

theorem insert_step {t t' : OrdersTable} {i : InsertOrders} (h : t.insert i = some t') :
    Versioned.Step Order.version (fun _ => False) t.find t'.find := by
  intro k
  obtain ⟨hnone, hfind⟩ := find_insert h k
  refine .inr ⟨id, ?_⟩
  rw [hfind]
  split
  · rename_i heq
    exact .inr ⟨heq ▸ hnone, i.row, rfl, rfl⟩
  · exact .inl rfl

/-- **An update that bumps the version is one step of a versioned store.** -/
theorem update_step (t : OrdersTable) {u : UpdateOrders} (h : u.bumpVersion = true) :
    Versioned.Step Order.version (t.Hit u) t.find (t.update u).find := by
  intro k
  rw [find_update]
  by_cases hhit : t.Hit u k
  · obtain ⟨rfl, hne⟩ := hhit
    obtain ⟨o, ho, hm⟩ := rowsAffected_ne_zero.mp hne
    exact .inl ⟨⟨rfl, hne⟩, o, u.set o, ho, by rw [ho]; simp [hm], u.set_version h o⟩
  · refine .inr ⟨hhit, .inl ?_⟩
    cases ho : t.find k with
    | none => rfl
    | some o =>
      have hno : ¬ u.matchesRow o := by
        intro hm
        have hid : k = u.whereId := by
          rw [← (find_some ho).2]
          simp only [UpdateOrders.matchesRow, Bool.and_eq_true, decide_eq_true_eq] at hm
          exact hm.1
        exact hhit ⟨hid, rowsAffected_ne_zero.mpr ⟨o, hid ▸ ho, hm⟩⟩
      simp [hno]

end OrdersTable

end TorMarketplace
