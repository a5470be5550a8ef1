import TorMarketplace.Proof.Migrations

/-!
# Rebuilt tables

Versions 10 and 11 build a table anew: create, copy, drop, rename (`Rebuild`). A rebuild that is not
interrupted keeps the rows. Started again after a stop (`Rebuilds.stop`)

* before the copy, it does what it would have done;
* from the copy to the drop, it fails for the ids that the new table has already, and copies the rows once
  more if there are none;
* after the drop, it has nothing to copy from;
* after the renaming, version 10 rebuilds the new table; version 11 misses `encrypted_search` there.
-/

namespace TorMarketplace.Migrations

open Sql

variable {db db' : Database} {s s' : Schema} {a : Action} {l l' : List Action} {t : TableName}
  {columns : List String}

/-- The action leaves all rows. -/
def Action.RowFree : Action → Prop
  | .run (.createTable ..) => True
  | .run (.createIndex ..) => True
  | .run (.dropIndex _) => True
  | _ => False

theorem Action.RowFree.rows (ha : a.RowFree) (h : a.execute db = some db') : db'.rows = db.rows := by
  cases a with
  | run st =>
    have hexec : db.exec st = some db' := h
    have hrows := rows_of_exec hexec
    cases st <;> first | exact hrows | exact ha.elim
  | ensureColumn => exact ha.elim

theorem rowFree_rows (hl : ∀ a ∈ l, a.RowFree) (h : execute db l = some db') : db'.rows = db.rows :=
  execute_induction (P := fun d => d.rows = db.rows) rfl (fun a ha _ _ hP hexec => ((hl a ha).rows hexec).trans hP) h

theorem Action.RowFree.inserts (ha : a.RowFree) : a.inserts = none := by
  cases a with
  | run st => cases st <;> first | rfl | exact ha.elim
  | ensureColumn => rfl

/-- A table is rebuilt: created anew, its rows copied, the old one dropped and the new one renamed. -/
structure Rebuild where
  old : TableName
  new : TableName
  columns : List Column
  values : List (String × Expr)
  /-- Between the copy and the drop. -/
  middle : List Action
  /-- After the renaming. -/
  last : List Action
  new_ne_old : new ≠ old
  new_spares : new ∉ [TableName.orders, .listings, .schemaMigrations]
  old_spares : old ≠ .schemaMigrations
  rowFree : ∀ a ∈ middle ++ last, a.RowFree
  copied : ∀ name ∈ kept old, values.lookup name = some (.column name)
  id_kept : "id" ∈ kept old
  key_mem : (Column.blob "id").asKey ∈ columns
  key_name : ∀ c ∈ columns, c.primaryKey ∨ c.unique → c.name = "id"
  admits : ∀ rows : List Row, (Column.blob "id").asKey.Admits (rows.map fun row => row "id") →
    Admitted columns (rows.map fun row => newRow columns (values.map fun v => (v.1, v.2.eval row)))

namespace Rebuild

variable (r : Rebuild)

def create : Action := .run (.createTable r.new r.columns)

def copy : Action := .run (.insertSelect r.new r.values r.old)

def rest : List Action := r.middle ++ .run (.dropTable r.old) :: .run (.rename r.new r.old) :: r.last

def actions : List Action := r.create :: r.copy :: r.rest

/-- The row of the new table for a row of the old one. -/
def copyRow (row : Row) : Row := newRow r.columns (r.values.map fun v => (v.1, v.2.eval row))

variable {r}

theorem cells_copied (rows : List Row) :
    ((rows.map r.copyRow).map fun row => (kept r.old).map row) = rows.map fun row => (kept r.old).map row := by
  rw [List.map_map]
  refine List.map_congr_left fun row _ => List.map_congr_left fun name hname => ?_
  exact newRow_eval (r.copied name hname) row

/-- After the copy: the new table takes the place of the old one. -/
theorem rest_rows (h : execute db r.rest = some db') :
    db'.rows r.old = db.rows r.new ∧ ∀ t, t ≠ r.old → t ≠ r.new → db'.rows t = db.rows t := by
  obtain ⟨db₁, hmiddle, h⟩ := Option.bind_eq_some_iff.mp ((execute_append db _ _).symm.trans h)
  obtain ⟨db₂, hdrop, h⟩ := Option.bind_eq_some_iff.mp h
  obtain ⟨db₃, hrename, hlast⟩ := Option.bind_eq_some_iff.mp h
  have hrows₁ : db₁.rows = db.rows := rowFree_rows (fun a ha => r.rowFree a (List.mem_append_left _ ha)) hmiddle
  have hrows₂ : db₂.rows = Function.update db₁.rows r.old [] := rows_of_exec hdrop
  have hrows₃ : db₃.rows = Function.update (Function.update db₂.rows r.new []) r.old (db₂.rows r.new) :=
    rows_of_exec hrename
  have hrows : db'.rows = db₃.rows := rowFree_rows (fun a ha => r.rowFree a (List.mem_append_right _ ha)) hlast
  rw [hrows, hrows₃]
  constructor
  · rw [Function.update_self, hrows₂, Function.update_of_ne r.new_ne_old, hrows₁]
  · intro t hold hnew
    rw [Function.update_of_ne hold, Function.update_of_ne hnew, hrows₂, Function.update_of_ne hold, hrows₁]

theorem rest_inserts : ∀ a ∈ r.rest, a.inserts = none := by
  intro a ha
  obtain ha | ha := List.mem_append.mp ha
  · exact (r.rowFree a (List.mem_append_left _ ha)).inserts
  · obtain rfl | ha := List.mem_cons.mp ha
    · rfl
    · obtain rfl | ha := List.mem_cons.mp ha
      · rfl
      · exact (r.rowFree a (List.mem_append_right _ ha)).inserts

/-- Both tables are there, with a key for their ids. -/
def Ready (r : Rebuild) (s : Schema) : Prop :=
  s.columns r.new = some r.columns ∧ ∃ present, s.columns r.old = some present ∧ (Column.blob "id").asKey ∈ present

theorem copy_rows (hready : Ready r db.schema) :
    Statement.rowsAfter db (.insertSelect r.new r.values r.old) r.new =
      db.rows r.new ++ (db.rows r.old).map r.copyRow := by
  rw [Statement.rowsAfter, Function.update_self, hready.1]
  rfl

/-- A copy leaves the schema. -/
theorem copy_schema (h : r.copy.onSchema s = some s') : s' = s := by
  have hexec : s.exec (.insertSelect r.new r.values r.old) = some s' := h
  rw [Schema.exec] at hexec
  split at hexec
  · split_ifs at hexec
    exact (Option.some.inj hexec).symm
  · exact absurd hexec (by simp)

/-- A copy into a table that admits the rows. -/
theorem execute_copy (hschema : r.copy.onSchema db.schema = some s) (hready : Ready r db.schema)
    (hadmitted : Admitted r.columns (db.rows r.new ++ (db.rows r.old).map r.copyRow)) :
    ∃ db', r.copy.execute db = some db' := by
  have hexec : db.schema.exec (.insertSelect r.new r.values r.old) = some s := hschema
  have hsame : s.columns r.new = some r.columns := copy_schema hschema ▸ hready.1
  refine ⟨_, (exec_of_inserts rfl hexec).trans (if_pos ?_)⟩
  rw [copy_rows hready, hsame]
  exact hadmitted

/-- The copy of a row that is in the new table already. -/
theorem execute_copy_eq_none (hready : Ready r db.schema)
    (hadmitted : ¬ Admitted r.columns (db.rows r.new ++ (db.rows r.old).map r.copyRow)) :
    r.copy.execute db = none := by
  cases hschema : r.copy.onSchema db.schema with
  | none => exact execute_eq_none hschema
  | some s =>
    have hsame : s.columns r.new = some r.columns := copy_schema hschema ▸ hready.1
    have hexec : db.schema.exec (.insertSelect r.new r.values r.old) = some s := hschema
    refine (exec_of_inserts rfl hexec).trans (if_neg ?_)
    rw [copy_rows hready, hsame]
    exact hadmitted

/-- A new table whose ids are null takes the copies. -/
theorem admitted_of_null (hok : db.Ok) (hready : Ready r db.schema)
    (hnull : ∀ row ∈ db.rows r.new, row "id" = .null) :
    Admitted r.columns (db.rows r.new ++ (db.rows r.old).map r.copyRow) := by
  obtain ⟨hnew, present, hold, hkey⟩ := hready
  refine admitted_append (hok.present _ _ hnew).admitted
    (r.admits _ ((hok.present _ _ hold).admitted _ hkey)) fun c hc hk row hrow => ?_
  rw [r.key_name c hc hk]
  exact hnull row hrow

/-- One that has an id of the old table does not. -/
theorem not_admitted {row row' : Row} (hrow : row ∈ db.rows r.old) (hrow' : row' ∈ db.rows r.new)
    (hid : row' "id" = row "id") (hne : row "id" ≠ .null) :
    ¬ Admitted r.columns (db.rows r.new ++ (db.rows r.old).map r.copyRow) := fun h => by
  have hunique := (h _ r.key_mem).unique (Or.inl rfl)
  rw [List.map_append, List.filter_append] at hunique
  have hcopy : r.copyRow row "id" = row "id" := newRow_eval (r.copied _ r.id_kept) row
  refine List.disjoint_of_nodup_append hunique (a := row "id") ?_ ?_
  · exact List.mem_filter.mpr ⟨List.mem_map.mpr ⟨row', hrow', hid⟩, by simpa using hne⟩
  · exact List.mem_filter.mpr ⟨List.mem_map.mpr ⟨_, List.mem_map_of_mem hrow, hcopy⟩, by simpa using hne⟩

/-- What the new table has once it is filled. -/
theorem filled_rows (hready : ∀ s ∈ r.create.onSchema db.schema, Ready r s)
    (h : execute db [r.create, r.copy] = some db') :
    db'.rows r.new = db.rows r.new ++ (db.rows r.old).map r.copyRow ∧ ∀ t ≠ r.new, db'.rows t = db.rows t := by
  obtain ⟨db₁, hcreate, h⟩ := Option.bind_eq_some_iff.mp h
  obtain ⟨db₂, hcopy, h⟩ := Option.bind_eq_some_iff.mp h
  obtain rfl := Option.some.inj h
  have hrows₁ : db₁.rows = db.rows := rows_of_exec hcreate
  have hrows₂ : db₂.rows = Statement.rowsAfter db₁ (.insertSelect r.new r.values r.old) := rows_of_exec hcopy
  rw [hrows₂, copy_rows (hready _ (onSchema_of_execute hcreate)), hrows₁]
  refine ⟨rfl, fun t ht => ?_⟩
  rw [← hrows₁]
  exact Function.update_of_ne ht _ _

/-- **What a rebuild makes of the rows.** -/
theorem actions_rows (hready : ∀ s ∈ r.create.onSchema db.schema, Ready r s)
    (h : execute db r.actions = some db') :
    db'.rows r.old = db.rows r.new ++ (db.rows r.old).map r.copyRow ∧
      ∀ t, t ≠ r.old → t ≠ r.new → db'.rows t = db.rows t := by
  obtain ⟨db₁, hfilled, hrest⟩ :=
    Option.bind_eq_some_iff.mp ((execute_append db [r.create, r.copy] r.rest).symm.trans h)
  obtain ⟨hnew, hother⟩ := filled_rows hready hfilled
  obtain ⟨hold, hsame⟩ := rest_rows hrest
  exact ⟨hold.trans hnew, fun t ht ht' => (hsame t ht ht').trans (hother t ht')⟩

/-- **A rebuild completes** while the new table has no ids. -/
theorem execute_actions (hok : db.Ok) (hs : onSchema db.schema r.actions = some s')
    (hready : ∀ s ∈ r.create.onSchema db.schema, Ready r s)
    (hnull : ∀ row ∈ db.rows r.new, row "id" = .null) : ∃ db', execute db r.actions = some db' := by
  obtain ⟨s₁, hcreate, hs⟩ := Option.bind_eq_some_iff.mp hs
  obtain ⟨s₂, hcopy, hrest⟩ := Option.bind_eq_some_iff.mp hs
  obtain ⟨db₁, hexec₁⟩ := execute_of_onSchema (a := r.create) rfl hcreate
  obtain rfl : db₁.schema = s₁ := Option.some.inj ((onSchema_of_execute hexec₁).symm.trans hcreate)
  have hrows₁ : db₁.rows = db.rows := rows_of_exec hexec₁
  obtain ⟨db₂, hexec₂⟩ := execute_copy hcopy (hready _ hcreate)
    (admitted_of_null (execute_ok hok hexec₁) (hready _ hcreate) (hrows₁ ▸ hnull))
  obtain rfl : db₂.schema = s₂ := Option.some.inj ((onSchema_of_execute hexec₂).symm.trans hcopy)
  obtain ⟨db₃, hexec₃⟩ := actions_of_onSchema rest_inserts hrest
  refine ⟨db₃, ?_⟩
  rw [actions, execute_cons, hexec₁, Option.bind_some, execute_cons, hexec₂]
  exact hexec₃

/-- **A rebuild fails** where the new table has an id of the old one. -/
theorem execute_actions_eq_none {row row' : Row}
    (hready : ∀ s ∈ r.create.onSchema db.schema, Ready r s) (hrow : row ∈ db.rows r.old)
    (hrow' : row' ∈ db.rows r.new) (hid : row' "id" = row "id") (hne : row "id" ≠ .null) :
    execute db r.actions = none := by
  rw [actions, execute_cons]
  cases hexec : r.create.execute db with
  | none => rfl
  | some db₁ =>
    have hrows : db₁.rows = db.rows := rows_of_exec hexec
    have hready₁ := hready _ (onSchema_of_execute hexec)
    have hfull := execute_copy_eq_none hready₁ (not_admitted (hrows ▸ hrow) (hrows ▸ hrow') hid hne)
    rw [Option.bind_some, execute_cons, hfull]
    rfl

/-! ### Where a rebuild stops -/

/-- The same, stopped after `q` actions of the last. -/
def cut (r : Rebuild) (q : Nat) : Rebuild :=
  { r with
    last := r.last.take q
    rowFree := fun a ha => r.rowFree a <| List.mem_append.mpr <|
      (List.mem_append.mp ha).imp_right List.mem_of_mem_take }

theorem take_filled {p : Nat} (hlo : 2 ≤ p) (hhi : p ≤ 2 + r.middle.length) :
    r.actions.take p = [r.create, r.copy] ++ r.middle.take (p - 2) := by
  obtain ⟨q, rfl⟩ := Nat.exists_eq_add_of_le hlo
  rw [Nat.add_comm 2 q, Nat.add_sub_cancel, actions, List.take_succ_cons, List.take_succ_cons, rest,
    List.take_append_of_le_length (by omega)]
  rfl

theorem take_renamed {p : Nat} (hp : 4 + r.middle.length ≤ p) :
    r.actions.take p = (r.cut (p - (4 + r.middle.length))).actions := by
  obtain ⟨q, rfl⟩ := Nat.exists_eq_add_of_le hp
  have hsplit : 4 + r.middle.length + q = r.middle.length + (q + 2) + 1 + 1 := by omega
  rw [hsplit, actions, List.take_succ_cons, List.take_succ_cons, rest, List.take_length_add_append,
    List.take_succ_cons, List.take_succ_cons]
  have hq : r.middle.length + (q + 2) + 1 + 1 - (4 + r.middle.length) = q := by omega
  rw [hq]
  rfl

/-- Before the copy. -/
theorem rows_before {p : Nat} (hp : p < 2) (h : execute db (r.actions.take p) = some db') : db'.rows = db.rows := by
  refine rowFree_rows (fun a ha => ?_) h
  have hin : a ∈ [r.create] := by
    match p, hp with
    | 0, _ => exact absurd ha List.not_mem_nil
    | 1, _ => exact ha
  exact List.mem_singleton.mp hin ▸ trivial

end Rebuild

/-- The rebuild of version 10. -/
def ordersRebuild : Rebuild where
  old := .orders
  new := .ordersNew
  columns := [(Column.blob "id").asKey, .blob "encrypted_order_blob", .integer "day_bucket", .integer "expiry_bucket"]
  values := orderColumns.map fun name => (name, .column name)
  middle := []
  last := [
    .run (.createIndex .idxOrdersDayBucket .orders ["day_bucket"]),
    .run (.createIndex .idxOrdersExpiryBucket .orders ["expiry_bucket"])]
  new_ne_old := by decide
  new_spares := by decide
  old_spares := by decide
  rowFree := by
    intro a ha
    simp only [List.nil_append, List.mem_cons, List.not_mem_nil, or_false] at ha
    obtain rfl | rfl := ha <;> trivial
  copied := by decide
  id_kept := by decide
  key_mem := by decide
  key_name := by decide
  admits rows h := by
    intro c hc
    simp only [List.mem_cons, List.not_mem_nil, or_false] at hc
    obtain rfl | rfl | rfl | rfl := hc
    · rw [List.map_map]
      exact h
    all_goals exact .of_free rfl rfl nofun

/-- The rebuild of version 11. -/
def listingsRebuild : Rebuild where
  old := .listings
  new := .listingsNew
  columns := [
    (Column.blob "id").asKey,
    (Column.blob "encrypted_listing_blob").required.withDefault (.blob []),
    (Column.integer "day_bucket").required.withDefault (.integer 0),
    .blob "search_token"]
  values := [
    ("id", .column "id"),
    ("encrypted_listing_blob", .literal (.blob [])),
    ("day_bucket", .literal (.integer 0)),
    ("search_token", .column "encrypted_search")]
  middle := [
    .run (.dropIndex .idxListingsSeller),
    .run (.dropIndex .idxListingsStatus),
    .run (.dropIndex .idxListingsSearch),
    .run (.dropIndex .idxListingsExpires)]
  last := [.run (.createIndex .idxListingsDayBucket .listings ["day_bucket"])]
  new_ne_old := by decide
  new_spares := by decide
  old_spares := by decide
  rowFree := by
    intro a ha
    simp only [List.cons_append, List.nil_append, List.mem_cons, List.not_mem_nil, or_false] at ha
    obtain rfl | rfl | rfl | rfl | rfl := ha <;> trivial
  copied := by decide
  id_kept := by decide
  key_mem := by decide
  key_name := by decide
  admits rows h := by
    intro c hc
    simp only [List.mem_cons, List.not_mem_nil, or_false] at hc
    obtain rfl | rfl | rfl | rfl := hc
    · rw [List.map_map]
      exact h
    · refine .of_free rfl rfl fun _ v hv => ?_
      obtain ⟨row', hrow', rfl⟩ := List.mem_map.mp hv
      obtain ⟨row, -, rfl⟩ := List.mem_map.mp hrow'
      exact nofun
    · refine .of_free rfl rfl fun _ v hv => ?_
      obtain ⟨row', hrow', rfl⟩ := List.mem_map.mp hv
      obtain ⟨row, -, rfl⟩ := List.mem_map.mp hrow'
      exact nofun
    · exact .of_free rfl rfl nofun

theorem orders_actions : runMigrationV10.actions = ordersRebuild.actions := rfl

theorem listings_actions : runMigrationV11.actions = listingsRebuild.actions := rfl

instance (r : Rebuild) (s : Schema) : Decidable (Rebuild.Ready r s) :=
  decidable_of_iff (s.columns r.new = some r.columns ∧ (s.columns r.old).any fun c => (Column.blob "id").asKey ∈ c) <|
    and_congr_right fun _ => by simp [Option.any_eq_true]

/-- The rebuild is migration `k + 1`, and its table and columns are what the schema has. -/
structure Rebuilds (k : Nat) (r : Rebuild) : Prop where
  migration : ∃ m, migrations[k]? = some m ∧ m.actions = r.actions
  absent : ∀ s ∈ schemaAt k, s.columns r.new = none
  ready : ∀ p ≤ r.actions.length, ¬ Unreadable k p → ∀ s ∈ stoppedSchema k p,
    ∀ s' ∈ r.create.onSchema s, Rebuild.Ready r s'
  renamed : ∀ p ≤ r.actions.length, ¬ Unreadable k p → 3 + r.middle.length ≤ p → 4 + r.middle.length ≤ p ∧
    ∀ s ∈ stoppedSchema k p, s.columns r.new = none
  hazards : ∀ p ≤ r.actions.length, hazardAfter (r.actions.take p) =
    if Unreadable k p then .always else if 2 ≤ p ∧ p ≤ 2 + r.middle.length then .ids r.old else .never

theorem ordersRebuilds : Rebuilds 9 ordersRebuild where
  migration := ⟨runMigrationV10, rfl, rfl⟩
  absent := by decide +kernel
  ready := by decide +kernel
  renamed := by decide +kernel
  hazards := by decide +kernel

theorem listingsRebuilds : Rebuilds 10 listingsRebuild where
  migration := ⟨runMigrationV11, rfl, rfl⟩
  absent := by decide +kernel
  ready := by decide +kernel
  renamed := by decide +kernel
  hazards := by decide +kernel

/-! ## A migration that stops and is started again -/

theorem stoppedSchema_of_execute {k p : Nat} {m : Migration} (hm : migrations[k]? = some m) (hat : At k db)
    (h : execute db (m.actions.take p) = some db') : stoppedSchema k p = some db'.schema := by
  rw [stoppedSchema, hat.schema, hm]
  exact onSchema_of_actions h

theorem onSchema_resumed {k p : Nat} {m : Migration} (hk : k < 18) (hm : migrations[k]? = some m)
    (hp : p ≤ m.actions.length) (h : stoppedSchema k p = some s) :
    onSchema s m.actions = if Unreadable k p then none else schemaAt (k + 1) := by
  rw [← resumedSchema_eq hk hm hp, resumedSchema, h, hm]
  rfl

theorem schemaAt_isSome {k : Nat} (hk : k ≤ 18) : ∃ s, schemaAt k = some s := by
  obtain ⟨s, hs, -⟩ := Option.map_eq_some_iff.mp (schemaAt_tracked hk)
  exact ⟨s, hs⟩

/-- Migration `k + 1` has stopped after `p` actions. -/
structure Stop (k p : Nat) (m : Migration) (db db₁ : Database) : Prop where
  executed : execute db (m.actions.take p) = some db₁
  version : dbVersion db₁ = k
  fails : (hazardAfter (m.actions.take p)).Strikes db → execute db₁ m.actions = none
  resumes : ¬ (hazardAfter (m.actions.take p)).Strikes db →
    ∃ db₂, execute db₁ m.actions = some db₂ ∧ dbVersion db₂ = k ∧ KeepsRows db db₂

theorem hazards_plain : ∀ k < 18, k ≠ 9 → k ≠ 10 → ∀ m ∈ migrations[k]?, ∀ p ≤ m.actions.length,
    hazardAfter (m.actions.take p) = .never := by
  decide +kernel

/-- A migration that inserts nothing does the rest of its work. -/
theorem plain_stop {k p : Nat} {m : Migration} (hk : k < 18) (hm : migrations[k]? = some m) (h9 : k ≠ 9)
    (h10 : k ≠ 10) (hat : At k db) (hp : p ≤ m.actions.length) : ∃ db₁, Stop k p m db db₁ := by
  have hplain := actions_plain k hk h9 h10 m hm
  have hnever := hazards_plain k hk h9 h10 m hm p hp
  have hreadable : ¬ Unreadable k p := fun h => h.elim (fun h => h9 h.1) fun h => h10 h.1
  obtain ⟨s₁, hs₁, -⟩ := Option.map_eq_some_iff.mp (stoppedSchema_tracked hk hm hp)
  have honSchema : onSchema db.schema (m.actions.take p) = some s₁ := by
    rw [stoppedSchema, hat.schema, hm] at hs₁
    exact hs₁
  obtain ⟨db₁, hexec₁, hsame₁, hversion₁⟩ :=
    plain_actions hat.ok (fun a ha => hplain a (List.mem_of_mem_take ha)) honSchema
  have hresumed := onSchema_resumed hk hm hp (stoppedSchema_of_execute hm hat hexec₁)
  obtain ⟨s₂, hs₂⟩ := schemaAt_isSome (Nat.succ_le_of_lt hk)
  rw [if_neg hreadable, hs₂] at hresumed
  obtain ⟨db₂, hexec₂, hsame₂, hversion₂⟩ := plain_actions (actions_ok hat.ok hexec₁) hplain hresumed
  refine ⟨db₁, hexec₁, hversion₁.trans hat.version, fun hs => ?_, fun _ =>
    ⟨db₂, hexec₂, (hversion₂.trans hversion₁).trans hat.version, (hsame₁.trans hsame₂).keepsRows⟩⟩
  rw [hnever] at hs
  exact hs.elim

/-! ### A rebuild -/

section

variable {r : Rebuild} {k p : Nat}

theorem cells_of_empty (h : db.rows t = []) : db.cells t columns = [] := by
  rw [Database.cells, h]
  rfl

/-- The rows of orders and listings, where one of the two tables is the one rebuilt. -/
theorem rows_of_old {R : List (List Value) → List (List Value) → Prop} (hrefl : ∀ rows, R rows rows)
    (hold : R (db.cells r.old (kept r.old)) (db'.cells r.old (kept r.old)))
    (hother : ∀ t, t ≠ r.old → t ≠ r.new → db'.rows t = db.rows t) :
    R (db.cells .orders orderColumns) (db'.cells .orders orderColumns) ∧
      R (db.cells .listings ["id"]) (db'.cells .listings ["id"]) := by
  have hnew := r.new_spares
  simp only [List.mem_cons, List.not_mem_nil, or_false, not_or] at hnew
  constructor
  · by_cases heq : r.old = .orders
    · rw [heq] at hold
      exact hold
    · rw [cells_of_rows (hother .orders (Ne.symm heq) (Ne.symm hnew.1))]
      exact hrefl _
  · by_cases heq : r.old = .listings
    · rw [heq] at hold
      exact hold
    · rw [cells_of_rows (hother .listings (Ne.symm heq) (Ne.symm hnew.2.1))]
      exact hrefl _

theorem spares_versions : ∀ a ∈ r.actions, a.Spares .schemaMigrations ["version"] := by
  have hnew := r.new_spares
  simp only [List.mem_cons, List.not_mem_nil, or_false, not_or] at hnew
  have hfree : ∀ a ∈ r.middle ++ r.last, a.Spares .schemaMigrations ["version"] := fun a ha => by
    have hrowFree := r.rowFree a ha
    cases a with
    | run st => cases st <;> first | exact trivial | exact hrowFree.elim
    | ensureColumn => exact hrowFree.elim
  intro a ha
  obtain rfl | rfl | ha := (List.mem_cons.mp ha).imp_right List.mem_cons.mp
  · exact trivial
  · exact hnew.2.2
  · obtain ha | ha := List.mem_append.mp ha
    · exact hfree a (List.mem_append_left _ ha)
    · obtain rfl | rfl | ha := (List.mem_cons.mp ha).imp_right List.mem_cons.mp
      · exact r.old_spares
      · exact ⟨hnew.2.2, r.old_spares⟩
      · exact hfree a (List.mem_append_right _ ha)

theorem version_stays (hat : At k db) (h : execute db (r.actions.take p) = some db') : dbVersion db' = k :=
  (dbVersion_of_cells (actions_cells hat.ok h fun a ha => spares_versions a (List.mem_of_mem_take ha))).trans
    hat.version

/-- A rebuild that finds no ids in the new table: its rows go before the copies. -/
theorem Rebuilds.resume (h : Rebuilds k r) (hk : k < 18) (hp : p ≤ r.actions.length) (hok : db.Ok)
    (hs : stoppedSchema k p = some db.schema) (hread : ¬ Unreadable k p)
    (hnull : ∀ row ∈ db.rows r.new, row "id" = .null) :
    ∃ db', execute db r.actions = some db' ∧
      db'.cells r.old (kept r.old) = db.cells r.new (kept r.old) ++ db.cells r.old (kept r.old) ∧
      ∀ t, t ≠ r.old → t ≠ r.new → db'.rows t = db.rows t := by
  obtain ⟨m, hm, hactions⟩ := h.migration
  obtain ⟨s', hs'⟩ := schemaAt_isSome (Nat.succ_le_of_lt hk)
  have hresumed := onSchema_resumed hk hm (hactions ▸ hp) hs
  rw [if_neg hread, hs', hactions] at hresumed
  obtain ⟨db', hexec⟩ := Rebuild.execute_actions hok hresumed (h.ready p hp hread _ hs) hnull
  obtain ⟨hold, hother⟩ := Rebuild.actions_rows (h.ready p hp hread _ hs) hexec
  refine ⟨db', hexec, ?_, hother⟩
  rw [Database.cells, hold, List.map_append, Rebuild.cells_copied]
  rfl

theorem Rebuilds.new_empty (h : Rebuilds k r) (hat : At k db) : db.rows r.new = [] :=
  hat.ok.absent _ (h.absent _ hat.schema)

/-- **A rebuild that is not interrupted keeps the rows.** -/
theorem Rebuilds.complete (h : Rebuilds k r) (hk : k < 18) (hat : At k db) :
    ∃ db', execute db r.actions = some db' ∧ SameRows db db' := by
  obtain ⟨m, hm, -⟩ := h.migration
  have hs : stoppedSchema k 0 = some db.schema := stoppedSchema_of_execute hm hat rfl
  have hnew := h.new_empty hat
  obtain ⟨db', hexec, hold, hother⟩ := h.resume hk (Nat.zero_le _) hat.ok hs (by unfold Unreadable; omega)
    (fun row hrow => absurd (hnew ▸ hrow) List.not_mem_nil)
  rw [cells_of_empty hnew] at hold
  obtain ⟨horders, hlistings⟩ := rows_of_old (R := fun rows rows' => rows' = rows) (fun _ => rfl) hold hother
  exact ⟨db', hexec, horders, hlistings⟩

theorem Rebuilds.migrate {m : Migration} (h : Rebuilds k r) (hm : migrations[k]? = some m) (hk : k < 18)
    (hat : At k db) : ∃ db', execute db m.actions = some db' ∧ SameRows db db' ∧ dbVersion db' = k := by
  obtain ⟨m', hm', hactions⟩ := h.migration
  obtain rfl := Option.some.inj (hm'.symm.trans hm)
  rw [hactions]
  obtain ⟨db', hexec, hsame⟩ := h.complete hk hat
  exact ⟨db', hexec, hsame, (dbVersion_of_cells (actions_cells hat.ok hexec spares_versions)).trans hat.version⟩

theorem KeepsRows.of_old (hold : (db.cells r.old (kept r.old)).Sublist (db'.cells r.old (kept r.old)))
    (hother : ∀ t, t ≠ r.old → t ≠ r.new → db'.rows t = db.rows t) : KeepsRows db db' :=
  ⟨(rows_of_old .refl hold hother).1, (rows_of_old .refl hold hother).2⟩

/-- Before the copy there is nothing in the new table. -/
theorem Rebuilds.stop_before {db₁ : Database} (h : Rebuilds k r) (hk : k < 18) (hp : p ≤ r.actions.length)
    (hat : At k db) (hexec : execute db (r.actions.take p) = some db₁) (hs : stoppedSchema k p = some db₁.schema)
    (hread : ¬ Unreadable k p) (hlo : p < 2) : ∃ db₂, execute db₁ r.actions = some db₂ ∧ KeepsRows db db₂ := by
  have hrows := Rebuild.rows_before hlo hexec
  have hnew : db₁.rows r.new = [] := hrows ▸ h.new_empty hat
  obtain ⟨db₂, hexec₂, hold, hother⟩ := h.resume hk hp (actions_ok hat.ok hexec) hs hread
    (fun row hrow => absurd (hnew ▸ hrow) List.not_mem_nil)
  refine ⟨db₂, hexec₂, .of_old ?_ fun t ht ht' => (hother t ht ht').trans (congrFun hrows t)⟩
  rw [hold, ← cells_of_rows (congrFun hrows r.old)]
  exact List.sublist_append_right _ _

/-- From the copy to the drop: the new table has the rows already. -/
theorem Rebuilds.rows_filled {db₁ : Database} (h : Rebuilds k r) (hat : At k db) (hlo : 2 ≤ p)
    (hhi : p ≤ 2 + r.middle.length) (hexec : execute db (r.actions.take p) = some db₁) :
    db₁.rows r.new = (db.rows r.old).map r.copyRow ∧ ∀ t ≠ r.new, db₁.rows t = db.rows t := by
  obtain ⟨m, hm, -⟩ := h.migration
  have hs : stoppedSchema k 0 = some db.schema := stoppedSchema_of_execute hm hat rfl
  rw [Rebuild.take_filled hlo hhi, execute_append] at hexec
  obtain ⟨db', hfilled, hmiddle⟩ := Option.bind_eq_some_iff.mp hexec
  have hrows : db₁.rows = db'.rows := rowFree_rows
    (fun a ha => r.rowFree a (List.mem_append_left _ (List.mem_of_mem_take ha))) hmiddle
  obtain ⟨hnew, hother⟩ := Rebuild.filled_rows
    (h.ready 0 (Nat.zero_le _) (by unfold Unreadable; omega) _ hs) hfilled
  rw [h.new_empty hat] at hnew
  exact ⟨(congrFun hrows _).trans hnew, fun t ht => (congrFun hrows t).trans (hother t ht)⟩

/-- … which is no matter where they have no ids. -/
theorem Rebuilds.stop_filled {db₁ : Database} (h : Rebuilds k r) (hk : k < 18) (hp : p ≤ r.actions.length)
    (hat : At k db) (hexec : execute db (r.actions.take p) = some db₁) (hs : stoppedSchema k p = some db₁.schema)
    (hread : ¬ Unreadable k p) (hlo : 2 ≤ p) (hhi : p ≤ 2 + r.middle.length)
    (hnull : ¬ (Hazard.ids r.old).Strikes db) : ∃ db₂, execute db₁ r.actions = some db₂ ∧ KeepsRows db db₂ := by
  obtain ⟨hnew, hsame⟩ := h.rows_filled hat hlo hhi hexec
  have hids : ∀ row ∈ db₁.rows r.new, row "id" = .null := fun row hrow => by
    rw [hnew] at hrow
    obtain ⟨row', hrow', rfl⟩ := List.mem_map.mp hrow
    have hcopy : r.copyRow row' "id" = row' "id" := newRow_eval (r.copied _ r.id_kept) row'
    rw [hcopy]
    exact by_contra fun hne => hnull ⟨row', hrow', hne⟩
  obtain ⟨db₂, hexec₂, hold, hother⟩ := h.resume hk hp (actions_ok hat.ok hexec) hs hread hids
  refine ⟨db₂, hexec₂, .of_old ?_ fun t ht ht' => (hother t ht ht').trans (hsame t ht')⟩
  rw [hold, ← cells_of_rows (hsame r.old (Ne.symm r.new_ne_old))]
  exact List.sublist_append_right _ _

theorem Rebuilds.stop_filled_eq_none {db₁ : Database} (h : Rebuilds k r) (hp : p ≤ r.actions.length)
    (hat : At k db) (hexec : execute db (r.actions.take p) = some db₁) (hs : stoppedSchema k p = some db₁.schema)
    (hread : ¬ Unreadable k p) (hlo : 2 ≤ p) (hhi : p ≤ 2 + r.middle.length)
    (hids : (Hazard.ids r.old).Strikes db) : execute db₁ r.actions = none := by
  obtain ⟨hnew, hsame⟩ := h.rows_filled hat hlo hhi hexec
  obtain ⟨row, hrow, hne⟩ := hids
  have hcopy : r.copyRow row "id" = row "id" := newRow_eval (r.copied _ r.id_kept) row
  have hthere : r.copyRow row ∈ db₁.rows r.new := hnew ▸ List.mem_map_of_mem hrow
  have hstill : row ∈ db₁.rows r.old := hsame r.old (Ne.symm r.new_ne_old) ▸ hrow
  exact Rebuild.execute_actions_eq_none (h.ready p hp hread _ hs) hstill hthere hcopy hne

/-- After the renaming: the table is the new one, and is rebuilt once more. -/
theorem Rebuilds.stop_renamed {db₁ : Database} (h : Rebuilds k r) (hk : k < 18) (hp : p ≤ r.actions.length)
    (hat : At k db) (hexec : execute db (r.actions.take p) = some db₁) (hs : stoppedSchema k p = some db₁.schema)
    (hread : ¬ Unreadable k p) (hlo : 3 + r.middle.length ≤ p) :
    ∃ db₂, execute db₁ r.actions = some db₂ ∧ KeepsRows db db₂ := by
  obtain ⟨m, hm, -⟩ := h.migration
  have hs₀ : stoppedSchema k 0 = some db.schema := stoppedSchema_of_execute hm hat rfl
  obtain ⟨hrenamed, habsent⟩ := h.renamed p hp hread hlo
  have hok := actions_ok hat.ok hexec
  have hnew : db₁.rows r.new = [] := hok.absent _ (habsent _ hs)
  rw [Rebuild.take_renamed hrenamed] at hexec
  obtain ⟨hold₁, hother₁⟩ := Rebuild.actions_rows (r := r.cut _)
    (h.ready 0 (Nat.zero_le _) (by unfold Unreadable; omega) _ hs₀) hexec
  obtain ⟨db₂, hexec₂, hold₂, hother₂⟩ := h.resume hk hp hok hs hread
    (fun row hrow => absurd (hnew ▸ hrow) List.not_mem_nil)
  refine ⟨db₂, hexec₂, .of_old ?_ fun t ht ht' => (hother₂ t ht ht').trans (hother₁ t ht ht')⟩
  have hcells : db₁.cells r.old (kept r.old) = db.cells r.old (kept r.old) := by
    have hold : db₁.rows r.old = db.rows r.new ++ (db.rows r.old).map r.copyRow := hold₁
    rw [Database.cells, hold, h.new_empty hat, List.nil_append, Rebuild.cells_copied]
    rfl
  rw [hold₂, hcells]
  exact List.sublist_append_right _ _

/-- **Where a rebuild can be started again.** -/
theorem Rebuilds.stop {m : Migration} (h : Rebuilds k r) (hm : migrations[k]? = some m) (hk : k < 18)
    (hat : At k db) (hp : p ≤ m.actions.length) : ∃ db₁, Stop k p m db db₁ := by
  obtain ⟨m', hm', hactions⟩ := h.migration
  obtain rfl := Option.some.inj (hm'.symm.trans hm)
  rw [hactions] at hp
  obtain ⟨db', hwhole, -⟩ := h.complete hk hat
  rw [← List.take_append_drop p r.actions, execute_append] at hwhole
  obtain ⟨db₁, hexec, -⟩ := Option.bind_eq_some_iff.mp hwhole
  have hs := stoppedSchema_of_execute hm hat (hactions ▸ hexec)
  have hversion := version_stays hat hexec
  have hok := actions_ok hat.ok hexec
  have hhazards := h.hazards p hp
  refine ⟨db₁, hactions ▸ hexec, hversion, fun hstrikes => ?_, fun hno => ?_⟩
  · rw [hactions] at hstrikes ⊢
    by_cases hread : Unreadable k p
    · have hnone := onSchema_resumed hk hm (hactions ▸ hp) hs
      rw [if_pos hread, hactions] at hnone
      exact actions_eq_none hnone
    · rw [hhazards, if_neg hread] at hstrikes
      split_ifs at hstrikes with hrange
      · exact h.stop_filled_eq_none hp hat hexec hs hread hrange.1 hrange.2 hstrikes
      · exact hstrikes.elim
  · rw [hactions] at hno ⊢
    have hread : ¬ Unreadable k p := fun hread => by
      rw [hhazards, if_pos hread] at hno
      exact hno trivial
    have hresumed : ∃ db₂, execute db₁ r.actions = some db₂ ∧ KeepsRows db db₂ := by
      by_cases hlo : p < 2
      · exact h.stop_before hk hp hat hexec hs hread hlo
      · by_cases hhi : p ≤ 2 + r.middle.length
        · rw [hhazards, if_neg hread, if_pos ⟨not_lt.mp hlo, hhi⟩] at hno
          exact h.stop_filled hk hp hat hexec hs hread (not_lt.mp hlo) hhi hno
        · exact h.stop_renamed hk hp hat hexec hs hread (by omega)
    obtain ⟨db₂, hexec₂, hkeeps⟩ := hresumed
    exact ⟨db₂, hexec₂, (dbVersion_of_cells (actions_cells hok hexec₂ spares_versions)).trans hversion, hkeeps⟩

end

end TorMarketplace.Migrations
