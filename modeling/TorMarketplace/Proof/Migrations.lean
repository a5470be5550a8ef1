import TorMarketplace.Db.Migrations

/-!
# Migrations

The actions of `run_sqlite_migrations`, on the schema and on the rows.

* What an action or a list of them makes of the schema is a matter of the schema alone, and so is whether it
  fails, unless it inserts rows (`onSchema`).
* Started again on the schema where it stopped, a migration makes the schema of its version, but for the
  points where a rebuild has nothing to copy from (`resumedSchema_eq`).
* `hazard` names the statements behind which a stop is in the way of the next start.
* All migrations but 10 and 11 insert nothing but their version (`plain_actions`).
-/

namespace TorMarketplace.Migrations

open Sql

/-! ## Actions on the schema -/

/-- The statement that an action issues. -/
def Action.issues (s : Schema) : Action → Option (Statement TableName IndexName)
  | .run st => some st
  | .ensureColumn table column warns =>
    if (s.columns table).any fun present => column.name ∈ names present then none
    else if warns && (s.exec (.addColumn table column)).isNone then none
    else some (.addColumn table column)

def Action.onSchema (s : Schema) (a : Action) : Option Schema :=
  match a.issues s with
  | some st => s.exec st
  | none => some s

def onSchema (s : Schema) (actions : List Action) : Option Schema := actions.foldlM Action.onSchema s

/-- The table that an action inserts into. -/
def Action.inserts : Action → Option TableName
  | .run st => st.inserts
  | .ensureColumn .. => none

/-- The action leaves what the rows of a table have in these columns. -/
def Action.Spares (table : TableName) (columns : List String) : Action → Prop
  | .run st => st.Spares table columns
  | .ensureColumn t column _ => (Statement.addColumn t column : Statement TableName IndexName).Spares table columns

instance (table : TableName) (columns : List String) : (a : Action) → Decidable (a.Spares table columns)
  | .run st => inferInstanceAs (Decidable (st.Spares table columns))
  | .ensureColumn t column _ =>
    inferInstanceAs (Decidable ((Statement.addColumn t column : Statement TableName IndexName).Spares table columns))

variable {db db' : Database} {s s' : Schema} {a : Action} {l l' : List Action} {t : TableName}
  {columns : List String}

theorem columnExists_eq (db : Database) (t : TableName) (column : String) :
    columnExists db t column = (db.schema.columns t).any fun present => column ∈ names present := by
  unfold columnExists
  cases db.schema.columns t <;> rfl

theorem execute_eq (db : Database) (a : Action) :
    a.execute db = match a.issues db.schema with | some st => db.exec st | none => some db := by
  cases a with
  | run st => rfl
  | ensureColumn t column warns =>
    rw [Action.execute, Action.issues, columnExists_eq]
    cases hexec : db.schema.exec (.addColumn t column) with
    | none =>
      simp only [exec_eq_none hexec, Option.isNone_none, Bool.and_true]
      split_ifs with hthere hwarns
      · rfl
      · rfl
      · exact (exec_eq_none hexec).symm
    | some schema =>
      simp only [exec_of_schema rfl hexec, Option.isNone_some, Bool.and_false, Bool.false_eq_true, if_false]
      split_ifs with hthere
      · rfl
      · exact (exec_of_schema rfl hexec).symm

theorem onSchema_of_execute (h : a.execute db = some db') : a.onSchema db.schema = some db'.schema := by
  rw [execute_eq] at h
  rw [Action.onSchema]
  split at h
  · exact schema_of_exec h
  · rw [Option.some.inj h]

theorem execute_eq_none (h : a.onSchema db.schema = none) : a.execute db = none := by
  rw [Action.onSchema] at h
  rw [execute_eq]
  split at h
  · exact exec_eq_none h
  · exact absurd h (by simp)

theorem issues_inserts {st : Statement TableName IndexName} (ha : a.inserts = none) (h : a.issues s = some st) :
    st.inserts = none := by
  cases a with
  | run st' =>
    obtain rfl := Option.some.inj h
    exact ha
  | ensureColumn t column warns =>
    rw [Action.issues] at h
    split_ifs at h
    obtain rfl := Option.some.inj h
    rfl

theorem issues_spares {st : Statement TableName IndexName} (ha : a.Spares t columns)
    (h : a.issues s = some st) : st.Spares t columns := by
  cases a with
  | run st' =>
    obtain rfl := Option.some.inj h
    exact ha
  | ensureColumn t' column warns =>
    rw [Action.issues] at h
    split_ifs at h
    obtain rfl := Option.some.inj h
    exact ha

/-- An action that inserts nothing fails for the schema only. -/
theorem execute_of_onSchema (ha : a.inserts = none) (h : a.onSchema db.schema = some s) :
    ∃ db', a.execute db = some db' := by
  rw [Action.onSchema] at h
  rw [execute_eq]
  split at h
  · rename_i st hst
    exact ⟨_, exec_of_schema (issues_inserts ha hst) h⟩
  · exact ⟨db, rfl⟩

theorem execute_ok (hok : db.Ok) (h : a.execute db = some db') : db'.Ok := by
  rw [execute_eq] at h
  split at h
  · exact exec_ok hok h
  · exact Option.some.inj h ▸ hok

theorem execute_cells (hok : db.Ok) (h : a.execute db = some db') (ha : a.Spares t columns) :
    db'.cells t columns = db.cells t columns := by
  rw [execute_eq] at h
  split at h
  · rename_i st hst
    exact exec_cells hok h (issues_spares ha hst)
  · rw [Option.some.inj h]

/-! ## Lists of actions -/

theorem execute_cons (db : Database) (a : Action) (l : List Action) :
    execute db (a :: l) = (a.execute db).bind fun db' => execute db' l := rfl

theorem onSchema_cons (s : Schema) (a : Action) (l : List Action) :
    onSchema s (a :: l) = (a.onSchema s).bind fun s' => onSchema s' l := rfl

theorem execute_append (db : Database) (l l' : List Action) :
    execute db (l ++ l') = (execute db l).bind fun db' => execute db' l' := List.foldlM_append

theorem onSchema_append (s : Schema) (l l' : List Action) :
    onSchema s (l ++ l') = (onSchema s l).bind fun s' => onSchema s' l' := List.foldlM_append

/-- **What all actions keep, a run keeps.** -/
theorem execute_induction {P : Database → Prop} (hP : P db)
    (hstep : ∀ a ∈ l, ∀ db db', P db → a.execute db = some db' → P db')
    (h : execute db l = some db') : P db' := by
  induction l generalizing db with
  | nil => exact Option.some.inj h ▸ hP
  | cons a l ih =>
    obtain ⟨db₁, ha, hl⟩ := Option.bind_eq_some_iff.mp ((execute_cons db a l).symm.trans h)
    exact ih (hstep a List.mem_cons_self db db₁ hP ha)
      (fun a' ha' => hstep a' (List.mem_cons_of_mem a ha')) hl

theorem actions_ok (hok : db.Ok) (h : execute db l = some db') : db'.Ok :=
  execute_induction hok (fun _ _ _ _ hok ha => execute_ok hok ha) h

theorem actions_cells (hok : db.Ok) (h : execute db l = some db') (hl : ∀ a ∈ l, a.Spares t columns) :
    db'.cells t columns = db.cells t columns :=
  (execute_induction (P := fun d => d.Ok ∧ d.cells t columns = db.cells t columns) ⟨hok, rfl⟩
    (fun a ha _ _ hP hexec => ⟨execute_ok hP.1 hexec, (execute_cells hP.1 hexec (hl a ha)).trans hP.2⟩) h).2

theorem onSchema_of_actions (h : execute db l = some db') : onSchema db.schema l = some db'.schema := by
  induction l generalizing db with
  | nil =>
    obtain rfl := Option.some.inj h
    rfl
  | cons a l ih =>
    obtain ⟨db₁, ha, hl⟩ := Option.bind_eq_some_iff.mp ((execute_cons db a l).symm.trans h)
    rw [onSchema_cons, onSchema_of_execute ha]
    exact ih hl

theorem actions_eq_none (h : onSchema db.schema l = none) : execute db l = none := by
  cases hexec : execute db l with
  | none => rfl
  | some db' => exact absurd (h.symm.trans (onSchema_of_actions hexec)) (by simp)

/-- Actions that insert nothing fail for the schema only. -/
theorem actions_of_onSchema (hl : ∀ a ∈ l, a.inserts = none) (h : onSchema db.schema l = some s) :
    ∃ db', execute db l = some db' := by
  induction l generalizing db with
  | nil => exact ⟨db, rfl⟩
  | cons a l ih =>
    obtain ⟨s₁, ha, hs⟩ := Option.bind_eq_some_iff.mp ((onSchema_cons db.schema a l).symm.trans h)
    obtain ⟨db₁, hdb⟩ := execute_of_onSchema (hl a List.mem_cons_self) ha
    obtain rfl : db₁.schema = s₁ := Option.some.inj ((onSchema_of_execute hdb).symm.trans ha)
    rw [execute_cons, hdb]
    exact ih (fun a' ha' => hl a' (List.mem_cons_of_mem a ha')) hs

/-! ## Versions -/

/-- The versions on record. -/
def versions (db : Database) : List Int := (db.rows .schemaMigrations).filterMap fun r => version? (r "version")

theorem versions_of_cells (h : db'.cells .schemaMigrations ["version"] = db.cells .schemaMigrations ["version"]) :
    versions db' = versions db := by
  have hmap (d : Database) : versions d =
      (d.cells .schemaMigrations ["version"]).filterMap fun vs => vs.head?.bind version? := by
    rw [Database.cells, List.filterMap_map]
    rfl
  rw [hmap, hmap, h]

theorem dbVersion_of_cells (h : db'.cells .schemaMigrations ["version"] = db.cells .schemaMigrations ["version"]) :
    dbVersion db' = dbVersion db := by
  show (versions db').max?.getD 0 = (versions db).max?.getD 0
  rw [versions_of_cells h]

theorem le_dbVersion {n : Int} (h : n ∈ versions db) : n ≤ dbVersion db := by
  show n ≤ (versions db).max?.getD 0
  cases hmax : (versions db).max? with
  | none => exact absurd h (by simp [List.max?_eq_none_iff.mp hmax])
  | some m => exact (List.max?_eq_some_iff.mp hmax).2 n h

/-- A version above all those on record can be recorded. -/
theorem recorded_admitted (clock : Nat → Int64) {m : Migration} {rows : List Row} (h : Admitted tracking rows)
    (hv : ∀ r ∈ rows, r "version" ≠ .integer m.version) :
    Admitted tracking (rows ++ [newRow tracking (recorded clock m)]) := by
  obtain ⟨hversion, happlied, -⟩ := List.forall_mem_cons.mp h |>.imp id List.forall_mem_cons.mp
  intro c hc
  rw [List.map_append]
  simp only [tracking, List.mem_cons, List.not_mem_nil, or_false] at hc
  obtain rfl | rfl | rfl := hc
  · refine ⟨fun _ => ?_, fun hk ht v hin => ?_, fun hn => absurd hn (by decide)⟩
    · rw [List.filter_append]
      refine List.Nodup.append (hversion.unique (Or.inl rfl)) (List.nodup_singleton _) fun v hold hnew => ?_
      obtain rfl := List.mem_singleton.mp hnew
      obtain ⟨r, hr, heq⟩ := List.mem_map.mp (List.mem_filter.mp hold).1
      exact hv r hr heq
    · obtain hold | hnew := List.mem_append.mp hin
      · exact hversion.rowid hk ht v hold
      · exact List.mem_singleton.mp hnew ▸ rfl
  · refine .of_free rfl rfl fun hn v hin => ?_
    obtain hold | hnew := List.mem_append.mp hin
    · exact happlied.notNull hn v hold
    · exact List.mem_singleton.mp hnew ▸ nofun
  · exact .of_free rfl rfl fun hn => absurd hn (by decide)

/-- A version above the others is the highest. -/
theorem dbVersion_append {r : Row} {n : Int} (h : db'.rows .schemaMigrations = db.rows .schemaMigrations ++ [r])
    (hr : version? (r "version") = some n) (hv : dbVersion db < n) : dbVersion db' = n := by
  have happend : versions db' = versions db ++ [n] := by
    rw [versions, h, List.filterMap_append]
    exact congrArg (versions db ++ ·) (List.filterMap_cons_some hr)
  have hmax : (versions db').max? = some n := by
    rw [happend]
    refine List.max?_eq_some_iff.mpr ⟨List.mem_append_right _ (List.mem_singleton_self _), fun v hin => ?_⟩
    obtain hold | hnew := List.mem_append.mp hin
    · exact (le_dbVersion hold).trans hv.le
    · exact (List.mem_singleton.mp hnew).le
  show (versions db').max?.getD 0 = n
  rw [hmax]
  rfl

/-- **A version above the highest on record can be recorded**, and is the highest then. -/
theorem execute_record (clock : Nat → Int64) {m : Migration} (hok : db.Ok)
    (ht : db.schema.columns .schemaMigrations = some tracking) (hv : dbVersion db < m.version) :
    ∃ db', (record clock m).execute db = some db' ∧ db'.schema = db.schema ∧ dbVersion db' = m.version ∧
      ∀ t ≠ .schemaMigrations, db'.rows t = db.rows t := by
  have hnew : ∀ r ∈ db.rows .schemaMigrations, r "version" ≠ .integer m.version := fun r hr heq => by
    have hin : (m.version : Int) ∈ versions db := List.mem_filterMap.mpr ⟨r, hr, by rw [heq]; rfl⟩
    exact absurd (le_dbVersion hin) (not_le.mpr hv)
  have hschema : db.schema.exec (.insert .schemaMigrations (recorded clock m)) = some db.schema := by
    rw [Schema.exec, ht]
    exact if_pos (by simp [recorded, tracking, names, Column.asKey, Column.required, Column.integer, Column.text])
  have hrows : Statement.rowsAfter db (.insert .schemaMigrations (recorded clock m)) .schemaMigrations =
      db.rows .schemaMigrations ++ [newRow tracking (recorded clock m)] := by
    rw [Statement.rowsAfter, Function.update_self, ht]
    rfl
  refine ⟨⟨db.schema, Statement.rowsAfter db (.insert .schemaMigrations (recorded clock m))⟩, ?_, rfl, ?_,
    fun t ht => Function.update_of_ne ht _ _⟩
  · refine (exec_of_inserts rfl hschema).trans (if_pos ?_)
    rw [hrows, ht]
    exact recorded_admitted clock (hok.present _ _ ht).admitted hnew
  · exact dbVersion_append hrows rfl hv

/-! ## The schema at a version -/

/-- What the first `k` migrations make of a database that has `schema_migrations` only. -/
def schemaAt : Nat → Option Schema
  | 0 => createSchemaMigrations.onSchema .empty
  | k + 1 => do
    let s ← schemaAt k
    let m ← migrations[k]?
    onSchema s m.actions

/-- What is there when migration `k + 1` stops after `p` actions. -/
def stoppedSchema (k p : Nat) : Option Schema := do
  let s ← schemaAt k
  let m ← migrations[k]?
  onSchema s (m.actions.take p)

/-- What migration `k + 1` makes of that. -/
def resumedSchema (k p : Nat) : Option Schema := do
  let s ← stoppedSchema k p
  let m ← migrations[k]?
  onSchema s m.actions

def tableNames : List TableName := [
  .schemaMigrations, .users, .listings, .orders, .chatMessages, .auditLogs, .paymentAudits, .disputes,
  .disputeEvidence, .ordersNew, .listingsNew, .notificationTracker]

def indexNames : List IndexName := [
  .idxListingsSeller, .idxListingsStatus, .idxOrdersBuyer, .idxOrdersSeller, .idxOrdersState,
  .idxChatOrder, .idxOrdersEscrow, .idxListingsSearch, .idxAuditTimestamp, .idxAuditEvent,
  .idxPaymentAuditTx, .idxPaymentAuditOrder, .idxListingsExpires, .idxDisputesOrder,
  .idxDisputeEvidenceDispute, .idxOrdersDayBucket, .idxOrdersExpiryBucket, .idxListingsDayBucket,
  .idxOrdersHasDispute, .idxListingsCurrency, .idxListingsStatusCurrency]

theorem schema_ext (htables : ∀ t ∈ tableNames, s.columns t = s'.columns t)
    (hindexes : ∀ i ∈ indexNames, s.index i = s'.index i) : s = s' := by
  have hcolumns : s.columns = s'.columns := funext fun t => htables t (by cases t <;> decide)
  have hindex : s.index = s'.index := funext fun i => hindexes i (by cases i <;> decide)
  cases s
  cases s'
  exact congrArg₂ _ hcolumns hindex

instance : DecidableEq Schema := fun s s' =>
  decidable_of_iff
    ((∀ t ∈ tableNames, s.columns t = s'.columns t) ∧ ∀ i ∈ indexNames, s.index i = s'.index i)
    ⟨fun h => schema_ext h.1 h.2, fun h => h ▸ ⟨fun _ _ => rfl, fun _ _ => rfl⟩⟩

theorem migration_exists {k : Nat} (hk : k < 18) : ∃ m, migrations[k]? = some m :=
  ⟨_, List.getElem?_eq_getElem hk⟩

/-- Where the source of a copy is gone, or is the new table already. -/
def Unreadable (k p : Nat) : Prop := (k = 9 ∧ p = 3) ∨ (k = 10 ∧ 7 ≤ p)

instance (k p : Nat) : Decidable (Unreadable k p) := inferInstanceAs (Decidable (_ ∨ _))

/-- Whether a schema has the table of versions. -/
def Tracked (s : Option Schema) : Prop := s.map (fun s => s.columns .schemaMigrations) = some (some tracking)

instance (s : Option Schema) : Decidable (Tracked s) := inferInstanceAs (Decidable (_ = _))

/-- One evaluation for the three theorems that follow. -/
theorem schemas_checked : ∀ k < 18, ∀ m ∈ migrations[k]?, Tracked (schemaAt (k + 1)) ∧
    ∀ p ≤ m.actions.length, Tracked (stoppedSchema k p) ∧
      resumedSchema k p = if Unreadable k p then none else schemaAt (k + 1) := by
  decide +kernel

/-- **Every migration can be started again on the schema where it stopped**, but for those points. -/
theorem resumedSchema_eq {k p : Nat} {m : Migration} (hk : k < 18) (hm : migrations[k]? = some m)
    (hp : p ≤ m.actions.length) : resumedSchema k p = if Unreadable k p then none else schemaAt (k + 1) :=
  ((schemas_checked k hk m hm).2 p hp).2

theorem stoppedSchema_tracked {k p : Nat} {m : Migration} (hk : k < 18) (hm : migrations[k]? = some m)
    (hp : p ≤ m.actions.length) : Tracked (stoppedSchema k p) :=
  ((schemas_checked k hk m hm).2 p hp).1

theorem schemaAt_tracked {k : Nat} (hk : k ≤ 18) : Tracked (schemaAt k) := by
  cases k with
  | zero => decide +kernel
  | succ k =>
    obtain ⟨m, hm⟩ := migration_exists hk
    exact (schemas_checked k hk m hm).1

theorem Tracked.tracking {o : Option Schema} (h : Tracked o) (ho : o = some s) :
    s.columns .schemaMigrations = some tracking := by
  rw [ho] at h
  exact Option.some.inj h

theorem version_eq : ∀ k < 18, ∀ m ∈ migrations[k]?, m.version = k + 1 := by
  decide +kernel

/-! ## Databases at a version -/

/-- What is kept of an order. -/
def orderColumns : List String := ["id", "encrypted_order_blob", "day_bucket", "expiry_bucket"]

/-- Every order row and every listing id that was there still is. -/
structure KeepsRows (db db' : Database) : Prop where
  orders : (db.cells .orders orderColumns).Sublist (db'.cells .orders orderColumns)
  listings : (db.cells .listings ["id"]).Sublist (db'.cells .listings ["id"])

/-- … and there are no others. -/
structure SameRows (db db' : Database) : Prop where
  orders : db'.cells .orders orderColumns = db.cells .orders orderColumns
  listings : db'.cells .listings ["id"] = db.cells .listings ["id"]

/-- The database is at version `k`, and `schema_migrations` is there. -/
structure At (k : Nat) (db : Database) : Prop where
  ok : db.Ok
  schema : schemaAt k = some db.schema
  version : dbVersion db = k

theorem SameRows.keepsRows (h : SameRows db db') : KeepsRows db db' :=
  ⟨h.orders ▸ .refl _, h.listings ▸ .refl _⟩

theorem SameRows.trans {db₁ db₂ db₃ : Database} (h : SameRows db₁ db₂) (h' : SameRows db₂ db₃) :
    SameRows db₁ db₃ := ⟨h'.orders.trans h.orders, h'.listings.trans h.listings⟩

theorem SameRows.of_rows (horders : db'.rows .orders = db.rows .orders)
    (hlistings : db'.rows .listings = db.rows .listings) : SameRows db db' :=
  ⟨cells_of_rows horders, cells_of_rows hlistings⟩

theorem KeepsRows.trans_same {db₁ db₂ db₃ : Database} (h : KeepsRows db₁ db₂) (h' : SameRows db₂ db₃) :
    KeepsRows db₁ db₃ := ⟨h'.orders ▸ h.orders, h'.listings ▸ h.listings⟩

theorem keepsRows_congr {db₁ db₂ db₃ : Database} (h : SameRows db₁ db₂) :
    KeepsRows db₁ db₃ ↔ KeepsRows db₂ db₃ := by
  constructor
  · exact fun hk => ⟨h.orders ▸ hk.orders, h.listings ▸ hk.listings⟩
  · exact fun hk => ⟨h.orders ▸ hk.orders, h.listings ▸ hk.listings⟩

theorem At.tracked {k : Nat} (hk : k ≤ 18) (h : At k db) :
    db.schema.columns .schemaMigrations = some tracking := (schemaAt_tracked hk).tracking h.schema

/-- Once a migration has run, its record makes the next version. -/
theorem record_at (clock : Nat → Int64) {k : Nat} {m : Migration} (hk : k < 18) (hm : migrations[k]? = some m)
    (hok : db.Ok) (hschema : schemaAt (k + 1) = some db.schema) (hv : dbVersion db = k) :
    ∃ db', (record clock m).execute db = some db' ∧ At (k + 1) db' ∧ SameRows db db' := by
  have hversion : m.version = k + 1 := version_eq k hk m hm
  have htracked := (schemaAt_tracked (Nat.succ_le_of_lt hk)).tracking hschema
  obtain ⟨db', hexec, hsame, hnew, hrows⟩ := execute_record clock hok htracked (by rw [hv, hversion]; omega)
  refine ⟨db', hexec, ⟨execute_ok hok hexec, hsame ▸ hschema, ?_⟩, .of_rows (hrows _ nofun) (hrows _ nofun)⟩
  rw [hnew, hversion]

/-! ## What is in the way -/

/-- What makes the next start fail after a stop. -/
inductive Hazard where
  | never
  /-- Any row of the table with an id that is not null. -/
  | ids (table : TableName)
  | always
  deriving DecidableEq

def Hazard.Strikes (db : Database) : Hazard → Prop
  | .never => False
  | .ids table => ∃ row ∈ db.rows table, row "id" ≠ .null
  | .always => True

/-- After a stop right behind the action. The copies go to the new table once more until the old one is
dropped, and have no source from then on: version 10 until `orders` is there again, version 11 until its
record, since the new `listings` lacks `encrypted_search`. -/
def hazard : Action → Hazard
  | .run (.insertSelect .ordersNew ..) => .ids .orders
  | .run (.dropTable .orders _) => .always
  | .run (.insertSelect .listingsNew ..) => .ids .listings
  | .run (.dropIndex .idxListingsSeller) => .ids .listings
  | .run (.dropIndex .idxListingsStatus) => .ids .listings
  | .run (.dropIndex .idxListingsSearch) => .ids .listings
  | .run (.dropIndex .idxListingsExpires) => .ids .listings
  | .run (.dropTable .listings _) => .always
  | .run (.rename .listingsNew _) => .always
  | .run (.createIndex .idxListingsDayBucket ..) => .always
  | _ => .never

/-- After a stop behind the last of the actions. -/
def hazardAfter (l : List Action) : Hazard := (l.getLast?.map hazard).getD .never

theorem hazardAfter_append {l : List Action} (l' : List Action) (h : hazardAfter l = .never) :
    hazardAfter (l ++ l') = hazardAfter l' := by
  rcases eq_or_ne l' [] with rfl | hne
  · rw [List.append_nil]
    exact h
  · rw [hazardAfter, hazardAfter, List.getLast?_append_of_ne_nil l hne]

theorem ids_of_cells {rest : List String} (h : db'.cells t ("id" :: rest) = db.cells t ("id" :: rest)) :
    (Hazard.ids t).Strikes db' ↔ (Hazard.ids t).Strikes db := by
  have hcells (d : Database) :
      (Hazard.ids t).Strikes d ↔ ∃ vs ∈ d.cells t ("id" :: rest), vs.head? ≠ some .null := by
    simp [Hazard.Strikes, Database.cells]
  rw [hcells, hcells, h]

/-- Ids are among what is kept, so a hazard stays what it is. -/
theorem SameRows.strikes (h : SameRows db db') (l : List Action) :
    (hazardAfter l).Strikes db' ↔ (hazardAfter l).Strikes db := by
  rw [hazardAfter]
  cases l.getLast? with
  | none => exact Iff.rfl
  | some a =>
    show (hazard a).Strikes db' ↔ (hazard a).Strikes db
    unfold hazard
    split <;> first | exact Iff.rfl | exact ids_of_cells h.orders | exact ids_of_cells h.listings

/-! ## Migrations that insert nothing -/

/-- What is kept of the rows of a table. -/
def kept : TableName → List String
  | .orders => orderColumns
  | .schemaMigrations => ["version"]
  | _ => ["id"]

/-- The action inserts nothing and leaves what is kept. -/
def Plain (a : Action) : Prop :=
  a.inserts = none ∧ ∀ t ∈ [TableName.orders, .listings, .schemaMigrations], a.Spares t (kept t)

instance (a : Action) : Decidable (Plain a) := inferInstanceAs (Decidable (_ ∧ _))

theorem actions_plain : ∀ k < 18, k ≠ 9 → k ≠ 10 → ∀ m ∈ migrations[k]?, ∀ a ∈ m.actions, Plain a := by
  decide +kernel

/-- What plain actions make of a database: all that is kept stays. -/
theorem plain_actions (hok : db.Ok) (hl : ∀ a ∈ l, Plain a) (hs : onSchema db.schema l = some s) :
    ∃ db', execute db l = some db' ∧ SameRows db db' ∧ dbVersion db' = dbVersion db := by
  obtain ⟨db', hexec⟩ := actions_of_onSchema (fun a ha => (hl a ha).1) hs
  have hcells (t : TableName) (ht : t ∈ [TableName.orders, .listings, .schemaMigrations]) :
      db'.cells t (kept t) = db.cells t (kept t) := actions_cells hok hexec fun a ha => (hl a ha).2 t ht
  exact ⟨db', hexec, ⟨hcells .orders (by decide), hcells .listings (by decide)⟩,
    dbVersion_of_cells (hcells .schemaMigrations (by decide))⟩

end TorMarketplace.Migrations
