import Mathlib.Data.List.Nodup
import Mathlib.Logic.Function.Basic

/-!
# A database under its DDL

The statements of SQLite that build and rebuild tables. Each is atomic: it takes effect as a whole, or
fails and changes nothing. A `Schema` is the tables and indexes that are there, a `Database` has the rows
too. Tables and indexes are named by the types `τ` and `ι`; columns by strings.

* Whether a statement fails is a matter of the schema alone (`Schema.exec`), unless it inserts rows
  (`exec_of_schema`, `exec_of_inserts`).
* `Database.Ok` is what SQLite guarantees of a stored database; every statement keeps it (`exec_ok`).
* `exec_cells`: a statement that spares some columns of a table leaves what its rows have there.

Not in the model: types of columns (a value is stored as it is given), `REAL` values, triggers, views and
foreign keys.
-/

namespace Sql

inductive Value where
  | null
  | integer (n : Int)
  | text (s : String)
  | blob (b : List UInt8)
  deriving DecidableEq

/-- A column as it is declared. -/
structure Column where
  name : String
  type : String
  primaryKey : Bool := false
  unique : Bool := false
  notNull : Bool := false
  defaultValue : Value := .null
  deriving DecidableEq

namespace Column

def blob (name : String) : Column := { name, type := "BLOB" }
def integer (name : String) : Column := { name, type := "INTEGER" }
def text (name : String) : Column := { name, type := "TEXT" }

/-- `PRIMARY KEY`. -/
def asKey (c : Column) : Column := { c with primaryKey := true }

/-- `UNIQUE`. -/
def asUnique (c : Column) : Column := { c with unique := true }

/-- `NOT NULL`. -/
def required (c : Column) : Column := { c with notNull := true }

/-- `DEFAULT`. -/
def withDefault (c : Column) (v : Value) : Column := { c with defaultValue := v }

end Column

/-- What `INSERT … SELECT` takes for a column of the new row. -/
inductive Expr where
  | column (name : String)
  | literal (v : Value)
  deriving DecidableEq

inductive Statement (τ ι : Type) where
  /-- `CREATE TABLE IF NOT EXISTS`. -/
  | createTable (table : τ) (columns : List Column)
  /-- `CREATE INDEX IF NOT EXISTS`. -/
  | createIndex (index : ι) (table : τ) (columns : List String)
  /-- `DROP TABLE`, or `DROP TABLE IF EXISTS`. -/
  | dropTable (table : τ) (ifExists : Bool := false)
  /-- `DROP INDEX IF EXISTS`. -/
  | dropIndex (index : ι)
  /-- `ALTER TABLE … ADD COLUMN`. -/
  | addColumn (table : τ) (column : Column)
  /-- `ALTER TABLE … RENAME TO`. -/
  | rename (table newName : τ)
  | insertSelect (table : τ) (values : List (String × Expr)) (source : τ)
  | insert (table : τ) (values : List (String × Value))

variable {τ ι : Type}

structure Schema (τ ι : Type) where
  columns : τ → Option (List Column)
  index : ι → Option (τ × List String)

/-- A row, `NULL` in what is no column. -/
abbrev Row := String → Value

structure Database (τ ι : Type) where
  schema : Schema τ ι
  /-- Of a table that is not there, none. -/
  rows : τ → List Row

def Schema.empty : Schema τ ι := ⟨fun _ => none, fun _ => none⟩

def names (columns : List Column) : List String := columns.map Column.name

def Expr.fits (columns : List Column) : Expr → Bool
  | .column name => name ∈ names columns
  | .literal _ => true

def Expr.eval (r : Row) : Expr → Value
  | .column name => r name
  | .literal v => v

/-- The table that a statement inserts into. -/
def Statement.inserts : Statement τ ι → Option τ
  | .insertSelect table .. => some table
  | .insert table _ => some table
  | _ => none

/-! ## Rows and their constraints -/

def Value.isInteger : Value → Bool
  | .integer _ => true
  | _ => false

/-- The values of a column satisfy its constraints. Nulls do not equal each other, and a primary key may be
null unless it is the rowid. -/
structure Column.Admits (c : Column) (values : List Value) : Prop where
  unique : c.primaryKey ∨ c.unique → (values.filter (· ≠ .null)).Nodup
  rowid : c.primaryKey → c.type = "INTEGER" → ∀ v ∈ values, v.isInteger
  notNull : c.notNull → ∀ v ∈ values, v ≠ .null

instance (c : Column) (values : List Value) : Decidable (c.Admits values) :=
  decidable_of_iff
    ((c.primaryKey ∨ c.unique → (values.filter (· ≠ .null)).Nodup) ∧
      (c.primaryKey → c.type = "INTEGER" → ∀ v ∈ values, v.isInteger) ∧
      (c.notNull → ∀ v ∈ values, v ≠ .null))
    ⟨fun h => ⟨h.1, h.2.1, h.2.2⟩, fun h => ⟨h.unique, h.rowid, h.notNull⟩⟩

/-- The rows satisfy the constraints of all columns. -/
def Admitted (columns : List Column) (rows : List Row) : Prop :=
  ∀ c ∈ columns, c.Admits (rows.map fun r => r c.name)

instance (columns : List Column) (rows : List Row) : Decidable (Admitted columns rows) :=
  inferInstanceAs (Decidable (∀ c ∈ columns, _))

theorem Column.Admits.append {c : Column} {vs ws : List Value} (h : c.Admits vs) (hnew : c.Admits ws)
    (hkey : c.primaryKey ∨ c.unique → ∀ v ∈ vs, v = .null) : c.Admits (vs ++ ws) where
  unique hc := by
    have hnil : vs.filter (· ≠ .null) = [] := List.filter_eq_nil_iff.mpr fun v hv => by simp [hkey hc v hv]
    rw [List.filter_append, hnil]
    exact hnew.unique hc
  rowid hk ht v hv := (List.mem_append.mp hv).elim (h.rowid hk ht v) (hnew.rowid hk ht v)
  notNull hn v hv := (List.mem_append.mp hv).elim (h.notNull hn v) (hnew.notNull hn v)

theorem Column.Admits.of_free {c : Column} {vs : List Value} (hkey : c.primaryKey = false)
    (hunique : c.unique = false) (hnull : c.notNull = true → ∀ v ∈ vs, v ≠ .null) : c.Admits vs where
  unique hc := absurd hc (by simp [hkey, hunique])
  rowid hk := absurd hk (by simp [hkey])
  notNull := hnull

/-- Rows are added to a table whose keys are all null so far. -/
theorem admitted_append {columns : List Column} {rows new : List Row} (h : Admitted columns rows)
    (hnew : Admitted columns new)
    (hkey : ∀ c ∈ columns, c.primaryKey ∨ c.unique → ∀ r ∈ rows, r c.name = .null) :
    Admitted columns (rows ++ new) := fun c hc => by
  rw [List.map_append]
  refine (h c hc).append (hnew c hc) fun hk v hv => ?_
  obtain ⟨r, hr, rfl⟩ := List.mem_map.mp hv
  exact hkey c hc hk r hr

/-- The row that an INSERT makes: the defaults, where no value is given. -/
def newRow (columns : List Column) (values : List (String × Value)) : Row := fun name =>
  (values.lookup name).getD (((columns.find? fun c => c.name = name).map Column.defaultValue).getD .null)

theorem lookup_eval (values : List (String × Expr)) (r : Row) (name : String) :
    (values.map fun v => (v.1, v.2.eval r)).lookup name = (values.lookup name).map (Expr.eval r) := by
  induction values with
  | nil => rfl
  | cons v values ih =>
    rw [List.map_cons, List.lookup_cons, List.lookup_cons, ih]
    cases name == v.1 <;> rfl

theorem newRow_eval {columns : List Column} {values : List (String × Expr)} {name : String} {e : Expr}
    (h : values.lookup name = some e) (r : Row) :
    newRow columns (values.map fun v => (v.1, v.2.eval r)) name = e.eval r := by
  rw [newRow, lookup_eval, h]
  rfl

theorem newRow_blank {columns : List Column} {values : List (String × Value)}
    (hvalues : ∀ v ∈ values, v.1 ∈ names columns) {name : String} (hno : name ∉ names columns) :
    newRow columns values name = .null := by
  have hlookup : values.lookup name = none := List.lookup_eq_none_iff.mpr fun v hv => by
    have hne : name ≠ v.1 := fun heq => hno (heq ▸ hvalues v hv)
    simpa using hne
  have hfind : columns.find? (fun c => c.name = name) = none := List.find?_eq_none.mpr fun c hc => by
    have hne : c.name ≠ name := fun heq => hno (heq ▸ List.mem_map_of_mem hc)
    simpa using hne
  rw [newRow, hlookup, hfind]
  rfl

/-! ## A stored database -/

/-- What holds of a stored table. -/
structure TableOk (columns : List Column) (rows : List Row) : Prop where
  admitted : Admitted columns rows
  blank : ∀ r ∈ rows, ∀ name ∉ names columns, r name = .null

/-- What holds of a stored database. -/
structure Database.Ok (db : Database τ ι) : Prop where
  absent : ∀ table, db.schema.columns table = none → db.rows table = []
  present : ∀ table columns, db.schema.columns table = some columns → TableOk columns (db.rows table)

theorem tableOk_nil (columns : List Column) : TableOk columns [] where
  admitted _ _ := ⟨fun _ => List.nodup_nil, fun _ _ _ h => absurd h List.not_mem_nil,
    fun _ _ h => absurd h List.not_mem_nil⟩
  blank _ h := absurd h List.not_mem_nil

variable {db db' : Database τ ι} {table : τ}

/-- The rule for a statement that concerns one table. -/
theorem Database.Ok.of_table (hok : db.Ok) (table : τ) (hother : ∀ t, t ≠ table →
      db'.schema.columns t = db.schema.columns t ∧ db'.rows t = db.rows t)
    (habsent : db'.schema.columns table = none → db'.rows table = [])
    (hpresent : ∀ columns, db'.schema.columns table = some columns → TableOk columns (db'.rows table)) :
    db'.Ok where
  absent t ht := by
    by_cases heq : t = table
    · subst heq
      exact habsent ht
    · rw [(hother t heq).2]
      exact hok.absent t ((hother t heq).1 ▸ ht)
  present t columns ht := by
    by_cases heq : t = table
    · subst heq
      exact hpresent columns ht
    · rw [(hother t heq).2]
      exact hok.present t columns ((hother t heq).1 ▸ ht)

theorem Database.Ok.of_present {columns : List Column} (hok : db.Ok) (hother : ∀ t, t ≠ table →
      db'.schema.columns t = db.schema.columns t ∧ db'.rows t = db.rows t)
    (hpresent : db'.schema.columns table = some columns) (htable : TableOk columns (db'.rows table)) :
    db'.Ok :=
  hok.of_table table hother (fun hnone => absurd (hpresent.symm.trans hnone) (by simp))
    fun _ hc => Option.some.inj (hpresent.symm.trans hc) ▸ htable

theorem Database.Ok.of_same (hok : db.Ok) (hcolumns : db'.schema.columns = db.schema.columns)
    (hrows : db'.rows = db.rows) : db'.Ok where
  absent t ht := by
    rw [hrows]
    exact hok.absent t (hcolumns ▸ ht)
  present t columns ht := by
    rw [hrows]
    exact hok.present t columns (hcolumns ▸ ht)

theorem TableOk.inserted {columns : List Column} {rows new : List Row} (h : TableOk columns rows)
    (hadmitted : Admitted columns (rows ++ new))
    (hblank : ∀ r ∈ new, ∀ name ∉ names columns, r name = .null) : TableOk columns (rows ++ new) where
  admitted := hadmitted
  blank r hr := (List.mem_append.mp hr).elim (h.blank r) (hblank r)

/-- What the rows of a table have in some columns. -/
def Database.cells (db : Database τ ι) (table : τ) (columns : List String) : List (List Value) :=
  (db.rows table).map fun r => columns.map r

theorem cells_of_rows {columns : List String} (h : db'.rows table = db.rows table) :
    db'.cells table columns = db.cells table columns := by
  rw [Database.cells, Database.cells, h]

/-- A column that was not there was `NULL` in every row, and still is. -/
theorem cells_addColumn {present : List Column} {c : Column} {columns : List String} (hok : db.Ok)
    (hpresent : db.schema.columns table = some present) (hname : c.name ∉ names present)
    (hdefault : c.name ∈ columns → c.defaultValue = .null) :
    ((db.rows table).map fun r => Function.update r c.name c.defaultValue).map (fun r => columns.map r) =
      db.cells table columns := by
  rw [Database.cells, List.map_map]
  refine List.map_congr_left fun r hr => List.map_congr_left fun name hin => ?_
  by_cases heq : name = c.name
  · subst heq
    show Function.update r c.name c.defaultValue c.name = r c.name
    rw [Function.update_self, hdefault hin, (hok.present table present hpresent).blank r hr _ hname]
  · exact Function.update_of_ne heq _ _

variable [DecidableEq τ]

/-- Rows that are inserted. -/
theorem Database.Ok.inserted {present : List Column} {new : List Row} (hok : db.Ok)
    (hpresent : db.schema.columns table = some present) (hadmitted : Admitted present (db.rows table ++ new))
    (hblank : ∀ r ∈ new, ∀ name ∉ names present, r name = .null) :
    (Database.mk db.schema (Function.update db.rows table (db.rows table ++ new))).Ok := by
  refine hok.of_present (fun t ht => ⟨rfl, Function.update_of_ne ht _ _⟩) hpresent ?_
  have hrows : Function.update db.rows table (db.rows table ++ new) table = db.rows table ++ new :=
    Function.update_self _ _ _
  show TableOk present (Function.update db.rows table (db.rows table ++ new) table)
  rw [hrows]
  exact (hok.present table present hpresent).inserted hadmitted hblank

/-- A table that is gone, with its rows. -/
theorem Database.Ok.dropped (hok : db.Ok) (table : τ) (index : ι → Option (τ × List String)) :
    (Database.mk ⟨Function.update db.schema.columns table none, index⟩ (Function.update db.rows table [])).Ok :=
  hok.of_table table (fun t ht => ⟨Function.update_of_ne ht _ _, Function.update_of_ne ht _ _⟩)
    (fun _ => Function.update_self _ _ _)
    fun _ hc => absurd ((Function.update_self table none db.schema.columns).symm.trans hc) (by simp)

variable [DecidableEq ι]

/-! ## Executing a statement -/

/-- What a statement makes of the schema. Dropping a table drops its indexes. -/
def Schema.exec (s : Schema τ ι) : Statement τ ι → Option (Schema τ ι)
  | .createTable table columns =>
    match s.columns table with
    | some _ => some s
    | none => some { s with columns := Function.update s.columns table (some columns) }
  | .createIndex index table columns =>
    match s.columns table with
    | none => none
    | some present =>
      match s.index index with
      | some _ => some s
      | none =>
        if ∀ name ∈ columns, name ∈ names present then
          some { s with index := Function.update s.index index (some (table, columns)) }
        else none
  | .dropTable table ifExists =>
    match s.columns table with
    | none => if ifExists then some s else none
    | some _ => some
        { columns := Function.update s.columns table none
          index := fun i => (s.index i).filter fun on => on.1 ≠ table }
  | .dropIndex index => some { s with index := Function.update s.index index none }
  | .addColumn table column =>
    match s.columns table with
    | none => none
    | some present =>
      if column.name ∈ names present ∨ column.primaryKey ∨ column.unique ∨
          (column.notNull ∧ column.defaultValue = .null) then none
      else some { s with columns := Function.update s.columns table (some (present ++ [column])) }
  | .rename table newName =>
    match s.columns table, s.columns newName with
    | some present, none => some
        { columns := Function.update (Function.update s.columns table none) newName (some present)
          index := fun i => (s.index i).map fun on => if on.1 = table then (newName, on.2) else on }
    | _, _ => none
  | .insertSelect table values source =>
    match s.columns table, s.columns source with
    | some present, some read =>
      if ∀ v ∈ values, v.1 ∈ names present ∧ v.2.fits read then some s else none
    | _, _ => none
  | .insert table values =>
    match s.columns table with
    | some present => if ∀ v ∈ values, v.1 ∈ names present then some s else none
    | none => none

/-- The rows once a statement has taken effect. -/
def Statement.rowsAfter (db : Database τ ι) : Statement τ ι → τ → List Row
  | .dropTable table _ => Function.update db.rows table []
  | .addColumn table column => Function.update db.rows table
      ((db.rows table).map fun r => Function.update r column.name column.defaultValue)
  | .rename table newName =>
    Function.update (Function.update db.rows table []) newName (db.rows table)
  | .insertSelect table values source => Function.update db.rows table
      (db.rows table ++ (db.rows source).map fun r =>
        newRow ((db.schema.columns table).getD []) (values.map fun v => (v.1, v.2.eval r)))
  | .insert table values => Function.update db.rows table
      (db.rows table ++ [newRow ((db.schema.columns table).getD []) values])
  | _ => db.rows

/-- A statement: its constraints are checked where it inserts. -/
def Database.exec (db : Database τ ι) (st : Statement τ ι) : Option (Database τ ι) :=
  match db.schema.exec st with
  | none => none
  | some schema =>
    if ∀ table ∈ st.inserts, Admitted ((schema.columns table).getD []) (st.rowsAfter db table) then
      some ⟨schema, st.rowsAfter db⟩
    else none

variable {st : Statement τ ι} {schema : Schema τ ι}

/-! ## When a statement fails -/

theorem schema_of_exec (h : db.exec st = some db') : db.schema.exec st = some db'.schema := by
  unfold Database.exec at h
  split at h
  · exact absurd h (by simp)
  · rename_i schema hschema
    split at h
    · obtain rfl := Option.some.inj h
      exact hschema
    · exact absurd h (by simp)

theorem rows_of_exec (h : db.exec st = some db') : db'.rows = st.rowsAfter db := by
  unfold Database.exec at h
  split at h
  · exact absurd h (by simp)
  · split at h
    · obtain rfl := Option.some.inj h
      rfl
    · exact absurd h (by simp)

theorem admitted_of_exec (h : db.exec st = some db') :
    ∀ table ∈ st.inserts, Admitted ((db'.schema.columns table).getD []) (st.rowsAfter db table) := by
  unfold Database.exec at h
  split at h
  · exact absurd h (by simp)
  · split at h
    · rename_i hadmitted
      obtain rfl := Option.some.inj h
      exact hadmitted
    · exact absurd h (by simp)

theorem exec_eq_none (h : db.schema.exec st = none) : db.exec st = none := by
  unfold Database.exec
  rw [h]

/-- **A statement that inserts nothing fails for its schema only.** -/
theorem exec_of_schema (hst : st.inserts = none) (h : db.schema.exec st = some schema) :
    db.exec st = some ⟨schema, st.rowsAfter db⟩ := by
  unfold Database.exec
  rw [h]
  exact if_pos (by simp [hst])

/-- A statement that inserts fails for its schema, or for a row that it may not insert. -/
theorem exec_of_inserts (hst : st.inserts = some table) (h : db.schema.exec st = some schema) :
    db.exec st =
      if Admitted ((schema.columns table).getD []) (st.rowsAfter db table) then
        some ⟨schema, st.rowsAfter db⟩
      else none := by
  unfold Database.exec
  rw [h]
  simp only [hst, Option.mem_def, Option.some.injEq, forall_eq']

/-! ## What every statement keeps -/

/-- A column that is added has its default in every row. -/
theorem TableOk.addColumn {columns : List Column} {rows : List Row} {c : Column}
    (h : TableOk columns rows) (hname : c.name ∉ names columns) (hkey : ¬ c.primaryKey)
    (hunique : ¬ c.unique) (hnull : c.notNull → c.defaultValue ≠ .null) :
    TableOk (columns ++ [c]) (rows.map fun r => Function.update r c.name c.defaultValue) where
  admitted c' hc' := by
    rw [List.map_map]
    rcases List.mem_append.mp hc' with hc' | hc'
    · have hne : c'.name ≠ c.name := fun heq => hname (heq ▸ List.mem_map_of_mem hc')
      have hsame : ((fun r : Row => r c'.name) ∘ fun r => Function.update r c.name c.defaultValue) =
          fun r => r c'.name := funext fun r => Function.update_of_ne hne _ _
      rw [hsame]
      exact h.admitted c' hc'
    · obtain rfl := List.mem_singleton.mp hc'
      refine ⟨fun hor => absurd hor (by simp [hkey, hunique]), fun hk => absurd hk hkey, fun hn v hv => ?_⟩
      obtain ⟨r, -, rfl⟩ := List.mem_map.mp hv
      rw [Function.comp_apply, Function.update_self]
      exact hnull hn
  blank r' hr' name hno := by
    obtain ⟨r, hr, rfl⟩ := List.mem_map.mp hr'
    rw [names, List.map_append, List.mem_append, not_or] at hno
    have hne : name ≠ c.name := fun heq => hno.2 (by simp [heq])
    rw [Function.update_of_ne hne]
    exact h.blank r hr name hno.1

/-- **What is stored satisfies its constraints**, whatever statement ran. -/
theorem exec_ok (hok : db.Ok) (h : db.exec st = some db') : db'.Ok := by
  have hschema := schema_of_exec h
  have hrows := rows_of_exec h
  have hadmitted := admitted_of_exec h
  obtain ⟨schema', rows'⟩ := db'
  obtain rfl : rows' = st.rowsAfter db := hrows
  cases st with
  | createTable table columns =>
    rw [Schema.exec] at hschema
    split at hschema
    · exact hok.of_same (by rw [← Option.some.inj hschema]) rfl
    · rename_i hnone
      obtain rfl := Option.some.inj hschema
      refine hok.of_table table (fun t ht => ⟨Function.update_of_ne ht _ _, rfl⟩)
        (fun _ => hok.absent table hnone) fun c _ => ?_
      have hnil : db.rows table = [] := hok.absent table hnone
      show TableOk c (db.rows table)
      rw [hnil]
      exact tableOk_nil c
  | createIndex index table columns =>
    rw [Schema.exec] at hschema
    split at hschema
    · exact absurd hschema (by simp)
    · split at hschema
      · exact hok.of_same (by rw [← Option.some.inj hschema]) rfl
      · split at hschema
        · exact hok.of_same (by rw [← Option.some.inj hschema]) rfl
        · exact absurd hschema (by simp)
  | dropTable table ifExists =>
    have hgone : schema'.columns table = none ∧ ∀ t, t ≠ table → schema'.columns t = db.schema.columns t := by
      rw [Schema.exec] at hschema
      split at hschema
      · rename_i hnone
        split at hschema
        · obtain rfl := Option.some.inj hschema
          exact ⟨hnone, fun _ _ => rfl⟩
        · exact absurd hschema (by simp)
      · obtain rfl := Option.some.inj hschema
        exact ⟨Function.update_self _ _ _, fun t ht => Function.update_of_ne ht _ _⟩
    refine hok.of_table table (fun t ht => ⟨hgone.2 t ht, Function.update_of_ne ht _ _⟩)
      (fun _ => Function.update_self _ _ _) fun c hc => ?_
    exact absurd (hgone.1.symm.trans hc) (by simp)
  | dropIndex index => exact hok.of_same (by rw [← Option.some.inj hschema]) rfl
  | addColumn table column =>
    rw [Schema.exec] at hschema
    split at hschema
    · exact absurd hschema (by simp)
    · rename_i present hpresent
      split at hschema
      · exact absurd hschema (by simp)
      · rename_i hc
        simp only [not_or, not_and] at hc
        obtain rfl := Option.some.inj hschema
        refine hok.of_present
          (fun t ht => ⟨Function.update_of_ne ht _ _, Function.update_of_ne ht _ _⟩)
          (Function.update_self table (some (present ++ [column])) db.schema.columns) ?_
        have hrows' : Statement.rowsAfter db (.addColumn table column : Statement τ ι) table =
            (db.rows table).map fun r => Function.update r column.name column.defaultValue :=
          Function.update_self _ _ _
        show TableOk _ (Statement.rowsAfter db (.addColumn table column : Statement τ ι) table)
        rw [hrows']
        exact (hok.present table present hpresent).addColumn hc.1 hc.2.1 hc.2.2.1 hc.2.2.2
  | rename table newName =>
    rw [Schema.exec] at hschema
    split at hschema
    · rename_i present hpresent hnone
      obtain rfl := Option.some.inj hschema
      have hne : table ≠ newName := fun heq => absurd (hpresent.symm.trans (heq ▸ hnone)) (by simp)
      refine (hok.dropped table fun i => (db.schema.index i).map fun on => if on.1 = table then (newName, on.2) else on).of_present
        (fun t ht => ⟨Function.update_of_ne ht _ _, Function.update_of_ne ht _ _⟩)
        (Function.update_self newName (some present) (Function.update db.schema.columns table none)) ?_
      have hrows' : Statement.rowsAfter db (.rename table newName : Statement τ ι) newName =
          db.rows table := Function.update_self _ _ _
      show TableOk _ (Statement.rowsAfter db (.rename table newName : Statement τ ι) newName)
      rw [hrows']
      exact hok.present table present hpresent
    · exact absurd hschema (by simp)
  | insertSelect table values source =>
    rw [Schema.exec] at hschema
    split at hschema
    · rename_i present read hpresent hread
      split at hschema
      · rename_i hvalues
        obtain rfl := Option.some.inj hschema
        refine hok.inserted hpresent ?_ ?_
        · simpa [hpresent, Statement.rowsAfter] using hadmitted table rfl
        · intro r hr name hno
          obtain ⟨r', -, rfl⟩ := List.mem_map.mp hr
          rw [hpresent]
          refine newRow_blank (fun v hv => ?_) hno
          obtain ⟨v', hv', rfl⟩ := List.mem_map.mp hv
          exact (hvalues v' hv').1
      · exact absurd hschema (by simp)
    · exact absurd hschema (by simp)
  | insert table values =>
    rw [Schema.exec] at hschema
    split at hschema
    · rename_i present hpresent
      split at hschema
      · rename_i hvalues
        obtain rfl := Option.some.inj hschema
        refine hok.inserted hpresent ?_ ?_
        · simpa [hpresent, Statement.rowsAfter] using hadmitted table rfl
        · intro r hr name hno
          obtain rfl := List.mem_singleton.mp hr
          rw [hpresent]
          exact newRow_blank hvalues hno
      · exact absurd hschema (by simp)
    · exact absurd hschema (by simp)

/-! ## What a statement leaves -/

/-- The statement leaves what the rows of a table have in these columns. -/
def Statement.Spares (table : τ) (columns : List String) : Statement τ ι → Prop
  | .dropTable t _ => t ≠ table
  | .addColumn t c => t = table → c.name ∈ columns → c.defaultValue = .null
  | .rename t newName => t ≠ table ∧ newName ≠ table
  | .insertSelect t .. => t ≠ table
  | .insert t _ => t ≠ table
  | _ => True

instance (table : τ) (columns : List String) : (st : Statement τ ι) → Decidable (st.Spares table columns)
  | .dropTable t _ => inferInstanceAs (Decidable (t ≠ table))
  | .addColumn t c => inferInstanceAs (Decidable (t = table → c.name ∈ columns → c.defaultValue = .null))
  | .rename t newName => inferInstanceAs (Decidable (t ≠ table ∧ newName ≠ table))
  | .insertSelect t .. => inferInstanceAs (Decidable (t ≠ table))
  | .insert t _ => inferInstanceAs (Decidable (t ≠ table))
  | .createTable .. => inferInstanceAs (Decidable True)
  | .createIndex .. => inferInstanceAs (Decidable True)
  | .dropIndex _ => inferInstanceAs (Decidable True)

/-- **A statement that spares some columns of a table leaves what its rows have there.** -/
theorem exec_cells {columns : List String} (hok : db.Ok) (h : db.exec st = some db')
    (hst : st.Spares table columns) : db'.cells table columns = db.cells table columns := by
  have hschema := schema_of_exec h
  have hrows := congrFun (rows_of_exec h) table
  cases st with
  | createTable t c => exact cells_of_rows hrows
  | createIndex i t c => exact cells_of_rows hrows
  | dropIndex i => exact cells_of_rows hrows
  | dropTable t e => exact cells_of_rows (hrows.trans (Function.update_of_ne (Ne.symm hst) _ _))
  | insertSelect t v s => exact cells_of_rows (hrows.trans (Function.update_of_ne (Ne.symm hst) _ _))
  | insert t v => exact cells_of_rows (hrows.trans (Function.update_of_ne (Ne.symm hst) _ _))
  | rename t n =>
    refine cells_of_rows (hrows.trans ?_)
    exact (Function.update_of_ne (Ne.symm hst.2) _ _).trans (Function.update_of_ne (Ne.symm hst.1) _ _)
  | addColumn t c =>
    by_cases heq : t = table
    · subst heq
      rw [Schema.exec] at hschema
      split at hschema
      · exact absurd hschema (by simp)
      · rename_i present hpresent
        split at hschema
        · exact absurd hschema (by simp)
        · rename_i hc
          rw [Database.cells, hrows]
          exact (congrArg _ (Function.update_self _ _ _)).trans
            (cells_addColumn hok hpresent (not_or.mp hc).1 (hst rfl))
    · exact cells_of_rows (hrows.trans (Function.update_of_ne (Ne.symm heq) _ _))

end Sql
