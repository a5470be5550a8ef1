import TorMarketplace.Proof.Rebuilds
import Mathlib.Tactic.IntervalCases

/-!
# Migrations that are cut short

`run_sqlite_migrations` starts on a database at some version, stops between two statements, and is started
again.

* Uninterrupted it completes, from any version, and keeps the rows of orders and listings
  (`migrations_complete`).
* The second start completes with the same schema and no row lost exactly if the first did not stop right
  behind a statement whose hazard strikes (`crash_safe_iff`).
-/

namespace TorMarketplace.Migrations

open Sql

variable {db db' : Database} {k p n : Nat} {m : Migration} {clock clock' : Nat → Int64}

theorem stop_exists (hk : k < 18) (hm : migrations[k]? = some m) (hat : At k db) (hp : p ≤ m.actions.length) :
    ∃ db₁, Stop k p m db db₁ := by
  by_cases h9 : k = 9
  · subst h9
    exact ordersRebuilds.stop hm hk hat hp
  · by_cases h10 : k = 10
    · subst h10
      exact listingsRebuilds.stop hm hk hat hp
    · exact plain_stop hk hm h9 h10 hat hp

/-- Once all its actions are done, a migration reaches the next version. -/
theorem steps_of_actions {db₁ db₂ : Database} (clock : Nat → Int64) (hk : k < 18) (hm : migrations[k]? = some m)
    (hp : p ≤ m.actions.length) (hs : stoppedSchema k p = some db₁.schema) (hok : db₁.Ok)
    (hexec : execute db₁ m.actions = some db₂) (hv : dbVersion db₂ = k) :
    ∃ db', execute db₁ (m.steps clock) = some db' ∧ At (k + 1) db' ∧ SameRows db₂ db' := by
  have hschema : schemaAt (k + 1) = some db₂.schema := by
    have hresumed := (onSchema_resumed hk hm hp hs).symm.trans (onSchema_of_actions hexec)
    split_ifs at hresumed
    exact hresumed
  obtain ⟨db', hrecord, hat, hsame⟩ := record_at clock hk hm (actions_ok hok hexec) hschema hv
  refine ⟨db', ?_, hat, hsame⟩
  rw [Migration.steps, execute_append, hexec, Option.bind_some, execute_cons, hrecord]
  rfl

/-- A migration that is not interrupted. -/
theorem migrate (clock : Nat → Int64) (hk : k < 18) (hm : migrations[k]? = some m) (hat : At k db) :
    ∃ db', execute db (m.steps clock) = some db' ∧ At (k + 1) db' ∧ SameRows db db' := by
  have hs : stoppedSchema k 0 = some db.schema := stoppedSchema_of_execute hm hat rfl
  have hactions : ∃ db₂, execute db m.actions = some db₂ ∧ SameRows db db₂ ∧ dbVersion db₂ = k := by
    by_cases h9 : k = 9
    · subst h9
      exact ordersRebuilds.migrate hm hk hat
    · by_cases h10 : k = 10
      · subst h10
        exact listingsRebuilds.migrate hm hk hat
      · obtain ⟨s', hs'⟩ := schemaAt_isSome (Nat.succ_le_of_lt hk)
        have hresumed := onSchema_resumed hk hm (Nat.zero_le _) hs
        rw [if_neg (fun h => h.elim (fun h => h9 h.1) fun h => h10 h.1), hs'] at hresumed
        obtain ⟨db₂, hexec, hsame, hv⟩ := plain_actions hat.ok (actions_plain k hk h9 h10 m hm) hresumed
        exact ⟨db₂, hexec, hsame, hv.trans hat.version⟩
  obtain ⟨db₂, hexec, hsame, hv⟩ := hactions
  obtain ⟨db', hsteps, hnext, hsame'⟩ := steps_of_actions clock hk hm (Nat.zero_le _) hs hat.ok hexec hv
  exact ⟨db', hsteps, hnext, hsame.trans hsame'⟩

/-- What is left to do at version `k`. -/
def remaining (clock : Nat → Int64) (k : Nat) : List Action := (migrations.drop k).flatMap (Migration.steps clock)

theorem pending_eq (hk : k ≤ 18) : pending clock k = remaining clock k := by
  interval_cases k <;> rfl

theorem remaining_eq (hm : migrations[k]? = some m) :
    remaining clock k = m.steps clock ++ remaining clock (k + 1) := by
  obtain ⟨hlt, rfl⟩ := List.getElem?_eq_some_iff.mp hm
  rw [remaining, List.drop_eq_getElem_cons hlt, List.flatMap_cons]
  rfl

/-- **A run that is not interrupted** completes, from any version, and keeps the rows. -/
theorem migrations_complete (clock : Nat → Int64) (hk : k ≤ 18) (hat : At k db) :
    ∃ db', execute db (remaining clock k) = some db' ∧ At 18 db' ∧ SameRows db db' := by
  induction hk using Nat.decreasingInduction generalizing db with
  | self => exact ⟨db, rfl, hat, rfl, rfl⟩
  | of_succ k hk ih =>
    obtain ⟨m, hm⟩ := migration_exists hk
    obtain ⟨db₁, hsteps, hat₁, hsame₁⟩ := migrate clock hk hm hat
    obtain ⟨db₂, hexec, hat₂, hsame₂⟩ := ih hat₁
    refine ⟨db₂, ?_, hat₂, hsame₁.trans hsame₂⟩
    rw [remaining_eq hm, execute_append, hsteps]
    exact hexec

theorem run_eq (clock : Nat → Int64) (hk : k ≤ 18) (ht : db.schema.columns .schemaMigrations = some tracking)
    (hv : dbVersion db = k) : runSqliteMigrations clock db = execute db (remaining clock k) := by
  have hcreate : createSchemaMigrations.execute db = some db := by
    have hschema : db.schema.exec (.createTable .schemaMigrations tracking) = some db.schema := by
      rw [Schema.exec, ht]
    exact exec_of_schema rfl hschema
  rw [runSqliteMigrations, hcreate, ← pending_eq hk, ← hv]
  rfl

/-- A start on what a stop left: it reaches the last schema, and no row is lost. -/
def Recovers (clock : Nat → Int64) (db db₁ : Database) : Prop :=
  ∃ db₂, runSqliteMigrations clock db₁ = some db₂ ∧ schemaAt 18 = some db₂.schema ∧ KeepsRows db db₂

theorem recovers_of_steps {db₁ db₂ : Database} (hk : k < 18) (hm : migrations[k]? = some m)
    (ht : db₁.schema.columns .schemaMigrations = some tracking) (hv : dbVersion db₁ = k)
    (hsteps : execute db₁ (m.steps clock') = some db₂) (hat : At (k + 1) db₂) (hkeeps : KeepsRows db db₂) :
    Recovers clock' db db₁ := by
  obtain ⟨db₃, hexec, hat₃, hsame⟩ := migrations_complete clock' (Nat.succ_le_of_lt hk) hat
  refine ⟨db₃, ?_, hat₃.schema, hkeeps.trans_same hsame⟩
  rw [run_eq clock' hk.le ht hv, remaining_eq hm, execute_append, hsteps]
  exact hexec

theorem not_recovers {db₁ : Database} (hk : k < 18) (hm : migrations[k]? = some m)
    (ht : db₁.schema.columns .schemaMigrations = some tracking) (hv : dbVersion db₁ = k)
    (hnone : execute db₁ m.actions = none) : ¬ Recovers clock' db db₁ := by
  rintro ⟨db₂, hrun, -⟩
  rw [run_eq clock' hk.le ht hv, remaining_eq hm, Migration.steps, execute_append, execute_append, hnone] at hrun
  exact absurd hrun (by simp)

/-- A stop within a migration. -/
theorem recovers_stop (clock' : Nat → Int64) (hk : k < 18) (hm : migrations[k]? = some m) (hat : At k db)
    (hp : p ≤ m.actions.length) : ∃ db₁, execute db (m.actions.take p) = some db₁ ∧
      (Recovers clock' db db₁ ↔ ¬ (hazardAfter (m.actions.take p)).Strikes db) := by
  obtain ⟨db₁, hstop⟩ := stop_exists hk hm hat hp
  have hs := stoppedSchema_of_execute hm hat hstop.executed
  have ht := (stoppedSchema_tracked hk hm hp).tracking hs
  refine ⟨db₁, hstop.executed, fun hrec hstrikes => ?_, fun hno => ?_⟩
  · exact not_recovers hk hm ht hstop.version (hstop.fails hstrikes) hrec
  · obtain ⟨db₂, hexec, hv, hkeeps⟩ := hstop.resumes hno
    obtain ⟨db₃, hsteps, hat₃, hsame⟩ :=
      steps_of_actions clock' hk hm hp hs (actions_ok hat.ok hstop.executed) hexec hv
    exact recovers_of_steps hk hm ht hstop.version hsteps hat₃ (hkeeps.trans_same hsame)

theorem Recovers.congr {db₁ : Database} (h : SameRows db db') :
    Recovers clock' db db₁ ↔ Recovers clock' db' db₁ := by
  refine exists_congr fun db₂ => and_congr_right fun _ => and_congr_right fun _ => ?_
  exact keepsRows_congr h

theorem recovers_iff (clock clock' : Nat → Int64) (hk : k ≤ 18) (hat : At k db) (n : Nat) :
    ∃ db₁, execute db ((remaining clock k).take n) = some db₁ ∧
      (Recovers clock' db db₁ ↔ ¬ (hazardAfter ((remaining clock k).take n)).Strikes db) := by
  induction hk using Nat.decreasingInduction generalizing db n with
  | self =>
    have hnil : (remaining clock 18).take n = [] := by cases n <;> rfl
    rw [hnil]
    refine ⟨db, rfl, fun _ h => h, fun _ => ⟨db, ?_, hat.schema, (SameRows.of_rows rfl rfl).keepsRows⟩⟩
    rw [run_eq clock' le_rfl (hat.tracked le_rfl) hat.version]
    rfl
  | of_succ k hk ih =>
    obtain ⟨m, hm⟩ := migration_exists hk
    rw [remaining_eq hm]
    by_cases hn : n ≤ m.actions.length
    · have htake : (m.steps clock ++ remaining clock (k + 1)).take n = m.actions.take n := by
        rw [Migration.steps, List.append_assoc, List.take_append_of_le_length hn]
      rw [htake]
      exact recovers_stop clock' hk hm hat hn
    · obtain ⟨q, rfl⟩ := Nat.exists_eq_add_of_lt (not_le.mp hn)
      have htake : (m.steps clock ++ remaining clock (k + 1)).take (m.actions.length + q + 1) =
          m.steps clock ++ (remaining clock (k + 1)).take q := by
        have hlength : m.actions.length + q + 1 = (m.steps clock).length + q := by
          rw [Migration.steps, List.length_append, List.length_singleton]
          omega
        rw [hlength, List.take_length_add_append]
      have hnever : hazardAfter (m.steps clock) = .never := by
        rw [Migration.steps, hazardAfter, List.getLast?_concat]
        rfl
      obtain ⟨db₁, hsteps, hat₁, hsame⟩ := migrate clock hk hm hat
      obtain ⟨db₂, hexec, hiff⟩ := ih hat₁ q
      rw [htake, hazardAfter_append _ hnever]
      refine ⟨db₂, ?_, (Recovers.congr hsame).trans (hiff.trans (not_congr (hsame.strikes _)))⟩
      rw [execute_append, hsteps]
      exact hexec

/-! ## Crash safety -/

/-- The database is at version `k`, where `schema_migrations` may still be missing. -/
structure AtVersion (k : Nat) (db : Database) : Prop where
  ok : db.Ok
  schema : createSchemaMigrations.onSchema db.schema = schemaAt k
  version : dbVersion db = k

/-- The run that stops after `n` steps can be started again: that completes, with the schema of a run that is
not interrupted, and no row is lost. -/
def CrashSafe (clock clock' : Nat → Int64) (n : Nat) (db : Database) : Prop :=
  ∃ stopped resumed final, interrupted clock n db = some stopped ∧
    runSqliteMigrations clock' stopped = some resumed ∧ runSqliteMigrations clock db = some final ∧
    resumed.schema = final.schema ∧ KeepsRows db resumed

theorem AtVersion.start (hk : k ≤ 18) (h : AtVersion k db) :
    ∃ db₀, createSchemaMigrations.execute db = some db₀ ∧ At k db₀ ∧ db₀.rows = db.rows := by
  obtain ⟨s, hs⟩ := schemaAt_isSome hk
  obtain ⟨db₀, hexec⟩ := execute_of_onSchema (a := createSchemaMigrations) rfl (h.schema.trans hs)
  have hrows : db₀.rows = db.rows := rows_of_exec hexec
  refine ⟨db₀, hexec, ⟨execute_ok h.ok hexec, ?_, ?_⟩, hrows⟩
  · rw [← h.schema, onSchema_of_execute hexec]
  · exact (dbVersion_of_cells (cells_of_rows (congrFun hrows _))).trans h.version

theorem run_start {db₀ : Database} (clock : Nat → Int64) (hk : k ≤ 18)
    (hcreate : createSchemaMigrations.execute db = some db₀) (hat : At k db₀) :
    runSqliteMigrations clock db = execute db₀ (remaining clock k) := by
  rw [runSqliteMigrations, hcreate, ← pending_eq hk, ← hat.version]
  rfl

theorem crashSafe_iff_recovers {db₁ final : Database} (hstop : interrupted clock n db = some db₁)
    (hfinal : runSqliteMigrations clock db = some final) (hschema : schemaAt 18 = some final.schema) :
    CrashSafe clock clock' n db ↔ Recovers clock' db db₁ := by
  constructor
  · rintro ⟨stopped, resumed, final', hstop', hresumed, hfinal', hsame, hkeeps⟩
    obtain rfl := Option.some.inj (hstop.symm.trans hstop')
    obtain rfl := Option.some.inj (hfinal.symm.trans hfinal')
    exact ⟨resumed, hresumed, hschema.trans (congrArg some hsame.symm), hkeeps⟩
  · rintro ⟨resumed, hresumed, hschema', hkeeps⟩
    exact ⟨db₁, resumed, final, hstop, hresumed, hfinal, Option.some.inj (hschema'.symm.trans hschema), hkeeps⟩

/-- **Where the migrations are crash safe**: wherever they stop, but not right behind a statement whose
hazard strikes. -/
theorem crash_safe_iff (clock clock' : Nat → Int64) (hk : k ≤ 18) (h : AtVersion k db) (n : Nat) :
    CrashSafe clock clock' n db ↔ ¬ (hazardAfter ((script clock db).take n)).Strikes db := by
  obtain ⟨db₀, hcreate, hat, hrows⟩ := h.start hk
  obtain ⟨final, hfinal, hlast, hsame⟩ := migrations_complete clock hk hat
  have hrun := (run_start clock hk hcreate hat).trans hfinal
  have hstart : SameRows db db₀ := .of_rows (congrFun hrows _) (congrFun hrows _)
  have hscript : script clock db = createSchemaMigrations :: remaining clock k := by
    rw [script, h.version, pending_eq hk]
  rw [hscript]
  cases n with
  | zero =>
    have hstop : interrupted clock 0 db = some db := rfl
    rw [crashSafe_iff_recovers hstop hrun hlast.schema]
    refine ⟨fun _ hstrikes => hstrikes, fun _ => ?_⟩
    obtain ⟨final', hfinal', hlast', hsame'⟩ := migrations_complete clock' hk hat
    exact ⟨final', (run_start clock' hk hcreate hat).trans hfinal', hlast'.schema,
      (hstart.trans hsame').keepsRows⟩
  | succ n =>
    obtain ⟨db₁, hexec, hiff⟩ := recovers_iff clock clock' hk hat n
    have hstop : interrupted clock (n + 1) db = some db₁ := by
      rw [interrupted, hscript, List.take_succ_cons, execute_cons, hcreate]
      exact hexec
    have hnever : hazardAfter [createSchemaMigrations] = .never := rfl
    rw [crashSafe_iff_recovers hstop hrun hlast.schema, Recovers.congr hstart, hiff, List.take_succ_cons,
      ← List.singleton_append, hazardAfter_append _ hnever, hstart.strikes]

/-! ### A database with an order -/

def emptyDatabase : Database := ⟨.empty, fun _ => []⟩

/-- The first nine migrations and an order. -/
def orderScript : List Action :=
  createSchemaMigrations :: (migrations.take 9).flatMap (Migration.steps fun _ => 0) ++ [
    .run (.insert .orders [
      ("id", .blob [1]),
      ("listing_id", .blob [2]),
      ("buyer_pubkey_hash", .blob [3]),
      ("seller_pubkey_hash", .blob [4]),
      ("currency", .text "XMR"),
      ("created_at", .integer 0),
      ("encrypted_order_blob", .blob [5]),
      ("day_bucket", .integer 0),
      ("expiry_bucket", .integer 86400)])]

def withOrder : Database := (execute emptyDatabase orderScript).getD emptyDatabase

/-- One evaluation for what follows. -/
theorem withOrder_checked : (execute emptyDatabase orderScript).isSome ∧
    createSchemaMigrations.onSchema withOrder.schema = schemaAt 9 ∧ dbVersion withOrder = 9 ∧
    hazardAfter ((script (fun _ => 0) withOrder).take 2) = .never ∧
    hazardAfter ((script (fun _ => 0) withOrder).take 4) = .always ∧
    ((interrupted (fun _ => 0) 4 withOrder).bind (runSqliteMigrations fun _ => 0)).isNone := by
  decide +kernel

theorem withOrder_eq : execute emptyDatabase orderScript = some withOrder := by
  obtain ⟨db, hdb⟩ := Option.isSome_iff_exists.mp withOrder_checked.1
  rw [withOrder, hdb]
  rfl

theorem withOrder_atVersion : AtVersion 9 withOrder where
  ok := actions_ok ⟨fun _ _ => rfl, fun _ _ h => absurd h (by simp [emptyDatabase, Sql.Schema.empty])⟩ withOrder_eq
  schema := withOrder_checked.2.1
  version := withOrder_checked.2.2.1

/-- Before the copy of version 10 a stop does no harm; between the drop and the renaming it does. -/
theorem crash_safe_sample :
    CrashSafe (fun _ => 0) (fun _ => 0) 2 withOrder ∧ ¬ CrashSafe (fun _ => 0) (fun _ => 0) 4 withOrder := by
  obtain ⟨-, -, -, hbefore, hdropped, -⟩ := withOrder_checked
  constructor
  · rw [crash_safe_iff _ _ (by decide) withOrder_atVersion, hbefore]
    exact id
  · rw [crash_safe_iff _ _ (by decide) withOrder_atVersion, hdropped]
    exact not_not.mpr trivial

/-- **A stop that no later start gets past**: version 10 stops behind `DROP TABLE orders`, and its copy reads
`orders` first. -/
theorem rebuild_stopped_fails :
    AtVersion 9 withOrder ∧ ¬ CrashSafe (fun _ => 0) (fun _ => 0) 4 withOrder := by
  refine ⟨withOrder_atVersion, ?_⟩
  rintro ⟨stopped, resumed, _, hstop, hresumed, -⟩
  have hfails := withOrder_checked.2.2.2.2.2
  rw [hstop, Option.bind_some, hresumed] at hfails
  exact absurd hfails nofun

end TorMarketplace.Migrations
