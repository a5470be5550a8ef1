import TorMarketplace.Lib.Sql
import TorMarketplace.Gateway.Effects

/-!
# The migrations

Model of `run_sqlite_migrations` (`db/mod.rs`). Each statement goes to the pool by itself, outside any
transaction, so it is atomic and committed on its own; a process that stops between two statements leaves
what the first of them made (`interrupted`).

A migration records its version with its last statement. At the next start `run_sqlite_migrations` runs
all migrations above the highest version on record, each from its first statement.
-/

namespace TorMarketplace.Migrations

open Sql
open Sql.Column (blob integer text)

inductive TableName where
  | schemaMigrations
  | users
  | listings
  | orders
  | chatMessages
  | auditLogs
  | paymentAudits
  | disputes
  | disputeEvidence
  | ordersNew
  | listingsNew
  | notificationTracker
  deriving DecidableEq

inductive IndexName where
  | idxListingsSeller
  | idxListingsStatus
  | idxOrdersBuyer
  | idxOrdersSeller
  | idxOrdersState
  | idxChatOrder
  | idxOrdersEscrow
  | idxListingsSearch
  | idxAuditTimestamp
  | idxAuditEvent
  | idxPaymentAuditTx
  | idxPaymentAuditOrder
  | idxListingsExpires
  | idxDisputesOrder
  | idxDisputeEvidenceDispute
  | idxOrdersDayBucket
  | idxOrdersExpiryBucket
  | idxListingsDayBucket
  | idxOrdersHasDispute
  | idxListingsCurrency
  | idxListingsStatusCurrency
  deriving DecidableEq

abbrev Schema := Sql.Schema TableName IndexName

abbrev Database := Sql.Database TableName IndexName

/-- What a migration does before it records its version. -/
inductive Action where
  | run (st : Statement TableName IndexName)
  /-- `ADD COLUMN` unless `column_exists`. One that `warns` logs an error of the statement and goes on; any
  other returns it. -/
  | ensureColumn (table : TableName) (column : Column) (warns : Bool)

structure Migration where
  version : Nat
  actions : List Action
  description : String

/-! ## The migrations one by one -/

def runMigrationV1 : Migration where
  version := 1
  actions := [
    .run (.createTable .users [
      (blob "pubkey_hash").asKey,
      (blob "encrypted_meta").required,
      (integer "created_at").required,
      (integer "last_active").required,
      (text "status").withDefault (.text "active")]),
    .run (.createTable .listings [
      (blob "id").asKey,
      (blob "seller_pubkey_hash").required,
      text "seller_pubkey",
      (blob "encrypted_data").required,
      blob "encrypted_search",
      (text "currency").required.withDefault (.text "XMR"),
      (text "price_amount").required,
      (text "status").required.withDefault (.text "active"),
      (integer "created_at").required,
      integer "expires_at",
      (integer "updated_at").required]),
    .run (.createTable .orders [
      (blob "id").asKey,
      (blob "listing_id").required,
      (blob "buyer_pubkey_hash").required,
      (blob "seller_pubkey_hash").required,
      text "buyer_pubkey",
      text "seller_pubkey",
      (text "state").required.withDefault (.text "pending"),
      (text "currency").required,
      text "escrow_address",
      text "escrow_amount",
      (integer "time_lock_seconds").required.withDefault (.integer 604800),
      (integer "created_at").required,
      integer "funded_at",
      integer "shipped_at",
      integer "confirmed_at",
      integer "released_at",
      integer "refunded_at",
      integer "disputed_at",
      integer "expires_at",
      blob "encrypted_blob"]),
    .run (.createTable .chatMessages [
      (blob "id").asKey,
      (blob "order_id").required,
      (blob "sender_pubkey_hash").required,
      (blob "encrypted_body").required,
      (integer "created_at").required,
      (integer "expires_at").required]),
    .run (.createIndex .idxListingsSeller .listings ["seller_pubkey_hash"]),
    .run (.createIndex .idxListingsStatus .listings ["status"]),
    .run (.createIndex .idxOrdersBuyer .orders ["buyer_pubkey_hash"]),
    .run (.createIndex .idxOrdersSeller .orders ["seller_pubkey_hash"]),
    .run (.createIndex .idxOrdersState .orders ["state"]),
    .run (.createIndex .idxChatOrder .chatMessages ["order_id"])]
  description := "Initial schema with users, listings, orders, chat_messages"

def runMigrationV2 : Migration where
  version := 2
  actions := [
    .run (.createTable .auditLogs [
      (text "id").asKey,
      (text "event_type").required,
      text "pubkey_hash",
      text "resource_id",
      text "resource_type",
      text "details",
      (integer "timestamp").required,
      (text "severity").required,
      text "ip_hash",
      text "user_agent"]),
    .run (.createTable .paymentAudits [
      (text "id").asKey,
      (text "order_id").required,
      (text "tx_hash").required,
      (text "address").required,
      (integer "amount").required,
      integer "credited_height",
      (integer "credited_at").required,
      (integer "verified").withDefault (.integer 0),
      integer "rollback_at",
      (integer "created_at").required]),
    .run (.createIndex .idxOrdersEscrow .orders ["escrow_address"]),
    .run (.createIndex .idxListingsSearch .listings ["encrypted_search"]),
    .run (.createIndex .idxAuditTimestamp .auditLogs ["timestamp"]),
    .run (.createIndex .idxAuditEvent .auditLogs ["event_type"]),
    .run (.createIndex .idxPaymentAuditTx .paymentAudits ["tx_hash"]),
    .run (.createIndex .idxPaymentAuditOrder .paymentAudits ["order_id"]),
    .run (.createIndex .idxListingsExpires .listings ["expires_at"])]
  description := "Added audit_logs, payment_audits tables and additional indexes"

def runMigrationV3 : Migration where
  version := 3
  actions := [
    .run (.createTable .disputes [
      (text "id").asKey,
      (text "order_id").required.asUnique,
      (text "opened_by").required,
      (text "reason").required,
      text "resolution",
      text "resolved_by",
      integer "resolved_at",
      (integer "created_at").required]),
    .run (.createTable .disputeEvidence [
      (text "id").asKey,
      (text "dispute_id").required,
      (text "submitted_by").required,
      (blob "encrypted_content").required,
      (text "content_type").required,
      (integer "created_at").required]),
    .run (.createIndex .idxDisputesOrder .disputes ["order_id"]),
    .run (.createIndex .idxDisputeEvidenceDispute .disputeEvidence ["dispute_id"]),
    .ensureColumn .orders (integer "disputed_at") true,
    .ensureColumn .orders (text "dispute_id") true]
  description :=
    "Added disputes, dispute_evidence tables, dispute_id and disputed_at on orders"

def runMigrationV4 : Migration where
  version := 4
  actions := [
    .ensureColumn .orders (text "owner_pubkey") true,
    .ensureColumn .orders (integer "fee_percent") true,
    .ensureColumn .orders (text "fee_address") true,
    .ensureColumn .orders (blob "multi_sig_key") true,
    .ensureColumn .orders (text "multi_sig_redeem_script") true,
    .ensureColumn .orders (blob "buyer_sig") true,
    .ensureColumn .orders (blob "seller_sig") true]
  description :=
    "Added escrow/multi-sig columns: owner_pubkey, fee_percent, fee_address, multi_sig_key, multi_sig_redeem_script, buyer_sig, seller_sig"

def runMigrationV5 : Migration where
  version := 5
  actions := [.ensureColumn .orders (integer "updated_at") true]
  description := "Added updated_at column to orders for state transition timestamps"

def runMigrationV6 : Migration where
  version := 6
  actions := [.run (.dropTable .auditLogs true), .run (.dropTable .paymentAudits true)]
  description := "Dropped audit_logs and payment_audits tables (anti-anonymity metadata)"

def runMigrationV7 : Migration where
  version := 7
  actions := [.run (.dropTable .users true)]
  description := "Dropped users table (stateless HMAC auth — no DB writes on register)"

def runMigrationV8 : Migration where
  version := 8
  actions := [
    .run (.dropTable .chatMessages true),
    .run (.dropTable .disputes true),
    .run (.dropTable .disputeEvidence true),
    .run (.dropIndex .idxChatOrder),
    .run (.dropIndex .idxDisputesOrder),
    .run (.dropIndex .idxDisputeEvidenceDispute)]
  description := "Dropped chat_messages, disputes, dispute_evidence tables"

def runMigrationV9 : Migration where
  version := 9
  actions := [
    .ensureColumn .orders (blob "encrypted_order_blob") true,
    .ensureColumn .orders (integer "day_bucket") true,
    .ensureColumn .orders (integer "expiry_bucket") true,
    .run (.dropIndex .idxOrdersBuyer),
    .run (.dropIndex .idxOrdersSeller),
    .run (.dropIndex .idxOrdersState),
    .run (.dropIndex .idxOrdersEscrow),
    .run (.createIndex .idxOrdersDayBucket .orders ["day_bucket"]),
    .run (.createIndex .idxOrdersExpiryBucket .orders ["expiry_bucket"])]
  description := "Added encrypted_order_blob, day_bucket, expiry_bucket to orders; new indexes"

/-- The rebuild of `orders`: create, copy, drop, rename. -/
def runMigrationV10 : Migration where
  version := 10
  actions := [
    .run (.createTable .ordersNew [
      (blob "id").asKey,
      blob "encrypted_order_blob",
      integer "day_bucket",
      integer "expiry_bucket"]),
    .run (.insertSelect .ordersNew [
      ("id", .column "id"),
      ("encrypted_order_blob", .column "encrypted_order_blob"),
      ("day_bucket", .column "day_bucket"),
      ("expiry_bucket", .column "expiry_bucket")] .orders),
    .run (.dropTable .orders),
    .run (.rename .ordersNew .orders),
    .run (.createIndex .idxOrdersDayBucket .orders ["day_bucket"]),
    .run (.createIndex .idxOrdersExpiryBucket .orders ["expiry_bucket"])]
  description :=
    "Dropped legacy columns from orders (kept: id, encrypted_order_blob, day_bucket, expiry_bucket)"

/-- The rebuild of `listings`, which drops the old indexes before the old table. -/
def runMigrationV11 : Migration where
  version := 11
  actions := [
    .run (.createTable .listingsNew [
      (blob "id").asKey,
      (blob "encrypted_listing_blob").required.withDefault (.blob []),
      (integer "day_bucket").required.withDefault (.integer 0),
      blob "search_token"]),
    .run (.insertSelect .listingsNew [
      ("id", .column "id"),
      ("encrypted_listing_blob", .literal (.blob [])),
      ("day_bucket", .literal (.integer 0)),
      ("search_token", .column "encrypted_search")] .listings),
    .run (.dropIndex .idxListingsSeller),
    .run (.dropIndex .idxListingsStatus),
    .run (.dropIndex .idxListingsSearch),
    .run (.dropIndex .idxListingsExpires),
    .run (.dropTable .listings),
    .run (.rename .listingsNew .listings),
    .run (.createIndex .idxListingsDayBucket .listings ["day_bucket"])]
  description :=
    "Rebuilt listings table: encrypted_listing_blob, day_bucket, search_token (dropped 11 plaintext columns)"

def runMigrationV12 : Migration where
  version := 12
  actions := [.ensureColumn .orders ((integer "version").required.withDefault (.integer 1)) true]
  description := "Added version column to orders for TOCTOU guard on concurrent writes"

def runMigrationV13 : Migration where
  version := 13
  actions := [
    .ensureColumn .orders ((integer "has_dispute").required.withDefault (.integer 0)) false,
    .run (.createIndex .idxOrdersHasDispute .orders ["has_dispute"])]
  description := "Added has_dispute column to orders (prevents full-table scans for dispute lookups)"

def runMigrationV14 : Migration where
  version := 14
  actions := [
    .ensureColumn .listings ((text "status").required.withDefault (.text "active")) false,
    .ensureColumn .listings ((text "currency").required.withDefault (.text "XMR")) false,
    .ensureColumn .listings ((integer "version").required.withDefault (.integer 1)) false,
    .run (.createIndex .idxListingsStatus .listings ["status"]),
    .run (.createIndex .idxListingsCurrency .listings ["currency"]),
    .run (.createIndex .idxListingsStatusCurrency .listings ["status", "currency"])]
  description := "Added status, currency, version columns to listings with indexes"

def runMigrationV15 : Migration where
  version := 15
  actions := [.ensureColumn .orders ((blob "client_encrypted_blob").withDefault .null) false]
  description := "Added client_encrypted_blob to orders for E2E client-side encryption"

def runMigrationV16 : Migration where
  version := 16
  actions := [.ensureColumn .orders ((blob "dispute_client_blob").withDefault .null) false]
  description := "Added dispute_client_blob to orders for E2E dispute encryption"

def runMigrationV17 : Migration where
  version := 17
  actions := [.ensureColumn .orders ((blob "chat_encrypted_blob").withDefault .null) false]
  description := "Added chat_encrypted_blob to orders for E2E chat encryption"

def runMigrationV18 : Migration where
  version := 18
  actions := [
    .run (.createTable .notificationTracker [
      (blob "tx_hash").asKey,
      (blob "order_id").required,
      (blob "buyer_pubkey").required,
      (integer "processed_at").required])]
  description := "Added notification_tracker table for OP_RETURN notification scanning"

def migrations : List Migration := [
  runMigrationV1, runMigrationV2, runMigrationV3, runMigrationV4, runMigrationV5, runMigrationV6,
  runMigrationV7, runMigrationV8, runMigrationV9, runMigrationV10, runMigrationV11, runMigrationV12,
  runMigrationV13, runMigrationV14, runMigrationV15, runMigrationV16, runMigrationV17, runMigrationV18]

/-! ## Running them -/

def columnExists (db : Database) (table : TableName) (column : String) : Bool :=
  match db.schema.columns table with
  | some present => column ∈ names present
  | none => false

/-- `none` is an error that the migration returns. -/
def Action.execute (db : Database) : Action → Option Database
  | .run st => db.exec st
  | .ensureColumn table column warns =>
    if columnExists db table column.name then some db
    else
      match db.exec (.addColumn table column) with
      | some db' => some db'
      | none => if warns then some db else none

def execute (db : Database) (actions : List Action) : Option Database :=
  actions.foldlM Action.execute db

/-- The columns of `schema_migrations`. -/
def tracking : List Column := [
  (integer "version").asKey,
  (integer "applied_at").required,
  text "description"]

def createSchemaMigrations : Action := .run (.createTable .schemaMigrations tracking)

def recorded (clock : Nat → Int64) (m : Migration) : List (String × Value) := [
  ("version", .integer m.version),
  ("applied_at", .integer (floorTimestamp6h (clock m.version)).toInt),
  ("description", .text m.description)]

/-- The last statement of a migration. -/
def record (clock : Nat → Int64) (m : Migration) : Action :=
  .run (.insert .schemaMigrations (recorded clock m))

def Migration.steps (clock : Nat → Int64) (m : Migration) : List Action :=
  m.actions ++ [record clock m]

def version? : Value → Option Int
  | .integer n => some n
  | _ => none

/-- `SELECT MAX(version)`, where a `NULL` reads as 0. -/
def dbVersion (db : Database) : Int :=
  (((db.rows .schemaMigrations).filterMap fun r => version? (r "version")).max?).getD 0

def pending (clock : Nat → Int64) (version : Int) : List Action :=
  (migrations.filter fun m => version < m.version).flatMap (Migration.steps clock)

def runSqliteMigrations (clock : Nat → Int64) (db : Database) : Option Database := do
  let db ← createSchemaMigrations.execute db
  execute db (pending clock (dbVersion db))

/-- Everything that `run_sqlite_migrations` sets out to do. -/
def script (clock : Nat → Int64) (db : Database) : List Action :=
  createSchemaMigrations :: pending clock (dbVersion db)

/-- The process stops after `n` steps of the script. -/
def interrupted (clock : Nat → Int64) (n : Nat) (db : Database) : Option Database :=
  execute db ((script clock db).take n)

end TorMarketplace.Migrations
