import IcpHandler.Concurrency.Machine
import IcpHandler.Data.Schema
import IcpHandler.Model.Chrono
import Mathlib.Data.List.Sort

/-
  The state database: the migrations, and `run_migrations` as
  a program whose effects are the statements and transactions
  that SQLite runs on their own.

  Main declarations:
    * `schemaV1`, `Migration`, `migrations`
    * `StateDb`
    * `MigrationEff`, `migrationMachine`
    * `runMigrations`
-/

------------------------------------------------------------
-- Columns
------------------------------------------------------------

namespace IcpHandler

namespace Model

open Data Schema

/- A stored value, or what a column has by default. -/
inductive ColumnValue where
  | null
  | integer (value : Int)
  | text (value : String)
  /- `CURRENT_TIMESTAMP` -/
  | currentTimestamp
  deriving DecidableEq

abbrev StateColumn := Column String ColumnValue

abbrev Statement := Ddl String ColumnValue

abbrev StateTables := Database String ColumnValue

/- `name TYPE` -/
def plain (name sqlType : String) : StateColumn :=
  ⟨name, sqlType, false, .null⟩

/- `name TYPE NOT NULL` -/
def notNull (name sqlType : String) : StateColumn :=
  ⟨name, sqlType, true, .null⟩

/- `name TYPE NOT NULL DEFAULT value` -/
def defaulting
    (name sqlType : String)
    (value : ColumnValue) : StateColumn :=
  ⟨name, sqlType, true, value⟩

/- `name TEXT NOT NULL DEFAULT ''` -/
def blankText (name : String) : StateColumn :=
  defaulting name "TEXT" (.text "")

/- `SCHEMA_V1` -/
def schemaV1 : List Statement :=
  [.createTable "mandate_usage"
      [plain "jti" "TEXT",
        defaulting "spent_minor" "INTEGER" (.integer 0),
        plain "window_start" "TEXT"]
      ["jti"],
    .createTable "receipts"
      [plain "jti" "TEXT", notNull "kid" "TEXT",
        notNull "jws" "TEXT", notNull "body_digest" "TEXT",
        notNull "claims_json" "TEXT",
        defaulting "created_at" "TEXT" .currentTimestamp]
      ["jti"],
    .createTable "transactions"
      [plain "id" "TEXT", notNull "payload_json" "TEXT",
        notNull "updated_at" "TEXT", blankText "tenant_id",
        blankText "created_at", blankText "state",
        blankText "quote_expires_at"]
      ["id"],
    .createTable "subscriptions"
      [plain "id" "TEXT", notNull "payload_json" "TEXT",
        notNull "updated_at" "TEXT", blankText "tenant_id",
        blankText "created_at", blankText "status",
        blankText "next_charge_at",
        defaulting "payment_present" "INTEGER" (.integer 0)]
      ["id"],
    .createTable "peer_quotes"
      [plain "id" "TEXT", notNull "payload_json" "TEXT",
        notNull "updated_at" "TEXT", blankText "tenant_id",
        blankText "created_at", blankText "status",
        blankText "expires_at"]
      ["id"],
    .createTable "idempotency"
      [notNull "tenant_id" "TEXT",
        notNull "idempotency_key" "TEXT",
        notNull "request_digest" "TEXT",
        notNull "response_status" "INTEGER",
        notNull "response_body" "TEXT",
        notNull "created_at" "TEXT"]
      ["tenant_id", "idempotency_key"],
    .createIndex
      ⟨"idx_idempotency_age", "idempotency", ["created_at"]⟩,
    .createTable "webhook_deliveries"
      [plain "id" "TEXT", notNull "event_id" "TEXT",
        notNull "event_type" "TEXT", notNull "url" "TEXT",
        notNull "payload_json" "TEXT",
        notNull "status" "TEXT",
        defaulting "attempts" "INTEGER" (.integer 0),
        notNull "max_attempts" "INTEGER",
        notNull "next_attempt_at" "TEXT",
        plain "last_status_code" "INTEGER",
        plain "last_error" "TEXT",
        notNull "created_at" "TEXT",
        notNull "updated_at" "TEXT",
        plain "delivered_at" "TEXT", blankText "tenant_id"]
      ["id"],
    .createIndex
      ⟨"idx_webhook_status_next", "webhook_deliveries",
        ["status", "next_attempt_at"]⟩,
    .createTable "webhook_subscribers"
      [plain "id" "TEXT", notNull "tenant_id" "TEXT",
        notNull "url" "TEXT", notNull "secret" "TEXT",
        defaulting "active" "INTEGER" (.integer 1),
        notNull "created_at" "TEXT",
        notNull "updated_at" "TEXT"]
      ["id"],
    .createIndex
      ⟨"idx_webhook_subscribers_tenant_active",
        "webhook_subscribers", ["tenant_id", "active"]⟩]

/- The columns that `migration_v2_tenant_id_columns` adds. -/
def tenantIdColumns : List (String × StateColumn) :=
  [("transactions", blankText "tenant_id"),
    ("subscriptions", blankText "tenant_id"),
    ("peer_quotes", blankText "tenant_id"),
    ("webhook_deliveries", blankText "tenant_id"),
    ("mandate_usage", blankText "tenant_id")]

/- Those of `migration_v3_query_columns_and_indexes`. -/
def queryColumns : List (String × StateColumn) :=
  [("transactions", blankText "created_at"),
    ("transactions", blankText "state"),
    ("transactions", blankText "quote_expires_at"),
    ("subscriptions", blankText "created_at"),
    ("subscriptions", blankText "status"),
    ("subscriptions", blankText "next_charge_at"),
    ("subscriptions",
      defaulting "payment_present" "INTEGER" (.integer 0)),
    ("peer_quotes", blankText "created_at"),
    ("peer_quotes", blankText "status"),
    ("peer_quotes", blankText "expires_at")]

/- `INDEX_ADDITIONS` -/
def indexAdditions : List (Index String) :=
  [⟨"idx_webhook_deliveries_tenant_created",
      "webhook_deliveries", ["tenant_id", "created_at"]⟩,
    ⟨"idx_transactions_tenant_created", "transactions",
      ["tenant_id", "created_at"]⟩,
    ⟨"idx_transactions_tenant_state_created", "transactions",
      ["tenant_id", "state", "created_at"]⟩,
    ⟨"idx_transactions_expiry_due", "transactions",
      ["state", "quote_expires_at"]⟩,
    ⟨"idx_subscriptions_tenant_created", "subscriptions",
      ["tenant_id", "created_at"]⟩,
    ⟨"idx_subscriptions_tenant_status_created",
      "subscriptions", ["tenant_id", "status", "created_at"]⟩,
    ⟨"idx_subscriptions_renewal_due", "subscriptions",
      ["status", "payment_present", "next_charge_at"]⟩,
    ⟨"idx_peer_quotes_tenant_created", "peer_quotes",
      ["tenant_id", "created_at"]⟩,
    ⟨"idx_peer_quotes_tenant_status_created", "peer_quotes",
      ["tenant_id", "status", "created_at"]⟩,
    ⟨"idx_peer_quotes_expiry_due", "peer_quotes",
      ["status", "expires_at"]⟩]

/- What `migration_v4_idempotency_reservation_id` adds. -/
def reservationColumns : List (String × StateColumn) :=
  [("idempotency", blankText "reservation_id")]

end Model

end IcpHandler

------------------------------------------------------------
-- Migrations
------------------------------------------------------------

namespace IcpHandler

namespace Model

open Data Schema

/- `ALTER TABLE … ADD COLUMN` for each of the columns. -/
def additions
    (columns : List (String × StateColumn)) : List Statement :=
  columns.map fun added => .addColumn added.1 added.2

/- `execute_batch` stops at the first error. -/
def strict (_ : DdlError) : Bool :=
  false

/-
  What `add_columns_idempotent` passes over: "duplicate column
  name" and "no such table".
-/
def passesOver (e : DdlError) : Bool :=
  e = .duplicateColumn ∨ e = .noSuchTable

def addColumnsIdempotent
    (columns : List (String × StateColumn))
    (tables : StateTables) : Except DdlError StateTables :=
  Database.runScript passesOver (additions columns) tables

def migrationV1
    (tables : StateTables) : Except DdlError StateTables :=
  Database.runScript strict schemaV1 tables

def migrationV2
    (tables : StateTables) : Except DdlError StateTables :=
  addColumnsIdempotent tenantIdColumns tables

def migrationV3
    (tables : StateTables) : Except DdlError StateTables := do
  let tables ← addColumnsIdempotent queryColumns tables
  Database.runScript strict
    (indexAdditions.map .createIndex) tables

def migrationV4
    (tables : StateTables) : Except DdlError StateTables :=
  addColumnsIdempotent reservationColumns tables

structure Migration where
  version : Nat
  name : String
  body : StateTables → Except DdlError StateTables

/- `MIGRATIONS` -/
def migrations : List Migration :=
  [⟨1, "initial_schema", migrationV1⟩,
    ⟨2, "tenant_id_columns", migrationV2⟩,
    ⟨3, "denormalized_query_columns_and_indexes", migrationV3⟩,
    ⟨4, "idempotency_reservation_id", migrationV4⟩]

/- A row of `schema_migrations`. -/
structure Stamp where
  version : Nat
  name : String
  appliedAt : DateTime

/-
  The database file. The rows of `schema_migrations`, if there
  is such a table, are apart from the other tables.
-/
structure StateDb where
  tables : StateTables
  stamps : Option (List Stamp)

/- The versions that have been recorded. -/
def StateDb.versions (db : StateDb) : List Nat :=
  (db.stamps.getD []).map Stamp.version

inductive MigrationError where
  /- "prepare applied_versions" -/
  | prepare
  /- "run migration v{}: {}" -/
  | run (version : Nat) (name : String) (cause : DdlError)
  /- "stamp schema_migrations for v{}" -/
  | stamp (version : Nat)
  deriving DecidableEq

/-
  One migration: its body and its stamp in one transaction,
  which is rolled back if either fails. The version is the
  primary key of its stamp.
-/
def StateDb.migrate
    (db : StateDb)
    (migration : Migration)
    (now : DateTime) : Except MigrationError StateDb :=
  match migration.body db.tables with
  | .error e =>
      .error (.run migration.version migration.name e)
  | .ok tables =>
      match db.stamps with
      | none => .error (.stamp migration.version)
      | some stamps =>
          if stamps.any (·.version = migration.version) then
            .error (.stamp migration.version)
          else
            .ok
              { tables := tables
                stamps :=
                  some
                    (stamps ++
                      [⟨migration.version, migration.name,
                        now⟩]) }

end Model

end IcpHandler

------------------------------------------------------------
-- The Program
------------------------------------------------------------

namespace IcpHandler

namespace Model

open Data Schema Concurrency

/- What SQLite runs as a whole. -/
inductive MigrationEff where
  /- `CREATE TABLE IF NOT EXISTS schema_migrations` -/
  | ensureTable
  /- `SELECT COUNT(*) FROM sqlite_master` -/
  | probe
  /- `SELECT version FROM schema_migrations` -/
  | select
  /- a transaction -/
  | migrate (migration : Migration)

abbrev MigrationEff.Res : MigrationEff → Type
  | .ensureTable => Unit
  | .probe => Bool
  | .select => Except MigrationError (List Nat)
  | .migrate _ => Except MigrationError Unit

/- The choice is the reading of the clock. -/
def execMigration
    (now : DateTime)
    (db : StateDb) :
    (effect : MigrationEff) → effect.Res × StateDb
  | .ensureTable =>
      ((), { db with stamps := some (db.stamps.getD []) })
  | .probe => (db.stamps.isSome, db)
  | .select =>
      match db.stamps with
      | none => (.error .prepare, db)
      | some _ => (.ok (db.versions.insertionSort (· ≤ ·)), db)
  | .migrate migration =>
      match db.migrate migration now with
      | .error e => (.error e, db)
      | .ok db' => (.ok (), db')

/- No statement waits for longer than it may. -/
def migrationMachine :
    Machine MigrationEff.Res StateDb DateTime where
  exec _ now db effect := some (execMigration now db effect)

abbrev MigrationProg (α : Type) :=
  Prog MigrationEff.Res α

def ensureTable : MigrationProg Unit :=
  Prog.perform MigrationEff.ensureTable

def probeTable : MigrationProg Bool :=
  Prog.perform MigrationEff.probe

def selectVersions :
    MigrationProg (Except MigrationError (List Nat)) :=
  Prog.perform MigrationEff.select

def performMigration
    (migration : Migration) :
    MigrationProg (Except MigrationError Unit) :=
  Prog.perform (MigrationEff.migrate migration)

/- The loop of `run_migrations`. -/
def applyMissing
    (applied : List Nat) :
    List Migration → MigrationProg (Except MigrationError Unit)
  | [] => pure (.ok ())
  | migration :: rest =>
      if applied.contains migration.version then
        applyMissing applied rest
      else do
        match ← performMigration migration with
        | .error e => pure (.error e)
        | .ok () => applyMissing applied rest

/- `applied_versions_inner` -/
def appliedVersionsInner :
    MigrationProg (Except MigrationError (List Nat)) := do
  if ← probeTable then selectVersions else pure (.ok [])

/- `run_migrations` -/
def runMigrations :
    MigrationProg (Except MigrationError Unit) := do
  ensureTable
  match ← appliedVersionsInner with
  | .error e => pure (.error e)
  | .ok applied => applyMissing applied migrations

end Model

end IcpHandler
