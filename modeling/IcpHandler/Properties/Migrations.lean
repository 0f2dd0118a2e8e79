import IcpHandler.Model.StateDb

/-
  The migrations of the state database. From whatever an older
  handler has left, one run of `run_migrations` completes the
  schema and loses nothing. Runs of several processes at once
  do so too, but one that comes to a migration whose version
  the other has recorded in the meantime fails.

  Main declarations:
    * `currentLayout`
    * `AtVersion`, `LeftByOlder`, `Migrated`, `Kept`
    * `migrations_converge`
    * `concurrent_startup_iff`
-/

------------------------------------------------------------
-- The Current Schema
------------------------------------------------------------

namespace IcpHandler

namespace Properties

open Data Schema Model

/- All columns that are added by an `ALTER TABLE`. -/
def additiveColumns : List (String × StateColumn) :=
  tenantIdColumns ++ queryColumns ++ reservationColumns

/- A table of the schema, with the columns added to it. -/
def tableLayout
    (name : String)
    (columns : List StateColumn) :
    TableLayout String ColumnValue :=
  let additive :=
    (additiveColumns.filter (·.1 = name)).map Prod.snd
  { name := name
    base := columns.filter (· ∉ additive)
    additive := additive }

/- The indexes of the first schema. -/
def firstIndexes : List (Index String) :=
  schemaV1.filterMap fun
    | .createIndex index => some index
    | _ => none

/- The tables, columns and indexes of this handler. -/
def currentLayout : Layout String ColumnValue where
  tables :=
    schemaV1.filterMap fun
      | .createTable name columns _ =>
          some (tableLayout name columns)
      | _ => none
  indexes := firstIndexes ++ indexAdditions
  tables_apart := by decide +kernel
  columns_apart := by decide +kernel
  indexes_apart := by decide +kernel
  names_apart := by decide +kernel

instance (statement : Statement) :
    Decidable (currentLayout.Allows statement) :=
  match statement with
  | .createTable _ _ _ =>
      inferInstanceAs (Decidable (∃ _ ∈ _, _ ∧ _ ∧ _))
  | .addColumn _ _ =>
      inferInstanceAs (Decidable (∃ _ ∈ _, _ ∧ _))
  | .createIndex _ => inferInstanceAs (Decidable (_ ∈ _))

def namesOf
    (columns : List (String × StateColumn)) :
    List (String × String) :=
  columns.map fun added => (added.1, added.2.name)

/- The columns that are there once a version is recorded. -/
def broughtBy : Nat → List (String × String)
  | 1 =>
      currentLayout.tables.flatMap fun spec =>
        spec.base.map fun column => (spec.name, column.name)
  | 2 => namesOf tenantIdColumns
  | 3 => namesOf queryColumns
  | 4 => namesOf reservationColumns
  | _ => []

/- The indexes that are there once a version is recorded. -/
def indexesOf : Nat → List (Index String)
  | 1 => firstIndexes
  | 3 => indexAdditions
  | _ => []

/-
  Exactly the first versions are recorded, and what they add
  is there. Of all the rest there can be anything.
-/
structure AtVersion (count : Nat) (db : StateDb) : Prop where
  fits : currentLayout.Fits db.tables
  bound : count ≤ migrations.length
  versions : db.versions.Perm (List.range' 1 count)
  columns :
    ∀ version, 1 ≤ version → version ≤ count →
      Layout.Knows db.tables (broughtBy version)
  indexes :
    ∀ version, 1 ≤ version → version ≤ count →
      ∀ index ∈ indexesOf version,
        db.tables.indexes index.name = some index

/- What an older handler can have left behind. -/
def LeftByOlder (db : StateDb) : Prop :=
  ∃ count, AtVersion count db

/- The whole schema is there, and every version recorded. -/
structure Migrated (db : StateDb) : Prop where
  complete : currentLayout.Complete db.tables
  versions :
    db.versions.Perm (migrations.map Migration.version)

/- No row is lost, and none has changed. -/
structure Kept (db db' : StateDb) : Prop where
  tables : db.tables.Extends db'.tables
  stamps : db.stamps.getD [] <+: db'.stamps.getD []

theorem Kept.refl (db : StateDb) : Kept db db :=
  ⟨.refl db.tables, List.prefix_rfl⟩

theorem Kept.trans
    {db db' db'' : StateDb}
    (hFirst : Kept db db')
    (hSecond : Kept db' db'') : Kept db db'' :=
  ⟨hFirst.tables.trans hSecond.tables,
    hFirst.stamps.trans hSecond.stamps⟩

end Properties

end IcpHandler

------------------------------------------------------------
-- One Migration
------------------------------------------------------------

namespace IcpHandler

namespace Properties

open Data Schema Model

variable {db db' : StateDb}
variable {count : Nat}
variable {migration : Migration}

/- The migrations are numbered from one on. -/
private theorem version_eq
    {at_ : Nat}
    (hGet : migrations[at_]? = some migration) :
    migration.version = at_ + 1 := by
  have hAll :
      ∀ place : Fin migrations.length,
        migrations[place].version = place + 1 := by
    decide
  obtain ⟨hLt, rfl⟩ := List.getElem?_eq_some_iff.mp hGet
  exact hAll ⟨at_, hLt⟩

/- A script of the schema, by what it needs and brings. -/
private theorem script_ok
    (tolerates : DdlError → Bool)
    (script : List Statement)
    (known brings : List (String × String))
    {tables : StateTables}
    (hFits : currentLayout.Fits tables)
    (hKnows : Layout.Knows tables known)
    (hAllows :
      ∀ statement ∈ script, currentLayout.Allows statement)
    (hSupplies :
      ((currentLayout.supplies tolerates known script).any
        fun more => brings.all (· ∈ more)) = true) :
    ∃ tables',
      Database.runScript tolerates script tables =
          .ok tables' ∧
        currentLayout.Fits tables' ∧
        tables.Extends tables' ∧
        Layout.Knows tables' brings ∧
        ∀ index, .createIndex index ∈ script →
          tables'.indexes index.name = some index := by
  obtain ⟨more, hMore, hAll⟩ :=
    (Option.any_eq_true _ _).mp hSupplies
  obtain ⟨tables', hRun, hFits', hKnows', hIndexes⟩ :=
    hFits.runScript hKnows hAllows hMore
  refine ⟨tables', hRun, hFits', Database.runScript_extends hRun,
    fun pair hMem => hKnows' pair ?_, hIndexes⟩
  exact of_decide_eq_true (List.all_eq_true.mp hAll pair hMem)

/- The strict scripts of the schema fit it. -/
private theorem scripts_fit :
    ∀ step ∈
        [([], schemaV1, broughtBy 1),
          (broughtBy 1 ++ broughtBy 2 ++ broughtBy 3,
            indexAdditions.map .createIndex, broughtBy 3)],
      (∀ statement ∈ step.2.1,
        currentLayout.Allows statement) ∧
      ((currentLayout.supplies strict step.1 step.2.1).any
        fun more => step.2.2.all (· ∈ more)) = true := by
  decide +kernel

/- So do the columns that are added to its tables. -/
private theorem additions_fit :
    ∀ columns ∈
        [tenantIdColumns, queryColumns, reservationColumns],
      (∀ statement ∈ additions columns,
        currentLayout.Allows statement) ∧
      ((currentLayout.supplies passesOver (broughtBy 1)
        (additions columns)).any
          fun more =>
            (namesOf columns).all (· ∈ more)) = true := by
  decide +kernel

/- What a migration has to do to be the next one. -/
private def Brings
    (version : Nat)
    (tables : StateTables)
    (result : Except DdlError StateTables) : Prop :=
  ∃ tables', result = .ok tables' ∧
    currentLayout.Fits tables' ∧ tables.Extends tables' ∧
    Layout.Knows tables' (broughtBy version) ∧
    ∀ index ∈ indexesOf version,
      tables'.indexes index.name = some index

private theorem brings_v1
    {tables : StateTables}
    (hFits : currentLayout.Fits tables) :
    Brings 1 tables (migrationV1 tables) := by
  obtain ⟨hAllows, hSupplies⟩ :=
    scripts_fit _ List.mem_cons_self
  obtain ⟨tables', hRun, hFits', hExtends, hKnows, hIndexes⟩ :=
    script_ok strict schemaV1 [] (broughtBy 1) hFits
      (fun _ hMem => by cases hMem) hAllows hSupplies
  refine ⟨tables', hRun, hFits', hExtends, hKnows, ?_⟩
  intro index hMem
  apply hIndexes
  obtain ⟨statement, hStatement, hSame⟩ :=
    List.mem_filterMap.mp hMem
  cases statement with
  | createTable name columns key => cases hSame
  | addColumn table column => cases hSame
  | createIndex other =>
      cases hSame
      exact hStatement

/- Columns are added to tables that are there. -/
private theorem brings_columns
    {columns : List (String × StateColumn)}
    (hColumns :
      columns ∈
        [tenantIdColumns, queryColumns, reservationColumns])
    {tables : StateTables}
    (hFits : currentLayout.Fits tables)
    (hKnows : Layout.Knows tables (broughtBy 1)) :
    ∃ tables',
      addColumnsIdempotent columns tables = .ok tables' ∧
        currentLayout.Fits tables' ∧
        tables.Extends tables' ∧
        Layout.Knows tables' (namesOf columns) := by
  obtain ⟨hAllows, hSupplies⟩ := additions_fit columns hColumns
  obtain ⟨tables', hRun, hFits', hExtends, hKnows', _⟩ :=
    script_ok passesOver (additions columns) (broughtBy 1)
      (namesOf columns) hFits hKnows hAllows hSupplies
  exact ⟨tables', hRun, hFits', hExtends, hKnows'⟩

private theorem brings_v2
    {tables : StateTables}
    (hFits : currentLayout.Fits tables)
    (hFirst : Layout.Knows tables (broughtBy 1)) :
    Brings 2 tables (migrationV2 tables) := by
  obtain ⟨tables', hRun, hFits', hExtends, hKnows⟩ :=
    brings_columns List.mem_cons_self hFits hFirst
  exact ⟨tables', hRun, hFits', hExtends, hKnows,
    fun _ hMem => by cases hMem⟩

private theorem brings_v3
    {tables : StateTables}
    (hFits : currentLayout.Fits tables)
    (hFirst : Layout.Knows tables (broughtBy 1))
    (hSecond : Layout.Knows tables (broughtBy 2)) :
    Brings 3 tables (migrationV3 tables) := by
  obtain ⟨middle, hRun, hFits', hExtends, hKnows⟩ :=
    brings_columns
      (List.mem_cons_of_mem _ List.mem_cons_self) hFits hFirst
  -- the indexes need the columns of all three
  have hAll :
      Layout.Knows middle
        (broughtBy 1 ++ broughtBy 2 ++ broughtBy 3) := by
    intro pair hMem
    rcases List.mem_append.mp hMem with hOld | hNew
    · rcases List.mem_append.mp hOld with hMem | hMem
      · exact (hFirst pair hMem).mono hExtends
      · exact (hSecond pair hMem).mono hExtends
    · exact hKnows pair hNew
  obtain ⟨hAllows, hSupplies⟩ :=
    scripts_fit _ (List.mem_cons_of_mem _ List.mem_cons_self)
  obtain ⟨tables', hRun', hFits'', hExtends', hKnows', hIndexes⟩ :=
    script_ok strict (indexAdditions.map .createIndex)
      (broughtBy 1 ++ broughtBy 2 ++ broughtBy 3) (broughtBy 3)
      hFits' hAll hAllows hSupplies
  refine ⟨tables', ?_, hFits'', hExtends.trans hExtends',
    hKnows', fun index hMem => ?_⟩
  · rw [migrationV3, hRun]
    exact hRun'
  · exact hIndexes index (List.mem_map_of_mem hMem)

private theorem brings_v4
    {tables : StateTables}
    (hFits : currentLayout.Fits tables)
    (hFirst : Layout.Knows tables (broughtBy 1)) :
    Brings 4 tables (migrationV4 tables) := by
  obtain ⟨tables', hRun, hFits', hExtends, hKnows⟩ :=
    brings_columns
      (List.mem_cons_of_mem _
        (List.mem_cons_of_mem _ List.mem_cons_self))
      hFits hFirst
  exact ⟨tables', hRun, hFits', hExtends, hKnows,
    fun _ hMem => by cases hMem⟩

/- The next migration goes through. -/
private theorem AtVersion.brings
    (hAt : AtVersion count db)
    (hGet : migrations[count]? = some migration) :
    Brings migration.version db.tables
      (migration.body db.tables) := by
  have hKnows := hAt.columns
  match count with
  | 0 =>
      cases hGet
      exact brings_v1 hAt.fits
  | 1 =>
      cases hGet
      exact brings_v2 hAt.fits (hKnows 1 (by omega) (by omega))
  | 2 =>
      cases hGet
      exact brings_v3 hAt.fits (hKnows 1 (by omega) (by omega))
        (hKnows 2 (by omega) (by omega))
  | 3 =>
      cases hGet
      exact brings_v4 hAt.fits (hKnows 1 (by omega) (by omega))
  | count + 4 => cases hGet

/- A version is recorded if it is one of the first. -/
private theorem AtVersion.mem_versions
    (hAt : AtVersion count db)
    {version : Nat} :
    version ∈ db.versions ↔ 1 ≤ version ∧ version ≤ count := by
  rw [hAt.versions.mem_iff, List.mem_range'_1]
  omega

/- The version of a stamp is recorded. -/
private theorem any_version
    {stamps : List Stamp}
    (hStamps : db.stamps = some stamps)
    (version : Nat) :
    stamps.any (·.version = version) = true ↔
      version ∈ db.versions := by
  rw [StateDb.versions, hStamps, List.any_eq_true,
    Option.getD_some, List.mem_map]
  simp only [decide_eq_true_eq]

/- The next migration is applied and recorded. -/
private theorem AtVersion.migrate
    (hAt : AtVersion count db)
    (hTable : db.stamps.isSome = true)
    (hGet : migrations[count]? = some migration)
    (now : DateTime) :
    ∃ db', db.migrate migration now = .ok db' ∧
      AtVersion (count + 1) db' ∧ Kept db db' ∧
      db'.stamps.isSome = true := by
  have hVersion := version_eq hGet
  obtain ⟨tables', hBody, hFits, hExtends, hKnows, hIndexes⟩ :=
    hAt.brings hGet
  obtain ⟨stamps, hStamps⟩ :=
    Option.isSome_iff_exists.mp hTable
  have hNew :
      ¬ stamps.any (·.version = migration.version) = true := by
    rw [any_version hStamps, hAt.mem_versions]
    omega
  have hMigrate :
      db.migrate migration now =
        .ok
          ⟨tables',
            some
              (stamps ++
                [⟨migration.version, migration.name, now⟩])⟩
      := by
    rw [StateDb.migrate, hBody, hStamps]
    exact if_neg hNew
  refine ⟨_, hMigrate, ?_, ?_, rfl⟩
  · constructor
    · exact hFits
    · obtain ⟨hLt, _⟩ := List.getElem?_eq_some_iff.mp hGet
      exact hLt
    · have hBefore := hAt.versions
      rw [StateDb.versions, hStamps] at hBefore
      rw [StateDb.versions, List.range'_concat, Option.getD_some,
        List.map_append]
      apply hBefore.append
      rw [List.map_singleton, hVersion, Nat.one_mul,
        Nat.add_comm]
    · intro version hFrom hTo
      rcases Nat.lt_or_eq_of_le hTo with hOld | hLast
      · exact (hAt.columns version hFrom (by omega)).mono
          hExtends
      · rw [hLast, ← hVersion]
        exact hKnows
    · intro version hFrom hTo index hMem
      rcases Nat.lt_or_eq_of_le hTo with hOld | hLast
      · exact hExtends.indexes _ _
          (hAt.indexes version hFrom (by omega) index hMem)
      · rw [hLast, ← hVersion] at hMem
        exact hIndexes index hMem
  · constructor
    · exact hExtends
    · rw [hStamps]
      exact List.prefix_append _ _

/- A migration whose version is recorded is rolled back. -/
private theorem AtVersion.migrate_again
    (hAt : AtVersion count db)
    (hTable : db.stamps.isSome = true)
    {at_ : Nat}
    (hLt : at_ < count)
    (hGet : migrations[at_]? = some migration)
    (now : DateTime) :
    ∃ e, db.migrate migration now = .error e := by
  obtain ⟨stamps, hStamps⟩ :=
    Option.isSome_iff_exists.mp hTable
  rw [StateDb.migrate, hStamps]
  cases migration.body db.tables with
  | error e => exact ⟨_, rfl⟩
  | ok tables =>
      have hThere :
          stamps.any (·.version = migration.version) = true
        := by
        rw [any_version hStamps, hAt.mem_versions,
          version_eq hGet]
        omega
      exact ⟨_, if_pos hThere⟩

/- All columns and indexes come with some version. -/
private theorem AtVersion.migrated
    (hAt : AtVersion count db)
    (hAll : migrations.length ≤ count) : Migrated db := by
  have hCount : count = 4 :=
    Nat.le_antisymm hAt.bound hAll
  subst hCount
  constructor
  · have hColumns :
        ∀ spec ∈ currentLayout.tables,
          spec.columns ≠ [] ∧ ∀ column ∈ spec.columns,
            ∃ version ∈ [1, 2, 3, 4],
              (spec.name, column.name) ∈ broughtBy version := by
      decide
    have hIndexes :
        ∀ index ∈ currentLayout.indexes,
          ∃ version ∈ [1, 3], index ∈ indexesOf version := by
      decide
    have hHas :
        ∀ spec ∈ currentLayout.tables,
          ∀ column ∈ spec.columns,
            db.tables.HasColumn spec.name column.name := by
      intro spec hSpec column hColumn
      obtain ⟨version, hVersion, hPair⟩ :=
        (hColumns spec hSpec).2 column hColumn
      simp only [List.mem_cons, List.not_mem_nil, or_false]
        at hVersion
      exact hAt.columns version (by omega) (by omega) _ hPair
    apply hAt.fits.complete
    · intro spec hSpec
      refine ⟨?_, hHas spec hSpec⟩
      obtain ⟨column, hColumn⟩ :=
        List.exists_mem_of_ne_nil _ (hColumns spec hSpec).1
      obtain ⟨table, hTable, _⟩ := hHas spec hSpec column hColumn
      exact ⟨table, hTable⟩
    · intro index hIndex
      obtain ⟨version, hVersion, hMem⟩ := hIndexes index hIndex
      simp only [List.mem_cons, List.not_mem_nil, or_false]
        at hVersion
      exact hAt.indexes version (by omega) (by omega) index hMem
  · exact hAt.versions

end Properties

end IcpHandler

------------------------------------------------------------
-- Runs
------------------------------------------------------------

namespace IcpHandler

namespace Properties

open Data Schema Model Concurrency

variable {db db' : StateDb}
variable {count : Nat}
variable {migration : Migration}

/- What `run_migrations` does with the recorded versions. -/
def resume :
    Except MigrationError (List Nat) →
      MigrationProg (Except MigrationError Unit)
  | .error e => pure (.error e)
  | .ok applied => applyMissing applied migrations

/-
  How far a process can have come when the first versions are
  recorded. What it does not know of, or has yet to apply,
  begins at one of these or right after them.
-/
inductive Stage
    (db : StateDb)
    (count : Nat) :
    MigrationProg (Except MigrationError Unit) → Prop where
  | begun : Stage db count runMigrations
  | probing
      (hTable : db.stamps.isSome = true) :
      Stage db count (appliedVersionsInner >>= resume)
  | selecting
      (hTable : db.stamps.isSome = true) :
      Stage db count (selectVersions >>= resume)
  | applying
      (hTable : db.stamps.isSome = true)
      {done : Nat}
      (hDone : done ≤ count)
      {applied : List Nat}
      (hApplied : ∀ version ∈ applied, version ≤ count) :
      Stage db count
        (applyMissing applied (migrations.drop done))
  | failed (e : MigrationError) :
      Stage db count (.ret (.error e))

/- What others record takes nobody back. -/
private theorem Stage.mono
    {program : MigrationProg (Except MigrationError Unit)}
    {count' : Nat}
    (hStage : Stage db count program)
    (hCount : count ≤ count')
    (hTable :
      db.stamps.isSome = true → db'.stamps.isSome = true) :
    Stage db' count' program := by
  cases hStage with
  | begun => exact .begun
  | probing hHere => exact .probing (hTable hHere)
  | selecting hHere => exact .selecting (hTable hHere)
  | applying hHere hDone hApplied =>
      exact .applying (hTable hHere) (hDone.trans hCount)
        fun version hMem =>
          (hApplied version hMem).trans hCount
  | failed e => exact .failed e

/-
  The loop has come to an end, or goes on with a migration
  that comes no later than the next one.
-/
private theorem applyMissing_cases
    {applied : List Nat}
    {done : Nat}
    (hDone : done ≤ count)
    (hApplied : ∀ version ∈ applied, version ≤ count) :
    (applyMissing applied (migrations.drop done) =
        .ret (.ok ()) ∧ migrations.length ≤ count) ∨
      ∃ place migration, place ≤ count ∧
        migrations[place]? = some migration ∧
        applyMissing applied (migrations.drop done) =
          .step (.migrate migration) fun answer =>
            match (answer : Except MigrationError Unit) with
            | .error e => .ret (.error e)
            | .ok () =>
                applyMissing applied
                  (migrations.drop (place + 1)) := by
  generalize hRest : migrations.drop done = rest
  induction rest generalizing done with
  | nil =>
      left
      exact ⟨rfl, (List.drop_eq_nil_iff.mp hRest).trans hDone⟩
  | cons migration rest ih =>
      have hGet : migrations[done]? = some migration := by
        rw [← List.head?_drop, hRest]
        rfl
      have hNext : migrations.drop (done + 1) = rest := by
        rw [← List.tail_drop, hRest]
        rfl
      rw [applyMissing]
      by_cases hKnown :
          applied.contains migration.version = true
      · -- a version it knows of is recorded
        rw [if_pos hKnown]
        have hBound :=
          hApplied _ (List.contains_iff_mem.mp hKnown)
        rw [version_eq hGet] at hBound
        exact ih hBound hNext
      · rw [if_neg hKnown]
        right
        refine ⟨done, migration, hDone, hGet, ?_⟩
        rw [hNext]
        apply congrArg (Prog.step _)
        funext answer
        cases answer with
        | error e => rfl
        | ok value => rfl

/- The version was not recorded when its turn came. -/
def NotOvertaken
    (o : Occurrence MigrationEff.Res StateDb) : Prop :=
  ∀ migration, o.effect = .migrate migration →
    migration.version ∉ o.before.versions

/- The loop does not fail before it has tried something. -/
private theorem applyMissing_ne_error
    (applied : List Nat)
    (rest : List Migration)
    (e : MigrationError) :
    applyMissing applied rest ≠ .ret (.error e) := by
  induction rest with
  | nil => intro hSame; cases hSame
  | cons migration rest ih =>
      rw [applyMissing]
      split
      · exact ih
      · intro hSame
        cases hSame

/- The outcome of one step of a process. -/
private structure Stepped
    (db : StateDb)
    (count : Nat)
    (effect : MigrationEff)
    (program : MigrationProg (Except MigrationError Unit))
    (db' : StateDb)
    (count' : Nat) : Prop where
  count : count ≤ count'
  version : AtVersion count' db'
  kept : Kept db db'
  table : db.stamps.isSome = true → db'.stamps.isSome = true
  stage : Stage db' count' program
  fails :
    (∃ e, program = .ret (.error e)) ↔
      ∃ migration, effect = .migrate migration ∧
        migration.version ∈ db.versions

/- A step that only looks. -/
private theorem AtVersion.looks
    {effect : MigrationEff}
    {program : MigrationProg (Except MigrationError Unit)}
    (hAt : AtVersion count db)
    (hStage : Stage db count program)
    (hGoesOn : ∀ e, program ≠ .ret (.error e))
    (hLooks : ∀ migration, effect ≠ .migrate migration) :
    Stepped db count effect program db count where
  count := Nat.le_refl _
  version := hAt
  kept := .refl db
  table := id
  stage := hStage
  fails := by
    constructor
    · rintro ⟨e, hFailed⟩
      exact absurd hFailed (hGoesOn e)
    · rintro ⟨migration, hSame, _⟩
      exact absurd hSame (hLooks migration)

/- The table is there after it has been ensured. -/
private theorem AtVersion.ensure
    (hAt : AtVersion count db) :
    AtVersion count
        { db with stamps := some (db.stamps.getD []) } ∧
      Kept db { db with stamps := some (db.stamps.getD []) } :=
  ⟨⟨hAt.fits, hAt.bound, hAt.versions, hAt.columns,
      hAt.indexes⟩, ⟨.refl db.tables, List.prefix_rfl⟩⟩

/-
  One step of one process: what it finds and leaves, and when
  it fails.
-/
private theorem Stage.step
    {program : MigrationProg (Except MigrationError Unit)}
    {effect : MigrationEff}
    {next :
      effect.Res → MigrationProg (Except MigrationError Unit)}
    {now : DateTime}
    {answer : effect.Res}
    (hAt : AtVersion count db)
    (hStage : Stage db count program)
    (hProgram : program = .step effect next)
    (hExec : execMigration now db effect = (answer, db')) :
    ∃ count', Stepped db count effect (next answer) db' count'
    := by
  cases hStage with
  | begun =>
      cases hProgram
      cases hExec
      obtain ⟨hEnsured, hKept⟩ := hAt.ensure
      refine ⟨count, Nat.le_refl _, hEnsured, hKept,
        fun _ => rfl, .probing rfl, ?_⟩
      constructor
      · rintro ⟨e, hFailed⟩
        cases hFailed
      · rintro ⟨migration, hSame, _⟩
        cases hSame
  | probing hTable =>
      cases hProgram
      cases hExec
      rw [hTable]
      exact ⟨count, hAt.looks (.selecting hTable)
        (fun e hFailed => by cases hFailed)
        (fun migration hSame => by cases hSame)⟩
  | selecting hTable =>
      cases hProgram
      obtain ⟨stamps, hStamps⟩ :=
        Option.isSome_iff_exists.mp hTable
      rw [execMigration, hStamps] at hExec
      cases hExec
      refine ⟨count, hAt.looks
        (.applying hTable (Nat.zero_le _) ?_)
        (fun e => applyMissing_ne_error _ _ e)
        (fun migration hSame => by cases hSame)⟩
      intro version hMem
      rw [(List.perm_insertionSort _ _).mem_iff] at hMem
      exact (hAt.mem_versions.mp hMem).2
  | applying hTable hDone hApplied =>
      rcases applyMissing_cases hDone hApplied with
        ⟨hEnd, _⟩ |
        ⟨place, migration, hPlace, hGet, hNext⟩
      · rw [hEnd] at hProgram
        cases hProgram
      rw [hNext] at hProgram
      cases hProgram
      rw [execMigration] at hExec
      rcases Nat.lt_or_eq_of_le hPlace with hLate | hNow
      · -- another process has recorded it
        obtain ⟨e, hFails⟩ :=
          hAt.migrate_again hTable hLate hGet now
        rw [hFails] at hExec
        cases hExec
        refine ⟨count, Nat.le_refl _, hAt, .refl db, id,
          .failed e, ?_⟩
        refine iff_of_true ⟨e, rfl⟩ ⟨migration, rfl, ?_⟩
        rw [hAt.mem_versions, version_eq hGet]
        omega
      · -- it is the next one
        subst hNow
        obtain ⟨after, hMigrate, hAfter, hKept, hThere⟩ :=
          hAt.migrate hTable hGet now
        rw [hMigrate] at hExec
        cases hExec
        refine ⟨place + 1, Nat.le_succ _, hAfter, hKept,
          fun _ => hThere, ?_, ?_⟩
        · exact .applying hThere (Nat.le_refl _)
            fun version hMem =>
              Nat.le_succ_of_le (hApplied version hMem)
        · apply iff_of_false
          · rintro ⟨e, hFailed⟩
            exact applyMissing_ne_error _ _ e hFailed
          · rintro ⟨other, hSame, hMem⟩
            cases hSame
            rw [hAt.mem_versions, version_eq hGet] at hMem
            omega
  | failed e => cases hProgram

end Properties

end IcpHandler

------------------------------------------------------------
-- One Process
------------------------------------------------------------

namespace IcpHandler

namespace Properties

open Data Schema Model Concurrency

variable {db : StateDb}
variable {count : Nat}

/- What is recorded is passed over. -/
private theorem applyMissing_recorded
    {applied : List Nat}
    {done : Nat}
    (hDone : done ≤ count)
    (hBound : count ≤ migrations.length)
    (hApplied :
      ∀ version, 1 ≤ version → version ≤ count →
        version ∈ applied) :
    applyMissing applied (migrations.drop done) =
      applyMissing applied (migrations.drop count) := by
  induction hDone using Nat.decreasingInduction with
  | self => rfl
  | of_succ done hLt ih =>
      have hGet : done < migrations.length := by omega
      rw [← ih, List.drop_eq_getElem_cons hGet, applyMissing]
      apply if_pos
      rw [List.contains_iff_mem]
      have hVersion :=
        version_eq (List.getElem?_eq_getElem hGet)
      rw [hVersion]
      exact hApplied _ (by omega) (by omega)

/-
  The loop of a process on its own, from the next migration
  on. By induction on the migrations that are left.
-/
private theorem eval_missing
    {applied : List Nat}
    {known : Nat}
    (hApplied : ∀ version ∈ applied, version ≤ known)
    {choices : List DateTime}
    {h : History MigrationEff.Res StateDb}
    (hKnown : known ≤ count)
    (hAt : AtVersion count h.world)
    (hTable : h.world.stamps.isSome = true)
    (hChoices : migrations.length ≤ count + choices.length) :
    ∃ h' rest,
      (applyMissing applied (migrations.drop count)).eval
          migrationMachine 0 choices h =
          some (.ok (), h', rest) ∧
        AtVersion migrations.length h'.world ∧
        h'.world.stamps.isSome = true ∧
        Kept h.world h'.world ∧
        (migrations.length ≤ count →
          h'.world = h.world) := by
  generalize hRest : migrations.drop count = left
  induction left generalizing count choices h with
  | nil =>
      have hAll := List.drop_eq_nil_iff.mp hRest
      have hCount := Nat.le_antisymm hAt.bound hAll
      subst hCount
      exact ⟨h, choices, rfl, hAt, hTable, .refl _,
        fun _ => rfl⟩
  | cons migration left ih =>
      have hGet : migrations[count]? = some migration := by
        rw [← List.head?_drop, hRest]
        rfl
      have hNext : migrations.drop (count + 1) = left := by
        rw [← List.tail_drop, hRest]
        rfl
      have hUnknown :
          ¬ applied.contains migration.version = true := by
        intro hKnows
        have hBound :=
          hApplied _ (List.contains_iff_mem.mp hKnows)
        rw [version_eq hGet] at hBound
        omega
      obtain ⟨hLt, _⟩ := List.getElem?_eq_some_iff.mp hGet
      cases choices with
      | nil =>
          rw [List.length_nil] at hChoices
          omega
      | cons now choices =>
          obtain ⟨after, hMigrate, hAfter, hKept, hThere⟩ :=
            hAt.migrate hTable hGet now
          let h₁ : History MigrationEff.Res StateDb :=
            h.push
              ⟨0, .migrate migration, .ok (), h.world, after⟩
          have hFewer :
              migrations.length ≤ count + 1 + choices.length :=
            by
              rw [List.length_cons] at hChoices
              omega
          obtain ⟨h', rest, hEval, hEnd, hStill, hKept', _⟩ :=
            ih (h := h₁) (by omega) hAfter hThere hFewer hNext
          refine ⟨h', rest, ?_, hEnd, hStill,
            hKept.trans hKept', fun hAll => by omega⟩
          rw [applyMissing, if_neg hUnknown]
          have hStep :
              migrationMachine.exec 0 now h.world
                  (.migrate migration) =
                some (.ok (), after) := by
            simp only [migrationMachine, execMigration,
              hMigrate]
          simp only [performMigration, Prog.perform,
            Prog.step_bind, Prog.ret_bind, Prog.eval, hStep]
          exact hEval

/- A process on its own brings every database up to date. -/
private theorem eval_run
    {choices : List DateTime}
    (hAt : AtVersion count db)
    (hChoices : migrations.length + 3 ≤ choices.length) :
    ∃ h rest,
      runMigrations.eval migrationMachine 0 choices
          (.start db) = some (.ok (), h, rest) ∧
        AtVersion migrations.length h.world ∧
        h.world.stamps.isSome = true ∧ Kept db h.world ∧
        (migrations.length ≤ count →
          db.stamps.isSome = true → h.world = db) := by
  match choices with
  | [] | [_] | [_, _] =>
      simp only [List.length_cons, List.length_nil] at hChoices
      omega
  | first :: second :: third :: choices =>
      obtain ⟨hEnsured, hKept⟩ := hAt.ensure
      let ensured : StateDb :=
        { db with stamps := some (db.stamps.getD []) }
      let applied := ensured.versions.insertionSort (· ≤ ·)
      let looked : History MigrationEff.Res StateDb :=
        ((History.start db).push
          ⟨0, .ensureTable, (), db, ensured⟩).push
          ⟨0, .probe, true, ensured, ensured⟩
      let h : History MigrationEff.Res StateDb :=
        looked.push
          ⟨0, .select, .ok applied, ensured, ensured⟩
      have hApplied :
          ∀ version, version ∈ applied ↔
            1 ≤ version ∧ version ≤ count := by
        intro version
        rw [(List.perm_insertionSort _ _).mem_iff]
        exact hEnsured.mem_versions
      have hLoop :
          runMigrations.eval migrationMachine 0
              (first :: second :: third :: choices)
              (.start db) =
            (applyMissing applied migrations).eval
              migrationMachine 0 choices h :=
        rfl
      have hSkip :
          applyMissing applied migrations =
            applyMissing applied (migrations.drop count) :=
        applyMissing_recorded (Nat.zero_le count) hAt.bound
          fun version hFrom hTo =>
            (hApplied version).mpr ⟨hFrom, hTo⟩
      have hEnough :
          migrations.length ≤ count + choices.length := by
        simp only [List.length_cons] at hChoices
        omega
      obtain ⟨h', rest, hEval, hEnd, hThere, hKept', hSame⟩ :=
        eval_missing (h := h)
          (fun version hMem => ((hApplied version).mp hMem).2)
          (Nat.le_refl count) hEnsured rfl hEnough
      refine ⟨h', rest, ?_, hEnd, hThere, hKept.trans hKept',
        fun hAll hTable => ?_⟩
      · rw [hLoop, hSkip]
        exact hEval
      · rw [hSame hAll]
        obtain ⟨stamps, hStamps⟩ :=
          Option.isSome_iff_exists.mp hTable
        change ensured = db
        rcases db with ⟨tables, _⟩
        cases hStamps
        rfl

end Properties

end IcpHandler

------------------------------------------------------------
-- Several Processes
------------------------------------------------------------

namespace IcpHandler

namespace Properties

open Data Schema Model Concurrency

variable {w : StateDb}
variable {processes : Nat}
variable {pool : Pool MigrationEff.Res StateDb
  (Except MigrationError Unit)}

/- Some processes that open the same database file. -/
def startUp
    (processes : Nat)
    (w : StateDb) :
    Pool MigrationEff.Res StateDb
      (Except MigrationError Unit) where
  history := .start w
  threads thread :=
    if thread < processes then runMigrations
    else .ret (.ok ())

/- What holds of every run of the processes. -/
private structure StartingUp
    (processes : Nat)
    (w : StateDb)
    (pool : Pool MigrationEff.Res StateDb
      (Except MigrationError Unit))
    (count : Nat) : Prop where
  version : AtVersion count pool.history.world
  kept : Kept w pool.history.world
  stages :
    ∀ thread < processes,
      Stage pool.history.world count (pool.threads thread)
  idle :
    ∀ thread, processes ≤ thread →
      pool.threads thread = .ret (.ok ())
  failed :
    (∃ thread < processes, ∃ e,
      pool.threads thread = .ret (.error e)) ↔
      ∃ o ∈ pool.history.past, ¬ NotOvertaken o

/- A step of some process. -/
private theorem StartingUp.step
    {count thread : Nat}
    {now : DateTime}
    {pool' : Pool MigrationEff.Res StateDb
      (Except MigrationError Unit)}
    (hStarting : StartingUp processes w pool count)
    (hStep :
      pool.step migrationMachine thread now = some pool') :
    ∃ count', StartingUp processes w pool' count' := by
  obtain ⟨effect, next, answer, after, hThread, hExec, hHistory,
    hMoved, hOthers⟩ := Pool.step_cases hStep
  have hThis : thread < processes := by
    by_contra hIdle
    rw [hStarting.idle thread (by omega)] at hThread
    cases hThread
  obtain ⟨count', hStepped⟩ :=
    (hStarting.stages thread hThis).step hStarting.version
      hThread (Option.some.inj hExec)
  have hWorld : pool'.history.world = after := by
    rw [hHistory]
    rfl
  refine ⟨count', ?_, ?_, ?_, ?_, ?_⟩
  · rw [hWorld]
    exact hStepped.version
  · rw [hWorld]
    exact hStarting.kept.trans hStepped.kept
  · intro other hOther
    rw [hWorld]
    by_cases hSame : other = thread
    · rw [hSame, hMoved]
      exact hStepped.stage
    · rw [hOthers other hSame]
      exact (hStarting.stages other hOther).mono hStepped.count
        hStepped.table
  · intro other hOther
    rw [hOthers other (by omega)]
    exact hStarting.idle other hOther
  · -- who fails now has been overtaken now
    have hFails :
        (∃ e, pool'.threads thread = .ret (.error e)) ↔
          ¬ NotOvertaken
            ⟨thread, effect, answer, pool.history.world,
              after⟩ := by
      rw [hMoved, hStepped.fails]
      unfold NotOvertaken
      push Not
      exact Iff.rfl
    rw [hHistory, History.push_past, List.exists_mem_cons_iff,
      ← hFails, ← hStarting.failed]
    constructor
    · rintro ⟨other, hOther, e, hFailed⟩
      by_cases hSame : other = thread
      · subst hSame
        exact .inl ⟨e, hFailed⟩
      · rw [hOthers other hSame] at hFailed
        exact .inr ⟨other, hOther, e, hFailed⟩
    · rintro (⟨e, hFailed⟩ | ⟨other, hOther, e, hFailed⟩)
      · exact ⟨thread, hThis, e, hFailed⟩
      · have hApart : other ≠ thread := by
          rintro rfl
          rw [hThread] at hFailed
          cases hFailed
        refine ⟨other, hOther, e, ?_⟩
        rw [hOthers other hApart]
        exact hFailed

/- A run of the processes, step by step. -/
private theorem StartingUp.run
    {count : Nat}
    {schedule : List (Nat × DateTime)}
    {pool' : Pool MigrationEff.Res StateDb
      (Except MigrationError Unit)}
    (hStarting : StartingUp processes w pool count)
    (hRun :
      pool.run migrationMachine schedule = some pool') :
    ∃ count', StartingUp processes w pool' count' := by
  induction schedule generalizing pool count with
  | nil =>
      cases hRun
      exact ⟨count, hStarting⟩
  | cons entry schedule ih =>
      rw [Pool.run, Option.bind_eq_some_iff] at hRun
      obtain ⟨middle, hStep, hRest⟩ := hRun
      obtain ⟨_, hMiddle⟩ := hStarting.step hStep
      exact ih hMiddle hRest

private theorem startUp_threads
    {thread : Nat}
    (hThread : thread < processes) :
    (startUp processes w).threads thread = runMigrations :=
  if_pos hThread

private theorem startingUp
    (hLeft : LeftByOlder w) :
    ∃ count,
      StartingUp processes w (startUp processes w) count := by
  obtain ⟨count, hAt⟩ := hLeft
  refine ⟨count, hAt, .refl w, ?_, ?_, ?_⟩
  · intro thread hThread
    rw [startUp_threads hThread]
    exact .begun
  · intro thread hThread
    exact if_neg (Nat.not_lt.mpr hThread)
  · apply iff_of_false
    · rintro ⟨thread, hThread, e, hFailed⟩
      rw [startUp_threads hThread] at hFailed
      cases hFailed
    · rintro ⟨o, hMem, _⟩
      cases hMem

/-
  Alone, `run_migrations` succeeds from whatever an older
  handler has left, completes the schema, keeps every row, and
  changes nothing when it is run again. Wherever it is stopped,
  it leaves a database of the same kind, with every row kept.
-/
theorem migrations_converge
    (hLeft : LeftByOlder w) :
    (∀ choices : List DateTime,
      migrations.length + 3 ≤ choices.length →
      ∃ h rest,
        runMigrations.eval migrationMachine 0 choices
            (.start w) = some (.ok (), h, rest) ∧
          Migrated h.world ∧ Kept w h.world ∧
          ∀ again : List DateTime,
            migrations.length + 3 ≤ again.length →
            ∃ h' rest',
              runMigrations.eval migrationMachine 0 again
                  (.start h.world) =
                some (.ok (), h', rest') ∧
              h'.world = h.world) ∧
      ∀ schedule pool,
        (startUp 1 w).run migrationMachine schedule =
          some pool →
        LeftByOlder pool.history.world ∧
          Kept w pool.history.world := by
  constructor
  · intro choices hChoices
    obtain ⟨count, hAt⟩ := hLeft
    obtain ⟨h, rest, hEval, hEnd, hThere, hKept, _⟩ :=
      eval_run hAt hChoices
    refine ⟨h, rest, hEval, hEnd.migrated (Nat.le_refl _),
      hKept, fun again hAgain => ?_⟩
    obtain ⟨h', rest', hEval', _, _, _, hSame⟩ :=
      eval_run hEnd hAgain
    exact ⟨h', rest', hEval', hSame (Nat.le_refl _) hThere⟩
  · intro schedule pool hRun
    obtain ⟨_, hStarting⟩ := startingUp hLeft
    obtain ⟨count, hStopped⟩ := hStarting.run hRun
    exact ⟨⟨count, hStopped.version⟩, hStopped.kept⟩

/-
  A database from before the versions: one table, one of its
  later columns, one row.
-/
def legacyDb : StateDb where
  tables :=
    { tables := fun name =>
        if name = "transactions" then
          some
            { columns :=
                [plain "id" "TEXT", notNull "payload_json" "TEXT",
                  notNull "updated_at" "TEXT",
                  blankText "tenant_id"]
              key := ["id"]
              rows :=
                [fun name =>
                  if name = "tenant_id" then .text "acme"
                  else .text "t1"] }
        else none
      indexes := fun _ => none }
  stamps := none

theorem legacyDb_leftByOlder : LeftByOlder legacyDb := by
  refine ⟨0, ?_, Nat.zero_le _, .refl _, ?_, ?_⟩
  · constructor
    · intro spec hSpec table hTable
      have hSpecs :
          ∀ spec ∈ currentLayout.tables,
            spec.name = "transactions" →
            spec.base ⊆
                [plain "id" "TEXT",
                  notNull "payload_json" "TEXT",
                  notNull "updated_at" "TEXT",
                  blankText "tenant_id"] ∧
              [plain "id" "TEXT", notNull "payload_json" "TEXT",
                  notNull "updated_at" "TEXT",
                  blankText "tenant_id"] ⊆ spec.columns := by
        decide
      dsimp only [legacyDb] at hTable
      split at hTable
      · rename_i hName
        cases hTable
        exact hSpecs spec hSpec hName
      · cases hTable
    · exact fun _ _ _ hFound => by cases hFound
    · decide
    · exact fun _ _ => rfl
  · exact fun version hFrom hTo => by omega
  · exact fun version hFrom hTo => by omega

/- The legacy database is brought up to date. -/
theorem migrations_converge_legacy :
    ∃ h rest,
      runMigrations.eval migrationMachine 0
          (List.replicate 7 0) (.start legacyDb) =
        some (.ok (), h, rest) ∧
      Migrated h.world ∧ Kept legacyDb h.world := by
  obtain ⟨h, rest, hEval, hMigrated, hKept, _⟩ :=
    (migrations_converge legacyDb_leftByOlder).1
      (List.replicate 7 0) (by decide)
  exact ⟨h, rest, hEval, hMigrated, hKept⟩

/- A process that has succeeded has seen every version. -/
private theorem Stage.succeeded
    {db : StateDb}
    {count : Nat}
    {program : MigrationProg (Except MigrationError Unit)}
    (hStage : Stage db count program)
    (hProgram : program = .ret (.ok ())) :
    migrations.length ≤ count := by
  cases hStage with
  | begun => cases hProgram
  | probing hTable => cases hProgram
  | selecting hTable => cases hProgram
  | applying hTable hDone hApplied =>
      rcases applyMissing_cases hDone hApplied with
        ⟨_, hAll⟩ | ⟨_, _, _, _, hNext⟩
      · exact hAll
      · rw [hNext] at hProgram
        cases hProgram
  | failed e => cases hProgram

/-
  When all processes have come to an end, all have succeeded
  and the schema is complete, exactly if none came to a
  migration whose version another had recorded.
-/
theorem concurrent_startup_iff
    {schedule : List (Nat × DateTime)}
    (hLeft : LeftByOlder w)
    (hSome : 0 < processes)
    (hRun :
      (startUp processes w).run migrationMachine schedule =
        some pool)
    (hDone :
      ∀ thread < processes,
        ∃ result, pool.threads thread = .ret result) :
    ((∀ thread < processes,
        pool.threads thread = .ret (.ok ())) ∧
      Migrated pool.history.world) ↔
      ∀ o ∈ pool.history.past, NotOvertaken o := by
  obtain ⟨_, hStarting⟩ := startingUp hLeft
  obtain ⟨count, hEnd⟩ := hStarting.run hRun
  have hFailed := hEnd.failed
  constructor
  · rintro ⟨hOk, _⟩
    by_contra hOvertaken
    push Not at hOvertaken
    obtain ⟨thread, hThread, e, hError⟩ :=
      hFailed.mpr hOvertaken
    rw [hOk thread hThread] at hError
    cases hError
  · intro hNone
    have hOk :
        ∀ thread < processes,
          pool.threads thread = .ret (.ok ()) := by
      intro thread hThread
      obtain ⟨result, hReturned⟩ := hDone thread hThread
      cases result with
      | ok value => exact hReturned
      | error e =>
          obtain ⟨o, hMem, hOvertaken⟩ :=
            hFailed.mp ⟨thread, hThread, e, hReturned⟩
          exact absurd (hNone o hMem) hOvertaken
    refine ⟨hOk, hEnd.version.migrated ?_⟩
    exact (hEnd.stages 0 hSome).succeeded (hOk 0 hSome)

/- The process has come to an end, and has succeeded or not. -/
private def endedWith
    (ok : Bool)
    (thread : Nat)
    (pool : Pool MigrationEff.Res StateDb
      (Except MigrationError Unit)) : Bool :=
  match pool.threads thread with
  | .ret (.ok ()) => ok
  | .ret (.error _) => !ok
  | .step _ _ => false

private theorem endedWith_iff
    {ok : Bool}
    {thread : Nat}
    (hEnded : endedWith ok thread pool = true) :
    ∃ result, pool.threads thread = .ret result ∧
      (result = .ok () ↔ ok = true) := by
  unfold endedWith at hEnded
  split at hEnded
  · rename_i hReturned
    exact ⟨_, hReturned, by simp [hEnded]⟩
  · rename_i e hReturned
    exact ⟨_, hReturned, by simpa using hEnded⟩
  · cases hEnded

/- One process after the other. -/
private def oneByOne : List (Nat × DateTime) :=
  List.replicate 7 (0, 0) ++ List.replicate 3 (1, 0)

/- Both have read the versions before one applies any. -/
private def bothAtOnce : List (Nat × DateTime) :=
  List.replicate 3 (0, 0) ++ List.replicate 3 (1, 0) ++
    List.replicate 4 (0, 0) ++ [(1, 0)]

/- How both of these end, computed once. -/
private instance startUps_run :
    Fact
      (((startUp 2 legacyDb).run migrationMachine oneByOne).any
          (fun pool =>
            endedWith true 0 pool && endedWith true 1 pool) =
          true ∧
        ((startUp 2 legacyDb).run migrationMachine
          bothAtOnce).any
          (fun pool =>
            endedWith true 0 pool && endedWith false 1 pool) =
          true) :=
  ⟨by decide +kernel⟩

/- Two processes that start one after the other. -/
theorem concurrent_startup_iff_legacy :
    ∃ pool,
      (startUp 2 legacyDb).run migrationMachine oneByOne =
          some pool ∧
        (((∀ thread < 2,
            pool.threads thread = .ret (.ok ())) ∧
          Migrated pool.history.world) ↔
          ∀ o ∈ pool.history.past, NotOvertaken o) ∧
        ∀ thread < 2, pool.threads thread = .ret (.ok ()) := by
  obtain ⟨pool, hPool, hEnded⟩ :=
    (Option.any_eq_true _ _).mp startUps_run.out.1
  obtain ⟨hFirst, hSecond⟩ := Bool.and_eq_true_iff.mp hEnded
  have hBoth :
      ∀ thread < 2, ∃ result,
        pool.threads thread = .ret result ∧
          (result = .ok () ↔ true = true) := by
    intro thread hThread
    match thread with
    | 0 => exact endedWith_iff hFirst
    | 1 => exact endedWith_iff hSecond
    | thread + 2 => omega
  refine ⟨pool, hPool,
    concurrent_startup_iff legacyDb_leftByOlder (by decide)
      hPool ?_, ?_⟩
  · intro thread hThread
    obtain ⟨result, hReturned, _⟩ := hBoth thread hThread
    exact ⟨result, hReturned⟩
  · intro thread hThread
    obtain ⟨result, hReturned, hOk⟩ := hBoth thread hThread
    rw [hReturned, hOk.mpr rfl]

/- The second process fails at the first version. -/
theorem concurrent_startup_fails :
    ¬ ∀ (w : StateDb) (schedule : List (Nat × DateTime))
        (pool : Pool MigrationEff.Res StateDb
          (Except MigrationError Unit)),
      LeftByOlder w →
      (startUp 2 w).run migrationMachine schedule =
        some pool →
      (∀ thread < 2,
        ∃ result, pool.threads thread = .ret result) →
      (∀ thread < 2, pool.threads thread = .ret (.ok ())) ∧
        Migrated pool.history.world := by
  intro hAll
  obtain ⟨pool, hPool, hEnded⟩ :=
    (Option.any_eq_true _ _).mp startUps_run.out.2
  obtain ⟨hFirst, hSecond⟩ := Bool.and_eq_true_iff.mp hEnded
  obtain ⟨result, hReturned, _⟩ := endedWith_iff hFirst
  obtain ⟨result', hReturned', hFailed⟩ :=
    endedWith_iff hSecond
  have hDone :
      ∀ thread < 2,
        ∃ result, pool.threads thread = .ret result := by
    intro thread hThread
    match thread with
    | 0 => exact ⟨result, hReturned⟩
    | 1 => exact ⟨result', hReturned'⟩
    | thread + 2 => omega
  have hOk :=
    (hAll legacyDb bothAtOnce pool legacyDb_leftByOlder hPool
      hDone).1 1 (by decide)
  rw [hReturned'] at hOk
  cases hOk
  exact absurd (hFailed.mp rfl) Bool.false_ne_true

end Properties

end IcpHandler
