import Mathlib.Data.List.Forall2
import Mathlib.Data.List.Nodup

/-
  Databases that grow: tables with columns and rows, indexes,
  and the statements that add to them. A layout says which
  tables, columns and indexes there can be; over a database of
  the layout a script that brings along what its indexes need
  succeeds, however much of it is there already.

  Main declarations:
    * `Column`, `Table`, `Index`, `Database`
    * `Ddl`, `Database.perform`, `Database.runScript`
    * `Database.Extends`
    * `Layout`, `Layout.Fits`, `Layout.supplies`
    * `Layout.Fits.runScript`
-/

------------------------------------------------------------
-- Tables
------------------------------------------------------------

namespace IcpHandler

namespace Data

namespace Schema

/- A column, with the value it takes in rows without it. -/
structure Column (N V : Type) where
  name : N
  sqlType : String
  notNull : Bool
  default : V
  deriving DecidableEq

/- A row has a value under every name of a column. -/
structure Table (N V : Type) where
  columns : List (Column N V)
  key : List N
  rows : List (N → V)

structure Index (N : Type) where
  name : N
  table : N
  columns : List N
  deriving DecidableEq

structure Database (N V : Type) where
  tables : N → Option (Table N V)
  indexes : N → Option (Index N)

/- The statements that add to a schema. -/
inductive Ddl (N V : Type) where
  /- `CREATE TABLE IF NOT EXISTS` -/
  | createTable
      (name : N)
      (columns : List (Column N V))
      (key : List N)
  /- `ALTER TABLE … ADD COLUMN` -/
  | addColumn (table : N) (column : Column N V)
  /- `CREATE INDEX IF NOT EXISTS` -/
  | createIndex (index : Index N)

inductive DdlError where
  | nameTaken
  | noSuchTable
  | noSuchColumn
  | duplicateColumn
  deriving DecidableEq

variable {N V : Type}

private theorem forall₂_trans
    {A : Type}
    {R S T : A → A → Prop}
    {first second third : List A}
    (hTrans : ∀ a b c, R a b → S b c → T a c)
    (hFirst : List.Forall₂ R first second)
    (hSecond : List.Forall₂ S second third) :
    List.Forall₂ T first third := by
  induction hFirst generalizing third with
  | nil =>
      cases hSecond
      exact .nil
  | cons hHead _ ih =>
      cases hSecond with
      | cons hHead' hTail' =>
          exact .cons (hTrans _ _ _ hHead hHead') (ih hTail')

namespace Table

/- The names of the columns. -/
def names (table : Table N V) : List N :=
  table.columns.map Column.name

variable [DecidableEq N]

/- The table with one more column, filled with its default. -/
def addColumn
    (table : Table N V)
    (column : Column N V) : Table N V :=
  { table with
    columns := table.columns ++ [column]
    rows :=
      table.rows.map fun row name =>
        if name = column.name then column.default
        else row name }

/- No column is lost, and no row changes in a column it had. -/
structure Extends (table table' : Table N V) : Prop where
  columns : table.columns <+: table'.columns
  key : table'.key = table.key
  rows :
    List.Forall₂
      (fun row row' =>
        ∀ column ∈ table.columns,
          row' column.name = row column.name)
      table.rows table'.rows

omit [DecidableEq N] in
theorem Extends.refl
    (table : Table N V) : table.Extends table := by
  constructor
  · exact List.prefix_rfl
  · rfl
  · rw [List.forall₂_same]
    exact fun _ _ _ _ => rfl

omit [DecidableEq N] in
theorem Extends.trans
    {table table' table'' : Table N V}
    (hFirst : table.Extends table')
    (hSecond : table'.Extends table'') :
    table.Extends table'' := by
  constructor
  · exact hFirst.columns.trans hSecond.columns
  · exact hSecond.key.trans hFirst.key
  · refine forall₂_trans ?_ hFirst.rows hSecond.rows
    intro row row' row'' hRow hRow' column hMem
    rw [hRow' column (hFirst.columns.subset hMem),
      hRow column hMem]

/- A new column leaves the others as they were. -/
theorem extends_addColumn
    {table : Table N V}
    {column : Column N V}
    (hNew : column.name ∉ table.names) :
    table.Extends (table.addColumn column) := by
  constructor
  · exact List.prefix_append _ _
  · rfl
  · unfold addColumn
    rw [List.forall₂_map_right_iff, List.forall₂_same]
    intro row _ other hOther
    apply if_neg
    intro hSame
    apply hNew
    rw [← hSame]
    exact List.mem_map_of_mem hOther

omit [DecidableEq N] in
theorem Extends.mem_names
    {table table' : Table N V}
    {name : N}
    (hExtends : table.Extends table')
    (hMem : name ∈ table.names) : name ∈ table'.names :=
  List.map_subset _ hExtends.columns.subset hMem

end Table

end Schema

end Data

end IcpHandler

------------------------------------------------------------
-- Statements
------------------------------------------------------------

namespace IcpHandler

namespace Data

namespace Schema

namespace Database

variable {N V : Type}

/- No table and no index is lost, and no row changes. -/
structure Extends (db db' : Database N V) : Prop where
  tables :
    ∀ name table, db.tables name = some table →
      ∃ table', db'.tables name = some table' ∧
        table.Extends table'
  indexes :
    ∀ name index, db.indexes name = some index →
      db'.indexes name = some index

theorem Extends.refl (db : Database N V) : db.Extends db := by
  constructor
  · exact fun _ table hTable => ⟨table, hTable, .refl table⟩
  · exact fun _ _ hIndex => hIndex

theorem Extends.trans
    {db db' db'' : Database N V}
    (hFirst : db.Extends db')
    (hSecond : db'.Extends db'') : db.Extends db'' := by
  constructor
  · intro name table hTable
    obtain ⟨table', hTable', hExtends⟩ :=
      hFirst.tables name table hTable
    obtain ⟨table'', hTable'', hExtends'⟩ :=
      hSecond.tables name table' hTable'
    exact ⟨table'', hTable'', hExtends.trans hExtends'⟩
  · intro name index hIndex
    exact hSecond.indexes name index
      (hFirst.indexes name index hIndex)

/- The table is there and has a column of the name. -/
def HasColumn
    (db : Database N V)
    (table name : N) : Prop :=
  ∃ found, db.tables table = some found ∧ name ∈ found.names

theorem HasColumn.mono
    {db db' : Database N V}
    {table name : N}
    (hColumn : db.HasColumn table name)
    (hExtends : db.Extends db') : db'.HasColumn table name := by
  obtain ⟨found, hFound, hMem⟩ := hColumn
  obtain ⟨found', hFound', hGrown⟩ :=
    hExtends.tables table found hFound
  exact ⟨found', hFound', hGrown.mem_names hMem⟩

variable [DecidableEq N]

def setTable
    (db : Database N V)
    (name : N)
    (table : Table N V) : Database N V :=
  { db with
    tables := fun other =>
      if other = name then some table else db.tables other }

def setIndex
    (db : Database N V)
    (index : Index N) : Database N V :=
  { db with
    indexes := fun other =>
      if other = index.name then some index
      else db.indexes other }

/- What a statement does. -/
def perform
    (db : Database N V) :
    Ddl N V → Except DdlError (Database N V)
  | .createTable name columns key =>
      if (db.tables name).isSome then .ok db
      else if (db.indexes name).isSome then .error .nameTaken
      else .ok (db.setTable name ⟨columns, key, []⟩)
  | .addColumn table column =>
      match db.tables table with
      | none => .error .noSuchTable
      | some found =>
          if column.name ∈ found.names then
            .error .duplicateColumn
          else .ok (db.setTable table (found.addColumn column))
  | .createIndex index =>
      if (db.indexes index.name).isSome then .ok db
      else if (db.tables index.name).isSome then
        .error .nameTaken
      else
        match db.tables index.table with
        | none => .error .noSuchTable
        | some found =>
            if index.columns.all (· ∈ found.names) then
              .ok (db.setIndex index)
            else .error .noSuchColumn

/- Statements one after another, some errors being ignored. -/
def runScript
    (tolerates : DdlError → Bool) :
    List (Ddl N V) → Database N V →
      Except DdlError (Database N V)
  | [], db => .ok db
  | statement :: rest, db =>
      match db.perform statement with
      | .ok db' => runScript tolerates rest db'
      | .error e =>
          if tolerates e then runScript tolerates rest db
          else .error e

theorem extends_setTable
    {db : Database N V}
    {name : N}
    {table : Table N V}
    (hGrows :
      ∀ found, db.tables name = some found →
        found.Extends table) :
    db.Extends (db.setTable name table) := by
  constructor
  · intro other found hFound
    by_cases hSame : other = name
    · subst hSame
      exact ⟨table, if_pos rfl, hGrows found hFound⟩
    · exact ⟨found, (if_neg hSame).trans hFound, .refl found⟩
  · exact fun _ _ hIndex => hIndex

theorem extends_setIndex
    {db : Database N V}
    {index : Index N}
    (hNew : db.indexes index.name = none) :
    db.Extends (db.setIndex index) := by
  constructor
  · exact fun _ table hTable => ⟨table, hTable, .refl table⟩
  · intro other found hFound
    have hOther : other ≠ index.name := by
      rintro rfl
      rw [hNew] at hFound
      cases hFound
    exact (if_neg hOther).trans hFound

/- A statement adds, and changes nothing that is there. -/
theorem perform_extends
    {db db' : Database N V}
    {statement : Ddl N V}
    (hPerform : db.perform statement = .ok db') :
    db.Extends db' := by
  cases statement with
  | createTable name columns key =>
      rw [perform] at hPerform
      split at hPerform
      · cases hPerform
        exact .refl db
      · rename_i hAbsent
        split at hPerform
        · cases hPerform
        · cases hPerform
          apply extends_setTable
          intro found hFound
          exact absurd (by rw [hFound]; rfl) hAbsent
  | addColumn table column =>
      rw [perform] at hPerform
      split at hPerform
      · cases hPerform
      · rename_i found hFound
        split at hPerform
        · cases hPerform
        · rename_i hNew
          cases hPerform
          apply extends_setTable
          intro other hOther
          rw [hFound] at hOther
          cases hOther
          exact Table.extends_addColumn hNew
  | createIndex index =>
      rw [perform] at hPerform
      split at hPerform
      · cases hPerform
        exact .refl db
      · rename_i hAbsent
        split at hPerform
        · cases hPerform
        · split at hPerform
          · cases hPerform
          · split at hPerform
            · cases hPerform
              apply extends_setIndex
              exact Option.not_isSome_iff_eq_none.mp hAbsent
            · cases hPerform

theorem runScript_extends
    {tolerates : DdlError → Bool}
    {script : List (Ddl N V)}
    {db db' : Database N V}
    (hRun : runScript tolerates script db = .ok db') :
    db.Extends db' := by
  induction script generalizing db with
  | nil =>
      cases hRun
      exact .refl _
  | cons statement rest ih =>
      rw [runScript] at hRun
      split at hRun
      · rename_i middle hPerform
        exact (perform_extends hPerform).trans (ih hRun)
      · split at hRun
        · exact ih hRun
        · cases hRun

end Database

end Schema

end Data

end IcpHandler

------------------------------------------------------------
-- Layouts
------------------------------------------------------------

namespace IcpHandler

namespace Data

namespace Schema

/-
  A table of a layout: the columns it always has, and those
  that may have been added.
-/
structure TableLayout (N V : Type) where
  name : N
  base : List (Column N V)
  additive : List (Column N V)

/- All columns of a table. -/
def TableLayout.columns
    {N V : Type}
    (spec : TableLayout N V) : List (Column N V) :=
  spec.base ++ spec.additive

/- Tables and indexes, no two of one name. -/
structure Layout (N V : Type) where
  tables : List (TableLayout N V)
  indexes : List (Index N)
  tables_apart : (tables.map TableLayout.name).Nodup
  columns_apart :
    ∀ spec ∈ tables, (spec.columns.map Column.name).Nodup
  indexes_apart : (indexes.map Index.name).Nodup
  names_apart :
    ∀ spec ∈ tables, ∀ index ∈ indexes, spec.name ≠ index.name

namespace Layout

variable {N V : Type}

/- Everything of the layout that is there is as it says. -/
structure Fits
    (layout : Layout N V)
    (db : Database N V) : Prop where
  tables :
    ∀ spec ∈ layout.tables, ∀ table,
      db.tables spec.name = some table →
      spec.base ⊆ table.columns ∧
        table.columns ⊆ spec.columns
  indexes :
    ∀ index ∈ layout.indexes, ∀ found,
      db.indexes index.name = some found → found = index
  tables_free :
    ∀ index ∈ layout.indexes, db.tables index.name = none
  indexes_free :
    ∀ spec ∈ layout.tables, db.indexes spec.name = none

/- Everything of the layout is there. -/
structure Complete
    (layout : Layout N V)
    (db : Database N V) : Prop where
  tables :
    ∀ spec ∈ layout.tables, ∃ table,
      db.tables spec.name = some table ∧
        ∀ column,
          column ∈ table.columns ↔ column ∈ spec.columns
  indexes :
    ∀ index ∈ layout.indexes,
      db.indexes index.name = some index

/- The statement adds what the layout has. -/
def Allows (layout : Layout N V) : Ddl N V → Prop
  | .createTable name columns _ =>
      ∃ spec ∈ layout.tables, spec.name = name ∧
        spec.base ⊆ columns ∧ columns ⊆ spec.columns
  | .addColumn table column =>
      ∃ spec ∈ layout.tables, spec.name = table ∧
        column ∈ spec.columns
  | .createIndex index => index ∈ layout.indexes

/- All these columns are there, by table and name. -/
def Knows
    (db : Database N V)
    (known : List (N × N)) : Prop :=
  ∀ pair ∈ known, db.HasColumn pair.1 pair.2

/- The columns that every table of a name has. -/
def promised
    [DecidableEq N]
    (layout : Layout N V)
    (name : N) : List (N × N) :=
  (layout.tables.filter (·.name = name)).flatMap fun spec =>
    spec.base.map fun column => (name, column.name)

/-
  What is known after a statement, if it can only go through
  or meet an error that is ignored.
-/
def supply
    [DecidableEq N]
    (layout : Layout N V)
    (tolerates : DdlError → Bool)
    (known : List (N × N)) : Ddl N V → Option (List (N × N))
  | .createTable name _ _ =>
      some (layout.promised name ++ known)
  | .addColumn table column =>
      if known.any (·.1 = table) ∧
          tolerates .duplicateColumn then
        some ((table, column.name) :: known)
      else none
  | .createIndex index =>
      if known.any (·.1 = index.table) ∧
          index.columns.all fun name =>
            (index.table, name) ∈ known then
        some known
      else none

/- What is known after a script. -/
def supplies
    [DecidableEq N]
    (layout : Layout N V)
    (tolerates : DdlError → Bool) :
    List (N × N) → List (Ddl N V) → Option (List (N × N))
  | known, [] => some known
  | known, statement :: rest =>
      (layout.supply tolerates known statement).bind fun more =>
        layout.supplies tolerates more rest

variable {layout : Layout N V}
variable {db db' : Database N V}
variable {known known' : List (N × N)}
variable {statement : Ddl N V}
variable {tolerates : DdlError → Bool}

theorem Knows.mono
    (hKnows : Knows db known)
    (hExtends : db.Extends db') : Knows db' known :=
  fun pair hMem => (hKnows pair hMem).mono hExtends

/- A column with the name of one of the layout is that one. -/
private theorem Fits.column_eq
    (hFits : layout.Fits db)
    {spec : TableLayout N V}
    (hSpec : spec ∈ layout.tables)
    {table : Table N V}
    (hTable : db.tables spec.name = some table)
    {column : Column N V}
    (hColumn : column ∈ spec.columns)
    (hName : column.name ∈ table.names) :
    column ∈ table.columns := by
  obtain ⟨found, hFound, hSame⟩ := List.mem_map.mp hName
  have hAllowed :=
    (hFits.tables spec hSpec table hTable).2 hFound
  have hEq : found = column :=
    List.inj_on_of_nodup_map (layout.columns_apart spec hSpec)
      hAllowed hColumn hSame
  rwa [← hEq]

/- A table that has all its columns is complete. -/
theorem Fits.complete
    (hFits : layout.Fits db)
    (hColumns :
      ∀ spec ∈ layout.tables,
        (∃ table, db.tables spec.name = some table) ∧
          ∀ column ∈ spec.columns,
            db.HasColumn spec.name column.name)
    (hIndexes :
      ∀ index ∈ layout.indexes,
        db.indexes index.name = some index) :
    layout.Complete db := by
  constructor
  · intro spec hSpec
    obtain ⟨⟨table, hTable⟩, hHas⟩ := hColumns spec hSpec
    refine ⟨table, hTable, fun column => ⟨?_, ?_⟩⟩
    · exact fun hMem =>
        (hFits.tables spec hSpec table hTable).2 hMem
    · intro hColumn
      obtain ⟨found, hFound, hName⟩ := hHas column hColumn
      rw [hTable] at hFound
      cases hFound
      exact hFits.column_eq hSpec hTable hColumn hName
  · exact hIndexes

/- What is complete stays so where everything fits. -/
theorem Complete.mono
    (hComplete : layout.Complete db)
    (hExtends : db.Extends db')
    (hFits : layout.Fits db') : layout.Complete db' := by
  apply hFits.complete
  · intro spec hSpec
    obtain ⟨table, hTable, hColumns⟩ :=
      hComplete.tables spec hSpec
    obtain ⟨table', hTable', hGrown⟩ :=
      hExtends.tables spec.name table hTable
    refine ⟨⟨table', hTable'⟩, fun column hColumn => ?_⟩
    refine ⟨table', hTable', hGrown.mem_names ?_⟩
    exact List.mem_map_of_mem ((hColumns column).mpr hColumn)
  · intro index hIndex
    exact hExtends.indexes index.name index
      (hComplete.indexes index hIndex)

end Layout

end Schema

end Data

end IcpHandler

------------------------------------------------------------
-- Scripts over a Layout
------------------------------------------------------------

namespace IcpHandler

namespace Data

namespace Schema

namespace Layout

variable {N V : Type}
variable [DecidableEq N]
variable {layout : Layout N V}
variable {db db' : Database N V}
variable {known known' : List (N × N)}
variable {statement : Ddl N V}
variable {tolerates : DdlError → Bool}

/- A table of the layout takes the place of what was there. -/
private theorem Fits.setTable
    (hFits : layout.Fits db)
    {spec : TableLayout N V}
    (hSpec : spec ∈ layout.tables)
    {table : Table N V}
    (hBase : spec.base ⊆ table.columns)
    (hColumns : table.columns ⊆ spec.columns) :
    layout.Fits (db.setTable spec.name table) := by
  constructor
  · intro other hOther found hFound
    by_cases hSame : other.name = spec.name
    · have hEq : other = spec :=
        List.inj_on_of_nodup_map layout.tables_apart hOther
          hSpec hSame
      subst hEq
      have hTable : some table = some found :=
        (if_pos rfl).symm.trans hFound
      cases hTable
      exact ⟨hBase, hColumns⟩
    · exact hFits.tables other hOther found
        ((if_neg hSame).symm.trans hFound)
  · exact hFits.indexes
  · intro index hIndex
    have hApart :=
      layout.names_apart spec hSpec index hIndex
    exact (if_neg hApart.symm).trans
      (hFits.tables_free index hIndex)
  · exact hFits.indexes_free

private theorem Fits.setIndex
    (hFits : layout.Fits db)
    {index : Index N}
    (hIndex : index ∈ layout.indexes) :
    layout.Fits (db.setIndex index) := by
  constructor
  · exact hFits.tables
  · intro other hOther found hFound
    by_cases hSame : other.name = index.name
    · have hEq : other = index :=
        List.inj_on_of_nodup_map layout.indexes_apart hOther
          hIndex hSame
      subst hEq
      have hPlaced : some other = some found :=
        (if_pos rfl).symm.trans hFound
      cases hPlaced
      rfl
    · exact hFits.indexes other hOther found
        ((if_neg hSame).symm.trans hFound)
  · exact hFits.tables_free
  · intro spec hSpec
    have hApart :=
      layout.names_apart spec hSpec index hIndex
    exact (if_neg hApart).trans (hFits.indexes_free spec hSpec)

/- A statement of the layout keeps to it. -/
theorem Fits.perform
    (hFits : layout.Fits db)
    (hAllows : layout.Allows statement)
    (hPerform : db.perform statement = .ok db') :
    layout.Fits db' := by
  cases statement with
  | createTable name columns key =>
      obtain ⟨spec, hSpec, rfl, hBase, hColumns⟩ := hAllows
      rw [Database.perform] at hPerform
      split at hPerform
      · cases hPerform
        exact hFits
      · split at hPerform
        · cases hPerform
        · cases hPerform
          exact hFits.setTable hSpec hBase hColumns
  | addColumn table column =>
      obtain ⟨spec, hSpec, rfl, hColumn⟩ := hAllows
      rw [Database.perform] at hPerform
      split at hPerform
      · cases hPerform
      · rename_i found hFound
        split at hPerform
        · cases hPerform
        · cases hPerform
          obtain ⟨hBase, hColumns⟩ :=
            hFits.tables spec hSpec found hFound
          apply hFits.setTable hSpec
          · exact fun other hMem =>
              List.mem_append_left _ (hBase hMem)
          · intro other hMem
            rcases List.mem_append.mp hMem with hOld | hNew
            · exact hColumns hOld
            · rw [List.mem_singleton.mp hNew]
              exact hColumn
  | createIndex index =>
      rw [Database.perform] at hPerform
      split at hPerform
      · cases hPerform
        exact hFits
      · split at hPerform
        · cases hPerform
        · split at hPerform
          · cases hPerform
          · split at hPerform
            · cases hPerform
              exact hFits.setIndex hAllows
            · cases hPerform

/- An index that has been created is there. -/
private theorem Fits.index_created
    (hFits : layout.Fits db)
    {index : Index N}
    (hIndex : index ∈ layout.indexes)
    (hPerform : db.perform (.createIndex index) = .ok db') :
    db'.indexes index.name = some index := by
  rw [Database.perform] at hPerform
  split at hPerform
  · rename_i hThere
    cases hPerform
    obtain ⟨found, hFound⟩ := Option.isSome_iff_exists.mp hThere
    rw [hFound, hFits.indexes index hIndex found hFound]
  · split at hPerform
    · cases hPerform
    · split at hPerform
      · cases hPerform
      · split at hPerform
        · cases hPerform
          exact if_pos rfl
        · cases hPerform

/- A table that has been created has its first columns. -/
private theorem Fits.table_created
    (hFits : layout.Fits db)
    {name : N}
    (hTable : (db.tables name).isSome) :
    Knows db (layout.promised name) := by
  obtain ⟨table, hTable⟩ := Option.isSome_iff_exists.mp hTable
  intro pair hMem
  obtain ⟨spec, hSpec, hPair⟩ := List.mem_flatMap.mp hMem
  obtain ⟨column, hColumn, rfl⟩ := List.mem_map.mp hPair
  rw [List.mem_filter] at hSpec
  obtain ⟨hSpec, hName⟩ := hSpec
  have hName : spec.name = name := of_decide_eq_true hName
  subst hName
  refine ⟨table, hTable, List.mem_map_of_mem ?_⟩
  exact (hFits.tables spec hSpec table hTable).1 hColumn

/- A known column has a table. -/
private theorem Knows.table
    (hKnows : Knows db known)
    {name : N}
    (hAny : known.any (·.1 = name) = true) :
    ∃ table, db.tables name = some table := by
  obtain ⟨pair, hMem, hName⟩ := List.any_eq_true.mp hAny
  have hName : pair.1 = name := of_decide_eq_true hName
  obtain ⟨table, hTable, _⟩ := hKnows pair hMem
  rw [hName] at hTable
  exact ⟨table, hTable⟩

/-
  A statement whose needs are met goes through, or fails with
  an error that is ignored. Either way what it brings is there.
-/
private theorem Fits.goes_through
    (hFits : layout.Fits db)
    (hKnows : Knows db known)
    (hAllows : layout.Allows statement)
    (hSupply :
      layout.supply tolerates known statement = some known') :
    (∃ db', db.perform statement = .ok db' ∧
      Knows db' known') ∨
      ∃ e, db.perform statement = .error e ∧
        tolerates e = true ∧ Knows db known' ∧
        ∀ index, statement ≠ .createIndex index := by
  cases statement with
  | createTable name columns key =>
      have hAllowed := hAllows
      obtain ⟨spec, hSpec, rfl, hBase, hColumns⟩ := hAllows
      rw [supply, Option.some.injEq] at hSupply
      subst hSupply
      left
      have hGoes :
          ∃ db', db.perform (.createTable spec.name columns key)
              = .ok db' ∧
            (db'.tables spec.name).isSome := by
        rw [Database.perform, hFits.indexes_free spec hSpec]
        split
        · rename_i hThere
          exact ⟨db, rfl, hThere⟩
        · refine ⟨_, rfl, ?_⟩
          simp [Database.setTable]
      obtain ⟨db', hPerform, hThere⟩ := hGoes
      refine ⟨db', hPerform, fun pair hMem => ?_⟩
      rcases List.mem_append.mp hMem with hNew | hOld
      · exact (hFits.perform hAllowed hPerform).table_created
          hThere pair hNew
      · exact (hKnows pair hOld).mono
          (Database.perform_extends hPerform)
  | addColumn table column =>
      rw [supply] at hSupply
      split at hSupply
      · rename_i hNeeds
        cases hSupply
        obtain ⟨found, hFound⟩ := hKnows.table hNeeds.1
        by_cases hThere : column.name ∈ found.names
        · right
          refine ⟨.duplicateColumn, ?_, hNeeds.2, ?_, nofun⟩
          · rw [Database.perform, hFound]
            exact if_pos hThere
          · intro pair hMem
            rcases List.mem_cons.mp hMem with rfl | hOld
            · exact ⟨found, hFound, hThere⟩
            · exact hKnows pair hOld
        · left
          have hPerform :
              db.perform (.addColumn table column) =
                .ok (db.setTable table
                  (found.addColumn column)) := by
            rw [Database.perform, hFound]
            exact if_neg hThere
          refine ⟨_, hPerform, fun pair hMem => ?_⟩
          rcases List.mem_cons.mp hMem with rfl | hOld
          · refine ⟨found.addColumn column, if_pos rfl, ?_⟩
            apply List.mem_map_of_mem
            exact List.mem_append_right _
              (List.mem_singleton_self column)
          · exact (hKnows pair hOld).mono
              (Database.perform_extends hPerform)
      · cases hSupply
  | createIndex index =>
      rw [supply] at hSupply
      split at hSupply
      · rename_i hNeeds
        cases hSupply
        left
        obtain ⟨found, hFound⟩ := hKnows.table hNeeds.1
        have hAll :
            index.columns.all (· ∈ found.names) = true := by
          rw [List.all_eq_true]
          intro name hName
          have hPair :=
            List.all_eq_true.mp hNeeds.2 name hName
          obtain ⟨other, hOther, hMem⟩ :=
            hKnows _ (of_decide_eq_true hPair)
          rw [hFound] at hOther
          cases hOther
          exact decide_eq_true hMem
        have hGoes :
            ∃ db', db.perform (.createIndex index) =
              .ok db' := by
          rw [Database.perform, hFits.tables_free index hAllows,
            hFound]
          dsimp only
          rw [if_pos hAll]
          split
          · exact ⟨_, rfl⟩
          · exact ⟨_, rfl⟩
        obtain ⟨db', hPerform⟩ := hGoes
        exact ⟨db', hPerform, hKnows.mono
          (Database.perform_extends hPerform)⟩
      · cases hSupply

/-
  A script of the layout whose needs are met runs to its end
  on whatever is there, and adds what is missing.
-/
theorem Fits.runScript
    {script : List (Ddl N V)}
    (hFits : layout.Fits db)
    (hKnows : Knows db known)
    (hAllows : ∀ statement ∈ script, layout.Allows statement)
    (hSupplies :
      layout.supplies tolerates known script = some known') :
    ∃ db', Database.runScript tolerates script db = .ok db' ∧
      layout.Fits db' ∧ Knows db' known' ∧
      ∀ index, .createIndex index ∈ script →
        db'.indexes index.name = some index := by
  induction script generalizing db known with
  | nil =>
      rw [supplies, Option.some.injEq] at hSupplies
      subst hSupplies
      exact ⟨db, rfl, hFits, hKnows, nofun⟩
  | cons statement rest ih =>
      rw [List.forall_mem_cons] at hAllows
      rw [supplies, Option.bind_eq_some_iff] at hSupplies
      obtain ⟨more, hSupply, hRest⟩ := hSupplies
      rw [Database.runScript]
      rcases hFits.goes_through hKnows hAllows.1 hSupply with
        ⟨middle, hPerform, hMore⟩ |
        ⟨e, hPerform, hIgnored, hMore, hNot⟩
      · rw [hPerform]
        obtain ⟨db', hRun, hFits', hKnows', hIndexes⟩ :=
          ih (hFits.perform hAllows.1 hPerform) hMore hAllows.2
            hRest
        refine ⟨db', hRun, hFits', hKnows', ?_⟩
        intro index hMem
        rcases List.mem_cons.mp hMem with rfl | hMem
        · exact (Database.runScript_extends hRun).indexes _ _
            (hFits.index_created hAllows.1 hPerform)
        · exact hIndexes index hMem
      · rw [hPerform]
        dsimp only
        rw [if_pos hIgnored]
        obtain ⟨db', hRun, hFits', hKnows', hIndexes⟩ :=
          ih hFits hMore hAllows.2 hRest
        refine ⟨db', hRun, hFits', hKnows', ?_⟩
        intro index hMem
        rcases List.mem_cons.mp hMem with hSame | hMem
        · exact absurd hSame.symm (hNot index)
        · exact hIndexes index hMem

end Layout

end Schema

end Data

end IcpHandler
