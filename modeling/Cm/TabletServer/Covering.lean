import Mathlib.Data.List.Nodup
import Cm.TabletServer.IndexGroups

/-!
# The covering loops of `fetchIndexes`

When the first loaded index is `PRIMARY`, `fetchIndexes` gives it every column of the table
as data columns, and gives every other index its own columns followed by the primary key
columns it lacks. Otherwise it leaves `PKColumns` nil and every data column list empty.
-/

namespace Cm.TabletServer

open Cm.Schema

/-- The column `describe` reports in a row. -/
def DescribeRow.column (row : DescribeRow) : TableColumn := ⟨row.field, categoryOf row.type⟩

theorem fetchColumns_ok (ti : TableInfo) (rows : List DescribeRow) :
    ti.fetchColumns (.ok rows) =
      .ok { ti with columns := ti.columns ++ rows.map DescribeRow.column } := by
  simp only [TableInfo.fetchColumns]
  induction rows generalizing ti with
  | nil => simp
  | cons row rows inductionHypothesis =>
    rw [List.foldl_cons, inductionHypothesis]
    simp [Table.addColumn, DescribeRow.column]

/-! ## The secondary covering loop -/

/-- For a list of distinct primary key columns, the loop appends those the data columns lack,
in order. -/
theorem dataColumns_foldl_coverColumn (pkColumns : List String) (hNodup : pkColumns.Nodup)
    (start : Index) :
    (pkColumns.foldl Index.coverColumn start).dataColumns =
      start.dataColumns ++ pkColumns.filter (fun c => c ∉ start.dataColumns) := by
  induction pkColumns generalizing start with
  | nil => simp
  | cons c pkColumns inductionHypothesis =>
    obtain ⟨hFresh, hNodup⟩ := List.nodup_cons.mp hNodup
    rw [List.foldl_cons, inductionHypothesis hNodup]
    by_cases hMem : c ∈ start.dataColumns
    · have hFound : start.findDataColumn c ≠ -1 := by
        rwa [Ne, findDataColumn_eq_neg_one_iff, not_not]
      simp [Index.coverColumn, hFound, hMem]
    · have hMissing : start.findDataColumn c = -1 := (findDataColumn_eq_neg_one_iff _ _).mpr hMem
      have hSame : pkColumns.filter (fun d => d ∉ start.dataColumns ++ [c]) =
          pkColumns.filter (fun d => d ∉ start.dataColumns) :=
        List.filter_congr fun d hd => by simp [show d ≠ c from fun h => hFresh (h ▸ hd)]
      have hStep : Index.coverColumn start c =
          { start with dataColumns := start.dataColumns ++ [c] } := by
        simp [Index.coverColumn, hMissing]
      rw [hStep]
      dsimp only
      rw [hSame, List.filter_cons_of_pos (by simpa using hMem), List.append_assoc,
        List.singleton_append]

theorem dataColumns_coverPrimaryKey (pkColumns : List String) (hNodup : pkColumns.Nodup)
    (index : Index) :
    (Index.coverPrimaryKey pkColumns index).dataColumns =
      index.dataColumns ++ index.columns ++
        pkColumns.filter (fun c => c ∉ index.dataColumns ++ index.columns) :=
  dataColumns_foldl_coverColumn pkColumns hNodup _

@[simp] theorem columns_coverPrimaryKey (pkColumns : List String) (index : Index) :
    (Index.coverPrimaryKey pkColumns index).columns = index.columns :=
  congrArg (fun shape => shape.2.1) (shape_coverPrimaryKey pkColumns index)

@[simp] theorem name_coverPrimaryKey (pkColumns : List String) (index : Index) :
    (Index.coverPrimaryKey pkColumns index).name = index.name :=
  congrArg Prod.fst (shape_coverPrimaryKey pkColumns index)

/-! ## `derivePrimaryKey` -/

theorem derivePrimaryKey_of_primary (ti : TableInfo) (pkIndex : Index) (secondaries : List Index)
    (hIndexes : ti.indexes = pkIndex :: secondaries) (hName : pkIndex.name = "PRIMARY") :
    ti.derivePrimaryKey =
      { ti with
        pkColumns := some (pkIndex.columns.map ti.findColumn),
        indexes := { pkIndex with dataColumns := pkIndex.dataColumns ++ ti.columns.map (·.name) } ::
          secondaries.map (Index.coverPrimaryKey pkIndex.columns) } := by
  simp [TableInfo.derivePrimaryKey, hIndexes, hName]

theorem derivePrimaryKey_of_not_primary (ti : TableInfo)
    (hName : ∀ pkIndex ∈ ti.indexes.head?, pkIndex.name ≠ "PRIMARY") :
    ti.derivePrimaryKey = ti := by
  unfold TableInfo.derivePrimaryKey
  split
  · rfl
  · rename_i pkIndex _ hIndexes
    simp [hIndexes] at hName
    simp [hName]

/-- `derivePrimaryKey` on indexes whose data columns are still empty, the first one's columns
distinct: the covering the row cache relies on, or nothing at all. -/
theorem derivePrimaryKey_covering (ti : TableInfo)
    (hEmpty : ∀ index ∈ ti.indexes, index.dataColumns = [])
    (hNodup : ∀ pkIndex ∈ ti.indexes.head?, pkIndex.columns.Nodup) :
    (∀ pkIndex secondaries, ti.derivePrimaryKey.indexes = pkIndex :: secondaries →
      pkIndex.name = "PRIMARY" →
        pkIndex.dataColumns = ti.columns.map (·.name) ∧
        ∀ index ∈ secondaries,
          index.dataColumns = index.columns ++ pkIndex.columns.filter (· ∉ index.columns)) ∧
    ((∀ pkIndex ∈ ti.derivePrimaryKey.indexes.head?, pkIndex.name ≠ "PRIMARY") →
      ti.derivePrimaryKey = ti) := by
  have hHeadName : ti.derivePrimaryKey.indexes.head?.map Index.name =
      ti.indexes.head?.map Index.name := by
    have hShapes := congrArg (fun shapes => shapes.head?.map Prod.fst)
      (shape_derivePrimaryKey ti)
    simpa [List.head?_map, Option.map_map, Function.comp_def, Index.shape] using hShapes
  refine ⟨fun pkIndex secondaries hIndexes hName => ?_, fun hName => ?_⟩
  · rcases hFirst : ti.indexes with _ | ⟨first, rest⟩
    · simp [hIndexes, hFirst] at hHeadName
    · have hFirstName : first.name = "PRIMARY" := by
        simpa [hIndexes, hFirst, hName] using hHeadName.symm
      rw [derivePrimaryKey_of_primary ti first rest hFirst hFirstName] at hIndexes
      obtain ⟨rfl, rfl⟩ := List.cons.inj hIndexes
      have hFirstEmpty := hEmpty first (by simp [hFirst])
      have hFirstNodup := hNodup first (by simp [hFirst])
      refine ⟨by simp [hFirstEmpty], fun index hIndex => ?_⟩
      obtain ⟨secondary, hSecondary, rfl⟩ := List.mem_map.mp hIndex
      rw [dataColumns_coverPrimaryKey _ hFirstNodup,
        hEmpty secondary (by simp [hFirst, hSecondary])]
      simp
  · apply derivePrimaryKey_of_not_primary
    intro pkIndex hPk
    rcases hDerived : ti.derivePrimaryKey.indexes.head? with _ | derived
    · simp [hDerived, Option.mem_def.mp hPk] at hHeadName
    · have hSameName : derived.name = pkIndex.name := by
        simpa [hDerived, Option.mem_def.mp hPk] using hHeadName
      exact hSameName ▸ hName derived hDerived

@[simp] theorem columns_derivePrimaryKey (ti : TableInfo) :
    ti.derivePrimaryKey.columns = ti.columns := by
  unfold TableInfo.derivePrimaryKey
  split
  · rfl
  · split <;> rfl

@[simp] theorem cacheType_derivePrimaryKey (ti : TableInfo) :
    ti.derivePrimaryKey.cacheType = ti.cacheType := by
  unfold TableInfo.derivePrimaryKey
  split
  · rfl
  · split <;> rfl

/-! ## Loading a table -/

section Loading

variable (parseUint : String → UInt64)

theorem dataColumns_addRows (index : Index) (rows : List IndexRow) :
    (Index.addRows parseUint index rows).dataColumns = index.dataColumns := by
  induction rows generalizing index with
  | nil => rfl
  | cons row rows inductionHypothesis => exact inductionHypothesis _

theorem columns_runIndex (run : String × List IndexRow) :
    (runIndex parseUint run).columns = run.2.map (·.columnName) :=
  congrArg (fun shape => shape.2.1) (shape_runIndex parseUint run)

/-- When no index lists a column twice, no run does. -/
theorem nodup_columns_of_mem_indexRuns (rows : List IndexRow)
    (hDistinct : (rows.map fun row => (row.keyName, row.columnName)).Nodup)
    (run : String × List IndexRow) (hRun : run ∈ indexRuns rows) :
    (run.2.map (·.columnName)).Nodup := by
  obtain ⟨hFlatten, hRuns, -⟩ := indexRuns_maximal rows
  have hSub : List.Sublist run.2 rows :=
    hFlatten ▸ List.sublist_flatten_of_mem (List.mem_map_of_mem _ hRun)
  have hPairs := hDistinct.sublist (hSub.map _)
  have hOneName : run.2.map (fun row => (row.keyName, row.columnName)) =
      (run.2.map (·.columnName)).map fun c => (run.1, c) := by
    rw [List.map_map]
    exact List.map_congr_left fun row hRow => by simp [(hRuns run hRun).2 row hRow]
  rw [hOneName] at hPairs
  exact hPairs.of_map _

/-- `loadTableInfo` on successful queries whose first index row names an index. -/
theorem loadTableInfo_ok (tableName : String) (describe : List DescribeRow)
    (rows : List IndexRow) (hFirst : ∀ row ∈ rows.head?, row.keyName ≠ "") :
    loadTableInfo parseUint tableName (.ok describe) (.ok rows) =
      some (.ok (TableInfo.derivePrimaryKey
        { toTable := { newTable tableName with
            columns := describe.map DescribeRow.column,
            indexes := (indexRuns rows).map (runIndex parseUint) },
          cache := false })) := by
  simp [loadTableInfo, fetchColumns_ok, fetchIndexes_ok parseUint _ rows hFirst, newTable]

/-- A table `loadTableInfo` returns is the derived table of the rows' runs; a first row with an
empty index name panics. -/
theorem eq_of_loadTableInfo {tableName : String} {describe : List DescribeRow}
    {rows : List IndexRow} {ti : TableInfo}
    (hLoad : loadTableInfo parseUint tableName (.ok describe) (.ok rows) = some (.ok ti)) :
    ti = TableInfo.derivePrimaryKey
      { toTable := { newTable tableName with
          columns := describe.map DescribeRow.column,
          indexes := (indexRuns rows).map (runIndex parseUint) },
        cache := false } := by
  have hFirst : ∀ row ∈ rows.head?, row.keyName ≠ "" := by
    intro row hRow hEmpty
    cases rows with
    | nil => cases hRow
    | cons first rows =>
      obtain rfl := Option.some.inj hRow
      simp [loadTableInfo, fetchColumns_ok, fetchIndexes_empty_first_name parseUint _ _ _ hEmpty]
        at hLoad
  rw [loadTableInfo_ok parseUint tableName describe rows hFirst] at hLoad
  exact (Except.ok.inj (Option.some.inj hLoad)).symm

/-- The indexes of a loaded table are those of the runs, up to their data columns. -/
theorem shape_of_loadTableInfo {tableName : String} {describe : List DescribeRow}
    {rows : List IndexRow} {ti : TableInfo}
    (hLoad : loadTableInfo parseUint tableName (.ok describe) (.ok rows) = some (.ok ti)) :
    ti.indexes.map Index.shape = (indexRuns rows).map (runShape parseUint) := by
  rw [eq_of_loadTableInfo parseUint hLoad, shape_derivePrimaryKey]
  simp only [List.map_map, Function.comp_def, shape_runIndex]

theorem loadTableInfo_covers_primary_key (tableName : String) (describe : List DescribeRow)
    (rows : List IndexRow) (hNames : ∀ row ∈ rows, row.keyName ≠ "")
    (hDistinct : (rows.map fun row => (row.keyName, row.columnName)).Nodup) :
    ∃ ti, loadTableInfo parseUint tableName (.ok describe) (.ok rows) = some (.ok ti) ∧
      (∀ pkIndex secondaries, ti.indexes = pkIndex :: secondaries → pkIndex.name = "PRIMARY" →
        pkIndex.dataColumns = ti.columns.map (·.name) ∧
        ∀ index ∈ secondaries,
          index.dataColumns = index.columns ++ pkIndex.columns.filter (· ∉ index.columns)) ∧
      ((∀ pkIndex ∈ ti.indexes.head?, pkIndex.name ≠ "PRIMARY") →
        ti.pkColumns = none ∧ ∀ index ∈ ti.indexes, index.dataColumns = []) := by
  have hFirst : ∀ row ∈ rows.head?, row.keyName ≠ "" :=
    fun row hRow => hNames row (List.mem_of_mem_head? hRow)
  have hEmpty : ∀ index ∈ (indexRuns rows).map (runIndex parseUint), index.dataColumns = [] := by
    intro index hIndex
    obtain ⟨run, -, rfl⟩ := List.mem_map.mp hIndex
    exact dataColumns_addRows parseUint _ _
  have hNodup : ∀ pkIndex ∈ ((indexRuns rows).map (runIndex parseUint)).head?,
      pkIndex.columns.Nodup := by
    intro pkIndex hPk
    obtain ⟨run, hRun, rfl⟩ := Option.mem_map.mp (List.head?_map _ _ ▸ hPk)
    rw [columns_runIndex]
    exact nodup_columns_of_mem_indexRuns rows hDistinct run (List.mem_of_mem_head? hRun)
  obtain ⟨hCover, hUnchanged⟩ := derivePrimaryKey_covering
    ⟨{ newTable tableName with
      columns := describe.map DescribeRow.column,
      indexes := (indexRuns rows).map (runIndex parseUint) }, false⟩ hEmpty hNodup
  refine ⟨_, loadTableInfo_ok parseUint tableName describe rows hFirst,
    fun pkIndex secondaries hIndexes hName => ?_, fun hName => ?_⟩
  · rw [columns_derivePrimaryKey]
    exact hCover pkIndex secondaries hIndexes hName
  · rw [hUnchanged hName]
    exact ⟨rfl, hEmpty⟩

end Loading

theorem loadTableInfo_covers_id_name :
    ∃ ti, loadTableInfo (fun _ => 0) "t" (.ok [⟨"id", "int(11)"⟩, ⟨"name", "varchar(10)"⟩])
        (.ok [⟨"PRIMARY", "id", none⟩, ⟨"k", "name", some "7"⟩]) = some (.ok ti) ∧
      (∀ pkIndex secondaries, ti.indexes = pkIndex :: secondaries → pkIndex.name = "PRIMARY" →
        pkIndex.dataColumns = ti.columns.map (·.name) ∧
        ∀ index ∈ secondaries,
          index.dataColumns = index.columns ++ pkIndex.columns.filter (· ∉ index.columns)) ∧
      ((∀ pkIndex ∈ ti.indexes.head?, pkIndex.name ≠ "PRIMARY") →
        ti.pkColumns = none ∧ ∀ index ∈ ti.indexes, index.dataColumns = []) :=
  loadTableInfo_covers_primary_key (fun _ => 0) _ _ _ (by decide) (by decide)

example :
    (loadTableInfo (fun _ => 0) "t" (.ok [⟨"id", "int(11)"⟩, ⟨"name", "varchar(10)"⟩])
        (.ok [⟨"PRIMARY", "id", none⟩, ⟨"k", "name", some "7"⟩])).map
      (fun result => match result with
        | .ok ti => ti.indexes.map (·.dataColumns)
        | .error _ => []) =
      some [["id", "name"], ["name", "id"]] := by
  decide

end Cm.TabletServer
