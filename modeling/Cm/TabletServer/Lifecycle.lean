import Mathlib.Data.List.Forall2
import Cm.TabletServer.Covering
import Cm.TabletServer.SetPK

/-!
# A loaded table over any sequence of calls

After `loadTableInfo` (or `NewTableInfo`) a table can see `SetPK` and `initRowCache` in any
order. A failed `SetPK` leaves the table as it was; `initRowCache` can panic when a primary key
position is out of range. Each invariant below is proved for one call and then, by induction,
for every sequence of calls.
-/

namespace Cm.TabletServer

open Cm.Schema

/-- A call on a loaded table. -/
inductive TableOp
  | setPK (colnames : List String)
  | initRowCache (tableType comment : String) (poolClosed : Bool)
  deriving DecidableEq, Repr

/-- One call: the table after it, `none` for a panic. -/
def TableInfo.apply (ti : TableInfo) : TableOp → Option TableInfo
  | .setPK colnames =>
    match ti.setPK colnames with
    | .ok ti' => some ti'
    | .error _ => some ti
  | .initRowCache tableType comment poolClosed => ti.initRowCache tableType comment poolClosed

/-- A sequence of calls. -/
def TableInfo.applyAll (ti : TableInfo) (ops : List TableOp) : Option TableInfo :=
  ops.foldlM TableInfo.apply ti

theorem applyAll_cons (ti : TableInfo) (op : TableOp) (ops : List TableOp) :
    ti.applyAll (op :: ops) = (ti.apply op).bind fun ti => ti.applyAll ops := rfl

section Runs

variable (Inv : TableInfo → Prop) (allowed : TableInfo → TableOp → Prop)

/-- An invariant that every allowed call keeps holds after every sequence of calls each made on
a table where it is allowed. -/
theorem applyAll_preserves
    (hStep : ∀ ti op ti', allowed ti op → Inv ti → ti.apply op = some ti' → Inv ti')
    (ops : List TableOp) (ti final : TableInfo)
    (hAllowed : ∀ pre op rest, ops = pre ++ op :: rest →
      ∀ mid, ti.applyAll pre = some mid → allowed mid op)
    (hInv : Inv ti) (hRun : ti.applyAll ops = some final) : Inv final := by
  induction ops generalizing ti with
  | nil => cases hRun; exact hInv
  | cons op ops inductionHypothesis =>
    rw [applyAll_cons] at hRun
    obtain ⟨next, hNext, hRest⟩ := Option.bind_eq_some.mp hRun
    refine inductionHypothesis next (fun pre op' rest hOps mid hMid => ?_)
      (hStep ti op next (hAllowed [] op ops rfl ti rfl) hInv hNext) hRest
    exact hAllowed (op :: pre) op' rest (by rw [hOps, List.cons_append]) mid
      (by rw [applyAll_cons, hNext, Option.some_bind, hMid])

/-- If no call panics from a table where the invariant holds, no sequence of calls does. -/
theorem applyAll_total
    (hStep : ∀ ti op ti', Inv ti → ti.apply op = some ti' → Inv ti')
    (hProgress : ∀ ti op, Inv ti → ∃ ti', ti.apply op = some ti')
    (ops : List TableOp) (ti : TableInfo) (hInv : Inv ti) :
    ∃ final, ti.applyAll ops = some final ∧ Inv final := by
  induction ops generalizing ti with
  | nil => exact ⟨ti, rfl, hInv⟩
  | cons op ops inductionHypothesis =>
    obtain ⟨next, hNext⟩ := hProgress ti op hInv
    rw [applyAll_cons, hNext, Option.some_bind]
    exact inductionHypothesis next (hStep ti op next hInv hNext)

end Runs

/-! ## What one call does -/

theorem setPK_ok {ti ti' : TableInfo} {colnames : List String} (h : ti.setPK colnames = .ok ti') :
    (∀ colname ∈ colnames, colname ∈ ti.columns.map (·.name)) ∧
      ti' = { ti with
        indexes := primaryIndex ti colnames :: dropPrimary ti.indexes,
        pkColumns := some (colnames.map ti.findColumn) } := by
  rw [setPK_eq] at h
  split at h
  · cases h
  · rename_i hNone
    cases h
    exact ⟨fun colname hMem => by simpa using List.find?_eq_none.mp hNone colname hMem, rfl⟩

/-- `initRowCache` leaves the table as it is, or marks it cached after it checked every
primary key column. -/
theorem initRowCache_cases {ti ti' : TableInfo} {tableType comment : String} {poolClosed : Bool}
    (h : ti.initRowCache tableType comment poolClosed = some ti') :
    ti' = ti ∨ ∃ cols, ti.pkColumns = some cols ∧ ti.pkColumnsCacheable cols = some true ∧
      ti' = { ti with cacheType := .cacheRW, cache := true } := by
  unfold TableInfo.initRowCache at h
  split_ifs at h
  · exact .inl (Option.some.inj h).symm
  · exact .inl (Option.some.inj h).symm
  · exact .inl (Option.some.inj h).symm
  · split at h
    · exact .inl (Option.some.inj h).symm
    · rename_i cols hCols
      obtain ⟨cacheable, hCacheable, hResult⟩ := Option.bind_eq_some.mp h
      cases cacheable
      · exact .inl (Option.some.inj hResult).symm
      · exact .inr ⟨cols, hCols, hCacheable, (Option.some.inj hResult).symm⟩

/-- A cacheable primary key has every position in range and no `CAT_OTHER` column. -/
theorem pkColumnsCacheable_eq_true {ti : TableInfo} {cols : List Int}
    (h : ti.pkColumnsCacheable cols = some true) :
    ∀ col ∈ cols, ∃ column, goIndex ti.columns col = some column ∧
      column.category ≠ .catOther := by
  induction cols with
  | nil => simp
  | cons col cols inductionHypothesis =>
    obtain ⟨column, hColumn, hRest⟩ := Option.bind_eq_some.mp h
    by_cases hOther : column.category = .catOther
    · simp [hOther] at hRest
    · simp only [hOther, if_false] at hRest
      exact List.forall_mem_cons.mpr ⟨⟨column, hColumn, hOther⟩, inductionHypothesis hRest⟩

/-- The loop of `initRowCache` does not panic when every position is in range. -/
theorem pkColumnsCacheable_isSome {ti : TableInfo} {cols : List Int}
    (h : ∀ col ∈ cols, (goIndex ti.columns col).isSome) :
    (ti.pkColumnsCacheable cols).isSome := by
  induction cols with
  | nil => rfl
  | cons col cols inductionHypothesis =>
    obtain ⟨column, hColumn⟩ := Option.isSome_iff_exists.mp (h col (List.mem_cons_self _ _))
    simp only [TableInfo.pkColumnsCacheable, hColumn, Option.bind_eq_bind, Option.some_bind]
    split
    · rfl
    · exact inductionHypothesis fun col hCol => h col (List.mem_cons_of_mem _ hCol)

/-- `initRowCache` does not panic when every primary key position is in range. -/
theorem initRowCache_isSome {ti : TableInfo} (tableType comment : String) (poolClosed : Bool)
    (h : ∀ cols, ti.pkColumns = some cols → ∀ col ∈ cols, (goIndex ti.columns col).isSome) :
    ∃ ti', ti.initRowCache tableType comment poolClosed = some ti' := by
  unfold TableInfo.initRowCache
  split_ifs
  · exact ⟨_, rfl⟩
  · exact ⟨_, rfl⟩
  · exact ⟨_, rfl⟩
  · split
    · exact ⟨_, rfl⟩
    · rename_i cols hCols
      obtain ⟨cacheable, hCacheable⟩ :=
        Option.isSome_iff_exists.mp (pkColumnsCacheable_isSome (h cols hCols))
      simp only [Option.bind_eq_bind, hCacheable, Option.some_bind]
      split <;> exact ⟨_, rfl⟩

/-! ## The row cache -/

/-- A cached table has its row cache and a primary key. -/
def TableInfo.CacheHandled (ti : TableInfo) : Prop :=
  ti.cacheType = .cacheRW → ti.cache = true ∧ ti.pkColumns ≠ none

/-- Every primary key is non-empty, and a cached table's key has every position in range and
no `CAT_OTHER` column. -/
def TableInfo.CacheKeyChecked (ti : TableInfo) : Prop :=
  (∀ cols, ti.pkColumns = some cols → cols ≠ []) ∧
    (ti.cacheType = .cacheRW → ∃ cols, ti.pkColumns = some cols ∧
      ∀ col ∈ cols, ∃ column, goIndex ti.columns col = some column ∧ column.category ≠ .catOther)

theorem apply_cacheHandled {ti ti' : TableInfo} {op : TableOp} (h : ti.CacheHandled)
    (hApply : ti.apply op = some ti') : ti'.CacheHandled := by
  cases op with
  | setPK colnames =>
    cases hResult : ti.setPK colnames with
    | ok next =>
      obtain ⟨-, rfl⟩ := setPK_ok hResult
      simp only [TableInfo.apply, hResult, Option.some.injEq] at hApply
      subst hApply
      exact fun hCached => ⟨(h hCached).1, Option.some_ne_none _⟩
    | error e =>
      simp only [TableInfo.apply, hResult, Option.some.injEq] at hApply
      exact hApply ▸ h
  | initRowCache tableType comment poolClosed =>
    have hInit : ti.initRowCache tableType comment poolClosed = some ti' := hApply
    rcases initRowCache_cases hInit with rfl | ⟨cols, hCols, -, rfl⟩
    · exact h
    · exact fun _ => ⟨rfl, by simp [hCols]⟩

/-- The key check holds on after every call but a `SetPK` on a cached table or with no column:
`initRowCache` checks the key it caches, and `SetPK` rechecks nothing. -/
theorem apply_cacheKeyChecked {ti ti' : TableInfo} {op : TableOp}
    (hOp : ∀ colnames, op = .setPK colnames → colnames ≠ [] ∧ ti.cacheType ≠ .cacheRW)
    (h : ti.CacheKeyChecked) (hApply : ti.apply op = some ti') : ti'.CacheKeyChecked := by
  cases op with
  | setPK colnames =>
    obtain ⟨hColnames, hUncached⟩ := hOp colnames rfl
    cases hResult : ti.setPK colnames with
    | ok next =>
      obtain ⟨-, rfl⟩ := setPK_ok hResult
      simp only [TableInfo.apply, hResult, Option.some.injEq] at hApply
      subst hApply
      refine ⟨fun cols hCols => ?_, fun hCached => absurd hCached hUncached⟩
      cases hCols
      simpa using hColnames
    | error e =>
      simp only [TableInfo.apply, hResult, Option.some.injEq] at hApply
      exact hApply ▸ h
  | initRowCache tableType comment poolClosed =>
    rcases initRowCache_cases hApply with rfl | ⟨cols, hCols, hCacheable, rfl⟩
    · exact h
    · have hGood := pkColumnsCacheable_eq_true hCacheable
      exact ⟨h.1, fun _ => ⟨cols, hCols, hGood⟩⟩

/-! ## The primary key positions -/

/-- The first index, when it is `PRIMARY`. -/
def primaryOf? : List Index → Option Index
  | pkIndex :: _ => if pkIndex.name = "PRIMARY" then some pkIndex else none
  | [] => none

/-- `PKColumns` are the positions of the `PRIMARY` index's columns, which all are columns of
the table, and only the first index is `PRIMARY`. -/
structure TableInfo.PrimaryKeyAligned (ti : TableInfo) : Prop where
  pkColumns_eq :
    ti.pkColumns = (primaryOf? ti.indexes).map fun pkIndex => pkIndex.columns.map ti.findColumn
  described : ∀ pkIndex ∈ primaryOf? ti.indexes, ∀ c ∈ pkIndex.columns, c ∈ ti.columns.map (·.name)
  unique : ∀ index ∈ ti.indexes.tail, index.name ≠ "PRIMARY"

theorem mem_primaryOf? {pkIndex : Index} {indexes : List Index} :
    pkIndex ∈ primaryOf? indexes ↔ pkIndex ∈ indexes.head? ∧ pkIndex.name = "PRIMARY" := by
  cases indexes with
  | nil => simp [primaryOf?]
  | cons first others =>
    by_cases hFirst : first.name = "PRIMARY"
    · simp only [primaryOf?, hFirst, if_true, Option.mem_def, List.head?_cons, Option.some.injEq]
      exact ⟨fun h => ⟨h, h ▸ hFirst⟩, And.left⟩
    · simp only [primaryOf?, hFirst, if_false, Option.not_mem_none, false_iff, not_and]
      intro hPk
      rw [← Option.some.inj hPk]
      exact hFirst

theorem dropPrimary_not_primary (indexes : List Index)
    (hUnique : ∀ index ∈ indexes.tail, index.name ≠ "PRIMARY") :
    ∀ index ∈ dropPrimary indexes, index.name ≠ "PRIMARY" := by
  cases indexes with
  | nil => simp [dropPrimary]
  | cons first others =>
    by_cases hFirst : first.name = "PRIMARY"
    · simpa [dropPrimary, hFirst] using hUnique
    · simpa [dropPrimary, hFirst] using hUnique

/-- A primary key column is found, at a column of its name. -/
theorem TableInfo.PrimaryKeyAligned.findColumn_pk {ti : TableInfo} (h : ti.PrimaryKeyAligned)
    {pkIndex : Index} (hPk : pkIndex ∈ primaryOf? ti.indexes) {c : String}
    (hc : c ∈ pkIndex.columns) :
    ∃ column, goIndex ti.columns (ti.findColumn c) = some column ∧ column.name = c :=
  findColumn_name (mt (findColumn_eq_neg_one_iff _ _).mp (not_not.mpr (h.described _ hPk c hc)))

/-- The positions are in range, each at a column of the name the `PRIMARY` index lists. -/
theorem TableInfo.PrimaryKeyAligned.positions {ti : TableInfo} (h : ti.PrimaryKeyAligned) :
    ∀ pkIndex ∈ primaryOf? ti.indexes, ∃ cols, ti.pkColumns = some cols ∧
      List.Forall₂ (fun col c => ∃ column, goIndex ti.columns col = some column ∧ column.name = c)
        cols pkIndex.columns := by
  intro pkIndex hPk
  refine ⟨_, by rw [h.pkColumns_eq, Option.mem_def.mp hPk]; rfl, ?_⟩
  rw [List.forall₂_map_left_iff, List.forall₂_same]
  exact fun c hc => h.findColumn_pk hPk hc

theorem apply_primaryKeyAligned {ti ti' : TableInfo} {op : TableOp} (h : ti.PrimaryKeyAligned)
    (hApply : ti.apply op = some ti') : ti'.PrimaryKeyAligned := by
  cases op with
  | setPK colnames =>
    cases hResult : ti.setPK colnames with
    | ok next =>
      obtain ⟨hDescribed, rfl⟩ := setPK_ok hResult
      simp only [TableInfo.apply, hResult, Option.some.injEq] at hApply
      subst hApply
      exact ⟨by simp [primaryOf?, primaryIndex, Table.findColumn],
        by simpa [primaryOf?, primaryIndex] using hDescribed, dropPrimary_not_primary _ h.unique⟩
    | error e =>
      simp only [TableInfo.apply, hResult, Option.some.injEq] at hApply
      exact hApply ▸ h
  | initRowCache tableType comment poolClosed =>
    have hInit : ti.initRowCache tableType comment poolClosed = some ti' := hApply
    rcases initRowCache_cases hInit with rfl | ⟨cols, -, -, rfl⟩
    · exact h
    · exact ⟨h.pkColumns_eq, h.described, h.unique⟩

theorem apply_isSome_of_primaryKeyAligned {ti : TableInfo} (h : ti.PrimaryKeyAligned)
    (op : TableOp) : ∃ ti', ti.apply op = some ti' := by
  cases op with
  | setPK colnames =>
    simp only [TableInfo.apply]
    cases ti.setPK colnames <;> exact ⟨_, rfl⟩
  | initRowCache tableType comment poolClosed =>
    refine initRowCache_isSome tableType comment poolClosed fun cols hCols col hCol => ?_
    rw [h.pkColumns_eq] at hCols
    obtain ⟨pkIndex, hPk, rfl⟩ := Option.map_eq_some'.mp hCols
    obtain ⟨c, hc, rfl⟩ := List.mem_map.mp hCol
    obtain ⟨column, hColumn, -⟩ := h.findColumn_pk hPk hc
    simp [hColumn]

section Loading

variable (parseUint : String → UInt64)

/-- `derivePrimaryKey` of a table without a primary key sets `PKColumns` to the positions of
the `PRIMARY` index's columns, and only when there is one. -/
theorem pkColumns_derivePrimaryKey (ti : TableInfo) (hNone : ti.pkColumns = none) :
    ti.derivePrimaryKey.pkColumns = (primaryOf? ti.derivePrimaryKey.indexes).map
      fun pkIndex => pkIndex.columns.map ti.derivePrimaryKey.findColumn := by
  unfold TableInfo.derivePrimaryKey
  split
  · rename_i hIndexes
    simp [hNone, hIndexes, primaryOf?]
  · rename_i pkIndex secondaries hIndexes
    by_cases hName : pkIndex.name = "PRIMARY"
    · simp [hName, primaryOf?, Table.findColumn]
    · simp [hName, hIndexes, hNone, primaryOf?]

/-- An index of a list whose shapes are those of some runs is named by one of them and has
its columns. -/
theorem exists_run_of_mem {indexes : List Index} {runs : List (String × List IndexRow)}
    (hShapes : indexes.map Index.shape = runs.map (runShape parseUint)) {index : Index}
    (hIndex : index ∈ indexes) :
    ∃ run ∈ runs, index.name = run.1 ∧ index.columns = run.2.map (·.columnName) := by
  obtain ⟨run, hRun, hShape⟩ := List.mem_map.mp (hShapes ▸ List.mem_map_of_mem Index.shape hIndex)
  exact ⟨run, hRun, (congrArg Prod.fst hShape).symm, (congrArg (·.2.1) hShape).symm⟩

/-- `loadTableInfo` establishes the invariant when each index's rows are contiguous, a
`PRIMARY` index comes first and every index column is described. -/
theorem loadTableInfo_primaryKeyAligned (tableName : String) (describe : List DescribeRow)
    (rows : List IndexRow) (hContiguous : Contiguous (rows.map (·.keyName)))
    (hPrimaryFirst : ∀ row ∈ rows, row.keyName = "PRIMARY" →
      ∀ first ∈ rows.head?, first.keyName = "PRIMARY")
    (hDescribed : ∀ row ∈ rows, row.columnName ∈ describe.map (·.field)) {ti : TableInfo}
    (hLoad : loadTableInfo parseUint tableName (.ok describe) (.ok rows) = some (.ok ti)) :
    ti.PrimaryKeyAligned := by
  have hShapes := shape_of_loadTableInfo parseUint hLoad
  obtain rfl := eq_of_loadTableInfo parseUint hLoad
  refine ⟨pkColumns_derivePrimaryKey _ rfl, fun pkIndex hPk c hc => ?_, fun index hIndex => ?_⟩
  · obtain ⟨run, hRun, -, hColumns⟩ :=
      exists_run_of_mem parseUint hShapes (List.mem_of_mem_head? (mem_primaryOf?.mp hPk).1)
    obtain ⟨row, hRow, rfl⟩ := List.mem_map.mp (hColumns ▸ hc)
    have hRowMem : row ∈ rows := (indexRuns_maximal rows).1 ▸
      List.mem_flatten.mpr ⟨run.2, List.mem_map_of_mem _ hRun, hRow⟩
    simpa [DescribeRow.column, List.map_map, Function.comp_def] using hDescribed row hRowMem
  · have hTails := congrArg List.tail hShapes
    rw [← List.map_tail, ← List.map_tail] at hTails
    obtain ⟨run, hRun, hName, -⟩ := exists_run_of_mem parseUint hTails hIndex
    exact hName ▸ indexRuns_tail_not_primary rows hContiguous hPrimaryFirst run hRun

/-- After loading and any sequence of calls, no call has panicked, `PKColumns` holds, for the
`PRIMARY` index and only for it, the position of each of its columns, and no other index is
`PRIMARY`. -/
theorem pkColumns_aligned_after_calls (tableName : String) (describe : List DescribeRow)
    (rows : List IndexRow) (hContiguous : Contiguous (rows.map (·.keyName)))
    (hPrimaryFirst : ∀ row ∈ rows, row.keyName = "PRIMARY" →
      ∀ first ∈ rows.head?, first.keyName = "PRIMARY")
    (hDescribed : ∀ row ∈ rows, row.columnName ∈ describe.map (·.field)) (ti : TableInfo)
    (hLoad : loadTableInfo parseUint tableName (.ok describe) (.ok rows) = some (.ok ti))
    (ops : List TableOp) :
    ∃ final, ti.applyAll ops = some final ∧
      (∀ pkIndex ∈ final.indexes.head?, pkIndex.name = "PRIMARY" →
        ∃ cols, final.pkColumns = some cols ∧
          List.Forall₂
            (fun col c => ∃ column, goIndex final.columns col = some column ∧ column.name = c)
            cols pkIndex.columns) ∧
      ((∀ pkIndex ∈ final.indexes.head?, pkIndex.name ≠ "PRIMARY") → final.pkColumns = none) ∧
      ∀ index ∈ final.indexes.tail, index.name ≠ "PRIMARY" := by
  obtain ⟨final, hRun, hAligned⟩ := applyAll_total TableInfo.PrimaryKeyAligned
    (fun _ _ _ hInv hApply => apply_primaryKeyAligned hInv hApply)
    (fun _ op hInv => apply_isSome_of_primaryKeyAligned hInv op) ops ti
    (loadTableInfo_primaryKeyAligned parseUint tableName describe rows hContiguous hPrimaryFirst
      hDescribed hLoad)
  refine ⟨final, hRun, fun pkIndex hPk hName => hAligned.positions pkIndex
    (mem_primaryOf?.mpr ⟨hPk, hName⟩), fun hName => ?_, hAligned.unique⟩
  rw [hAligned.pkColumns_eq, Option.map_eq_none', Option.eq_none_iff_forall_not_mem]
  exact fun pkIndex hPk => hName pkIndex (mem_primaryOf?.mp hPk).1 (mem_primaryOf?.mp hPk).2

theorem pkColumns_aligned_single_column :
    ∃ final, (⟨⟨"t", [⟨"id", .catNumber⟩], [⟨"PRIMARY", ["id"], [0], ["id"]⟩], some [0],
        .cacheNone⟩, false⟩ : TableInfo).applyAll [.setPK ["id"]] = some final ∧
      (∀ pkIndex ∈ final.indexes.head?, pkIndex.name = "PRIMARY" →
        ∃ cols, final.pkColumns = some cols ∧
          List.Forall₂
            (fun col c => ∃ column, goIndex final.columns col = some column ∧ column.name = c)
            cols pkIndex.columns) ∧
      ((∀ pkIndex ∈ final.indexes.head?, pkIndex.name ≠ "PRIMARY") → final.pkColumns = none) ∧
      ∀ index ∈ final.indexes.tail, index.name ≠ "PRIMARY" :=
  pkColumns_aligned_after_calls (fun _ => 0) "t" [⟨"id", "int(11)"⟩] [⟨"PRIMARY", "id", none⟩]
    (by decide) (by decide) (by decide) _ rfl _

/-- `SetPK` on a table loaded with a `PRIMARY` index and a secondary index: the secondary
index's data columns stay those the old primary key gave it, without the new key column. -/
theorem setPK_leaves_secondary_uncovered :
    (((loadTableInfo (fun _ => 0) "t"
        (.ok [⟨"id", "int(11)"⟩, ⟨"name", "varchar(10)"⟩, ⟨"email", "varchar(10)"⟩])
        (.ok [⟨"PRIMARY", "id", none⟩, ⟨"k", "name", none⟩])).bind Except.toOption).bind
        fun ti => ti.apply (.setPK ["email"])).map
      (fun final => final.indexes.map fun index => (index.name, index.columns, index.dataColumns)) =
      some [("PRIMARY", ["email"], ["id", "name", "email"]), ("k", ["name"], ["name", "id"])] := by
  decide

theorem newTableInfo_eq {tableName tableType comment : String} {poolClosed : Bool}
    {describe : List DescribeRow} {rows : List IndexRow} {ti : TableInfo}
    (hNew : newTableInfo parseUint tableName tableType comment poolClosed (.ok describe)
      (.ok rows) = some (.ok ti)) :
    ∃ loaded, loadTableInfo parseUint tableName (.ok describe) (.ok rows) = some (.ok loaded) ∧
      loaded.apply (.initRowCache tableType comment poolClosed) = some ti := by
  unfold newTableInfo at hNew
  split at hNew
  · cases hNew
  · cases hNew
  · rename_i loaded hLoad
    obtain ⟨ti', hInit, hEq⟩ := Option.map_eq_some'.mp hNew
    cases hEq
    exact ⟨loaded, hLoad, hInit⟩

/-- A loaded table is not cached, and a primary key it derives is never empty. -/
theorem loadTableInfo_cacheKeyChecked {tableName : String} {describe : List DescribeRow}
    {rows : List IndexRow} {ti : TableInfo}
    (hLoad : loadTableInfo parseUint tableName (.ok describe) (.ok rows) = some (.ok ti)) :
    ti.cacheType = .cacheNone ∧ ti.CacheKeyChecked := by
  have hShapes := shape_of_loadTableInfo parseUint hLoad
  have hEq := eq_of_loadTableInfo parseUint hLoad
  have hNone : ti.cacheType = .cacheNone := by simp [hEq, newTable]
  refine ⟨hNone, fun cols hCols => ?_, fun hCached => absurd (hNone ▸ hCached) (by decide)⟩
  rw [hEq, pkColumns_derivePrimaryKey _ rfl, ← hEq] at hCols
  obtain ⟨pkIndex, hPk, rfl⟩ := Option.map_eq_some'.mp hCols
  obtain ⟨run, hRun, -, hColumns⟩ :=
    exists_run_of_mem parseUint hShapes (List.mem_of_mem_head? (mem_primaryOf?.mp hPk).1)
  simpa [hColumns] using ((indexRuns_maximal rows).2.1 run hRun).1

end Loading

end Cm.TabletServer
