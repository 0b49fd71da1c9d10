import Mathlib.Data.List.Infix
import Cm.Schema.Table

/-!
# `TableInfo`: loading a table's schema and deciding whether it is cached

`loadTableInfo` reads the table's columns (`describe`) and indexes (`show index`). The index
rows come grouped by index; the first index, when it is `PRIMARY`, gives the primary key
positions, covers every column, and lends its columns to every secondary index.
`SetPK` replaces the primary key by a given list of columns. `initRowCache` marks the table
read-write cached when the pool is open, the table is not commented `vtocc_nocache`, is not a
view, has a primary key, and no key column is `CAT_OTHER`.

A backend query is modelled by its result: the rows, or the error `Execute` returns. A
function that can panic returns an `Option`, `none` for the panic.
-/

namespace Cm.TabletServer

open Cm.Schema

/-- A row of `describe`: the column's name (`row[0]`) and type (`row[1]`). -/
structure DescribeRow where
  field : String
  type : String
  deriving DecidableEq, Repr

/-- A row of `show index`: the index name (`row[2]`), the column name (`row[4]`) and the
cardinality (`row[6]`, nil when the server has none). -/
structure IndexRow where
  keyName : String
  columnName : String
  cardinality : Option String
  deriving DecidableEq, Repr

/-- A table and its row cache handle; `cache` says whether `Cache` is non-nil. -/
structure TableInfo extends Table where
  cache : Bool
  deriving DecidableEq, Repr

section Loading

variable (parseUint : String → UInt64)

/-- `fetchColumns`: one column per `describe` row, in order. -/
def TableInfo.fetchColumns (ti : TableInfo) :
    Except String (List DescribeRow) → Except String TableInfo
  | .error e => .error e
  | .ok rows =>
    .ok (rows.foldl (fun ti row => { ti with toTable := ti.addColumn row.field row.type }) ti)

/-- The state of the row loop of `fetchIndexes`: the indexes before `currentIndex`, the
current index (nil before the first `AddIndex`) and `currentName`. `ti.Indexes` is
`indexes ++ current`, the current index being the last one added. -/
structure IndexLoop where
  indexes : List Index
  current : Option Index
  currentName : String
  deriving DecidableEq, Repr

/-- `ti.Indexes` during the loop. -/
def IndexLoop.tableIndexes (st : IndexLoop) : List Index := st.indexes ++ st.current.toList

/-- The cardinality the loop reads from `row[6]`: `parseUint` is `strconv.ParseUint(s, 0, 64)`,
whose error is only logged, and a nil `row[6]` reads 0. -/
def IndexRow.cardinalityValue (row : IndexRow) : UInt64 :=
  match row.cardinality with
  | some text => parseUint text
  | none => 0

/-- One row of the loop: `AddIndex` when the name changes, then `currentIndex.AddColumn`,
which panics while `currentIndex` is nil. -/
def IndexLoop.step (st : IndexLoop) (row : IndexRow) : Option IndexLoop :=
  let st := if st.currentName ≠ row.keyName then
      { indexes := st.indexes ++ st.current.toList, current := some (newIndex row.keyName),
        currentName := row.keyName }
    else st
  st.current.map fun index =>
    { st with current := some (index.addColumn row.columnName (row.cardinalityValue parseUint)) }

/-- The row loop of `fetchIndexes`. -/
def IndexLoop.run (st : IndexLoop) (rows : List IndexRow) : Option IndexLoop :=
  rows.foldlM (IndexLoop.step parseUint) st

/-- One primary key column `c` for a secondary index: appended unless `FindDataColumn` finds
it. -/
def Index.coverColumn (index : Index) (c : String) : Index :=
  if index.findDataColumn c ≠ -1 then index
  else { index with dataColumns := index.dataColumns ++ [c] }

/-- The loop for one secondary index: its columns, then each primary key column. -/
def Index.coverPrimaryKey (pkColumns : List String) (index : Index) : Index :=
  pkColumns.foldl Index.coverColumn { index with dataColumns := index.dataColumns ++ index.columns }

/-- The end of `fetchIndexes`: when the first index is `PRIMARY`, `PKColumns` from its
columns, every column of the table as its data columns, and the covering loop for every other
index. -/
def TableInfo.derivePrimaryKey (ti : TableInfo) : TableInfo :=
  match ti.indexes with
  | [] => ti
  | pkIndex :: secondaries =>
    if pkIndex.name ≠ "PRIMARY" then ti
    else
      { ti with
        pkColumns := some (pkIndex.columns.map ti.findColumn),
        indexes :=
          { pkIndex with dataColumns := pkIndex.dataColumns ++ ti.columns.map (·.name) } ::
            secondaries.map (Index.coverPrimaryKey pkIndex.columns) }

/-- `fetchIndexes`. -/
def TableInfo.fetchIndexes (ti : TableInfo) :
    Except String (List IndexRow) → Option (Except String TableInfo)
  | .error e => some (.error e)
  | .ok rows => do
    let st ← IndexLoop.run parseUint ⟨ti.indexes, none, ""⟩ rows
    return .ok (TableInfo.derivePrimaryKey { ti with indexes := st.tableIndexes })

/-- `loadTableInfo`, given the results of `describe` and `show index`. -/
def loadTableInfo (tableName : String) (describe : Except String (List DescribeRow))
    (showIndex : Except String (List IndexRow)) : Option (Except String TableInfo) :=
  match TableInfo.fetchColumns { toTable := newTable tableName, cache := false } describe with
  | .error e => some (.error e)
  | .ok ti => ti.fetchIndexes parseUint showIndex

end Loading

/-! ## Overriding the primary key -/

/-- The column loop of `SetPK`: each name's position and a column of the new index, up to the
first name that is not a column. -/
def TableInfo.setPKColumns (ti : TableInfo) :
    List String → Index × List Int → Except String (Index × List Int)
  | [], acc => .ok acc
  | colname :: colnames, (pkIndex, colnums) =>
    if ti.findColumn colname = -1 then .error ("column " ++ colname ++ " not found")
    else ti.setPKColumns colnames (pkIndex.addColumn colname 1, colnums ++ [ti.findColumn colname])

/-- The index list `SetPK` builds around `pkIndex`: a one-slot list when there are no indexes,
the list shifted right by `append` and an overlapping `copy` when the first index is not
`PRIMARY`, and the list itself otherwise; then `Indexes[0] = pkIndex`. `default` stands for
the nil pointer, which is overwritten. -/
def placePrimary (indexes : List Index) (pkIndex : Index) : List Index :=
  let indexes := match indexes with
    | [] => [default]
    | first :: _ =>
      if first.name ≠ "PRIMARY" then
        let grown := indexes ++ [default]
        grown.take 1 ++ goCopy (grown.drop 1) (grown.take (grown.length - 1))
      else indexes
  indexes.set 0 pkIndex

/-- `SetPK(colnames)`: the table with its new primary key, or the error. -/
def TableInfo.setPK (ti : TableInfo) (colnames : List String) : Except String TableInfo :=
  match ti.setPKColumns colnames (newIndex "PRIMARY", []) with
  | .error e => .error e
  | .ok (pkIndex, colnums) =>
    let pkIndex := { pkIndex with dataColumns := pkIndex.dataColumns ++ ti.columns.map (·.name) }
    .ok { ti with indexes := placePrimary ti.indexes pkIndex, pkColumns := some colnums }

/-! ## The cache decision -/

/-- Go's `strings.Contains(s, substr)`. -/
def stringsContains (s substr : String) : Bool := decide (substr.toList <:+: s.toList)

/-- The primary key loop of `initRowCache`: `false` at the first `CAT_OTHER` column, and a
panic at an index out of range before it. -/
def TableInfo.pkColumnsCacheable (ti : TableInfo) : List Int → Option Bool
  | [] => some true
  | col :: cols => do
    let column ← goIndex ti.columns col
    if column.category = .catOther then return false
    ti.pkColumnsCacheable cols

/-- `initRowCache(tableType, createTime, comment, cachePool)`, with `poolClosed` for
`cachePool.IsClosed()`; `NewRowCache` gives a non-nil handle. -/
def TableInfo.initRowCache (ti : TableInfo) (tableType comment : String) (poolClosed : Bool) :
    Option TableInfo :=
  if poolClosed then some ti
  else if stringsContains comment "vtocc_nocache" then some ti
  else if tableType = "VIEW" then some ti
  else match ti.pkColumns with
    | none => some ti
    | some cols => do
      if ← ti.pkColumnsCacheable cols then
        return { ti with cacheType := .cacheRW, cache := true }
      return ti

/-- `NewTableInfo`: `loadTableInfo`, then `initRowCache`. -/
def newTableInfo (parseUint : String → UInt64) (tableName tableType comment : String)
    (poolClosed : Bool) (describe : Except String (List DescribeRow))
    (showIndex : Except String (List IndexRow)) : Option (Except String TableInfo) :=
  match loadTableInfo parseUint tableName describe showIndex with
  | none => none
  | some (.error e) => some (.error e)
  | some (.ok ti) => (ti.initRowCache tableType comment poolClosed).map .ok

end Cm.TabletServer
