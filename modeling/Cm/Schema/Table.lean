import Cm.Mysql.Wire

/-!
# Tables, columns and indexes

The package `vt/schema` is not under src/. `TableInfo` embeds its `Table` and calls
`NewTable`, `NewIndex`, `Table.AddColumn`, `Table.AddIndex`, `Table.FindColumn`,
`Index.AddColumn` and `Index.FindDataColumn`. They are modelled from the spec's data model
and from the way `TableInfo` uses them: `FindColumn` and `FindDataColumn` answer a position or
`-1`, the sentinel the callers test.

Only the fields the modelled functions read or write are kept: a column's name and category,
an index's name, columns, cardinalities and data columns, and a table's name, columns,
indexes, primary key positions and cache type.
-/

namespace Cm.Schema

/-- Modelled from the spec: the categories of a column's SQL type (`CAT_NUMBER`,
`CAT_VARBINARY`, `CAT_OTHER`). -/
inductive Category
  | catNumber
  | catVarbinary
  | catOther
  deriving DecidableEq, Repr

/-- Modelled from the spec: the cache types of a table (`CACHE_NONE`, `CACHE_RW`). -/
inductive CacheType
  | cacheNone
  | cacheRW
  deriving DecidableEq, Repr

/-- Modelled from the spec: numeric types are numbers; binary, blob, text and char types are
varbinary; every other type (dates, times, enums, sets, geometry) is other. A type is matched
by its leading name, compared character by character. -/
def categoryOf (columnType : String) : Category :=
  let hasPrefix (name : String) : Bool := name.toList.isPrefixOf columnType.toList
  if ["tinyint", "smallint", "mediumint", "int", "bigint", "float", "double", "decimal",
      "bit"].any hasPrefix then .catNumber
  else if ["binary", "varbinary", "tinyblob", "blob", "mediumblob", "longblob", "char",
      "varchar", "tinytext", "text", "mediumtext", "longtext"].any hasPrefix then
    .catVarbinary
  else .catOther

/-- Modelled from the spec: a column of a table. -/
structure TableColumn where
  name : String
  category : Category
  deriving DecidableEq, Repr

/-- Modelled from the spec: an index, its columns with their cardinalities, and the columns
it covers (`DataColumns`). -/
structure Index where
  name : String
  columns : List String
  cardinality : List UInt64
  dataColumns : List String
  deriving DecidableEq, Repr, Inhabited

/-- Modelled from the spec: a table. `pkColumns` is nil (`none`) until a primary key is
known; an empty non-nil slice is `some []`. -/
structure Table where
  name : String
  columns : List TableColumn
  indexes : List Index
  pkColumns : Option (List Int)
  cacheType : CacheType
  deriving DecidableEq, Repr

/-- Modelled from the spec: `NewTable(name)`. -/
def newTable (name : String) : Table := ⟨name, [], [], none, .cacheNone⟩

/-- Modelled from the spec: `NewIndex(name)`. -/
def newIndex (name : String) : Index := ⟨name, [], [], []⟩

/-- Modelled from the spec: `Index.AddColumn(name, cardinality)` records the column and its
cardinality. -/
def Index.addColumn (index : Index) (name : String) (cardinality : UInt64) : Index :=
  { index with
    columns := index.columns ++ [name], cardinality := index.cardinality ++ [cardinality] }

/-- The position of the first entry that satisfies `p`, or `-1`. -/
def findPosition {α : Type} (p : α → Bool) (xs : List α) : Int :=
  match xs.findIdx? p with
  | some i => i
  | none => -1

/-- Modelled from the spec: `Table.FindColumn(name)`. -/
def Table.findColumn (table : Table) (name : String) : Int :=
  findPosition (fun column => column.name == name) table.columns

/-- Modelled from the spec: `Index.FindDataColumn(name)`. -/
def Index.findDataColumn (index : Index) (name : String) : Int :=
  findPosition (· == name) index.dataColumns

/-- Modelled from the spec: `Table.AddColumn(name, type, default, extra)`; the default and the
extra attributes are not modelled. -/
def Table.addColumn (table : Table) (name columnType : String) : Table :=
  { table with columns := table.columns ++ [⟨name, categoryOf columnType⟩] }

/-- Go's `xs[i]` with an `int` index, which panics outside `0 ≤ i < len(xs)`. -/
def goIndex {α : Type} (xs : List α) (i : Int) : Option α :=
  if 0 ≤ i then xs[i.toNat]? else none

@[simp]
theorem goIndex_natCast {α : Type} (xs : List α) (n : Nat) : goIndex xs n = xs[n]? := by
  simp [goIndex, Int.ofNat_nonneg]

@[simp]
theorem goIndex_zero {α : Type} (xs : List α) : goIndex xs 0 = xs.head? := by
  cases xs <;> simp [goIndex]

/-- Go's `copy(dst, src)`: the first `min(len(dst), len(src))` entries of `dst` replaced by
those of `src`, all read before any is written, as the two may overlap. -/
def goCopy {α : Type} (dst src : List α) : List α :=
  src.take dst.length ++ dst.drop src.length

/-! ## Searching -/

theorem findPosition_eq_neg_one_iff {α : Type} (p : α → Bool) (xs : List α) :
    findPosition p xs = -1 ↔ ∀ x ∈ xs, p x = false := by
  unfold findPosition
  split
  · rename_i i hFound
    have hSome := List.findIdx?_eq_some_iff_getElem.mp hFound
    obtain ⟨hLt, hHolds, _⟩ := hSome
    constructor
    · intro h; omega
    · intro hAll; simp [hAll _ (List.getElem_mem hLt)] at hHolds
  · rename_i hNone
    simpa using hNone

theorem findPosition_spec {α : Type} {p : α → Bool} {xs : List α} (h : findPosition p xs ≠ -1) :
    ∃ i : Nat, findPosition p xs = i ∧ ∃ hi : i < xs.length, p xs[i] = true := by
  unfold findPosition at h ⊢
  split at h
  · rename_i i hFound
    obtain ⟨hLt, hHolds, _⟩ := List.findIdx?_eq_some_iff_getElem.mp hFound
    exact ⟨i, rfl, hLt, hHolds⟩
  · exact absurd rfl h

theorem goIndex_findPosition {α : Type} {p : α → Bool} {xs : List α}
    (h : findPosition p xs ≠ -1) :
    ∃ x, goIndex xs (findPosition p xs) = some x ∧ p x = true := by
  obtain ⟨i, hi, hLt, hHolds⟩ := findPosition_spec h
  exact ⟨xs[i], by simp [goIndex, hi, hLt, Int.ofNat_nonneg], hHolds⟩

theorem findColumn_eq_neg_one_iff (table : Table) (name : String) :
    table.findColumn name = -1 ↔ name ∉ table.columns.map (·.name) := by
  simp [Table.findColumn, findPosition_eq_neg_one_iff]

theorem findDataColumn_eq_neg_one_iff (index : Index) (name : String) :
    index.findDataColumn name = -1 ↔ name ∉ index.dataColumns := by
  simp only [Index.findDataColumn, findPosition_eq_neg_one_iff, beq_eq_false_iff_ne]
  exact ⟨fun h hMem => h _ hMem rfl, fun h x hx hxn => h (hxn ▸ hx)⟩

/-- A name `FindColumn` finds is the name of the column at that position. -/
theorem findColumn_name {table : Table} {name : String} (h : table.findColumn name ≠ -1) :
    ∃ column, goIndex table.columns (table.findColumn name) = some column ∧
      column.name = name := by
  obtain ⟨column, hColumn, hName⟩ := goIndex_findPosition h
  exact ⟨column, hColumn, by simpa using hName⟩

end Cm.Schema
