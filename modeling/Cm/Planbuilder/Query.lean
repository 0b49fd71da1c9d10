import Cm.Sqlparser.Ast
import Cm.Schema.Table

/-!
# The rewriter's queries

The `Generate…Query` functions of the plan builder print the queries of a plan into a tracked
buffer. The buffer is modelled by the text it holds, and a `ParsedQuery` by its query text; a
function that can panic returns an `Option`, `none` for the panic.

`GenerateSubquery` and `writeColumnList` print a column list with a loop that runs to
`len(columns)-1` and prints the last column after it. On a non-empty list that is the names
joined by `", "` (`writeNames_eq`); on an empty one the last `columns[i]` panics.
-/

namespace Cm.Planbuilder

open Cm.Sqlparser Cm.Schema

/-- `execLimit`: the implicit row cap, `limit :#maxLimit`. -/
def execLimit : Limit := ⟨none, ":#maxLimit"⟩

/-- Modelled from the spec: `sqlparser.AST_USE`, the hint of `use index (idx)`. -/
def astUse : String := "use"

/-- Modelled from the spec: `sqlparser.AST_FOR_UPDATE`, the suffix of a DML subquery. -/
def astForUpdate : String := " for update"

/-- The column loop of `GenerateSubquery` and of `writeColumnList`, over the names `name`
reads off the columns:

    for i = 0; i < len(columns)-1; i++ { fmt.Fprintf(buf, "%s, ", columns[i]) }
    fmt.Fprintf(buf, "%s", columns[i])

The loop leaves `i` at `len(columns)-1`, or at `0` when `columns` is empty. -/
def writeNames {α : Type} (name : α → String) (buf : String) (columns : List α) :
    Option String := do
  let buf ← (List.range (columns.length - 1)).foldlM
    (fun buf (i : Nat) => (goIndex columns i).map fun column => buf ++ name column ++ ", ") buf
  (goIndex columns (columns.length - 1 : Nat)).map fun column => buf ++ name column

/-- `writeColumnList(buf, columns)`. -/
def writeColumnList (buf : String) (columns : List TableColumn) : Option String :=
  writeNames (·.name) buf columns

/-- `GenerateSubquery(columns, table, where, order, limit, for_update)`: a nil limit is
replaced by `execLimit`. -/
def generateSubquery (columns : List String) (table : AliasedTableExpr)
    (whereClause : Option Where) (order : List String) (limit : Option Limit)
    (forUpdate : Bool) : Option String := do
  let limit := limit.getD execLimit
  let buf ← writeNames id "select " columns
  let buf := buf ++ " from " ++ table.format ++ formatWhere whereClause ++ formatOrderBy order ++
    formatLimit (some limit)
  return if forUpdate then buf ++ astForUpdate else buf

/-- `GenerateSelectOuterQuery(sel, tableInfo)`. -/
def generateSelectOuterQuery (sel : Select) (tableInfo : Table) : Option String := do
  let buf ← writeColumnList "select " tableInfo.columns
  return buf ++ " from " ++ formatTableExprs sel.fromClause ++ " where " ++ ":#pk"

/-- The outer query of an insert or a replace, `<verb> %vinto %v%v values %a%v`. -/
def valuesOuterQuery (verb : String) (ins : Insert) : String :=
  verb ++ " " ++ ins.comments ++ "into " ++ ins.table ++ ins.columns ++ " values " ++
    ":#values" ++ ins.onDup

/-- `GenerateReplaceOuterQuery(ins)`. -/
def generateReplaceOuterQuery (ins : Insert) : String := valuesOuterQuery "replace" ins

/-- `GenerateInsertOuterQuery(ins)`. -/
def generateInsertOuterQuery (ins : Insert) : String := valuesOuterQuery "insert" ins

/-- `GenerateUpdateOuterQuery(upd)`. -/
def generateUpdateOuterQuery (upd : Update) : String :=
  "update " ++ upd.comments ++ upd.table ++ " set " ++ upd.exprs ++ " where " ++ ":#pk"

/-- `GenerateDeleteOuterQuery(del)`. -/
def generateDeleteOuterQuery (del : Delete) : String :=
  "delete " ++ del.comments ++ "from " ++ del.table ++ " where " ++ ":#pk"

/-- The body `GenerateUpdateSubquery` and `GenerateDeleteSubquery` share: the subquery over the
columns of the table's first index, `tableInfo.Indexes[0]` (which panics on a table without
indexes), from the statement's table, for update. -/
def dmlSubquery (table : String) (whereClause : Option Where) (order : List String)
    (limit : Option Limit) (tableInfo : Table) : Option String :=
  (goIndex tableInfo.indexes 0).bind fun first =>
    generateSubquery first.columns ⟨table, none, none⟩ whereClause order limit true

/-- `GenerateUpdateSubquery(upd, tableInfo)`. -/
def generateUpdateSubquery (upd : Update) (tableInfo : Table) : Option String :=
  dmlSubquery upd.table upd.whereClause upd.orderBy upd.limit tableInfo

/-- `GenerateDeleteSubquery(del, tableInfo)`. -/
def generateDeleteSubquery (del : Delete) (tableInfo : Table) : Option String :=
  dmlSubquery del.table del.whereClause del.orderBy del.limit tableInfo

/-! ## Joined names -/

section Joining

theorem intercalate_go_append (s t sep : String) (l : List String) :
    String.intercalate.go (s ++ t) sep l = s ++ String.intercalate.go t sep l := by
  induction l generalizing t with
  | nil => rfl
  | cons a l inductionHypothesis =>
    simp only [String.intercalate.go, String.append_assoc, inductionHypothesis]

theorem intercalate_cons_of_ne_nil (sep a : String) {l : List String} (h : l ≠ []) :
    String.intercalate sep (a :: l) = a ++ sep ++ String.intercalate sep l := by
  obtain ⟨b, l, rfl⟩ := List.exists_cons_of_ne_nil h
  exact intercalate_go_append (a ++ sep) b sep l

/-- What the loop has printed when it reaches the last column, and then that column. -/
theorem foldl_append_last {α : Type} (name : α → String) (xs : List α) (last : α)
    (buf : String) :
    xs.foldl (fun buf column => buf ++ name column ++ ", ") buf ++ name last =
      buf ++ String.intercalate ", " ((xs ++ [last]).map name) := by
  induction xs generalizing buf with
  | nil => rfl
  | cons x xs inductionHypothesis =>
    rw [List.foldl_cons, inductionHypothesis, List.cons_append, List.map_cons,
      intercalate_cons_of_ne_nil _ _ (by simp)]
    simp only [String.append_assoc]

end Joining

/-! ## The column loop -/

/-- The first `n` rounds of a loop over `columns[0]`, ..., `columns[n-1]`. -/
theorem foldlM_range_goIndex {α β : Type} (f : β → α → β) (columns : List α) (b : β)
    (n : Nat) (h : n ≤ columns.length) :
    (List.range n).foldlM (fun b (i : Nat) => (goIndex columns i).map (f b)) b =
      some ((columns.take n).foldl f b) := by
  induction n with
  | zero => rfl
  | succ n inductionHypothesis =>
    have hLt : n < columns.length := h
    rw [List.range_succ, List.foldlM_append, inductionHypothesis (by omega), List.take_succ]
    simp only [List.foldlM_cons, List.foldlM_nil, goIndex_natCast, List.getElem?_eq_getElem hLt,
      Option.toList_some, List.foldl_append, List.foldl_cons, List.foldl_nil]
    rfl

/-- The loop prints the names joined by `", "`, and panics on an empty list. -/
theorem writeNames_eq {α : Type} (name : α → String) (buf : String) (columns : List α) :
    writeNames name buf columns =
      columns.getLast?.map fun _ => buf ++ String.intercalate ", " (columns.map name) := by
  rcases List.eq_nil_or_concat columns with rfl | ⟨xs, last, rfl⟩
  · rfl
  rw [List.concat_eq_append]
  have hFold := foldlM_range_goIndex (fun buf column => buf ++ name column ++ ", ")
    (xs ++ [last]) buf xs.length (by simp)
  rw [writeNames, List.length_append, List.length_singleton, Nat.add_sub_cancel, hFold]
  simp [foldl_append_last]

theorem writeColumnList_eq (buf : String) (columns : List TableColumn) :
    writeColumnList buf columns =
      columns.getLast?.map fun _ => buf ++ String.intercalate ", " (columns.map (·.name)) :=
  writeNames_eq _ buf columns

/-- `GenerateSubquery` prints the columns joined by `", "`, the table, the where clause, the
order, the limit or `execLimit`, and `for update` for a DML subquery; it panics on an empty
column list. -/
theorem generateSubquery_eq (columns : List String) (table : AliasedTableExpr)
    (whereClause : Option Where) (order : List String) (limit : Option Limit)
    (forUpdate : Bool) :
    generateSubquery columns table whereClause order limit forUpdate =
      columns.getLast?.map fun _ =>
        "select " ++ String.intercalate ", " columns ++ " from " ++ table.format ++
          formatWhere whereClause ++ formatOrderBy order ++
          formatLimit (some (limit.getD execLimit)) ++
          if forUpdate then astForUpdate else "" := by
  cases hLast : columns.getLast? <;> cases forUpdate <;>
    simp [generateSubquery, writeNames_eq, hLast]

/-- An update's or a delete's subquery selects the columns of the table's first index from
the statement's table, with its where clause, its order and its limit or `limit :#maxLimit`,
and ends in `for update`; it panics when the table has no index or that index no column. -/
theorem dmlSubquery_eq (table : String) (whereClause : Option Where) (order : List String)
    (limit : Option Limit) (tableInfo : Table) :
    dmlSubquery table whereClause order limit tableInfo =
      tableInfo.indexes.head?.bind fun first => first.columns.getLast?.map fun _ =>
        "select " ++ String.intercalate ", " first.columns ++ " from " ++ table ++
          formatWhere whereClause ++ formatOrderBy order ++
          formatLimit (some (limit.getD execLimit)) ++ astForUpdate := by
  simp [dmlSubquery, generateSubquery_eq, AliasedTableExpr.format]

example :
    generateUpdateSubquery ⟨"", "t", "a = 1", some ⟨"where", "a = 2"⟩, [], none⟩
        ⟨"t", [⟨"pk", .catNumber⟩, ⟨"a", .catOther⟩], [⟨"PRIMARY", ["pk"], [1], []⟩], some [0],
          .cacheNone⟩ =
      some "select pk from t where a = 2 limit :#maxLimit for update" := by
  decide

/-- On a non-empty list the column loops print each name once, in order, joined by `", "`:
in `GenerateSubquery` after `select `, in `writeColumnList`, and so at the head of
`GenerateSelectOuterQuery`. -/
theorem columnLists_join_names :
    (∀ (columns : List String) (table : AliasedTableExpr) (whereClause : Option Where)
        (order : List String) (limit : Option Limit) (forUpdate : Bool), columns ≠ [] →
      generateSubquery columns table whereClause order limit forUpdate =
        some ("select " ++ String.intercalate ", " columns ++ " from " ++ table.format ++
          formatWhere whereClause ++ formatOrderBy order ++
          formatLimit (some (limit.getD execLimit)) ++
          if forUpdate then astForUpdate else "")) ∧
    (∀ (buf : String) (columns : List TableColumn), columns ≠ [] →
      writeColumnList buf columns =
        some (buf ++ String.intercalate ", " (columns.map (·.name)))) ∧
    (∀ (sel : Select) (tableInfo : Table), tableInfo.columns ≠ [] →
      generateSelectOuterQuery sel tableInfo =
        some ("select " ++ String.intercalate ", " (tableInfo.columns.map (·.name)) ++
          " from " ++ formatTableExprs sel.fromClause ++ " where " ++ ":#pk")) := by
  refine ⟨fun columns table whereClause order limit forUpdate hColumns => ?_,
    fun buf columns hColumns => ?_, fun sel tableInfo hColumns => ?_⟩
  · rw [generateSubquery_eq, List.getLast?_eq_getLast _ hColumns, Option.map_some']
  · rw [writeColumnList_eq, List.getLast?_eq_getLast _ hColumns, Option.map_some']
  · simp [generateSelectOuterQuery, writeColumnList_eq, List.getLast?_eq_getLast _ hColumns]

theorem columnLists_join_pk_a_b :
    generateSubquery ["pk", "a"] ⟨"t", none, none⟩ none [] none true =
        some ("select " ++ String.intercalate ", " ["pk", "a"] ++ " from " ++
          (⟨"t", none, none⟩ : AliasedTableExpr).format ++ formatWhere none ++ formatOrderBy [] ++
          formatLimit (some ((none : Option Limit).getD execLimit)) ++
          if true then astForUpdate else "") ∧
      writeColumnList "" [⟨"pk", .catNumber⟩, ⟨"a", .catOther⟩] =
        some ("" ++ String.intercalate ", " ["pk", "a"]) ∧
      generateSelectOuterQuery ⟨"", "", "a", [.aliased ⟨"t", none, none⟩], none, "", none, [],
          none, ""⟩ ⟨"t", [⟨"pk", .catNumber⟩, ⟨"a", .catOther⟩, ⟨"b", .catOther⟩], [], none,
          .cacheNone⟩ =
        some ("select " ++ String.intercalate ", " ["pk", "a", "b"] ++ " from " ++
          formatTableExprs [.aliased ⟨"t", none, none⟩] ++ " where " ++ ":#pk") :=
  ⟨columnLists_join_names.1 ["pk", "a"] ⟨"t", none, none⟩ none [] none true (by decide),
    columnLists_join_names.2.1 "" [⟨"pk", .catNumber⟩, ⟨"a", .catOther⟩] (by decide),
    columnLists_join_names.2.2 ⟨"", "", "a", [.aliased ⟨"t", none, none⟩], none, "", none, [],
      none, ""⟩ ⟨"t", [⟨"pk", .catNumber⟩, ⟨"a", .catOther⟩, ⟨"b", .catOther⟩], [], none,
      .cacheNone⟩ (by decide)⟩

/- The outer query of the spec's first scenario, on `t(pk, a, b)`. -/
example :
    generateSelectOuterQuery ⟨"", "", "a, b", [.aliased ⟨"t", none, none⟩],
        some ⟨"where", "pk = 5"⟩, "", none, [], none, ""⟩
      ⟨"t", [⟨"pk", .catNumber⟩, ⟨"a", .catOther⟩, ⟨"b", .catOther⟩], [], none, .cacheNone⟩ =
      some "select pk, a, b from t where :#pk" := by
  decide

end Cm.Planbuilder
