import Mathlib.Data.List.Basic

/-!
# The select statements the plan builder prints

The package `sqlparser` is not under src/: the spec treats the parser as a black box that
yields an AST whose nodes print themselves (`Format`). The plan builder reads and writes a
few fields of that AST: a select's `From`, `Where`, `OrderBy` and `Limit`, the `Hints` of an
aliased table expression, the table, where clause, order and limit of an update or a delete,
and the parts of an insert it prints. Those nodes are modelled field by field; a node the
plan builder never looks into (a select expression, a join, a group by) is kept as the text
it prints. The printing follows the queries of the spec's scenarios, such
as `select pk from t use index (idx) where idx_col = 7 limit :#maxLimit`.

A nil pointer field is `none`. The parser yields trees, so no node is shared.
-/

namespace Cm.Sqlparser

/-- Modelled from the spec: `*Limit`, with its offset and row count as printed. -/
structure Limit where
  offset : Option String
  rowcount : String
  deriving DecidableEq, Repr

/-- Modelled from the spec: `*IndexHints`, a hint type (`AST_USE`, ...) and index names. -/
structure IndexHints where
  type : String
  indexes : List String
  deriving DecidableEq, Repr

/-- Modelled from the spec: `*AliasedTableExpr`, a table name or a subquery (as printed),
its alias and its index hints. -/
structure AliasedTableExpr where
  expr : String
  as : Option String
  hints : Option IndexHints
  deriving DecidableEq, Repr

/-- Modelled from the spec: an entry of `TableExprs`; a parenthesised or joined table
expression is kept as printed. -/
inductive TableExpr
  | aliased (node : AliasedTableExpr)
  | other (text : String)
  deriving DecidableEq, Repr

/-- Modelled from the spec: `*Where`, its keyword (`where` or `having`) and its condition as
printed. -/
structure Where where
  type : String
  expr : String
  deriving DecidableEq, Repr

/-- Modelled from the spec: `*Select`; `fromClause` and `whereClause` are its `From` and
`Where`. The comments, `distinct`, the select expressions, the group by and the lock are kept
as printed; `orderBy` holds the printed orderings. -/
structure Select where
  comments : String
  distinct : String
  selectExprs : String
  fromClause : List TableExpr
  whereClause : Option Where
  groupBy : String
  having : Option Where
  orderBy : List String
  limit : Option Limit
  lock : String
  deriving DecidableEq, Repr

/-- Modelled from the spec: `SelectStatement`, a `*Select` or a `*Union` of two. -/
inductive SelectStatement
  | select (node : Select)
  | union (type : String) (left right : SelectStatement)
  deriving DecidableEq, Repr

/-- Modelled from the spec: `*Update`, with its table name and its set clause as printed. -/
structure Update where
  comments : String
  table : String
  exprs : String
  whereClause : Option Where
  orderBy : List String
  limit : Option Limit
  deriving DecidableEq, Repr

/-- Modelled from the spec: `*Delete`, with its table name as printed. -/
structure Delete where
  comments : String
  table : String
  whereClause : Option Where
  orderBy : List String
  limit : Option Limit
  deriving DecidableEq, Repr

/-- Modelled from the spec: the fields of `*Insert` and of `*Replace` the plan builder prints,
its table name, its column list and its `on duplicate key update` clause as printed. -/
structure Insert where
  comments : String
  table : String
  columns : String
  onDup : String
  deriving DecidableEq, Repr

/-! ## Printing -/

/-- Modelled from the spec: `Limit.Format`; a nil limit prints nothing. -/
def formatLimit : Option Limit → String
  | none => ""
  | some limit => " limit " ++ (limit.offset.map (· ++ ", ")).getD "" ++ limit.rowcount

/-- Modelled from the spec: `IndexHints.Format`, as in `t use index (idx)`. -/
def IndexHints.format (hints : IndexHints) : String :=
  " " ++ hints.type ++ " index (" ++ String.intercalate ", " hints.indexes ++ ")"

/-- Modelled from the spec: `AliasedTableExpr.Format`. -/
def AliasedTableExpr.format (node : AliasedTableExpr) : String :=
  node.expr ++ (node.as.map (" as " ++ ·)).getD "" ++ (node.hints.map IndexHints.format).getD ""

/-- Modelled from the spec: the `Format` of an entry of `TableExprs`. -/
def TableExpr.format : TableExpr → String
  | .aliased node => node.format
  | .other text => text

/-- Modelled from the spec: `TableExprs.Format`, the entries separated by `", "`. -/
def formatTableExprs (exprs : List TableExpr) : String :=
  String.intercalate ", " (exprs.map TableExpr.format)

/-- Modelled from the spec: `Where.Format`; a nil clause prints nothing. -/
def formatWhere : Option Where → String
  | none => ""
  | some node => " " ++ node.type ++ " " ++ node.expr

/-- Modelled from the spec: `OrderBy.Format`; an empty order prints nothing. -/
def formatOrderBy : List String → String
  | [] => ""
  | orders => " order by " ++ String.intercalate ", " orders

/-- Modelled from the spec: `Select.Format`, its clauses in SQL's order. -/
def Select.format (node : Select) : String :=
  "select " ++ node.comments ++ node.distinct ++ node.selectExprs ++ " from " ++
    formatTableExprs node.fromClause ++ formatWhere node.whereClause ++ node.groupBy ++
    formatWhere node.having ++ formatOrderBy node.orderBy ++ formatLimit node.limit ++ node.lock

/-- Modelled from the spec: the `Format` of a `SelectStatement`; a union prints its two
sides around its keyword. -/
def SelectStatement.format : SelectStatement → String
  | .select node => node.format
  | .union type left right => left.format ++ " " ++ type ++ " " ++ right.format

end Cm.Sqlparser
