import Cm.Sqlparser.Node
import Cm.Schema.Table

/-!
# From SQL to a plan

`GetExecPlan` parses the SQL and `analyzeSQL` routes the statement by its type: a union passes
through with its field and full queries, `Other` is `PLAN_OTHER`, a type the switch does not
list is "invalid SQL", and the other types go to their analysers, which are not under src/ and
are parameters, as the parser is. The field query prints the statement through
`FormatImpossible`: that is the statement rewritten as the spec says, printed
(`fieldQuery_prints_impossible`).
-/

namespace Cm.Planbuilder

open Cm.Sqlparser Cm.Schema

/-- Modelled from the spec: `sqlparser.AST_LEFT_JOIN`. -/
def astLeftJoin : String := "left join"

/-- Modelled from the spec: `sqlparser.AST_RIGHT_JOIN`. -/
def astRightJoin : String := "right join"

/-- `buf.Myprintf("%v", node)` with `FormatImpossible` as the node formatter: a select prints
`select %v from %v where 1 != 1`, a left or right join `%v %s %v on 1 != 1`, another join
`%v %s %v`, and any other node its own `Format`, whose children go through `FormatImpossible`
again. -/
def formatImpossible : SQLNode → TrackedBuffer
  | .text s => .ofText s
  | .bindVar name => ⟨name, [name]⟩
  | .append first second => formatImpossible first ++ formatImpossible second
  | .select _ selectExprs fromClause _ =>
    TrackedBuffer.ofText "select " ++ formatImpossible selectExprs ++
      TrackedBuffer.ofText " from " ++ formatImpossible fromClause ++
      TrackedBuffer.ofText " where 1 != 1"
  | .join left joinType right | .joinOn left joinType right _ =>
    if joinType = astLeftJoin ∨ joinType = astRightJoin then
      formatImpossible left ++ TrackedBuffer.ofText (" " ++ joinType ++ " ") ++
        formatImpossible right ++ TrackedBuffer.ofText " on 1 != 1"
    else
      formatImpossible left ++ TrackedBuffer.ofText (" " ++ joinType ++ " ") ++
        formatImpossible right

/-- `GenerateFullQuery(statement)`: the statement's `Format`. A `ParsedQuery` is its query
text. -/
def generateFullQuery (statement : SQLNode) : String := statement.format.text

/-- `GenerateFieldQuery(statement)`: nil when the buffer recorded a bind variable. -/
def generateFieldQuery (statement : SQLNode) : Option String :=
  let buf := formatImpossible statement
  if buf.bindVars = [] then some buf.text else none

/-- The spec's field query statement: in each select, what is not its select expressions or its
`From` is replaced by `where 1 != 1`, and each left or right join's `On` by `1 != 1`; other joins
lose their `On`. -/
def rewriteImpossible : SQLNode → SQLNode
  | .text s => .text s
  | .bindVar name => .bindVar name
  | .append first second => .append (rewriteImpossible first) (rewriteImpossible second)
  | .select _ selectExprs fromClause _ =>
    .select (.text "") (rewriteImpossible selectExprs) (rewriteImpossible fromClause)
      (.text " where 1 != 1")
  | .join left joinType right | .joinOn left joinType right _ =>
    if joinType = astLeftJoin ∨ joinType = astRightJoin then
      .joinOn (rewriteImpossible left) joinType (rewriteImpossible right) (.text "1 != 1")
    else .join (rewriteImpossible left) joinType (rewriteImpossible right)

/-! ## The field query -/

/-- Printing through `FormatImpossible` prints the rewritten statement. -/
theorem formatImpossible_eq_format (statement : SQLNode) :
    formatImpossible statement = (rewriteImpossible statement).format := by
  induction statement with
  | text | bindVar => rfl
  | append first second hFirst hSecond =>
    simp only [formatImpossible, rewriteImpossible, SQLNode.format, hFirst, hSecond]
  | select head selectExprs fromClause tail _ hSelectExprs hFromClause _ =>
    ext <;> simp [formatImpossible, rewriteImpossible, SQLNode.format, hSelectExprs, hFromClause,
      String.append_assoc]
  | join left joinType right hLeft hRight | joinOn left joinType right _ hLeft hRight _ =>
    simp only [formatImpossible, rewriteImpossible]
    split_ifs <;> ext <;> simp [SQLNode.format, hLeft, hRight, String.append_assoc]

theorem bindVars_rewriteImpossible_sublist (statement : SQLNode) :
    (rewriteImpossible statement).format.bindVars.Sublist statement.format.bindVars := by
  induction statement with
  | text | bindVar => exact List.Sublist.refl _
  | append first second hFirst hSecond =>
    simpa [rewriteImpossible, SQLNode.format] using hFirst.append hSecond
  | select head selectExprs fromClause tail _ hSelectExprs hFromClause _ =>
    simpa [rewriteImpossible, SQLNode.format] using
      (hSelectExprs.append (hFromClause.trans (List.sublist_append_left _ _))).trans
        (List.sublist_append_right _ _)
  | join left joinType right hLeft hRight =>
    simp only [rewriteImpossible]
    split_ifs <;> simpa [SQLNode.format] using hLeft.append hRight
  | joinOn left joinType right _ hLeft hRight _ =>
    simp only [rewriteImpossible]
    split_ifs <;> simpa [SQLNode.format] using
      (hLeft.append hRight).trans (List.sublist_append_left _ _)

/- A left join with a bind variable in its select's `where`: the field query keeps the join,
with `on 1 != 1`, and drops the `where` with its bind variable. -/
example :
    generateFieldQuery (.select (.text "") (.text "a")
        (.joinOn (.text "t") "left join" (.text "u") (.text "t.id = u.id"))
        (.append (.text " where b = ") (.bindVar ":b"))) =
      some "select a from t left join u on 1 != 1 where 1 != 1" := by
  decide

/-! ## Routing a statement -/

/-- Modelled from the spec: the plan kinds of `ExecPlan.PlanId`. -/
inductive PlanType
  | passSelect
  | pkEqual
  | pkIn
  | selectSubquery
  | passDML
  | dmlPK
  | dmlSubquery
  | insertPK
  | insertSubquery
  | set
  | ddl
  | other
  deriving DecidableEq, Repr

/-- Modelled from the spec: the reasons of `ExecPlan.Reason`; `default` is the zero value. -/
inductive ReasonType
  | default
  | select
  | table
  | tableNoindex
  | pkChange
  | hasHints
  | upsert
  deriving DecidableEq, Repr

/-- The fields of `ExecPlan` that `analyzeSQL` sets; the analysers set the others. -/
structure ExecPlan where
  planId : PlanType
  reason : ReasonType
  fieldQuery : Option String
  fullQuery : Option String
  deriving DecidableEq, Repr

/-- Modelled from the spec: the type of a parsed statement. `replace` is the `*Replace` that
`GenerateReplaceOuterQuery` prints, and `unlisted` any other type. -/
inductive StatementType
  | union
  | select
  | insert
  | update
  | delete
  | set
  | ddl
  | other
  | replace
  | unlisted
  deriving DecidableEq, Repr

/-- A parsed statement: its type and its tree. -/
structure Statement where
  type : StatementType
  node : SQLNode
  deriving DecidableEq, Repr

/-- `TableGetter`: the schema of a table, by name. -/
abbrev TableGetter := String → Option Table

/-- The analysers `analyzeSQL` routes to, none of which is under src/. -/
structure Analysers where
  analyzeSelect : SQLNode → TableGetter → Except String ExecPlan
  analyzeInsert : SQLNode → TableGetter → Except String ExecPlan
  analyzeUpdate : SQLNode → TableGetter → Except String ExecPlan
  analyzeDelete : SQLNode → TableGetter → Except String ExecPlan
  analyzeSet : SQLNode → ExecPlan
  analyzeDDL : SQLNode → TableGetter → ExecPlan

/-- `analyzeSQL(statement, getTable)`. -/
def analyzeSQL (analysers : Analysers) (statement : Statement) (getTable : TableGetter) :
    Except String ExecPlan :=
  match statement.type with
  | .union => .ok ⟨.passSelect, .select, generateFieldQuery statement.node,
      some (generateFullQuery statement.node)⟩
  | .select => analysers.analyzeSelect statement.node getTable
  | .insert => analysers.analyzeInsert statement.node getTable
  | .update => analysers.analyzeUpdate statement.node getTable
  | .delete => analysers.analyzeDelete statement.node getTable
  | .set => .ok (analysers.analyzeSet statement.node)
  | .ddl => .ok (analysers.analyzeDDL statement.node getTable)
  | .other => .ok ⟨.other, .default, none, none⟩
  | .replace | .unlisted => .error "invalid SQL"

/-- `GetExecPlan(sql, getTable)` with the parser `parse`; its warning on a `PLAN_PASS_DML` plan
is a log line only. -/
def getExecPlan (parse : String → Except String Statement) (analysers : Analysers) (sql : String)
    (getTable : TableGetter) : Except String ExecPlan :=
  (parse sql).bind fun statement => analyzeSQL analysers statement getTable

/-- Whether an analyser answers the statement with the error `e`. -/
def Analysers.Fails (analysers : Analysers) (statement : Statement) (getTable : TableGetter)
    (e : String) : Prop :=
  match statement.type with
  | .select => analysers.analyzeSelect statement.node getTable = .error e
  | .insert => analysers.analyzeInsert statement.node getTable = .error e
  | .update => analysers.analyzeUpdate statement.node getTable = .error e
  | .delete => analysers.analyzeDelete statement.node getTable = .error e
  | _ => False

end Cm.Planbuilder
