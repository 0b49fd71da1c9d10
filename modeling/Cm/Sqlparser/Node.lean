import Mathlib.Data.List.Basic

/-!
# Statements as a tracked buffer prints them

A node of a parsed statement prints itself into a `TrackedBuffer`: its own text, bind variables,
which the buffer records, and its child nodes, which the buffer prints through its node
formatter when it has one. Two node types are told apart, `*Select` and `*JoinTableExpr`, the
ones `FormatImpossible` looks into; any other node is its text, bind variables and children.
-/

namespace Cm.Sqlparser

/-- Modelled from the spec: a node of a parsed statement. A `*Select` keeps its select
expressions and `From` apart from the rest of its `Format`: `head`, the comments and `distinct`,
and `tail`, the clauses after `From`. A `*JoinTableExpr` has its two sides, its join keyword and
its `On` condition when it has one. -/
inductive SQLNode
  | text (s : String)
  | bindVar (name : String)
  | append (first second : SQLNode)
  | select (head selectExprs fromClause tail : SQLNode)
  | join (left : SQLNode) (joinType : String) (right : SQLNode)
  | joinOn (left : SQLNode) (joinType : String) (right condition : SQLNode)
  deriving DecidableEq, Repr

/-- Modelled from the spec: the text a `TrackedBuffer` holds and the bind variables it
recorded, in order. -/
@[ext]
structure TrackedBuffer where
  text : String
  bindVars : List String
  deriving DecidableEq, Repr

instance : Append TrackedBuffer := ⟨fun a b => ⟨a.text ++ b.text, a.bindVars ++ b.bindVars⟩⟩

/-- Text written as it is. -/
def TrackedBuffer.ofText (s : String) : TrackedBuffer := ⟨s, []⟩

@[simp] theorem TrackedBuffer.text_append (a b : TrackedBuffer) :
    (a ++ b).text = a.text ++ b.text := rfl

@[simp] theorem TrackedBuffer.bindVars_append (a b : TrackedBuffer) :
    (a ++ b).bindVars = a.bindVars ++ b.bindVars := rfl

@[simp] theorem TrackedBuffer.text_ofText (s : String) : (TrackedBuffer.ofText s).text = s := rfl

@[simp] theorem TrackedBuffer.bindVars_ofText (s : String) :
    (TrackedBuffer.ofText s).bindVars = [] := rfl

/-- Modelled from the spec: `node.Format(buf)` into a buffer with no node formatter.
`Select.Format` prints `select %v%s%v from %v%v%v%v%v%v%s` and `JoinTableExpr.Format` prints
`%v %s %v`, then ` on %v` when it has an `On`; a bind variable is written and recorded. -/
def SQLNode.format : SQLNode → TrackedBuffer
  | .text s => .ofText s
  | .bindVar name => ⟨name, [name]⟩
  | .append first second => first.format ++ second.format
  | .select head selectExprs fromClause tail =>
    TrackedBuffer.ofText "select " ++ head.format ++ selectExprs.format ++
      TrackedBuffer.ofText " from " ++ fromClause.format ++ tail.format
  | .join left joinType right =>
    left.format ++ TrackedBuffer.ofText (" " ++ joinType ++ " ") ++ right.format
  | .joinOn left joinType right condition =>
    left.format ++ TrackedBuffer.ofText (" " ++ joinType ++ " ") ++ right.format ++
      TrackedBuffer.ofText " on " ++ condition.format

end Cm.Sqlparser
