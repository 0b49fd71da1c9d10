import Cm.Planbuilder.Query

/-!
# Writes undone by a deferred call

`GenerateSelectLimitQuery` and `GenerateSelectSubquery` write a field of the caller's AST,
print, and set the field back in a deferred call. Such a call is modelled as a function of
the AST it writes: it returns its result, `none` where it panics, together with the AST as it
leaves it. `deferring` runs the deferred write on the AST the body leaves, so on every exit,
return or panic.

Both calls save a field, write it, and write the saved value back around a body that only
reads; `deferring_restores` says that such a call leaves the AST as it found it and that the
body reads the written field.
-/

namespace Cm.Planbuilder

open Cm.Sqlparser Cm.Schema

/-- A body with `defer restore()` as its first statement: `restore` runs on the AST the body
leaves, whether the body returns or panics. -/
def deferring {σ α : Type} (restore : σ → σ) (body : σ → α × σ) (s : σ) : α × σ :=
  ((body s).1, restore (body s).2)

/-- The `Hints` of the first `From` entry, where that entry is an aliased table expression. -/
def firstHints : List TableExpr → Option IndexHints
  | .aliased node :: _ => node.hints
  | _ => none

/-- A write of the `Hints` of the first `From` entry, through the pointer `table_expr` to it. -/
def setFirstHints (hints : Option IndexHints) : List TableExpr → List TableExpr
  | .aliased node :: rest => .aliased { node with hints } :: rest
  | exprs => exprs

/-- `GenerateSelectLimitQuery(selStmt)`: the printed statement, and the statement after the
call. A select without a limit is printed with `execLimit`, which a deferred call sets back
to nil. -/
def generateSelectLimitQuery (selStmt : SelectStatement) : String × SelectStatement :=
  match selStmt with
  | .select sel =>
    if sel.limit = none then
      -- `sel.Limit = execLimit`, and `defer func() { sel.Limit = nil }()`
      let (query, sel) := deferring (fun sel => { sel with limit := none })
        (fun sel => ((SelectStatement.select sel).format, sel)) { sel with limit := execLimit }
      (query, .select sel)
    else (selStmt.format, selStmt)
  | .union .. => (selStmt.format, selStmt)

/-- `GenerateSelectSubquery(sel, tableInfo, index)`: the subquery, or `none` for a panic, and
the select after the call. The first `From` entry is asserted to be an aliased table
expression; its hints are `use index (index)` while the subquery over the columns of
`tableInfo.Indexes[0]` is printed, and a deferred call sets them back. -/
def generateSelectSubquery (sel : Select) (tableInfo : Table) (index : String) :
    Option String × Select :=
  let hint : IndexHints := ⟨astUse, [index]⟩
  match sel.fromClause with
  | .aliased tableExpr :: _ =>
    let savedHint := tableExpr.hints
    -- `table_expr.Hints = hint`, and `defer func() { table_expr.Hints = savedHint }()`
    deferring (fun sel => { sel with fromClause := setFirstHints savedHint sel.fromClause })
      (fun sel => ((goIndex tableInfo.indexes 0).bind fun first =>
          generateSubquery first.columns { tableExpr with hints := some hint } sel.whereClause
            sel.orderBy sel.limit false, sel))
      { sel with fromClause := setFirstHints (some hint) sel.fromClause }
  -- `sel.From[0]` is out of range, or not an `*AliasedTableExpr`
  | _ => (none, sel)

/-! ## Save, write, and write back -/

section Restoring

variable {σ α β : Type} (get : σ → β) (set : σ → β → σ)

/-- A body that only reads, run after a write and with a deferred write-back of the saved
value, sees the written value and leaves the AST as it was. -/
theorem deferring_restores (hSetSet : ∀ s a b, set (set s a) b = set s b)
    (hSetGet : ∀ s, set s (get s) = s) (read : σ → α) (s : σ) (value : β) :
    deferring (set · (get s)) (fun s => (read s, s)) (set s value) = (read (set s value), s) := by
  simp only [deferring, hSetSet, hSetGet]

end Restoring

theorem setFirstHints_setFirstHints (a b : Option IndexHints) :
    ∀ exprs, setFirstHints b (setFirstHints a exprs) = setFirstHints b exprs
  | [] | .aliased _ :: _ | .other _ :: _ => rfl

theorem setFirstHints_firstHints : ∀ exprs, setFirstHints (firstHints exprs) exprs = exprs
  | [] | .aliased _ :: _ | .other _ :: _ => rfl

theorem generateSelectLimitQuery_of_limit_none (sel : Select) (hNone : sel.limit = none) :
    generateSelectLimitQuery (.select sel) =
      ((SelectStatement.select { sel with limit := execLimit }).format, .select sel) := by
  have hRestore := deferring_restores Select.limit (fun sel limit => { sel with limit })
    (fun _ _ _ => rfl) (fun _ => rfl) (fun sel => (SelectStatement.select sel).format) sel
    execLimit
  rw [hNone] at hRestore
  simp only [generateSelectLimitQuery, if_pos hNone, hRestore]

theorem generateSelectLimitQuery_of_not_limit_none (selStmt : SelectStatement)
    (hLimit : ∀ sel, selStmt = .select sel → sel.limit ≠ none) :
    generateSelectLimitQuery selStmt = (selStmt.format, selStmt) := by
  cases selStmt with
  | select sel => simp [generateSelectLimitQuery, hLimit sel rfl]
  | union => rfl

theorem generateSelectSubquery_eq (sel : Select) (tableInfo : Table) (index : String)
    (tableExpr : AliasedTableExpr) (rest : List TableExpr)
    (hFrom : sel.fromClause = .aliased tableExpr :: rest) :
    generateSelectSubquery sel tableInfo index =
      ((goIndex tableInfo.indexes 0).bind fun first =>
        generateSubquery first.columns { tableExpr with hints := some ⟨astUse, [index]⟩ }
          sel.whereClause sel.orderBy sel.limit false, sel) := by
  have hRestore := deferring_restores (fun sel => firstHints sel.fromClause)
    (fun sel hints => { sel with fromClause := setFirstHints hints sel.fromClause })
    (fun _ _ _ => by simp only [setFirstHints_setFirstHints])
    (fun _ => by simp only [setFirstHints_firstHints])
    (fun sel => (goIndex tableInfo.indexes 0).bind fun first =>
      generateSubquery first.columns { tableExpr with hints := some ⟨astUse, [index]⟩ }
        sel.whereClause sel.orderBy sel.limit false) sel (some ⟨astUse, [index]⟩)
  simp only [firstHints, hFrom] at hRestore
  rw [generateSelectSubquery, hFrom]
  exact hRestore

/-- `GenerateSelectLimitQuery` prints a select without a limit with `limit :#maxLimit` and any
other statement as it is, and `GenerateSelectSubquery` prints the first `From` entry with
`use index (index)`, in the subquery over the columns of the table's first index (it panics
when the table has no index or that index no column); both leave the AST as they found it, on
every exit. -/
theorem selectQueries_restore_ast :
    (∀ selStmt : SelectStatement,
      (∀ sel, selStmt = .select sel → sel.limit = none →
        (generateSelectLimitQuery selStmt).1 =
          (SelectStatement.select { sel with limit := execLimit }).format) ∧
      ((∀ sel, selStmt = .select sel → sel.limit ≠ none) →
        (generateSelectLimitQuery selStmt).1 = selStmt.format) ∧
      (generateSelectLimitQuery selStmt).2 = selStmt) ∧
    (∀ (sel : Select) (tableInfo : Table) (index : String) (tableExpr : AliasedTableExpr)
        (rest : List TableExpr), sel.fromClause = .aliased tableExpr :: rest →
      (generateSelectSubquery sel tableInfo index).1 =
        (tableInfo.indexes.head?.bind fun first => first.columns.getLast?.map fun _ =>
          "select " ++ String.intercalate ", " first.columns ++ " from " ++
            { tableExpr with hints := some ⟨astUse, [index]⟩ }.format ++
            formatWhere sel.whereClause ++ formatOrderBy sel.orderBy ++
            formatLimit (some (sel.limit.getD execLimit))) ∧
      (generateSelectSubquery sel tableInfo index).2 = sel) := by
  refine ⟨fun selStmt => ⟨fun sel hSel hNone => ?_, fun hLimit => ?_, ?_⟩,
    fun sel tableInfo index tableExpr rest hFrom => ?_⟩
  · rw [hSel, generateSelectLimitQuery_of_limit_none sel hNone]
  · rw [generateSelectLimitQuery_of_not_limit_none selStmt hLimit]
  · cases selStmt with
    | select sel =>
      by_cases hNone : sel.limit = none
      · rw [generateSelectLimitQuery_of_limit_none sel hNone]
      · rw [generateSelectLimitQuery_of_not_limit_none _ fun _ hSel => by cases hSel; exact hNone]
    | union => rfl
  · rw [generateSelectSubquery_eq sel tableInfo index tableExpr rest hFrom]
    cases tableInfo.indexes <;> simp [generateSubquery_eq]

/-- The spec's third scenario: `select a from t where idx_col = 7` on a table whose primary
key is `pk`, through the index `idx`; and a select that has a limit, printed as it is. -/
theorem selectQueries_restore_ast_idx :
    (generateSelectLimitQuery (.select ⟨"", "", "a", [.aliased ⟨"t", none, none⟩],
        some ⟨"where", "idx_col = 7"⟩, "", none, [], none, ""⟩)).1 =
      "select a from t where idx_col = 7 limit :#maxLimit" ∧
    (generateSelectLimitQuery (.select ⟨"", "", "a", [.aliased ⟨"t", none, none⟩], none, "",
        none, [], some ⟨none, "10"⟩, ""⟩)).1 = "select a from t limit 10" ∧
    (generateSelectLimitQuery (.select ⟨"", "", "a", [.aliased ⟨"t", none, none⟩],
        some ⟨"where", "idx_col = 7"⟩, "", none, [], none, ""⟩)).2 =
      .select ⟨"", "", "a", [.aliased ⟨"t", none, none⟩], some ⟨"where", "idx_col = 7"⟩, "",
        none, [], none, ""⟩ ∧
    generateSelectSubquery ⟨"", "", "a", [.aliased ⟨"t", none, none⟩],
        some ⟨"where", "idx_col = 7"⟩, "", none, [], none, ""⟩
      ⟨"t", [⟨"pk", .catNumber⟩, ⟨"a", .catOther⟩, ⟨"idx_col", .catNumber⟩],
        [⟨"PRIMARY", ["pk"], [1], []⟩, ⟨"idx", ["idx_col"], [1], []⟩], some [0], .cacheNone⟩
      "idx" =
      (some "select pk from t use index (idx) where idx_col = 7 limit :#maxLimit",
        ⟨"", "", "a", [.aliased ⟨"t", none, none⟩], some ⟨"where", "idx_col = 7"⟩, "", none, [],
          none, ""⟩) := by
  refine ⟨((selectQueries_restore_ast.1 _).1 _ rfl rfl).trans (by decide),
    ((selectQueries_restore_ast.1 _).2.1 (by rintro _ ⟨⟩; decide)).trans (by decide),
    (selectQueries_restore_ast.1 _).2.2, Prod.ext ?_ ?_⟩
  · exact ((selectQueries_restore_ast.2 _ _ _ _ _ rfl).1).trans (by decide)
  · exact (selectQueries_restore_ast.2 _ _ _ _ _ rfl).2

/-- A table without indexes: once the hint is set, `tableInfo.Indexes[0]` panics, and the
deferred call still sets the hint back. -/
theorem selectSubquery_panics_without_index :
    generateSelectSubquery ⟨"", "", "a", [.aliased ⟨"t", none, none⟩], none, "", none, [],
        none, ""⟩ (newTable "t") "idx" =
      (none, ⟨"", "", "a", [.aliased ⟨"t", none, none⟩], none, "", none, [], none, ""⟩) := by
  decide

end Cm.Planbuilder
