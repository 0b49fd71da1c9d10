import Cm.TabletServer.TableInfo

/-!
# `SetPK`

`SetPK(colnames)` fails at the first name that is not a column, before it changes anything.
Otherwise it puts a new `PRIMARY` index first, over `colnames` and covering every column: in
place of the old `PRIMARY` index, or in front of the old indexes, which the `append` and the
overlapping `copy` shift by one.
-/

namespace Cm.TabletServer

open Cm.Schema

/-- The index `SetPK(colnames)` builds. -/
def primaryIndex (ti : TableInfo) (colnames : List String) : Index :=
  ⟨"PRIMARY", colnames, colnames.map fun _ => 1, ti.columns.map (·.name)⟩

/-- The indexes other than a leading `PRIMARY` one. -/
def dropPrimary : List Index → List Index
  | [] => []
  | first :: others => if first.name = "PRIMARY" then others else first :: others

theorem foldl_addColumn_one (pkIndex : Index) (colnames : List String) :
    colnames.foldl (fun pkIndex colname => pkIndex.addColumn colname 1) pkIndex =
      { pkIndex with
        columns := pkIndex.columns ++ colnames,
        cardinality := pkIndex.cardinality ++ colnames.map fun _ => 1 } := by
  induction colnames generalizing pkIndex with
  | nil => simp
  | cons colname colnames inductionHypothesis =>
    rw [List.foldl_cons, inductionHypothesis]
    simp [Index.addColumn]

/-- The column loop stops at the first name `FindColumn` does not find. -/
theorem setPKColumns_eq (ti : TableInfo) (colnames : List String) (pkIndex : Index)
    (colnums : List Int) :
    ti.setPKColumns colnames (pkIndex, colnums) =
      match colnames.find? (ti.findColumn · = -1) with
      | some colname => .error ("column " ++ colname ++ " not found")
      | none =>
        .ok (colnames.foldl (fun pkIndex colname => pkIndex.addColumn colname 1) pkIndex,
          colnums ++ colnames.map ti.findColumn) := by
  induction colnames generalizing pkIndex colnums with
  | nil => simp [TableInfo.setPKColumns]
  | cons colname colnames inductionHypothesis =>
    by_cases hMissing : ti.findColumn colname = -1
    · simp [TableInfo.setPKColumns, hMissing]
    · simp [TableInfo.setPKColumns, hMissing, inductionHypothesis]

theorem placePrimary_eq (indexes : List Index) (pkIndex : Index) :
    placePrimary indexes pkIndex = pkIndex :: dropPrimary indexes := by
  cases indexes with
  | nil => rfl
  | cons first others =>
    by_cases hName : first.name = "PRIMARY"
    · simp [placePrimary, dropPrimary, hName]
    · have hShift : goCopy (others ++ [default]) (first :: others) = first :: others := by
        simp [goCopy]
      simp [placePrimary, dropPrimary, hName, hShift]

/-- `SetPK` fails at the first name that is not a column; otherwise it replaces or shifts. -/
theorem setPK_eq (ti : TableInfo) (colnames : List String) :
    ti.setPK colnames =
      match colnames.find? (· ∉ ti.columns.map (·.name)) with
      | some colname => .error ("column " ++ colname ++ " not found")
      | none =>
        .ok { ti with
          indexes := primaryIndex ti colnames :: dropPrimary ti.indexes,
          pkColumns := some (colnames.map ti.findColumn) } := by
  rw [TableInfo.setPK, setPKColumns_eq]
  simp only [findColumn_eq_neg_one_iff]
  cases colnames.find? (· ∉ ti.columns.map (·.name)) with
  | some colname => rfl
  | none => simp [foldl_addColumn_one, placePrimary_eq, primaryIndex, newIndex]

/-- A name that is not a column makes `SetPK` fail, before any change; otherwise the new
`PRIMARY` index comes first, followed by the old indexes without a leading `PRIMARY` one, and
`PKColumns` holds the names' positions. -/
theorem setPK_spec (ti : TableInfo) (colnames : List String) :
    ((∃ colname ∈ colnames, colname ∉ ti.columns.map (·.name)) →
      ∃ colname ∈ colnames, colname ∉ ti.columns.map (·.name) ∧
        ti.setPK colnames = .error ("column " ++ colname ++ " not found")) ∧
    ((∀ colname ∈ colnames, colname ∈ ti.columns.map (·.name)) →
      ti.setPK colnames = .ok { ti with
        indexes := primaryIndex ti colnames :: dropPrimary ti.indexes,
        pkColumns := some (colnames.map ti.findColumn) }) := by
  rw [setPK_eq]
  constructor
  · rintro ⟨colname, hMem, hMissing⟩
    cases hFind : colnames.find? (· ∉ ti.columns.map (·.name)) with
    | none => exact absurd hMissing (by simpa using List.find?_eq_none.mp hFind colname hMem)
    | some first =>
      have hFirst := List.find?_some hFind
      exact ⟨first, List.mem_of_find?_eq_some hFind, by simpa using hFirst, rfl⟩
  · intro hAll
    rw [List.find?_eq_none.mpr fun colname hMem => by simpa using hAll colname hMem]

end Cm.TabletServer
