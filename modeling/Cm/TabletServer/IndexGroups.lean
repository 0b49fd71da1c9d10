import Mathlib.Data.List.Chain
import Cm.TabletServer.TableInfo

/-!
# Grouping `show index` rows into indexes

The row loop of `fetchIndexes` starts an index whenever the index name changes. Its result is
one index per maximal run of consecutive rows with the same name (`indexRuns`), whatever the
rows. When every index's rows are contiguous, as the server sends them, that is one index per
distinct name, in order of first appearance.
-/

namespace Cm.TabletServer

open Cm.Schema

/-- The maximal runs of consecutive rows with the same index name, each with its name. -/
def indexRuns : List IndexRow → List (String × List IndexRow)
  | [] => []
  | row :: rows =>
    match indexRuns rows with
    | (name, run) :: rest =>
      if name = row.keyName then (name, row :: run) :: rest
      else (row.keyName, [row]) :: (name, run) :: rest
    | [] => [(row.keyName, [row])]

/-- Every index name appears in one run of consecutive rows: each row's name is the next
row's, or does not come again. -/
def Contiguous : List String → Prop
  | [] => True
  | name :: names => (names.head? = some name ∨ name ∉ names) ∧ Contiguous names

/-- `Contiguous`, decided name by name. -/
def decideContiguous : (names : List String) → Decidable (Contiguous names)
  | [] => isTrue trivial
  | name :: names =>
    haveI := decideContiguous names
    inferInstanceAs (Decidable ((names.head? = some name ∨ name ∉ names) ∧ Contiguous names))

instance : DecidablePred Contiguous := decideContiguous

/-- The first run starts at the first row and has its name. -/
theorem indexRuns_cons (row : IndexRow) (rows : List IndexRow) :
    ∃ run rest, indexRuns (row :: rows) = (row.keyName, row :: run) :: rest := by
  rcases hRuns : indexRuns rows with _ | ⟨⟨name, run⟩, rest⟩
  · exact ⟨[], [], by simp [indexRuns, hRuns]⟩
  · by_cases hName : name = row.keyName
    · exact ⟨run, rest, by simp [indexRuns, hRuns, hName]⟩
    · exact ⟨[], (name, run) :: rest, by simp [indexRuns, hRuns, hName]⟩

theorem indexRuns_cons_of_cons (row : IndexRow) {rows : List IndexRow} {name : String}
    {run : List IndexRow} {rest : List (String × List IndexRow)}
    (hSplit : indexRuns rows = (name, run) :: rest) :
    indexRuns (row :: rows) =
      if name = row.keyName then (name, row :: run) :: rest
      else (row.keyName, [row]) :: (name, run) :: rest := by
  rw [indexRuns, hSplit]

/-- The runs are the rows cut where the name changes: together they are the rows, each is a
non-empty block of rows of its name, and consecutive runs have different names. -/
theorem indexRuns_maximal (rows : List IndexRow) :
    ((indexRuns rows).map Prod.snd).flatten = rows ∧
      (∀ run ∈ indexRuns rows, run.2 ≠ [] ∧ ∀ row ∈ run.2, row.keyName = run.1) ∧
      ((indexRuns rows).map Prod.fst).Chain' (· ≠ ·) := by
  induction rows with
  | nil => simp [indexRuns]
  | cons row rows inductionHypothesis =>
    obtain ⟨hFlatten, hRuns, hChain⟩ := inductionHypothesis
    rcases hSplit : indexRuns rows with _ | ⟨⟨name, run⟩, rest⟩
    · obtain rfl : rows = [] := by simpa [hSplit] using hFlatten.symm
      simp [indexRuns]
    · simp only [hSplit, List.map_cons, List.flatten_cons, List.forall_mem_cons]
        at hFlatten hRuns hChain
      by_cases hName : name = row.keyName
      · simp only [indexRuns, hSplit, if_pos hName, List.map_cons, List.flatten_cons,
          List.forall_mem_cons]
        exact ⟨by rw [← hFlatten]; rfl, ⟨⟨List.cons_ne_nil _ _, hName.symm, hRuns.1.2⟩, hRuns.2⟩,
          hChain⟩
      · simp only [indexRuns, hSplit, if_neg hName, List.map_cons, List.flatten_cons,
          List.forall_mem_cons, List.chain'_cons]
        exact ⟨by rw [← hFlatten]; rfl, ⟨⟨List.cons_ne_nil _ _, by simp⟩, hRuns⟩, Ne.symm hName,
          hChain⟩

section EraseDups

variable {α : Type} [BEq α]

theorem mem_of_mem_eraseDups_loop {x : α} :
    ∀ {l bs : List α}, x ∈ List.eraseDups.loop l bs → x ∈ l ∨ x ∈ bs
  | [], bs, h => .inr (by simpa [List.eraseDups.loop] using h)
  | a :: l, bs, h => by
    unfold List.eraseDups.loop at h
    split at h
    · exact (mem_of_mem_eraseDups_loop h).imp (List.mem_cons_of_mem a) id
    · rcases mem_of_mem_eraseDups_loop h with h | h
      · exact .inl (List.mem_cons_of_mem a h)
      · rcases List.mem_cons.mp h with rfl | h
        exacts [.inl (List.mem_cons_self _ _), .inr h]

theorem mem_of_mem_eraseDups {x : α} {l : List α} (h : x ∈ l.eraseDups) : x ∈ l := by
  simpa using mem_of_mem_eraseDups_loop h

variable [LawfulBEq α]

theorem eraseDups_loop (l bs : List α) :
    List.eraseDups.loop l bs =
      bs.reverse ++ List.eraseDups.loop (l.filter fun a => !bs.elem a) [] := by
  match l with
  | [] => simp [List.eraseDups.loop]
  | a :: l =>
    cases hMem : bs.elem a
    · simp only [List.eraseDups.loop, hMem, List.elem_nil,
        List.filter_cons_of_pos (p := fun a => !bs.elem a) (a := a) (l := l)
          (by simp only [hMem, Bool.not_false])]
      rw [eraseDups_loop l (a :: bs), eraseDups_loop (l.filter _) [a], List.filter_filter]
      simp [Bool.not_or, Bool.and_comm]
    · simp only [List.eraseDups.loop, hMem,
        List.filter_cons_of_neg (p := fun a => !bs.elem a) (a := a) (l := l)
          (by simp only [hMem, Bool.not_true]; decide)]
      exact eraseDups_loop l bs
termination_by l.length
decreasing_by
  all_goals simp_wf
  exact Nat.lt_succ_of_le (List.length_filter_le _ _)

/-- `eraseDups` keeps the first occurrence and drops the later ones. -/
theorem eraseDups_cons (a : α) (l : List α) :
    (a :: l).eraseDups = a :: (l.filter fun b => !(b == a)).eraseDups := by
  rw [List.eraseDups, List.eraseDups.loop, List.elem_nil, eraseDups_loop l [a]]
  simp [List.eraseDups]

end EraseDups

/-- The run names of contiguous rows are their distinct names in order of first appearance. -/
theorem map_fst_indexRuns (rows : List IndexRow) (hContiguous : Contiguous (rows.map (·.keyName))) :
    (indexRuns rows).map Prod.fst = (rows.map (·.keyName)).eraseDups := by
  induction rows with
  | nil => rfl
  | cons row rows inductionHypothesis =>
    obtain ⟨hHead, hRest⟩ := hContiguous
    cases rows with
    | nil => rfl
    | cons next rows =>
      obtain ⟨run, rest, hSplit⟩ := indexRuns_cons next rows
      have hNames := inductionHypothesis hRest
      rw [hSplit, List.map_cons] at hNames
      rw [indexRuns_cons_of_cons row hSplit]
      by_cases hName : next.keyName = row.keyName
      · rw [if_pos hName, List.map_cons, hNames]
        simp [hName, eraseDups_cons]
      · have hFresh : row.keyName ∉ (next :: rows).map (·.keyName) := by
          simpa [hName] using hHead
        rw [if_neg hName, List.map_cons, List.map_cons, hNames, List.map_cons (·.keyName) row,
          eraseDups_cons, List.filter_eq_self.mpr fun name hMem => by
            simpa using fun hEq : name = row.keyName => hFresh (hEq ▸ hMem)]

/-- With contiguous rows and `PRIMARY` rows first, only the first run can be `PRIMARY`. -/
theorem indexRuns_tail_not_primary (rows : List IndexRow)
    (hContiguous : Contiguous (rows.map (·.keyName)))
    (hPrimaryFirst : ∀ row ∈ rows, row.keyName = "PRIMARY" →
      ∀ first ∈ rows.head?, first.keyName = "PRIMARY") :
    ∀ run ∈ (indexRuns rows).tail, run.1 ≠ "PRIMARY" := by
  intro run hRun hPrimary
  obtain ⟨hFlatten, hRuns, -⟩ := indexRuns_maximal rows
  have hInRuns := List.mem_of_mem_tail hRun
  obtain ⟨row, hRow⟩ := List.exists_mem_of_ne_nil _ (hRuns run hInRuns).1
  have hRowMem : row ∈ rows :=
    hFlatten ▸ List.mem_flatten.mpr ⟨run.2, List.mem_map_of_mem _ hInRuns, hRow⟩
  have hName := List.mem_map_of_mem Prod.fst hRun
  rw [List.map_tail, map_fst_indexRuns rows hContiguous] at hName
  cases rows with
  | nil => simp at hRowMem
  | cons first rows =>
    have hFirst := hPrimaryFirst row hRowMem (((hRuns run hInRuns).2 row hRow).trans hPrimary)
      first rfl
    rw [List.map_cons, eraseDups_cons, List.tail_cons] at hName
    have hOther := (List.mem_filter.mp (mem_of_mem_eraseDups hName)).2
    simp [hPrimary, hFirst] at hOther

section Grouping

variable (parseUint : String → UInt64)

/-- The columns of `rows` added in order, as the loop adds them. -/
def Index.addRows (index : Index) (rows : List IndexRow) : Index :=
  rows.foldl (fun index row => index.addColumn row.columnName (row.cardinalityValue parseUint))
    index

/-- The index the loop builds from one run. -/
def runIndex (run : String × List IndexRow) : Index :=
  Index.addRows parseUint (newIndex run.1) run.2

/-- The indexes a loop whose current index is `current` ends with: `current` takes the first
run if it has its name. -/
def mergeRuns (current : Index) : List (String × List IndexRow) → List Index
  | [] => [current]
  | (name, run) :: rest =>
    if name = current.name then Index.addRows parseUint current run :: rest.map (runIndex parseUint)
    else current :: ((name, run) :: rest).map (runIndex parseUint)

@[simp] theorem name_addColumn (index : Index) (name : String) (cardinality : UInt64) :
    (index.addColumn name cardinality).name = index.name := rfl

@[simp] theorem name_addRows (index : Index) (rows : List IndexRow) :
    (Index.addRows parseUint index rows).name = index.name := by
  induction rows generalizing index with
  | nil => rfl
  | cons row rows inductionHypothesis => exact inductionHypothesis _

@[simp] theorem name_runIndex (run : String × List IndexRow) :
    (runIndex parseUint run).name = run.1 := name_addRows parseUint _ _

theorem addRows_cons (index : Index) (row : IndexRow) (rows : List IndexRow) :
    Index.addRows parseUint index (row :: rows) =
      Index.addRows parseUint (index.addColumn row.columnName (row.cardinalityValue parseUint))
        rows := rfl

/-- A row of the current index's name joins the current index. -/
theorem mergeRuns_addColumn (current : Index) (row : IndexRow) (rows : List IndexRow)
    (hName : current.name = row.keyName) :
    mergeRuns parseUint (current.addColumn row.columnName (row.cardinalityValue parseUint))
        (indexRuns rows) =
      mergeRuns parseUint current (indexRuns (row :: rows)) := by
  rcases hRuns : indexRuns rows with _ | ⟨⟨name, run⟩, rest⟩
  · simp [indexRuns, hRuns, mergeRuns, hName, Index.addRows]
  · by_cases hRun : name = row.keyName
    · simp [indexRuns, hRuns, mergeRuns, hRun, hName, addRows_cons]
    · simp [indexRuns, hRuns, mergeRuns, hRun, hName, runIndex, Index.addRows]

/-- A row of another name closes the current index. -/
theorem mergeRuns_of_name_ne (current : Index) (row : IndexRow) (rows : List IndexRow)
    (hName : current.name ≠ row.keyName) :
    mergeRuns parseUint current (indexRuns (row :: rows)) =
      current :: (indexRuns (row :: rows)).map (runIndex parseUint) := by
  obtain ⟨run, rest, hRuns⟩ := indexRuns_cons row rows
  rw [hRuns, mergeRuns, if_neg (Ne.symm hName)]

/-- A new index started at a row, then the runs after it. -/
theorem mergeRuns_runIndex_single (row : IndexRow) (rows : List IndexRow) :
    mergeRuns parseUint (runIndex parseUint (row.keyName, [row])) (indexRuns rows) =
      (indexRuns (row :: rows)).map (runIndex parseUint) := by
  have hSingle : runIndex parseUint (row.keyName, [row]) =
      (newIndex row.keyName).addColumn row.columnName (row.cardinalityValue parseUint) := rfl
  rw [hSingle, mergeRuns_addColumn parseUint _ _ _ rfl]
  obtain ⟨run, rest, hRuns⟩ := indexRuns_cons row rows
  simp [hRuns, mergeRuns, runIndex, newIndex]

theorem step_of_name_eq (st : IndexLoop) (row : IndexRow) (current : Index)
    (hCurrent : st.current = some current) (hName : st.currentName = row.keyName) :
    IndexLoop.step parseUint st row =
      some { st with
        current := some (current.addColumn row.columnName (row.cardinalityValue parseUint)) } := by
  simp [IndexLoop.step, hName, hCurrent]

theorem step_of_name_ne (st : IndexLoop) (row : IndexRow) (current : Index)
    (hCurrent : st.current = some current) (hName : st.currentName ≠ row.keyName) :
    IndexLoop.step parseUint st row =
      some ⟨st.indexes ++ [current], some (runIndex parseUint (row.keyName, [row])),
        row.keyName⟩ := by
  simp [IndexLoop.step, hName, hCurrent, runIndex, Index.addRows]

theorem run_cons (st : IndexLoop) (row : IndexRow) (rows : List IndexRow) :
    IndexLoop.run parseUint st (row :: rows) =
      (IndexLoop.step parseUint st row).bind fun st => IndexLoop.run parseUint st rows := rfl

/-- The loop from a state with a current index: the indexes it ends with, the current one
last, are the runs of the rows merged into the current index. -/
theorem run_flush (st : IndexLoop) (current : Index) (hCurrent : st.current = some current)
    (hName : current.name = st.currentName) (rows : List IndexRow) :
    (IndexLoop.run parseUint st rows).map IndexLoop.tableIndexes =
      some (st.indexes ++ mergeRuns parseUint current (indexRuns rows)) := by
  induction rows generalizing st current with
  | nil => simp [IndexLoop.run, IndexLoop.tableIndexes, hCurrent, mergeRuns, indexRuns]
  | cons row rows inductionHypothesis =>
    rw [run_cons]
    by_cases hRow : st.currentName = row.keyName
    · have hNext := inductionHypothesis
        ⟨st.indexes, some (current.addColumn row.columnName (row.cardinalityValue parseUint)),
          st.currentName⟩ _ rfl hName
      rw [step_of_name_eq parseUint st row current hCurrent hRow, Option.some_bind, hNext,
        mergeRuns_addColumn parseUint _ _ _ (hName.trans hRow)]
    · have hNext := inductionHypothesis
        ⟨st.indexes ++ [current], some (runIndex parseUint (row.keyName, [row])), row.keyName⟩ _
          rfl (name_addRows _ _ _)
      rw [step_of_name_ne parseUint st row current hCurrent hRow, Option.some_bind, hNext,
        mergeRuns_runIndex_single, mergeRuns_of_name_ne parseUint _ _ _ (hName ▸ hRow)]
      simp

/-- The loop from its start, `currentIndex` nil and `currentName` empty, when the first row
names an index. -/
theorem run_initial (indexes : List Index) (rows : List IndexRow)
    (hFirst : ∀ row ∈ rows.head?, row.keyName ≠ "") :
    (IndexLoop.run parseUint ⟨indexes, none, ""⟩ rows).map IndexLoop.tableIndexes =
      some (indexes ++ (indexRuns rows).map (runIndex parseUint)) := by
  cases rows with
  | nil => simp [IndexLoop.run, IndexLoop.tableIndexes, indexRuns]
  | cons row rows =>
    have hStart : IndexLoop.step parseUint ⟨indexes, none, ""⟩ row =
        some ⟨indexes, some (runIndex parseUint (row.keyName, [row])), row.keyName⟩ := by
      simp [IndexLoop.step, Ne.symm (hFirst row rfl), runIndex, Index.addRows]
    rw [run_cons, hStart, Option.some_bind,
      run_flush parseUint ⟨indexes, _, row.keyName⟩ (runIndex parseUint (row.keyName, [row])) rfl
        (name_addRows _ _ _),
      mergeRuns_runIndex_single]

theorem fetchIndexes_ok (ti : TableInfo) (rows : List IndexRow)
    (hFirst : ∀ row ∈ rows.head?, row.keyName ≠ "") :
    ti.fetchIndexes parseUint (.ok rows) =
      some (.ok (TableInfo.derivePrimaryKey
        { ti with indexes := ti.indexes ++ (indexRuns rows).map (runIndex parseUint) })) := by
  obtain ⟨st, hSt, hIndexes⟩ :=
    Option.map_eq_some'.mp (run_initial parseUint ti.indexes rows hFirst)
  simp [TableInfo.fetchIndexes, hSt, hIndexes]

/-- A first row with an empty index name meets `currentIndex` still nil. -/
theorem fetchIndexes_empty_first_name (ti : TableInfo) (row : IndexRow) (rows : List IndexRow)
    (hName : row.keyName = "") : ti.fetchIndexes parseUint (.ok (row :: rows)) = none := by
  simp [TableInfo.fetchIndexes, run_cons, IndexLoop.step, hName]

/-! ## What the grouping gives each index -/

/-- An index's name, columns and cardinalities: what the row loop writes. -/
def Index.shape (index : Index) : String × List String × List UInt64 :=
  (index.name, index.columns, index.cardinality)

/-- The name, columns and cardinalities of a run's rows. -/
def runShape (run : String × List IndexRow) : String × List String × List UInt64 :=
  (run.1, run.2.map (·.columnName), run.2.map (·.cardinalityValue parseUint))

theorem shape_addRows (index : Index) (rows : List IndexRow) :
    Index.shape (Index.addRows parseUint index rows) =
      (index.name, index.columns ++ rows.map (·.columnName),
        index.cardinality ++ rows.map (·.cardinalityValue parseUint)) := by
  induction rows generalizing index with
  | nil => simp [Index.addRows, Index.shape]
  | cons row rows inductionHypothesis =>
    rw [addRows_cons, inductionHypothesis]
    simp [Index.addColumn]

theorem shape_runIndex (run : String × List IndexRow) :
    Index.shape (runIndex parseUint run) = runShape parseUint run := by
  simp [runIndex, shape_addRows, newIndex, runShape]

@[simp] theorem shape_coverColumn (index : Index) (c : String) :
    Index.shape (Index.coverColumn index c) = Index.shape index := by
  unfold Index.coverColumn
  split <;> rfl

theorem shape_coverPrimaryKey (pkColumns : List String) (index : Index) :
    Index.shape (Index.coverPrimaryKey pkColumns index) = Index.shape index := by
  suffices hFold :
      ∀ start, Index.shape (pkColumns.foldl Index.coverColumn start) = Index.shape start from
    hFold _
  induction pkColumns with
  | nil => exact fun _ => rfl
  | cons c pkColumns inductionHypothesis =>
    intro start
    rw [List.foldl_cons, inductionHypothesis, shape_coverColumn]

/-- `derivePrimaryKey` writes data columns and `PKColumns` only. -/
theorem shape_derivePrimaryKey (ti : TableInfo) :
    ti.derivePrimaryKey.indexes.map Index.shape = ti.indexes.map Index.shape := by
  unfold TableInfo.derivePrimaryKey
  split
  · rfl
  · rename_i pkIndex secondaries hIndexes
    split
    · rfl
    · simp only [hIndexes, List.map_cons, List.map_map]
      exact congrArg _ (List.map_congr_left fun index _ => shape_coverPrimaryKey _ index)

/-- The loop appends one index per maximal run of rows with one name, in run order, with the
run's columns and one cardinality per column; when each index's rows are contiguous the new
names are the distinct row names in order of first appearance. -/
theorem fetchIndexes_one_index_per_run (ti : TableInfo) (rows : List IndexRow)
    (hNames : ∀ row ∈ rows, row.keyName ≠ "") :
    ∃ ti', ti.fetchIndexes parseUint (.ok rows) = some (.ok ti') ∧
      ti'.indexes.map Index.shape =
        ti.indexes.map Index.shape ++ (indexRuns rows).map (runShape parseUint) ∧
      (Contiguous (rows.map (·.keyName)) →
        (ti'.indexes.drop ti.indexes.length).map (·.name) = (rows.map (·.keyName)).eraseDups) := by
  have hFirst : ∀ row ∈ rows.head?, row.keyName ≠ "" :=
    fun row hRow => hNames row (List.mem_of_mem_head? hRow)
  have hShapes : (TableInfo.derivePrimaryKey
      { ti with indexes := ti.indexes ++ (indexRuns rows).map (runIndex parseUint) }).indexes.map
        Index.shape = ti.indexes.map Index.shape ++ (indexRuns rows).map (runShape parseUint) := by
    rw [shape_derivePrimaryKey]
    simp only [List.map_append, List.map_map, Function.comp_def, shape_runIndex]
  refine ⟨_, fetchIndexes_ok parseUint ti rows hFirst, hShapes, fun hContiguous => ?_⟩
  have hNew := congrArg (fun shapes => (shapes.drop ti.indexes.length).map Prod.fst) hShapes
  simp only [← List.map_drop, List.map_map, List.drop_left' (List.length_map _ _)] at hNew
  rw [← map_fst_indexRuns rows hContiguous]
  exact hNew

end Grouping

theorem fetchIndexes_primary_then_key :
    ∃ ti', (⟨newTable "t", false⟩ : TableInfo).fetchIndexes (fun _ => 0)
        (.ok [⟨"PRIMARY", "id", none⟩, ⟨"k", "name", some "7"⟩]) = some (.ok ti') ∧
      ti'.indexes.map Index.shape =
        (⟨newTable "t", false⟩ : TableInfo).indexes.map Index.shape ++
          (indexRuns [⟨"PRIMARY", "id", none⟩, ⟨"k", "name", some "7"⟩]).map
            (runShape fun _ => 0) ∧
      (Contiguous (([⟨"PRIMARY", "id", none⟩, ⟨"k", "name", some "7"⟩] : List IndexRow).map
          (·.keyName)) →
        (ti'.indexes.drop (⟨newTable "t", false⟩ : TableInfo).indexes.length).map (·.name) =
          (([⟨"PRIMARY", "id", none⟩, ⟨"k", "name", some "7"⟩] : List IndexRow).map
            (·.keyName)).eraseDups) :=
  fetchIndexes_one_index_per_run (fun _ => 0) _ _ (by decide)

end Cm.TabletServer
