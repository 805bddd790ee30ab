/-
  CustomDbms.Execution.RowValues
  ──────────────────────────────
  **WHAT STATEMENTS READ OF A ROW.**

  Clauses, assignments and checks look at the values of a row and never at its
  id.  So what an UPDATE or a DELETE makes of a table is a function of the
  values of its rows, whatever their ids and their order: `writtenValues` row
  by row, and `Writable` for the table as a whole.

    • `executeUpdate_written`, `executeDelete_written` — on a table in step the
      statement succeeds exactly on writable rows, and leaves what is written.
-/
import CustomDbms.Execution.Effects

namespace CustomDbms.Execution

open CustomDbms.Common CustomDbms.Catalog CustomDbms.Core CustomDbms.Index CustomDbms.Lib
open CustomDbms.Parser CustomDbms.Storage CustomDbms.Versioning

/-! ## §1. Values and ids. -/

/-- A row under another id. -/
def withId (i : RowId) (row : RowData) : RowData := { row with rowId := i }

/-- Values as a row without an id. -/
def rowOf (vs : List Value) : RowData := { values := vs }

theorem withId_rowOf (row : RowData) : withId row.rowId (rowOf row.values) = row := rfl

theorem evaluateValueExpression_withId (expr : Expression) (schema : TableSchema) (row : RowData)
    (i : RowId) : evaluateValueExpression expr schema (withId i row)
      = evaluateValueExpression expr schema row := by
  unfold evaluateValueExpression
  rfl

/-- **A clause reads values only.** -/
theorem evaluatePredicate_withId (re : RegexMatch) (schema : TableSchema) (row : RowData)
    (i : RowId) (expr : Expression) : evaluatePredicate re schema (withId i row) expr
      = evaluatePredicate re schema row expr := by
  induction expr with
  | logical op left right ihl ihr => rw [evaluatePredicate, evaluatePredicate, ihl, ihr]
  | literal v => simp only [evaluatePredicate, evaluateValueExpression_withId]
  | columnReference d t n => simp only [evaluatePredicate, evaluateValueExpression_withId]
  | binaryComparison op left right _ _ =>
      simp only [evaluatePredicate, evaluateValueExpression_withId]
  | between v lo hi _ _ _ => simp only [evaluatePredicate, evaluateValueExpression_withId]
  | like v p _ _ => simp only [evaluatePredicate, evaluateValueExpression_withId]
  | aggregateCall kind n => simp only [evaluatePredicate, evaluateValueExpression_withId]

theorem passes_withId (re : RegexMatch) (schema : TableSchema) (clause : Option Expression)
    (row : RowData) (i : RowId) : passes re schema clause (withId i row)
      = passes re schema clause row := by
  cases clause with
  | none => rfl
  | some expr => exact evaluatePredicate_withId re schema row i expr

theorem assignValues_withId (schema : TableSchema) (as : List Assignment) (row : RowData)
    (i : RowId) : assignValues schema as (withId i row)
      = (assignValues schema as row).map (withId i) := by
  induction as generalizing row with
  | nil => rfl
  | cons a as ih =>
      rw [assignValues, assignValues]
      cases findColumnIndex schema a.columnName with
      | none => rfl
      | some j =>
          dsimp only
          rw [evaluateValueExpression_withId]
          cases evaluateValueExpression a.value schema row with
          | error e => rfl
          | fault => rfl
          | ok v =>
              rw [Result.ok_bind, Result.ok_bind]
              by_cases hj : j < row.values.length
              · rw [if_pos hj, if_pos (show j < (withId i row).values.length from hj)]
                exact ih { row with values := row.values.set j v }
              · rw [if_neg hj, if_neg (show ¬ j < (withId i row).values.length from hj)]
                rfl

theorem validateRowAgainstSchema_withId (row : RowData) (schema : TableSchema) (i : RowId) :
    validateRowAgainstSchema (withId i row) schema
      = (validateRowAgainstSchema row schema).map (withId i) := by
  unfold validateRowAgainstSchema
  show (validateValues schema.columns row.values >>= _) = _
  cases validateValues schema.columns row.values with
  | error e => rfl
  | fault => rfl
  | ok vs => rfl

/-- **UPDATE computes values from values.** -/
theorem updateRow_withId (re : RegexMatch) (schema : TableSchema) (stmt : UpdateStatement)
    (row : RowData) (i : RowId) : updateRow re schema stmt (withId i row)
      = (updateRow re schema stmt row).map (Option.map (withId i)) := by
  unfold updateRow
  rw [passes_withId]
  cases passes re schema stmt.whereClause row with
  | error e => rfl
  | fault => rfl
  | ok pass =>
      rw [Result.ok_bind, Result.ok_bind]
      cases pass with
      | false => rfl
      | true =>
          rw [if_pos rfl, if_pos rfl, assignValues_withId]
          cases assignValues schema stmt.assignments row with
          | error e => rfl
          | fault => rfl
          | ok row' =>
              show (validateRowAgainstSchema (withId i row') schema >>= _) = _
              rw [validateRowAgainstSchema_withId]
              cases hvalid : validateRowAgainstSchema row' schema with
              | error e => simp [hvalid, Result.map]
              | fault => simp [hvalid, Result.map]
              | ok row'' => simp [hvalid, Result.map]

/-! ## §2. What is written. -/

/-- What an UPDATE or a DELETE makes of the values of a row: the values it
leaves, `none` for a row it deletes. -/
def writtenValues (re : RegexMatch) (schema : TableSchema) :
    Statement → List Value → Result (Option (List Value))
  | .update stmt, vs => (updateRow re schema stmt (rowOf vs)).map fun row' =>
      some ((row'.map (·.values)).getD vs)
  | .delete stmt, vs => (passes re schema stmt.whereClause (rowOf vs)).map fun pass =>
      if pass then none else some vs
  | _, vs => .ok (some vs)

/-- The same where it succeeds. -/
def written (re : RegexMatch) (schema : TableSchema) (statement : Statement) (vs : List Value) :
    Option (List Value) :=
  match writtenValues re schema statement vs with
  | .ok vs' => vs'
  | _ => none

/-- Values that can be indexed by a column: all have keys, all different. -/
def IndexableValues (schema : TableSchema) (n : Str) (vss : List (List Value)) : Prop :=
  (∀ vs ∈ vss, (indexKey schema n (rowOf vs)).isSome) ∧
    (vss.map fun vs => indexKey schema n (rowOf vs)).Nodup

theorem indexable_iff_values {schema : TableSchema} {n : Str} {rows : List RowData} :
    Indexable schema n rows ↔ IndexableValues schema n (rows.map (·.values)) := by
  unfold Indexable IndexableValues
  rw [List.map_map, List.forall_mem_map]
  rfl

/-- **The rows a write succeeds on**: each can be computed, and what is left
can be indexed. -/
structure Writable (re : RegexMatch) (schema : TableSchema) (statement : Statement)
    (vss : List (List Value)) : Prop where
  computed : ∀ vs ∈ vss, (writtenValues re schema statement vs).isOk = true
  indexable : ∀ n ∈ indexedColumns schema,
    IndexableValues schema n (vss.filterMap (written re schema statement))

section Rows

variable {re : RegexMatch} {schema : TableSchema}

theorem writtenValues_update {stmt : UpdateStatement} {row row' : RowData} {evs : List RowEvent}
    (h : UpdatedTo re schema stmt row row' evs) :
    writtenValues re schema (.update stmt) row.values = .ok (some row'.values) := by
  have hrow : updateRow re schema stmt row
      = (updateRow re schema stmt (rowOf row.values)).map (Option.map (withId row.rowId)) := by
    rw [← updateRow_withId, withId_rowOf]
  unfold writtenValues
  dsimp only
  cases h with
  | kept h =>
      rw [hrow] at h
      obtain ⟨o, ho, hnone⟩ := Result.map_eq_ok.mp h
      obtain rfl : o = none := Option.map_eq_none_iff.mp hnone
      rw [ho]
      rfl
  | changed h =>
      rw [hrow] at h
      obtain ⟨o, ho, hsome⟩ := Result.map_eq_ok.mp h
      obtain ⟨r, rfl, rfl⟩ := Option.map_eq_some_iff.mp hsome
      rw [ho]
      rfl

/-- **The rows an UPDATE goes through are computed from their values.** -/
theorem UpdatedRows.written {stmt : UpdateStatement} {rows rows' : List RowData}
    {evs : List RowEvent} (h : UpdatedRows re schema stmt rows rows' evs) :
    (∀ vs ∈ rows.map (·.values), (writtenValues re schema (.update stmt) vs).isOk = true) ∧
    rows'.map (·.values)
      = (rows.map (·.values)).filterMap (Execution.written re schema (.update stmt)) := by
  induction h with
  | nil => exact ⟨by simp, rfl⟩
  | @cons row row' rows rows' ev evs h _ ih =>
      have hrow := writtenValues_update h
      constructor
      · intro vs hvs
        rcases List.mem_cons.mp hvs with rfl | hvs
        · rw [hrow]
          rfl
        · exact ih.1 vs hvs
      · have hw : Execution.written re schema (.update stmt) row.values = some row'.values := by
          rw [Execution.written, hrow]
        rw [List.map_cons, List.map_cons, List.filterMap_cons_some hw, ih.2]

theorem exists_updatedRows {stmt : UpdateStatement} {rows : List RowData}
    (h : ∀ vs ∈ rows.map (·.values), (writtenValues re schema (.update stmt) vs).isOk = true) :
    ∃ rows' evs, UpdatedRows re schema stmt rows rows' evs := by
  induction rows with
  | nil => exact ⟨[], [], .nil⟩
  | cons row rows ih =>
      obtain ⟨rows', evs, hrest⟩ := ih fun vs hvs => h vs (List.mem_cons_of_mem _ hvs)
      have hrow := h row.values (by simp)
      have hupdate : updateRow re schema stmt row
          = (updateRow re schema stmt (rowOf row.values)).map (Option.map (withId row.rowId)) := by
        rw [← updateRow_withId, withId_rowOf]
      unfold writtenValues at hrow
      dsimp only at hrow
      cases hu : updateRow re schema stmt (rowOf row.values) with
      | error e => rw [hu] at hrow; cases hrow
      | fault => rw [hu] at hrow; cases hrow
      | ok o =>
          rw [hu] at hupdate
          cases o with
          | none => exact ⟨_, _, .cons (.kept hupdate) hrest⟩
          | some r => exact ⟨_, _, .cons (.changed hupdate) hrest⟩

theorem writtenValues_delete {stmt : DeleteStatement} {row : RowData} {pass : Bool}
    (h : passes re schema stmt.whereClause row = .ok pass) :
    writtenValues re schema (.delete stmt) row.values
      = .ok (if pass then none else some row.values) := by
  have hrow : passes re schema stmt.whereClause (rowOf row.values) = .ok pass := by
    rw [← h, ← withId_rowOf row, passes_withId]
    rfl
  unfold writtenValues
  dsimp only
  rw [hrow]
  rfl

/-- **The rows a DELETE goes through are kept or not by their values.** -/
theorem DeletedRows.written {stmt : DeleteStatement} {rows rows' : List RowData}
    {evs : List RowEvent} (h : DeletedRows re schema stmt.whereClause rows rows' evs) :
    (∀ vs ∈ rows.map (·.values), (writtenValues re schema (.delete stmt) vs).isOk = true) ∧
    rows'.map (·.values)
      = (rows.map (·.values)).filterMap (Execution.written re schema (.delete stmt)) := by
  induction h with
  | nil => exact ⟨by simp, rfl⟩
  | @kept row rows rows' evs h _ ih =>
      have hrow := writtenValues_delete h
      constructor
      · intro vs hvs
        rcases List.mem_cons.mp hvs with rfl | hvs
        · rw [hrow]
          rfl
        · exact ih.1 vs hvs
      · have hw : Execution.written re schema (.delete stmt) row.values = some row.values := by
          rw [Execution.written, hrow]
          rfl
        rw [List.map_cons, List.map_cons, List.filterMap_cons_some hw, ih.2]
  | @dropped row rows rows' evs h _ ih =>
      have hrow := writtenValues_delete h
      constructor
      · intro vs hvs
        rcases List.mem_cons.mp hvs with rfl | hvs
        · rw [hrow]
          rfl
        · exact ih.1 vs hvs
      · have hw : Execution.written re schema (.delete stmt) row.values = none := by
          rw [Execution.written, hrow]
          rfl
        rw [List.map_cons, List.filterMap_cons_none hw, ih.2]

theorem exists_deletedRows {stmt : DeleteStatement} {rows : List RowData}
    (h : ∀ vs ∈ rows.map (·.values), (writtenValues re schema (.delete stmt) vs).isOk = true) :
    ∃ rows' evs, DeletedRows re schema stmt.whereClause rows rows' evs := by
  induction rows with
  | nil => exact ⟨[], [], .nil⟩
  | cons row rows ih =>
      obtain ⟨rows', evs, hrest⟩ := ih fun vs hvs => h vs (List.mem_cons_of_mem _ hvs)
      have hrow := h row.values (by simp)
      have hpasses : passes re schema stmt.whereClause row
          = passes re schema stmt.whereClause (rowOf row.values) := by
        rw [← passes_withId re schema _ (rowOf row.values) row.rowId, withId_rowOf]
      unfold writtenValues at hrow
      dsimp only at hrow
      cases hp : passes re schema stmt.whereClause (rowOf row.values) with
      | error e => rw [hp] at hrow; cases hrow
      | fault => rw [hp] at hrow; cases hrow
      | ok pass =>
          rw [hp] at hpasses
          cases pass with
          | false => exact ⟨_, _, .kept hpasses hrest⟩
          | true => exact ⟨_, _, .dropped hpasses hrest⟩

end Rows

/-! ## §3. Tables. -/

/-- What a write leaves of a table: written where its rows are writable, as it
was where they are not. -/
def LeavesWritten (re : RegexMatch) (statement : Statement) (table : TableRuntime)
    (r : TableRuntime × VersionStore × Result QueryResult) : Prop :=
  (Writable re table.schema statement (table.heap.rows.map (·.values)) ∧ r.2.2.isOk = true ∧
    r.1.schema = table.schema ∧
    r.1.heap.rows.map (·.values)
      = (table.heap.rows.map (·.values)).filterMap (written re table.schema statement)) ∨
  (¬ Writable re table.schema statement (table.heap.rows.map (·.values)) ∧ r.1 = table ∧
    r.2.2.isOk = false)

theorem isOk_eq_false {α : Type} {r : Result α} (h : ∀ a, r ≠ .ok a) : r.isOk = false := by
  cases r with
  | ok a => exact absurd rfl (h a)
  | error e => rfl
  | fault => rfl

theorem executeUpdate_written (env : Env) (stmt : UpdateStatement) {d t : Str}
    {table : TableRuntime} (h : TableOk d t table) (v : VersionStore) :
    LeavesWritten env.regexMatch (.update stmt) table (executeUpdate env stmt d table v) := by
  rcases executeUpdate_replaces env stmt h v with
    ⟨rows, evs, ⟨hrows, hix⟩, ⟨hschema, hheap⟩, -, q, hq⟩ | ⟨hnot, hsame, hne, -⟩
  · obtain ⟨hok, hvalues⟩ := hrows.written
    refine .inl ⟨⟨hok, fun n hn => ?_⟩, by rw [hq]; rfl, hschema, by rw [hheap]; exact hvalues⟩
    rw [← hvalues]
    exact indexable_iff_values.mp (hix n hn)
  · refine .inr ⟨fun hw => ?_, hsame, isOk_eq_false hne⟩
    obtain ⟨rows', evs, hrows⟩ := exists_updatedRows hw.computed
    refine hnot rows' evs ⟨hrows, fun n hn => indexable_iff_values.mpr ?_⟩
    rw [hrows.written.2]
    exact hw.indexable n hn

theorem executeDelete_written (env : Env) (stmt : DeleteStatement) {d t : Str}
    {table : TableRuntime} (h : TableOk d t table) (v : VersionStore) :
    LeavesWritten env.regexMatch (.delete stmt) table (executeDelete env stmt d table v) := by
  rcases executeDelete_replaces env stmt h v with
    ⟨rows, evs, hrows, ⟨hschema, hheap⟩, -, q, hq⟩ | ⟨hnot, hsame, hne, -⟩
  · obtain ⟨hok, hvalues⟩ := hrows.written
    refine .inl ⟨⟨hok, fun n hn => ?_⟩, by rw [hq]; rfl, hschema, by rw [hheap]; exact hvalues⟩
    rw [← hvalues]
    exact indexable_iff_values.mp (indexable_sublist (h.indexable hn) hrows.sublist)
  · refine .inr ⟨fun hw => ?_, hsame, isOk_eq_false hne⟩
    obtain ⟨rows', evs, hrows⟩ := exists_deletedRows hw.computed
    exact hnot rows' evs hrows

end CustomDbms.Execution
