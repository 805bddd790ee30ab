/-
  CustomDbms.Execution.RowEvents
  ──────────────────────────────
  **WHAT THE ROW LOOPS LOG.**

  The loops of `UPDATE`, `DELETE` and `REVERT` append to the change log while
  they run and may stop in the middle.  Each is described by the list of row
  events it appends and, where it comes to its end, by the rows it returns:
  a loop never logs anything else, and a loop that ends has logged exactly the
  rows it changed.
-/
import CustomDbms.Execution.ExecutionEngine

namespace CustomDbms.Execution

open CustomDbms.Common CustomDbms.Catalog CustomDbms.Core CustomDbms.Lib CustomDbms.Parser
open CustomDbms.Storage CustomDbms.Versioning

/-! ## §1. Row events. -/

/-- A change of one row. -/
inductive RowEvent where
  | inserted (row : RowData)
  | updated (before after : RowData)
  | deleted (row : RowData)

namespace RowEvent

/-- The kind of its record. -/
def kind : RowEvent → ChangeKind
  | inserted _ => .insertRow
  | updated _ _ => .updateRow
  | deleted _ => .deleteRow

/-- The `before_row` of its record. -/
def before : RowEvent → Option RowData
  | inserted _ => none
  | updated b _ => some b
  | deleted b => some b

/-- The `after_row` of its record. -/
def after : RowEvent → Option RowData
  | inserted a => some a
  | updated _ a => some a
  | deleted _ => none

end RowEvent

/-- Events appended one after the other. -/
def logEvents (env : Env) (databaseName tableName : Str) (v : VersionStore)
    (events : List RowEvent) : VersionStore :=
  events.foldl (fun v ev =>
    appendChangeEvent env v ev.kind databaseName tableName none ev.before ev.after) v

@[simp] theorem logEvents_nil (env : Env) (d t : Str) (v : VersionStore) :
    logEvents env d t v [] = v := rfl

theorem logEvents_cons (env : Env) (d t : Str) (v : VersionStore) (ev : RowEvent)
    (evs : List RowEvent) : logEvents env d t v (ev :: evs)
      = logEvents env d t (appendChangeEvent env v ev.kind d t none ev.before ev.after) evs := rfl

theorem logEvents_append (env : Env) (d t : Str) (v : VersionStore) (A B : List RowEvent) :
    logEvents env d t v (A ++ B) = logEvents env d t (logEvents env d t v A) B :=
  List.foldl_append

/-! ## §2. UPDATE. -/

/-- One row before and after an `UPDATE`, with its event. -/
inductive UpdatedTo (re : RegexMatch) (schema : TableSchema) (stmt : UpdateStatement) :
    RowData → RowData → List RowEvent → Prop where
  | kept {row : RowData} (h : updateRow re schema stmt row = .ok none) :
      UpdatedTo re schema stmt row row []
  | changed {row row' : RowData} (h : updateRow re schema stmt row = .ok (some row')) :
      UpdatedTo re schema stmt row row' [.updated row row']

/-- All rows before and after an `UPDATE`, with the events. -/
inductive UpdatedRows (re : RegexMatch) (schema : TableSchema) (stmt : UpdateStatement) :
    List RowData → List RowData → List RowEvent → Prop where
  | nil : UpdatedRows re schema stmt [] [] []
  | cons {row row' : RowData} {rows rows' : List RowData} {ev evs : List RowEvent}
      (h : UpdatedTo re schema stmt row row' ev) (hs : UpdatedRows re schema stmt rows rows' evs) :
      UpdatedRows re schema stmt (row :: rows) (row' :: rows') (ev ++ evs)

/-- **What the loop of `UPDATE` does.**  The rows up to some point have been
processed and logged; the point is the end, or a row the loop fails on. -/
theorem updateRows_spec (env : Env) (d : Str) (schema : TableSchema) (stmt : UpdateStatement)
    (rows : List RowData) (v : VersionStore) :
    ∃ A B A' evs, rows = A ++ B ∧ UpdatedRows env.regexMatch schema stmt A A' evs ∧
      (updateRows env d schema stmt rows v).1 = logEvents env d schema.tableName v evs ∧
      ((B = [] ∧ ∃ n, (updateRows env d schema stmt rows v).2 = .ok (A', n)) ∨
        (∃ row B', B = row :: B' ∧ (∀ r, updateRow env.regexMatch schema stmt row ≠ .ok r) ∧
          ∀ r, (updateRows env d schema stmt rows v).2 ≠ .ok r)) := by
  induction rows generalizing v with
  | nil => exact ⟨[], [], [], [], rfl, .nil, rfl, .inl ⟨rfl, 0, rfl⟩⟩
  | cons row rows ih =>
      rw [updateRows]
      cases hrow : updateRow env.regexMatch schema stmt row with
      | error e =>
          exact ⟨[], row :: rows, [], [], rfl, .nil, rfl,
            .inr ⟨row, rows, rfl, by simp [hrow], by simp⟩⟩
      | fault =>
          exact ⟨[], row :: rows, [], [], rfl, .nil, rfl,
            .inr ⟨row, rows, rfl, by simp [hrow], by simp⟩⟩
      | ok o =>
          cases o with
          | none =>
              obtain ⟨A, B, A', evs, hAB, hA, hlog, hend⟩ := ih v
              refine ⟨row :: A, B, row :: A', evs, by rw [hAB]; rfl, .cons (.kept hrow) hA, hlog, ?_⟩
              exact hend.imp (fun ⟨hB, n, hn⟩ => ⟨hB, n, by simp [hn]⟩)
                fun ⟨r, B', hB, hfail, hne⟩ => ⟨r, B', hB, hfail, Result.map_ne_ok hne⟩
          | some row' =>
              obtain ⟨A, B, A', evs, hAB, hA, hlog, hend⟩ := ih (appendChangeEvent env v .updateRow d
                schema.tableName none (some row) (some row'))
              refine ⟨row :: A, B, row' :: A', [.updated row row'] ++ evs, by rw [hAB]; rfl,
                .cons (.changed hrow) hA, ?_, ?_⟩
              · rw [logEvents_append]
                exact hlog
              · exact hend.imp (fun ⟨hB, n, hn⟩ => ⟨hB, n + 1, by simp [hn]⟩)
                  fun ⟨r, B', hB, hfail, hne⟩ => ⟨r, B', hB, hfail, Result.map_ne_ok hne⟩

/-! ## §3. DELETE. -/

/-- The rows a `DELETE` keeps of a list it has gone through, with the events. -/
inductive DeletedRows (re : RegexMatch) (schema : TableSchema) (whereClause : Option Expression) :
    List RowData → List RowData → List RowEvent → Prop where
  | nil : DeletedRows re schema whereClause [] [] []
  | kept {row : RowData} {rows rows' : List RowData} {evs : List RowEvent}
      (h : passes re schema whereClause row = .ok false)
      (hs : DeletedRows re schema whereClause rows rows' evs) :
      DeletedRows re schema whereClause (row :: rows) (row :: rows') evs
  | dropped {row : RowData} {rows rows' : List RowData} {evs : List RowEvent}
      (h : passes re schema whereClause row = .ok true)
      (hs : DeletedRows re schema whereClause rows rows' evs) :
      DeletedRows re schema whereClause (row :: rows) rows' (.deleted row :: evs)

/-- **What the loop of `DELETE` does.** -/
theorem deleteRows_spec (env : Env) (d : Str) (schema : TableSchema) (stmt : DeleteStatement)
    (rows : List RowData) (v : VersionStore) :
    ∃ A B A' evs, rows = A ++ B ∧ DeletedRows env.regexMatch schema stmt.whereClause A A' evs ∧
      (deleteRows env d schema stmt rows v).1 = logEvents env d schema.tableName v evs ∧
      ((B = [] ∧ ∃ n, (deleteRows env d schema stmt rows v).2 = .ok (A', n)) ∨
        (∃ row B', B = row :: B' ∧
          (∀ b, passes env.regexMatch schema stmt.whereClause row ≠ .ok b) ∧
          ∀ r, (deleteRows env d schema stmt rows v).2 ≠ .ok r)) := by
  induction rows generalizing v with
  | nil => exact ⟨[], [], [], [], rfl, .nil, rfl, .inl ⟨rfl, 0, rfl⟩⟩
  | cons row rows ih =>
      rw [deleteRows]
      cases hrow : passes env.regexMatch schema stmt.whereClause row with
      | error e =>
          exact ⟨[], row :: rows, [], [], rfl, .nil, rfl,
            .inr ⟨row, rows, rfl, by simp [hrow], by simp⟩⟩
      | fault =>
          exact ⟨[], row :: rows, [], [], rfl, .nil, rfl,
            .inr ⟨row, rows, rfl, by simp [hrow], by simp⟩⟩
      | ok b =>
          cases b with
          | false =>
              obtain ⟨A, B, A', evs, hAB, hA, hlog, hend⟩ := ih v
              refine ⟨row :: A, B, row :: A', evs, by rw [hAB]; rfl, .kept hrow hA, hlog, ?_⟩
              exact hend.imp (fun ⟨hB, n, hn⟩ => ⟨hB, n, by simp [hn]⟩)
                fun ⟨r, B', hB, hfail, hne⟩ => ⟨r, B', hB, hfail, Result.map_ne_ok hne⟩
          | true =>
              obtain ⟨A, B, A', evs, hAB, hA, hlog, hend⟩ := ih (appendChangeEvent env v .deleteRow d
                schema.tableName none (some row) none)
              refine ⟨row :: A, B, A', .deleted row :: evs, by rw [hAB]; rfl, .dropped hrow hA,
                hlog, ?_⟩
              exact hend.imp (fun ⟨hB, n, hn⟩ => ⟨hB, n + 1, by simp [hn]⟩)
                fun ⟨r, B', hB, hfail, hne⟩ => ⟨r, B', hB, hfail, Result.map_ne_ok hne⟩

theorem DeletedRows.sublist {re : RegexMatch} {schema : TableSchema} {w : Option Expression}
    {rows rows' : List RowData} {evs : List RowEvent} (h : DeletedRows re schema w rows rows' evs) :
    List.Sublist rows' rows := by
  induction h with
  | nil => exact List.Sublist.refl _
  | kept _ _ ih => exact ih.cons_cons _
  | dropped _ _ ih => exact ih.cons _

/-! ## §4. REVERT. -/

/-- The event of the first loop of `REVERT` for one current row. -/
def removalEvent (target : Dict RowId RowData) (p : RowId × RowData) : Option RowEvent :=
  match target.find? p.1 with
  | none => some (.deleted p.2)
  | some row => if rowValuesEqual p.2.values row.values then none else some (.updated p.2 row)

/-- The event of the second loop for one target row. -/
def restoreEvent (current : Dict RowId RowData) (p : RowId × RowData) : Option RowEvent :=
  if current.contains p.1 then none else some (.inserted p.2)

/-- The events that lead from the current to the target rows. -/
def revertEvents (current target : Dict RowId RowData) : List RowEvent :=
  current.entries.filterMap (removalEvent target) ++ target.entries.filterMap (restoreEvent current)

/-- A loop that logs at most one event in each turn. -/
theorem foldl_logEvents {α : Type} (env : Env) (d t : Str) (event : α → Option RowEvent)
    (step : VersionStore → α → VersionStore)
    (hstep : ∀ v a, step v a = logEvents env d t v (event a).toList) (l : List α)
    (v : VersionStore) : l.foldl step v = logEvents env d t v (l.filterMap event) := by
  induction l generalizing v with
  | nil => rfl
  | cons a l ih =>
      rw [List.foldl_cons, ih, hstep, ← logEvents_append, List.filterMap_cons]
      cases event a <;> rfl

/-- **What `REVERT` logs.** -/
theorem logRevert_eq (env : Env) (d t : Str) (current target : Dict RowId RowData)
    (v : VersionStore) :
    logRevert env d t current target v = logEvents env d t v (revertEvents current target) := by
  have hremoved : ∀ v p, logRemoved env d t target v p
      = logEvents env d t v (removalEvent target p).toList := by
    intro v p
    unfold logRemoved removalEvent
    cases target.find? p.1 with
    | none => rfl
    | some row =>
        by_cases hval : rowValuesEqual p.2.values row.values
        · simp [hval]
        · simp only [hval]
          rfl
  have hrestored : ∀ v p, logRestored env d t current v p
      = logEvents env d t v (restoreEvent current p).toList := by
    intro v p
    unfold logRestored restoreEvent
    by_cases hcur : current.contains p.1
    · simp [hcur]
    · simp only [hcur]
      rfl
  rw [logRevert, foldl_logEvents env d t _ _ hremoved, foldl_logEvents env d t _ _ hrestored,
    revertEvents, logEvents_append]

end CustomDbms.Execution
