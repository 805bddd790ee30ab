/-
  CustomDbms.Execution.AccessOutcomes
  ───────────────────────────────────
  **THE RECORDED EXECUTOR IS THE EXECUTOR.**

  With its accesses forgotten, every function of `Accesses` is the function of
  the same name: `outcome_execute` says so of `Execute`.
-/
import CustomDbms.Execution.Accesses

namespace CustomDbms.Execution.Accesses

open CustomDbms.Common CustomDbms.Catalog CustomDbms.Core CustomDbms.Lib CustomDbms.Parser
open CustomDbms.Storage CustomDbms.Versioning
open CustomDbms.Lib.Traced (lift read write deref outcome_bind outcome_pure outcome_lift outcome_ite
  outcome_foldlM outcome_mapM' outcome_forM)

/-! ## §1. Single accesses and loops. -/

section Basic

variable {α β : Type}

@[simp] theorem outcome_read (v : List α) (i : Nat) :
    (read v i : Run α).outcome = Result.ofOption v[i]? := by
  show v[i]?.elim Result.fault Result.ok = _
  cases v[i]? <;> rfl

@[simp] theorem outcome_write (v : List α) (i : Nat) (a : α) :
    (write v i a : Run (List α)).outcome = if i < v.length then .ok (v.set i a) else .fault := rfl

@[simp] theorem outcome_deref (o : Option α) : (deref o : Run α).outcome = Result.ofOption o := by
  cases o <;> rfl

theorem mapM'_eq (f : α → Result β) (l : List α) : l.mapM' f = Result.mapList f l := by
  induction l with
  | nil => rfl
  | cons a l ih =>
      show (f a >>= fun b => l.mapM' f >>= fun bs => .ok (b :: bs)) = _
      rw [ih]
      rfl

theorem foldlM_eq (f : β → α → Result β) (l : List α) (b : β) :
    l.foldlM f b = Result.foldList f b l := by
  induction l generalizing b with
  | nil => rfl
  | cons a l ih =>
      rw [List.foldlM_cons, Result.foldList_cons]
      exact congrArg _ (funext fun b' => ih b')

theorem forM_eq (f : α → Result Unit) (l : List α) : l.forM f = Result.forEach f l := by
  induction l with
  | nil => rfl
  | cons a l ih =>
      show (f a >>= fun _ => l.forM f) = _
      rw [ih]
      rfl

end Basic

/-! ## §2. Expressions and `FilterRows`. -/

theorem outcome_findColumnFrom (columnName : Str) (before cs : List Catalog.ColumnDefinition) :
    (findColumnFrom (before ++ cs) columnName (List.range' before.length cs.length)).outcome
      = .ok ((cs.findIdx? fun c => decide (c.name = columnName)).map (· + before.length)) := by
  induction cs generalizing before with
  | nil => rfl
  | cons c cs ih =>
      have hnext := ih (before ++ [c])
      rw [List.append_assoc, List.singleton_append, List.length_append, List.length_singleton]
        at hnext
      rw [List.length_cons, List.range'_succ, findColumnFrom, outcome_bind, outcome_read,
        List.getElem?_append_right (Nat.le_refl _), Nat.sub_self, List.getElem?_cons_zero,
        Result.ofOption_some, Result.ok_bind, outcome_ite, hnext, List.findIdx?_cons]
      by_cases hc : c.name = columnName
      · simp [hc]
      · simp only [hc, if_false, decide_false]
        cases cs.findIdx? fun c => decide (c.name = columnName) with
        | none => rfl
        | some j => simp [Nat.add_assoc, Nat.add_comm 1]

@[simp] theorem outcome_findColumnIndex (schema : TableSchema) (n : Str) :
    (findColumnIndex schema n).outcome = .ok (Catalog.findColumnIndex schema n) := by
  have h := outcome_findColumnFrom n [] schema.columns
  rw [List.nil_append, List.length_nil, ← List.range_eq_range'] at h
  rw [findColumnIndex, h]
  simp [Catalog.findColumnIndex]

@[simp] theorem outcome_columnIndexOr (schema : TableSchema) (n : Str) (missing : Result Nat) :
    (columnIndexOr schema n missing).outcome
      = (Catalog.findColumnIndex schema n).elim missing Result.ok := by
  rw [columnIndexOr, outcome_bind, outcome_findColumnIndex, Result.ok_bind]
  cases Catalog.findColumnIndex schema n <;> rfl

@[simp] theorem outcome_evaluateValueExpression (expr : Expression) (schema : TableSchema)
    (row : RowData) : (evaluateValueExpression expr schema row).outcome
      = Execution.evaluateValueExpression expr schema row := by
  cases expr with
  | columnReference t o n =>
      rw [evaluateValueExpression, outcome_bind, outcome_columnIndexOr,
        Execution.evaluateValueExpression]
      cases Catalog.findColumnIndex schema n with
      | none => rfl
      | some i => exact outcome_read row.values i
  | _ => rfl

@[simp] theorem outcome_operand {α : Type} (x : Run α) :
    (operand x).outcome = Execution.operand x.outcome := rfl

@[simp] theorem outcome_evaluatePredicate (re : RegexMatch) (schema : TableSchema) (row : RowData)
    (expr : Expression) : (evaluatePredicate re schema row expr).outcome
      = Execution.evaluatePredicate re schema row expr := by
  induction expr with
  | logical op left right ihl ihr =>
      cases op <;> simp [evaluatePredicate, Execution.evaluatePredicate, ihl, ihr]
  | _ => simp [evaluatePredicate, Execution.evaluatePredicate, outcome_ite]

@[simp] theorem outcome_passes (re : RegexMatch) (schema : TableSchema)
    (clause : Option Expression) (row : RowData) :
    (passes re schema clause row).outcome = Execution.passes re schema clause row := by
  cases clause with
  | none => rfl
  | some expr => simp [passes, Execution.passes]

@[simp] theorem outcome_filterScan (re : RegexMatch) (schema : TableSchema)
    (clause : Option Expression) (rows : List RowData) :
    (filterScan re schema clause rows).outcome = Execution.filterScan re schema clause rows := by
  induction rows with
  | nil => rfl
  | cons row rows ih => simp [filterScan, Execution.filterScan, ih]

@[simp] theorem outcome_filterCandidates (re : RegexMatch) (schema : TableSchema)
    (clause : Option Expression) (rows : List RowData) (ids : List RowId) :
    (filterCandidates re schema clause rows ids).outcome
      = Execution.filterCandidates re schema clause rows ids := by
  induction ids with
  | nil => rfl
  | cons i ids ih =>
      rw [filterCandidates, Execution.filterCandidates]
      cases rows.find? fun row => decide (row.rowId = i) with
      | none => exact ih
      | some row => simp [ih]

@[simp] theorem outcome_encodeAs (schema : TableSchema) (columnIndex : Option Nat) (v : Value) :
    (encodeAs schema columnIndex v).outcome = (Result.ofOption columnIndex >>= fun i =>
      Result.ofOption schema.columns[i]? >>= fun c =>
        Result.ofOption (encodeIndexKey v c.type)) := by
  simp [encodeAs]

@[simp] theorem outcome_indexCandidates (schema : TableSchema) (indexes : Dict Str IndexTree)
    (clause : Option Expression) : (indexCandidates schema indexes clause).outcome
      = Execution.indexCandidates schema indexes clause := by
  unfold indexCandidates
  split
  · rename_i op t o column v
    cases hi : Catalog.findColumnIndex schema column with
    | none => cases indexes.find? column <;> simp [Execution.indexCandidates, hi]
    | some i =>
        cases ht : indexes.find? column with
        | none => simp [Execution.indexCandidates, hi, ht]
        | some tree =>
            cases hc : schema.columns[i]? <;> simp [Execution.indexCandidates, hi, ht, hc]
  · rename_i t o column lower upper
    cases hi : Catalog.findColumnIndex schema column with
    | none => cases indexes.find? column <;> simp [Execution.indexCandidates, hi]
    | some i =>
        cases ht : indexes.find? column with
        | none => simp [Execution.indexCandidates, hi, ht]
        | some tree =>
            -- the code reads the column once for each bound
            cases hc : schema.columns[i]? <;> simp [Execution.indexCandidates, hi, ht, hc]
  · rename_i hcmp hbetween
    unfold Execution.indexCandidates
    split
    · exact (hcmp _ _ _ _ _ rfl).elim
    · exact (hbetween _ _ _ _ _ rfl).elim
    · rfl

@[simp] theorem outcome_filterRows (re : RegexMatch) (rows : List RowData)
    (clause : Option Expression) (schema : TableSchema) (indexes : Dict Str IndexTree) :
    (filterRows re rows clause schema indexes).outcome
      = Execution.filterRows re rows clause schema indexes := by
  rw [filterRows, Execution.filterRows, outcome_bind, outcome_indexCandidates]
  refine congrArg _ (funext fun candidates => ?_)
  cases candidates with
  | none => simp
  | some ids => simp

/-! ## §3. Rows against the schema and the indexes. -/

/-- One turn of `ValidateRowAgainstSchema`, at the first value not yet checked. -/
theorem outcome_validateColumn {columns : List Catalog.ColumnDefinition} {i : Nat}
    {c : Catalog.ColumnDefinition} (hc : columns[i]? = some c) (done vs : List Value) (v : Value)
    (hi : done.length = i) : (validateColumn columns (done ++ v :: vs) i).outcome
      = if canAssignToType (withDefault c v) c.type (allowsNull c) then
          .ok (done ++ withDefault c v :: vs)
        else .makeError .constraintViolation
          (str "type/nullability constraint violation for column: " ++ c.name) := by
  subst hi
  have hv : ∀ w : Value, (done ++ w :: vs)[done.length]? = some w := by simp
  have hfill : (fillDefault c (done ++ v :: vs) done.length).outcome
      = .ok (done ++ withDefault c v :: vs) := by
    rw [fillDefault, outcome_bind, outcome_read, hv, Result.ofOption_some, Result.ok_bind,
      outcome_ite, withDefault]
    cases isNull v with
    | false => rfl
    | true =>
        cases c.defaultValue with
        | none => rfl
        | some w => simp
  rw [validateColumn, outcome_bind, outcome_read, hc, Result.ofOption_some, Result.ok_bind,
    outcome_bind, hfill, Result.ok_bind, outcome_bind, outcome_read, hv, Result.ofOption_some,
    Result.ok_bind, outcome_bind, outcome_read, hv, Result.ofOption_some, Result.ok_bind,
    outcome_ite]
  rfl

/-- The loop from the column `before.length` on. -/
theorem foldlM_validateColumn (before cs : List Catalog.ColumnDefinition) (done vs : List Value)
    (hlen : done.length = before.length) :
    ((List.range' before.length cs.length).foldlM (validateColumn (before ++ cs))
      (done ++ vs)).outcome = (validateValues cs vs).map (done ++ ·) := by
  induction cs generalizing before done vs with
  | nil => rfl
  | cons c cs ih =>
      have hc : (before ++ c :: cs)[before.length]? = some c := by simp
      rw [List.length_cons, List.range'_succ, List.foldlM_cons, outcome_bind]
      cases vs with
      | nil => simp [validateColumn, fillDefault, hlen, validateValues, Result.map]
      | cons v vs =>
          rw [outcome_validateColumn hc done vs v hlen, validateValues]
          split
          · have hnext := ih (before ++ [c]) (done ++ [withDefault c v]) vs (by simp [hlen])
            rw [List.append_assoc, List.singleton_append, List.length_append,
              List.length_singleton, List.append_assoc, List.singleton_append] at hnext
            rw [Result.ok_bind, hnext]
            cases validateValues cs vs <;> simp [Result.map]
          · rfl

@[simp] theorem outcome_validateRowAgainstSchema (row : RowData) (schema : TableSchema) :
    (validateRowAgainstSchema row schema).outcome
      = Execution.validateRowAgainstSchema row schema := by
  have h := foldlM_validateColumn [] schema.columns [] row.values rfl
  rw [List.nil_append, List.length_nil, List.nil_append, ← List.range_eq_range'] at h
  rw [validateRowAgainstSchema, Execution.validateRowAgainstSchema, outcome_bind, h]
  cases validateValues schema.columns row.values <;> rfl

theorem outcome_freshIndexKey {schema : TableSchema} {n : Str} {i : Nat}
    (hi : Catalog.findColumnIndex schema n = some i) (row : RowData) (tree : IndexTree) :
    (freshIndexKey schema (some i) row n tree).outcome
      = Execution.freshIndexKey schema i row n tree := by
  have hlt := findColumnIndex_lt hi
  have hc : schema.columns[i]? = some schema.columns[i] := List.getElem?_eq_getElem hlt
  cases hv : row.values[i]? with
  | none => simp [freshIndexKey, Execution.freshIndexKey, columnValue, hv]
  | some v =>
      simp only [freshIndexKey, Execution.freshIndexKey, columnValue, outcome_bind, outcome_deref,
        outcome_read, outcome_ite, outcome_lift, outcome_pure, outcome_encodeAs, hv, hc,
        Result.ofOption_some, Result.ok_bind, Result.pure_eq_ok]

@[simp] theorem outcome_insertEntry (schema : TableSchema) (i : Nat) (row : RowData)
    (tree : IndexTree) : (insertEntry schema (some i) row tree).outcome
      = (columnValue schema i row >>= fun p => Result.ofOption (encodeIndexKey p.1 p.2.type)
          >>= fun key => Result.ofOption (tree.insert key row.rowId)) := by
  cases hv : row.values[i]? <;> cases hc : schema.columns[i]? <;>
    simp [insertEntry, columnValue, hv, hc]

@[simp] theorem outcome_addIndexEntry (schema : TableSchema) (row : RowData) (n : Str)
    (tree : IndexTree) :
    (addIndexEntry schema row n tree).outcome = Core.addIndexEntry schema row n tree := by
  rw [addIndexEntry, Core.addIndexEntry, outcome_bind, outcome_findColumnIndex, Result.ok_bind]
  cases Catalog.findColumnIndex schema n with
  | none => rfl
  | some i => exact outcome_insertEntry schema i row tree

@[simp] theorem outcome_rebuildIndexEntry (d t : Str) (schema : TableSchema) (row : RowData)
    (n : Str) (tree : IndexTree) : (rebuildIndexEntry d t schema row n tree).outcome
      = Core.rebuildIndexEntry d t schema row n tree := by
  rw [rebuildIndexEntry, Core.rebuildIndexEntry, outcome_bind, outcome_findColumnIndex,
    Result.ok_bind]
  cases Catalog.findColumnIndex schema n with
  | none => rfl
  | some i => exact outcome_insertEntry schema i row tree

@[simp] theorem outcome_checkedIndexEntry (schema : TableSchema) (row : RowData) (n : Str)
    (tree : IndexTree) : (checkedIndexEntry schema row n tree).outcome
      = Execution.checkedIndexEntry schema row n tree := by
  rw [checkedIndexEntry, Execution.checkedIndexEntry, outcome_bind, outcome_findColumnIndex,
    Result.ok_bind]
  cases hi : Catalog.findColumnIndex schema n with
  | none => rfl
  | some i => simp [outcome_freshIndexKey hi]

/-- What a loop in place has made, where it came to its end. -/
def settled {α : Type} (r : α × Result Unit) : Result α := r.2.map fun _ => r.1

theorem outcome_updateEntries (f : Str → IndexTree → Run IndexTree)
    (entries : List (Str × IndexTree)) : (updateEntries f entries).outcome
      = settled (Core.updateEntries (fun n tree => (f n tree).outcome) entries) := by
  induction entries with
  | nil => rfl
  | cons p entries ih =>
      have hcons : (updateEntries f (p :: entries)).outcome = ((f p.1 p.2).outcome >>= fun tree =>
          (updateEntries f entries).outcome >>= fun rest => .ok ((p.1, tree) :: rest)) := by
        show (((f p.1 p.2).outcome >>= fun tree => Result.ok (p.1, tree)) >>= fun q =>
          (updateEntries f entries).outcome >>= fun rest => .ok (q :: rest)) = _
        cases (f p.1 p.2).outcome <;> rfl
      rw [hcons, ih, Core.updateEntries]
      cases (f p.1 p.2).outcome with
      | error e => rfl
      | fault => rfl
      | ok tree =>
          rcases Core.updateEntries (fun n tree => (f n tree).outcome) entries with ⟨rest, r⟩
          cases r <;> rfl

theorem outcome_indexRows (f : RowData → Str → IndexTree → Run IndexTree)
    (indexes : Dict Str IndexTree) (rows : List RowData) :
    (indexRows f indexes.entries rows).outcome
      = (settled (Core.indexRows (fun row n tree => (f row n tree).outcome) indexes rows)).map
          Dict.entries := by
  induction rows generalizing indexes with
  | nil => rfl
  | cons row rows ih =>
      have hcons : (indexRows f indexes.entries (row :: rows)).outcome
          = ((updateEntries (f row) indexes.entries).outcome >>= fun entries =>
              (indexRows f entries rows).outcome) := rfl
      rw [hcons, outcome_updateEntries, Core.indexRows]
      have hdict : (updateIndexes (fun n tree => (f row n tree).outcome) indexes).1.entries
          = (Core.updateEntries (fun n tree => (f row n tree).outcome) indexes.entries).1 := rfl
      have hend : (updateIndexes (fun n tree => (f row n tree).outcome) indexes).2
          = (Core.updateEntries (fun n tree => (f row n tree).outcome) indexes.entries).2 := rfl
      rw [settled, ← hdict, ← hend]
      rcases updateIndexes (fun n tree => (f row n tree).outcome) indexes with ⟨indexes', r⟩
      cases r with
      | error e => rfl
      | fault => rfl
      | ok u => exact ih indexes'

@[simp] theorem outcome_rebuildIndexes (schema : TableSchema) (rows : List RowData) :
    (rebuildIndexes schema rows).outcome
      = (Execution.rebuildIndexes schema rows).map Dict.entries := by
  rw [rebuildIndexes, outcome_indexRows, Execution.rebuildIndexes]
  simp only [outcome_checkedIndexEntry]
  rcases Core.indexRows (Execution.checkedIndexEntry schema) (emptyIndexes schema) rows with ⟨ix, r⟩
  cases r <;> rfl

@[simp] theorem outcome_eventRowId (beforeRow afterRow : Option RowData) :
    (eventRowId beforeRow afterRow).outcome = .ok (match afterRow, beforeRow with
      | some r, _ => r.rowId
      | none, some r => r.rowId
      | none, none => kInvalidRowId) := by
  cases afterRow <;> cases beforeRow <;> rfl

/-! ## §4. INSERT, UPDATE and DELETE. -/

@[simp] theorem outcome_insertColumnMap (schema : TableSchema) (names : List Str) :
    (insertColumnMap schema names).outcome = Execution.insertColumnMap schema names := by
  rw [insertColumnMap, Execution.insertColumnMap, outcome_mapM', mapM'_eq]
  congr 1
  funext n
  rw [outcome_columnIndexOr]
  cases Catalog.findColumnIndex schema n <;> rfl

/-- The loop from the value `before.length` of the input row on. -/
theorem foldlM_fillCell (map : List Nat) (before es : List Expression) (vs : List Value) :
    ((List.range' before.length es.length).foldlM (fillCell map (before ++ es)) vs).outcome
      = Execution.fillRow (map.drop before.length) es vs := by
  induction es generalizing before vs with
  | nil => cases map.drop before.length <;> rfl
  | cons e es ih =>
      have he : (before ++ e :: es)[before.length]? = some e := by simp
      rw [List.length_cons, List.range'_succ, List.foldlM_cons, outcome_bind, fillCell, outcome_bind,
        outcome_read, he, Result.ofOption_some, Result.ok_bind]
      cases e with
      | literal v =>
          cases hmap : map[before.length]? with
          | none =>
              rw [List.drop_eq_nil_iff.mpr (List.getElem?_eq_none_iff.mp hmap)]
              simp [hmap, Execution.fillRow]
          | some i =>
              obtain ⟨hlt, hi⟩ := List.getElem?_eq_some_iff.mp hmap
              have hnext := ih (before ++ [.literal v]) (vs.set i v)
              rw [List.append_assoc, List.singleton_append, List.length_append,
                List.length_singleton] at hnext
              rw [List.drop_eq_getElem_cons hlt, hi, Execution.fillRow]
              by_cases hin : i < vs.length
              · simp only [outcome_bind, outcome_read, hmap, Result.ofOption_some, Result.ok_bind,
                  outcome_write, if_pos hin]
                exact hnext
              · simp [hmap, hin]
      | _ => simp [Execution.fillRow, Result.makeError]

@[simp] theorem outcome_buildInsertRow (schema : TableSchema) (map : List Nat)
    (input : List Expression) : (buildInsertRow schema map input).outcome
      = Execution.buildInsertRow schema map input := by
  have h := foldlM_fillCell map [] input (List.replicate schema.columns.length Value.null)
  rw [List.length_nil, List.nil_append, List.drop_zero, ← List.range_eq_range'] at h
  simp [buildInsertRow, Execution.buildInsertRow, fillRow, h]

theorem outcome_checkEntry (schema : TableSchema) (row : RowData) (p : Str × IndexTree) :
    (checkEntry schema row p).outcome = (match Catalog.findColumnIndex schema p.1 with
      | none => .ok ()
      | some i => do
          let _ ← Execution.freshIndexKey schema i row p.1 p.2
          return ()) := by
  rw [checkEntry, outcome_bind, outcome_findColumnIndex, Result.ok_bind]
  cases hi : Catalog.findColumnIndex schema p.1 with
  | none => rfl
  | some i =>
      simp only [Option.isSome_some, if_true, outcome_bind, outcome_freshIndexKey hi]
      rfl

@[simp] theorem outcome_admitRow (table : TableRuntime) (map : List Nat)
    (input : List Expression) :
    (admitRow table map input).outcome = Execution.admitRow table map input := by
  have hcheck : ∀ row, (table.indexes.entries.forM (checkEntry table.schema row)).outcome
      = checkUnique table row := by
    intro row
    rw [outcome_forM, forM_eq, checkUnique]
    exact congrArg (Result.forEach · _) (funext fun p => outcome_checkEntry table.schema row p)
  simp only [admitRow, Execution.admitRow, outcome_bind, outcome_buildInsertRow, hcheck,
    outcome_pure]

theorem storeRow_result (env : Env) (d : Str) (table : TableRuntime) (v : VersionStore)
    (row : RowData) : (Execution.storeRow env d table v row).2.2
      = (updateIndexes (Core.addIndexEntry table.schema
          { row with rowId := (table.heap.insert row).2 }) table.indexes).2 := by
  rw [Execution.storeRow]
  split
  · rename_i h
    exact h.symm
  · rfl

theorem outcome_storeRow (env : Env) (d : Str) (table : TableRuntime) (v : VersionStore)
    (row : RowData) :
    (storeRow table row).outcome = (Execution.storeRow env d table v row).2.2 := by
  rw [storeRow_result]
  simp only [storeRow, outcome_bind, outcome_updateEntries, outcome_addIndexEntry,
    outcome_eventRowId, outcome_pure, updateIndexes, settled]
  rcases (Core.updateEntries (Core.addIndexEntry table.schema
    { row with rowId := (table.heap.insert row).2 }) table.indexes.entries).2 with u | e | _ <;> rfl

theorem outcome_insertRows (env : Env) (d : Str) (map : List Nat)
    (inputs : List (List Expression)) (table : TableRuntime) (v : VersionStore) :
    (insertRows env d map inputs table v).outcome
      = (Execution.insertRows env d map inputs table v).2.2 := by
  induction inputs generalizing table v with
  | nil => rfl
  | cons input inputs ih =>
      rw [insertRows, Execution.insertRows, outcome_bind, outcome_admitRow]
      cases Execution.admitRow table map input with
      | error e => rfl
      | fault => rfl
      | ok row =>
          simp only [Result.ok_bind, outcome_bind, outcome_storeRow env d table v row]
          rcases Execution.storeRow env d table v row with ⟨table', v', r⟩
          cases r with
          | error e => rfl
          | fault => rfl
          | ok u => exact ih table' v'

theorem outcome_executeInsert (env : Env) (stmt : InsertStatement) (d : Str)
    (table : TableRuntime) (v : VersionStore) : (executeInsert env stmt d table v).outcome
      = (Execution.executeInsert env stmt d table v).2.2.map fun _ => () := by
  rw [executeInsert, Execution.executeInsert, outcome_bind, outcome_insertColumnMap]
  cases Execution.insertColumnMap table.schema stmt.columnNames with
  | error e => rfl
  | fault => rfl
  | ok map =>
      simp only [Result.ok_bind, outcome_insertRows]
      rcases (Execution.insertRows env d map stmt.rows table v).2.2 with u | e | _ <;> rfl

@[simp] theorem outcome_assignValues (schema : TableSchema) (as : List Assignment)
    (row : RowData) :
    (assignValues schema as row).outcome = Execution.assignValues schema as row := by
  induction as generalizing row with
  | nil => rfl
  | cons a as ih =>
      rw [assignValues, Execution.assignValues, outcome_bind, outcome_findColumnIndex,
        Result.ok_bind]
      cases Catalog.findColumnIndex schema a.columnName with
      | none => rfl
      | some i =>
          simp only [Option.isSome_some, if_true, outcome_bind, outcome_evaluateValueExpression,
            outcome_deref, Result.ofOption_some, Result.ok_bind, outcome_write, ih]
          refine congrArg _ (funext fun v => ?_)
          split <;> rfl

theorem outcome_updateRow (re : RegexMatch) (schema : TableSchema) (stmt : UpdateStatement)
    (row : RowData) : (updateRow re schema stmt row).outcome
      = (Execution.updateRow re schema stmt row).map (·.getD row) := by
  rw [updateRow, Execution.updateRow, outcome_bind, outcome_passes]
  rcases Execution.passes re schema stmt.whereClause row with pass | e | _
  · cases pass with
    | false => rfl
    | true =>
        simp only [Result.ok_bind, if_true, outcome_bind, outcome_assignValues,
          outcome_validateRowAgainstSchema, outcome_eventRowId, outcome_pure]
        rcases Execution.assignValues schema stmt.assignments row with row' | e | _
        · rw [Result.ok_bind, Result.ok_bind]
          rcases Execution.validateRowAgainstSchema row' schema with row'' | e | _ <;> rfl
        · rfl
        · rfl
  · rfl
  · rfl

theorem outcome_updateRows (env : Env) (d : Str) (schema : TableSchema) (stmt : UpdateStatement)
    (rows : List RowData) (v : VersionStore) :
    (rows.mapM' (updateRow env.regexMatch schema stmt)).outcome
      = (updateRows env d schema stmt rows v).2.map Prod.fst := by
  rw [outcome_mapM', mapM'_eq]
  induction rows generalizing v with
  | nil => rfl
  | cons row rows ih =>
      rw [Result.mapList_cons, outcome_updateRow, updateRows]
      rcases Execution.updateRow env.regexMatch schema stmt row with changed | e | _
      · rw [Result.map_ok, Result.ok_bind]
        cases changed with
        | none =>
            simp only [ih v]
            rcases (updateRows env d schema stmt rows v).2 with p | e | _ <;> rfl
        | some row' =>
            generalize hv' : appendChangeEvent env v .updateRow d schema.tableName none (some row)
              (some row') = v'
            simp only [ih v', hv']
            rcases (updateRows env d schema stmt rows v').2 with p | e | _ <;> rfl
      · rfl
      · rfl

/-- What `replaceRows` answers is what the rebuild answers. -/
theorem replaceRows_result (table : TableRuntime) (v : VersionStore) (rows : List RowData)
    (message : Str) : (replaceRows table v rows message).2.2.map (fun _ => ())
      = (Execution.rebuildIndexes table.schema rows).map fun _ => () := by
  rw [replaceRows]
  cases Execution.rebuildIndexes table.schema rows <;> rfl

/-- The end of `UPDATE`, `DELETE` and `REVERT`. -/
theorem outcome_rebuild (schema : TableSchema) (rows : List RowData) :
    ((rebuildIndexes schema rows) >>= fun _ => (pure () : Run Unit)).outcome
      = (Execution.rebuildIndexes schema rows).map fun _ => () := by
  rw [outcome_bind, outcome_rebuildIndexes]
  cases Execution.rebuildIndexes schema rows <;> rfl

theorem outcome_executeUpdate (env : Env) (stmt : UpdateStatement) (d : Str)
    (table : TableRuntime) (v : VersionStore) : (executeUpdate env stmt table).outcome
      = (Execution.executeUpdate env stmt d table v).2.2.map fun _ => () := by
  rw [executeUpdate, Execution.executeUpdate, outcome_bind,
    outcome_updateRows env d table.schema stmt table.heap.scanAll v]
  rcases (updateRows env d table.schema stmt table.heap.scanAll v).2 with p | e | _
  · exact (outcome_rebuild table.schema p.1).trans (replaceRows_result ..).symm
  · rfl
  · rfl

theorem outcome_deleteRows (env : Env) (d : Str) (schema : TableSchema) (stmt : DeleteStatement)
    (rows : List RowData) (v : VersionStore) :
    (deleteRows env.regexMatch schema stmt rows).outcome
      = (Execution.deleteRows env d schema stmt rows v).2.map Prod.fst := by
  induction rows generalizing v with
  | nil => rfl
  | cons row rows ih =>
      rw [deleteRows, Execution.deleteRows, outcome_bind, outcome_passes]
      rcases Execution.passes env.regexMatch schema stmt.whereClause row with pass | e | _
      · cases pass with
        | false =>
            simp only [Result.ok_bind, Bool.false_eq_true, if_false, outcome_bind, ih v]
            rcases (Execution.deleteRows env d schema stmt rows v).2 with p | e | _ <;> rfl
        | true =>
            simp only [Result.ok_bind, if_true, outcome_bind, outcome_eventRowId]
            generalize appendChangeEvent env v .deleteRow d schema.tableName none (some row) none
              = v'
            rw [ih v']
            rcases (Execution.deleteRows env d schema stmt rows v').2 with p | e | _ <;> rfl
      · rfl
      · rfl

theorem outcome_executeDelete (env : Env) (stmt : DeleteStatement) (d : Str)
    (table : TableRuntime) (v : VersionStore) : (executeDelete env stmt table).outcome
      = (Execution.executeDelete env stmt d table v).2.2.map fun _ => () := by
  rw [executeDelete, Execution.executeDelete, outcome_bind,
    outcome_deleteRows env d table.schema stmt table.heap.scanAll v]
  rcases (Execution.deleteRows env d table.schema stmt table.heap.scanAll v).2 with p | e | _
  · exact (outcome_rebuild table.schema p.1).trans (replaceRows_result ..).symm
  · rfl
  · rfl

/-! ## §5. SELECT. -/

@[simp] theorem outcome_headingOf (item : SelectItem) (otherwise : Str) :
    (headingOf item otherwise).outcome = .ok (item.aliasName.getD otherwise) := by
  rw [headingOf]
  cases item.aliasName <;> rfl

theorem outcome_countStep {item : SelectItem} {columnIndex : Option Nat}
    (h : item.columnName = str "*" ↔ columnIndex = none) (count : Int64) (row : RowData) :
    (countStep item columnIndex count row).outcome
      = Execution.countStep columnIndex count row := by
  cases columnIndex with
  | none => simp [countStep, Execution.countStep, h]
  | some i => simp [countStep, Execution.countStep, h]

@[simp] theorem outcome_sumStep (i : Nat) (acc : Int64 × Int64) (row : RowData) :
    (sumStep (some i) acc row).outcome = Execution.sumStep i acc row := by
  rw [sumStep, Execution.sumStep, outcome_bind, outcome_deref, Result.ofOption_some,
    Result.ok_bind, outcome_bind, outcome_read]
  refine congrArg _ (funext fun v => ?_)
  cases v <;> rfl

theorem outcome_aggregateValue {item : SelectItem} {kind : AggregateKind}
    (hkind : item.aggregate = some kind) {columnIndex : Option Nat}
    (h : item.columnName = str "*" ↔ columnIndex = none) (rows : List RowData) :
    (aggregateValue item columnIndex rows).outcome
      = Execution.aggregateValue kind columnIndex rows := by
  have hcount : (rows.foldlM (countStep item columnIndex) 0).outcome
      = Result.foldList (Execution.countStep columnIndex) 0 rows := by
    rw [outcome_foldlM, foldlM_eq]
    simp only [outcome_countStep h]
  rw [aggregateValue, outcome_bind, outcome_deref, hkind, Result.ofOption_some, Result.ok_bind]
  cases kind with
  | count =>
      simp only [outcome_bind, hcount, Execution.aggregateValue]
      rfl
  | sum =>
      cases columnIndex with
      | none => simp [h, Execution.aggregateValue]
      | some i =>
          simp only [h, reduceCtorEq, if_false, outcome_bind, outcome_foldlM, foldlM_eq,
            outcome_sumStep, outcome_deref, Result.ofOption_some, Result.ok_bind, if_true,
            Execution.aggregateValue]
          rfl
  | avg =>
      cases columnIndex with
      | none => simp [h, Execution.aggregateValue]
      | some i =>
          simp only [h, reduceCtorEq, if_false, outcome_bind, outcome_foldlM, foldlM_eq,
            outcome_sumStep, outcome_deref, Result.ofOption_some, Result.ok_bind,
            Execution.aggregateValue]
          rfl

@[simp] theorem outcome_aggregateItem (schema : TableSchema) (rows : List RowData)
    (item : SelectItem) : (aggregateItem schema rows item).outcome
      = Execution.aggregateItem schema rows item := by
  rw [aggregateItem, Execution.aggregateItem]
  cases hkind : item.aggregate with
  | none => rfl
  | some kind =>
      rw [Option.isSome_some, if_pos rfl, outcome_bind, aggregateColumn]
      by_cases hstar : item.columnName = str "*"
      · rw [if_pos hstar, outcome_pure, Result.pure_eq_ok, Result.ok_bind, outcome_bind,
          outcome_headingOf, Result.ok_bind,
          outcome_aggregateValue hkind (iff_of_true hstar rfl)]
        simp [hstar]
      · rw [if_neg hstar, outcome_bind, outcome_findColumnIndex, Result.ok_bind]
        cases hi : Catalog.findColumnIndex schema item.columnName with
        | none => simp [hstar, selectColumn, hi, Result.makeError]
        | some i =>
            have hiff : item.columnName = str "*" ↔ some i = none :=
              iff_of_false hstar (Option.some_ne_none i)
            simp only [Option.isSome_some, if_true, outcome_pure, Result.pure_eq_ok,
              Result.ok_bind, outcome_bind, outcome_headingOf, outcome_aggregateValue hkind hiff,
              hstar, if_false, selectColumn, hi]

@[simp] theorem outcome_projectItem (schema : TableSchema) (row : RowData) (item : SelectItem) :
    (projectItem schema row item).outcome = Execution.projectItem schema row item := by
  rw [projectItem, Execution.projectItem, selectColumn, outcome_bind, outcome_columnIndexOr]
  cases Catalog.findColumnIndex schema item.columnName with
  | none => rfl
  | some i => exact outcome_read row.values i

@[simp] theorem outcome_isStar (items : List SelectItem) :
    (isStar items).outcome = .ok (Execution.isStar items) := by
  rw [isStar]
  cases items with
  | nil => rfl
  | cons item rest => cases rest <;> rfl

@[simp] theorem outcome_isAggregateQuery (items : List SelectItem) :
    (isAggregateQuery items).outcome = .ok (items.head?.any (·.aggregate.isSome)) := by
  rw [isAggregateQuery]
  cases items <;> rfl

/-- A loop of answers. -/
theorem mapM'_answers {α β : Type} {f : α → Result β} {g : α → β} (h : ∀ a, f a = .ok (g a))
    (l : List α) : l.mapM' f = .ok (l.map g) := by
  induction l with
  | nil => rfl
  | cons a l ih =>
      show (f a >>= fun b => l.mapM' f >>= fun bs => .ok (b :: bs)) = _
      rw [h, ih]
      rfl

theorem outcome_headings (items : List SelectItem) (first : Bool) :
    ∃ hs, (headings items first).outcome = .ok hs := by
  cases first with
  | false => exact ⟨[], rfl⟩
  | true =>
      refine ⟨items.map fun item => item.aliasName.getD item.columnName, ?_⟩
      rw [headings, if_pos rfl, outcome_mapM']
      exact mapM'_answers (fun item => outcome_headingOf item item.columnName) items

@[simp] theorem outcome_projectRow (schema : TableSchema) (items : List SelectItem) (first : Bool)
    (row : RowData) : (projectRow schema items first row).outcome
      = Execution.projectRow schema items row := by
  obtain ⟨hs, hhs⟩ := outcome_headings items first
  rw [projectRow, Execution.projectRow, outcome_bind, outcome_isStar, Result.ok_bind]
  cases Execution.isStar items with
  | true => rfl
  | false =>
      simp only [Bool.false_eq_true, if_false, outcome_bind, hhs, Result.ok_bind, outcome_mapM',
        mapM'_eq, outcome_projectItem]
      rfl

@[simp] theorem outcome_projectRows (schema : TableSchema) (items : List SelectItem) (first : Bool)
    (rows : List RowData) : (projectRows schema items first rows).outcome
      = Result.mapList (Execution.projectRow schema items) rows := by
  induction rows generalizing first with
  | nil => rfl
  | cons row rows ih =>
      simp only [projectRows, outcome_bind, outcome_projectRow, ih, Result.mapList_cons]
      rfl

theorem outcome_selectRows (schema : TableSchema) (items : List SelectItem)
    (rows : List RowData) : (selectRows schema items rows).outcome
      = (Execution.selectRows schema items rows).map fun _ => () := by
  rw [selectRows, Execution.selectRows, outcome_bind, outcome_isAggregateQuery, Result.ok_bind]
  split
  · simp only [outcome_bind, outcome_mapM', mapM'_eq, outcome_aggregateItem]
    rcases Result.mapList (Execution.aggregateItem schema rows) items with vs | e | _ <;> rfl
  · simp only [outcome_bind, outcome_projectRows]
    rcases Result.mapList (Execution.projectRow schema items) rows with out | e | _ <;> rfl

theorem outcome_executeSelect (env : Env) (stmt : SelectStatement) (table : TableRuntime) :
    (executeSelect env stmt table).outcome
      = (Execution.executeSelect env stmt table).map fun _ => () := by
  rw [executeSelect, Execution.executeSelect, outcome_bind, outcome_filterRows]
  rcases Execution.filterRows env.regexMatch table.heap.scanAll stmt.whereClause table.schema
    table.indexes with found | e | _
  · exact outcome_selectRows table.schema stmt.items found.1
  · rfl
  · rfl

/-! ## §6. REVERT. -/

@[simp] theorem outcome_applyRecord (m : Dict RowId RowData) (record : ChangeRecord) :
    (applyRecord m record).outcome = .ok (Execution.applyRecord m record) := by
  rw [applyRecord, Execution.applyRecord]
  cases record.kind with
  | deleteRow => cases record.beforeRow <;> rfl
  | insertRow => cases record.afterRow <;> rfl
  | updateRow => cases record.afterRow <;> rfl
  | _ => rfl

/-- A loop whose turns all come to an end. -/
theorem foldlM_answers {α β : Type} {f : β → α → Result β} {g : β → α → β}
    (h : ∀ b a, f b a = .ok (g b a)) (l : List α) (b : β) : l.foldlM f b = .ok (l.foldl g b) := by
  induction l generalizing b with
  | nil => rfl
  | cons a l ih =>
      rw [List.foldlM_cons, h]
      exact ih (g b a)

@[simp] theorem outcome_reconstructTableStateAt (v : VersionStore) (d t ts : Str) :
    (reconstructTableStateAt v d t ts).outcome
      = .ok (Execution.reconstructTableStateAt v d t ts) := by
  rw [reconstructTableStateAt, outcome_bind, outcome_foldlM,
    foldlM_answers fun m record => outcome_applyRecord m record]
  rfl

/-- The loop of `RowValuesEqual` from the value `before.length` on. -/
theorem outcome_valuesEqualFrom (before before' as bs : List Value)
    (hbefore : before'.length = before.length) (hlen : as.length = bs.length) :
    (valuesEqualFrom (before ++ as) (before' ++ bs) (List.range' before.length as.length)).outcome
      = .ok (Execution.rowValuesEqual as bs) := by
  induction as generalizing before before' bs with
  | nil =>
      obtain rfl : bs = [] := List.length_eq_zero_iff.mp hlen.symm
      rfl
  | cons a as ih =>
      cases bs with
      | nil => simp at hlen
      | cons b bs =>
          have ha : (before ++ a :: as)[before.length]? = some a := by simp
          have hb : (before' ++ b :: bs)[before.length]? = some b := by simp [← hbefore]
          have hnext := ih (before ++ [a]) (before' ++ [b]) bs (by simp [hbefore])
            (by simpa using hlen)
          rw [List.append_assoc, List.append_assoc, List.singleton_append, List.singleton_append,
            List.length_append, List.length_singleton] at hnext
          rw [List.length_cons, List.range'_succ, valuesEqualFrom, Execution.rowValuesEqual]
          simp only [outcome_bind, outcome_read, ha, hb, Result.ofOption_some, Result.ok_bind,
            outcome_ite, hnext]
          by_cases htype : getValueType a = getValueType b
          · by_cases heq : compareValues a b = some 0 <;> simp [htype, heq]
          · simp [htype]

@[simp] theorem outcome_rowValuesEqual (as bs : List Value) :
    (rowValuesEqual as bs).outcome = .ok (Execution.rowValuesEqual as bs) := by
  rw [rowValuesEqual, outcome_ite]
  by_cases hlen : as.length = bs.length
  · rw [if_neg (not_not.mpr hlen), List.range_eq_range']
    exact outcome_valuesEqualFrom [] [] as bs rfl hlen
  · have hne : ∀ as bs : List Value, as.length ≠ bs.length →
        Execution.rowValuesEqual as bs = false := by
      intro as
      induction as with
      | nil =>
          intro bs h
          cases bs with
          | nil => exact absurd rfl h
          | cons b bs => rfl
      | cons a as ih =>
          intro bs h
          cases bs with
          | nil => rfl
          | cons b bs =>
              rw [Execution.rowValuesEqual, ih bs (by simpa using h), Bool.and_false]
    rw [if_pos hlen, hne as bs hlen]
    rfl

theorem outcome_logRemoved (target : Dict RowId RowData) (p : RowId × RowData) :
    (logRemoved target p).outcome = .ok () := by
  rw [logRemoved]
  cases target.find? p.1 with
  | none => rfl
  | some row =>
      simp only [outcome_bind, outcome_rowValuesEqual, Result.ok_bind]
      split <;> rfl

theorem outcome_logRestored (current : Dict RowId RowData) (p : RowId × RowData) :
    (logRestored current p).outcome = .ok () := by
  rw [logRestored]
  split <;> rfl

/-- A loop of checks that all succeed. -/
theorem outcome_forM_ok {α : Type} {f : α → Run Unit} (h : ∀ a, (f a).outcome = .ok ())
    (l : List α) : (l.forM f).outcome = .ok () := by
  rw [outcome_forM, forM_eq]
  exact Result.forEach_eq_ok.mpr fun a _ => h a

theorem outcome_executeRevert (env : Env) (stmt : RevertStatement) (d : Str)
    (table : TableRuntime) (v : VersionStore) : (executeRevert stmt d table v).outcome
      = (Execution.executeRevert env stmt d table v).2.2.map fun _ => () := by
  rw [executeRevert, Execution.executeRevert, outcome_bind, outcome_lift]
  cases revertTarget stmt d v with
  | error e => rfl
  | fault => rfl
  | ok target =>
      cases target with
      | none => rfl
      | some timestamp =>
          rw [Result.ok_bind, Option.isSome_some, if_pos rfl, outcome_bind, outcome_deref,
            Result.ofOption_some, Result.ok_bind, outcome_bind, outcome_reconstructTableStateAt,
            Result.ok_bind, outcome_ite]
          simp only []
          split
          · rfl
          · rw [outcome_bind, outcome_forM_ok fun p => outcome_logRemoved _ p, Result.ok_bind,
              outcome_bind, outcome_forM_ok fun p => outcome_logRestored _ p, Result.ok_bind]
            exact (outcome_rebuild table.schema _).trans (replaceRows_result ..).symm

/-! ## §7. CHECK INDEX and REBUILD INDEX. -/

@[simp] theorem outcome_isMismatch (found : List RowId) (row : RowData) :
    (isMismatch found row).outcome = .ok (decide (found ≠ [row.rowId])) := by
  rw [isMismatch]
  cases found with
  | nil => rfl
  | cons id rest =>
      cases rest with
      | nil => simp
      | cons id' rest => simp

theorem outcome_validateIndexRows (path : Str) (schema : TableSchema) (tree : IndexTree) (i : Nat)
    (seenKeys : List Str) (rows : List RowData) :
    (validateIndexRows path schema tree (some i) seenKeys rows).outcome
      = Core.validateIndexRows path schema tree i seenKeys rows := by
  induction rows generalizing seenKeys with
  | nil => rfl
  | cons row rows ih =>
      cases hv : row.values[i]? with
      | none => simp [validateIndexRows, Core.validateIndexRows, columnValue, hv]
      | some v =>
          cases hc : schema.columns[i]? with
          | none => simp [validateIndexRows, Core.validateIndexRows, columnValue, hv, hc]
          | some c =>
              simp only [validateIndexRows, Core.validateIndexRows, columnValue, outcome_bind,
                outcome_deref, outcome_read, outcome_encodeAs, outcome_ite, outcome_lift,
                outcome_isMismatch, hv, hc, ih, Result.ofOption_some, Result.ok_bind,
                Result.pure_eq_ok]
              refine congrArg _ (funext fun key => ?_)
              split
              · rfl
              · refine congrArg _ (funext fun found => ?_)
                by_cases hf : found = [row.rowId] <;> simp [hf]

theorem outcome_validateIndex (d t : Str) (table : TableRuntime) (n : Str) (tree : IndexTree) :
    (validateIndex d t table n tree).outcome = Core.validateIndex d t table n tree := by
  rw [validateIndex, Core.validateIndex]
  simp only [outcome_ite, outcome_lift, outcome_bind, outcome_findColumnIndex, Result.ok_bind]
  split
  · rfl
  · cases Catalog.findColumnIndex table.schema n with
    | none => rfl
    | some i => exact outcome_validateIndexRows ..

theorem outcome_validateRuntimeIndexConsistency (state : RuntimeState) :
    (validateRuntimeIndexConsistency state).outcome
      = Core.validateRuntimeIndexConsistency state := by
  simp only [validateRuntimeIndexConsistency, Core.validateRuntimeIndexConsistency, outcome_forM,
    forM_eq, outcome_validateIndex]

/-- A loop in place ends as the loop over its turns' answers does. -/
theorem rewriteEach_result {α : Type} (f : α → α × Result Unit) (l : List α) :
    (rewriteEach f l).2 = Result.forEach (fun a => (f a).2) l := by
  induction l with
  | nil => rfl
  | cons a l ih =>
      rw [rewriteEach, Result.forEach_cons]
      rcases f a with ⟨a', r⟩
      cases r with
      | ok u => exact ih
      | error e => rfl
      | fault => rfl

theorem outcome_rebuildTableIndexes (d : Str) (p : Str × TableRuntime) :
    (rebuildTableIndexes d p).outcome = (Core.rebuildTableIndexes d p).2 := by
  rw [rebuildTableIndexes, Core.rebuildTableIndexes, outcome_bind, outcome_indexRows]
  simp only [outcome_rebuildIndexEntry]
  rcases Core.indexRows (Core.rebuildIndexEntry d p.1 p.2.schema) (emptyIndexes p.2.schema)
    p.2.heap.scanAll with ⟨ix, r⟩
  cases r <;> rfl

theorem outcome_rebuildRuntimeIndexes (state : RuntimeState) :
    (rebuildRuntimeIndexes state).outcome = (Core.rebuildRuntimeIndexes state).2 := by
  have hdatabase : ∀ d : Str × DatabaseRuntime,
      (d.2.tables.entries.forM (rebuildTableIndexes d.1)).outcome = (rebuildDatabaseIndexes d).2 := by
    intro d
    rw [outcome_forM, forM_eq, rebuildDatabaseIndexes, rewriteEach_result]
    exact congrArg (Result.forEach · _) (funext fun p => outcome_rebuildTableIndexes d.1 p)
  have hall : (state.databases.entries.forM fun d =>
      d.2.tables.entries.forM (rebuildTableIndexes d.1)).outcome
        = (rewriteEach rebuildDatabaseIndexes state.databases.entries).2 := by
    rw [outcome_forM, forM_eq, rewriteEach_result]
    exact congrArg (Result.forEach · _) (funext hdatabase)
  rw [rebuildRuntimeIndexes, outcome_bind, hall, outcome_validateRuntimeIndexConsistency,
    Core.rebuildRuntimeIndexes]
  cases (rewriteEach rebuildDatabaseIndexes state.databases.entries).2 <;> rfl

/-! ## §8. Dispatch. -/

@[simp] theorem outcome_resolveDatabaseName (session : SessionContext) (requested : Option Str) :
    (resolveDatabaseName session requested).outcome
      = Execution.resolveDatabaseName session requested := by
  cases requested with
  | some d => rfl
  | none =>
      show (if session.currentDatabase = [] then _ else _ : Run Str).outcome = _
      rw [outcome_ite]
      rfl

theorem outcome_withTable {s : Store} {session : SessionContext} {name : QualifiedName}
    {f : Str → TableRuntime → VersionStore → Run Unit}
    {g : Str → TableRuntime → VersionStore → TableRuntime × VersionStore × Result QueryResult}
    (h : ∀ d table v, (f d table v).outcome = (g d table v).2.2.map fun _ => ()) :
    (withTable s session name f).outcome
      = (Execution.withTable s session name g).2.map fun _ => () := by
  rw [withTable, Execution.withTable, outcome_bind, outcome_resolveDatabaseName]
  rcases Execution.resolveDatabaseName session name.databaseName with db | e | _
  · simp only [Result.ok_bind]
    cases s.runtime.databases.find? db with
    | none => rfl
    | some d =>
        cases ht : d.tables.find? name.objectName with
        | none => simp [ht, Result.makeError, Result.map]
        | some table => simp only [ht, h]
  · rfl
  · rfl

theorem outcome_executeCreateTable (env : Env) (s : Store) (session : SessionContext)
    (stmt : CreateTableStatement) : (executeCreateTable s session stmt).outcome
      = (Execution.executeCreateTable env s session stmt).2.map fun _ => () := by
  rw [executeCreateTable, Execution.executeCreateTable, outcome_bind, outcome_resolveDatabaseName]
  rcases Execution.resolveDatabaseName session stmt.tableName.databaseName with db | e | _
  · simp only [Result.ok_bind]
    cases s.runtime.databases.find? db with
    | none => rfl
    | some d =>
        simp only [outcome_ite, outcome_lift]
        split
        · rfl
        · refine outcome_forM_ok (fun col => ?_) stmt.columns
          rw [outcome_ite]
          cases col.defaultValue <;> rfl
  · rfl
  · rfl

theorem outcome_dropTable (env : Env) (s : Store) (session : SessionContext)
    (name : QualifiedName) : (withTable s session name fun _ _ _ => pure ()).outcome
      = (executeDropTable env s session name).2.map fun _ => () := by
  rw [withTable, executeDropTable, outcome_bind, outcome_resolveDatabaseName]
  rcases Execution.resolveDatabaseName session name.databaseName with db | e | _
  · simp only [Result.ok_bind]
    cases s.runtime.databases.find? db with
    | none => rfl
    | some d => cases ht : d.tables.find? name.objectName <;> simp only [ht] <;> rfl
  · rfl
  · rfl

/-- **Without its record of accesses, the recorded executor ends as `Execute`
does.** -/
theorem outcome_execute (env : Env) (s : Store) (session : SessionContext)
    (statement : Statement) (detail : Str) : (execute env s session statement detail).outcome
      = (Execution.execute env s session statement detail).2.2.map fun _ => () := by
  cases statement with
  | createTable stmt => exact outcome_executeCreateTable env s session stmt
  | dropTable name => exact outcome_dropTable env s session name
  | insert stmt => exact outcome_withTable fun d table v => outcome_executeInsert env stmt d table v
  | update stmt => exact outcome_withTable fun d table v => outcome_executeUpdate env stmt d table v
  | delete stmt => exact outcome_withTable fun d table v => outcome_executeDelete env stmt d table v
  | select stmt => exact outcome_withTable fun d table v => outcome_executeSelect env stmt table
  | revert stmt => exact outcome_withTable fun d table v => outcome_executeRevert env stmt d table v
  | checkIndex =>
      refine (outcome_validateRuntimeIndexConsistency s.runtime).trans ?_
      show _ = (executeCheckIndex s).map fun _ => ()
      rw [executeCheckIndex]
      cases Core.validateRuntimeIndexConsistency s.runtime <;> rfl
  | rebuildIndex =>
      refine (outcome_rebuildRuntimeIndexes s.runtime).trans ?_
      show _ = (executeRebuildIndex s).2.map fun _ => ()
      rw [executeRebuildIndex]
      cases (Core.rebuildRuntimeIndexes s.runtime).2 <;> rfl
  | _ => rfl

end CustomDbms.Execution.Accesses
