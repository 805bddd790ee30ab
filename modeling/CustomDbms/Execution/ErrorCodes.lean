/-
  CustomDbms.Execution.ErrorCodes
  ───────────────────────────────
  **THE EXECUTOR RETURNS NO STORAGE ERROR.**

  `kStorageError` is the code of a failed file operation and of a broken
  index.  On a store that satisfies the invariant no index is broken, so
  whatever an executed statement returns, it is not that code: a call of the
  engine that returns it has met a failing file operation.
-/
import CustomDbms.Execution.StatementAtomicity

namespace CustomDbms.Execution

open CustomDbms.Common CustomDbms.Catalog CustomDbms.Core CustomDbms.Index CustomDbms.Lib
open CustomDbms.Parser CustomDbms.Storage CustomDbms.Versioning

/-! ## §1. Errors of the executor. -/

/-- Not an error of code `kStorageError`. -/
def NoStorageError {α : Type} (r : Result α) : Prop :=
  ∀ e, r = .error e → e.code ≠ .storageError

namespace NoStorageError

variable {α β : Type}

theorem ok (a : α) : NoStorageError (.ok a) := by
  intro e h
  cases h

theorem fault : NoStorageError (.fault : Result α) := by
  intro e h
  cases h

theorem makeError {code : ErrorCode} {message : Str} (h : code ≠ .storageError) :
    NoStorageError (.makeError code message : Result α) := by
  intro e he
  cases he
  exact h

theorem ofOption (o : Option α) : NoStorageError (Result.ofOption o) := by
  cases o with
  | none => exact fault
  | some a => exact ok a

theorem bind {r : Result α} {f : α → Result β} (hr : NoStorageError r)
    (hf : ∀ a, NoStorageError (f a)) : NoStorageError (r >>= f) := by
  cases r with
  | ok a => exact hf a
  | error e => intro e' h; cases h; exact hr e rfl
  | fault => exact fault

theorem map {r : Result α} {f : α → β} (hr : NoStorageError r) : NoStorageError (r.map f) := by
  cases r with
  | ok a => exact ok (f a)
  | error e => intro e' h; cases h; exact hr e rfl
  | fault => exact fault

/-- An error that is passed on. -/
theorem error {r : Result α} (hr : NoStorageError r) {e : Error} (h : r = .error e) :
    NoStorageError (.error e : Result β) := by
  intro e' h'
  cases h'
  exact hr e h

theorem mapList {f : α → Result β} (hf : ∀ a, NoStorageError (f a)) (as : List α) :
    NoStorageError (Result.mapList f as) := by
  induction as with
  | nil => exact ok []
  | cons a as ih => exact bind (hf a) fun b => bind ih fun bs => ok (b :: bs)

theorem foldList {f : β → α → Result β} (hf : ∀ b a, NoStorageError (f b a)) (as : List α)
    (b : β) : NoStorageError (Result.foldList f b as) := by
  induction as generalizing b with
  | nil => exact ok b
  | cons a as ih => exact bind (hf b a) ih

theorem forEach {f : α → Result Unit} (hf : ∀ a, NoStorageError (f a)) (as : List α) :
    NoStorageError (Result.forEach f as) := by
  induction as with
  | nil => exact ok ()
  | cons a as ih => exact bind (hf a) fun _ => ih

theorem operand {r : Result α} : NoStorageError (Execution.operand r) := by
  cases r with
  | ok a => exact ok (some a)
  | error e => exact ok none
  | fault => exact fault

end NoStorageError

theorem noStorage_evaluateValueExpression (expr : Expression) (schema : TableSchema)
    (row : RowData) : NoStorageError (evaluateValueExpression expr schema row) := by
  cases expr with
  | literal v => exact .ok v
  | columnReference d t c =>
      unfold evaluateValueExpression
      dsimp only
      cases findColumnIndex schema c with
      | none => exact .makeError (by decide)
      | some i => exact .ofOption _
  | _ => exact .makeError (by decide)

theorem noStorage_evaluatePredicate (re : RegexMatch) (schema : TableSchema) (row : RowData)
    (expr : Expression) : NoStorageError (evaluatePredicate re schema row expr) := by
  have hval := fun x => noStorage_evaluateValueExpression x schema row
  induction expr with
  | logical op l r ihl ihr => exact .bind ihl fun _ => .bind ihr fun _ => .ok _
  | binaryComparison op l r =>
      refine .bind (hval l) fun a => .bind (hval r) fun b => ?_
      split
      · exact .makeError (by decide)
      · exact .bind (.ofOption _) fun _ => .ok _
  | between v lo hi =>
      refine .bind .operand fun a => .bind .operand fun b => .bind .operand fun c => ?_
      unfold evaluateBetween
      split
      · split
        · exact .makeError (by decide)
        · exact .bind (.ofOption _) fun _ => .bind (.ofOption _) fun _ => .ok _
      · exact .makeError (by decide)
  | like v p =>
      refine .bind .operand fun a => .bind .operand fun b => ?_
      unfold evaluateLike
      split
      · split
        · exact .ofOption _
        · exact .makeError (by decide)
      · exact .makeError (by decide)
  | literal v => exact .bind (hval _) fun _ => .ok _
  | columnReference d t c => exact .bind (hval _) fun _ => .ok _
  | aggregateCall k c => exact .bind (hval _) fun _ => .ok _

theorem noStorage_passes (re : RegexMatch) (schema : TableSchema) (w : Option Expression)
    (row : RowData) : NoStorageError (passes re schema w row) := by
  cases w with
  | none => exact .ok true
  | some e => exact noStorage_evaluatePredicate re schema row e

theorem noStorage_validateValues (cs : List Catalog.ColumnDefinition) (vs : List Value) :
    NoStorageError (validateValues cs vs) := by
  induction cs generalizing vs with
  | nil => exact .ok vs
  | cons c cs ih =>
      cases vs with
      | nil => exact .fault
      | cons v vs =>
          rw [validateValues]
          split
          · exact .bind (ih vs) fun _ => .ok _
          · exact .makeError (by decide)

theorem noStorage_validateRow (row : RowData) (schema : TableSchema) :
    NoStorageError (validateRowAgainstSchema row schema) :=
  .bind (noStorage_validateValues _ _) fun _ => .ok _

theorem noStorage_freshIndexKey (schema : TableSchema) (i : Nat) (row : RowData) (n : Str)
    (tree : IndexTree) : NoStorageError (freshIndexKey schema i row n tree) := by
  refine .bind (.bind (.ofOption _) fun _ => .bind (.ofOption _) fun _ => .ok _) fun ⟨v, c⟩ => ?_
  by_cases hnull : isNull v = true
  · simp only [hnull, if_true]
    exact .makeError (by decide)
  · simp only [hnull]
    refine .bind (.ofOption _) fun _ => .bind (.ofOption _) fun _ => ?_
    split
    · exact .ok _
    · exact .makeError (by decide)

theorem noStorage_updateEntries {f : Str → IndexTree → Result IndexTree}
    (hf : ∀ n tree, NoStorageError (f n tree)) (l : List (Str × IndexTree)) :
    NoStorageError (updateEntries f l).2 := by
  induction l with
  | nil => exact .ok ()
  | cons p l ih =>
      rw [updateEntries]
      cases h : f p.1 p.2 with
      | ok tree => exact ih
      | error e => exact (hf p.1 p.2).error h
      | fault => exact .fault

theorem noStorage_indexRows {f : RowData → Str → IndexTree → Result IndexTree}
    (hf : ∀ r n tree, NoStorageError (f r n tree)) (rows : List RowData)
    (indexes : Dict Str IndexTree) : NoStorageError (indexRows f indexes rows).2 := by
  induction rows generalizing indexes with
  | nil => exact .ok ()
  | cons r rows ih =>
      have hstep : NoStorageError (updateIndexes (f r) indexes).2 :=
        noStorage_updateEntries (hf r) indexes.entries
      rw [indexRows]
      rcases hu : updateIndexes (f r) indexes with ⟨ix, res⟩
      rw [hu] at hstep
      cases res with
      | ok u => exact ih ix
      | error e => exact hstep
      | fault => exact .fault

theorem noStorage_rebuildIndexes (schema : TableSchema) (rows : List RowData) :
    NoStorageError (rebuildIndexes schema rows) := by
  have hloop : NoStorageError
      (indexRows (checkedIndexEntry schema) (emptyIndexes schema) rows).2 := by
    refine noStorage_indexRows (fun r n tree => ?_) rows _
    unfold checkedIndexEntry
    cases findColumnIndex schema n with
    | none => exact .makeError (by decide)
    | some i => exact .bind (noStorage_freshIndexKey schema i r n tree) fun _ => .ofOption _
  unfold rebuildIndexes
  rcases h : indexRows (checkedIndexEntry schema) (emptyIndexes schema) rows with ⟨ix, res⟩
  rw [h] at hloop
  cases res with
  | ok u => exact .ok ix
  | error e => exact hloop.error rfl
  | fault => exact .fault

/-! ## §2. Errors of the statements on one table. -/

theorem noStorage_replaceRows (table : TableRuntime) (v : VersionStore) (rows : List RowData)
    (message : Str) : NoStorageError (replaceRows table v rows message).2.2 := by
  have hrebuild := noStorage_rebuildIndexes table.schema rows
  unfold replaceRows
  cases h : rebuildIndexes table.schema rows with
  | ok ix => exact .ok _
  | error e => exact hrebuild.error h
  | fault => exact .fault

theorem noStorage_insertRows {env : Env} {d t : Str} {map : List Nat}
    {inputs : List (List Expression)} {table : TableRuntime} {v : VersionStore}
    (h : TableOk d t table) : NoStorageError (insertRows env d map inputs table v).2.2 := by
  induction inputs generalizing table v with
  | nil => exact .ok ()
  | cons input inputs ih =>
      rw [insertRows]
      cases hrow : admitRow table map input with
      | fault => exact .fault
      | error e =>
          have hadmit : NoStorageError (admitRow table map input) := by
            refine .bind (.bind ?_ fun _ => noStorage_validateRow _ _) fun row =>
              .bind (.forEach (fun p => ?_) _) fun _ => .ok _
            · generalize List.replicate table.schema.columns.length Value.null = vs
              clear hrow ih
              induction input generalizing map vs with
              | nil => exact fun e he => by simp [fillRow] at he
              | cons x xs ih =>
                  cases x with
                  | literal w =>
                      cases map with
                      | nil => exact .fault
                      | cons i is =>
                          simp only [fillRow]
                          split
                          · exact ih _
                          · exact .fault
                  | _ =>
                      intro e he
                      simp only [fillRow, Result.makeError, Result.error.injEq] at he
                      rw [← he]
                      decide
            · cases findColumnIndex table.schema p.1 with
              | none => exact .ok ()
              | some i => exact .bind (noStorage_freshIndexKey _ _ _ _ _) fun _ => .ok ()
          exact hadmit.error hrow
      | ok row =>
          obtain ⟨hid, hl, hnew⟩ := admitRow_ok h hrow
          obtain ⟨table', hrun, hok, -, -⟩ := storeRow_ok env v h hid hl hnew
          simp only [hrun]
          exact ih hok

theorem noStorage_executeInsert {env : Env} {d t : Str} {stmt : InsertStatement}
    {table : TableRuntime} {v : VersionStore} (h : TableOk d t table) :
    NoStorageError (executeInsert env stmt d table v).2.2 := by
  have hmap : NoStorageError (insertColumnMap table.schema stmt.columnNames) := by
    refine .mapList (fun n => ?_) _
    cases findColumnIndex table.schema n with
    | none => exact .makeError (by decide)
    | some i => exact .ok i
  unfold executeInsert
  cases hm : insertColumnMap table.schema stmt.columnNames with
  | error e => exact hmap.error hm
  | fault => exact .fault
  | ok map => exact (noStorage_insertRows h).map

theorem noStorage_updateRow (re : RegexMatch) (schema : TableSchema) (stmt : UpdateStatement)
    (row : RowData) : NoStorageError (updateRow re schema stmt row) := by
  refine .bind (noStorage_passes _ _ _ _) fun pass => ?_
  split
  · refine .bind ?_ fun _ => .bind (noStorage_validateRow _ _) fun _ => .ok _
    generalize stmt.assignments = as
    induction as generalizing row with
    | nil => exact .ok row
    | cons a as ih =>
        rw [assignValues]
        cases findColumnIndex schema a.columnName with
        | none => exact .makeError (by decide)
        | some i =>
            refine .bind (noStorage_evaluateValueExpression _ _ _) fun v => ?_
            split
            · exact ih _
            · exact .fault
  · exact .ok none

theorem noStorage_executeUpdate (env : Env) (stmt : UpdateStatement) (d : Str)
    (table : TableRuntime) (v : VersionStore) :
    NoStorageError (executeUpdate env stmt d table v).2.2 := by
  have hloop : NoStorageError (updateRows env d table.schema stmt table.heap.scanAll v).2 := by
    generalize table.heap.scanAll = rows
    induction rows generalizing v with
    | nil => exact .ok _
    | cons row rows ih =>
        rw [updateRows]
        cases hr : updateRow env.regexMatch table.schema stmt row with
        | error e => exact (noStorage_updateRow _ _ _ _).error hr
        | fault => exact .fault
        | ok o =>
            cases o with
            | none => exact (ih v).map
            | some row' => exact (ih _).map
  simp only [executeUpdate]
  generalize updateRows env d table.schema stmt table.heap.scanAll v = r at hloop ⊢
  obtain ⟨v', res⟩ := r
  cases res with
  | ok p => exact noStorage_replaceRows _ _ _ _
  | error e => exact hloop.error rfl
  | fault => exact .fault

theorem noStorage_executeDelete (env : Env) (stmt : DeleteStatement) (d : Str)
    (table : TableRuntime) (v : VersionStore) :
    NoStorageError (executeDelete env stmt d table v).2.2 := by
  have hloop : NoStorageError (deleteRows env d table.schema stmt table.heap.scanAll v).2 := by
    generalize table.heap.scanAll = rows
    induction rows generalizing v with
    | nil => exact .ok _
    | cons row rows ih =>
        rw [deleteRows]
        cases hr : passes env.regexMatch table.schema stmt.whereClause row with
        | error e => exact (noStorage_passes _ _ _ _).error hr
        | fault => exact .fault
        | ok b =>
            cases b with
            | false => exact (ih v).map
            | true => exact (ih _).map
  simp only [executeDelete]
  generalize deleteRows env d table.schema stmt table.heap.scanAll v = r at hloop ⊢
  obtain ⟨v', res⟩ := r
  cases res with
  | ok p => exact noStorage_replaceRows _ _ _ _
  | error e => exact hloop.error rfl
  | fault => exact .fault

theorem noStorage_executeRevert (env : Env) (stmt : RevertStatement) (d : Str)
    (table : TableRuntime) (v : VersionStore) :
    NoStorageError (executeRevert env stmt d table v).2.2 := by
  have htarget : NoStorageError (revertTarget stmt d v) := by
    simp only [revertTarget]
    split
    · exact .ok _
    · split
      · exact .ok _
      · exact .makeError (by decide)
    · split
      · exact .ok _
      · exact .makeError (by decide)
  unfold executeRevert
  cases ht : revertTarget stmt d v with
  | error e => exact htarget.error ht
  | fault => exact .fault
  | ok target =>
      cases target with
      | none => exact .makeError (by decide)
      | some ts =>
          simp only
          split
          · exact .makeError (by decide)
          · exact noStorage_replaceRows _ _ _ _

theorem noStorage_executeSelect (env : Env) (stmt : SelectStatement) (table : TableRuntime) :
    NoStorageError (executeSelect env stmt table) := by
  have hpass := noStorage_passes env.regexMatch table.schema stmt.whereClause
  refine .bind ?_ fun r => ?_
  · refine .bind ?_ fun o => ?_
    · unfold indexCandidates
      split
      · split
        · refine .bind (.ofOption _) fun _ => .bind (.ofOption _) fun _ => ?_
          unfold comparisonCandidates
          split
          · exact .bind (.ofOption _) fun _ => .ok _
          all_goals first
            | exact .bind (.bind (.ofOption _) fun _ => .ok _) fun _ => .ok _
            | exact .ok none
        · exact .ok none
      · split
        · exact .bind (.ofOption _) fun _ => .bind (.ofOption _) fun _ => .bind (.ofOption _)
            fun _ => .bind (.bind (.ofOption _) fun _ => .ok _) fun _ => .ok _
        · exact .ok none
      · exact .ok none
    · cases o with
      | some ids =>
          refine .bind ?_ fun _ => .ok _
          induction ids with
          | nil => exact .ok []
          | cons i ids ih =>
              rw [filterCandidates]
              split
              · exact ih
              · exact .bind (hpass _) fun _ => .bind ih fun _ => .ok _
      | none =>
          refine .bind ?_ fun _ => .ok _
          generalize table.heap.scanAll = rows
          induction rows with
          | nil => exact .ok []
          | cons row rows ih => exact .bind (hpass row) fun _ => .bind ih fun _ => .ok _
  · have hcol : ∀ n, NoStorageError (selectColumn table.schema n) := by
      intro n
      unfold selectColumn
      split
      · exact .ok _
      · exact .makeError (by decide)
    unfold selectRows
    split
    · refine .bind (.mapList (fun item => ?_) _) fun _ => .ok _
      unfold aggregateItem
      split
      · exact .makeError (by decide)
      · have hagg : ∀ kind i, NoStorageError (aggregateValue kind i r.1) := by
          intro kind i
          have hsum : ∀ i b a, NoStorageError (sumStep i b a) := by
            intro i b a
            refine .bind (.ofOption _) fun v => ?_
            cases v with
            | null => exact .ok _
            | int n => exact .ok _
            | string s => exact .makeError (by decide)
          unfold aggregateValue
          split
          · refine .bind (.foldList (fun b a => ?_) _ _) fun _ => .ok _
            unfold countStep
            split
            · exact .ok _
            · exact .bind (.ofOption _) fun _ => .ok _
          · exact .makeError (by decide)
          · exact .bind (.foldList (hsum _) _ _) fun _ => .ok _
          · exact .bind (.foldList (hsum _) _ _) fun _ => .ok _
        split
        · exact hagg _ _
        · exact .bind (hcol _) fun _ => hagg _ _
    · refine .bind (.mapList (fun row => ?_) _) fun _ => .ok _
      unfold projectRow
      split
      · exact .ok _
      · exact .bind (.mapList (fun item => .bind (hcol _) fun _ => .ofOption _) _) fun _ => .ok _

theorem noStorage_resolve (session : SessionContext) (o : Option Str) :
    NoStorageError (resolveDatabaseName session o) := by
  cases o with
  | some d => exact .ok d
  | none =>
      simp only [resolveDatabaseName]
      split
      · exact .makeError (by decide)
      · exact .ok _

theorem noStorage_withTable {s : Store} (h : StoreOk s) (session : SessionContext)
    (name : QualifiedName)
    {f : Str → TableRuntime → VersionStore → TableRuntime × VersionStore × Result QueryResult}
    (hf : ∀ d table v, TableOk d name.objectName table → NoStorageError (f d table v).2.2) :
    NoStorageError (withTable s session name f).2 := by
  unfold withTable
  cases hd : resolveDatabaseName session name.databaseName with
  | error e => exact (noStorage_resolve _ _).error hd
  | fault => exact .fault
  | ok d =>
      cases hdb : s.runtime.databases.find? d with
      | none => simp only [hdb]; exact .makeError (by decide)
      | some db =>
          cases ht : db.tables.find? name.objectName with
          | none => simp only [hdb, ht]; exact .makeError (by decide)
          | some table =>
              simp only [hdb, ht]
              exact hf d table s.versions ((h.state d db hdb).tables _ _ ht)

/-- **The executor returns no storage error.** -/
theorem noStorage_execute {env : Env} {s : Store} (h : StoreOk s) (session : SessionContext)
    (statement : Statement) (detail : Str) :
    NoStorageError (execute env s session statement detail).2.2 := by
  cases statement with
  | createDatabase name =>
      simp only [execute, executeCreateDatabase]
      split
      · exact .makeError (by decide)
      · exact .ok _
  | useDatabase name =>
      simp only [execute, executeUse]
      split
      · exact .ok _
      · exact .makeError (by decide)
  | dropDatabase name =>
      simp only [execute, executeDropDatabase]
      split
      · exact .ok _
      · exact .makeError (by decide)
  | createTable stmt =>
      simp only [execute, executeCreateTable]
      cases hd : resolveDatabaseName session stmt.tableName.databaseName with
      | error e => exact (noStorage_resolve _ _).error hd
      | fault => exact .fault
      | ok d =>
          cases hdb : s.runtime.databases.find? d with
          | none => simp only [hdb]; exact .makeError (by decide)
          | some db =>
              simp only [hdb]
              split
              · exact .makeError (by decide)
              · exact .ok _
  | dropTable name =>
      simp only [execute, executeDropTable]
      cases hd : resolveDatabaseName session name.databaseName with
      | error e => exact (noStorage_resolve _ _).error hd
      | fault => exact .fault
      | ok d =>
          cases hdb : s.runtime.databases.find? d with
          | none => simp only [hdb]; exact .makeError (by decide)
          | some db =>
              cases ht : db.tables.find? name.objectName with
              | none => simp only [hdb, ht]; exact .makeError (by decide)
              | some table => simp only [hdb, ht]; exact .ok _
  | insert stmt => exact noStorage_withTable h session _ fun _ _ _ => noStorage_executeInsert
  | update stmt =>
      exact noStorage_withTable h session _ fun d tb v _ => noStorage_executeUpdate env stmt d tb v
  | delete stmt =>
      exact noStorage_withTable h session _ fun d tb v _ => noStorage_executeDelete env stmt d tb v
  | select stmt =>
      exact noStorage_withTable h session _ fun _ tb _ _ => noStorage_executeSelect env stmt tb
  | revert stmt =>
      exact noStorage_withTable h session _ fun d tb v _ => noStorage_executeRevert env stmt d tb v
  | checkIndex =>
      simp only [execute, executeCheckIndex, h.state.validates]
      exact .ok _
  | rebuildIndex =>
      obtain ⟨s', hrun, -⟩ := rebuildRuntimeIndexes_ok h.state
      simp only [execute, executeRebuildIndex, hrun]
      exact .ok _
  | unknown raw => exact .makeError (by decide)
  | beginTransaction => exact .makeError (by decide)
  | commitTransaction => exact .makeError (by decide)
  | rollbackTransaction => exact .makeError (by decide)

end CustomDbms.Execution
