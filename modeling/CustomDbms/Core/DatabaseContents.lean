/-
  CustomDbms.Core.DatabaseContents
  ────────────────────────────────
  **WHICH DATABASE A STATEMENT CAN CHANGE.**

  A statement changes the schemas and rows of one database at most, the one it
  names or its session is in (`runStatement_contents`).  A call of the engine
  is more than that: inside a transaction the statement goes to the working
  copy, and a COMMIT replaces all databases by those of the copy
  (`executeSql_contents`, `executeSql_commit`).
-/
import CustomDbms.Core.Sessions
import CustomDbms.Core.TableStatements

namespace CustomDbms.Core

open CustomDbms.Common CustomDbms.Catalog CustomDbms.Execution CustomDbms.Lib
open CustomDbms.Parser CustomDbms.Planner CustomDbms.Storage CustomDbms.Versioning

/-! ## §1. Contents. -/

/-- The schemas and rows of a database, table by table. -/
abbrev Contents := Option (Str → Option (TableSchema × List RowData))

/-- The schemas and rows of a database of the store; `none` where there is no
such database. -/
def databaseContents (s : Store) (d : Str) : Contents :=
  (s.runtime.databases.find? d).map fun db t =>
    (db.tables.find? t).map fun table => (table.schema, table.heap.rows)

theorem databaseContents_congr {s s' : Store} {d : Str}
    (h : s'.runtime.databases.find? d = s.runtime.databases.find? d) :
    databaseContents s' d = databaseContents s d := by
  rw [databaseContents, h]
  rfl

/-- The contents depend on the view of the state. -/
theorem databaseContents_of_view {s s' : Store} (h : s'.runtime.view = s.runtime.view) (d : Str) :
    databaseContents s' d = databaseContents s d := by
  have hview : ∀ s : Store, databaseContents s d = (s.runtime.view.find? d).map fun p t =>
      (p.2.find? t).map fun v => (v.schema, v.heap.rows) := by
    intro s
    unfold databaseContents RuntimeState.view
    rw [Dict.find?_mapVals, Option.map_map]
    congr 1
    funext db t
    simp only [Function.comp_apply, DatabaseRuntime.view, Dict.find?_mapVals, Option.map_map]
    rfl
  rw [hview, hview, h]

/-! ## §2. Statements. -/

/-- The database a statement can change. -/
def changedDatabase (session : SessionContext) : Statement → Option Str
  | .createDatabase name => some name
  | .dropDatabase name => some name
  | .createTable stmt => some (stmt.tableName.databaseName.getD session.currentDatabase)
  | .dropTable name => some (name.databaseName.getD session.currentDatabase)
  | .insert stmt => some (stmt.tableName.databaseName.getD session.currentDatabase)
  | .update stmt => some (stmt.tableName.databaseName.getD session.currentDatabase)
  | .delete stmt => some (stmt.tableName.databaseName.getD session.currentDatabase)
  | .revert stmt => some (stmt.tableName.databaseName.getD session.currentDatabase)
  | _ => none

theorem resolveDatabaseName_eq {session : SessionContext} {requested : Option Str} {d : Str}
    (h : resolveDatabaseName session requested = .ok d) :
    requested.getD session.currentDatabase = d := by
  unfold resolveDatabaseName at h
  cases requested with
  | some name => exact Result.ok.inj h
  | none =>
      dsimp only at h
      split at h
      · cases h
      · exact Result.ok.inj h

/-- A statement on one table leaves the other databases. -/
theorem withTable_databases {s : Store} {session : SessionContext} {name : QualifiedName} {d : Str}
    (hd : name.databaseName.getD session.currentDatabase ≠ d)
    (f : Str → TableRuntime → VersionStore → TableRuntime × VersionStore × Result QueryResult) :
    (withTable s session name f).1.runtime.databases.find? d = s.runtime.databases.find? d := by
  rcases withTable_cases s session name with ⟨d', db, table, hon⟩ | ⟨-, hsame⟩
  · rw [resolveDatabaseName_eq hon.database] at hd
    rw [withTable_onTable hon]
    simp only [Store.setTable, Dict.find?_modify]
    rw [if_neg (Ne.symm hd)]
  · rw [hsame]

theorem executeCreateTable_databases {env : Env} {s : Store} {session : SessionContext}
    {stmt : CreateTableStatement} {d : Str}
    (hd : stmt.tableName.databaseName.getD session.currentDatabase ≠ d) :
    (executeCreateTable env s session stmt).1.runtime.databases.find? d
      = s.runtime.databases.find? d := by
  unfold executeCreateTable
  cases hres : resolveDatabaseName session stmt.tableName.databaseName with
  | error e => rfl
  | fault => rfl
  | ok d' =>
      rw [resolveDatabaseName_eq hres] at hd
      dsimp only
      split
      · rfl
      · split
        · rfl
        · dsimp only
          rw [Dict.find?_modify, if_neg (Ne.symm hd)]

theorem executeDropTable_databases {env : Env} {s : Store} {session : SessionContext}
    {name : QualifiedName} {d : Str}
    (hd : name.databaseName.getD session.currentDatabase ≠ d) :
    (executeDropTable env s session name).1.runtime.databases.find? d
      = s.runtime.databases.find? d := by
  unfold executeDropTable
  cases hres : resolveDatabaseName session name.databaseName with
  | error e => rfl
  | fault => rfl
  | ok d' =>
      rw [resolveDatabaseName_eq hres] at hd
      dsimp only
      split
      · rfl
      · split
        · rfl
        · dsimp only
          rw [Dict.find?_modify, if_neg (Ne.symm hd)]

theorem executeCreateDatabase_databases {env : Env} {s : Store} {name d : Str} (hd : name ≠ d) :
    (executeCreateDatabase env s name).1.runtime.databases.find? d
      = s.runtime.databases.find? d := by
  unfold executeCreateDatabase
  split
  · rfl
  · rename_i hnot
    have hnone : s.runtime.databases.find? name = none := by simpa [Dict.contains] using hnot
    dsimp only
    rw [Dict.find?_emplace hnone, if_neg (Ne.symm hd)]

theorem executeDropDatabase_databases {env : Env} {s : Store} {session : SessionContext}
    {name d : Str} (hd : name ≠ d) :
    (executeDropDatabase env s session name).1.runtime.databases.find? d
      = s.runtime.databases.find? d := by
  unfold executeDropDatabase
  split
  · dsimp only
    rw [Dict.find?_erase, if_neg (Ne.symm hd)]
  · rfl

/-- **A statement leaves every database but its own.** -/
theorem execute_contents (env : Env) {s : Store} (hok : StoreOk s) (session : SessionContext)
    {statement : Statement} (detail : Str) {d : Str}
    (hd : changedDatabase session statement ≠ some d) :
    databaseContents (execute env s session statement detail).1 d = databaseContents s d := by
  have hne : ∀ {d'}, changedDatabase session statement = some d' → d' ≠ d := by
    rintro d' hd' rfl
    exact hd hd'
  cases statement with
  | createDatabase name => exact databaseContents_congr (executeCreateDatabase_databases (hne rfl))
  | dropDatabase name => exact databaseContents_congr (executeDropDatabase_databases (hne rfl))
  | createTable stmt => exact databaseContents_congr (executeCreateTable_databases (hne rfl))
  | dropTable name => exact databaseContents_congr (executeDropTable_databases (hne rfl))
  | insert stmt => exact databaseContents_congr (withTable_databases (hne rfl) _)
  | update stmt => exact databaseContents_congr (withTable_databases (hne rfl) _)
  | delete stmt => exact databaseContents_congr (withTable_databases (hne rfl) _)
  | revert stmt => exact databaseContents_congr (withTable_databases (hne rfl) _)
  | select stmt =>
      -- the table is put back as it was
      refine databaseContents_congr ?_
      show (withTable s session stmt.tableName _).1.runtime.databases.find? d = _
      rcases withTable_cases s session stmt.tableName with ⟨d', db, table, hon⟩ | ⟨-, hsame⟩
      · rw [withTable_onTable hon]
        dsimp only
        rw [setTable_self hon.found hon.table]
      · rw [hsame]
  | rebuildIndex =>
      obtain ⟨s', hrun, -, hview⟩ := rebuildRuntimeIndexes_ok hok.state
      simp only [execute, executeRebuildIndex, hrun]
      exact databaseContents_of_view hview d
  | checkIndex => rfl
  | useDatabase name => rfl
  | unknown raw => rfl
  | beginTransaction => rfl
  | commitTransaction => rfl
  | rollbackTransaction => rfl

theorem runStatement_contents (env : Env) {s : Store} (hok : StoreOk s) (session : SessionContext)
    {statement : Statement} {d : Str} (hd : changedDatabase session statement ≠ some d) :
    databaseContents (runStatement env s session statement).1 d = databaseContents s d := by
  unfold runStatement
  split
  · rfl
  · rfl
  · rename_i plan hplan
    rw [buildPlan_statement hplan]
    exact execute_contents env hok session plan.detail hd

/-! ## §3. Calls of the engine. -/

section Calls

variable {e : DbmsEngine} {session : SessionContext} {sql : Str} {statement : Statement}

/-- The transaction a call finds. -/
def DbmsEngine.transactionOf (e : DbmsEngine) (session : SessionContext) :
    Option TransactionContext :=
  e.transactions.find? (transactionKey session)

/-- **A COMMIT publishes the working copy**, whatever becomes of the files. -/
theorem executeSql_commit (env : Env) (io : Io) (hparse : parse sql = .ok .commitTransaction)
    {tx : TransactionContext} (htx : e.transactionOf session = some tx) :
    (executeSql env io e session sql).1.store = tx.store := by
  unfold executeSql executeSqlImpl executeCommit
  rw [hparse]
  dsimp only
  rw [show e.transactions.find? (transactionKey session) = some tx from htx]
  obtain ⟨disk, hmemory | hmemory⟩ := commitTransaction_memory e io true (transactionKey session) tx
  · dsimp only
    rw [hmemory]
    rfl
  · dsimp only
    rw [hmemory]
    rfl

/-- A statement inside a transaction leaves the committed state, and a working
copy made by the statement or the one it was. -/
theorem executeInTransaction_working (env : Env) (session : SessionContext) (sql : Str)
    (statement : Statement) {key : Str} {tx : TransactionContext}
    (htx : e.transactions.find? key = some tx) (writeWal : Bool) :
    (executeInTransaction env e session key tx sql statement writeWal).1.store = e.store ∧
    ∃ tx', (executeInTransaction env e session key tx sql statement
        writeWal).1.transactions.find? key = some tx' ∧
      (tx'.store = tx.store ∨ tx'.store = (runStatement env tx.store session statement).1) := by
  unfold executeInTransaction
  split
  · exact ⟨rfl, tx, htx, .inl rfl⟩
  · split
    · exact ⟨rfl, tx, htx, .inl rfl⟩
    · refine ⟨rfl, tx.after (runStatement env tx.store session statement).1 statement sql writeWal
        (runStatement env tx.store session statement).2.2, ?_, .inr rfl⟩
      dsimp only
      rw [Dict.find?_modify, if_pos rfl, htx]
      rfl

/-- **What a call can change, COMMIT apart**: the contents of the statement's
database, in the committed state or in the working copy of the transaction. -/
theorem executeSql_contents (env : Env) (io : Io) (hok : EngineOk e)
    (hparse : parse sql = .ok statement)
    (hcommit : statement = .commitTransaction → e.transactionOf session = none) {d : Str}
    (hd : changedDatabase session statement ≠ some d) :
    databaseContents (executeSql env io e session sql).1.store d = databaseContents e.store d := by
  by_cases hb : statement = .beginTransaction
  · subst hb
    unfold executeSql executeSqlImpl executeBegin
    rw [hparse]
    dsimp only
    split
    · rfl
    · split <;> rfl
  by_cases hc : statement = .commitTransaction
  · subst hc
    unfold executeSql executeSqlImpl executeCommit
    rw [hparse]
    dsimp only
    rw [show e.transactions.find? (transactionKey session) = none from hcommit rfl]
  by_cases hr : statement = .rollbackTransaction
  · subst hr
    unfold executeSql executeSqlImpl executeRollback
    rw [hparse]
    dsimp only
    split <;> rfl
  unfold executeSql
  rw [executeSqlImpl_statement hparse hb hc hr]
  cases htx : e.transactions.find? (transactionKey session) with
  | some tx =>
      dsimp only
      rw [(executeInTransaction_working env session sql statement htx true).1]
  | none =>
      dsimp only
      obtain ⟨disk, hmemory⟩ := executeAutocommit_memory env io e session sql statement true
      rw [hmemory]
      exact runStatement_contents env hok.committed session hd

/-- BEGIN makes a working copy of what is committed. -/
theorem executeSql_begin (env : Env) (io : Io) (hok : EngineOk e)
    (hparse : parse sql = .ok .beginTransaction) (hnone : e.transactionOf session = none) :
    ∃ tx, (executeSql env io e session sql).1.transactionOf session = some tx ∧
      ∀ d, databaseContents tx.store d = databaseContents e.store d := by
  obtain ⟨state, hclone, -, hview⟩ := cloneRuntimeState_ok hok.committed.state
  have hcontains : e.transactions.contains (transactionKey session) = false := by
    unfold Dict.contains
    rw [show e.transactions.find? (transactionKey session) = none from hnone]
    rfl
  unfold executeSql executeSqlImpl executeBegin
  rw [hparse]
  dsimp only
  rw [hcontains, if_neg (by decide), show cloneRuntimeState e.runtimeState = .ok state from hclone]
  refine ⟨⟨state, e.versionStore, []⟩, ?_, fun d => databaseContents_of_view hview d⟩
  unfold DbmsEngine.transactionOf
  dsimp only
  rw [Dict.find?_emplace hnone, if_pos rfl]

/-- **Inside a transaction** the working copy of a call that is no COMMIT has
the contents it had, outside the statement's database; or it is over. -/
theorem executeSql_working (env : Env) (io : Io) (hok : EngineOk e)
    (hparse : parse sql = .ok statement) {tx : TransactionContext}
    (htx : e.transactionOf session = some tx) (hc : statement ≠ .commitTransaction) {d : Str}
    (hd : changedDatabase session statement ≠ some d) :
    ∀ tx', (executeSql env io e session sql).1.transactionOf session = some tx' →
      databaseContents tx'.store d = databaseContents tx.store d := by
  intro tx' htx'
  have htx₀ : e.transactions.find? (transactionKey session) = some tx := htx
  have hcontains : e.transactions.contains (transactionKey session) = true := by
    rw [Dict.contains, htx₀]
    rfl
  by_cases hb : statement = .beginTransaction
  · subst hb
    unfold executeSql executeSqlImpl executeBegin DbmsEngine.transactionOf at htx'
    rw [hparse] at htx'
    dsimp only at htx'
    rw [if_pos hcontains, htx₀] at htx'
    cases htx'
    rfl
  by_cases hr : statement = .rollbackTransaction
  · subst hr
    unfold executeSql executeSqlImpl executeRollback DbmsEngine.transactionOf at htx'
    rw [hparse] at htx'
    dsimp only at htx'
    rw [if_pos hcontains] at htx'
    unfold DbmsEngine.endTransaction at htx'
    rw [Dict.find?_erase, if_pos rfl] at htx'
    cases htx'
  unfold executeSql DbmsEngine.transactionOf at htx'
  rw [executeSqlImpl_statement hparse hb hc hr, htx₀] at htx'
  obtain ⟨-, tx₁, hfind, hstore⟩ :=
    executeInTransaction_working env session sql statement htx₀ true
  obtain rfl : tx₁ = tx' := Option.some.inj (hfind.symm.trans htx')
  rcases hstore with hstore | hstore
  · rw [hstore]
  · rw [hstore]
    exact runStatement_contents env (hok.working _ _ htx₀) session hd

end Calls

end CustomDbms.Core
