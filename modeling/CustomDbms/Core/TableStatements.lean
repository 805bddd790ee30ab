/-
  CustomDbms.Core.TableStatements
  ───────────────────────────────
  **STATEMENTS ON ROWS, SEEN FROM OUTSIDE.**

  From outside, a store is the schemas of its tables and the values of their
  rows.  INSERT, UPDATE, DELETE and SELECT work on the state of their session,
  be it the committed one or the working copy of a transaction; where the
  files can be written, the engine answers what the executor answers.
-/
import CustomDbms.Core.EngineInvariant
import CustomDbms.Execution.RowValues

namespace CustomDbms.Core

open CustomDbms.Common CustomDbms.Catalog CustomDbms.Execution CustomDbms.Index CustomDbms.Lib
open CustomDbms.Parser CustomDbms.Planner CustomDbms.Storage CustomDbms.Versioning

/-! ## §1. Schemas and values of a store. -/

/-- The schema of a table. -/
def tableSchema (s : Store) (d t : Str) : Option TableSchema := (storeTable s d t).map (·.schema)

/-- The values of the rows of a table; none where there is no table. -/
def tableValues (s : Store) (d t : Str) : List (List Value) :=
  ((storeTable s d t).map fun table => table.heap.rows.map (·.values)).getD []

theorem storeTable_eq_some {s : Store} {d t : Str} {table : TableRuntime} :
    storeTable s d t = some table ↔
      ∃ db, s.runtime.databases.find? d = some db ∧ db.tables.find? t = some table :=
  Option.bind_eq_some_iff

theorem tableOk_of_storeOk {s : Store} (h : StoreOk s) {d t : Str} {table : TableRuntime}
    (ht : storeTable s d t = some table) : TableOk d t table := by
  obtain ⟨db, hdb, htable⟩ := storeTable_eq_some.mp ht
  exact (h.state d db hdb).tables t table htable

theorem tableValues_of_some {s : Store} {d t : Str} {table : TableRuntime}
    (h : storeTable s d t = some table) :
    tableValues s d t = table.heap.rows.map (·.values) := by
  rw [tableValues, h]
  rfl

theorem tableSchema_of_some {s : Store} {d t : Str} {table : TableRuntime}
    (h : storeTable s d t = some table) : tableSchema s d t = some table.schema := by
  rw [tableSchema, h]
  rfl

theorem tableSchema_eq_some {s : Store} {d t : Str} {schema : TableSchema} :
    tableSchema s d t = some schema ↔ ∃ table, storeTable s d t = some table ∧
      table.schema = schema :=
  Option.map_eq_some_iff

/-- **A statement on one table leaves all others.** -/
theorem storeTable_withTable {s : Store} {session : SessionContext} {name : QualifiedName}
    {d : Str} {db : DatabaseRuntime} {table : TableRuntime}
    (h : OnTable s session name d db table)
    (f : Str → TableRuntime → VersionStore → TableRuntime × VersionStore × Result QueryResult)
    (d' t' : Str) :
    storeTable (withTable s session name f).1 d' t'
      = if d' = d ∧ t' = name.objectName then some (f d table s.versions).1
        else storeTable s d' t' := by
  rw [withTable_onTable h]
  unfold storeTable Store.setTable
  dsimp only
  rw [Dict.find?_modify]
  by_cases hd : d' = d
  · rw [if_pos hd, hd, h.found, Option.map_some, Option.bind_some, Option.bind_some]
    dsimp only
    rw [Dict.find?_modify]
    by_cases ht : t' = name.objectName
    · rw [if_pos ht, ht, h.table, if_pos ⟨rfl, rfl⟩]
      rfl
    · rw [if_neg ht, if_neg fun heq => ht heq.2]
  · rw [if_neg hd, if_neg fun heq => hd heq.1]

theorem storeTable_of_onTable {s : Store} {session : SessionContext} {name : QualifiedName} {d : Str}
    {db : DatabaseRuntime} {table : TableRuntime} (h : OnTable s session name d db table) :
    storeTable s d name.objectName = some table :=
  storeTable_eq_some.mpr ⟨db, h.found, h.table⟩

/-! ## §2. UPDATE and DELETE. -/

/-- The table an UPDATE or a DELETE names. -/
def writeTarget : Statement → Option QualifiedName
  | .update stmt => some stmt.tableName
  | .delete stmt => some stmt.tableName
  | _ => none

section Writes

variable {env : Env} {s : Store} {session : SessionContext} {statement : Statement}
  {name : QualifiedName}

end Writes

/-- A SELECT is planned and reads its table. -/
theorem runStatement_select (env : Env) (session : SessionContext) (stmt : SelectStatement)
    (s : Store) : runStatement env s session (.select stmt)
    = ((withTable s session stmt.tableName
        fun _ table v => (table, v, executeSelect env stmt table)).1, session,
      (withTable s session stmt.tableName
        fun _ table v => (table, v, executeSelect env stmt table)).2) := by
  have hplan : buildPlan s.runtime (.select stmt) = .ok (selectPlan s.runtime stmt) := rfl
  unfold runStatement
  rw [hplan]
  dsimp only
  rw [buildPlan_statement hplan]
  rfl

/-! ## §3. The engine. -/

/-- INSERT, UPDATE, DELETE and SELECT. -/
def isRowStatement : Statement → Bool
  | .insert _ | .update _ | .delete _ | .select _ => true
  | _ => false

section Engine

variable {env : Env} {io : Io} {e : DbmsEngine} {session : SessionContext} {sql : Str}
  {statement : Statement}

theorem executeSql_rowStatement (env : Env) (io : Io) (e : DbmsEngine) (session : SessionContext)
    (hparse : parse sql = .ok statement) (hrow : isRowStatement statement = true) :
    (∀ tx, e.transactions.find? (transactionKey session) = some tx →
      executeSql env io e session sql
        = executeInTransaction env e session (transactionKey session) tx sql statement true) ∧
    (e.transactions.find? (transactionKey session) = none →
      executeSql env io e session sql
        = executeAutocommit env io e session sql statement true) := by
  have hstatement : ∀ s, isRowStatement s = false → statement ≠ s := by
    intro s hs heq
    rw [heq, hs] at hrow
    cases hrow
  unfold executeSql
  rw [executeSqlImpl_statement hparse (hstatement _ rfl) (hstatement _ rfl) (hstatement _ rfl)]
  constructor
  · intro tx htx
    rw [htx]
  · intro htx
    rw [htx]

/-- A statement on rows inside a transaction. -/
theorem executeInTransaction_row {key : Str} {tx : TransactionContext}
    (hrow : isRowStatement statement = true)
    {r : Store × SessionContext × Result QueryResult}
    (hrun : runStatement env tx.store session statement = r) :
    executeInTransaction env e session key tx sql statement true
      = ({ e with transactions := e.transactions.modify key fun tx =>
            tx.after r.1 statement sql true r.2.2 }, r.2) := by
  have hkind : ¬ (statement = .checkIndex ∨ statement = .rebuildIndex) ∧
      isDdlStatement statement = false := by
    cases statement with
    | insert stmt => exact ⟨by simp, rfl⟩
    | update stmt => exact ⟨by simp, rfl⟩
    | delete stmt => exact ⟨by simp, rfl⟩
    | select stmt => exact ⟨by simp, rfl⟩
    | _ => cases hrow
  unfold executeInTransaction
  rw [if_neg hkind.1, hkind.2, if_neg (by decide), hrun]

theorem storeFor_of_none (h : e.transactions.find? (transactionKey session) = none) :
    e.storeFor session = e.store := by
  unfold DbmsEngine.storeFor
  rw [h]

/-- Outside transactions the session is the executor's. -/
theorem executeAutocommit_session (env : Env) (io : Io) (e : DbmsEngine) (session : SessionContext)
    (sql : Str) (statement : Statement) (writeWal : Bool) :
    (executeAutocommit env io e session sql statement writeWal).2.1
      = (runStatement env e.store session statement).2.1 := by
  unfold executeAutocommit
  dsimp only
  cases (runStatement env e.store session statement).2.2 with
  | error err => rfl
  | fault => rfl
  | ok result =>
      dsimp only
      by_cases hmut : isMutatingStatement statement = true
      · rw [if_pos hmut]
      · rw [if_neg hmut]

end Engine

end CustomDbms.Core
