/-
  CustomDbms.Core.DbmsEngine
  ──────────────────────────
  **THE ENGINE** (`src/core/dbms_engine.cpp`).

  `ExecuteSql` parses a text, routes it to the committed state or to the
  working copy of the session's transaction, and logs and saves what changes
  the committed state.  Every file operation may fail; `Io` says how the
  operations of one call end.  The engine is returned as the code leaves it,
  also where an exception ends the call.
-/
import CustomDbms.Core.RuntimePersistence
import CustomDbms.Core.WalManager
import CustomDbms.Execution.ExecutionEngine
import CustomDbms.Parser.Parser
import CustomDbms.Planner.Planner

namespace CustomDbms.Core

open CustomDbms.Common CustomDbms.Lib CustomDbms.Parser CustomDbms.Planner CustomDbms.Execution
open CustomDbms.Storage CustomDbms.Versioning

/-! ## §1. State. -/

/-- `TransactionContext`. -/
structure TransactionContext where
  workingState : RuntimeState
  workingVersionStore : VersionStore
  walStatements : List Str

/-- `DbmsEngine`, with the data directory it works on. -/
structure DbmsEngine where
  runtimeState : RuntimeState
  versionStore : VersionStore
  transactions : Dict Str TransactionContext
  disk : Directory

/-- How a call of `AppendSql`, `AppendTransaction`, `Save` or `Reset` ends: as
it should, returning false, or with an exception of `std::filesystem`; in the
last two cases with any directory. -/
inductive IoOutcome where
  | done
  | failed (disk : Directory)
  | thrown (disk : Directory)

/-- The file operations of one call of the engine. -/
structure Io where
  append : IoOutcome
  save : IoOutcome
  reset : IoOutcome

/-- No file operation fails. -/
def Io.good : Io := ⟨.done, .done, .done⟩

/-- The committed state as the executor sees it. -/
def DbmsEngine.store (e : DbmsEngine) : Store := ⟨e.runtimeState, e.versionStore⟩

/-- The committed state replaced. -/
def DbmsEngine.withStore (e : DbmsEngine) (s : Store) : DbmsEngine :=
  { e with runtimeState := s.runtime, versionStore := s.versions }

/-- The working state of a transaction as the executor sees it. -/
def TransactionContext.store (tx : TransactionContext) : Store :=
  ⟨tx.workingState, tx.workingVersionStore⟩

/-! ## §2. Logging and saving. -/

/-- `IsMutatingStatement`. -/
def isMutatingStatement : Statement → Bool
  | .select _ | .useDatabase _ | .checkIndex => false
  | _ => true

/-- `IsDdlStatement`. -/
def isDdlStatement : Statement → Bool
  | .createDatabase _ | .dropDatabase _ | .createTable _ | .dropTable _ => true
  | _ => false

/-- `TransactionKey`. -/
def transactionKey (session : SessionContext) : Str :=
  if session.clientId = [] then str "__default_session__" else session.clientId

/-- One file operation: its directory where it succeeds, an error or a fault
where it does not, and then `next`. -/
def DbmsEngine.io (e : DbmsEngine) (outcome : IoOutcome) (effect : Directory → Directory)
    (message : Str) (next : DbmsEngine → DbmsEngine × Result QueryResult) :
    DbmsEngine × Result QueryResult :=
  match outcome with
  | .done => next { e with disk := effect e.disk }
  | .failed d => ({ e with disk := d }, .makeError .storageError message)
  | .thrown d => ({ e with disk := d }, .fault)

/-- `Save`, then `Reset` where the log is written. -/
def DbmsEngine.checkpoint (e : DbmsEngine) (io : Io) (writeWal : Bool) (result : QueryResult) :
    DbmsEngine × Result QueryResult :=
  e.io io.save (save e.runtimeState e.versionStore) (str "failed to persist state") fun e =>
    if writeWal then
      e.io io.reset reset (str "failed to checkpoint WAL") fun e => (e, .ok result)
    else (e, .ok result)

/-! ## §3. `ExecuteSqlImpl`. -/

/-- `BEGIN`. -/
def executeBegin (e : DbmsEngine) (key : Str) : DbmsEngine × Result QueryResult :=
  if e.transactions.contains key then
    (e, .makeError .validationError (str "transaction already active for session"))
  else
    match cloneRuntimeState e.runtimeState with
    | .ok state =>
        ({ e with transactions := e.transactions.emplace key ⟨state, e.versionStore, []⟩ },
          .ok (.ofMessage (str "transaction started")))
    | .error err => (e, .error err)
    | .fault => (e, .fault)

/-- The engine after the two moves of `COMMIT`: the committed state is the
working state, which is left empty behind. -/
def DbmsEngine.publish (e : DbmsEngine) (key : Str) (tx : TransactionContext) : DbmsEngine :=
  { e with
    runtimeState := tx.workingState
    versionStore := tx.workingVersionStore
    transactions := e.transactions.modify key fun tx =>
      ⟨RuntimeState.empty, VersionStore.empty, tx.walStatements⟩ }

/-- `transactions_.erase`. -/
def DbmsEngine.endTransaction (e : DbmsEngine) (key : Str) : DbmsEngine :=
  { e with transactions := e.transactions.erase key }

/-- `COMMIT` after the log has been written. -/
def finishCommit (io : Io) (writeWal : Bool) (key : Str) (e : DbmsEngine) :
    DbmsEngine × Result QueryResult :=
  (e.endTransaction key).checkpoint io writeWal (.ofMessage (str "transaction committed"))

/-- `COMMIT` of a transaction. -/
def commitTransaction (e : DbmsEngine) (io : Io) (writeWal : Bool) (key : Str)
    (tx : TransactionContext) : DbmsEngine × Result QueryResult :=
  if writeWal ∧ tx.walStatements ≠ [] then
    (e.publish key tx).io io.append (appendTransaction tx.walStatements)
      (str "failed to append WAL TX") (finishCommit io writeWal key)
  else finishCommit io writeWal key (e.publish key tx)

/-- `COMMIT`. -/
def executeCommit (e : DbmsEngine) (io : Io) (writeWal : Bool) (key : Str) :
    DbmsEngine × Result QueryResult :=
  match e.transactions.find? key with
  | none => (e, .makeError .validationError (str "no active transaction for session"))
  | some tx => commitTransaction e io writeWal key tx

/-- `ROLLBACK`. -/
def executeRollback (e : DbmsEngine) (key : Str) : DbmsEngine × Result QueryResult :=
  if e.transactions.contains key then
    (e.endTransaction key, .ok (.ofMessage (str "transaction rolled back")))
  else (e, .makeError .validationError (str "no active transaction for session"))

/-- A statement planned and executed on one of the states. -/
def runStatement (env : Env) (s : Store) (session : SessionContext) (statement : Statement) :
    Store × SessionContext × Result QueryResult :=
  match buildPlan s.runtime statement with
  | .error e => (s, session, .error e)
  | .fault => (s, session, .fault)
  | .ok plan => execute env s session plan.statement plan.detail

/-- The working copy of a transaction after a statement; a successful one that
changes data is noted for the log. -/
def TransactionContext.after (tx : TransactionContext) (s : Store) (statement : Statement)
    (sql : Str) (writeWal : Bool) (result : Result QueryResult) : TransactionContext where
  workingState := s.runtime
  workingVersionStore := s.versions
  walStatements :=
    if result.isOk && writeWal && isMutatingStatement statement then tx.walStatements ++ [sql]
    else tx.walStatements

/-- A statement inside the session's transaction. -/
def executeInTransaction (env : Env) (e : DbmsEngine) (session : SessionContext) (key : Str)
    (tx : TransactionContext) (sql : Str) (statement : Statement) (writeWal : Bool) :
    DbmsEngine × SessionContext × Result QueryResult :=
  if statement = .checkIndex ∨ statement = .rebuildIndex then
    (e, session, .makeError .validationError
      (str "service index commands are not allowed inside active transaction"))
  else if isDdlStatement statement then
    (e, session, .makeError .validationError
      (str "DDL statements are not allowed inside an active transaction"))
  else
    let r := runStatement env tx.store session statement
    ({ e with transactions := e.transactions.modify key fun tx =>
        tx.after r.1 statement sql writeWal r.2.2 }, r.2.1, r.2.2)

/-- A successful statement outside transactions is logged and saved. -/
def logStatement (e : DbmsEngine) (io : Io) (sql : Str) (writeWal : Bool) (result : QueryResult) :
    DbmsEngine × Result QueryResult :=
  if writeWal then
    e.io io.append (appendSql sql) (str "failed to append WAL SQL")
      fun e => e.checkpoint io writeWal result
  else e.checkpoint io writeWal result

/-- A statement outside transactions. -/
def executeAutocommit (env : Env) (io : Io) (e : DbmsEngine) (session : SessionContext)
    (sql : Str) (statement : Statement) (writeWal : Bool) :
    DbmsEngine × SessionContext × Result QueryResult :=
  let r := runStatement env e.store session statement
  let e := e.withStore r.1
  match r.2.2 with
  | .error err => (e, r.2.1, .error err)
  | .fault => (e, r.2.1, .fault)
  | .ok result =>
      if isMutatingStatement statement then
        let r' := logStatement e io sql writeWal result
        (r'.1, r.2.1, r'.2)
      else (e, r.2.1, .ok result)

/-- `ExecuteSqlImpl`. -/
def executeSqlImpl (env : Env) (io : Io) (e : DbmsEngine) (session : SessionContext) (sql : Str)
    (writeWal : Bool) : DbmsEngine × SessionContext × Result QueryResult :=
  match parse sql with
  | .error err => (e, session, .error err)
  | .fault => (e, session, .fault)
  | .ok statement =>
      let key := transactionKey session
      match statement with
      | .beginTransaction =>
          let r := executeBegin e key
          (r.1, session, r.2)
      | .commitTransaction =>
          let r := executeCommit e io writeWal key
          (r.1, session, r.2)
      | .rollbackTransaction =>
          let r := executeRollback e key
          (r.1, session, r.2)
      | statement =>
          match e.transactions.find? key with
          | some tx => executeInTransaction env e session key tx sql statement writeWal
          | none => executeAutocommit env io e session sql statement writeWal

/-- `ExecuteSql`. -/
def executeSql (env : Env) (io : Io) (e : DbmsEngine) (session : SessionContext) (sql : Str) :
    DbmsEngine × SessionContext × Result QueryResult :=
  executeSqlImpl env io e session sql true

/-! ## §4. `ReplayWal` and the constructor. -/

/-- `recovery_session`. -/
def recoverySession : SessionContext := ⟨str "__wal_recovery__", []⟩

/-- How a result lets the replay go on. -/
def replayStatus : Result QueryResult → LoadStatus
  | .ok _ => .accepted
  | .error _ => .rejected
  | .fault => .thrown

/-- A sequence of texts executed by the recovery session: stops at the first
one that does not succeed. -/
def replayTexts (env : Env) : DbmsEngine → SessionContext → List Str →
    DbmsEngine × SessionContext × LoadStatus
  | e, session, [] => (e, session, .accepted)
  | e, session, sql :: rest =>
      let r := executeSqlImpl env Io.good e session sql false
      match replayStatus r.2.2 with
      | .accepted => replayTexts env r.1 r.2.1 rest
      | status => (r.1, r.2.1, status)

/-- One entry of the log; a transaction that fails in the middle is rolled
back. -/
def replayEntry (env : Env) (e : DbmsEngine) (session : SessionContext) :
    WalEntry → DbmsEngine × SessionContext × LoadStatus
  | .sql sql => replayTexts env e session [sql]
  | .transaction statements =>
      match replayTexts env e session [str "BEGIN;"] with
      | (e1, session1, .accepted) =>
          match replayTexts env e1 session1 statements with
          | (e2, session2, .accepted) => replayTexts env e2 session2 [str "COMMIT;"]
          | (e2, session2, .rejected) =>
              let r := executeSqlImpl env Io.good e2 session2 (str "ROLLBACK;") false
              (r.1, r.2.1, .rejected)
          | r => r
      | r => r

/-- The loop of `ReplayWal` over the entries. -/
def replayEntries (env : Env) :
    DbmsEngine → SessionContext → List WalEntry → DbmsEngine × LoadStatus
  | e, _, [] => (e, .accepted)
  | e, session, entry :: rest =>
      match replayEntry env e session entry with
      | (e', session', .accepted) => replayEntries env e' session' rest
      | (e', _, status) => (e', status)

/-- `ReplayWal`. -/
def replayWal (env : Env) (e : DbmsEngine) : DbmsEngine × LoadStatus :=
  match loadAll e.disk with
  | none => (e, .rejected)
  | some entries =>
      match replayEntries env e recoverySession entries with
      | (e', .accepted) => ({ e' with disk := reset e'.disk }, .accepted)
      | r => r

/-- The members after `Load`, whose answer the constructor does not look at. -/
def DbmsEngine.loaded (d : Directory) : DbmsEngine :=
  let l := load d RuntimeState.empty VersionStore.empty
  ⟨l.runtime, l.versions, Dict.empty, d⟩

/-- The constructor, on a directory whose files can be read and written;
`none` where it throws. -/
def DbmsEngine.new (env : Env) (now : Nat) (d : Directory) : Option DbmsEngine :=
  if (load d RuntimeState.empty VersionStore.empty).status = .thrown then none
  else
    match replayWal env (DbmsEngine.loaded d) with
    | (e, .accepted) => some e
    | (e, .rejected) => some { e with disk := quarantineCorrupted now e.disk }
    | (_, .thrown) => none

end CustomDbms.Core
