/-
  CustomDbms.Core.EngineAtomicity
  ───────────────────────────────
  **FAILING CALLS.**

  What a call that fails leaves in memory, along every run.

    • `failed_statement_keeps_tables_iff` — an executed statement that returns
      an error has changed no table, unless it is an `INSERT` that stops
      behind its first row.
    • `storage_failure_keeps_memory_iff` — a call that ends because a file
      operation failed has left the memory alone, unless it is a `COMMIT` of
      an open transaction or a statement that changes the committed state:
      both change the memory before they write to the disk.
-/
import CustomDbms.Core.EngineInvariant
import CustomDbms.Execution.Effects
import CustomDbms.Execution.ErrorCodes

namespace CustomDbms.Core

open CustomDbms.Common CustomDbms.Catalog CustomDbms.Execution CustomDbms.Index CustomDbms.Lib
open CustomDbms.Parser CustomDbms.Planner CustomDbms.Storage CustomDbms.Versioning

/-! ## §1. Statements. -/

/-- **A failed statement has changed no table, unless it is an `INSERT` that
stops behind its first row.** -/
theorem failed_statement_keeps_tables_iff {e : DbmsEngine} (h : Reachable e) {s : Store}
    (hs : StoreOf e s) (env : Env) (session : SessionContext) {sql : Str} {statement : Statement}
    (hparse : parse sql = .ok statement) (detail : Str) :
    (∀ err, (execute env s session statement detail).2.2 = .error err →
      (execute env s session statement detail).1.runtime = s.runtime) ↔
    ¬ InsertStops s session statement :=
  execute_keeps_iff env ((reachable_ok h).of hs) session (parse_validated hparse) detail

/-- The session of the sample run, which uses the database. -/
def sampleSession : SessionContext := ⟨str "a", str "d"⟩

/-- An `UPDATE` of the sample table to a value of another type. -/
def badUpdate : UpdateStatement :=
  ⟨⟨none, str "t"⟩, [⟨str "v", .literal (.int 5)⟩], none⟩

set_option maxRecDepth 4000 in
theorem failed_statement_keeps_tables_badUpdate :
    ∃ err, (execute sampleEnv sampleRun.1.store sampleSession (.update badUpdate) []).2.2
        = .error err ∧
      (execute sampleEnv sampleRun.1.store sampleSession (.update badUpdate) []).1.runtime
        = sampleRun.1.store.runtime := by
  have hparse : parse (str "UPDATE t SET v = 5;") = .ok (.update badUpdate) := by decide +kernel
  have herr : (execute sampleEnv sampleRun.1.store sampleSession (.update badUpdate) []).2.2
      = .error ⟨.constraintViolation,
        str "type/nullability constraint violation for column: v"⟩ := by decide +kernel
  refine ⟨_, herr, (failed_statement_keeps_tables_iff reachable_sampleRun .committed sampleEnv
    sampleSession hparse []).mpr ?_ _ herr⟩
  rintro ⟨stmt, -, -, -, -, -, -, -, heq, -⟩
  cases heq

/-- An `INSERT` of two rows, the second with a key that is taken. -/
def badInsert : InsertStatement :=
  ⟨⟨none, str "t"⟩, [str "k"], [[.literal (.int 3)], [.literal (.int 1)]]⟩

set_option maxRecDepth 4000 in
/-- The first row of a failed `INSERT` stays. -/
theorem failed_insert_keeps_first_row :
    ¬ ∀ e s, Reachable e → StoreOf e s → ∀ env session sql statement detail err,
      parse sql = .ok statement →
      (execute env s session statement detail).2.2 = .error err →
      (execute env s session statement detail).1.runtime = s.runtime := by
  intro hclaim
  have hsame := hclaim sampleRun.1 sampleRun.1.store reachable_sampleRun .committed sampleEnv
    sampleSession (str "INSERT INTO t (k) VALUES (3), (1);") (.insert badInsert) []
    ⟨.constraintViolation, str "duplicate value for INDEXED column: k"⟩ (by decide +kernel)
    (by decide +kernel)
  have hrows : (storeRows ⟨(execute sampleEnv sampleRun.1.store sampleSession (.insert badInsert)
      []).1.runtime, VersionStore.empty⟩ (str "d") (str "t")).map List.length = some 3 := by
    decide +kernel
  rw [hsame] at hrows
  revert hrows
  decide +kernel

/-! ## §2. File operations that fail. -/

/-- The memory of the engine is what it was: the contents of the committed
state, its log, and the open transactions. -/
structure Intact (e e' : DbmsEngine) : Prop where
  committed : e'.runtimeState.contents = e.runtimeState.contents
  versions : e'.versionStore = e.versionStore
  transactions : e'.transactions = e.transactions

theorem Intact.refl (e : DbmsEngine) : Intact e e := ⟨rfl, rfl, rfl⟩

/-- The calls that change the memory before they write to the disk: a `COMMIT`
of an open transaction, and a statement outside transactions that succeeds and
changes something. -/
def ChangesMemory (env : Env) (e : DbmsEngine) (session : SessionContext) (sql : Str) : Prop :=
  ∃ statement, parse sql = .ok statement ∧
    ((statement = .commitTransaction ∧
        ∃ tx, e.transactions.find? (transactionKey session) = some tx) ∨
      (e.transactions.find? (transactionKey session) = none ∧
        ChangesStore env e.store session statement))

/-- Planning returns no storage error, and the executor on a store in order
does not either. -/
theorem noStorage_runStatement (env : Env) {s : Store} (h : StoreOk s) (session : SessionContext)
    (statement : Statement) : NoStorageError (runStatement env s session statement).2.2 := by
  unfold runStatement
  cases hplan : buildPlan s.runtime statement with
  | ok plan => exact noStorage_execute h session plan.statement plan.detail
  | fault => exact .fault
  | error e =>
      cases statement with
      | unknown raw =>
          intro e' he'
          cases hplan
          cases he'
          decide
      | _ => cases hplan

/-- The statements that change the store, through the planner. -/
theorem runStatement_changes_iff (env : Env) {s : Store} (h : StoreOk s)
    (session : SessionContext) {statement : Statement}
    (hval : validateStatement statement = .ok ()) :
    ((∃ q, (runStatement env s session statement).2.2 = .ok q) ∧
      ¬ SameStore s (runStatement env s session statement).1) ↔
      ChangesStore env s session statement := by
  unfold runStatement
  cases hplan : buildPlan s.runtime statement with
  | ok plan =>
      simp only
      rw [buildPlan_statement hplan]
      exact changesStore_iff env h session hval plan.detail
  | error e =>
      refine iff_of_false (by simp) ?_
      cases statement with
      | unknown raw => exact id
      | _ => cases hplan
  | fault =>
      cases statement <;> cases hplan

/-- Statements that change the store are logged. -/
theorem mutating_of_changesStore {env : Env} {s : Store} {session : SessionContext}
    {statement : Statement} (h : ChangesStore env s session statement) :
    isMutatingStatement statement = true := by
  cases statement with
  | select stmt => cases h
  | useDatabase name => cases h
  | checkIndex => cases h
  | _ => rfl

/-- A statement outside transactions. -/
theorem executeAutocommit_intact {env : Env} {io : Io} {e : DbmsEngine} (h : EngineOk e)
    (session : SessionContext) (sql : Str) {statement : Statement}
    (hval : validateStatement statement = .ok ())
    (hno : ¬ ChangesStore env e.store session statement) {err : Error}
    (herr : (executeAutocommit env io e session sql statement true).2.2 = .error err)
    (hcode : err.code = .storageError) :
    Intact e (executeAutocommit env io e session sql statement true).1 := by
  obtain ⟨d, hmem⟩ := executeAutocommit_memory env io e session sql statement true
  have hok := runStatement_ok env h.committed session hval
  -- the error is not one of the executor, so the statement has succeeded
  have hsucc : ∃ q, (runStatement env e.store session statement).2.2 = .ok q := by
    have hns := noStorage_runStatement env h.committed session statement
    unfold executeAutocommit at herr
    cases hres : (runStatement env e.store session statement).2.2 with
    | ok q => exact ⟨q, rfl⟩
    | error err' =>
        simp only [hres] at herr
        cases herr
        exact absurd hcode (hns err hres)
    | fault =>
        simp only [hres] at herr
        cases herr
  have hsame : SameStore e.store (runStatement env e.store session statement).1 := by
    by_contra hnot
    exact hno ((runStatement_changes_iff env h.committed session hval).mp ⟨hsucc, hnot⟩)
  rw [hmem]
  exact ⟨contents_eq_of_view_eq h.committed.state hok.state hsame.1, hsame.2, rfl⟩

/-- **A call that ends because a file operation failed has left the memory
alone, unless it is one that changes the memory first.** -/
theorem storage_failure_keeps_memory_iff {e : DbmsEngine} (h : Reachable e) (env : Env)
    (session : SessionContext) (sql : Str) :
    (∀ io err, (executeSql env io e session sql).2.2 = .error err → err.code = .storageError →
      Intact e (executeSql env io e session sql).1) ↔
    ¬ ChangesMemory env e session sql := by
  have hok := reachable_ok h
  constructor
  · rintro hclaim ⟨statement, hparse, ⟨rfl, tx, htx⟩ | ⟨hnone, hch⟩⟩
    · -- a `COMMIT` whose `Save` fails has ended its transaction
      have hres := hclaim ⟨.done, .failed e.disk, .done⟩
        ⟨.storageError, str "failed to persist state"⟩
      have hrun : ∃ d, executeSql env ⟨.done, .failed e.disk, .done⟩ e session sql
          = (((e.publish (transactionKey session) tx).endTransaction
              (transactionKey session)).withDisk d, session,
            .makeError .storageError (str "failed to persist state")) := by
        by_cases hwal : tx.walStatements ≠ []
        · exact ⟨e.disk, by simp [executeSql, executeSqlImpl, hparse, executeCommit, htx,
            commitTransaction, hwal, DbmsEngine.io, finishCommit, DbmsEngine.checkpoint,
            DbmsEngine.withDisk, DbmsEngine.endTransaction]⟩
        · exact ⟨e.disk, by simp [executeSql, executeSqlImpl, hparse, executeCommit, htx,
            commitTransaction, hwal, DbmsEngine.io, finishCommit, DbmsEngine.checkpoint,
            DbmsEngine.withDisk, DbmsEngine.endTransaction]⟩
      obtain ⟨d, hrun⟩ := hrun
      rw [hrun] at hres
      have htrans := (hres rfl rfl).transactions
      have hfind := congrArg (fun m => m.find? (transactionKey session)) htrans
      simp only [withDisk_transactions, DbmsEngine.endTransaction, Dict.find?_erase, if_true,
        htx] at hfind
      cases hfind
    · -- a statement whose log entry cannot be written has been executed
      have hval := parse_validated hparse
      obtain ⟨⟨q, hq⟩, hdiff⟩ := (runStatement_changes_iff env hok.committed session hval).mpr hch
      have hres := hclaim ⟨.failed e.disk, .done, .done⟩
        ⟨.storageError, str "failed to append WAL SQL"⟩
      have hrun : executeSql env ⟨.failed e.disk, .done, .done⟩ e session sql
          = ((e.withStore (runStatement env e.store session statement).1).withDisk e.disk,
            (runStatement env e.store session statement).2.1,
            .makeError .storageError (str "failed to append WAL SQL")) := by
        have hmut := mutating_of_changesStore hch
        unfold executeSql executeSqlImpl
        rw [hparse]
        cases statement with
        | beginTransaction => cases hch
        | commitTransaction => cases hch
        | rollbackTransaction => cases hch
        | _ =>
            simp [hnone, executeAutocommit, hq, hmut, logStatement, DbmsEngine.io,
              DbmsEngine.withDisk]
      rw [hrun] at hres
      have hint := hres rfl rfl
      exact hdiff ⟨view_eq_of_contents_eq hint.committed, hint.versions⟩
  · intro hno io err herr hcode
    unfold executeSql executeSqlImpl at herr ⊢
    cases hparse : parse sql with
    | error err' => exact .refl e
    | fault => exact .refl e
    | ok statement =>
        simp only [hparse] at herr ⊢
        have hval := parse_validated hparse
        have hnot : e.transactions.find? (transactionKey session) = none →
            ¬ ChangesStore env e.store session statement :=
          fun hnone hch => hno ⟨statement, hparse, .inr ⟨hnone, hch⟩⟩
        split at herr
        · -- `BEGIN`
          unfold executeBegin at herr ⊢
          split at herr
          · rename_i hc
            simp only [hc, if_true]
            exact .refl e
          · rename_i hc
            obtain ⟨state, hclone, -⟩ := cloneRuntimeState_ok hok.committed.state
            rw [show cloneRuntimeState e.runtimeState = .ok state from hclone] at herr
            cases herr
        · -- `COMMIT` without a transaction
          unfold executeCommit at herr ⊢
          cases htx : e.transactions.find? (transactionKey session) with
          | none => exact .refl e
          | some tx => exact absurd ⟨_, hparse, .inl ⟨rfl, tx, htx⟩⟩ hno
        · -- `ROLLBACK`
          unfold executeRollback at herr ⊢
          split at herr
          · cases herr
          · rename_i hc
            simp only [hc]
            exact .refl e
        · rename_i hb hc hr
          cases htx : e.transactions.find? (transactionKey session) with
          | none =>
              simp only [htx] at herr ⊢
              exact executeAutocommit_intact hok session sql hval (hnot htx) herr hcode
          | some tx =>
              -- a statement in a transaction touches no file
              simp only [htx] at herr
              exfalso
              unfold executeInTransaction at herr
              split at herr
              · cases herr
                cases hcode
              · split at herr
                · cases herr
                  cases hcode
                · exact noStorage_runStatement env (hok.working _ _ htx) session statement err herr
                    hcode

/-- `Save` fails. -/
def saveFails : Io := ⟨.done, .failed Directory.empty, .done⟩

set_option maxRecDepth 4000 in
/-- A `REBUILD INDEX` that cannot be saved. -/
theorem storage_failure_keeps_memory_rebuild :
    (executeSql sampleEnv saveFails sampleRun.1 sampleSession (str "REBUILD INDEX;")).2.2
        = .error ⟨.storageError, str "failed to persist state"⟩ ∧
      Intact sampleRun.1
        (executeSql sampleEnv saveFails sampleRun.1 sampleSession (str "REBUILD INDEX;")).1 := by
  have herr : (executeSql sampleEnv saveFails sampleRun.1 sampleSession (str "REBUILD INDEX;")).2.2
      = .error ⟨.storageError, str "failed to persist state"⟩ := by decide +kernel
  have hparse : parse (str "REBUILD INDEX;") = .ok .rebuildIndex := by decide +kernel
  refine ⟨herr, (storage_failure_keeps_memory_iff reachable_sampleRun sampleEnv sampleSession
    (str "REBUILD INDEX;")).mpr ?_ saveFails _ herr rfl⟩
  rintro ⟨statement, hstmt, hch⟩
  rw [hparse] at hstmt
  cases hstmt
  rcases hch with ⟨heq, -⟩ | ⟨-, hch⟩
  · cases heq
  · exact hch

/-- The log cannot be written. -/
def appendFails : Io := ⟨.failed Directory.empty, .done, .done⟩

/-- The sample run with an open transaction that has inserted a row. -/
def openRun : DbmsEngine × SessionContext :=
  runTexts sampleEnv Io.good sampleRun.1 sampleSession
    [str "BEGIN;", str "INSERT INTO t (k, v) VALUES (3, \"z\");"]

/-- The rows a transaction sees. -/
def workingRows (e : DbmsEngine) (key d t : Str) : Option (List RowData) :=
  (e.transactions.find? key).bind fun tx => storeRows tx.store d t

set_option maxRecDepth 4000 in
/-- A `COMMIT` that cannot be logged empties the transaction it should have
kept. -/
theorem failed_commit_empties_transaction :
    ¬ ∀ e, Reachable e → ∀ env io session sql err,
      (executeSql env io e session sql).2.2 = .error err → err.code = .storageError →
      Intact e (executeSql env io e session sql).1 := by
  intro hclaim
  have hopen : Reachable openRun.1 := reachable_runTexts sampleEnv Io.good reachable_sampleRun _ _
  have hint := hclaim openRun.1 hopen sampleEnv appendFails sampleSession (str "COMMIT;")
    ⟨.storageError, str "failed to append WAL TX"⟩ (by decide +kernel) rfl
  have hbefore : (workingRows openRun.1 (str "a") (str "d") (str "t")).map List.length = some 3 := by
    decide +kernel
  have hafter : (workingRows (executeSql sampleEnv appendFails openRun.1 sampleSession
      (str "COMMIT;")).1 (str "a") (str "d") (str "t")) = none := by decide +kernel
  rw [workingRows, hint.transactions, ← workingRows] at hafter
  rw [hafter] at hbefore
  cases hbefore

end CustomDbms.Core
