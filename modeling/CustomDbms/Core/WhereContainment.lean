/-
  CustomDbms.Core.WhereContainment
  ────────────────────────────────
  **WHERE ERRORS ALONG RUNS.**

  In a run in which no REVERT goes back behind the CREATE TABLE of its table,
  a call returns a result, and reports a comparison of a column with a literal
  of another type as TYPE_MISMATCH, unless its WHERE clause gets to one of the
  two partial operations (`where_errors_contained`).  Both are within reach of
  any client: `WHERE k == "x"` on an INDEXED column of integers ends the call
  with `std::bad_variant_access` (`index_path_throws`).
-/
import CustomDbms.Core.EngineConformance
import CustomDbms.Execution.TypeMismatch

namespace CustomDbms.Core

open CustomDbms.Common CustomDbms.Catalog CustomDbms.Execution CustomDbms.Index CustomDbms.Lib
open CustomDbms.Parser CustomDbms.Planner CustomDbms.Storage CustomDbms.Versioning

/-! ## §1. File operations that return. -/

/-- The operation ends without an exception. -/
def IoOutcome.returns : IoOutcome → Bool
  | .thrown _ => false
  | _ => true

/-- No file operation of the call throws. -/
def Io.returns (io : Io) : Bool := io.append.returns && io.save.returns && io.reset.returns

theorem io_ne_fault {e : DbmsEngine} {outcome : IoOutcome} {effect : Directory → Directory}
    {message : Str} {next : DbmsEngine → DbmsEngine × Result QueryResult}
    (h : outcome.returns = true) (hnext : ∀ e, (next e).2 ≠ .fault) :
    (e.io outcome effect message next).2 ≠ .fault := by
  cases outcome with
  | done => exact hnext _
  | failed d => exact Result.makeError_ne_fault _ _
  | thrown d => cases h

theorem checkpoint_ne_fault {e : DbmsEngine} {io : Io} (h : io.returns = true) (writeWal : Bool)
    (result : QueryResult) : (e.checkpoint io writeWal result).2 ≠ .fault := by
  simp only [Io.returns, Bool.and_eq_true] at h
  refine io_ne_fault h.1.2 fun e => ?_
  split
  · exact io_ne_fault h.2 fun e => by simp
  · simp

theorem logStatement_ne_fault {e : DbmsEngine} {io : Io} (h : io.returns = true) (sql : Str)
    (writeWal : Bool) (result : QueryResult) :
    (logStatement e io sql writeWal result).2 ≠ .fault := by
  have hcheckpoint := fun e : DbmsEngine => checkpoint_ne_fault (e := e) h writeWal result
  simp only [Io.returns, Bool.and_eq_true] at h
  unfold logStatement
  split
  · exact io_ne_fault h.1.1 hcheckpoint
  · exact hcheckpoint e

theorem executeCommit_ne_fault {e : DbmsEngine} {io : Io} (h : io.returns = true)
    (writeWal : Bool) (key : Str) : (executeCommit e io writeWal key).2 ≠ .fault := by
  have hfinish : ∀ e, (finishCommit io writeWal key e).2 ≠ .fault :=
    fun e => checkpoint_ne_fault h writeWal _
  simp only [Io.returns, Bool.and_eq_true] at h
  unfold executeCommit
  split
  · exact Result.makeError_ne_fault _ _
  · unfold commitTransaction
    split
    · exact io_ne_fault h.1.1 hfinish
    · exact hfinish _

theorem executeBegin_ne_fault {e : DbmsEngine} (h : StateOk e.runtimeState) (key : Str) :
    (executeBegin e key).2 ≠ .fault := by
  unfold executeBegin
  split
  · exact Result.makeError_ne_fault _ _
  · obtain ⟨state, hclone, -⟩ := cloneRuntimeState_ok h
    rw [hclone]
    simp

theorem executeRollback_ne_fault (e : DbmsEngine) (key : Str) :
    (executeRollback e key).2 ≠ .fault := by
  unfold executeRollback
  split
  · simp
  · exact Result.makeError_ne_fault _ _

/-! ## §2. One statement. -/

section Step

variable {env : Env} {io : Io} {e : DbmsEngine} {session : SessionContext} {sql : Str}
variable {statement : Statement} {s : Store}

/-- What a call owes: a result, and TYPE_MISMATCH for a comparison of another
type. -/
structure Contained (s : Store) (session : SessionContext) (statement : Statement)
    (result : Result QueryResult) : Prop where
  returns : result ≠ .fault
  reported : MismatchReported s session statement result

theorem runStatement_eq_fault (env : Env) (hok : StoreOk s) (hfit : EachTable FitsTable s)
    (hval : validateStatement statement = .ok ())
    (hno : revertsPastCreation s session statement = false) :
    (runStatement env s session statement).2.2 = .fault ↔
      throwsInWhere env.regexMatch s session statement = true := by
  by_cases hunknown : ∃ raw, statement = .unknown raw
  · obtain ⟨raw, rfl⟩ := hunknown
    exact iff_of_false (Result.makeError_ne_fault _ _) (by simp [throwsInWhere])
  · obtain ⟨plan, hplan⟩ : ∃ plan, buildPlan s.runtime statement = .ok plan :=
      buildPlan_ok fun raw h => hunknown ⟨raw, h⟩
    simp only [runStatement, hplan, buildPlan_statement hplan]
    exact execute_eq_fault hok hfit hval plan.detail hno

theorem runStatement_mistyped (env : Env) (session : SessionContext) (hok : StoreOk s)
    (hfit : EachTable FitsTable s) (hnull : WhereNotNull statement)
    (hgood : (runStatement env s session statement).2.2 ≠ .fault) :
    MismatchReported s session statement (runStatement env s session statement).2.2 := by
  by_cases hunknown : ∃ raw, statement = .unknown raw
  · obtain ⟨raw, rfl⟩ := hunknown
    intro name clause table hwhere
    cases hwhere
  · obtain ⟨plan, hplan⟩ : ∃ plan, buildPlan s.runtime statement = .ok plan :=
      buildPlan_ok fun raw h => hunknown ⟨raw, h⟩
    simp only [runStatement, hplan, buildPlan_statement hplan] at hgood ⊢
    exact execute_mistyped hok hfit hnull plan.detail hgood

/-- Statements without a clause owe no TYPE_MISMATCH. -/
theorem mismatchReported_of_none (h : statement.whereOn = none) (result : Result QueryResult) :
    MismatchReported s session statement result := by
  intro name clause table hwhere
  rw [h] at hwhere
  cases hwhere

theorem ddl_no_where (re : RegexMatch) (s : Store) (session : SessionContext)
    (h : isDdlStatement statement = true) :
    statement.whereOn = none ∧ throwsInWhere re s session statement = false := by
  cases statement with
  | select stmt => cases h
  | update stmt => cases h
  | delete stmt => cases h
  | _ => exact ⟨rfl, rfl⟩

/-- A statement outside transactions: what follows a result does not throw. -/
theorem executeAutocommit_result (env : Env) (e : DbmsEngine) (session : SessionContext)
    (sql : Str) (statement : Statement) (hio : io.returns = true) (writeWal : Bool) :
    ((executeAutocommit env io e session sql statement writeWal).2.2 = .fault ↔
      (runStatement env e.store session statement).2.2 = .fault) ∧
    ∀ err, (runStatement env e.store session statement).2.2 = .error err →
      (executeAutocommit env io e session sql statement writeWal).2.2 = .error err := by
  unfold executeAutocommit
  cases hres : (runStatement env e.store session statement).2.2 with
  | error err => simp [hres]
  | fault => simp [hres]
  | ok result =>
      refine ⟨iff_of_false ?_ (by simp), fun err h => by cases h⟩
      simp only [hres]
      split
      · exact logStatement_ne_fault hio sql writeWal result
      · simp

end Step

/-! ## §3. Calls. -/

/-- **When a call throws**, and that it reports mismatches where it does not. -/
theorem executeSql_contained (env : Env) {io : Io} (hio : io.returns = true) {e : DbmsEngine}
    (hok : EngineOk e) (hfit : AllStores (EachTable FitsTable) e) {session : SessionContext}
    {sql : Str} {statement : Statement} (hparse : parse sql = .ok statement)
    (hno : revertsPastCreation (e.storeFor session) session statement = false) :
    ((executeSql env io e session sql).2.2 = .fault ↔
      throwsInWhere env.regexMatch (e.storeFor session) session statement = true) ∧
    ((executeSql env io e session sql).2.2 ≠ .fault →
      MismatchReported (e.storeFor session) session statement
        (executeSql env io e session sql).2.2) := by
  have hval := parse_validated hparse
  have hnull := parse_where_notNull hparse
  have hrun := runStatement_eq_fault env (hok.storeFor session) (hfit.storeFor session)
    hval hno
  have hmis := runStatement_mistyped env session (hok.storeFor session)
    (hfit.storeFor session) hnull
  by_cases hb : statement = .beginTransaction
  · subst hb
    simp only [executeSql, executeSqlImpl, hparse]
    exact ⟨iff_of_false (executeBegin_ne_fault hok.committed.state _) (by simp [throwsInWhere]),
      fun _ => mismatchReported_of_none rfl _⟩
  by_cases hc : statement = .commitTransaction
  · subst hc
    simp only [executeSql, executeSqlImpl, hparse]
    exact ⟨iff_of_false (executeCommit_ne_fault hio true _) (by simp [throwsInWhere]),
      fun _ => mismatchReported_of_none rfl _⟩
  by_cases hr : statement = .rollbackTransaction
  · subst hr
    simp only [executeSql, executeSqlImpl, hparse]
    exact ⟨iff_of_false (executeRollback_ne_fault e _) (by simp [throwsInWhere]),
      fun _ => mismatchReported_of_none rfl _⟩
  rw [executeSql, executeSqlImpl_statement hparse hb hc hr]
  unfold DbmsEngine.storeFor at hrun hmis ⊢
  cases htx : e.transactions.find? (transactionKey session) with
  | some tx =>
      simp only [htx] at hrun hmis ⊢
      unfold executeInTransaction
      split
      · -- CHECK INDEX and REBUILD INDEX are turned down
        rename_i hservice
        rcases hservice with rfl | rfl
        · exact ⟨iff_of_false (Result.makeError_ne_fault _ _) (by simp [throwsInWhere]),
            fun _ => mismatchReported_of_none rfl _⟩
        · exact ⟨iff_of_false (Result.makeError_ne_fault _ _) (by simp [throwsInWhere]),
            fun _ => mismatchReported_of_none rfl _⟩
      · split
        · rename_i hddl
          obtain ⟨hwhere, hthrows⟩ := ddl_no_where env.regexMatch tx.store session hddl
          exact ⟨iff_of_false (Result.makeError_ne_fault _ _) (by simp [hthrows]),
            fun _ => mismatchReported_of_none hwhere _⟩
        · exact ⟨hrun, hmis⟩
  | none =>
      simp only [htx] at hrun hmis ⊢
      obtain ⟨hfault, herror⟩ := executeAutocommit_result env e session sql statement hio true
      refine ⟨hfault.trans hrun, fun hgood => ?_⟩
      intro name clause table hwhere htarget hne hnames hmistyped
      obtain ⟨message, hres⟩ := hmis (fun h => hgood (hfault.mpr h)) name clause table hwhere
        htarget hne hnames hmistyped
      exact ⟨message, herror _ hres⟩

/-- **WHERE errors are contained, exactly without the two partial
operations.**  In a run in which no REVERT goes back behind the CREATE TABLE
of its table, a call of a parsed statement returns and reports comparisons of
another type if and only if its clause does not throw. -/
theorem where_errors_contained {e : DbmsEngine} (h : ReachableBy staysInTable e) (env : Env)
    {io : Io} (hio : io.returns = true) (session : SessionContext) {sql : Str}
    {statement : Statement} (hparse : parse sql = .ok statement)
    (hstays : staysInTable e session sql = true) :
    Contained (e.storeFor session) session statement (executeSql env io e session sql).2.2 ↔
      throwsInWhere env.regexMatch (e.storeFor session) session statement = false := by
  simp only [staysInTable, hparse, Bool.not_eq_true'] at hstays
  obtain ⟨hfault, hreported⟩ := executeSql_contained env hio (reachable_ok h.reachable)
    (reachableBy_fits h) hparse hstays
  rw [← Bool.not_eq_true, ← hfault]
  constructor
  · intro hcontained
    exact hcontained.returns
  · intro hgood
    exact ⟨hgood, hreported hgood⟩

/-- A DELETE that compares the INDEXED column of `sampleRun` with a string. -/
def mistypedDelete : Statement :=
  .delete ⟨⟨none, str "t"⟩, some (.logical .or
    (.binaryComparison .equal (.columnReference none none (str "k")) (.literal (.string (str "x"))))
    (.like (.columnReference none none (str "v")) (.literal (.string (str "y")))))⟩

set_option maxRecDepth 4000 in
theorem where_errors_contained_sampleRun :
    throwsInWhere sampleEnv.regexMatch (sampleRun.1.storeFor sampleRun.2) sampleRun.2
        mistypedDelete = false ∧
      Contained (sampleRun.1.storeFor sampleRun.2) sampleRun.2 mistypedDelete
        (executeSql sampleEnv Io.good sampleRun.1 sampleRun.2
          (str "DELETE FROM t WHERE k == \"x\" OR v LIKE \"y\";")).2.2 := by
  have h : ReachableBy staysInTable sampleRun.1 :=
    reachableBy_runTexts sampleEnv Io.good (.start (new_empty sampleEnv 0)) _ _
      (by decide +kernel)
  have hthrows : throwsInWhere sampleEnv.regexMatch (sampleRun.1.storeFor sampleRun.2)
      sampleRun.2 mistypedDelete = false := by decide +kernel
  exact ⟨hthrows, (where_errors_contained h sampleEnv (by decide) sampleRun.2 (by decide +kernel)
    (by decide +kernel)).mpr hthrows⟩

set_option maxRecDepth 4000 in
/-- **A string for an INDEXED column of integers ends the call with an
exception.** -/
theorem index_path_throws :
    ¬ ∀ (e : DbmsEngine) (env : Env) (io : Io) (session : SessionContext) (sql : Str)
      (statement : Statement), Reachable e → io.returns = true → parse sql = .ok statement →
      Contained (e.storeFor session) session statement
        (executeSql env io e session sql).2.2 := by
  intro hclaim
  have hfault : (executeSql sampleEnv Io.good sampleRun.1 sampleRun.2
      (str "SELECT * FROM t WHERE k == \"x\";")).2.2 = .fault := by decide +kernel
  exact (hclaim sampleRun.1 sampleEnv Io.good sampleRun.2
    (str "SELECT * FROM t WHERE k == \"x\";")
    (.select ⟨⟨none, str "t"⟩, [⟨true, [], none, none⟩], some (.binaryComparison .equal
      (.columnReference none none (str "k")) (.literal (.string (str "x"))))⟩)
    reachable_sampleRun rfl (by decide +kernel)).returns hfault

end CustomDbms.Core
