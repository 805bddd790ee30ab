/-
  CustomDbms.Core.EngineConformance
  ─────────────────────────────────
  **SCHEMA CONFORMANCE ALONG RUNS.**

  In a run in which no REVERT goes back behind the CREATE TABLE of its table,
  every row of every state, committed or working, has one value for each
  column, of the column's type or NULL where NULL is allowed
  (`schema_conformance`).  The exception is real: a REVERT to a table that was
  dropped brings its rows into the table that took its name
  (`revert_crosses_tables`).
-/
import CustomDbms.Core.EngineInvariant
import CustomDbms.Execution.SchemaConformance

namespace CustomDbms.Core

open CustomDbms.Common CustomDbms.Catalog CustomDbms.Execution CustomDbms.Index CustomDbms.Lib
open CustomDbms.Parser CustomDbms.Planner CustomDbms.Storage CustomDbms.Versioning

/-! ## §1. Runs with a condition on every call. -/

/-- The engines of runs in which every call is allowed. -/
inductive ReachableBy (allowed : DbmsEngine → SessionContext → Str → Bool) :
    DbmsEngine → Prop where
  | start {env : Env} {now : Nat} {e : DbmsEngine}
      (h : DbmsEngine.new env now Directory.empty = some e) : ReachableBy allowed e
  | call {e : DbmsEngine} (h : ReachableBy allowed e) (env : Env) (io : Io)
      (session : SessionContext) (sql : Str) (hallowed : allowed e session sql = true) :
      ReachableBy allowed (executeSql env io e session sql).1

theorem ReachableBy.reachable {allowed : DbmsEngine → SessionContext → Str → Bool}
    {e : DbmsEngine} (h : ReachableBy allowed e) : Reachable e := by
  induction h with
  | start h => exact .start h
  | call _ env io session sql _ ih => exact ih.call env io session sql

/-- All texts of a sequence are allowed. -/
def allAllowed (allowed : DbmsEngine → SessionContext → Str → Bool) (env : Env) (io : Io) :
    DbmsEngine → SessionContext → List Str → Bool
  | _, _, [] => true
  | e, session, sql :: rest =>
      let r := executeSql env io e session sql
      allowed e session sql && allAllowed allowed env io r.1 r.2.1 rest

theorem reachableBy_runTexts {allowed : DbmsEngine → SessionContext → Str → Bool} (env : Env)
    (io : Io) {e : DbmsEngine} (h : ReachableBy allowed e) (session : SessionContext)
    (texts : List Str) (hall : allAllowed allowed env io e session texts = true) :
    ReachableBy allowed (runTexts env io e session texts).1 := by
  induction texts generalizing e session with
  | nil => exact h
  | cons sql rest ih =>
      simp only [allAllowed, Bool.and_eq_true] at hall
      exact ih (h.call env io session sql hall.1) _ hall.2

/-! ## §2. Conformance. -/

/-- A call that is no REVERT behind the CREATE TABLE of its table. -/
def staysInTable (e : DbmsEngine) (session : SessionContext) (sql : Str) : Bool :=
  match parse sql with
  | .ok statement => !revertsPastCreation (e.storeFor session) session statement
  | _ => true

theorem runStatement_fits {env : Env} {s : Store} (hok : StoreOk s) (h : EachTable FitsTable s)
    (session : SessionContext) {statement : Statement}
    (hno : revertsPastCreation s session statement = false) :
    EachTable FitsTable (runStatement env s session statement).1 := by
  unfold runStatement
  split
  · exact h
  · exact h
  · rename_i plan hplan
    rw [buildPlan_statement hplan]
    exact execute_fits hok h session plan.detail hno

/-- **Rows fit their schema along every such run.** -/
theorem reachableBy_fits {e : DbmsEngine} (h : ReachableBy staysInTable e) :
    AllStores (EachTable FitsTable) e := by
  have hempty : EachTable FitsTable Store.empty := by
    intro d db t table hdb
    cases hdb
  induction h with
  | start h =>
      rw [new_empty] at h
      cases h
      refine ⟨hempty, ?_⟩
      intro key tx htx
      cases htx
  | @call e h env io session sql hallowed ih =>
      have hok := reachable_ok h.reachable
      apply ih.executeSqlImpl hempty
      · -- a clone has the schemas and rows it was cloned from
        intro state hstate
        obtain ⟨state', hclone, -, hview⟩ := cloneRuntimeState_ok hok.committed.state
        rw [show cloneRuntimeState e.runtimeState = .ok state' from hclone] at hstate
        cases hstate
        exact ih.committed.of_view hview rfl
      · intro statement hparse
        simp only [staysInTable, hparse, Bool.not_eq_true'] at hallowed
        exact runStatement_fits (hok.storeFor session) (ih.storeFor session) session hallowed

/-- **Schema conformance.**  Every row has one value for each column, and each
value has the type of its column, or is NULL in a column that is neither
NOT_NULL nor INDEXED. -/
theorem schema_conformance {e : DbmsEngine} (h : ReachableBy staysInTable e) {s : Store}
    (hs : StoreOf e s) :
    ∀ d db t table, s.runtime.databases.find? d = some db → db.tables.find? t = some table →
      ∀ row ∈ table.heap.rows, row.values.length = table.schema.columns.length ∧
        ∀ (i : Nat) (c : Catalog.ColumnDefinition) (v : Value),
          table.schema.columns[i]? = some c → row.values[i]? = some v →
          getValueType v = c.type ∨
            (v = .null ∧ c.constraint ≠ .notNull ∧ c.constraint ≠ .indexed) := by
  intro d db t table hdb ht row hrow
  have hfit : Fits table.schema row := ((reachableBy_fits h).of hs d db t table hdb ht).rows row hrow
  exact ⟨hfit.length, fun i c v hc hv => typed_of_canAssign (hfit.values i c v hc hv)⟩

/-- A table that was dropped and created again, with other columns, filled, and
set back to its first row. -/
def recreatedRun : DbmsEngine × SessionContext :=
  runTexts sampleEnv Io.good freshEngine ⟨str "a", []⟩
    [str "CREATE DATABASE d;", str "USE d;", str "CREATE TABLE t (v STRING);",
      str "INSERT INTO t (v) VALUES (\"x\");", str "DROP TABLE t;",
      str "CREATE TABLE t (v INT);", str "INSERT INTO t (v) VALUES (7);",
      str "UPDATE t SET v = 8;", str "REVERT t \"2024.01.01-00:00:00.000005\";"]

set_option maxRecDepth 4000 in
theorem schema_conformance_recreatedRun :
    storeRows recreatedRun.1.store (str "d") (str "t") = some [⟨some 0, [.int 7]⟩] ∧
      ∀ db table, recreatedRun.1.store.runtime.databases.find? (str "d") = some db →
        db.tables.find? (str "t") = some table →
        ∀ row ∈ table.heap.rows, row.values.length = table.schema.columns.length := by
  refine ⟨by decide +kernel, ?_⟩
  intro db table hdb ht row hrow
  have h : ReachableBy staysInTable recreatedRun.1 :=
    reachableBy_runTexts sampleEnv Io.good (.start (new_empty sampleEnv 0)) _ _
      (by decide +kernel)
  exact (schema_conformance h .committed _ db _ table hdb ht row hrow).1

/-- The same REVERT, to the time of the first table. -/
def crossedRun : DbmsEngine × SessionContext :=
  runTexts sampleEnv Io.good freshEngine ⟨str "a", []⟩
    [str "CREATE DATABASE d;", str "USE d;", str "CREATE TABLE t (v STRING);",
      str "INSERT INTO t (v) VALUES (\"x\");", str "DROP TABLE t;",
      str "CREATE TABLE t (v INT);", str "REVERT t \"2024.01.01-00:00:00.000002\";"]

set_option maxRecDepth 4000 in
/-- **A text in a column of integers.** -/
theorem revert_crosses_tables :
    ¬ ∀ e s, Reachable e → StoreOf e s → ∀ d db t table,
      s.runtime.databases.find? d = some db → db.tables.find? t = some table →
      ∀ row ∈ table.heap.rows, row.values.length = table.schema.columns.length ∧
        ∀ (i : Nat) (c : Catalog.ColumnDefinition) (v : Value),
          table.schema.columns[i]? = some c → row.values[i]? = some v →
          getValueType v = c.type ∨
            (v = .null ∧ c.constraint ≠ .notNull ∧ c.constraint ≠ .indexed) := by
  intro hclaim
  have hreach : Reachable crossedRun.1 :=
    reachable_runTexts sampleEnv Io.good reachable_freshEngine _ _
  have hsome : (storeTable crossedRun.1.store (str "d") (str "t")).isSome = true := by
    decide +kernel
  have hdata : ∀ table ∈ storeTable crossedRun.1.store (str "d") (str "t"),
      table.schema.columns = [⟨str "v", .int64, .none, none⟩] ∧
        table.heap.rows = [⟨some 0, [.string (str "x")]⟩] := by
    decide +kernel
  obtain ⟨table, htable⟩ := Option.isSome_iff_exists.mp hsome
  obtain ⟨db, hdb, ht⟩ := Option.bind_eq_some_iff.mp htable
  obtain ⟨hcolumns, hrows⟩ := hdata table htable
  have h := (hclaim _ _ hreach .committed _ db _ table hdb ht ⟨some 0, [.string (str "x")]⟩
    (by rw [hrows]; simp)).2 0 ⟨str "v", .int64, .none, none⟩ (.string (str "x"))
    (by rw [hcolumns]; rfl) rfl
  simp [getValueType] at h

end CustomDbms.Core
