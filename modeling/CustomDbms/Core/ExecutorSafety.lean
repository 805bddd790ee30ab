/-
  CustomDbms.Core.ExecutorSafety
  ──────────────────────────────
  **THE EXECUTOR NEVER READS OUT OF RANGE.**

  In every state of every run, committed or working, every heap row has a value
  for each column of its table; so whatever statement the parser lets through,
  from whatever session, `ExecutionEngine::Execute` subscripts its vectors and
  reads its optionals in range.
-/
import CustomDbms.Core.EngineInvariant
import CustomDbms.Execution.AccessSafety

namespace CustomDbms.Core

open CustomDbms.Common CustomDbms.Catalog CustomDbms.Execution CustomDbms.Lib CustomDbms.Parser

/-- Every heap row of a store has as many values as its table has columns. -/
def RowsFill (s : Store) : Prop :=
  ∀ d t table, storeTable s d t = some table →
    ∀ row ∈ table.heap.rows, row.values.length = table.schema.columns.length

theorem rowsFill_of_ok {s : Store} (h : StoreOk s) : RowsFill s := by
  intro d t table htable
  obtain ⟨db, hdb, htable⟩ := Option.bind_eq_some_iff.mp htable
  exact ((h.state d db hdb).tables t table htable).shape

/-- **Every access of the executor is in range, always.** -/
theorem executor_accesses_inRange {e : DbmsEngine} (h : Reachable e) {s : Store}
    (hs : StoreOf e s) :
    (∀ (env : Env) (session : SessionContext) (sql : Str) (statement : Statement) (detail : Str),
      parse sql = .ok statement →
        ∀ a ∈ (Accesses.execute env s session statement detail).trace, a.InRange) ∧
    RowsFill s := by
  have hok := (reachable_ok h).of hs
  constructor
  · intro env session sql statement detail hparse
    exact Accesses.safe_execute env hok.state session (parse_validated hparse) detail
  · exact rowsFill_of_ok hok

/-- A query of the two rows of `sampleRun`. -/
def sampleQuery : Statement :=
  .select ⟨⟨none, str "t"⟩, [⟨false, str "v", none, none⟩],
    some (.binaryComparison .less (.columnReference none none (str "k")) (.literal (.int 2)))⟩

/-- The query goes through the index; its accesses are in range. -/
theorem executor_accesses_inRange_sampleRun :
    (Accesses.execute sampleEnv sampleRun.1.store sampleRun.2 sampleQuery []).trace ≠ [] ∧
      ∀ a ∈ (Accesses.execute sampleEnv sampleRun.1.store sampleRun.2 sampleQuery []).trace,
        a.InRange :=
  ⟨by decide +kernel, (executor_accesses_inRange reachable_sampleRun .committed).1 sampleEnv
    sampleRun.2 (str "SELECT v FROM t WHERE k < 2;") sampleQuery [] (by decide +kernel)⟩

end CustomDbms.Core
