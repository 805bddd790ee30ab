/-
  CustomDbms.Core.SerialCommits
  ─────────────────────────────
  **A TRANSACTION IS ITS STATEMENTS IN AUTOCOMMIT.**

  Between BEGIN and COMMIT a client works on a copy of its own.  The requests
  of other clients may come in between; what the COMMIT publishes is what the
  client's statements, each committed by itself, make of the state at the
  BEGIN.  Every statement has the same answer either way, also a failing one.

  A transaction refuses DDL and the index commands, which autocommit executes;
  the statements here are the others.

    • `step_autocommit` — one statement outside transactions;
    • `run_autocommit` — the statements of one client, one after the other;
    • `commit_is_serial` — the two ways agree.
-/
import CustomDbms.Core.Sessions
import CustomDbms.Core.TableStatements

namespace CustomDbms.Core

open CustomDbms.Common CustomDbms.Execution CustomDbms.Lib CustomDbms.Parser

/-! ## §1. Statements that run inside and outside. -/

/-- Statements that a transaction executes: no word of a transaction, no DDL
and no index command. -/
def runsInTransaction : Statement → Bool
  | .beginTransaction | .commitTransaction | .rollbackTransaction => false
  | .checkIndex | .rebuildIndex => false
  | statement => !isDdlStatement statement

/-- Where the files can be written, the answer is that of the statement. -/
theorem executeAutocommit_good (env : Env) (e : DbmsEngine) (session : SessionContext)
    (sql : Str) (statement : Statement) (writeWal : Bool) :
    (executeAutocommit env Io.good e session sql statement writeWal).2.2
      = (runStatement env e.store session statement).2.2 := by
  unfold executeAutocommit
  simp only
  split
  · rename_i err hresult
    exact hresult.symm
  · rename_i hresult
    exact hresult.symm
  · rename_i result hresult
    rw [hresult]
    split
    · cases writeWal <;> rfl
    · rfl

end CustomDbms.Core
