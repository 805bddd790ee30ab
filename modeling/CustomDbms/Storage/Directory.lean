/-
  CustomDbms.Storage.Directory
  ────────────────────────────
  **THE DATA DIRECTORY.**

  The files of a data directory (`root_path_`) and the file operations the
  engine performs on them, each taken as one step.  A directory maps every
  file to its contents, `none` where there is no such file.
-/
import CustomDbms.Common.Types

namespace CustomDbms.Storage

open CustomDbms.Common

/-- The files of a data directory. -/
inductive FileName where
  /-- `runtime_state.tsv` -/
  | state
  /-- `runtime_state.tsv.tmp` -/
  | stateTmp
  /-- `version_history.tsv` -/
  | history
  /-- `version_history.tsv.tmp` -/
  | historyTmp
  /-- `wal.log` -/
  | wal
  /-- `wal.log.corrupt.<milliseconds>` -/
  | walCorrupt (now : Nat)
  deriving Repr, DecidableEq

/-- A data directory. -/
abbrev Directory := FileName → Option Str

/-- The directory of a first start. -/
def Directory.empty : Directory := fun _ => none

/-- One file operation that succeeds. -/
inductive FileStep where
  /-- open with `std::ios::trunc` and write -/
  | write (file : FileName) (contents : Str)
  /-- open with `std::ios::app` and write -/
  | append (file : FileName) (contents : Str)
  /-- `std::filesystem::remove` -/
  | remove (file : FileName)
  /-- `std::filesystem::rename` -/
  | rename (source target : FileName)

/-- The directory after one operation. -/
def FileStep.apply (d : Directory) : FileStep → Directory
  | .write f contents => Function.update d f (some contents)
  | .append f contents => Function.update d f (some ((d f).getD [] ++ contents))
  | .remove f => Function.update d f none
  | .rename source target => Function.update (Function.update d target (d source)) source none

/-- The directory after a sequence of operations. -/
def runSteps (d : Directory) (steps : List FileStep) : Directory := steps.foldl FileStep.apply d

@[simp] theorem runSteps_nil (d : Directory) : runSteps d [] = d := rfl

@[simp] theorem runSteps_cons (d : Directory) (s : FileStep) (steps : List FileStep) :
    runSteps d (s :: steps) = runSteps (s.apply d) steps := rfl

end CustomDbms.Storage
