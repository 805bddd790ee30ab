/-
  CustomDbms.Core.WalManager
  ──────────────────────────
  **THE WRITE-AHEAD LOG** (`src/core/wal_manager.cpp`).

  The log holds the SQL texts of statements, one line each, and of committed
  transactions, bracketed by `TX_BEGIN` and `TX_END`.
-/
import CustomDbms.Common.TextCodec
import CustomDbms.Storage.Directory

namespace CustomDbms.Core

open CustomDbms.Common CustomDbms.Storage

/-- `WalEntry`. -/
inductive WalEntry where
  | sql (statement : Str)
  | transaction (statements : List Str)
  deriving DecidableEq

/-- `kHeaderPrefix`. -/
def kHeaderPrefix : Str := str "WAL\t"

/-- `kCurrentVersion`. -/
def kCurrentVersion : Str := str "2"

/-- `IsSupportedWalVersion`. -/
def isSupportedWalVersion (version : Str) : Bool := version = str "1" || version = str "2"

/-- The header line of the log. -/
def walHeader : Str := kHeaderPrefix ++ kCurrentVersion ++ [newline]

/-- The header goes in front of the first entry of an empty or missing file. -/
def headerIfEmpty (d : Directory) : Str := if (d .wal).getD [] = [] then walHeader else []

/-- What `AppendSql` writes. -/
def sqlText (sql : Str) : Str := str "SQL\t" ++ escape sql ++ [newline]

/-- What `AppendTransaction` writes. -/
def transactionText (statements : List Str) : Str :=
  str "TX_BEGIN\n" ++ statements.flatMap (fun s => str "TX_SQL\t" ++ escape s ++ [newline])
    ++ str "TX_END\n"

/-- `AppendSql`. -/
def appendSql (sql : Str) (d : Directory) : Directory :=
  FileStep.apply d (.append .wal (headerIfEmpty d ++ sqlText sql))

/-- `AppendTransaction`. -/
def appendTransaction (statements : List Str) (d : Directory) : Directory :=
  FileStep.apply d (.append .wal (headerIfEmpty d ++ transactionText statements))

/-- The loop of `LoadAll` over the lines behind the header: `tx` is the open
transaction, if there is one.  One that is not closed at the end of the file
is dropped. -/
def loadEntries : Option (List Str) → List Str → Option (List WalEntry)
  | _, [] => some []
  | tx, line :: rest =>
      if line = [] then loadEntries tx rest
      else if line = str "TX_BEGIN" then
        match tx with
        | some _ => none
        | none => loadEntries (some []) rest
      else if line = str "TX_END" then
        match tx with
        | none => none
        | some statements =>
            (loadEntries none rest).map (WalEntry.transaction statements :: ·)
      else
        match stripStart (str "SQL\t") line, stripStart (str "TX_SQL\t") line, tx with
        | some text, _, none =>
            (loadEntries none rest).map (WalEntry.sql (unescape text) :: ·)
        | some _, _, some _ => none
        | none, some text, some statements =>
            loadEntries (some (statements ++ [unescape text])) rest
        | none, _, _ => none

/-- `LoadAll` on the text of the file; `none` where it returns false. -/
def loadLog (text : Str) : Option (List WalEntry) :=
  match lines text with
  | [] => some []
  | header :: rest =>
      match stripStart kHeaderPrefix header with
      | none => none
      | some version => if isSupportedWalVersion version then loadEntries none rest else none

/-- `LoadAll`. -/
def loadAll (d : Directory) : Option (List WalEntry) :=
  match d .wal with
  | none => some []
  | some text => loadLog text

/-- `Reset`. -/
def reset (d : Directory) : Directory := FileStep.apply d (.write .wal walHeader)

/-- `QuarantineCorrupted`. -/
def quarantineCorrupted (now : Nat) (d : Directory) : Directory :=
  match d .wal with
  | none => reset d
  | some _ => reset (FileStep.apply d (.rename .wal (.walCorrupt now)))

end CustomDbms.Core
