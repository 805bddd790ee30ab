/-
  CustomDbms.Core.RuntimePersistence
  ──────────────────────────────────
  **THE STATE FILES** (`src/core/runtime_persistence.cpp`).

  `Save` writes the runtime state and the change log as two text files, each
  through a temporary file that replaces the old one; `saveSteps` is its
  sequence of file operations.  `Load` reads the two files line by line, in
  the present keyed form of the lines and in an older positional one.
-/
import CustomDbms.Common.TextCodec
import CustomDbms.Core.RuntimeState
import CustomDbms.Parser.Lexer
import CustomDbms.Storage.Directory
import CustomDbms.Versioning.VersionStore

namespace CustomDbms.Core

open CustomDbms.Common CustomDbms.Catalog CustomDbms.Lib CustomDbms.Parser CustomDbms.Storage
open CustomDbms.Versioning

/-! ## §1. Names and values as text. -/

/-- `ValueTypeName`. -/
def valueTypeName : ValueType → Str
  | .null => str "NULL"
  | .int64 => str "INT"
  | .string => str "STRING"

/-- `ConstraintName`. -/
def constraintName : ColumnConstraint → Str
  | .none => str "NONE"
  | .notNull => str "NOT_NULL"
  | .indexed => str "INDEXED"

/-- `ChangeKindName`. -/
def changeKindName : ChangeKind → Str
  | .createDatabase => str "CREATE_DATABASE"
  | .dropDatabase => str "DROP_DATABASE"
  | .createTable => str "CREATE_TABLE"
  | .dropTable => str "DROP_TABLE"
  | .insertRow => str "INSERT_ROW"
  | .updateRow => str "UPDATE_ROW"
  | .deleteRow => str "DELETE_ROW"

/-- The names of types, read back. -/
def parseValueType (s : Str) : Option ValueType :=
  if s = str "INT" then some .int64
  else if s = str "STRING" then some .string
  else if s = str "NULL" then some .null
  else none

/-- The names of constraints, read back. -/
def parseConstraint (s : Str) : Option ColumnConstraint :=
  if s = str "NONE" then some .none
  else if s = str "NOT_NULL" then some .notNull
  else if s = str "INDEXED" then some .indexed
  else none

/-- `ParseChangeKind`. -/
def parseChangeKind (s : Str) : Option ChangeKind :=
  if s = str "CREATE_DATABASE" then some .createDatabase
  else if s = str "DROP_DATABASE" then some .dropDatabase
  else if s = str "CREATE_TABLE" then some .createTable
  else if s = str "DROP_TABLE" then some .dropTable
  else if s = str "INSERT_ROW" then some .insertRow
  else if s = str "UPDATE_ROW" then some .updateRow
  else if s = str "DELETE_ROW" then some .deleteRow
  else none

/-- `EncodeValue`. -/
def encodeValue : Value → Str
  | .null => str "Null"
  | .int i => str "Int:" ++ intToString i.toInt
  | .string s => str "String:" ++ escape s

/-- The number after `Int:` or `I:`; all of it must be read. -/
def decodeInt (s : Str) : Option Value :=
  match stoll s with
  | some (i, used) => if used = s.length then some (.int i) else none
  | none => none

/-- `TryDecodeValue`. -/
def tryDecodeValue (encoded : Str) : Option Value :=
  if encoded = str "N" ∨ encoded = str "Null" then some .null
  else
    match stripStart (str "Int:") encoded, stripStart (str "I:") encoded with
    | some rest, _ => decodeInt rest
    | none, some rest => decodeInt rest
    | none, none =>
        match stripStart (str "String:") encoded, stripStart (str "S:") encoded with
        | some rest, _ => some (.string (unescape rest))
        | none, some rest => some (.string (unescape rest))
        | none, none => none

/-- A row id as the stream prints it. -/
def rowIdToString (i : RowId) : Str := natToString (i.getD (2 ^ 64 - 1))

/-- A row id read by `std::stoull`. -/
def parseRowId (s : Str) : Option RowId :=
  (stoull s).map fun n => if n = 2 ^ 64 - 1 then none else some n

/-- `ParseKeyValueToken`. -/
def parseKeyValueToken (token : Str) : Option (Str × Str) :=
  let key := token.takeWhile (fun c => decide (c ≠ byte '='))
  match token.dropWhile (fun c => decide (c ≠ byte '=')) with
  | [] => none
  | _ :: value => if key = [] then none else some (key, value)

/-- The loop of `FindFieldValue`. -/
def findField (fieldName : Str) : List Str → Option Str
  | [] => none
  | token :: rest =>
      match parseKeyValueToken token with
      | some (key, value) => if key = fieldName then some value else findField fieldName rest
      | none => findField fieldName rest

/-- `FindFieldValue`: the first part of a line is its tag. -/
def findFieldValue (parts : List Str) (fieldName : Str) : Option Str :=
  findField fieldName parts.tail

/-! ## §2. `Save`. -/

/-- `key=value`. -/
def field (key : String) (value : Str) : Str := str key ++ str "=" ++ value

/-- A line of tab-separated parts. -/
def lineOf (parts : List Str) : Str := [tab].intercalate parts ++ [newline]

/-- The header line of both files. -/
def formatLine : Str := lineOf [str "FORMAT", str "3"]

/-- A default value in a line; none is written like NULL. -/
def encodeDefault (d : Option Value) : Str :=
  match d with
  | some v => encodeValue v
  | none => str "Null"

/-- The `COLUMN` line. -/
def columnLine (databaseName tableName : Str) (c : Catalog.ColumnDefinition) : Str :=
  lineOf [str "COLUMN", field "db" (escape databaseName), field "table" (escape tableName),
    field "name" (escape c.name), field "type" (valueTypeName c.type),
    field "constraint" (constraintName c.constraint),
    field "default" (encodeDefault c.defaultValue)]

/-- The `ROW` line. -/
def rowLine (databaseName tableName : Str) (row : RowData) : Str :=
  lineOf ([str "ROW", field "db" (escape databaseName), field "table" (escape tableName),
    field "row_id" (rowIdToString row.rowId)]
      ++ row.values.map fun v => field "value" (encodeValue v))

/-- The lines of one table. -/
def tableText (databaseName tableName : Str) (table : TableRuntime) : Str :=
  str "# Database: " ++ escape databaseName ++ [newline]
    ++ str "# Table: " ++ escape tableName ++ [newline]
    ++ lineOf [str "TABLE", field "db" (escape databaseName), field "name" (escape tableName)]
    ++ table.schema.columns.flatMap (columnLine databaseName tableName)
    ++ table.heap.scanAll.flatMap (rowLine databaseName tableName)
    ++ [newline]

/-- The lines of one database. -/
def databaseText (databaseName : Str) (d : DatabaseRuntime) : Str :=
  lineOf [str "DATABASE", field "name" (escape databaseName)]
    ++ d.tables.entries.flatMap fun p => tableText databaseName p.1 p.2

/-- The comment lines at the top of `runtime_state.tsv`. -/
def stateComments : Str :=
  str "# Runtime state dump (human-readable)\n"
    ++ str "# Records:\n"
    ++ str "# DATABASE\\tname=<db>\n"
    ++ str "# TABLE\\tdb=<db>\\tname=<table>\n"
    ++ str "# COLUMN\\tdb=<db>\\ttable=<table>\\tname=<column>\\ttype=<INT|STRING|NULL>"
    ++ str "\\tconstraint=<NONE|NOT_NULL|INDEXED>\\tdefault=<value>\n"
    ++ str "# ROW\\tdb=<db>\\ttable=<table>\\trow_id=<id>\\tvalue=<...>\\tvalue=<...>\n"

/-- The contents of `runtime_state.tsv`. -/
def stateText (state : RuntimeState) : Str :=
  formatLine ++ stateComments
    ++ state.databases.entries.flatMap fun p => databaseText p.1 p.2

/-- A `BEFORE` or `AFTER` line. -/
def imageLine (tag : String) (row : RowData) : Str :=
  lineOf ([str tag, field "row_id" (rowIdToString row.rowId)]
    ++ row.values.map fun v => field "value" (encodeValue v))

/-- The `SCHEMA_COLUMN` line. -/
def schemaColumnLine (c : Catalog.ColumnDefinition) : Str :=
  lineOf [str "SCHEMA_COLUMN", field "name" (escape c.name), field "type" (valueTypeName c.type),
    field "constraint" (constraintName c.constraint),
    field "default" (encodeDefault c.defaultValue)]

/-- The lines of one event. -/
def recordText (r : ChangeRecord) : Str :=
  lineOf [str "EVENT", field "kind" (changeKindName r.kind), field "db" (escape r.databaseName),
      field "table" (escape r.tableName), field "timestamp" (escape r.timestamp),
      field "row_id" (rowIdToString r.rowId)]
    ++ (r.schema.elim [] fun s => s.columns.flatMap schemaColumnLine)
    ++ (r.beforeRow.elim [] fun row => imageLine "BEFORE" row)
    ++ (r.afterRow.elim [] fun row => imageLine "AFTER" row)
    ++ lineOf [str "EVENT_END"] ++ [newline]

/-- The comment lines at the top of `version_history.tsv`. -/
def historyComments : Str :=
  str "# Version history dump (event-based)\n"
    ++ str "# Records:\n"
    ++ str "# EVENT\\tkind=<kind>\\tdb=<db>\\ttable=<table>\\ttimestamp=<ts>\\trow_id=<id>\n"
    ++ str "# SCHEMA_COLUMN\\tname=<column>\\ttype=<type>\\tconstraint=<constraint>"
    ++ str "\\tdefault=<value>\n"
    ++ str "# BEFORE\\tvalue=<...>\\tvalue=<...>\n"
    ++ str "# AFTER\\tvalue=<...>\\tvalue=<...>\n"
    ++ str "# EVENT_END\n"

/-- The contents of `version_history.tsv`. -/
def historyText (v : VersionStore) : Str :=
  formatLine ++ historyComments ++ v.records.flatMap recordText

/-- The file operations of `Save`, in their order. -/
def saveSteps (state : RuntimeState) (v : VersionStore) : List FileStep :=
  [.write .stateTmp (stateText state), .remove .state, .rename .stateTmp .state,
    .write .historyTmp (historyText v), .remove .history, .rename .historyTmp .history]

/-- `Save` without a failure. -/
def save (state : RuntimeState) (v : VersionStore) (d : Directory) : Directory :=
  runSteps d (saveSteps state v)

/-! ## §3. `Load`: the loop over the lines. -/

/-- How `Load` and `ReplayWal` end: they return true, return false, or throw. -/
inductive LoadStatus where
  | accepted | rejected | thrown
  deriving Repr, DecidableEq

/-- The line loop of both files.  Empty lines and comments are skipped; a
`FORMAT` line is looked at only as the first one. -/
def loadLines {σ : Type} (step : σ → List Str → σ × LoadStatus) :
    Bool → σ → List Str → σ × LoadStatus
  | _, s, [] => (s, .accepted)
  | formatChecked, s, line :: rest =>
      if line = [] ∨ line.head? = some (byte '#') then loadLines step formatChecked s rest
      else
        let parts := splitByTab line
        if formatChecked = false ∧ parts.head? = some (str "FORMAT") then
          if parts = [str "FORMAT", str "3"] then loadLines step true s rest else (s, .rejected)
        else
          match step s parts with
          | (s', .accepted) => loadLines step true s' rest
          | r => r

/-! ## §4. `Load`: the runtime state. -/

/-- A `DATABASE` line: an existing database is kept. -/
def loadDatabase (state : RuntimeState) (name : Str) : RuntimeState :=
  ⟨state.databases.emplace name ⟨name, Dict.empty⟩⟩

/-- A `TABLE` line: a table without columns; an existing one is kept. -/
def loadTable (state : RuntimeState) (databaseName tableName : Str) : RuntimeState :=
  let table : TableRuntime :=
    ⟨⟨databaseName, tableName, [], []⟩, TableHeap.new, Dict.empty⟩
  ⟨(loadDatabase state databaseName).databases.modify databaseName fun d =>
    { d with tables := d.tables.emplace tableName table }⟩

/-- The table of a line, where it exists. -/
def lookupTable (state : RuntimeState) (databaseName tableName : Str) : Option TableRuntime :=
  match state.databases.find? databaseName with
  | none => none
  | some d => d.tables.find? tableName

/-- The table of a line replaced. -/
def putTable (state : RuntimeState) (databaseName tableName : Str) (table : TableRuntime) :
    RuntimeState :=
  ⟨state.databases.modify databaseName fun d =>
    { d with tables := d.tables.modify tableName fun _ => table }⟩

/-- A `COLUMN` line on its table: the column is added, the heap starts anew. -/
def addColumn (table : TableRuntime) (tableName : Str) (c : Catalog.ColumnDefinition) :
    TableRuntime :=
  if c.constraint = .indexed then
    { schema := { table.schema with
        columns := table.schema.columns ++ [c]
        indexes := table.schema.indexes ++ [indexDefinitionFor tableName c.name] }
      heap := TableHeap.new
      indexes := table.indexes.emplace c.name newIndexTree }
  else
    { table with
      schema := { table.schema with columns := table.schema.columns ++ [c] }
      heap := TableHeap.new }

/-- `ParseInteger`. -/
def parseInteger (raw : Str) : Option Int :=
  match stoll raw with
  | some (i, used) =>
      if used = raw.length ∧ -(2 ^ 31 : Int) ≤ i.toInt ∧ i.toInt < 2 ^ 31 then some i.toInt
      else none
  | none => none

/-- A decoded default: NULL stands for none in the keyed form. -/
def keyedDefault (v : Value) : Option Value := if v = .null then none else some v

/-- The fields of a keyed `COLUMN` or `SCHEMA_COLUMN` line. -/
def keyedColumn (name type constraint default : Str) : Option Catalog.ColumnDefinition := do
  let t ← parseValueType type
  let c ← parseConstraint constraint
  let d ← tryDecodeValue default
  return ⟨unescape name, t, c, keyedDefault d⟩

/-- The numbers of the enumerators in the positional form; other numbers name
no enumerator. -/
def enumValueType (i : Int) : Option ValueType :=
  if i = 0 then some .null else if i = 1 then some .int64 else if i = 2 then some .string else none

/-- The same for constraints. -/
def enumConstraint (i : Int) : Option ColumnConstraint :=
  if i = 0 then some .none else if i = 1 then some .notNull
  else if i = 2 then some .indexed else none

/-- Adds a parsed column to its table; a line for an unknown table is
ignored. -/
def loadColumn (state : RuntimeState) (databaseName tableName : Str)
    (c : Catalog.ColumnDefinition) : RuntimeState :=
  match lookupTable state databaseName tableName with
  | none => state
  | some table => putTable state databaseName tableName (addColumn table tableName c)

/-- A positional `COLUMN` line. -/
def loadPositionalColumn (state : RuntimeState) (parts : List Str) :
    RuntimeState × LoadStatus :=
  match parts with
  | _ :: db :: table :: name :: type :: constraint :: hasDefault :: default :: _ =>
      match parseInteger type, parseInteger constraint with
      | some t, some c =>
          let d := if hasDefault = str "1" then (tryDecodeValue default).map some else some none
          match d, enumValueType t, enumConstraint c with
          | none, _, _ => (state, .rejected)
          | some d, some t, some c =>
              (loadColumn state (unescape db) (unescape table) ⟨unescape name, t, c, d⟩, .accepted)
          | some _, _, _ =>
              -- a column whose type or constraint is no enumerator
              (state, if (lookupTable state (unescape db) (unescape table)).isSome
                then .thrown else .accepted)
      | _, _ => (state, .rejected)
  | _ => (state, .rejected)

/-- A `COLUMN` line. -/
def loadColumnLine (state : RuntimeState) (parts : List Str) : RuntimeState × LoadStatus :=
  match findFieldValue parts (str "db"), findFieldValue parts (str "table"),
      findFieldValue parts (str "name"), findFieldValue parts (str "type"),
      findFieldValue parts (str "constraint"), findFieldValue parts (str "default") with
  | some db, some table, some name, some type, some constraint, some default =>
      match keyedColumn name type constraint default with
      | none => (state, .rejected)
      | some c => (loadColumn state (unescape db) (unescape table) c, .accepted)
  | _, _, _, _, _, _ => loadPositionalColumn state parts

/-- The encoded values of a keyed line. -/
def keyedValues (parts : List Str) : List Str :=
  parts.filterMap fun token =>
    match parseKeyValueToken token with
    | some (key, value) => if key = str "value" then some value else none
    | none => none

/-- The `row_id` field; `kInvalidRowId` where there is none. -/
def rowIdField (parts : List Str) : Option RowId :=
  match findFieldValue parts (str "row_id") with
  | none => some kInvalidRowId
  | some s => parseRowId s

/-- A row enters the heap and the indexes of its table. -/
def loadRow (state : RuntimeState) (databaseName tableName : Str) (table : TableRuntime)
    (row : RowData) : RuntimeState × LoadStatus :=
  if row.values.length ≠ table.schema.columns.length then (state, .rejected)
  else
    let h := table.heap.insert row
    let ix := updateIndexes (addIndexEntry table.schema { row with rowId := h.2 }) table.indexes
    (putTable state databaseName tableName { table with heap := h.1, indexes := ix.1 },
      if ix.2 = .ok () then .accepted else .thrown)

/-- The row of a line: id and decoded values. -/
def decodeRow (parts encoded : List Str) : Option RowData := do
  let rowId ← rowIdField parts
  let values ← encoded.mapM tryDecodeValue
  return ⟨rowId, values⟩

/-- A `ROW` line for the table it names. -/
def loadRowLine (state : RuntimeState) (parts : List Str) (databaseName tableName : Str)
    (encoded : List Str) : RuntimeState × LoadStatus :=
  match lookupTable state databaseName tableName with
  | none => (state, .accepted)
  | some table =>
      match decodeRow parts encoded with
      | none => (state, .rejected)
      | some row => loadRow state databaseName tableName table row

/-- One line of `runtime_state.tsv`; other tags are ignored. -/
def loadStateLine (state : RuntimeState) (parts : List Str) : RuntimeState × LoadStatus :=
  let tag := parts.head?.getD []
  if tag = str "DATABASE" then
    match findFieldValue parts (str "name") with
    | none => (state, .rejected)
    | some name => (loadDatabase state (unescape name), .accepted)
  else if tag = str "DB" ∧ 2 ≤ parts.length then
    (loadDatabase state (unescape (parts.tail.head?.getD [])), .accepted)
  else if tag = str "TABLE" then
    match findFieldValue parts (str "db"), findFieldValue parts (str "name"), parts with
    | some db, some name, _ => (loadTable state (unescape db) (unescape name), .accepted)
    | _, _, _ :: db :: name :: _ => (loadTable state (unescape db) (unescape name), .accepted)
    | _, _, _ => (state, .rejected)
  else if tag = str "COLUMN" then loadColumnLine state parts
  else if tag = str "ROW" then
    match findFieldValue parts (str "db"), findFieldValue parts (str "table"), parts with
    | some db, some table, _ =>
        loadRowLine state parts (unescape db) (unescape table) (keyedValues parts)
    | _, _, _ :: db :: table :: values =>
        loadRowLine state parts (unescape db) (unescape table) values
    | _, _, _ => (state, .rejected)
  else (state, .accepted)

/-! ## §5. `Load`: the change log. -/

/-- `loaded_records` and `pending_record`. -/
structure HistoryLoad where
  records : List ChangeRecord
  pending : Option ChangeRecord

/-- An `EVENT` line. -/
def loadEvent (parts : List Str) : Option ChangeRecord := do
  let kind ← findFieldValue parts (str "kind")
  let db ← findFieldValue parts (str "db")
  let table ← findFieldValue parts (str "table")
  let timestamp ← findFieldValue parts (str "timestamp")
  let k ← parseChangeKind kind
  let rowId ← rowIdField parts
  return { kind := k, databaseName := unescape db, tableName := unescape table,
           timestamp := unescape timestamp, rowId := rowId,
           schema := none, beforeRow := none, afterRow := none }

/-- A `SCHEMA_COLUMN` line. -/
def loadSchemaColumn (parts : List Str) : Option Catalog.ColumnDefinition := do
  let name ← findFieldValue parts (str "name")
  let type ← findFieldValue parts (str "type")
  let constraint ← findFieldValue parts (str "constraint")
  let default ← findFieldValue parts (str "default")
  keyedColumn name type constraint default

/-- A column added to the schema of a record. -/
def addSchemaColumn (r : ChangeRecord) (c : Catalog.ColumnDefinition) : ChangeRecord :=
  let schema := r.schema.getD ⟨r.databaseName, r.tableName, [], []⟩
  { r with schema := some { schema with columns := schema.columns ++ [c] } }

/-- The encoded values of a `BEFORE` or `AFTER` line: a token without a key
counts as a value. -/
def imageValues (parts : List Str) : List Str :=
  parts.tail.filterMap fun token =>
    match parseKeyValueToken token with
    | some (key, value) => if key = str "value" then some value else none
    | none => some token

/-- One line of `version_history.tsv`. -/
def loadHistoryLine (s : HistoryLoad) (parts : List Str) : HistoryLoad × LoadStatus :=
  let tag := parts.head?.getD []
  if tag = str "EVENT" then
    match s.pending, loadEvent parts with
    | none, some r => ({ s with pending := some r }, .accepted)
    | _, _ => (s, .rejected)
  else if tag = str "SCHEMA_COLUMN" then
    match s.pending, loadSchemaColumn parts with
    | some r, some c => ({ s with pending := some (addSchemaColumn r c) }, .accepted)
    | _, _ => (s, .rejected)
  else if tag = str "BEFORE" ∨ tag = str "AFTER" then
    match s.pending, decodeRow parts (imageValues parts) with
    | some r, some row =>
        let r' := if tag = str "BEFORE" then { r with beforeRow := some row }
          else { r with afterRow := some row }
        ({ s with pending := some r' }, .accepted)
    | _, _ => (s, .rejected)
  else if parts = [str "EVENT_END"] then
    match s.pending with
    | none => (s, .rejected)
    | some r => (⟨s.records ++ [r], none⟩, .accepted)
  else (s, .rejected)

/-- The records of `version_history.tsv`. -/
def loadHistory (text : Str) : Option (List ChangeRecord) :=
  match loadLines loadHistoryLine false ⟨[], none⟩ (lines text) with
  | (⟨records, none⟩, .accepted) => some records
  | _ => none

/-- What `Load` leaves in its two arguments, and how it ends. -/
structure Loaded where
  runtime : RuntimeState
  versions : VersionStore
  status : LoadStatus

/-- `Load` into a state and a log. -/
def load (d : Directory) (runtime : RuntimeState) (versions : VersionStore) : Loaded :=
  match d .state with
  | none => ⟨runtime, versions, .accepted⟩
  | some text =>
      match loadLines loadStateLine false RuntimeState.empty (lines text) with
      | (state, .accepted) =>
          match d .history with
          | none => ⟨state, VersionStore.empty, .accepted⟩
          | some history =>
              match loadHistory history with
              | none => ⟨state, versions, .rejected⟩
              | some records =>
                  ⟨state, ⟨records⟩, match validateRuntimeIndexConsistency state with
                    | .ok () => .accepted
                    | .error _ => .rejected
                    | .fault => .thrown⟩
      | (state, status) => ⟨state, versions, status⟩

end CustomDbms.Core
