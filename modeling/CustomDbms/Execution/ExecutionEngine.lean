/-
  CustomDbms.Execution.ExecutionEngine
  ────────────────────────────────────
  **STATEMENT EXECUTION** (`src/execution/execution_engine.cpp`).

  `Execute` works on the runtime state and the change log it was constructed
  with (`Store`) and on the caller's session.  Every branch returns the state
  as the code leaves it, also where it returns an error or does not return.
  The statements that name a table share one preamble (`withTable`); each is a
  function of the table and the log.
-/
import CustomDbms.Execution.Predicates
import CustomDbms.Versioning.VersionStore
import Mathlib.Data.List.Sort

namespace CustomDbms.Execution

open CustomDbms.Common CustomDbms.Catalog CustomDbms.Core CustomDbms.Lib CustomDbms.Parser
open CustomDbms.Storage CustomDbms.Versioning

/-! ## §1. State, session, environment. -/

/-- What an `ExecutionEngine` works on. -/
structure Store where
  runtime : RuntimeState
  versions : VersionStore

/-- `SessionContext`; `user_id` plays no part in the engine. -/
structure SessionContext where
  clientId : Str
  currentDatabase : Str
  deriving DecidableEq

/-- `QueryResult`. -/
structure QueryResult where
  rows : List RowData
  columnNames : List Str
  message : Str
  deriving DecidableEq

/-- What a call of the engine takes from outside: the regular expressions of
the standard library and the clock. -/
structure Env where
  regexMatch : RegexMatch
  clock : Nat → LocalTime

/-- A result that is only a message. -/
def QueryResult.ofMessage (message : Str) : QueryResult := ⟨[], [], message⟩

/-- `AppendChangeEvent`. -/
def appendChangeEvent (env : Env) (v : VersionStore) (kind : ChangeKind)
    (databaseName tableName : Str) (schema : Option TableSchema)
    (beforeRow afterRow : Option RowData) : VersionStore :=
  v.append env.clock
    { kind, databaseName, tableName, timestamp := [],
      rowId := match afterRow, beforeRow with
        | some r, _ => r.rowId
        | none, some r => r.rowId
        | none, none => kInvalidRowId
      schema, beforeRow, afterRow }

/-- `ResolveDatabaseName`. -/
def resolveDatabaseName (session : SessionContext) (requested : Option Str) : Result Str :=
  match requested with
  | some d => .ok d
  | none =>
      if session.currentDatabase = [] then
        .makeError .validationError (str "no active database selected")
      else .ok session.currentDatabase

/-- Replaces the runtime of one table. -/
def Store.setTable (s : Store) (databaseName tableName : Str) (table : TableRuntime) : Store :=
  { s with runtime := ⟨s.runtime.databases.modify databaseName fun d =>
      { d with tables := d.tables.modify tableName fun _ => table }⟩ }

/-- The preamble of the statements on one table: resolve the database, find it,
find the table; then `f` runs on it, with the database's name. -/
def withTable (s : Store) (session : SessionContext) (name : QualifiedName)
    (f : Str → TableRuntime → VersionStore → TableRuntime × VersionStore × Result QueryResult) :
    Store × Result QueryResult :=
  match resolveDatabaseName session name.databaseName with
  | .error e => (s, .error e)
  | .fault => (s, .fault)
  | .ok db =>
      match s.runtime.databases.find? db with
      | none => (s, .makeError .notFound (str "database not found: " ++ db))
      | some d =>
          match d.tables.find? name.objectName with
          | none => (s, .makeError .notFound (str "table not found: " ++ name.objectName))
          | some table =>
              let r := f db table s.versions
              ({ s.setTable db name.objectName r.1 with versions := r.2.1 }, r.2.2)

/-! ## §2. Databases and tables. -/

/-- `CREATE DATABASE`. -/
def executeCreateDatabase (env : Env) (s : Store) (name : Str) : Store × Result QueryResult :=
  if s.runtime.databases.contains name then
    (s, .makeError .alreadyExists (str "database already exists: " ++ name))
  else
    (⟨⟨s.runtime.databases.emplace name ⟨name, Dict.empty⟩⟩,
      appendChangeEvent env s.versions .createDatabase name [] none none none⟩,
      .ok (.ofMessage (str "database created")))

/-- `USE`. -/
def executeUse (s : Store) (session : SessionContext) (name : Str) :
    SessionContext × Result QueryResult :=
  if s.runtime.databases.contains name then
    ({ session with currentDatabase := name }, .ok (.ofMessage (str "database selected")))
  else (session, .makeError .notFound (str "database not found: " ++ name))

/-- `DROP DATABASE`. -/
def executeDropDatabase (env : Env) (s : Store) (session : SessionContext) (name : Str) :
    Store × SessionContext × Result QueryResult :=
  if s.runtime.databases.contains name then
    (⟨⟨s.runtime.databases.erase name⟩,
      appendChangeEvent env s.versions .dropDatabase name [] none none none⟩,
      if session.currentDatabase = name then { session with currentDatabase := [] } else session,
      .ok (.ofMessage (str "database dropped")))
  else (s, session, .makeError .notFound (str "database not found: " ++ name))

/-- The constraint of a parsed column. -/
def constraintOf (col : Parser.ColumnDefinition) : ColumnConstraint :=
  if col.indexed then .indexed else if col.notNull then .notNull else .none

/-- The schema `CREATE TABLE` builds. -/
def schemaOf (databaseName : Str) (stmt : CreateTableStatement) : TableSchema where
  databaseName := databaseName
  tableName := stmt.tableName.objectName
  columns := stmt.columns.map fun col => ⟨col.name, col.type, constraintOf col, col.defaultValue⟩
  indexes := (stmt.columns.filter (·.indexed)).map fun col =>
    indexDefinitionFor stmt.tableName.objectName col.name

/-- The runtime of a new table. -/
def tableOf (schema : TableSchema) : TableRuntime := ⟨schema, TableHeap.new, emptyIndexes schema⟩

/-- `CREATE TABLE`. -/
def executeCreateTable (env : Env) (s : Store) (session : SessionContext)
    (stmt : CreateTableStatement) : Store × Result QueryResult :=
  match resolveDatabaseName session stmt.tableName.databaseName with
  | .error e => (s, .error e)
  | .fault => (s, .fault)
  | .ok db =>
      match s.runtime.databases.find? db with
      | none => (s, .makeError .notFound (str "database not found: " ++ db))
      | some d =>
          if d.tables.contains stmt.tableName.objectName then
            (s, .makeError .alreadyExists
              (str "table already exists: " ++ stmt.tableName.objectName))
          else
            let schema := schemaOf db stmt
            (⟨⟨s.runtime.databases.modify db fun d =>
                { d with tables := d.tables.emplace schema.tableName (tableOf schema) }⟩,
              appendChangeEvent env s.versions .createTable db schema.tableName (some schema)
                none none⟩,
              .ok (.ofMessage (str "table created")))

/-- `DROP TABLE`. -/
def executeDropTable (env : Env) (s : Store) (session : SessionContext) (name : QualifiedName) :
    Store × Result QueryResult :=
  match resolveDatabaseName session name.databaseName with
  | .error e => (s, .error e)
  | .fault => (s, .fault)
  | .ok db =>
      match s.runtime.databases.find? db with
      | none => (s, .makeError .notFound (str "database not found: " ++ db))
      | some d =>
          match d.tables.find? name.objectName with
          | none => (s, .makeError .notFound (str "table not found: " ++ name.objectName))
          | some table =>
              (⟨⟨s.runtime.databases.modify db fun d =>
                  { d with tables := d.tables.erase name.objectName }⟩,
                appendChangeEvent env s.versions .dropTable db name.objectName
                  (some table.schema) none none⟩,
                .ok (.ofMessage (str "table dropped")))

/-! ## §3. Rows against the schema and the indexes. -/

/-- Whether a column takes NULL. -/
def allowsNull (c : Catalog.ColumnDefinition) : Bool :=
  decide (c.constraint ≠ .notNull) && decide (c.constraint ≠ .indexed)

/-- A default fills in for NULL. -/
def withDefault (c : Catalog.ColumnDefinition) (v : Value) : Value :=
  if isNull v then c.defaultValue.getD v else v

/-- `ValidateRowAgainstSchema` on the values: defaults fill in, then type and
nullability are checked, column by column. -/
def validateValues : List Catalog.ColumnDefinition → List Value → Result (List Value)
  | [], vs => .ok vs
  | _ :: _, [] => .fault
  | c :: cs, v :: vs =>
      if canAssignToType (withDefault c v) c.type (allowsNull c) then do
        let rest ← validateValues cs vs
        return withDefault c v :: rest
      else .makeError .constraintViolation
        (str "type/nullability constraint violation for column: " ++ c.name)

/-- `ValidateRowAgainstSchema`. -/
def validateRowAgainstSchema (row : RowData) (schema : TableSchema) : Result RowData := do
  let vs ← validateValues schema.columns row.values
  return { row with values := vs }

/-- The key under which a row may enter the tree of a column: neither NULL nor
taken. -/
def freshIndexKey (schema : TableSchema) (columnIndex : Nat) (row : RowData) (columnName : Str)
    (tree : IndexTree) : Result Str := do
  let (v, c) ← columnValue schema columnIndex row
  if isNull v then
    .makeError .constraintViolation (str "INDEXED column cannot be NULL: " ++ columnName)
  else
    let key ← Result.ofOption (encodeIndexKey v c.type)
    let found ← Result.ofOption (tree.find key)
    if found = [] then .ok key
    else .makeError .constraintViolation (str "duplicate value for INDEXED column: " ++ columnName)

/-- The body of the index loop of `RebuildIndexes`. -/
def checkedIndexEntry (schema : TableSchema) (row : RowData) (columnName : Str)
    (tree : IndexTree) : Result IndexTree :=
  match findColumnIndex schema columnName with
  | none => .makeError .semanticError (str "indexed column not found in schema: " ++ columnName)
  | some i => do
      let key ← freshIndexKey schema i row columnName tree
      Result.ofOption (tree.insert key row.rowId)

/-- `RebuildIndexes`: the new indexes, built aside. -/
def rebuildIndexes (schema : TableSchema) (rows : List RowData) : Result (Dict Str IndexTree) :=
  match indexRows (checkedIndexEntry schema) (emptyIndexes schema) rows with
  | (indexes, .ok ()) => .ok indexes
  | (_, .error e) => .error e
  | (_, .fault) => .fault

/-! ## §4. INSERT. -/

/-- `input_to_schema`. -/
def insertColumnMap (schema : TableSchema) (names : List Str) : Result (List Nat) :=
  Result.mapList (fun n =>
    match findColumnIndex schema n with
    | some i => .ok i
    | none => .makeError .semanticError (str "unknown column in INSERT: " ++ n)) names

/-- The literals of one input row moved to their columns. -/
def fillRow : List Nat → List Expression → List Value → Result (List Value)
  | _, [], vs => .ok vs
  | map, .literal v :: es, vs =>
      match map with
      | [] => .fault
      | i :: is => if i < vs.length then fillRow is es (vs.set i v) else .fault
  | _, _ :: _, _ =>
      .makeError .validationError (str "INSERT currently accepts only literal values")

/-- The row built from one input row, with defaults and type checks applied. -/
def buildInsertRow (schema : TableSchema) (map : List Nat) (input : List Expression) :
    Result RowData := do
  let vs ← fillRow map input (List.replicate schema.columns.length Value.null)
  validateRowAgainstSchema { values := vs } schema

/-- The loop that looks the new keys up before anything is changed. -/
def checkUnique (table : TableRuntime) (row : RowData) : Result Unit :=
  Result.forEach (fun p =>
    match findColumnIndex table.schema p.1 with
    | none => .ok ()
    | some i => do
        let _ ← freshIndexKey table.schema i row p.1 p.2
        return ()) table.indexes.entries

/-- One input row is admissible: it can be built and its keys are free. -/
def admitRow (table : TableRuntime) (map : List Nat) (input : List Expression) :
    Result RowData := do
  let row ← buildInsertRow table.schema map input
  checkUnique table row
  return row

/-- An admitted row enters heap and indexes and is logged. -/
def storeRow (env : Env) (databaseName : Str) (table : TableRuntime) (v : VersionStore)
    (row : RowData) : TableRuntime × VersionStore × Result Unit :=
  let h := table.heap.insert row
  let row' := { row with rowId := h.2 }
  let ix := updateIndexes (addIndexEntry table.schema row') table.indexes
  let table' : TableRuntime := { table with heap := h.1, indexes := ix.1 }
  match ix.2 with
  | .ok () =>
      (table', appendChangeEvent env v .insertRow databaseName table.schema.tableName none none
        (some row'), .ok ())
  | r => (table', v, r)

/-- The loop over the input rows: each row is stored before the next one is
looked at. -/
def insertRows (env : Env) (databaseName : Str) (map : List Nat) :
    List (List Expression) → TableRuntime → VersionStore →
    TableRuntime × VersionStore × Result Unit
  | [], table, v => (table, v, .ok ())
  | input :: inputs, table, v =>
      match admitRow table map input with
      | .error e => (table, v, .error e)
      | .fault => (table, v, .fault)
      | .ok row =>
          match storeRow env databaseName table v row with
          | (table', v', .ok ()) => insertRows env databaseName map inputs table' v'
          | r => r

/-- `INSERT` on the table it names. -/
def executeInsert (env : Env) (stmt : InsertStatement) (databaseName : Str)
    (table : TableRuntime) (v : VersionStore) :
    TableRuntime × VersionStore × Result QueryResult :=
  match insertColumnMap table.schema stmt.columnNames with
  | .error e => (table, v, .error e)
  | .fault => (table, v, .fault)
  | .ok map =>
      let r := insertRows env databaseName map stmt.rows table v
      (r.1, r.2.1, r.2.2.map fun _ => .ofMessage (str "rows inserted"))

/-! ## §5. UPDATE. -/

/-- The assignments in order, each evaluated on the row as the earlier ones
left it. -/
def assignValues (schema : TableSchema) : List Assignment → RowData → Result RowData
  | [], row => .ok row
  | a :: as, row =>
      match findColumnIndex schema a.columnName with
      | none => .makeError .semanticError (str "unknown column in UPDATE: " ++ a.columnName)
      | some i => do
          let v ← evaluateValueExpression a.value schema row
          if i < row.values.length then
            assignValues schema as { row with values := row.values.set i v }
          else .fault

/-- One row of `UPDATE`: `none` where the clause does not select it. -/
def updateRow (re : RegexMatch) (schema : TableSchema) (stmt : UpdateStatement) (row : RowData) :
    Result (Option RowData) := do
  let pass ← passes re schema stmt.whereClause row
  if pass then
    let row' ← assignValues schema stmt.assignments row
    return some (← validateRowAgainstSchema row' schema)
  else return none

/-- The loop of `UPDATE`: the new rows and their number; every updated row is
logged at once. -/
def updateRows (env : Env) (databaseName : Str) (schema : TableSchema) (stmt : UpdateStatement) :
    List RowData → VersionStore → VersionStore × Result (List RowData × Nat)
  | [], v => (v, .ok ([], 0))
  | row :: rows, v =>
      match updateRow env.regexMatch schema stmt row with
      | .error e => (v, .error e)
      | .fault => (v, .fault)
      | .ok none =>
          let r := updateRows env databaseName schema stmt rows v
          (r.1, r.2.map fun p => (row :: p.1, p.2))
      | .ok (some row') =>
          let r := updateRows env databaseName schema stmt rows
            (appendChangeEvent env v .updateRow databaseName schema.tableName none
              (some row) (some row'))
          (r.1, r.2.map fun p => (row' :: p.1, p.2 + 1))

/-- Index rebuild and `ReplaceAll`, which end `UPDATE`, `DELETE` and
`REVERT`: nothing is touched when the rebuild fails. -/
def replaceRows (table : TableRuntime) (v : VersionStore) (rows : List RowData)
    (message : Str) : TableRuntime × VersionStore × Result QueryResult :=
  match rebuildIndexes table.schema rows with
  | .ok indexes =>
      ({ table with heap := TableHeap.replaceAll rows, indexes := indexes }, v,
        .ok (.ofMessage message))
  | .error e => (table, v, .error e)
  | .fault => (table, v, .fault)

/-- `UPDATE` on the table it names. -/
def executeUpdate (env : Env) (stmt : UpdateStatement) (databaseName : Str)
    (table : TableRuntime) (v : VersionStore) :
    TableRuntime × VersionStore × Result QueryResult :=
  let r := updateRows env databaseName table.schema stmt table.heap.scanAll v
  match r.2 with
  | .ok (rows, n) =>
      replaceRows table r.1 rows (str "updated " ++ natToString n ++ str " row(s)")
  | .error e => (table, r.1, .error e)
  | .fault => (table, r.1, .fault)

/-! ## §6. DELETE. -/

/-- The loop of `DELETE`: the kept rows and the number of the others; every
deleted row is logged at once. -/
def deleteRows (env : Env) (databaseName : Str) (schema : TableSchema) (stmt : DeleteStatement) :
    List RowData → VersionStore → VersionStore × Result (List RowData × Nat)
  | [], v => (v, .ok ([], 0))
  | row :: rows, v =>
      match passes env.regexMatch schema stmt.whereClause row with
      | .error e => (v, .error e)
      | .fault => (v, .fault)
      | .ok true =>
          let r := deleteRows env databaseName schema stmt rows
            (appendChangeEvent env v .deleteRow databaseName schema.tableName none
              (some row) none)
          (r.1, r.2.map fun p => (p.1, p.2 + 1))
      | .ok false =>
          let r := deleteRows env databaseName schema stmt rows v
          (r.1, r.2.map fun p => (row :: p.1, p.2))

/-- `DELETE` on the table it names. -/
def executeDelete (env : Env) (stmt : DeleteStatement) (databaseName : Str)
    (table : TableRuntime) (v : VersionStore) :
    TableRuntime × VersionStore × Result QueryResult :=
  let r := deleteRows env databaseName table.schema stmt table.heap.scanAll v
  match r.2 with
  | .ok (rows, n) =>
      replaceRows table r.1 rows (str "deleted " ++ natToString n ++ str " row(s)")
  | .error e => (table, r.1, .error e)
  | .fault => (table, r.1, .fault)

/-! ## §7. SELECT. -/

/-- The heading of a selected column. -/
def itemName (item : SelectItem) : Str := item.aliasName.getD item.columnName

/-- The heading of an aggregate. -/
def aggregateName (item : SelectItem) : Str :=
  item.aliasName.getD (if item.columnName = str "*" then str "count" else item.columnName)

/-- The loop of `COUNT`. -/
def countStep (columnIndex : Option Nat) (count : Int64) (row : RowData) : Result Int64 :=
  match columnIndex with
  | none => .ok (count + 1)
  | some i => do
      let v ← Result.ofOption row.values[i]?
      return if isNull v then count else count + 1

/-- The loop of `SUM` and `AVG`: sum and number of the values so far, in 64
bits. -/
def sumStep (columnIndex : Nat) (acc : Int64 × Int64) (row : RowData) :
    Result (Int64 × Int64) := do
  match ← Result.ofOption row.values[columnIndex]? with
  | .null => return acc
  | .int n => return (acc.1 + n, acc.2 + 1)
  | .string _ => .makeError .typeMismatch (str "SUM/AVG require INT column values")

/-- The `switch` over the aggregate; no column index stands for `*`. -/
def aggregateValue (kind : AggregateKind) (columnIndex : Option Nat) (rows : List RowData) :
    Result Value :=
  match kind, columnIndex with
  | .count, i => do
      let count ← Result.foldList (countStep i) 0 rows
      return .int count
  | _, none => .makeError .semanticError (str "SUM/AVG do not support wildcard '*'")
  | .sum, some i => do
      let acc ← Result.foldList (sumStep i) (0, 0) rows
      return .int acc.1
  | .avg, some i => do
      let acc ← Result.foldList (sumStep i) (0, 0) rows
      return if acc.2 = 0 then .null else .int (acc.1 / acc.2)

/-- The column of a select item. -/
def selectColumn (schema : TableSchema) (name : Str) : Result Nat :=
  match findColumnIndex schema name with
  | some i => .ok i
  | none => .makeError .semanticError (str "unknown column in SELECT: " ++ name)

/-- One item of an aggregate query. -/
def aggregateItem (schema : TableSchema) (rows : List RowData) (item : SelectItem) :
    Result Value :=
  match item.aggregate with
  | none =>
      .makeError .semanticError (str "aggregate SELECT cannot contain non-aggregate items")
  | some kind =>
      if item.columnName = str "*" then aggregateValue kind none rows
      else do
        let i ← selectColumn schema item.columnName
        aggregateValue kind (some i) rows

/-- One item of one row. -/
def projectItem (schema : TableSchema) (row : RowData) (item : SelectItem) : Result Value := do
  let i ← selectColumn schema item.columnName
  Result.ofOption row.values[i]?

/-- `items.size() == 1 && items[0].is_wildcard`. -/
def isStar : List SelectItem → Bool
  | [item] => item.isWildcard
  | _ => false

/-- One output row. -/
def projectRow (schema : TableSchema) (items : List SelectItem) (row : RowData) :
    Result RowData :=
  if isStar items then .ok row
  else do
    let vs ← Result.mapList (projectItem schema row) items
    return { values := vs }

/-- `selected N row(s)`. -/
def selectedMessage (n : Nat) : Str := str "selected " ++ natToString n ++ str " row(s)"

/-- The headings, which the code fills in at the first row. -/
def headings (schema : TableSchema) (items : List SelectItem) (rows : List RowData) : List Str :=
  if rows = [] then []
  else if isStar items then schema.columns.map (·.name)
  else items.map itemName

/-- `SELECT` on the filtered rows. -/
def selectRows (schema : TableSchema) (items : List SelectItem) (rows : List RowData) :
    Result QueryResult :=
  if items.head?.any (·.aggregate.isSome) then do
    let vs ← Result.mapList (aggregateItem schema rows) items
    return ⟨[{ values := vs }], items.map aggregateName, selectedMessage 1⟩
  else do
    let out ← Result.mapList (projectRow schema items) rows
    return ⟨out, headings schema items rows, selectedMessage out.length⟩

/-- `SELECT` on the table it names. -/
def executeSelect (env : Env) (stmt : SelectStatement) (table : TableRuntime) :
    Result QueryResult := do
  let r ← filterRows env.regexMatch table.heap.scanAll stmt.whereClause table.schema table.indexes
  selectRows table.schema stmt.items r.1

/-! ## §8. REVERT. -/

/-- The `switch` of `ReconstructTableStateAt` on one record. -/
def applyRecord (rowsById : Dict RowId RowData) (record : ChangeRecord) : Dict RowId RowData :=
  match record.kind with
  | .createTable | .dropTable => Dict.empty
  | .insertRow | .updateRow =>
      match record.afterRow with
      | some row => rowsById.assign row.rowId row
      | none => rowsById
  | .deleteRow =>
      match record.beforeRow with
      | some row => rowsById.erase row.rowId
      | none => rowsById
  | .createDatabase | .dropDatabase => rowsById

/-- The order of row ids, with `kInvalidRowId` at the end. -/
def rowIdLe : RowId → RowId → Bool
  | _, none => true
  | none, some _ => false
  | some i, some j => decide (i ≤ j)

/-- The rows of the map, sorted by id. -/
def sortedRows (rowsById : Dict RowId RowData) : List RowData :=
  (rowsById.entries.map Prod.snd).insertionSort fun r s => rowIdLe r.rowId s.rowId

/-- `ReconstructTableStateAt`. -/
def reconstructTableStateAt (v : VersionStore) (databaseName tableName timestamp : Str) :
    List RowData :=
  sortedRows (((v.historyForTable databaseName tableName).filter
    fun r => !decide (timestamp < r.timestamp)).foldl applyRecord Dict.empty)

/-- `dddd.dd.dd-dd:dd:dd.dddddd`, with `d` for a digit. -/
def matchesTemplate : Str → Str → Bool
  | [], [] => true
  | t :: ts, c :: cs =>
      (if t = byte 'd' then decide (byte '0' ≤ c) && decide (c ≤ byte '9') else decide (t = c))
        && matchesTemplate ts cs
  | _, _ => false

/-- The `timestamp_pattern` of `REVERT`. -/
def isTimestamp (s : Str) : Bool := matchesTemplate (str "dddd.dd.dd-dd:dd:dd.dddddd") s

/-- The timestamp a `REVERT` goes to; `none` where the history offers none. -/
def revertTarget (stmt : RevertStatement) (databaseName : Str) (v : VersionStore) :
    Result (Option Str) :=
  let tableName := stmt.tableName.objectName
  match stmt.mode with
  | .latest => .ok (v.latestTimestampForTable databaseName tableName)
  | .exact =>
      if isTimestamp stmt.timestamp then
        .ok (if v.hasExactTimestampForTable databaseName tableName stmt.timestamp
          then some stmt.timestamp else none)
      else .makeError .validationError
        (str "invalid REVERT timestamp format, expected YYYY.MM.DD-HH:MM:SS.ffffff")
  | .atOrBefore =>
      if isTimestamp stmt.timestamp then
        .ok (v.latestTimestampAtOrBefore databaseName tableName stmt.timestamp)
      else .makeError .validationError
        (str "invalid REVERT timestamp format, expected YYYY.MM.DD-HH:MM:SS.ffffff")

/-- `RowValuesEqual`. -/
def rowValuesEqual : List Value → List Value → Bool
  | [], [] => true
  | a :: as, b :: bs =>
      decide (getValueType a = getValueType b) && decide (compareValues a b = some 0)
        && rowValuesEqual as bs
  | _, _ => false

/-- `current_by_id` and `target_by_id`. -/
def rowsById (rows : List RowData) : Dict RowId RowData :=
  rows.foldl (fun d row => d.emplace row.rowId row) Dict.empty

/-- The events of the first loop of `REVERT`, over the current rows: a row
the target lacks is deleted, a row it has with other values is updated. -/
def logRemoved (env : Env) (databaseName tableName : Str) (target : Dict RowId RowData)
    (v : VersionStore) (p : RowId × RowData) : VersionStore :=
  match target.find? p.1 with
  | none => appendChangeEvent env v .deleteRow databaseName tableName none (some p.2) none
  | some row =>
      if rowValuesEqual p.2.values row.values then v
      else appendChangeEvent env v .updateRow databaseName tableName none (some p.2) (some row)

/-- The events of the second loop, over the target rows. -/
def logRestored (env : Env) (databaseName tableName : Str) (current : Dict RowId RowData)
    (v : VersionStore) (p : RowId × RowData) : VersionStore :=
  if current.contains p.1 then v
  else appendChangeEvent env v .insertRow databaseName tableName none none (some p.2)

/-- All events of a `REVERT` from `current` to `target`. -/
def logRevert (env : Env) (databaseName tableName : Str) (current target : Dict RowId RowData)
    (v : VersionStore) : VersionStore :=
  target.entries.foldl (logRestored env databaseName tableName current)
    (current.entries.foldl (logRemoved env databaseName tableName target) v)

/-- `REVERT` on the table it names. -/
def executeRevert (env : Env) (stmt : RevertStatement) (databaseName : Str)
    (table : TableRuntime) (v : VersionStore) :
    TableRuntime × VersionStore × Result QueryResult :=
  match revertTarget stmt databaseName v with
  | .error e => (table, v, .error e)
  | .fault => (table, v, .fault)
  | .ok none => (table, v, .makeError .notFound (str "no history available for REVERT"))
  | .ok (some timestamp) =>
      let rows := reconstructTableStateAt v databaseName stmt.tableName.objectName timestamp
      if rows.any fun row => decide (row.values.length ≠ table.schema.columns.length) then
        (table, v, .makeError .validationError (str "history row shape mismatch for table schema"))
      else
        replaceRows table
          (logRevert env databaseName table.schema.tableName (rowsById table.heap.scanAll)
            (rowsById rows) v)
          rows (str "reverted to " ++ timestamp)

/-! ## §9. Dispatch. -/

/-- `CHECK INDEX`. -/
def executeCheckIndex (s : Store) : Result QueryResult := do
  validateRuntimeIndexConsistency s.runtime
  return .ofMessage (str "index check passed")

/-- `REBUILD INDEX`. -/
def executeRebuildIndex (s : Store) : Store × Result QueryResult :=
  let r := rebuildRuntimeIndexes s.runtime
  ({ s with runtime := r.1 }, do
    r.2
    return .ofMessage (str "index rebuild completed"))

/-- `ExecutionEngine::Execute`: `detail` is the text of the plan, which only
the last message shows. -/
def execute (env : Env) (s : Store) (session : SessionContext) (statement : Statement)
    (detail : Str) : Store × SessionContext × Result QueryResult :=
  match statement with
  | .createDatabase name =>
      let r := executeCreateDatabase env s name
      (r.1, session, r.2)
  | .useDatabase name =>
      let r := executeUse s session name
      (s, r.1, r.2)
  | .dropDatabase name => executeDropDatabase env s session name
  | .createTable stmt =>
      let r := executeCreateTable env s session stmt
      (r.1, session, r.2)
  | .dropTable name =>
      let r := executeDropTable env s session name
      (r.1, session, r.2)
  | .insert stmt =>
      let r := withTable s session stmt.tableName (executeInsert env stmt)
      (r.1, session, r.2)
  | .update stmt =>
      let r := withTable s session stmt.tableName (executeUpdate env stmt)
      (r.1, session, r.2)
  | .delete stmt =>
      let r := withTable s session stmt.tableName (executeDelete env stmt)
      (r.1, session, r.2)
  | .select stmt =>
      let r := withTable s session stmt.tableName
        fun _ table v => (table, v, executeSelect env stmt table)
      (r.1, session, r.2)
  | .revert stmt =>
      let r := withTable s session stmt.tableName (executeRevert env stmt)
      (r.1, session, r.2)
  | .checkIndex => (s, session, executeCheckIndex s)
  | .rebuildIndex =>
      let r := executeRebuildIndex s
      (r.1, session, r.2)
  | .unknown _ | .beginTransaction | .commitTransaction | .rollbackTransaction =>
      (s, session, .makeError .notImplemented (str "plan kind is not implemented: " ++ detail))

end CustomDbms.Execution
