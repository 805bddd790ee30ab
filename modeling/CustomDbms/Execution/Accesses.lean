/-
  CustomDbms.Execution.Accesses
  ─────────────────────────────
  **THE ACCESSES OF THE EXECUTOR** (`src/execution/execution_engine.cpp`).

  The functions of `ExecutionEngine` once more, with every subscript `v[i]` and
  every `*o` of an optional recorded in the order in which the code makes them.
  Each has the name of the function it records; forgetting the accesses gives
  that function back (`outcome_…`).  `Result::value` and `Result::error` are
  read behind `ok()` only, which the type of the model says.
-/
import CustomDbms.Execution.ExecutionEngine
import CustomDbms.Lib.Accesses

namespace CustomDbms.Execution

open CustomDbms.Common CustomDbms.Catalog CustomDbms.Core CustomDbms.Lib CustomDbms.Parser
open CustomDbms.Storage CustomDbms.Versioning

/-! ## §1. Results. -/

instance fallibleResult : Fallible Result where
  value? r := match r with
    | .ok a => some a
    | .error _ => none
    | .fault => none
  undefined := .fault

theorem value?_eq_some {α : Type} {r : Result α} {a : α} :
    Fallible.value? r = some a ↔ r = .ok a := by
  cases r <;> simp [Fallible.value?]

/-- A computation of the executor with its accesses. -/
abbrev Run (α : Type) := Traced Result α

namespace Accesses

open Traced (lift read write deref)

/-! ## §2. Expressions. -/

/-- `FindColumnIndex`. -/
def findColumnFrom (columns : List Catalog.ColumnDefinition) (columnName : Str) :
    List Nat → Run (Option Nat)
  | [] => pure none
  | i :: is => do
      let c ← read columns i
      if c.name = columnName then return some i else findColumnFrom columns columnName is

@[inherit_doc findColumnFrom]
def findColumnIndex (schema : TableSchema) (columnName : Str) : Run (Option Nat) :=
  findColumnFrom schema.columns columnName (List.range schema.columns.length)

/-- `FindColumnIndex` as most callers use it: an error where there is no such
column, and the index read from the optional. -/
def columnIndexOr (schema : TableSchema) (columnName : Str) (missing : Result Nat) : Run Nat := do
  let columnIndex ← findColumnIndex schema columnName
  if columnIndex.isSome then deref columnIndex else lift missing

/-- `EvaluateValueExpression`. -/
def evaluateValueExpression (expr : Expression) (schema : TableSchema) (row : RowData) :
    Run Value :=
  match expr with
  | .literal v => pure v
  | .columnReference _ _ columnName => do
      let i ← columnIndexOr schema columnName
        (.makeError .semanticError (str "unknown column: " ++ columnName))
      read row.values i
  | _ => lift (.makeError .notImplemented (str "expression is not a scalar value expression"))

/-- An operand of `BETWEEN` or `LIKE`. -/
def operand {α : Type} (x : Run α) : Run (Option α) := ⟨x.trace, Execution.operand x.outcome⟩

/-- `EvaluatePredicate`. -/
def evaluatePredicate (re : RegexMatch) (schema : TableSchema) (row : RowData) :
    Expression → Run Bool
  | .logical op left right => do
      let l ← evaluatePredicate re schema row left
      let r ← evaluatePredicate re schema row right
      return match op with
        | .and => l && r
        | .or => l || r
  | .binaryComparison op left right => do
      let l ← evaluateValueExpression left schema row
      let r ← evaluateValueExpression right schema row
      if getValueType l ≠ getValueType r then
        lift (.makeError .typeMismatch (str "comparison type mismatch"))
      else
        let compared ← lift (Result.ofOption (compareValues l r))
        return compareWith op compared
  | .between value lowerBound upperBound => do
      let v ← operand (evaluateValueExpression value schema row)
      let lo ← operand (evaluateValueExpression lowerBound schema row)
      let hi ← operand (evaluateValueExpression upperBound schema row)
      lift (evaluateBetween v lo hi)
  | .like value pattern => do
      let v ← operand (evaluateValueExpression value schema row)
      let p ← operand (evaluateValueExpression pattern schema row)
      lift (evaluateLike re v p)
  | expr => do
      let v ← evaluateValueExpression expr schema row
      return truthy v

/-- `where_clause.has_value()` and then the predicate. -/
def passes (re : RegexMatch) (schema : TableSchema) (whereClause : Option Expression)
    (row : RowData) : Run Bool :=
  if whereClause.isSome then do
    let expr ← deref whereClause
    evaluatePredicate re schema row expr
  else pure true

/-! ## §3. `FilterRows`. -/

/-- The loop over all rows. -/
def filterScan (re : RegexMatch) (schema : TableSchema) (whereClause : Option Expression) :
    List RowData → Run (List RowData)
  | [] => pure []
  | row :: rows => do
      let pass ← passes re schema whereClause row
      let rest ← filterScan re schema whereClause rows
      return if pass then row :: rest else rest

/-- `append_if_passes` over the candidates of an index. -/
def filterCandidates (re : RegexMatch) (schema : TableSchema) (whereClause : Option Expression)
    (rows : List RowData) : List RowId → Run (List RowData)
  | [] => pure []
  | i :: ids =>
      match rows.find? (fun row => decide (row.rowId = i)) with
      | none => filterCandidates re schema whereClause rows ids
      | some row => do
          let pass ← passes re schema whereClause row
          let rest ← filterCandidates re schema whereClause rows ids
          return if pass then row :: rest else rest

/-- `EncodeIndexKey(value, schema.columns[*column_index].type)`. -/
def encodeAs (schema : TableSchema) (columnIndex : Option Nat) (v : Value) : Run Str := do
  let i ← deref columnIndex
  let c ← read schema.columns i
  lift (Result.ofOption (encodeIndexKey v c.type))

/-- The index lookup of `FilterRows`. -/
def indexCandidates (schema : TableSchema) (indexes : Dict Str IndexTree) :
    Option Expression → Run (Option (List RowId))
  | some (.binaryComparison op (.columnReference _ _ column) (.literal v)) => do
      let columnIndex ← findColumnIndex schema column
      match indexes.find? column with
      | none => return none
      | some tree =>
          if columnIndex.isSome then do
            let encoded ← encodeAs schema columnIndex v
            lift (comparisonCandidates tree op encoded)
          else return none
  | some (.between (.columnReference _ _ column) (.literal lower) (.literal upper)) => do
      let columnIndex ← findColumnIndex schema column
      match indexes.find? column with
      | none => return none
      | some tree =>
          if columnIndex.isSome then do
            let lowerKey ← encodeAs schema columnIndex lower
            let upperKey ← encodeAs schema columnIndex upper
            lift (some <$> scanRowIds tree lowerKey upperKey)
          else return none
  | _ => pure none

/-- `FilterRows`. -/
def filterRows (re : RegexMatch) (rows : List RowData) (whereClause : Option Expression)
    (schema : TableSchema) (indexes : Dict Str IndexTree) : Run (List RowData × Bool) := do
  match ← indexCandidates schema indexes whereClause with
  | some ids =>
      let found ← filterCandidates re schema whereClause rows ids
      return (found, true)
  | none =>
      let found ← filterScan re schema whereClause rows
      return (found, false)

/-! ## §4. Rows against the schema and the indexes. -/

/-- The default of a column in place of NULL. -/
def fillDefault (c : Catalog.ColumnDefinition) (values : List Value) (i : Nat) :
    Run (List Value) := do
  let v ← read values i
  if isNull v && c.defaultValue.isSome then do
    let v ← deref c.defaultValue
    write values i v
  else return values

/-- One turn of `ValidateRowAgainstSchema`. -/
def validateColumn (columns : List Catalog.ColumnDefinition) (values : List Value) (i : Nat) :
    Run (List Value) := do
  let c ← read columns i
  let values ← fillDefault c values i
  -- once to be interned, once to be checked
  let _ ← read values i
  let v ← read values i
  if canAssignToType v c.type (allowsNull c) then pure values
  else lift (.makeError .constraintViolation
    (str "type/nullability constraint violation for column: " ++ c.name))

/-- `ValidateRowAgainstSchema`. -/
def validateRowAgainstSchema (row : RowData) (schema : TableSchema) : Run RowData := do
  let vs ← (List.range schema.columns.length).foldlM (validateColumn schema.columns) row.values
  return { row with values := vs }

/-- The key under which a row may enter the tree of a column. -/
def freshIndexKey (schema : TableSchema) (columnIndex : Option Nat) (row : RowData)
    (columnName : Str) (tree : IndexTree) : Run Str := do
  let i ← deref columnIndex
  let v ← read row.values i
  if isNull v then
    lift (.makeError .constraintViolation (str "INDEXED column cannot be NULL: " ++ columnName))
  else do
    let key ← encodeAs schema columnIndex v
    let found ← lift (Result.ofOption (tree.find key))
    if found = [] then return key
    else lift (.makeError .constraintViolation
      (str "duplicate value for INDEXED column: " ++ columnName))

/-- `EncodeIndexKey` of a row's value and `Insert` into the tree. -/
def insertEntry (schema : TableSchema) (columnIndex : Option Nat) (row : RowData)
    (tree : IndexTree) : Run IndexTree := do
  let i ← deref columnIndex
  let v ← read row.values i
  let key ← encodeAs schema columnIndex v
  lift (Result.ofOption (tree.insert key row.rowId))

/-- The body of the index loop of `INSERT`. -/
def addIndexEntry (schema : TableSchema) (row : RowData) (columnName : Str) (tree : IndexTree) :
    Run IndexTree := do
  let columnIndex ← findColumnIndex schema columnName
  if columnIndex.isSome then insertEntry schema columnIndex row tree else return tree

/-- The body of the index loop of `RebuildIndexes`. -/
def checkedIndexEntry (schema : TableSchema) (row : RowData) (columnName : Str)
    (tree : IndexTree) : Run IndexTree := do
  let columnIndex ← findColumnIndex schema columnName
  if columnIndex.isSome then do
    let key ← freshIndexKey schema columnIndex row columnName tree
    lift (Result.ofOption (tree.insert key row.rowId))
  else lift (.makeError .semanticError
    (str "indexed column not found in schema: " ++ columnName))

/-- The loop over the trees of a table. -/
def updateEntries (f : Str → IndexTree → Run IndexTree) (entries : List (Str × IndexTree)) :
    Run (List (Str × IndexTree)) :=
  entries.mapM' fun p => do
    let tree ← f p.1 p.2
    return (p.1, tree)

/-- The loop over the rows around it. -/
def indexRows (f : RowData → Str → IndexTree → Run IndexTree) (entries : List (Str × IndexTree))
    (rows : List RowData) : Run (List (Str × IndexTree)) :=
  rows.foldlM (fun entries row => updateEntries (f row) entries) entries

/-- `RebuildIndexes`. -/
def rebuildIndexes (schema : TableSchema) (rows : List RowData) :
    Run (List (Str × IndexTree)) :=
  indexRows (checkedIndexEntry schema) (emptyIndexes schema).entries rows

/-- The row id `AppendChangeEvent` notes. -/
def eventRowId (beforeRow afterRow : Option RowData) : Run RowId :=
  if afterRow.isSome then do
    let row ← deref afterRow
    return row.rowId
  else if beforeRow.isSome then do
    let row ← deref beforeRow
    return row.rowId
  else return kInvalidRowId

/-! ## §5. INSERT. -/

/-- `input_to_schema`. -/
def insertColumnMap (schema : TableSchema) (names : List Str) : Run (List Nat) :=
  names.mapM' fun n => columnIndexOr schema n
    (.makeError .semanticError (str "unknown column in INSERT: " ++ n))

/-- `row.values[input_to_schema[i]] = literal->value`. -/
def fillCell (map : List Nat) (input : List Expression) (values : List Value) (i : Nat) :
    Run (List Value) := do
  match ← read input i with
  | .literal v => do
      let column ← read map i
      write values column v
  | _ => lift (.makeError .validationError (str "INSERT currently accepts only literal values"))

/-- The literals of one input row moved to their columns. -/
def fillRow (map : List Nat) (input : List Expression) (values : List Value) : Run (List Value) :=
  (List.range input.length).foldlM (fillCell map input) values

/-- The row built from one input row. -/
def buildInsertRow (schema : TableSchema) (map : List Nat) (input : List Expression) :
    Run RowData := do
  let vs ← fillRow map input (List.replicate schema.columns.length Value.null)
  validateRowAgainstSchema { values := vs } schema

/-- The look-up of one new key. -/
def checkEntry (schema : TableSchema) (row : RowData) (p : Str × IndexTree) : Run Unit := do
  let columnIndex ← findColumnIndex schema p.1
  if columnIndex.isSome then do
    let _ ← freshIndexKey schema columnIndex row p.1 p.2
    return ()
  else return ()

/-- One input row is admissible. -/
def admitRow (table : TableRuntime) (map : List Nat) (input : List Expression) : Run RowData := do
  let row ← buildInsertRow table.schema map input
  table.indexes.entries.forM (checkEntry table.schema row)
  return row

/-- An admitted row enters heap and indexes and is logged. -/
def storeRow (table : TableRuntime) (row : RowData) : Run Unit := do
  let row' := { row with rowId := (table.heap.insert row).2 }
  let _ ← updateEntries (addIndexEntry table.schema row') table.indexes.entries
  let _ ← eventRowId none (some row')
  return ()

/-- The loop over the input rows. -/
def insertRows (env : Env) (databaseName : Str) (map : List Nat) :
    List (List Expression) → TableRuntime → VersionStore → Run Unit
  | [], _, _ => pure ()
  | input :: inputs, table, v => do
      let row ← admitRow table map input
      storeRow table row
      let stored := Execution.storeRow env databaseName table v row
      insertRows env databaseName map inputs stored.1 stored.2.1

/-- `INSERT` on the table it names. -/
def executeInsert (env : Env) (stmt : InsertStatement) (databaseName : Str)
    (table : TableRuntime) (v : VersionStore) : Run Unit := do
  let map ← insertColumnMap table.schema stmt.columnNames
  insertRows env databaseName map stmt.rows table v

/-! ## §6. UPDATE and DELETE. -/

/-- The assignments in order. -/
def assignValues (schema : TableSchema) : List Assignment → RowData → Run RowData
  | [], row => pure row
  | a :: as, row => do
      let columnIndex ← findColumnIndex schema a.columnName
      if columnIndex.isSome then do
        let v ← evaluateValueExpression a.value schema row
        let i ← deref columnIndex
        let vs ← write row.values i v
        assignValues schema as { row with values := vs }
      else lift (.makeError .semanticError (str "unknown column in UPDATE: " ++ a.columnName))

/-- One row of `UPDATE`: the row it leaves. -/
def updateRow (re : RegexMatch) (schema : TableSchema) (stmt : UpdateStatement) (row : RowData) :
    Run RowData := do
  let pass ← passes re schema stmt.whereClause row
  if pass then do
    let row' ← assignValues schema stmt.assignments row
    let row' ← validateRowAgainstSchema row' schema
    let _ ← eventRowId (some row) (some row')
    return row'
  else return row

/-- `UPDATE` on the table it names. -/
def executeUpdate (env : Env) (stmt : UpdateStatement) (table : TableRuntime) : Run Unit := do
  let rows ← table.heap.scanAll.mapM' (updateRow env.regexMatch table.schema stmt)
  let _ ← rebuildIndexes table.schema rows
  return ()

/-- The loop of `DELETE`: the kept rows. -/
def deleteRows (re : RegexMatch) (schema : TableSchema) (stmt : DeleteStatement) :
    List RowData → Run (List RowData)
  | [] => pure []
  | row :: rows => do
      let pass ← passes re schema stmt.whereClause row
      if pass then do
        let _ ← eventRowId (some row) none
        deleteRows re schema stmt rows
      else do
        let rest ← deleteRows re schema stmt rows
        return row :: rest

/-- `DELETE` on the table it names. -/
def executeDelete (env : Env) (stmt : DeleteStatement) (table : TableRuntime) : Run Unit := do
  let rows ← deleteRows env.regexMatch table.schema stmt table.heap.scanAll
  let _ ← rebuildIndexes table.schema rows
  return ()

/-! ## §7. SELECT. -/

/-- The heading of an item, its alias where it has one. -/
def headingOf (item : SelectItem) (otherwise : Str) : Run Str :=
  if item.aliasName.isSome then deref item.aliasName else pure otherwise

/-- The loop of `COUNT`. -/
def countStep (item : SelectItem) (columnIndex : Option Nat) (count : Int64) (row : RowData) :
    Run Int64 :=
  if item.columnName = str "*" then return count + 1
  else do
    let i ← deref columnIndex
    let v ← read row.values i
    return if isNull v then count else count + 1

/-- The loop of `SUM` and `AVG`. -/
def sumStep (columnIndex : Option Nat) (acc : Int64 × Int64) (row : RowData) :
    Run (Int64 × Int64) := do
  let i ← deref columnIndex
  match ← read row.values i with
  | .null => return acc
  | .int n => return (acc.1 + n, acc.2 + 1)
  | .string _ => lift (.makeError .typeMismatch (str "SUM/AVG require INT column values"))

/-- The `switch` over the aggregate. -/
def aggregateValue (item : SelectItem) (columnIndex : Option Nat) (rows : List RowData) :
    Run Value := do
  match ← deref item.aggregate with
  | .count => do
      let count ← rows.foldlM (countStep item columnIndex) 0
      return .int count
  | _ =>
      if item.columnName = str "*" then
        lift (.makeError .semanticError (str "SUM/AVG do not support wildcard '*'"))
      else do
        let acc ← rows.foldlM (sumStep columnIndex) (0, 0)
        let kind ← deref item.aggregate
        if kind = .sum then return .int acc.1
        else return if acc.2 = 0 then .null else .int (acc.1 / acc.2)

/-- The column of an aggregate; none for `*`. -/
def aggregateColumn (schema : TableSchema) (item : SelectItem) : Run (Option Nat) :=
  if item.columnName = str "*" then return none
  else do
    let columnIndex ← findColumnIndex schema item.columnName
    if columnIndex.isSome then return columnIndex
    else lift (.makeError .semanticError (str "unknown column in SELECT: " ++ item.columnName))

/-- One item of an aggregate query. -/
def aggregateItem (schema : TableSchema) (rows : List RowData) (item : SelectItem) :
    Run Value :=
  if item.aggregate.isSome then do
    let columnIndex ← aggregateColumn schema item
    let _ ← headingOf item item.columnName
    aggregateValue item columnIndex rows
  else lift (.makeError .semanticError
    (str "aggregate SELECT cannot contain non-aggregate items"))

/-- One item of one row. -/
def projectItem (schema : TableSchema) (row : RowData) (item : SelectItem) : Run Value := do
  let i ← columnIndexOr schema item.columnName
    (.makeError .semanticError (str "unknown column in SELECT: " ++ item.columnName))
  read row.values i

/-- `items.size() == 1 && items[0].is_wildcard`. -/
def isStar (items : List SelectItem) : Run Bool :=
  if items.length = 1 then do
    let item ← read items 0
    return item.isWildcard
  else return false

/-- The headings, which the first row brings. -/
def headings (items : List SelectItem) (first : Bool) : Run (List Str) :=
  if first then items.mapM' fun item => headingOf item item.columnName else pure []

/-- One output row. -/
def projectRow (schema : TableSchema) (items : List SelectItem) (first : Bool) (row : RowData) :
    Run RowData := do
  let star ← isStar items
  if star then return row
  else do
    let _ ← headings items first
    let vs ← items.mapM' (projectItem schema row)
    return { values := vs }

/-- The output rows. -/
def projectRows (schema : TableSchema) (items : List SelectItem) :
    Bool → List RowData → Run (List RowData)
  | _, [] => pure []
  | first, row :: rows => do
      let out ← projectRow schema items first row
      let rest ← projectRows schema items false rows
      return out :: rest

/-- `!items.empty() && items[0].aggregate.has_value()`. -/
def isAggregateQuery (items : List SelectItem) : Run Bool :=
  if items = [] then return false
  else do
    let item ← read items 0
    return item.aggregate.isSome

/-- `SELECT` on the filtered rows. -/
def selectRows (schema : TableSchema) (items : List SelectItem) (rows : List RowData) :
    Run Unit := do
  let isAggregate ← isAggregateQuery items
  if isAggregate then do
    let _ ← items.mapM' (aggregateItem schema rows)
    return ()
  else do
    let _ ← projectRows schema items true rows
    return ()

/-- `SELECT` on the table it names. -/
def executeSelect (env : Env) (stmt : SelectStatement) (table : TableRuntime) : Run Unit := do
  let found ← filterRows env.regexMatch table.heap.scanAll stmt.whereClause table.schema
    table.indexes
  selectRows table.schema stmt.items found.1

/-! ## §8. REVERT. -/

/-- The `switch` of `ReconstructTableStateAt` on one record. -/
def applyRecord (rowsById : Dict RowId RowData) (record : ChangeRecord) :
    Run (Dict RowId RowData) :=
  match record.kind with
  | .createTable | .dropTable => pure Dict.empty
  | .insertRow | .updateRow =>
      if record.afterRow.isSome then do
        let key ← deref record.afterRow
        let row ← deref record.afterRow
        return rowsById.assign key.rowId row
      else pure rowsById
  | .deleteRow =>
      if record.beforeRow.isSome then do
        let row ← deref record.beforeRow
        return rowsById.erase row.rowId
      else pure rowsById
  | .createDatabase | .dropDatabase => pure rowsById

/-- `ReconstructTableStateAt`. -/
def reconstructTableStateAt (v : VersionStore) (databaseName tableName timestamp : Str) :
    Run (List RowData) := do
  let rowsById ← ((v.historyForTable databaseName tableName).filter
    fun r => !decide (timestamp < r.timestamp)).foldlM applyRecord Dict.empty
  return sortedRows rowsById

/-- The loop of `RowValuesEqual`. -/
def valuesEqualFrom (lhs rhs : List Value) : List Nat → Run Bool
  | [] => pure true
  | i :: is => do
      let a ← read lhs i
      let b ← read rhs i
      if getValueType a ≠ getValueType b then return false
      else do
        let a ← read lhs i
        let b ← read rhs i
        if compareValues a b ≠ some 0 then return false else valuesEqualFrom lhs rhs is

/-- `RowValuesEqual`. -/
def rowValuesEqual (lhs rhs : List Value) : Run Bool :=
  if lhs.length ≠ rhs.length then return false
  else valuesEqualFrom lhs rhs (List.range lhs.length)

/-- One turn of the first loop of `REVERT`. -/
def logRemoved (target : Dict RowId RowData) (p : RowId × RowData) : Run Unit :=
  match target.find? p.1 with
  | none => do
      let _ ← eventRowId (some p.2) none
      return ()
  | some row => do
      let same ← rowValuesEqual p.2.values row.values
      if same then return ()
      else do
        let _ ← eventRowId (some p.2) (some row)
        return ()

/-- One turn of the second loop. -/
def logRestored (current : Dict RowId RowData) (p : RowId × RowData) : Run Unit :=
  if current.contains p.1 then return ()
  else do
    let _ ← eventRowId none (some p.2)
    return ()

/-- `REVERT` on the table it names. -/
def executeRevert (stmt : RevertStatement) (databaseName : Str) (table : TableRuntime)
    (v : VersionStore) : Run Unit := do
  let target ← lift (revertTarget stmt databaseName v)
  if target.isSome then do
    let timestamp ← deref target
    let rows ← reconstructTableStateAt v databaseName stmt.tableName.objectName timestamp
    if rows.any fun row => decide (row.values.length ≠ table.schema.columns.length) then
      lift (.makeError .validationError (str "history row shape mismatch for table schema"))
    else do
      (rowsById table.heap.scanAll).entries.forM (logRemoved (rowsById rows))
      (rowsById rows).entries.forM (logRestored (rowsById table.heap.scanAll))
      let _ ← rebuildIndexes table.schema rows
      return ()
  else lift (.makeError .notFound (str "no history available for REVERT"))

/-! ## §9. CHECK INDEX and REBUILD INDEX. -/

/-- `found.size() != 1 || found[0] != row.row_id`. -/
def isMismatch (found : List RowId) (row : RowData) : Run Bool :=
  if found.length ≠ 1 then return true
  else do
    let id ← read found 0
    return decide (id ≠ row.rowId)

/-- The loop of `ValidateRuntimeIndexConsistency` over the rows of one index. -/
def validateIndexRows (path : Str) (schema : TableSchema) (tree : IndexTree)
    (columnIndex : Option Nat) : List Str → List RowData → Run Unit
  | _, [] => pure ()
  | seenKeys, row :: rows => do
      let i ← deref columnIndex
      let v ← read row.values i
      let key ← encodeAs schema columnIndex v
      if key ∈ seenKeys then
        lift (.makeError .storageError (str "duplicate indexed key in heap for " ++ path))
      else do
        let found ← lift (Result.ofOption (tree.find key))
        let mismatch ← isMismatch found row
        if mismatch then
          lift (.makeError .storageError (str "index lookup mismatch for " ++ path))
        else validateIndexRows path schema tree columnIndex (key :: seenKeys) rows

/-- One index of one table. -/
def validateIndex (databaseName tableName : Str) (table : TableRuntime) (columnName : Str)
    (tree : IndexTree) : Run Unit :=
  let path := indexPath databaseName tableName columnName
  if !tree.validateCanonicalInvariants then
    lift (.makeError .storageError (str "index invariants broken for " ++ path))
  else do
    let columnIndex ← findColumnIndex table.schema columnName
    if columnIndex.isSome then
      validateIndexRows path table.schema tree columnIndex [] table.heap.scanAll
    else lift (.makeError .storageError (str "indexed column missing in schema: " ++ path))

/-- `ValidateRuntimeIndexConsistency`. -/
def validateRuntimeIndexConsistency (state : RuntimeState) : Run Unit :=
  state.databases.entries.forM fun d =>
    d.2.tables.entries.forM fun t =>
      t.2.indexes.entries.forM fun ix => validateIndex d.1 t.1 t.2 ix.1 ix.2

/-- The body of the index loop of `RebuildRuntimeIndexes`. -/
def rebuildIndexEntry (databaseName tableName : Str) (schema : TableSchema) (row : RowData)
    (columnName : Str) (tree : IndexTree) : Run IndexTree := do
  let columnIndex ← findColumnIndex schema columnName
  if columnIndex.isSome then insertEntry schema columnIndex row tree
  else lift (.makeError .storageError (str "indexed column missing in schema during rebuild: "
    ++ indexPath databaseName tableName columnName))

/-- The indexes of one table rebuilt. -/
def rebuildTableIndexes (databaseName : Str) (p : Str × TableRuntime) : Run Unit := do
  let _ ← indexRows (rebuildIndexEntry databaseName p.1 p.2.schema)
    (emptyIndexes p.2.schema).entries p.2.heap.scanAll
  return ()

/-- `RebuildRuntimeIndexes`: the check at its end reads the state the loops
leave. -/
def rebuildRuntimeIndexes (state : RuntimeState) : Run Unit := do
  state.databases.entries.forM fun d => d.2.tables.entries.forM (rebuildTableIndexes d.1)
  validateRuntimeIndexConsistency (Core.rebuildRuntimeIndexes state).1

/-! ## §10. Dispatch. -/

/-- `ResolveDatabaseName`. -/
def resolveDatabaseName (session : SessionContext) (requested : Option Str) : Run Str :=
  if requested.isSome then deref requested
  else if session.currentDatabase = [] then
    lift (.makeError .validationError (str "no active database selected"))
  else pure session.currentDatabase

/-- The preamble of the statements on one table. -/
def withTable (s : Store) (session : SessionContext) (name : QualifiedName)
    (f : Str → TableRuntime → VersionStore → Run Unit) : Run Unit := do
  let db ← resolveDatabaseName session name.databaseName
  match s.runtime.databases.find? db with
  | none => lift (.makeError .notFound (str "database not found: " ++ db))
  | some d =>
      match d.tables.find? name.objectName with
      | none => lift (.makeError .notFound (str "table not found: " ++ name.objectName))
      | some table => f db table s.versions

/-- `CREATE TABLE`: the defaults of the new columns are interned. -/
def executeCreateTable (s : Store) (session : SessionContext) (stmt : CreateTableStatement) :
    Run Unit := do
  let db ← resolveDatabaseName session stmt.tableName.databaseName
  match s.runtime.databases.find? db with
  | none => lift (.makeError .notFound (str "database not found: " ++ db))
  | some d =>
      if d.tables.contains stmt.tableName.objectName then
        lift (.makeError .alreadyExists
          (str "table already exists: " ++ stmt.tableName.objectName))
      else stmt.columns.forM fun col =>
        if col.defaultValue.isSome then do
          let _ ← deref col.defaultValue
          return ()
        else return ()

/-- **`ExecutionEngine::Execute`.** -/
def execute (env : Env) (s : Store) (session : SessionContext) (statement : Statement)
    (detail : Str) : Run Unit :=
  match statement with
  | .createDatabase name =>
      lift ((executeCreateDatabase env s name).2.map fun _ => ())
  | .useDatabase name => lift ((executeUse s session name).2.map fun _ => ())
  | .dropDatabase name =>
      lift ((executeDropDatabase env s session name).2.2.map fun _ => ())
  | .createTable stmt => executeCreateTable s session stmt
  | .dropTable name => withTable s session name fun _ _ _ => pure ()
  | .insert stmt => withTable s session stmt.tableName (executeInsert env stmt)
  | .update stmt =>
      withTable s session stmt.tableName fun _ table _ => executeUpdate env stmt table
  | .delete stmt =>
      withTable s session stmt.tableName fun _ table _ => executeDelete env stmt table
  | .select stmt =>
      withTable s session stmt.tableName fun _ table _ => executeSelect env stmt table
  | .revert stmt => withTable s session stmt.tableName (executeRevert stmt)
  | .checkIndex => validateRuntimeIndexConsistency s.runtime
  | .rebuildIndex => rebuildRuntimeIndexes s.runtime
  | .unknown _ | .beginTransaction | .commitTransaction | .rollbackTransaction =>
      lift (.makeError .notImplemented (str "plan kind is not implemented: " ++ detail))

end Accesses

end CustomDbms.Execution
