/-
  CustomDbms.Server.Statements
  ────────────────────────────
  **WHAT THE SERVER READS OFF A STATEMENT** (`src/server/entrypoint.cpp`: the
  permission it needs, the database it is authorized on, the node it goes to,
  and the texts the server renders).

  `std::hash` is a parameter.  `RouteValueToNode` hashes a NULL through
  `AsString`, which throws.
-/
import CustomDbms.Catalog.Rbac
import CustomDbms.Common.ErrorContract
import CustomDbms.Core.RuntimeState
import CustomDbms.Execution.ExecutionEngine
import CustomDbms.Parser.Ast

namespace CustomDbms.Server

open CustomDbms.Common CustomDbms.Lib CustomDbms.Parser CustomDbms.Catalog CustomDbms.Core
open CustomDbms.Execution

/-! ## §1. Kinds of statements. -/

/-- `IsSelectStatement`. -/
def isSelectStatement : Statement → Bool
  | .select _ => true
  | _ => false

/-- `IsMutatingStatement` of the server; CHECK INDEX counts as mutating here. -/
def isMutatingStatement : Statement → Bool
  | .select _ | .useDatabase _ | .unknown _ => false
  | _ => true

/-- `IsMetadataStatement`. -/
def isMetadataStatement : Statement → Bool
  | .createDatabase _ | .dropDatabase _ | .useDatabase _ | .createTable _ | .dropTable _ => true
  | _ => false

/-- `ShouldBroadcast`. -/
def shouldBroadcast : Statement → Bool
  | .createDatabase _ | .dropDatabase _ | .useDatabase _ | .createTable _ | .dropTable _
  | .revert _ | .beginTransaction | .commitTransaction | .rollbackTransaction => true
  | .update stmt => stmt.whereClause.isNone
  | .delete stmt => stmt.whereClause.isNone
  | _ => false

/-- `RequiredPermission`. -/
def requiredPermission : Statement → Option Permission
  | .select _ | .useDatabase _ => some .read
  | .insert _ | .update _ | .delete _ | .revert _ | .beginTransaction | .commitTransaction
  | .rollbackTransaction => some .write
  | .createDatabase _ | .createTable _ => some .createTable
  | .dropTable _ => some .dropTable
  | .dropDatabase _ => some .dropDatabase
  | .unknown _ | .checkIndex | .rebuildIndex => none

/-- `ResolveAuthorizationDatabaseName`. -/
def resolveAuthorizationDatabaseName (statement : Statement) (session : SessionContext) : Str :=
  match statement with
  | .useDatabase databaseName | .createDatabase databaseName | .dropDatabase databaseName =>
      databaseName
  | .createTable stmt => stmt.tableName.databaseName.getD session.currentDatabase
  | .dropTable tableName => tableName.databaseName.getD session.currentDatabase
  | .insert stmt => stmt.tableName.databaseName.getD session.currentDatabase
  | .update stmt => stmt.tableName.databaseName.getD session.currentDatabase
  | .delete stmt => stmt.tableName.databaseName.getD session.currentDatabase
  | .select stmt => stmt.tableName.databaseName.getD session.currentDatabase
  | .revert stmt => stmt.tableName.databaseName.getD session.currentDatabase
  | _ => session.currentDatabase

/-! ## §2. Schemas of the coordinator. -/

/-- The names and schemas of a state, in iteration order. -/
abbrev SchemaView := List (Str × List (Str × TableSchema))

/-- What the server reads of `engine_.runtime_state()`. -/
def schemaView (state : RuntimeState) : SchemaView :=
  state.databases.entries.map fun p =>
    (p.1, p.2.tables.entries.map fun q => (q.1, q.2.schema))

/-- `map.find`. -/
def lookupName {β : Type} (entries : List (Str × β)) (name : Str) : Option β :=
  (entries.find? fun p => decide (p.1 = name)).map Prod.snd

/-- `ResolveClusterDatabaseName`. -/
def resolveClusterDatabaseName (tableName : QualifiedName) (session : SessionContext) :
    Option Str :=
  match tableName.databaseName with
  | some databaseName => some databaseName
  | none => if session.currentDatabase = [] then none else some session.currentDatabase

/-- `ResolveClusterTableSchema`. -/
def resolveClusterTableSchema (schemas : SchemaView) (tableName : QualifiedName)
    (session : SessionContext) : Option TableSchema := do
  let databaseName ← resolveClusterDatabaseName tableName session
  let tables ← lookupName schemas databaseName
  lookupName tables tableName.objectName

/-- `ResolveShardKeyColumn`. -/
def resolveShardKeyColumn (schema : TableSchema) : Option Str :=
  match schema.columns.find? fun c => decide (c.constraint = .indexed ∧ c.type = .int64) with
  | some column => some column.name
  | none => (schema.columns.find? fun c => decide (c.constraint = .indexed)).map (·.name)

/-! ## §3. Routing. -/

/-- `std::hash<std::int64_t>` and `std::hash<std::string>`. -/
structure Hashes where
  int : Int64 → Nat
  string : Str → Nat

/-- `RouteValueToNode`: the index of the node. -/
def routeValueToNode (hashes : Hashes) (value : Value) (nodeCount : Nat) : Result Nat :=
  if nodeCount = 0 then .ok 0
  else
    match value with
    | .int i => .ok (hashes.int i % nodeCount)
    | .string s => .ok (hashes.string s % nodeCount)
    | .null => .fault

/-- The lambda `extract` of `TryExtractShardKeyValue`. -/
def extractShardKeyValue (shardKeyColumn : Str) : Expression → Expression → Option Value
  | .columnReference _ _ columnName, .literal value =>
      if columnName = shardKeyColumn then some value else none
  | _, _ => none

/-- `TryExtractShardKeyValue`. -/
def tryExtractShardKeyValue (shardKeyColumn : Str) : Expression → Option Value
  | .logical .or _ _ => none
  | .logical .and left right =>
      match tryExtractShardKeyValue shardKeyColumn left with
      | some value => some value
      | none => tryExtractShardKeyValue shardKeyColumn right
  | .binaryComparison .equal left right =>
      match extractShardKeyValue shardKeyColumn left right with
      | some value => some value
      | none => extractShardKeyValue shardKeyColumn right left
  | _ => none

/-- The lambda `evaluate_route` of `RouteNodeIndex`. -/
def evaluateRoute (hashes : Hashes) (schemas : SchemaView) (session : SessionContext)
    (nodeCount : Nat) (tableName : QualifiedName) (whereClause : Option Expression) :
    Result (Option Nat) :=
  let shardValue : Option Value := do
    let clause ← whereClause
    let schema ← resolveClusterTableSchema schemas tableName session
    let shardKey ← resolveShardKeyColumn schema
    tryExtractShardKeyValue shardKey clause
  match shardValue with
  | none => .ok none
  | some value => (routeValueToNode hashes value nodeCount).map some

/-- `RouteNodeIndex`. -/
def routeNodeIndex (hashes : Hashes) (schemas : SchemaView) (session : SessionContext)
    (nodeCount : Nat) (statement : Statement) : Result (Option Nat) :=
  if nodeCount = 0 then .ok none
  else
    match statement with
    | .select stmt =>
        evaluateRoute hashes schemas session nodeCount stmt.tableName stmt.whereClause
    | .update stmt =>
        evaluateRoute hashes schemas session nodeCount stmt.tableName stmt.whereClause
    | .delete stmt =>
        evaluateRoute hashes schemas session nodeCount stmt.tableName stmt.whereClause
    | _ => .ok none

/-! ## §4. Rendered texts. -/

/-- `RenderLiteralSql`. -/
def renderLiteralSql : Value → Str
  | .null => str "NULL"
  | .int i => intToString i.toInt
  | .string s => str "\"" ++ escapeJsonText s ++ str "\""

/-- `RenderInsertSql`. -/
def renderInsertSql (tableName : QualifiedName) (columnNames : List Str)
    (rows : List (List Value)) : Str :=
  let qualifier := match tableName.databaseName with
    | some databaseName => databaseName ++ str "."
    | none => []
  str "INSERT INTO " ++ qualifier ++ tableName.objectName ++ str " ("
    ++ (str ", ").intercalate columnNames ++ str ") VALUES "
    ++ (str ", ").intercalate (rows.map fun row =>
        str "(" ++ (str ", ").intercalate (row.map renderLiteralSql) ++ str ")")
    ++ str ";"

/-- One column of `RenderCreateTableSql`. -/
def renderColumnSql (column : Catalog.ColumnDefinition) : Str :=
  column.name ++ str " " ++ (if column.type = .int64 then str "INT" else str "STRING")
    ++ (if column.constraint = .notNull then str " NOT NULL" else [])
    ++ (if column.constraint = .indexed then str " INDEXED" else [])
    ++ (match column.defaultValue with
        | some value => str " DEFAULT " ++ renderLiteralSql value
        | none => [])

/-- `RenderCreateTableSql`. -/
def renderCreateTableSql (schema : TableSchema) : Str :=
  str "CREATE TABLE " ++ schema.tableName ++ str " ("
    ++ (str ", ").intercalate (schema.columns.map renderColumnSql) ++ str ");"

/-- One value of `QueryResultToJson`. -/
def valueToJson : Value → Str
  | .null => str "null"
  | .int i => intToString i.toInt
  | .string s => str "\"" ++ escapeJsonText s ++ str "\""

/-- One row of `QueryResultToJson`. -/
def rowToJson (columnNames : List Str) (values : List Value) : Str :=
  str "\x7b" ++ (str ", ").intercalate (columnNames.zipWith
    (fun name value => str "\"" ++ escapeJsonText name ++ str "\": " ++ valueToJson value) values)
    ++ str "\x7d"

/-- `QueryResultToJson`. -/
def queryResultToJson (result : QueryResult) : Str :=
  str "[" ++ (str ", ").intercalate (result.rows.map fun row =>
    rowToJson result.columnNames row.values) ++ str "]"

/-! ## §5. `SplitInsertByShard`. -/

/-- The literal an INSERT holds at a position. -/
def literalValue? : Expression → Option Value
  | .literal value => some value
  | _ => none

/-- The loop over the rows; `none` where the function returns `nullopt`. -/
def groupRowsByNode (hashes : Hashes) (nodeCount shardColumnIndex : Nat) :
    Dict Nat (List (List Value)) → List (List Expression) →
    Result (Option (Dict Nat (List (List Value))))
  | groups, [] => .ok (some groups)
  | groups, rowExprs :: rest =>
      match rowExprs.mapM literalValue? with
      | none => .ok none
      | some rowValues =>
          match rowValues[shardColumnIndex]? with
          | none => .ok none
          | some value => do
              let node ← routeValueToNode hashes value nodeCount
              groupRowsByNode hashes nodeCount shardColumnIndex
                ((groups.emplace node []).modify node (· ++ [rowValues])) rest

/-- `SplitInsertByShard`. -/
def splitInsertByShard (hashes : Hashes) (schemas : SchemaView) (session : SessionContext)
    (nodeCount : Nat) (insert : InsertStatement) : Result (Option (List (Nat × Str))) :=
  let target : Option (Nat × Str) := do
    let schema ← resolveClusterTableSchema schemas insert.tableName session
    let shardKey ← resolveShardKeyColumn schema
    let shardColumnIndex ← insert.columnNames.idxOf? shardKey
    let databaseName ← resolveClusterDatabaseName insert.tableName session
    return (shardColumnIndex, databaseName)
  match target with
  | none => .ok none
  | some (shardColumnIndex, databaseName) => do
      match ← groupRowsByNode hashes nodeCount shardColumnIndex Dict.empty insert.rows with
      | none => .ok none
      | some groups =>
          .ok (some (groups.entries.map fun p =>
            (p.1, renderInsertSql ⟨some databaseName, insert.tableName.objectName⟩
              insert.columnNames p.2)))

end CustomDbms.Server
