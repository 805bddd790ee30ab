/-
  CustomDbms.Parser.Ast
  ─────────────────────
  **THE SQL SYNTAX TREE** (`src/parser/ast.hpp`).
-/
import CustomDbms.Common.Types

namespace CustomDbms.Parser

open CustomDbms.Common

/-- `AggregateKind`. -/
inductive AggregateKind where
  | sum | count | avg
  deriving Repr, DecidableEq

/-- `ComparisonOperator`. -/
inductive ComparisonOperator where
  | equal | notEqual | less | greater | lessEqual | greaterEqual
  deriving Repr, DecidableEq

/-- `LogicalOperator`. -/
inductive LogicalOperator where
  | and | or
  deriving Repr, DecidableEq

/-- `Expression`. -/
inductive Expression where
  | literal (value : Value)
  | columnReference (databaseName tableName : Option Str) (columnName : Str)
  | binaryComparison (op : ComparisonOperator) (left right : Expression)
  | logical (op : LogicalOperator) (left right : Expression)
  | between (value lowerBound upperBound : Expression)
  | like (value pattern : Expression)
  | aggregateCall (kind : AggregateKind) (columnName : Str)
  deriving DecidableEq

/-- `QualifiedName`. -/
structure QualifiedName where
  databaseName : Option Str
  objectName : Str
  deriving DecidableEq

/-- `ColumnDefinition`. -/
structure ColumnDefinition where
  name : Str
  type : ValueType
  notNull : Bool
  indexed : Bool
  defaultValue : Option Value
  deriving DecidableEq

/-- `SelectItem`. -/
structure SelectItem where
  isWildcard : Bool
  columnName : Str
  aliasName : Option Str
  aggregate : Option AggregateKind
  deriving DecidableEq

/-- `Assignment`. -/
structure Assignment where
  columnName : Str
  value : Expression
  deriving DecidableEq

/-- `CreateTableStatement`. -/
structure CreateTableStatement where
  tableName : QualifiedName
  columns : List ColumnDefinition
  deriving DecidableEq

/-- `InsertStatement`. -/
structure InsertStatement where
  tableName : QualifiedName
  columnNames : List Str
  rows : List (List Expression)
  deriving DecidableEq

/-- `UpdateStatement`. -/
structure UpdateStatement where
  tableName : QualifiedName
  assignments : List Assignment
  whereClause : Option Expression
  deriving DecidableEq

/-- `DeleteStatement`. -/
structure DeleteStatement where
  tableName : QualifiedName
  whereClause : Option Expression
  deriving DecidableEq

/-- `SelectStatement`. -/
structure SelectStatement where
  tableName : QualifiedName
  items : List SelectItem
  whereClause : Option Expression
  deriving DecidableEq

/-- `RevertMode`. -/
inductive RevertMode where
  | atOrBefore | exact | latest
  deriving Repr, DecidableEq

/-- `RevertStatement`. -/
structure RevertStatement where
  tableName : QualifiedName
  timestamp : Str
  mode : RevertMode
  deriving DecidableEq

/-- `Statement`. -/
inductive Statement where
  | unknown (rawSql : Str)
  | createDatabase (databaseName : Str)
  | dropDatabase (databaseName : Str)
  | useDatabase (databaseName : Str)
  | createTable (stmt : CreateTableStatement)
  | dropTable (tableName : QualifiedName)
  | insert (stmt : InsertStatement)
  | update (stmt : UpdateStatement)
  | delete (stmt : DeleteStatement)
  | select (stmt : SelectStatement)
  | revert (stmt : RevertStatement)
  | beginTransaction
  | commitTransaction
  | rollbackTransaction
  | checkIndex
  | rebuildIndex
  deriving DecidableEq

end CustomDbms.Parser
