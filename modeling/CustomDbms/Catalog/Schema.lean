/-
  CustomDbms.Catalog.Schema
  ─────────────────────────
  **TABLE SCHEMAS** (`src/catalog/schema.hpp`).

  The `Catalog` object itself is written by the executor and read by nothing on
  the way of a statement; it is not modelled.
-/
import CustomDbms.Common.Types

namespace CustomDbms.Catalog

open CustomDbms.Common

/-- `ColumnConstraint`. -/
inductive ColumnConstraint where
  | none | notNull | indexed
  deriving Repr, DecidableEq

/-- `ColumnDefinition`. -/
structure ColumnDefinition where
  name : Str
  type : ValueType
  constraint : ColumnConstraint
  defaultValue : Option Value
  deriving DecidableEq

/-- `IndexDefinition`. -/
structure IndexDefinition where
  name : Str
  columnName : Str
  unique : Bool
  isPrimaryAccessPath : Bool
  deriving DecidableEq

/-- `TableSchema`. -/
structure TableSchema where
  databaseName : Str
  tableName : Str
  columns : List ColumnDefinition
  indexes : List IndexDefinition
  deriving DecidableEq

/-- `FindColumnIndex`: the first column of that name. -/
def findColumnIndex (schema : TableSchema) (columnName : Str) : Option Nat :=
  schema.columns.findIdx? (fun c => decide (c.name = columnName))

/-- The definition the code attaches to an INDEXED column. -/
def indexDefinitionFor (tableName columnName : Str) : IndexDefinition where
  name := str "idx_" ++ tableName ++ str "_" ++ columnName
  columnName := columnName
  unique := true
  isPrimaryAccessPath := true

theorem findColumnIndex_lt {schema : TableSchema} {n : Str} {i : Nat}
    (h : findColumnIndex schema n = some i) : i < schema.columns.length :=
  (List.findIdx?_eq_some_iff_getElem.mp h).1

end CustomDbms.Catalog
