/-
  CustomDbms.Execution.Predicates
  ───────────────────────────────
  **WHERE CLAUSES** (`src/execution/execution_engine.cpp`: expression
  evaluation and `FilterRows`).

  `std::regex` is a parameter of `LIKE`: `regexMatch pattern text` is the
  answer of `std::regex_match`, `none` where the constructor throws on the
  pattern.
-/
import CustomDbms.Core.RuntimeState
import CustomDbms.Parser.Ast

namespace CustomDbms.Execution

open CustomDbms.Common CustomDbms.Catalog CustomDbms.Core CustomDbms.Lib CustomDbms.Parser

/-- `std::regex` with `std::regex_match`. -/
abbrev RegexMatch := (pattern text : Str) → Option Bool

/-! ## §1. Expressions. -/

/-- `EvaluateValueExpression`. -/
def evaluateValueExpression (expr : Expression) (schema : TableSchema) (row : RowData) :
    Result Value :=
  match expr with
  | .literal v => .ok v
  | .columnReference _ _ columnName =>
      match findColumnIndex schema columnName with
      | none => .makeError .semanticError (str "unknown column: " ++ columnName)
      | some i => Result.ofOption row.values[i]?
  | _ => .makeError .notImplemented (str "expression is not a scalar value expression")

/-- The `switch` over the comparison operator. -/
def compareWith (op : ComparisonOperator) (compared : Int) : Bool :=
  match op with
  | .equal => decide (compared = 0)
  | .notEqual => decide (compared ≠ 0)
  | .less => decide (compared < 0)
  | .greater => decide (0 < compared)
  | .lessEqual => decide (compared ≤ 0)
  | .greaterEqual => decide (0 ≤ compared)

/-- The truth value of a scalar. -/
def truthy : Value → Bool
  | .null => false
  | .int i => decide (i ≠ 0)
  | .string s => !s.isEmpty

/-- An operand of `BETWEEN` or `LIKE`: all operands are evaluated before the
first error is looked at. -/
def operand {α : Type} (r : Result α) : Result (Option α) :=
  match r with
  | .ok a => .ok (some a)
  | .error _ => .ok none
  | .fault => .fault

/-- `BETWEEN` on its three operands. -/
def evaluateBetween : Option Value → Option Value → Option Value → Result Bool
  | some v, some lo, some hi =>
      if getValueType v ≠ getValueType lo ∨ getValueType v ≠ getValueType hi then
        .makeError .typeMismatch (str "BETWEEN type mismatch")
      else do
        let c1 ← Result.ofOption (compareValues v lo)
        let c2 ← Result.ofOption (compareValues v hi)
        return decide (0 ≤ c1) && decide (c2 < 0)
  | _, _, _ => .makeError .typeMismatch (str "BETWEEN evaluation failed")

/-- `LIKE` on its two operands. -/
def evaluateLike (re : RegexMatch) : Option Value → Option Value → Result Bool
  | some v, some p =>
      match v, p with
      | .string text, .string pattern => Result.ofOption (re pattern text)
      | _, _ => .makeError .typeMismatch (str "LIKE accepts only string operands")
  | _, _ => .makeError .typeMismatch (str "LIKE evaluation failed")

/-- `EvaluatePredicate`. -/
def evaluatePredicate (re : RegexMatch) (schema : TableSchema) (row : RowData) :
    Expression → Result Bool
  | .logical op left right => do
      let l ← evaluatePredicate re schema row left
      let r ← evaluatePredicate re schema row right
      return match op with
        | .and => l && r
        | .or => l || r
  | .binaryComparison op left right => do
      let l ← evaluateValueExpression left schema row
      let r ← evaluateValueExpression right schema row
      if getValueType l ≠ getValueType r then
        .makeError .typeMismatch (str "comparison type mismatch")
      else
        let compared ← Result.ofOption (compareValues l r)
        return compareWith op compared
  | .between value lowerBound upperBound => do
      let v ← operand (evaluateValueExpression value schema row)
      let lo ← operand (evaluateValueExpression lowerBound schema row)
      let hi ← operand (evaluateValueExpression upperBound schema row)
      evaluateBetween v lo hi
  | .like value pattern => do
      let v ← operand (evaluateValueExpression value schema row)
      let p ← operand (evaluateValueExpression pattern schema row)
      evaluateLike re v p
  | expr => do
      let v ← evaluateValueExpression expr schema row
      return truthy v

/-- `where_clause.has_value()` and then the predicate. -/
def passes (re : RegexMatch) (schema : TableSchema) (whereClause : Option Expression)
    (row : RowData) : Result Bool :=
  match whereClause with
  | none => .ok true
  | some expr => evaluatePredicate re schema row expr

/-! ## §2. `FilterRows`. -/

/-- The loop over all rows. -/
def filterScan (re : RegexMatch) (schema : TableSchema) (whereClause : Option Expression) :
    List RowData → Result (List RowData)
  | [] => .ok []
  | row :: rows => do
      let pass ← passes re schema whereClause row
      let rest ← filterScan re schema whereClause rows
      return if pass then row :: rest else rest

/-- `append_if_passes` over the candidates of an index, in their order. -/
def filterCandidates (re : RegexMatch) (schema : TableSchema) (whereClause : Option Expression)
    (rows : List RowData) : List RowId → Result (List RowData)
  | [] => .ok []
  | i :: ids =>
      match rows.find? (fun row => decide (row.rowId = i)) with
      | none => filterCandidates re schema whereClause rows ids
      | some row => do
          let pass ← passes re schema whereClause row
          let rest ← filterCandidates re schema whereClause rows ids
          return if pass then row :: rest else rest

/-- The row ids of the entries of a range scan. -/
def scanRowIds (tree : IndexTree) (lower upper : Str) : Result (List RowId) := do
  let entries ← Result.ofOption (tree.rangeScan lower upper)
  return entries.flatMap (·.rowIds)

/-- The byte `\xFF`. -/
def xFF : Byte := 255

/-- The candidates of `column op literal`; `none` for `!=`, which does not use
the index. -/
def comparisonCandidates (tree : IndexTree) (op : ComparisonOperator) (encoded : Str) :
    Result (Option (List RowId)) :=
  match op with
  | .equal => some <$> Result.ofOption (tree.find encoded)
  | .less | .lessEqual => some <$> scanRowIds tree [] (encoded ++ [xFF])
  | .greater | .greaterEqual => some <$> scanRowIds tree encoded [xFF, xFF, xFF, xFF]
  | .notEqual => .ok none

/-- The index lookup of `FilterRows`: `none` where the clause or the table
offers no index path. -/
def indexCandidates (schema : TableSchema) (indexes : Dict Str IndexTree) :
    Option Expression → Result (Option (List RowId))
  | some (.binaryComparison op (.columnReference _ _ column) (.literal v)) =>
      match findColumnIndex schema column, indexes.find? column with
      | some i, some tree => do
          let c ← Result.ofOption schema.columns[i]?
          let encoded ← Result.ofOption (encodeIndexKey v c.type)
          comparisonCandidates tree op encoded
      | _, _ => .ok none
  | some (.between (.columnReference _ _ column) (.literal lower) (.literal upper)) =>
      match findColumnIndex schema column, indexes.find? column with
      | some i, some tree => do
          let c ← Result.ofOption schema.columns[i]?
          let lowerKey ← Result.ofOption (encodeIndexKey lower c.type)
          let upperKey ← Result.ofOption (encodeIndexKey upper c.type)
          some <$> scanRowIds tree lowerKey upperKey
      | _, _ => .ok none
  | _ => .ok none

/-- `FilterRows`, with `used_index_path`. -/
def filterRows (re : RegexMatch) (rows : List RowData) (whereClause : Option Expression)
    (schema : TableSchema) (indexes : Dict Str IndexTree) : Result (List RowData × Bool) := do
  match ← indexCandidates schema indexes whereClause with
  | some ids => return (← filterCandidates re schema whereClause rows ids, true)
  | none => return (← filterScan re schema whereClause rows, false)

end CustomDbms.Execution
