/-
  CustomDbms.Parser.Parser
  ────────────────────────
  **THE PARSER** (`src/parser/parser.cpp`).

  `Cursor` is a state over the remaining tokens, exceptions are the `Except`
  layer with the text of `what()`.  `Parse` catches them all, so its result is
  a statement or a `kParseError`.  The recursion over parentheses and the
  loops consume a token in every turn; their `fuel` is the number of tokens.

    • `parse_validated` — a statement that is returned has passed
      `ValidateStatement`.
-/
import CustomDbms.Parser.Ast
import CustomDbms.Parser.Lexer

namespace CustomDbms.Parser

open CustomDbms.Common

/-! ## §1. The cursor. -/

/-- A parsing step: the remaining tokens are the state, the message of an
exception is the error. -/
abbrev ParseM := StateT (List Str) (Except Str)

/-- `throw std::runtime_error(message)`. -/
def fail {α : Type} (message : Str) : ParseM α := throw message

/-- `HasMixedLetterCase`. -/
def hasMixedLetterCase (token : Str) : Bool := token.any isUpper && token.any isLower

/-- `IsIdentifier`. -/
def isIdentifier (token : Str) : Bool :=
  match token with
  | [] => false
  | c :: _ => (isAlpha c || c = byte '_') && token.all isWordByte

namespace Cursor

/-- `Has`. -/
def has : ParseM Bool := do return !(← get).isEmpty

/-- `Peek`. -/
def peek : ParseM Str := do return (← get).headD []

/-- `Take`. -/
def take : ParseM Str := do
  match ← get with
  | [] => fail (str "unexpected end of input")
  | t :: rest => set rest; return t

/-- `MatchKeyword`. -/
def matchKeyword (kw : Str) : ParseM Bool := do
  match ← get with
  | [] => return false
  | t :: rest =>
      if toUpper t ≠ kw then return false
      else if hasMixedLetterCase t then
        fail (str "mixed keyword case is not allowed: " ++ t)
      else set rest; return true

/-- `Match`. -/
def matchToken (token : Str) : ParseM Bool := do
  match ← get with
  | [] => return false
  | t :: rest => if t = token then set rest; return true else return false

/-- `Expect`. -/
def expect (token : Str) : ParseM Unit := do
  if !(← matchToken token) then fail (str "expected token: " ++ token)

/-- `ExpectKeyword`. -/
def expectKeyword (kw : Str) : ParseM Unit := do
  if !(← matchKeyword kw) then fail (str "expected keyword: " ++ kw)

/-- `TakeIdentifier`. -/
def takeIdentifier : ParseM Str := do
  let token ← take
  if isIdentifier token then return token else fail (str "invalid identifier: " ++ token)

end Cursor

open Cursor

/-! ## §2. Literals, names, expressions. -/

/-- The contents of a token in double quotes. -/
def unquote (token : Str) : Option Str :=
  if 2 ≤ token.length ∧ token.head? = some (byte '"') ∧ token.getLast? = some (byte '"')
  then some (token.drop 1).dropLast else none

/-- `ParseLiteral`; `std::stoll` throws exceptions with the text `stoll`. -/
def parseLiteral (token : Str) : ParseM Value :=
  if token = str "NULL" ∨ token = str "null" then return .null else
  match unquote token with
  | some s => return .string s
  | none =>
      match stoll token with
      | none => fail (str "stoll")
      | some (v, used) =>
          if used ≠ token.length then fail (str "invalid literal: " ++ token)
          else return .int v

/-- `ParseLiteralToken`. -/
def parseLiteralToken : ParseM Value := do
  if ← matchToken (str "-") then
    let next ← take
    parseLiteral (byte '-' :: next)
  else
    let token ← take
    parseLiteral token

/-- `ParseQualifiedName`. -/
def parseQualifiedName : ParseM QualifiedName := do
  let first ← takeIdentifier
  if ← matchToken (str ".") then
    let second ← takeIdentifier
    return ⟨some first, second⟩
  else return ⟨none, first⟩

/-- `ParsePrimary`, with the parser for what stands in parentheses. -/
def parsePrimary (parseInner : ParseM Expression) : ParseM Expression := do
  if ← matchToken (str "(") then
    let inner ← parseInner
    expect (str ")")
    return inner
  else if isIdentifier (← peek) then
    let q ← parseQualifiedName
    return .columnReference q.databaseName none q.objectName
  else return .literal (← parseLiteralToken)

/-- `ParseCmpOp`. -/
def parseCmpOp (token : Str) : ParseM ComparisonOperator :=
  if token = str "==" then return .equal
  else if token = str "!=" then return .notEqual
  else if token = str "<" then return .less
  else if token = str ">" then return .greater
  else if token = str "<=" then return .lessEqual
  else if token = str ">=" then return .greaterEqual
  else fail (str "unknown comparison operator: " ++ token)

/-- `ParsePredicate`. -/
def parsePredicate (parseInner : ParseM Expression) : ParseM Expression := do
  let left ← parsePrimary parseInner
  if ← matchKeyword (str "BETWEEN") then
    let lower ← parsePrimary parseInner
    expectKeyword (str "AND")
    let upper ← parsePrimary parseInner
    return .between left lower upper
  else if ← matchKeyword (str "LIKE") then
    let pattern ← parsePrimary parseInner
    return .like left pattern
  else
    let next ← peek
    if !(← has) || next = str ")" || next = str ";" || toUpper next = str "AND"
        || toUpper next = str "OR" then return left
    else
      let op ← take
      let right ← parsePrimary parseInner
      return .binaryComparison (← parseCmpOp op) left right

/-- `while (c.MatchKeyword(kw)) left = left op operand`. -/
def parseLogicalLoop (op : LogicalOperator) (kw : Str) (operand : ParseM Expression) :
    Nat → Expression → ParseM Expression
  | 0, left => return left
  | fuel + 1, left => do
      if ← matchKeyword kw then
        let right ← operand
        parseLogicalLoop op kw operand fuel (.logical op left right)
      else return left

/-- `ParseAnd`. -/
def parseAnd (parseInner : ParseM Expression) : ParseM Expression := do
  let left ← parsePredicate parseInner
  parseLogicalLoop .and (str "AND") (parsePredicate parseInner) (← get).length left

/-- `ParseExpression`; `fuel` bounds the depth of parentheses. -/
def parseExpressionAt : Nat → ParseM Expression
  | 0 => fail []
  | fuel + 1 => do
      let left ← parseAnd (parseExpressionAt fuel)
      parseLogicalLoop .or (str "OR") (parseAnd (parseExpressionAt fuel)) (← get).length left

/-- `ParseExpression`. -/
def parseExpression : ParseM Expression := do parseExpressionAt ((← get).length + 1)

/-! ## §3. Statements. -/

/-- `do body while (c.Match(","))`, the items in order; also the loops of the
form `while (true) { body; if (!c.Match(",")) break; }`. -/
def parseCommaLoop {α : Type} (body : ParseM α) : Nat → ParseM (List α)
  | 0 => return []
  | fuel + 1 => do
      let a ← body
      if ← matchToken (str ",") then return a :: (← parseCommaLoop body fuel) else return [a]

/-- `while (true) { body; if (c.Match(")")) break; c.Expect(","); }`. -/
def parseUntilParen {α : Type} (body : ParseM α) : Nat → ParseM (List α)
  | 0 => return []
  | fuel + 1 => do
      let a ← body
      if ← matchToken (str ")") then return [a]
      else
        expect (str ",")
        return a :: (← parseUntilParen body fuel)

/-- The constraints after a column's type, in any order and number. -/
def parseColumnOptions : Nat → ColumnDefinition → ParseM ColumnDefinition
  | 0, col => return col
  | fuel + 1, col => do
      if ← matchKeyword (str "NOT_NULL") then
        parseColumnOptions fuel { col with notNull := true }
      else if ← matchKeyword (str "INDEXED") then
        parseColumnOptions fuel { col with indexed := true, notNull := true }
      else if ← matchKeyword (str "DEFAULT") then
        let v ← parseLiteralToken
        parseColumnOptions fuel { col with defaultValue := some v }
      else return col

/-- One column of `CREATE TABLE`. -/
def parseColumn : ParseM ColumnDefinition := do
  let name ← takeIdentifier
  let typeName := toUpper (← take)
  let type ←
    if typeName = str "INT" then pure ValueType.int64
    else if typeName = str "STRING" then pure ValueType.string
    else fail (str "unsupported column type: " ++ typeName)
  parseColumnOptions ((← get).length + 1) ⟨name, type, false, false, none⟩

/-- `ParseCreate`. -/
def parseCreate : ParseM Statement := do
  if ← matchKeyword (str "DATABASE") then return .createDatabase (← takeIdentifier)
  else
    expectKeyword (str "TABLE")
    let tableName ← parseQualifiedName
    expect (str "(")
    let columns ← parseUntilParen parseColumn ((← get).length + 1)
    return .createTable ⟨tableName, columns⟩

/-- `ParseDrop`. -/
def parseDrop : ParseM Statement := do
  if ← matchKeyword (str "DATABASE") then return .dropDatabase (← takeIdentifier)
  else
    expectKeyword (str "TABLE")
    return .dropTable (← parseQualifiedName)

/-- `ParseUse`. -/
def parseUse : ParseM Statement := do return .useDatabase (← takeIdentifier)

/-- One parenthesised row of `VALUES`. -/
def parseInsertRow : ParseM (List Expression) := do
  expect (str "(")
  parseUntilParen (Expression.literal <$> parseLiteralToken) ((← get).length + 1)

/-- `ParseInsert`. -/
def parseInsert : ParseM Statement := do
  expectKeyword (str "INTO")
  let tableName ← parseQualifiedName
  expect (str "(")
  let columnNames ← parseUntilParen takeIdentifier ((← get).length + 1)
  if !(← matchKeyword (str "VALUE")) then expectKeyword (str "VALUES")
  let rows ← parseCommaLoop parseInsertRow ((← get).length + 1)
  return .insert ⟨tableName, columnNames, rows⟩

/-- `if (c.MatchKeyword("WHERE")) stmt.where = ParseExpression(c)`. -/
def parseWhere : ParseM (Option Expression) := do
  if ← matchKeyword (str "WHERE") then return some (← parseExpression) else return none

/-- One assignment of `UPDATE … SET`. -/
def parseAssignment : ParseM Assignment := do
  let columnName ← takeIdentifier
  expect (str "=")
  let value ← parsePrimary parseExpression
  return ⟨columnName, value⟩

/-- `ParseUpdate`. -/
def parseUpdate : ParseM Statement := do
  let tableName ← parseQualifiedName
  expectKeyword (str "SET")
  let assignments ← parseCommaLoop parseAssignment ((← get).length + 1)
  return .update ⟨tableName, assignments, ← parseWhere⟩

/-- `ParseDelete`. -/
def parseDelete : ParseM Statement := do
  expectKeyword (str "FROM")
  let tableName ← parseQualifiedName
  return .delete ⟨tableName, ← parseWhere⟩

/-- `ParseAgg`. -/
def parseAgg (token : Str) : Option AggregateKind :=
  if toUpper token = str "SUM" then some .sum
  else if toUpper token = str "COUNT" then some .count
  else if toUpper token = str "AVG" then some .avg
  else none

/-- One item of the `SELECT` list. -/
def parseSelectItem : ParseM SelectItem := do
  let aggregate := parseAgg (← peek)
  let columnName ←
    if aggregate.isSome then do
      let _ ← take
      expect (str "(")
      let name ← if ← matchToken (str "*") then pure (str "*") else takeIdentifier
      expect (str ")")
      pure name
    else takeIdentifier
  let aliasName ←
    if ← matchKeyword (str "AS") then some <$> takeIdentifier else pure none
  return ⟨false, columnName, aliasName, aggregate⟩

/-- `ParseSelect`. -/
def parseSelect : ParseM Statement := do
  let items ←
    if ← matchToken (str "*") then pure [⟨true, [], none, none⟩]
    else parseCommaLoop parseSelectItem ((← get).length + 1)
  expectKeyword (str "FROM")
  let tableName ← parseQualifiedName
  return .select ⟨tableName, items, ← parseWhere⟩

/-- `ParseRevert`. -/
def parseRevert : ParseM Statement := do
  let tableName ← parseQualifiedName
  if ← matchKeyword (str "LATEST") then return .revert ⟨tableName, str "LATEST", .latest⟩
  else
    let mode ←
      if ← matchKeyword (str "EXACT") then pure RevertMode.exact
      else do
        let _ ← matchKeyword (str "AT_OR_BEFORE")
        pure RevertMode.atOrBefore
    let timestamp ← take
    return .revert ⟨tableName, (unquote timestamp).getD timestamp, mode⟩

/-- `ParseBegin`, `ParseCommit`, `ParseRollback`: an optional `TRANSACTION`. -/
def parseTransactionWord (stmt : Statement) : ParseM Statement := do
  let _ ← matchKeyword (str "TRANSACTION")
  return stmt

/-- `ParseCheck`, `ParseRebuild`: the word `INDEX`. -/
def parseIndexWord (stmt : Statement) : ParseM Statement := do
  expectKeyword (str "INDEX")
  return stmt

/-! ## §4. Validation. -/

/-- The first name that repeats an earlier one. -/
def firstRepeated : List Str → List Str → Option Str
  | _, [] => none
  | seen, n :: ns => if n ∈ seen then some n else firstRepeated (n :: seen) ns

/-- The loop of `ValidateCreateTable` over the columns. -/
def validateColumns : List Str → List ColumnDefinition → Except Str Unit
  | _, [] => return ()
  | seen, col :: cols => do
      if col.name ∈ seen then throw (str "duplicate column name: " ++ col.name)
      match col.defaultValue with
      | some v =>
          if !canAssignToType v col.type (!col.notNull) then
            throw (str "DEFAULT value type mismatch for column: " ++ col.name)
      | none => pure ()
      validateColumns (col.name :: seen) cols

/-- `ValidateCreateTable`. -/
def validateCreateTable (stmt : CreateTableStatement) : Except Str Unit :=
  if stmt.columns = [] then throw (str "CREATE TABLE must define columns")
  else validateColumns [] stmt.columns

/-- `ValidateInsert`. -/
def validateInsert (stmt : InsertStatement) : Except Str Unit :=
  if stmt.columnNames = [] then throw (str "INSERT must specify at least one target column")
  else if stmt.rows = [] then throw (str "INSERT must include at least one row")
  else match firstRepeated [] stmt.columnNames with
  | some n => throw (str "duplicate INSERT column: " ++ n)
  | none =>
      if stmt.rows.all (fun row => decide (row.length = stmt.columnNames.length)) then return ()
      else throw (str "INSERT row value count does not match column count")

/-- `ValidateUpdate`. -/
def validateUpdate (stmt : UpdateStatement) : Except Str Unit :=
  if stmt.assignments = [] then throw (str "UPDATE must define assignments")
  else match firstRepeated [] (stmt.assignments.map (·.columnName)) with
  | some n => throw (str "duplicate UPDATE assignment: " ++ n)
  | none => return ()

/-- `ValidateSelect`. -/
def validateSelect (stmt : SelectStatement) : Except Str Unit :=
  if stmt.items = [] then throw (str "SELECT item list is empty")
  else if 1 < stmt.items.length ∧ stmt.items.any (·.isWildcard) then
    throw (str "SELECT * cannot be combined with other items")
  else if 1 < stmt.items.length ∧ stmt.items.any (·.aggregate.isSome)
      ∧ stmt.items.any (·.aggregate.isNone) then
    throw (str "cannot mix aggregate and non-aggregate select items")
  else if stmt.items.any (fun item => decide (item.columnName = str "*"
      ∧ item.aggregate.isSome ∧ item.aggregate ≠ some .count)) then
    throw (str "only COUNT supports wildcard argument '*'")
  else return ()

/-- `ValidateStatement`. -/
def validateStatement : Statement → Except Str Unit
  | .createTable stmt => validateCreateTable stmt
  | .insert stmt => validateInsert stmt
  | .update stmt => validateUpdate stmt
  | .select stmt => validateSelect stmt
  | _ => return ()

/-! ## §5. `Parse`. -/

/-- The chain of keyword tests of `Parse`; `none` for an unsupported word. -/
def parseStatement : ParseM (Option Statement) := do
  if ← matchKeyword (str "CREATE") then some <$> parseCreate
  else if ← matchKeyword (str "DROP") then some <$> parseDrop
  else if ← matchKeyword (str "USE") then some <$> parseUse
  else if ← matchKeyword (str "INSERT") then some <$> parseInsert
  else if ← matchKeyword (str "UPDATE") then some <$> parseUpdate
  else if ← matchKeyword (str "DELETE") then some <$> parseDelete
  else if ← matchKeyword (str "SELECT") then some <$> parseSelect
  else if ← matchKeyword (str "REVERT") then some <$> parseRevert
  else if ← matchKeyword (str "BEGIN") then some <$> parseTransactionWord .beginTransaction
  else if ← matchKeyword (str "COMMIT") then some <$> parseTransactionWord .commitTransaction
  else if ← matchKeyword (str "ROLLBACK") then some <$> parseTransactionWord .rollbackTransaction
  else if ← matchKeyword (str "CHECK") then some <$> parseIndexWord .checkIndex
  else if ← matchKeyword (str "REBUILD") then some <$> parseIndexWord .rebuildIndex
  else return none

/-- What follows a parsed statement: at most one semicolon, then nothing. -/
def finishParse (stmt : Statement) (rest : List Str) : Except Str Statement :=
  if rest.head? = some (str ";") then
    if rest.tail ≠ [] then throw (str "unexpected tokens after semicolon")
    else do validateStatement stmt; return stmt
  else if rest ≠ [] then throw (str "unexpected trailing tokens")
  else do validateStatement stmt; return stmt

/-- `Parser::Parse` on the tokens. -/
def parseTokens (tokens : List Str) : Result Statement :=
  if tokens = [] then .makeError .parseError (str "empty SQL") else
  match parseStatement tokens with
  | .error message => .makeError .parseError message
  | .ok (none, _) => .makeError .parseError (str "unsupported statement")
  | .ok (some stmt, rest) =>
      match finishParse stmt rest with
      | .error message => .makeError .parseError message
      | .ok stmt => .ok stmt

/-- `Parser::Parse`. -/
def parse (sql : Str) : Result Statement := parseTokens (tokenize sql)

/-- What follows a statement does not change it. -/
theorem finishParse_eq_ok {parsed stmt : Statement} {rest : List Str}
    (h : finishParse parsed rest = .ok stmt) :
    stmt = parsed ∧ validateStatement stmt = .ok () := by
  have key : (do validateStatement parsed; return parsed : Except Str Statement) = .ok stmt →
      stmt = parsed ∧ validateStatement stmt = .ok () := by
    intro hs
    cases hv : validateStatement parsed with
    | error e => rw [hv] at hs; cases hs
    | ok u => rw [hv] at hs; cases hs; exact ⟨rfl, hv⟩
  unfold finishParse at h
  split at h
  · split at h
    · cases h
    · exact key h
  · split at h
    · cases h
    · exact key h

/-- **A returned statement has been parsed and validated.** -/
theorem parse_eq_ok {sql : Str} {stmt : Statement} (h : parse sql = .ok stmt) :
    (∃ rest, parseStatement (tokenize sql) = .ok (some stmt, rest)) ∧
      validateStatement stmt = .ok () := by
  unfold parse parseTokens at h
  split at h
  · cases h
  split at h
  · cases h
  · cases h
  · rename_i parsed rest hrun
    split at h
    · cases h
    · rename_i s hfin
      cases h
      obtain ⟨rfl, hval⟩ := finishParse_eq_ok hfin
      exact ⟨⟨rest, hrun⟩, hval⟩

theorem parse_validated {sql : Str} {stmt : Statement} (h : parse sql = .ok stmt) :
    validateStatement stmt = .ok () :=
  (parse_eq_ok h).2

/-- `Parse` catches every exception. -/
theorem parse_ne_fault (sql : Str) : parse sql ≠ .fault := by
  unfold parse parseTokens
  split
  · intro h; cases h
  · split
    · intro h; cases h
    · intro h; cases h
    · split <;> (intro h; cases h)

end CustomDbms.Parser
