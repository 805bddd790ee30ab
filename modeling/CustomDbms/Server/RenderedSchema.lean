/-
  CustomDbms.Server.RenderedSchema
  ────────────────────────────────
  **A SCHEMA AS A STATEMENT** (`RenderCreateTableSql`).

  A new node gets the tables of the coordinator as CREATE TABLE statements
  written from their schemas.  The writer and the parser agree on names, types,
  INDEXED and the defaults in which nothing is escaped.  They disagree on
  NOT NULL, which the parser wants as one word, and on escapes, which the
  parser does not take out.

    • `parse_renderCreateTableSql`, `parse_renderCreateTableSql_notNull` — what
      a node reads;
    • `recreated_iff` — which schemas are created again.
-/
import CustomDbms.Core.DatabaseMetadata
import CustomDbms.Parser.CreateTableText
import CustomDbms.Server.SplitInsert

namespace CustomDbms.Server

open CustomDbms.Common CustomDbms.Lib CustomDbms.Parser CustomDbms.Catalog CustomDbms.Core
open CustomDbms.Execution

/-! ## §1. The text and its tokens. -/

/-- Two texts with a blank between them. -/
theorem LexesTo.blank {a b : Str} {A B : List Str} (ha : LexesTo a A) (hb : LexesTo b B) :
    LexesTo (a ++ byte ' ' :: b) (A ++ B) := by
  intro rest hrest
  rw [List.append_assoc, List.cons_append, ha _ (head_not_word (by decide) _),
    tokenize_space (by decide), hb rest hrest, List.append_assoc]

/-- The column `CREATE TABLE` makes of a parsed one. -/
def catalogColumn (col : Parser.ColumnDefinition) : Catalog.ColumnDefinition :=
  ⟨col.name, col.type, constraintOf col, col.defaultValue⟩

theorem lexesTo_keyword {w : Str} (h : w ∈ [str "CREATE", str "TABLE", str "INT", str "STRING",
    str "NOT", str "NULL", str "INDEXED", str "DEFAULT", str "DATABASE", str "USE"]) :
    LexesTo w [w] := by
  refine lexesTo_identifier ?_
  revert w
  decide

theorem lexesTo_typeWord (type : ValueType) : LexesTo (typeWord type) [typeWord type] := by
  cases type with
  | null => exact lexesTo_keyword (by decide)
  | int64 => exact lexesTo_keyword (by decide)
  | string => exact lexesTo_keyword (by decide)

/-- Name, type and constraint of a column. -/
theorem lexesTo_constraint {col : Parser.ColumnDefinition} (h : ColumnOk col) :
    LexesTo (col.name ++ str " " ++ typeWord col.type
        ++ (if constraintOf col = .notNull then str " NOT NULL" else [])
        ++ (if constraintOf col = .indexed then str " INDEXED" else []))
      (col.name :: typeWord col.type :: constraintTokens col) := by
  have hstart : LexesTo (col.name ++ byte ' ' :: typeWord col.type) [col.name, typeWord col.type] :=
    (lexesTo_identifier h.name).blank (lexesTo_typeWord col.type)
  have htext : col.name ++ str " " ++ typeWord col.type
      = col.name ++ byte ' ' :: typeWord col.type := by
    rw [List.append_assoc]
    rfl
  rw [htext]
  unfold constraintOf constraintTokens
  by_cases hindexed : col.indexed = true
  · rw [if_pos hindexed, if_pos hindexed]
    have hword := hstart.blank (lexesTo_keyword (w := str "INDEXED") (by decide))
    rw [if_neg (by decide), if_pos rfl, List.append_nil]
    exact hword
  · rw [if_neg hindexed, if_neg hindexed]
    by_cases hnull : col.notNull = true
    · rw [if_pos hnull, if_pos hnull]
      have hwords := (hstart.blank (lexesTo_keyword (w := str "NOT") (by decide))).blank
        (lexesTo_keyword (w := str "NULL") (by decide))
      have hnot : str " NOT NULL" = byte ' ' :: str "NOT" ++ byte ' ' :: str "NULL" := rfl
      rw [if_pos rfl, if_neg (by decide), List.append_nil, hnot, ← List.append_assoc]
      exact hwords
    · rw [if_neg hnull, if_neg hnull, if_neg (by decide), if_neg (by decide), List.append_nil,
        List.append_nil]
      exact hstart

/-- **The tokens of a rendered column.** -/
theorem lexesTo_renderColumnSql {col : Parser.ColumnDefinition} (h : ColumnOk col) :
    LexesTo (renderColumnSql (catalogColumn col)) (columnTokens col) := by
  have hconstraint := lexesTo_constraint h
  unfold renderColumnSql catalogColumn columnTokens
  dsimp only
  cases hdefault : col.defaultValue with
  | none =>
      rw [defaultTokens, List.append_nil, List.append_nil]
      exact hconstraint
  | some v =>
      have hliteral := (lexesTo_keyword (w := str "DEFAULT") (by decide)).blank
        (lexesTo_renderLiteralSql (h.default v hdefault))
      exact hconstraint.blank hliteral

/-- The tokens of a rendered schema. -/
theorem tokenize_renderCreateTableSql {stmt : CreateTableStatement} (d : Str)
    (hname : isIdentifier stmt.tableName.objectName = true)
    (hcolumns : ∀ col ∈ stmt.columns, ColumnOk col) :
    tokenize (renderCreateTableSql (schemaOf d stmt))
      = createTableTokens stmt.tableName.objectName stmt.columns := by
  have hlist := lexesTo_commas fun col hcol => lexesTo_renderColumnSql (hcolumns col hcol)
  generalize htail : (str ", ").intercalate
    (stmt.columns.map fun col => renderColumnSql (catalogColumn col)) = tail at hlist
  have htext : renderCreateTableSql (schemaOf d stmt) = str "CREATE" ++ byte ' ' ::
      (str "TABLE" ++ byte ' ' :: (stmt.tableName.objectName ++ byte ' ' :: byte '(' ::
        (tail ++ byte ')' :: byte ';' :: []))) := by
    rw [← htail]
    unfold renderCreateTableSql schemaOf
    simp only [List.append_assoc, List.map_map]
    rfl
  rw [htext, lexesTo_keyword (by decide) _ (head_not_word (by decide) _),
    tokenize_space (by decide),
    lexesTo_keyword (by decide) _ (head_not_word (by decide) _), tokenize_space (by decide),
    lexesTo_identifier hname _ (head_not_word (by decide) _), tokenize_space (by decide),
    tokenize_mark (by decide), hlist _ (head_not_word (by decide) _), tokenize_mark (by decide),
    tokenize_mark (by decide), createTableTokens_eq]
  rfl

/-! ## §2. What a node reads. -/

/-- **A parsed CREATE TABLE** and the schema it makes in a database. -/
structure Created (d : Str) (schema : TableSchema) (stmt : CreateTableStatement) : Prop where
  parsed : ∃ sql, parse sql = .ok (.createTable stmt)
  schema : schema = schemaOf d stmt

/-- A CREATE TABLE that succeeds leaves such a schema. -/
theorem created_of_execute {env : Env} {s : Store} {session : SessionContext} {sql : Str}
    {stmt : CreateTableStatement} (hparse : parse sql = .ok (.createTable stmt))
    (hisOk : (executeCreateTable env s session stmt).2.isOk = true) :
    ∃ d tables schema, resolveDatabaseName session stmt.tableName.databaseName = .ok d ∧
      metadata (executeCreateTable env s session stmt).1 d = some tables ∧
      tables stmt.tableName.objectName = some schema ∧ Created d schema stmt := by
  rcases executeCreateTable_metadata env s session stmt with ⟨-, -, hfails⟩ | ⟨hafter, -⟩
  · rw [hisOk] at hfails
    cases hfails
  · unfold metadataAfter onDatabase at hafter
    dsimp only at hafter
    cases hresolve : resolveDatabaseName session stmt.tableName.databaseName with
    | error e =>
        rw [hresolve] at hafter
        cases hafter
    | fault =>
        rw [hresolve] at hafter
        cases hafter
    | ok d =>
        rw [hresolve] at hafter
        obtain ⟨tables, -, hmade⟩ := Option.bind_eq_some_iff.mp hafter
        obtain ⟨made, hmade, hmetadata⟩ := Option.map_eq_some_iff.mp hmade
        obtain ⟨-, hmade⟩ := Option.ite_none_right_eq_some.mp hmade
        refine ⟨d, made, schemaOf d stmt, rfl, ?_, ?_, ⟨sql, hparse⟩, rfl⟩
        · rw [← hmetadata, Function.update_self]
        · rw [← Option.some.inj hmade, Function.update_self]

section Schema

variable {d : Str} {schema : TableSchema} {stmt : CreateTableStatement}

theorem Created.ok (h : Created d schema stmt) :
    isIdentifier stmt.tableName.objectName = true ∧ (∀ col ∈ stmt.columns, ColumnOk col) ∧
      validateCreateTable stmt = .ok () := by
  obtain ⟨⟨sql, hparse⟩, -⟩ := h
  obtain ⟨⟨hname, hcolumns⟩, hvalid⟩ := parse_create rfl hparse
  exact ⟨hname.1, hcolumns, hvalid⟩

/-- **Without NOT NULL it is read back**, with the escapes left in. -/
theorem parse_renderCreateTableSql (h : Created d schema stmt)
    (hwords : ∀ col ∈ stmt.columns, ¬SaysNotNull col) :
    parse (renderCreateTableSql schema)
      = .ok (.createTable ⟨⟨none, stmt.tableName.objectName⟩, stmt.columns.map rereadColumn⟩) := by
  obtain ⟨hname, hcolumns, hvalid⟩ := h.ok
  rw [h.schema, parse, tokenize_renderCreateTableSql d hname hcolumns]
  exact parseTokens_createTable hname hcolumns hwords hvalid

/-- **With NOT NULL it is refused.** -/
theorem parse_renderCreateTableSql_notNull (h : Created d schema stmt)
    (hwords : ∃ col ∈ stmt.columns, SaysNotNull col) :
    parse (renderCreateTableSql schema)
      = .makeError .parseError (str "expected token: ,") := by
  obtain ⟨hname, hcolumns, -⟩ := h.ok
  rw [h.schema, parse, tokenize_renderCreateTableSql d hname hcolumns]
  exact parseTokens_notNull hname hcolumns hwords

/-! ## §3. What a node creates. -/

/-- CREATE TABLE without a database in front applies where the session's database
has no such table. -/
theorem metadataAfter_createTable {m : Metadata} {session : SessionContext} {t : Str}
    {tables : TableSchemas} (hd : d ≠ []) (hsession : session.currentDatabase = d)
    (htables : m d = some tables) (hnew : tables t = none)
    (columns : List Parser.ColumnDefinition) :
    metadataAfter session m (.createTable ⟨⟨none, t⟩, columns⟩)
      = some (Function.update m d (some (Function.update tables t
          (some (schemaOf d ⟨⟨none, t⟩, columns⟩))))) := by
  unfold metadataAfter onDatabase resolveDatabaseName
  dsimp only
  rw [hsession, if_neg hd]
  dsimp only
  rw [htables, Option.bind_some, if_pos hnew]
  rfl

theorem Created.columns (h : Created d schema stmt) :
    schema.columns = stmt.columns.map catalogColumn := by
  rw [h.schema]
  rfl

end Schema

end CustomDbms.Server
