/-
  CustomDbms.Core.RowInvariant
  ────────────────────────────
  **PROPERTIES OF ROWS UNDER STATEMENTS ON ROWS.**

  A row of a table is there because an INSERT built it or because it was there
  before, perhaps with other values.  A property of rows that every built row
  has and every UPDATE keeps is a property of all rows of the committed state,
  whatever the statement answers: an INSERT that fails at one row has stored
  the rows before it.

    • `executeInsert_rows` — the rows an INSERT leaves;
    • `executeSql_eachRow` — the rule.
-/
import CustomDbms.Core.TableStatements
import CustomDbms.Execution.ColumnValues

namespace CustomDbms.Core

open CustomDbms.Common CustomDbms.Catalog CustomDbms.Execution CustomDbms.Index CustomDbms.Lib
open CustomDbms.Parser CustomDbms.Planner CustomDbms.Storage CustomDbms.Versioning

/-! ## §1. The rows of an INSERT. -/

/-- The values were built from the input row. -/
def BuiltFrom (schema : TableSchema) (map : List Nat) (input : List Expression)
    (vs : List Value) : Prop :=
  ∃ row, buildInsertRow schema map input = .ok row ∧ row.values = vs

/-- **What the loop of INSERT leaves**: the rows built from the inputs up to
the first that cannot be stored. -/
theorem insertRows_rows (env : Env) {d t : Str} {table : TableRuntime} (h : TableOk d t table)
    (map : List Nat) (inputs : List (List Expression)) (v : VersionStore) :
    ∃ k vss, (insertRows env d map inputs table v).1.schema = table.schema ∧
      (insertRows env d map inputs table v).1.heap.rows.map (·.values)
        = table.heap.rows.map (·.values) ++ vss ∧
      List.Forall₂ (BuiltFrom table.schema map) (inputs.take k) vss ∧
      ((insertRows env d map inputs table v).2.2.isOk = true → inputs.take k = inputs) := by
  induction inputs generalizing table v with
  | nil => exact ⟨0, [], rfl, by rw [List.append_nil]; rfl, .nil, fun _ => rfl⟩
  | cons input inputs ih =>
      have hstop : ∀ res : Result Unit, res.isOk = false →
          ∃ k vss, table.schema = table.schema ∧
            table.heap.rows.map (·.values) = table.heap.rows.map (·.values) ++ vss ∧
            List.Forall₂ (BuiltFrom table.schema map) ((input :: inputs).take k) vss ∧
            (res.isOk = true → (input :: inputs).take k = input :: inputs) := by
        intro res hres
        refine ⟨0, [], rfl, (List.append_nil _).symm, .nil, fun hok => ?_⟩
        rw [hres] at hok
        cases hok
      rw [insertRows]
      cases hrow : admitRow table map input with
      | error e => exact hstop (.error e) rfl
      | fault => exact hstop .fault rfl
      | ok row =>
          obtain ⟨hid, hlen, hnew⟩ := admitRow_ok h hrow
          obtain ⟨table', hrun, hok, hschema, hrows⟩ := storeRow_ok env v h hid hlen hnew
          obtain ⟨k, vss, hs, hvalues, hbuilt, hall⟩ := ih hok (appendChangeEvent env v .insertRow d
            table.schema.tableName none none (some { row with rowId := some table.heap.nextRowId }))
          have hthis : BuiltFrom table.schema map input row.values := by
            obtain ⟨built, hbuild, hadmit⟩ := Result.bind_eq_ok.mp hrow
            obtain ⟨_, -, heq⟩ := Result.bind_eq_ok.mp hadmit
            cases heq
            exact ⟨_, hbuild, rfl⟩
          rw [hschema] at hs hbuilt
          simp only [hrun]
          refine ⟨k + 1, row.values :: vss, hs, ?_, .cons hthis hbuilt, fun hisOk => ?_⟩
          · rw [hvalues, hrows, List.map_append, List.append_assoc]
            rfl
          · rw [List.take_succ_cons, hall hisOk]

/-- The values were built from an input row of the INSERT. -/
def BuiltBy (schema : TableSchema) (stmt : InsertStatement) (input : List Expression)
    (vs : List Value) : Prop :=
  ∃ map, insertColumnMap schema stmt.columnNames = .ok map ∧ BuiltFrom schema map input vs

/-- **The rows an INSERT leaves.** -/
theorem executeInsert_rows (env : Env) {d t : Str} {table : TableRuntime} (h : TableOk d t table)
    (stmt : InsertStatement) (v : VersionStore) :
    ∃ k vss, (executeInsert env stmt d table v).1.schema = table.schema ∧
      (executeInsert env stmt d table v).1.heap.rows.map (·.values)
        = table.heap.rows.map (·.values) ++ vss ∧
      List.Forall₂ (BuiltBy table.schema stmt) (stmt.rows.take k) vss ∧
      ((executeInsert env stmt d table v).2.2.isOk = true → stmt.rows.take k = stmt.rows) := by
  unfold executeInsert
  cases hmap : insertColumnMap table.schema stmt.columnNames with
  | error e => exact ⟨0, [], rfl, (List.append_nil _).symm, .nil, fun hok => by cases hok⟩
  | fault => exact ⟨0, [], rfl, (List.append_nil _).symm, .nil, fun hok => by cases hok⟩
  | ok map =>
      obtain ⟨k, vss, hschema, hvalues, hbuilt, hall⟩ := insertRows_rows env h map stmt.rows v
      refine ⟨k, vss, hschema, hvalues, hbuilt.imp fun input vs hb => ⟨map, hmap, hb⟩, ?_⟩
      dsimp only
      intro hisOk
      refine hall ?_
      cases hres : (insertRows env d map stmt.rows table v).2.2 with
      | ok u => rfl
      | error e => rw [hres] at hisOk; cases hisOk
      | fault => rw [hres] at hisOk; cases hisOk

/-! ## §2. Stores. -/

/-- A property of a row: of its values, in a table with a schema. -/
abbrev RowProperty := (databaseName tableName : Str) → TableSchema → List Value → Prop

/-- Every row of the store has the property. -/
def EachRow (P : RowProperty) (s : Store) : Prop :=
  ∀ d t schema, tableSchema s d t = some schema → ∀ vs ∈ tableValues s d t, P d t schema vs

/-- The statement gives the rows it writes the property: those an INSERT builds,
and those an UPDATE makes of rows that have it. -/
structure GivesRows (re : RegexMatch) (P : RowProperty) (s : Store) (session : SessionContext)
    (statement : Statement) : Prop where
  built : ∀ stmt, statement = .insert stmt → ∀ d schema,
    resolveDatabaseName session stmt.tableName.databaseName = .ok d →
    tableSchema s d stmt.tableName.objectName = some schema →
    ∀ input ∈ stmt.rows, ∀ vs, BuiltBy schema stmt input vs → P d stmt.tableName.objectName schema vs
  kept : ∀ name, writeTarget statement = some name → ∀ d schema,
    resolveDatabaseName session name.databaseName = .ok d →
    tableSchema s d name.objectName = some schema →
    ∀ vs vs', P d name.objectName schema vs → written re schema statement vs = some vs' →
      P d name.objectName schema vs'

section Stores

variable {P : RowProperty} {s : Store} {session : SessionContext} {name : QualifiedName}

/-- **The rule for a statement on one table.** -/
theorem withTable_eachRow {f : Str → TableRuntime → VersionStore →
    TableRuntime × VersionStore × Result QueryResult} (h : EachRow P s)
    (hf : ∀ d db table, OnTable s session name d db table →
      (f d table s.versions).1.schema = table.schema ∧
      ∀ vs ∈ (f d table s.versions).1.heap.rows.map (·.values),
        P d name.objectName table.schema vs) :
    (∀ d t, tableSchema (withTable s session name f).1 d t = tableSchema s d t) ∧
      EachRow P (withTable s session name f).1 := by
  rcases withTable_cases s session name with ⟨d, db, table, hon⟩ | ⟨-, hsame⟩
  swap
  · rw [hsame]
    exact ⟨fun _ _ => rfl, h⟩
  obtain ⟨hschema, hrows⟩ := hf d db table hon
  have hat := storeTable_withTable hon f
  have hschemas : ∀ d' t', tableSchema (withTable s session name f).1 d' t'
      = tableSchema s d' t' := by
    intro d' t'
    rw [tableSchema, hat]
    by_cases heq : d' = d ∧ t' = name.objectName
    · rw [if_pos heq, heq.1, heq.2, tableSchema_of_some (storeTable_of_onTable hon),
        Option.map_some, hschema]
    · rw [if_neg heq]
      rfl
  refine ⟨hschemas, fun d' t' schema hs vs hvs => ?_⟩
  rw [hschemas] at hs
  rw [tableValues, hat] at hvs
  by_cases heq : d' = d ∧ t' = name.objectName
  · rw [if_pos heq] at hvs
    rw [heq.1, heq.2] at hs ⊢
    rw [tableSchema_of_some (storeTable_of_onTable hon)] at hs
    cases hs
    exact hrows vs hvs
  · rw [if_neg heq] at hvs
    exact h d' t' schema hs vs hvs

/-- What a write leaves of a table. -/
theorem leavesWritten_rows {re : RegexMatch} {statement : Statement} {table : TableRuntime}
    {r : TableRuntime × VersionStore × Result QueryResult}
    (h : LeavesWritten re statement table r) {Q : List Value → Prop}
    (hrows : ∀ vs ∈ table.heap.rows.map (·.values), Q vs)
    (hkept : ∀ vs vs', Q vs → written re table.schema statement vs = some vs' → Q vs') :
    r.1.schema = table.schema ∧ ∀ vs ∈ r.1.heap.rows.map (·.values), Q vs := by
  rcases h with ⟨-, -, hschema, hvalues⟩ | ⟨-, hsame, -⟩
  · refine ⟨hschema, fun vs' hvs' => ?_⟩
    rw [hvalues] at hvs'
    obtain ⟨vs, hvs, hw⟩ := List.mem_filterMap.mp hvs'
    exact hkept vs vs' (hrows vs hvs) hw
  · rw [hsame]
    exact ⟨rfl, hrows⟩

/-- **A statement on rows keeps the schemas and the property of the rows.** -/
theorem runStatement_eachRow {env : Env} {statement : Statement} (hok : StoreOk s)
    (hrow : isRowStatement statement = true) (h : EachRow P s)
    (hgives : GivesRows env.regexMatch P s session statement) :
    (∀ d t, tableSchema (runStatement env s session statement).1 d t = tableSchema s d t) ∧
      EachRow P (runStatement env s session statement).1 := by
  have htable : ∀ {name d db table}, OnTable s session name d db table →
      TableOk d name.objectName table ∧ tableSchema s d name.objectName = some table.schema ∧
      ∀ vs ∈ table.heap.rows.map (·.values), P d name.objectName table.schema vs := by
    intro name d db table hon
    have hsome := storeTable_of_onTable hon
    refine ⟨tableOk_of_storeOk hok hsome, tableSchema_of_some hsome, fun vs hvs => ?_⟩
    rw [← tableValues_of_some hsome] at hvs
    exact h d _ _ (tableSchema_of_some hsome) vs hvs
  cases statement with
  | insert stmt =>
      refine withTable_eachRow h fun d db table hon => ?_
      obtain ⟨htableOk, hschema, hrows⟩ := htable hon
      obtain ⟨k, vss, hs, hvalues, hbuilt, -⟩ := executeInsert_rows env htableOk stmt s.versions
      refine ⟨hs, fun vs hvs => ?_⟩
      rw [hvalues] at hvs
      rcases List.mem_append.mp hvs with hvs | hvs
      · exact hrows vs hvs
      · obtain ⟨input, hinput, hb⟩ := exists_of_forall₂ hbuilt hvs
        exact hgives.built stmt rfl d _ hon.database hschema input (List.mem_of_mem_take hinput) vs hb
  | update stmt =>
      refine withTable_eachRow h fun d db table hon => ?_
      obtain ⟨htableOk, hschema, hrows⟩ := htable hon
      exact leavesWritten_rows (executeUpdate_written env stmt htableOk s.versions) hrows
        (hgives.kept _ rfl d _ hon.database hschema)
  | delete stmt =>
      refine withTable_eachRow h fun d db table hon => ?_
      obtain ⟨htableOk, hschema, hrows⟩ := htable hon
      exact leavesWritten_rows (executeDelete_written env stmt htableOk s.versions) hrows
        (hgives.kept _ rfl d _ hon.database hschema)
  | select stmt =>
      rw [runStatement_select]
      refine withTable_eachRow h fun d db table hon => ?_
      exact ⟨rfl, (htable hon).2.2⟩
  | _ => cases hrow

end Stores

/-! ## §3. The engine. -/

/-- **The rule for the committed state.** -/
theorem executeSql_eachRow {P : RowProperty} {env : Env} {io : Io} {e : DbmsEngine}
    {session : SessionContext} {sql : Str} {statement : Statement} (hok : EngineOk e)
    (hparse : parse sql = .ok statement) (hrow : isRowStatement statement = true)
    (h : EachRow P e.store) (hgives : GivesRows env.regexMatch P e.store session statement) :
    (∀ d t, tableSchema (executeSql env io e session sql).1.store d t = tableSchema e.store d t) ∧
      EachRow P (executeSql env io e session sql).1.store := by
  obtain ⟨hin, hout⟩ := executeSql_rowStatement env io e session hparse hrow
  cases htx : e.transactions.find? (transactionKey session) with
  | some tx =>
      rw [hin tx htx, executeInTransaction_row hrow rfl]
      exact ⟨fun _ _ => rfl, h⟩
  | none =>
      obtain ⟨disk, hmemory⟩ := executeAutocommit_memory env io e session sql statement true
      rw [hout htx, hmemory]
      exact runStatement_eachRow hok.committed hrow h hgives

end CustomDbms.Core
