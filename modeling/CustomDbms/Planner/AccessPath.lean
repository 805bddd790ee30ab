/-
  CustomDbms.Planner.AccessPath
  ─────────────────────────────
  **THE PLANNED AND THE TAKEN ACCESS PATH** of a `SELECT`.

  The planner announces an index scan where the clause offers a column, the
  name of the table is written WITH ITS DATABASE and that table has an index
  on the column.  `FilterRows` decides on its own: it is handed the table the
  executor resolved through the session, and it reports the index path once
  the lookup and the clause have run without an error.
-/
import CustomDbms.Execution.IndexPath
import CustomDbms.Planner.Planner

namespace CustomDbms.Planner

open CustomDbms.Common CustomDbms.Catalog CustomDbms.Core CustomDbms.Execution CustomDbms.Lib
open CustomDbms.Parser

/-! ## §1. The nodes of a plan. -/

mutual

/-- Whether a node of this kind stands anywhere in the plan. -/
def PlanNode.containsKind (kind : PlanNodeKind) : PlanNode → Bool
  | .mk k _ _ children => decide (k = kind) || childrenContainKind kind children

/-- Whether a node of this kind stands anywhere below. -/
def childrenContainKind (kind : PlanNodeKind) : List PlanNode → Bool
  | [] => false
  | child :: children => child.containsKind kind || childrenContainKind kind children

end

/-- The planner finds an index for the clause. -/
def PlansIndex (state : RuntimeState) (stmt : SelectStatement) : Prop :=
  ∃ column, stmt.whereClause.bind extractIndexedCandidateColumn = some column ∧
    tableHasIndexOnColumn state stmt.tableName column = true

theorem scanNode_contains (state : RuntimeState) (stmt : SelectStatement) :
    (scanNode state stmt).containsKind .indexScan = true ↔ PlansIndex state stmt := by
  unfold scanNode PlansIndex
  dsimp only
  cases hcol : stmt.whereClause.bind extractIndexedCandidateColumn with
  | none =>
      dsimp only
      simp [PlanNode.containsKind, childrenContainKind]
  | some column =>
      dsimp only
      by_cases hidx : tableHasIndexOnColumn state stmt.tableName column = true
      · rw [if_pos hidx]
        simp [PlanNode.containsKind, hidx]
      · rw [if_neg hidx]
        simp [PlanNode.containsKind, childrenContainKind, hidx]

/-- The nodes around the scan are of other kinds. -/
theorem selectPlan_contains (state : RuntimeState) (stmt : SelectStatement) :
    (selectPlan state stmt).containsKind .indexScan
      = (scanNode state stmt).containsKind .indexScan := by
  unfold selectPlan
  dsimp only
  have hchild : ∀ child : PlanNode,
      (if stmt.items.head?.any (·.aggregate.isSome) then
        PlanNode.mk .aggregate (str "aggregate") (.select stmt)
          [.mk .project (str "select " ++ selectItemsSummary stmt.items ++ str " from "
            ++ qualifiedNameToString stmt.tableName) (.select stmt) [child]]
      else .mk .project (str "select " ++ selectItemsSummary stmt.items ++ str " from "
        ++ qualifiedNameToString stmt.tableName) (.select stmt) [child]).containsKind .indexScan
        = child.containsKind .indexScan := by
    intro child
    split_ifs <;> simp [PlanNode.containsKind, childrenContainKind]
  rw [hchild]
  split_ifs
  · simp [PlanNode.containsKind, childrenContainKind]
  · rfl

/-! ## §2. The table of a statement. -/

/-- The table the executor resolves a name to. -/
def namedTable (s : Store) (session : SessionContext) (name : QualifiedName) :
    Option TableRuntime :=
  match resolveDatabaseName session name.databaseName with
  | .ok db => storeTable s db name.objectName
  | .error _ => none
  | .fault => none

/-- A `SELECT` runs on the table its name resolves to. -/
theorem execute_select {env : Env} {s : Store} {session : SessionContext}
    {stmt : SelectStatement} {table : TableRuntime} (detail : Str)
    (h : namedTable s session stmt.tableName = some table) :
    (execute env s session (.select stmt) detail).2.2 = executeSelect env stmt table := by
  unfold namedTable at h
  show (withTable s session stmt.tableName
    fun _ table v => (table, v, executeSelect env stmt table)).2 = _
  unfold withTable
  cases hdb : resolveDatabaseName session stmt.tableName.databaseName with
  | error e => rw [hdb] at h; cases h
  | fault => rw [hdb] at h; cases h
  | ok db =>
      rw [hdb] at h
      obtain ⟨d, hd, ht⟩ := Option.bind_eq_some_iff.mp h
      dsimp only
      rw [hd]
      dsimp only
      rw [ht]

/-- The planner looks at the same table, where the name has its database. -/
theorem tableHasIndexOnColumn_eq {s : Store} {session : SessionContext}
    {name : QualifiedName} {table : TableRuntime} (column : Str)
    (h : namedTable s session name = some table) :
    tableHasIndexOnColumn s.runtime name column
      = (name.databaseName.isSome && table.indexes.contains column) := by
  unfold tableHasIndexOnColumn
  cases hname : name.databaseName with
  | none => rfl
  | some db =>
      have hok : resolveDatabaseName session name.databaseName = .ok db := by rw [hname]; rfl
      unfold namedTable at h
      rw [hok] at h
      obtain ⟨d, hd, ht⟩ := Option.bind_eq_some_iff.mp h
      dsimp only
      rw [hd]
      dsimp only
      rw [ht]
      rfl

/-! ## §3. The index path of the executor. -/

/-- The index path of `FilterRows` runs to its end: the literals have keys, the
tree answers, and the clause has a value on every candidate row. -/
def IndexPathRuns (re : RegexMatch) (clause : Option Expression) (table : TableRuntime) : Prop :=
  ∃ ids, indexCandidates table.schema table.indexes clause = .ok (some ids) ∧
    ∀ i ∈ ids, ∀ row ∈ lookupRow table.heap.rows i,
      ∃ b, passes re table.schema clause row = .ok b

theorem filterCandidates_isOk {re : RegexMatch} {schema : TableSchema}
    {clause : Option Expression} {rows : List RowData} {ids : List RowId} :
    (∃ found, filterCandidates re schema clause rows ids = .ok found) ↔
      ∀ i ∈ ids, ∀ row ∈ lookupRow rows i, ∃ b, passes re schema clause row = .ok b := by
  induction ids with
  | nil => simp [filterCandidates]
  | cons i ids ih =>
      rw [List.forall_mem_cons, ← ih, filterCandidates, lookupRow]
      cases hrow : rows.find? fun row => decide (row.rowId = i) with
      | none => simp
      | some row =>
          -- the clause on this row, then the rows of the other candidates
          cases hpass : passes re schema clause row with
          | ok b => cases filterCandidates re schema clause rows ids <;> simp [hpass]
          | error e => simp [hpass]
          | fault => simp [hpass]

/-- `used_index_path` is set where the index path runs to its end. -/
theorem filterRows_used_iff {re : RegexMatch} {clause : Option Expression}
    {table : TableRuntime} :
    (∃ found, filterRows re table.heap.scanAll clause table.schema table.indexes
      = .ok (found, true)) ↔ IndexPathRuns re clause table := by
  unfold IndexPathRuns filterRows
  cases hcand : indexCandidates table.schema table.indexes clause with
  | error e => simp
  | fault => simp
  | ok candidates =>
      cases candidates with
      | none => cases filterScan re table.schema clause table.heap.scanAll <;> simp
      | some ids =>
          rw [Result.ok_bind]
          dsimp only
          have hids : (∃ ids', Result.ok (some ids) = .ok (some ids') ∧
              ∀ i ∈ ids', ∀ row ∈ lookupRow table.heap.rows i,
                ∃ b, passes re table.schema clause row = .ok b) ↔
              ∃ found, filterCandidates re table.schema clause table.heap.rows ids
                = .ok found := by
            rw [filterCandidates_isOk]
            simp
          rw [hids]
          show (∃ found, (filterCandidates re table.schema clause table.heap.rows ids >>=
            fun found => Result.ok (found, true)) = .ok (found, true)) ↔ _
          cases filterCandidates re table.schema clause table.heap.rows ids <;> simp

/-- The executor takes the index path on a candidate of the planner only. -/
theorem candidate_of_indexCandidates {schema : TableSchema} {indexes : Dict Str IndexTree}
    {clause : Option Expression} {ids : List RowId}
    (h : indexCandidates schema indexes clause = .ok (some ids)) :
    ∃ column, clause.bind extractIndexedCandidateColumn = some column ∧
      indexes.contains column = true := by
  unfold indexCandidates at h
  split at h
  · -- `column op literal`
    rename_i op database tbl column v
    split at h
    · rename_i i tree hi htree
      have hop : op ≠ .notEqual := by
        intro hne
        subst hne
        cases hc : schema.columns[i]? with
        | none => simp [hc] at h
        | some c => cases hk : encodeIndexKey v c.type <;> simp [comparisonCandidates, hc, hk] at h
      refine ⟨column, ?_, by rw [Dict.contains, htree]; rfl⟩
      simp [extractIndexedCandidateColumn, hop]
    · cases h
  · -- `column BETWEEN literal AND literal`
    split at h
    · rename_i column _ _ _ _ htree
      exact ⟨_, rfl, by rw [Dict.contains, htree]; rfl⟩
    · cases h
  · cases h

/-- In a table in step the index path runs to its end on literals of the type of
the column. -/
theorem indexPathRuns_of_typed {re : RegexMatch} {d t : Str} {table : TableRuntime}
    (htab : TableOk d t table) {i : Nat} {c : Catalog.ColumnDefinition}
    (hc : table.schema.columns[i]? = some c) (hidx : c.constraint = .indexed)
    {literals : List Value} {expr : Expression} (hclause : IndexClause c.name literals expr)
    (hcand : extractIndexedCandidateColumn expr = some c.name)
    (htyped : ∀ w ∈ literals, isNull w = false ∧ getValueType w = c.type) :
    IndexPathRuns re (some expr) table := by
  have hi := htab.schema.findColumnIndex_eq hc
  have hnodup := htab.heap.ordered.nodup
  obtain ⟨tree, htree, hix, hrows⟩ := indexed_column htab hc hidx
  have hliteral : ∀ w ∈ literals, ∃ l, encodeIndexKey w c.type = some l := by
    intro w hw
    exact Option.isSome_iff_exists.mp (encodeIndexKey_isSome (Or.inr (htyped w hw).2))
  -- every row has a value of the column, comparable with the literals
  have hvalue : ∀ row ∈ table.heap.rows, ∃ v, row.values[i]? = some v ∧
      ∀ w ∈ literals, getValueType v = getValueType w ∧ (compareValues v w).isSome := by
    intro row hrow
    obtain ⟨v, k, hv, hnull, henc, -⟩ := hrows row hrow
    refine ⟨v, hv, ?_⟩
    intro w hw
    obtain ⟨l, hl⟩ := hliteral w hw
    have htype := getValueType_eq_of_encode hnull (htyped w hw).1 henc hl
    exact ⟨htype, compareValues_isSome htype⟩
  cases hclause with
  | comparison op database tbl w =>
      obtain ⟨l, hl⟩ := hliteral w (by simp)
      have hop : op ≠ .notEqual := by
        intro hne
        subst hne
        cases hcand
      have hids : indexCandidates table.schema table.indexes (some (.binaryComparison op
          (.columnReference database tbl c.name) (.literal w)))
          = comparisonCandidates tree op l := by
        simp [indexCandidates, hi, htree, hc, hl]
      obtain ⟨hne, -⟩ | ⟨ids, heq, -, -⟩ := comparisonCandidates_spec hix hnodup op l
      · exact absurd hne hop
      · refine ⟨ids, hids.trans heq, ?_⟩
        intro j _ row hrow
        obtain ⟨v, hv, hcmp⟩ := hvalue row (mem_of_lookupRow hrow).1
        obtain ⟨htype, hsome⟩ := hcmp w (by simp)
        obtain ⟨d, hd⟩ := Option.isSome_iff_exists.mp hsome
        refine ⟨compareWith op d, ?_⟩
        rw [passes, evaluatePredicate, evaluate_columnReference hi hv]
        simp [evaluateValueExpression, htype, hd]
  | between database tbl lower upper =>
      obtain ⟨lk, hlk⟩ := hliteral lower (by simp)
      obtain ⟨uk, huk⟩ := hliteral upper (by simp)
      obtain ⟨ids, hscan, -, -⟩ := scanRowIds_spec hix hnodup lk uk
      refine ⟨ids, ?_, ?_⟩
      · simp only [indexCandidates, hi, htree, hc, hlk, huk, hscan, Result.ofOption_some,
          Result.ok_bind]
        rfl
      · intro j _ row hrow
        obtain ⟨v, hv, hcmp⟩ := hvalue row (mem_of_lookupRow hrow).1
        obtain ⟨htl, hsl⟩ := hcmp lower (by simp)
        obtain ⟨htu, hsu⟩ := hcmp upper (by simp)
        obtain ⟨d, hd⟩ := Option.isSome_iff_exists.mp hsl
        obtain ⟨f, hf⟩ := Option.isSome_iff_exists.mp hsu
        refine ⟨decide (0 ≤ d) && decide (f < 0), ?_⟩
        rw [passes, evaluatePredicate, evaluate_columnReference hi hv]
        simp [evaluateValueExpression, operand, evaluateBetween, ← htl, ← htu, hd, hf]

/-! ## §4. Agreement. -/

/-- The clause offers a column the table has an index on. -/
def OffersIndex (clause : Option Expression) (table : TableRuntime) : Prop :=
  ∃ column, clause.bind extractIndexedCandidateColumn = some column ∧
    table.indexes.contains column = true

/-- The plan of the statement has an index scan. -/
def PlansIndexScan (s : Store) (stmt : SelectStatement) : Prop :=
  ∃ plan, buildPlan s.runtime (.select stmt) = .ok plan ∧ plan.containsKind .indexScan = true

/-- On the table of the statement `FilterRows` sets `used_index_path`. -/
def TakesIndexPath (re : RegexMatch) (stmt : SelectStatement) (table : TableRuntime) : Prop :=
  ∃ found, filterRows re table.heap.scanAll stmt.whereClause table.schema table.indexes
    = .ok (found, true)

theorem plansIndexScan_iff {s : Store} {session : SessionContext} {stmt : SelectStatement}
    {table : TableRuntime} (h : namedTable s session stmt.tableName = some table) :
    PlansIndexScan s stmt ↔
      stmt.tableName.databaseName.isSome = true ∧ OffersIndex stmt.whereClause table := by
  have hplan : PlansIndexScan s stmt ↔ PlansIndex s.runtime stmt := by
    rw [← scanNode_contains, ← selectPlan_contains]
    simp [PlansIndexScan, buildPlan]
  rw [hplan]
  unfold PlansIndex OffersIndex
  constructor
  · rintro ⟨column, hcol, hidx⟩
    rw [tableHasIndexOnColumn_eq column h, Bool.and_eq_true] at hidx
    exact ⟨hidx.1, column, hcol, hidx.2⟩
  · rintro ⟨hname, column, hcol, hidx⟩
    exact ⟨column, hcol, by rw [tableHasIndexOnColumn_eq column h, hname, hidx]; rfl⟩

/-- **Plan and execution agree on the access path** exactly where, for a clause
that offers an index of the table, the table is named with its database when
the index path runs to its end, and only then. -/
theorem access_path_agrees_iff (re : RegexMatch) {s : Store} {session : SessionContext}
    {stmt : SelectStatement} {table : TableRuntime}
    (h : namedTable s session stmt.tableName = some table) :
    (PlansIndexScan s stmt ↔ TakesIndexPath re stmt table) ↔
      (OffersIndex stmt.whereClause table →
        (stmt.tableName.databaseName.isSome = true ↔
          IndexPathRuns re stmt.whereClause table)) := by
  have htaken : TakesIndexPath re stmt table ↔ IndexPathRuns re stmt.whereClause table :=
    filterRows_used_iff
  -- the index path starts from a candidate of the planner
  have hoffer : IndexPathRuns re stmt.whereClause table → OffersIndex stmt.whereClause table := by
    rintro ⟨ids, hids, -⟩
    exact candidate_of_indexCandidates hids
  rw [plansIndexScan_iff h, htaken]
  tauto

/-- A session that is using the database of the sample run. -/
def selectSession : SessionContext := ⟨str "a", str "d"⟩

/-- `SELECT * FROM t WHERE k == 1`, with or without the database of `t`. -/
def selectByKey (database : Option Str) : SelectStatement where
  tableName := ⟨database, str "t"⟩
  items := [⟨true, str "*", none, none⟩]
  whereClause := some (.binaryComparison .equal (.columnReference none none (str "k"))
    (.literal (.int 1)))

theorem namedTable_selectByKey (s : Store) {database : Option Str}
    (h : database = none ∨ database = some (str "d")) :
    namedTable s selectSession (selectByKey database).tableName
      = storeTable s (str "d") (str "t") := by
  rcases h with rfl | rfl <;> rfl

theorem selectByKey_table : ∃ table,
    namedTable sampleRun.1.store selectSession (selectByKey none).tableName = some table ∧
      namedTable sampleRun.1.store selectSession (selectByKey (some (str "d"))).tableName
        = some table ∧
      table.schema.columns[0]? = some ⟨str "k", .int64, .indexed, none⟩ ∧
      ∃ d t, TableOk d t table := by
  have hsome : (storeTable sampleRun.1.store (str "d") (str "t")).isSome = true := by
    decide +kernel
  have hcolumn : ∀ table ∈ storeTable sampleRun.1.store (str "d") (str "t"),
      table.schema.columns[0]? = some ⟨str "k", .int64, .indexed, none⟩ := by
    decide +kernel
  obtain ⟨table, htable⟩ := Option.isSome_iff_exists.mp hsome
  obtain ⟨db, hdb, ht⟩ := Option.bind_eq_some_iff.mp htable
  refine ⟨table, ?_, ?_, hcolumn table htable, ?_⟩
  · rw [namedTable_selectByKey _ (.inl rfl), htable]
  · rw [namedTable_selectByKey _ (.inr rfl), htable]
  exact ⟨_, _,
    (((reachable_ok reachable_sampleRun).of .committed).state _ db hdb).tables _ table ht⟩

/-- In a session that is using the database, the name without it: the index path
is taken and no index scan is planned. -/
theorem unqualified_select_plans_scan : ∃ table,
    namedTable sampleRun.1.store selectSession (selectByKey none).tableName = some table ∧
      ¬ (PlansIndexScan sampleRun.1.store (selectByKey none) ↔
        TakesIndexPath sampleEnv.regexMatch (selectByKey none) table) := by
  obtain ⟨table, htable, -, hcolumn, d, t, htab⟩ := selectByKey_table
  refine ⟨table, htable, ?_⟩
  have htaken : TakesIndexPath sampleEnv.regexMatch (selectByKey none) table :=
    filterRows_used_iff.mpr (indexPathRuns_of_typed htab hcolumn rfl
      (.comparison .equal none none (.int 1)) rfl (by simp [getValueType]))
  rw [plansIndexScan_iff htable]
  intro hagree
  exact absurd (hagree.mpr htaken).1 (by decide)

/-- Named with its database, the same table is read as planned. -/
theorem access_path_agrees_iff_sampleRun : ∃ table,
    namedTable sampleRun.1.store selectSession (selectByKey (some (str "d"))).tableName
        = some table ∧
      (PlansIndexScan sampleRun.1.store (selectByKey (some (str "d"))) ↔
        TakesIndexPath sampleEnv.regexMatch (selectByKey (some (str "d"))) table) := by
  obtain ⟨table, -, htable, hcolumn, d, t, htab⟩ := selectByKey_table
  refine ⟨table, htable, (access_path_agrees_iff sampleEnv.regexMatch htable).mpr ?_⟩
  have hruns : IndexPathRuns sampleEnv.regexMatch (selectByKey (some (str "d"))).whereClause
      table :=
    indexPathRuns_of_typed htab hcolumn rfl (.comparison .equal none none (.int 1)) rfl
      (by simp [getValueType])
  exact fun _ => ⟨fun _ => hruns, fun _ => rfl⟩

/-- In every state of every run, on a clause over an INDEXED column with literals
of its type, they agree exactly where the table is named with its database. -/
theorem access_path_agrees_iff_qualified {e : DbmsEngine} (he : Reachable e) {s : Store}
    (hs : StoreOf e s) (re : RegexMatch) {session : SessionContext} {stmt : SelectStatement}
    {table : TableRuntime} (h : namedTable s session stmt.tableName = some table) {i : Nat}
    {c : Catalog.ColumnDefinition} (hc : table.schema.columns[i]? = some c)
    (hidx : c.constraint = .indexed) {literals : List Value} {expr : Expression}
    (hwhere : stmt.whereClause = some expr) (hclause : IndexClause c.name literals expr)
    (hcand : extractIndexedCandidateColumn expr = some c.name)
    (htyped : ∀ w ∈ literals, isNull w = false ∧ getValueType w = c.type) :
    (PlansIndexScan s stmt ↔ TakesIndexPath re stmt table) ↔
      stmt.tableName.databaseName.isSome = true := by
  have htab : ∃ d t, TableOk d t table := by
    unfold namedTable at h
    cases hdb : resolveDatabaseName session stmt.tableName.databaseName with
    | error e => rw [hdb] at h; cases h
    | fault => rw [hdb] at h; cases h
    | ok db =>
        rw [hdb] at h
        obtain ⟨d, hd, ht⟩ := Option.bind_eq_some_iff.mp h
        exact ⟨_, _, (((reachable_ok he).of hs).state _ d hd).tables _ table ht⟩
  obtain ⟨d, t, htab⟩ := htab
  have hruns : IndexPathRuns re stmt.whereClause table := by
    rw [hwhere]
    exact indexPathRuns_of_typed htab hc hidx hclause hcand htyped
  obtain ⟨ids, hids, -⟩ := id hruns
  have hoffer : OffersIndex stmt.whereClause table := candidate_of_indexCandidates hids
  have htaken : TakesIndexPath re stmt table := filterRows_used_iff.mpr hruns
  rw [plansIndexScan_iff h]
  tauto

end CustomDbms.Planner
