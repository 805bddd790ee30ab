/-
  CustomDbms.Server.RowMoves
  ──────────────────────────
  **THE ROWS OF ONE TABLE MOVE** (`RebalanceClusterData`).

  The rows of one node are dumped, sorted by the node their shard keys hash to,
  and inserted there by a two-phase commit.  A move on its way has added the
  rows of the tables that are done to the nodes they belong on.

    • `executeSql_enters` — the INSERT on one node;
    • `collectRows_single` — the rows of one dump are all different;
    • `rebalanceTable_moves` — one table.
-/
import CustomDbms.Core.RelationalRefinement
import CustomDbms.Server.SplitInsert
import CustomDbms.Server.TableDumps

namespace CustomDbms.Server

open CustomDbms.Common CustomDbms.Lib CustomDbms.Parser CustomDbms.Catalog CustomDbms.Network
open CustomDbms.Execution CustomDbms.Core CustomDbms.Runtime CustomDbms.Versioning

/-! ## §1. The INSERT on one node. -/

/-- **A row that survives the move**: its table takes it as it is, it is one
line of a dump, and SQL needs no escape for it. -/
structure Movable (schema : TableSchema) (row : List Value) : Prop where
  admitted : validateValues schema.columns row = .ok row
  length : row.length = schema.columns.length
  oneLine : ∀ v ∈ row, OneLine v
  plain : ∀ v ∈ row, Plain v

/-- The statement that moves rows. -/
def moveStatement (d t : Str) (schema : TableSchema) (rows : List (List Value)) :
    InsertStatement :=
  ⟨⟨some d, t⟩, schema.columns.map (·.name), rows.map fun row => row.map Expression.literal⟩

/-- The columns in their order. -/
theorem insertColumnMap_self {d t : Str} {schema : TableSchema} (h : SchemaOk d t schema) :
    insertColumnMap schema (schema.columns.map (·.name))
      = .ok (List.range schema.columns.length) := by
  have key : ∀ rest front, schema.columns = front ++ rest →
      insertColumnMap schema (rest.map (·.name))
        = .ok (List.range' front.length rest.length) := by
    intro rest
    induction rest with
    | nil => exact fun _ _ => rfl
    | cons c rest ih =>
        intro front hsplit
        have hc : schema.columns[front.length]? = some c := by
          rw [hsplit]
          simp
        have hrest := ih (front ++ [c]) (by rw [hsplit, List.append_assoc]; rfl)
        rw [List.length_append, List.length_singleton] at hrest
        unfold insertColumnMap at hrest ⊢
        rw [List.map_cons, Result.mapList_cons, h.findColumnIndex_eq hc, hrest]
        rfl
  rw [List.range_eq_range']
  exact key schema.columns [] rfl

/-- The literals fill the row from its front. -/
theorem fillRow_literals (front row : List Value) :
    fillRow (List.range' front.length row.length) (row.map Expression.literal)
      (front ++ List.replicate row.length Value.null) = .ok (front ++ row) := by
  induction row generalizing front with
  | nil => rfl
  | cons v row ih =>
      have hset : (front ++ List.replicate (row.length + 1) Value.null).set front.length v
          = (front ++ [v]) ++ List.replicate row.length Value.null := by
        rw [List.set_append_right _ _ (Nat.le_refl _), Nat.sub_self, List.append_assoc]
        rfl
      have hnext := ih (front ++ [v])
      rw [List.length_append, List.length_singleton, List.append_assoc] at hnext
      rw [List.length_cons, List.range'_succ, List.map_cons, fillRow,
        if_pos (by simp), hset]
      rw [List.append_assoc] at *
      exact hnext

/-- A movable row is built as it is. -/
theorem inputTuple_movable {schema : TableSchema} {row : List Value} (h : Movable schema row) :
    inputTuple schema (List.range schema.columns.length) (row.map Expression.literal)
      = some row := by
  have hfill := fillRow_literals [] row
  rw [List.nil_append, List.nil_append, List.length_nil, h.length, ← List.range_eq_range']
    at hfill
  have hbuild : buildInsertRow schema (List.range schema.columns.length)
      (row.map Expression.literal) = .ok { values := row } := by
    unfold buildInsertRow
    rw [hfill]
    show (validateValues schema.columns row >>= fun vs => (.ok { values := vs } : Result RowData))
      = _
    rw [h.admitted]
    rfl
  unfold inputTuple
  rw [hbuild]

/-- **Rows that have all entered have been added to the bag.** -/
theorem enter_movable {schema : TableSchema} {rows : List (List Value)}
    (h : ∀ row ∈ rows, Movable schema row) {B : Multiset Tuple}
    (hall : (enter schema (List.range schema.columns.length)
      (rows.map fun row => row.map Expression.literal) B).2 = true) :
    (enter schema (List.range schema.columns.length)
      (rows.map fun row => row.map Expression.literal) B).1 = B + rows := by
  induction rows generalizing B with
  | nil => exact (add_zero B).symm
  | cons row rows ih =>
      obtain ⟨hrow, hrows⟩ := List.forall_mem_cons.mp h
      rw [List.map_cons, enter, inputTuple_movable hrow] at hall ⊢
      dsimp only at hall ⊢
      split at hall
      · rename_i hkeyed
        rw [if_pos hkeyed, ih hrows hall, ← Multiset.cons_coe, Multiset.cons_add, Multiset.add_cons]
      · cases hall

/-- **An engine in order without transactions.** -/
structure Settled (e : DbmsEngine) : Prop where
  ok : EngineOk e
  closed : ∀ key, e.transactions.find? key = none

/-- A statement that succeeds outside transactions has succeeded before the
files were written. -/
theorem runStatement_isOk {env : Env} {io : Io} {e : DbmsEngine} {session : SessionContext}
    {sql : Str} {statement : Statement}
    (h : (executeAutocommit env io e session sql statement true).2.2.isOk = true) :
    (runStatement env e.store session statement).2.2.isOk = true := by
  unfold executeAutocommit at h
  dsimp only at h
  cases hresult : (runStatement env e.store session statement).2.2 with
  | ok q => rfl
  | error err =>
      rw [hresult] at h
      cases h
  | fault =>
      rw [hresult] at h
      cases h

/-- What the INSERT makes of its table. -/
theorem executeInsert_movable {env : Env} {d t : Str} {table : TableRuntime} {v : VersionStore}
    {rows : List (List Value)} (h : TableOk d t table)
    (hrows : ∀ row ∈ rows, Movable table.schema row)
    (hisOk : (executeInsert env (moveStatement d t table.schema rows) d table v).2.2.isOk = true) :
    (executeInsert env (moveStatement d t table.schema rows) d table v).1.schema = table.schema ∧
      tuplesOf (executeInsert env (moveStatement d t table.schema rows) d table v).1.heap.rows
        = tuplesOf table.heap.rows + rows := by
  unfold executeInsert at hisOk ⊢
  rw [show (moveStatement d t table.schema rows).columnNames
    = table.schema.columns.map (·.name) from rfl, insertColumnMap_self h.schema] at hisOk ⊢
  dsimp only at hisOk ⊢
  obtain ⟨hschema, henter⟩ := insertRows_enter env (List.range table.schema.columns.length)
    (rows.map fun row => row.map Expression.literal) v h
  refine ⟨hschema, ?_⟩
  have hall : (enter table.schema (List.range table.schema.columns.length)
      (rows.map fun row => row.map Expression.literal) (tuplesOf table.heap.rows)).2 = true := by
    rw [henter]
    dsimp only
    revert hisOk
    show (Result.map _ (insertRows env d _ (rows.map fun row => row.map Expression.literal) table
      v).2.2).isOk = true → _
    cases (insertRows env d (List.range table.schema.columns.length)
      (rows.map fun row => row.map Expression.literal) table v).2.2 with
    | ok u => exact fun _ => rfl
    | error err => exact fun h => by cases h
    | fault => exact fun h => by cases h
  have hbag := enter_movable hrows hall
  rw [henter] at hbag
  exact hbag

/-- **The INSERT of a move**: where it succeeds its rows have been added to the
table, and nothing else has changed. -/
theorem executeSql_enters {env : Env} {io : Io} {e : DbmsEngine} {session : SessionContext}
    {sql d t : Str} {schema : TableSchema} {rows : List (List Value)} (h : Settled e)
    (hschema : tableSchema e.store d t = some schema) (hrows : ∀ row ∈ rows, Movable schema row)
    (hparse : parse sql = .ok (.insert (moveStatement d t schema rows)))
    (hisOk : (executeSql env io e session sql).2.2.isOk = true) :
    Settled (executeSql env io e session sql).1 ∧
      (∀ d' t', tableSchema (executeSql env io e session sql).1.store d' t'
        = tableSchema e.store d' t') ∧
      ∀ d' t', (tableValues (executeSql env io e session sql).1.store d' t' : Multiset Tuple)
        = tableValues e.store d' t' + if d' = d ∧ t' = t then (rows : Multiset Tuple) else 0 := by
  obtain ⟨table, htable, rfl⟩ := tableSchema_eq_some.mp hschema
  obtain ⟨db, hdb, ht⟩ := storeTable_eq_some.mp htable
  have htab := tableOk_of_storeOk h.ok.committed htable
  have hon : OnTable e.store session (moveStatement d t table.schema rows).tableName d db table :=
    ⟨rfl, hdb, ht⟩
  have hexecute : executeSql env io e session sql = executeAutocommit env io e session sql
      (.insert (moveStatement d t table.schema rows)) true := by
    refine (executeSqlImpl_statement hparse (by simp) (by simp) (by simp)).trans ?_
    rw [h.closed]
  have hok : EngineOk (executeSql env io e session sql).1 := executeSqlImpl_ok h.ok session sql true
  obtain ⟨disk, hmemory⟩ := executeAutocommit_memory env io e session sql
    (.insert (moveStatement d t table.schema rows)) true
  rw [hexecute] at hisOk hok ⊢
  rw [hmemory] at hok ⊢
  have hrun : runStatement env e.store session (.insert (moveStatement d t table.schema rows))
      = ((withTable e.store session (moveStatement d t table.schema rows).tableName
          (executeInsert env (moveStatement d t table.schema rows))).1, session,
        (withTable e.store session (moveStatement d t table.schema rows).tableName
          (executeInsert env (moveStatement d t table.schema rows))).2) := rfl
  have hinsertOk := runStatement_isOk hisOk
  rw [hrun, withTable_onTable hon] at hinsertOk
  obtain ⟨hkept, hbag⟩ := executeInsert_movable htab hrows hinsertOk
  have hstore : ∀ d' t', storeTable ((e.withStore (runStatement env e.store session
        (.insert (moveStatement d t table.schema rows))).1).withDisk disk).store d' t'
      = if d' = d ∧ t' = t then
          some (executeInsert env (moveStatement d t table.schema rows) d table e.store.versions).1
        else storeTable e.store d' t' :=
    fun d' t' => storeTable_withTable hon _ d' t'
  refine ⟨⟨hok, h.closed⟩, fun d' t' => ?_, fun d' t' => ?_⟩
  · unfold tableSchema
    rw [hstore]
    split
    · rename_i hsame
      obtain ⟨rfl, rfl⟩ := hsame
      rw [htable, Option.map_some, Option.map_some, hkept]
    · rfl
  · unfold tableValues
    rw [hstore]
    split
    · rename_i hsame
      obtain ⟨rfl, rfl⟩ := hsame
      rw [htable]
      exact hbag
    · rw [add_zero]

/-! ## §2. The rows of one dump. -/

/-- The text by which equal rows are told. -/
def fingerprint (row : List Value) : Str :=
  row.flatMap fun value => renderLiteralSql value ++ str "|"

/-- A rendered value that is no string, which holds neither quote nor bar. -/
theorem bare_renderLiteralSql {v : Value} (h : ∀ s, v ≠ .string s) :
    byte '|' ∉ renderLiteralSql v ∧ byte '"' ∉ renderLiteralSql v := by
  cases v with
  | null => decide
  | int i =>
      have hnumber : ∀ c ∈ renderLiteralSql (.int i), isNumberByte c = true :=
        isNumberByte_intToString i.toInt
      constructor
      · intro hm
        exact absurd (hnumber _ hm) (by decide)
      · intro hm
        exact absurd (hnumber _ hm) (by decide)
  | string s => exact absurd rfl (h s)

theorem escapeJsonText_of_plain {s : Str} (h : Plain (.string s)) : escapeJsonText s = s := by
  rcases escapeJsonText_cases s with ⟨-, heq⟩ | ⟨hsome, -⟩
  · exact heq
  · exact absurd h hsome

theorem quote_not_mem_of_plain {s : Str} (h : Plain (.string s)) : byte '"' ∉ s :=
  fun hm => absurd (h _ hm) (by decide)

/-- A bare value is one by its text. -/
theorem renderLiteralSql_inj {v w : Value} (hv : ∀ s, v ≠ .string s) (hw : ∀ s, w ≠ .string s)
    (h : renderLiteralSql v = renderLiteralSql w) : v = w := by
  have hnumber : ∀ i : Int64, str "NULL" ≠ intToString i.toInt := by
    intro i heq
    have hread := stoll_intToString i
    rw [← heq] at hread
    cases hread
  cases v with
  | string s => exact absurd rfl (hv s)
  | null =>
      cases w with
      | string s => exact absurd rfl (hw s)
      | null => rfl
      | int j => exact absurd h (hnumber j)
  | int i =>
      cases w with
      | string s => exact absurd rfl (hw s)
      | null => exact absurd h.symm (hnumber i)
      | int j =>
          have hi := stoll_intToString i
          rw [show intToString i.toInt = intToString j.toInt from h, stoll_intToString j] at hi
          cases hi
          rfl

/-- Texts cut at the first byte of a kind. -/
theorem cut_inj {c : Byte} {s s' x y : Str} (hs : c ∉ s) (hs' : c ∉ s')
    (h : s ++ c :: x = s' ++ c :: y) : s = s' ∧ x = y := by
  induction s generalizing s' with
  | nil =>
      cases s' with
      | nil => exact ⟨rfl, List.tail_eq_of_cons_eq h⟩
      | cons d s' => exact absurd (List.head_eq_of_cons_eq h) fun hd => hs' (by simp [hd])
  | cons b s ih =>
      cases s' with
      | nil => exact absurd (List.head_eq_of_cons_eq h) fun hb => hs (by simp [hb])
      | cons d s' =>
          have hhead : b = d := List.head_eq_of_cons_eq h
          obtain ⟨rfl, rfl⟩ := ih (fun hm => hs (by simp [hm])) (fun hm => hs' (by simp [hm]))
            (List.tail_eq_of_cons_eq h)
          exact ⟨by rw [hhead], rfl⟩

/-- **The first value and the rest of a fingerprint.** -/
theorem fingerprint_cons_inj {v w : Value} (hv : Plain v) (hw : Plain w) {x y : Str}
    (h : renderLiteralSql v ++ byte '|' :: x = renderLiteralSql w ++ byte '|' :: y) :
    v = w ∧ x = y := by
  have hstring : ∀ {s : Str}, Plain (.string s) → ∀ rest,
      renderLiteralSql (.string s) ++ rest = byte '"' :: (s ++ byte '"' :: rest) := by
    intro s hs rest
    show str "\"" ++ escapeJsonText s ++ str "\"" ++ rest = _
    rw [escapeJsonText_of_plain hs, List.append_assoc, List.append_assoc]
    rfl
  have hmixed : ∀ {s : Str} {u : Value} {x y : Str}, Plain (.string s) → (∀ s, u ≠ .string s) →
      renderLiteralSql (.string s) ++ byte '|' :: x ≠ renderLiteralSql u ++ byte '|' :: y := by
    intro s u x y hs hu heq
    rw [hstring hs] at heq
    have hquote := (bare_renderLiteralSql hu).2
    cases hrender : renderLiteralSql u with
    | nil =>
        rw [hrender] at heq
        exact absurd (List.head_eq_of_cons_eq heq) (by decide)
    | cons c text =>
        rw [hrender] at heq hquote
        exact hquote (by simp [List.head_eq_of_cons_eq heq])
  by_cases hvs : ∃ s, v = .string s
  · obtain ⟨s, rfl⟩ := hvs
    by_cases hws : ∃ s, w = .string s
    · obtain ⟨s', rfl⟩ := hws
      rw [hstring hv, hstring hw] at h
      obtain ⟨hs, hrest⟩ := cut_inj (quote_not_mem_of_plain hv) (quote_not_mem_of_plain hw)
        (List.tail_eq_of_cons_eq h)
      exact ⟨by rw [hs], List.tail_eq_of_cons_eq hrest⟩
    · exact absurd h (hmixed hv fun s hs => hws ⟨s, hs⟩)
  · by_cases hws : ∃ s, w = .string s
    · obtain ⟨s', rfl⟩ := hws
      exact absurd h.symm (hmixed hw fun s hs => hvs ⟨s, hs⟩)
    · have hv' : ∀ s, v ≠ .string s := fun s hs => hvs ⟨s, hs⟩
      have hw' : ∀ s, w ≠ .string s := fun s hs => hws ⟨s, hs⟩
      obtain ⟨heq, hrest⟩ := cut_inj (bare_renderLiteralSql hv').1 (bare_renderLiteralSql hw').1 h
      exact ⟨renderLiteralSql_inj hv' hw' heq, hrest⟩

/-- **Different rows have different fingerprints.** -/
theorem fingerprint_inj {row row' : List Value} (hlength : row.length = row'.length)
    (h : ∀ v ∈ row, Plain v) (h' : ∀ v ∈ row', Plain v)
    (heq : fingerprint row = fingerprint row') : row = row' := by
  induction row generalizing row' with
  | nil => exact (List.length_eq_zero_iff.mp hlength.symm).symm
  | cons v row ih =>
      cases row' with
      | nil => cases hlength
      | cons v' row' =>
          obtain ⟨hv, hrow⟩ := List.forall_mem_cons.mp h
          obtain ⟨hv', hrow'⟩ := List.forall_mem_cons.mp h'
          unfold fingerprint at heq
          rw [List.flatMap_cons, List.flatMap_cons, List.append_assoc, List.append_assoc] at heq
          obtain ⟨rfl, hrest⟩ := fingerprint_cons_inj hv hv' heq
          rw [ih (Nat.succ.inj hlength) hrow hrow' hrest]

/-- Rows with different fingerprints are all kept. -/
theorem foldl_distinct {seen : List Str} {rows dumped : List (List Value)}
    (h : (seen ++ dumped.map fingerprint).Nodup) :
    dumped.foldl (fun acc row =>
        let fingerprint := row.flatMap fun value => renderLiteralSql value ++ str "|"
        if fingerprint ∈ acc.1 then acc else (acc.1 ++ [fingerprint], acc.2 ++ [row]))
      (seen, rows) = (seen ++ dumped.map fingerprint, rows ++ dumped) := by
  induction dumped generalizing seen rows with
  | nil => rw [List.map_nil, List.append_nil, List.append_nil, List.foldl_nil]
  | cons row dumped ih =>
      have hnew : fingerprint row ∉ seen := by
        intro hm
        exact (List.nodup_append.mp h).2.2 _ hm _ (by simp) rfl
      have hsplit : seen ++ (row :: dumped).map fingerprint
          = seen ++ [fingerprint row] ++ dumped.map fingerprint := by
        rw [List.map_cons, List.append_assoc]
        rfl
      rw [hsplit] at h
      rw [List.foldl_cons, hsplit]
      dsimp only
      rw [show (row.flatMap fun value => renderLiteralSql value ++ str "|") = fingerprint row
        from rfl, if_neg hnew, ih h]
      exact Prod.ext rfl (List.append_assoc _ _ _)

/-- **The groups of the rows that are moved.** -/
theorem routeRows_spec {ν : Type} {w : World ν} {nodeCount shardColumnIndex : Nat}
    {rows done : List (List Value)} {groups groups' : Dict Nat (List (List Value))}
    (hgroups : GroupedBy (rowRoute w.hashes nodeCount shardColumnIndex) done groups)
    (h : routeRows w nodeCount shardColumnIndex groups rows = .ok (some groups')) :
    (∀ row ∈ rows, ∃ i, rowRoute w.hashes nodeCount shardColumnIndex row = some i) ∧
      GroupedBy (rowRoute w.hashes nodeCount shardColumnIndex) (done ++ rows) groups' := by
  induction rows generalizing done groups with
  | nil =>
      cases h
      exact ⟨by simp, by rw [List.append_nil]; exact hgroups⟩
  | cons row rows ih =>
      rw [routeRows] at h
      cases hvalue : row[shardColumnIndex]? with
      | none =>
          rw [hvalue] at h
          cases h
      | some v =>
          rw [hvalue] at h
          dsimp only at h
          obtain ⟨i, hroute, h⟩ := Result.bind_eq_ok.mp h
          have hrow := rowRoute_eq_some.mpr ⟨v, hvalue, hroute⟩
          obtain ⟨hall, hgrouped⟩ := ih (hgroups.append hrow) h
          rw [List.append_assoc] at hgrouped
          exact ⟨List.forall_mem_cons.mpr ⟨⟨i, hrow⟩, hall⟩, hgrouped⟩

section Dump

variable {c : Conditions} (hquiet : c.Undisturbed) {n : Nodes} {node : StorageNodeEndpoint}

include hquiet

/-- **The rows of one source**: nothing, or all rows of its table. -/
theorem collectRows_single {d t : Str} {schema : TableSchema}
    (h : Settled (n.servers node.endpoint).engine) (hd : isIdentifier d = true)
    (ht : isIdentifier t = true)
    (hschema : tableSchema (n.servers node.endpoint).engine.store d t = some schema)
    (hkey : resolveShardKeyColumn schema ≠ none)
    (hrows : ∀ row ∈ tableValues (n.servers node.endpoint).engine.store d t, Movable schema row) :
    ∃ n' rows, collectRows (clusterWorld c) d t [] [] [node] n = (n', .ok rows) ∧
      n'.servers = n.servers ∧
      (rows = none ∨ rows = some (tableValues (n.servers node.endpoint).engine.store d t)) := by
  generalize hvalues : tableValues (n.servers node.endpoint).engine.store d t = values at hrows ⊢
  obtain ⟨n', dumped, hfetch, hservers, hdumped⟩ := fetchTableDump_rows hquiet
    (h.closed _) hd ht (by rw [hschema]; exact Option.some_ne_none _)
  rw [hvalues, (parseDump_iff values).mpr fun row hrow => (hrows row hrow).oneLine] at hdumped
  refine ⟨n', dumped, ?_, hservers, hdumped⟩
  unfold collectRows
  rw [Net.bind_of_ok hfetch]
  rcases hdumped with rfl | rfl
  · rfl
  · have hnodup : values.Nodup := by
      rw [← hvalues]
      exact (shardKeys_nodup h.ok.committed hschema hkey).of_map _
    have hprints : (values.map fingerprint).Nodup := by
      refine hnodup.map_on fun row hrow row' hrow' heq => ?_
      exact fingerprint_inj ((hrows row hrow).length.trans (hrows row' hrow').length.symm)
        (hrows row hrow).plain (hrows row' hrow').plain heq
    dsimp only
    rw [foldl_distinct (by rwa [List.nil_append]), collectRows, List.nil_append]
    rfl

end Dump

/-! ## §3. One table. -/

/-- The rows of a table on a node. -/
def Nodes.bag (n : Nodes) (node : StorageNodeEndpoint) (d t : Str) : Multiset Tuple :=
  tableValues (n.servers node.endpoint).engine.store d t

/-- The node a row of a table belongs on, by the schemas of the coordinator. -/
def homeOf (hashes : Hashes) (s : Store) (nodeCount : Nat) (d t : Str) (row : Tuple) :
    Option Nat :=
  (tableSchema s d t).bind fun schema => shardRoute hashes nodeCount schema row

/-- The rows that leave a node for the one with an index. -/
def Nodes.leaving (n : Nodes) (hashes : Hashes) (s : Store) (nodeCount : Nat)
    (removed : StorageNodeEndpoint) (i : Nat) (d t : Str) : Multiset Tuple :=
  (n.bag removed d t).filter fun row => homeOf hashes s nodeCount d t row = some i

/-- **A move on its way**: the tables that are done have been added to the nodes
they belong on, and nothing else has changed. -/
structure Underway (hashes : Hashes) (s : Store) (removed : StorageNodeEndpoint)
    (targets : List StorageNodeEndpoint) (n₀ : Nodes) (moved : List (Str × Str)) (n : Nodes) :
    Prop where
  settled : ∀ node ∈ removed :: targets, Settled (n.servers node.endpoint).engine
  schemas : ∀ node ∈ removed :: targets, ∀ d t,
    tableSchema (n.servers node.endpoint).engine.store d t = tableSchema s d t
  source : (n.servers removed.endpoint).engine = (n₀.servers removed.endpoint).engine
  rows : ∀ (i : Nat) node, targets[i]? = some node → ∀ d t, n.bag node d t
    = n₀.bag node d t + moved.count (d, t) • n₀.leaving hashes s targets.length removed i d t

/-- Only the engines count. -/
theorem Underway.congr {hashes : Hashes} {s : Store} {removed : StorageNodeEndpoint}
    {targets : List StorageNodeEndpoint} {n₀ n n' : Nodes} {moved : List (Str × Str)}
    (h : Underway hashes s removed targets n₀ moved n)
    (heq : ∀ e, (n'.servers e).engine = (n.servers e).engine) :
    Underway hashes s removed targets n₀ moved n' where
  settled := fun node hnode => by
    rw [heq]
    exact h.settled node hnode
  schemas := fun node hnode d t => by
    rw [heq]
    exact h.schemas node hnode d t
  source := (heq _).trans h.source
  rows := fun i node hnode d t => by
    rw [← h.rows i node hnode d t]
    unfold Nodes.bag
    rw [heq]

/-- **A table whose rows survive the move**: its names are identifiers, and all
its rows on the node that leaves are movable. -/
structure MovableTable (s : Store) (n₀ : Nodes) (removed : StorageNodeEndpoint) (d t : Str)
    (schema : TableSchema) : Prop where
  found : tableSchema s d t = some schema
  database : isIdentifier d = true
  table : isIdentifier t = true
  columns : ∀ col ∈ schema.columns, isIdentifier col.name = true
  rows : ∀ row ∈ tableValues (n₀.servers removed.endpoint).engine.store d t, Movable schema row

theorem rowRoute_eq_homeOf {hashes : Hashes} {s : Store} {nodeCount i : Nat} {d t : Str}
    {schema : TableSchema} (hschema : tableSchema s d t = some schema)
    (hindex : (resolveShardKeyColumn schema).bind (findColumnIndex schema) = some i)
    (row : List Value) :
    rowRoute hashes nodeCount i row = homeOf hashes s nodeCount d t row := by
  obtain ⟨key, hkey, hi⟩ := Option.bind_eq_some_iff.mp hindex
  unfold rowRoute homeOf shardRoute
  rw [hschema, Option.bind_some, hkey]
  show _ = (findColumnIndex schema key).bind _
  rw [hi]
  rfl

section Table

variable {c : Conditions} (hquiet : c.Undisturbed) {s : Store} {removed : StorageNodeEndpoint}
  {targets : List StorageNodeEndpoint} {n₀ n : Nodes} {moved : List (Str × Str)} {d t : Str}
  {schema : TableSchema}

/-- The text sent to a node is the INSERT of its rows. -/
theorem MovableTable.parse (h : MovableTable s n₀ removed d t schema)
    (hok : SchemaOk d t schema) {group : List (List Value)} (hne : group ≠ [])
    (hgroup : ∀ row ∈ group, Movable schema row) :
    parse (renderInsertSql ⟨some d, t⟩ (schema.columns.map (·.name)) group)
      = .ok (.insert (moveStatement d t schema group)) := by
  have hcolumns : ∀ name ∈ schema.columns.map (·.name), isIdentifier name = true := by
    intro name hname
    obtain ⟨col, hcol, rfl⟩ := List.mem_map.mp hname
    exact h.columns col hcol
  have hclosed : ∀ row ∈ group, ∀ v ∈ row, ClosedValue v := by
    rintro row hrow v hv text rfl hlast
    have hplain := (hgroup row hrow).plain _ hv
    exact absurd (hplain _ (List.mem_of_getLast? hlast)) (by decide)
  rw [parse_renderInsertSql h.database h.table hcolumns (by simpa using hok.columns_ne)
    hok.columns_nodup hne (fun row hrow => by rw [(hgroup row hrow).length, List.length_map])
    hclosed]
  unfold moveStatement
  rw [List.map_congr_left fun row hrow => rereadRow_of_plain (hgroup row hrow).plain]

/-- What a node is left with by the rows it gets. -/
structure Receives (s : Store) (n : Nodes) (d t : Str) (rows : Multiset Tuple) (n' : Nodes)
    (node : StorageNodeEndpoint) : Prop where
  settled : Settled (n'.servers node.endpoint).engine
  schemas : ∀ d' t', tableSchema (n'.servers node.endpoint).engine.store d' t'
    = tableSchema s d' t'
  bag : ∀ d' t', n'.bag node d' t' = n.bag node d' t' + if d' = d ∧ t' = t then rows else 0

/-- **A node that has run its INSERT, or has none.** -/
theorem Underway.receives (h : Underway c.hashes s removed targets n₀ moved n)
    (hdistinct : (targets.map (·.endpoint)).Nodup)
    (htable : MovableTable s n₀ removed d t schema) {groups : Dict Nat (List (List Value))}
    (hgroups : GroupedBy (homeOf c.hashes s targets.length d t)
      (tableValues (n₀.servers removed.endpoint).engine.store d t) groups)
    {prepared : List (StorageNodeEndpoint × Str)}
    (hprepared : prepared = groups.entries.filterMap fun p => targets[p.1]?.map fun node =>
      (node, renderInsertSql ⟨some d, t⟩ (schema.columns.map (·.name)) p.2))
    {n' : Nodes}
    (hothers : ∀ e, e ∉ prepared.map (fun p => p.1.endpoint) →
      (n'.servers e).engine = (n.servers e).engine)
    (hruns : ∀ p ∈ prepared, HasRun c n.servers rebalanceClient n' p) {i : Nat}
    {node : StorageNodeEndpoint} (hnode : targets[i]? = some node) :
    Receives s n d t (n₀.leaving c.hashes s targets.length removed i d t) n' node := by
  have hmem : node ∈ removed :: targets := List.mem_cons_of_mem _ (List.mem_of_getElem? hnode)
  have hsettled := h.settled node hmem
  have hschemas := h.schemas node hmem
  have hgroup : ((groups.find? i).getD [] : Multiset Tuple)
      = n₀.leaving c.hashes s targets.length removed i d t := by
    rw [hgroups.getD i]
    exact (Multiset.filter_coe _ _).symm
  cases hfind : groups.find? i with
  | none =>
      -- nothing is sent to this node
      have hapart : node.endpoint ∉ prepared.map (fun p => p.1.endpoint) := by
        intro hm
        obtain ⟨p, hp, heq⟩ := List.mem_map.mp hm
        rw [hprepared] at hp
        obtain ⟨q, hq, hpair⟩ := List.mem_filterMap.mp hp
        obtain ⟨other, hother, rfl⟩ := Option.map_eq_some_iff.mp hpair
        obtain rfl := index_of_endpoint hdistinct hother hnode heq
        rw [Dict.mem_entries_iff.mp hq] at hfind
        cases hfind
      have hengine := hothers _ hapart
      rw [hfind] at hgroup
      refine ⟨by rw [hengine]; exact hsettled, fun d' t' => by rw [hengine]; exact hschemas d' t',
        fun d' t' => ?_⟩
      rw [← hgroup]
      unfold Nodes.bag
      rw [hengine]
      simp
  | some group =>
      have hentry := Dict.mem_entries_iff.mpr hfind
      have hsent : (node, renderInsertSql ⟨some d, t⟩ (schema.columns.map (·.name)) group)
          ∈ prepared := by
        rw [hprepared]
        exact List.mem_filterMap.mpr ⟨(i, group), hentry, by rw [hnode]; rfl⟩
      obtain ⟨k, hengine, hisOk⟩ := hruns _ hsent
      have hmovable : ∀ row ∈ group, Movable schema row :=
        fun row hrow => htable.rows row (hgroups.route_of_mem hfind hrow).1
      have hschema : tableSchema (n.servers node.endpoint).engine.store d t = some schema :=
        (hschemas d t).trans htable.found
      obtain ⟨table, hstored, heq⟩ := tableSchema_eq_some.mp hschema
      have hok : SchemaOk d t schema :=
        heq ▸ (tableOk_of_storeOk hsettled.ok.committed hstored).schema
      obtain ⟨hafter, hkept, hbag⟩ := executeSql_enters hsettled hschema hmovable
        (htable.parse hok ((hgroups i group).mp hfind).1 hmovable) hisOk
      rw [hfind] at hgroup
      refine ⟨by rw [hengine]; exact hafter, fun d' t' => ?_, fun d' t' => ?_⟩
      · rw [hengine]
        exact (hkept d' t').trans (hschemas d' t')
      · rw [← hgroup]
        unfold Nodes.bag
        rw [hengine]
        exact hbag d' t'

/-- **The commit of one table.** -/
theorem Underway.commit (h : Underway c.hashes s removed targets n₀ moved n)
    (hdistinct : ((removed :: targets).map (·.endpoint)).Nodup)
    (htable : MovableTable s n₀ removed d t schema) {groups : Dict Nat (List (List Value))}
    (hgroups : GroupedBy (homeOf c.hashes s targets.length d t)
      (tableValues (n₀.servers removed.endpoint).engine.store d t) groups)
    {prepared : List (StorageNodeEndpoint × Str)}
    (hprepared : prepared = groups.entries.filterMap fun p => targets[p.1]?.map fun node =>
      (node, renderInsertSql ⟨some d, t⟩ (schema.columns.map (·.name)) p.2))
    {n' : Nodes}
    (hothers : ∀ e, e ∉ prepared.map (fun p => p.1.endpoint) →
      (n'.servers e).engine = (n.servers e).engine)
    (hruns : ∀ p ∈ prepared, HasRun c n.servers rebalanceClient n' p) :
    Underway c.hashes s removed targets n₀ (moved ++ [(d, t)]) n' := by
  rw [List.map_cons, List.nodup_cons] at hdistinct
  obtain ⟨hremoved, hdistinct⟩ := hdistinct
  have hreceives := fun {i : Nat} {node : StorageNodeEndpoint} (hnode : targets[i]? = some node) =>
    h.receives hdistinct htable hgroups hprepared hothers hruns hnode
  have hsource : (n'.servers removed.endpoint).engine = (n.servers removed.endpoint).engine := by
    refine hothers _ fun hm => hremoved ?_
    obtain ⟨p, hp, heq⟩ := List.mem_map.mp hm
    rw [hprepared] at hp
    obtain ⟨q, -, hpair⟩ := List.mem_filterMap.mp hp
    obtain ⟨node, hnode, rfl⟩ := Option.map_eq_some_iff.mp hpair
    exact List.mem_map.mpr ⟨node, List.mem_of_getElem? hnode, heq⟩
  refine ⟨?_, ?_, hsource.trans h.source, fun i node hnode d' t' => ?_⟩
  · refine List.forall_mem_cons.mpr ⟨hsource ▸ h.settled removed (by simp), fun node hmem => ?_⟩
    obtain ⟨i, hnode⟩ := List.mem_iff_getElem?.mp hmem
    exact (hreceives hnode).settled
  · refine List.forall_mem_cons.mpr ⟨hsource ▸ h.schemas removed (by simp), fun node hmem => ?_⟩
    obtain ⟨i, hnode⟩ := List.mem_iff_getElem?.mp hmem
    exact (hreceives hnode).schemas
  · rw [(hreceives hnode).bag, h.rows i node hnode, List.count_append, add_assoc]
    congr 1
    by_cases hsame : d' = d ∧ t' = t
    · obtain ⟨rfl, rfl⟩ := hsame
      rw [if_pos ⟨rfl, rfl⟩, List.count_singleton_self, add_smul, one_smul]
    · have hne : (d, t) ≠ (d', t') := fun heq => hsame (by cases heq; exact ⟨rfl, rfl⟩)
      rw [if_neg hsame, List.count_singleton, if_neg (by simpa using hne), add_zero, add_zero]

include hquiet

/-- **One table**: where `RebalanceClusterData` goes on, its rows have been
moved. -/
theorem rebalanceTable_moves (h : Underway c.hashes s removed targets n₀ moved n)
    (hdistinct : ((removed :: targets).map (·.endpoint)).Nodup)
    (htable : MovableTable s n₀ removed d t schema) (hkey : resolveShardKeyColumn schema ≠ none)
    {n' : Nodes}
    (hrun : rebalanceTable (clusterWorld c) [removed] targets d (t, schema) n = (n', .ok true)) :
    Underway c.hashes s removed targets n₀ (moved ++ [(d, t)]) n' := by
  obtain ⟨key, hkey'⟩ := Option.ne_none_iff_exists'.mp hkey
  obtain ⟨index, hfound⟩ := shardKey_found hkey'
  have hindex : (resolveShardKeyColumn schema).bind (findColumnIndex schema) = some index := by
    rw [hkey']
    exact hfound
  have hschema : tableSchema (n.servers removed.endpoint).engine.store d t = some schema :=
    (h.schemas removed (by simp) d t).trans htable.found
  have hrows := htable.rows
  rw [← h.source] at hrows
  obtain ⟨n₁, rows, hcollect, hservers, hcollected⟩ := collectRows_single hquiet
    (h.settled removed (by simp)) htable.database htable.table hschema hkey hrows
  have h₁ : Underway c.hashes s removed targets n₀ moved n₁ := h.congr fun e => by rw [hservers]
  unfold rebalanceTable at hrun
  dsimp only at hrun
  rw [hindex] at hrun
  dsimp only at hrun
  rw [Net.bind_of_ok hcollect] at hrun
  rcases hcollected with rfl | rfl
  · cases hrun
  · rw [h.source] at hrun
    dsimp only at hrun
    cases hroute : routeRows (clusterWorld c) targets.length index Dict.empty
        (tableValues (n₀.servers removed.endpoint).engine.store d t) with
    | error e =>
        rw [hroute] at hrun
        cases hrun
    | fault =>
        rw [hroute] at hrun
        cases hrun
    | ok groups? =>
        rw [hroute, Net.bind_of_ok (x := Net.lift (.ok groups?)) rfl] at hrun
        cases groups? with
        | none => cases hrun
        | some groups =>
            obtain ⟨-, hgroups⟩ := routeRows_spec (GroupedBy.empty _) hroute
            rw [List.nil_append, funext (rowRoute_eq_homeOf htable.found hindex)] at hgroups
            generalize hprepared : (groups.entries.filterMap fun p => targets[p.1]?.map fun node =>
              (node, renderInsertSql ⟨some d, t⟩ (schema.columns.map (·.name)) p.2)) = prepared
              at hrun
            dsimp only at hrun
            rw [hprepared] at hrun
            split at hrun
            · -- no row is moved
              rename_i hnil
              cases hrun
              exact h₁.commit hdistinct htable hgroups hprepared.symm (fun _ _ => rfl)
                fun p hp => by rw [hnil] at hp; cases hp
            · have hapart : (prepared.map fun p => p.1.endpoint).Nodup := by
                rw [List.map_cons, List.nodup_cons] at hdistinct
                have htexts : ((groups.entries.map fun p => (p.1, renderInsertSql ⟨some d, t⟩
                    (schema.columns.map (·.name)) p.2)).map Prod.fst).Nodup := by
                  rw [List.map_map]
                  exact groups.nodup
                have hsent := prepared_distinct hdistinct.2 htexts
                rw [List.filterMap_map] at hsent
                rw [← hprepared]
                exact hsent
              obtain ⟨n₂, response, hcommit, hothers, -, hdone, -⟩ := twoPhaseCommit_runsOn hquiet
                (rebalanceRequest (str "REBALANCE " ++ d ++ str "." ++ t)) hapart n₁
              rw [Net.bind_of_ok hcommit] at hrun
              obtain ⟨rfl, hanswered⟩ := Prod.mk.inj hrun
              have hsome : response ≠ none := by
                rintro rfl
                cases hanswered
              exact h₁.commit hdistinct htable hgroups hprepared.symm hothers (hdone hsome).2

end Table

end CustomDbms.Server
