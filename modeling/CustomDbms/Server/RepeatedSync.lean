/-
  CustomDbms.Server.RepeatedSync
  ──────────────────────────────
  **METADATA SENT TO NODES THAT HAVE THEM** (`SyncMetadataToNodes` before a
  move).

  A database or a table that exists is not created again, and what cannot be
  read is refused, so nodes that agree with the coordinator keep their engines,
  whichever messages are lost.

    • `syncMetadata_unchanged` — no engine changes.
-/
import CustomDbms.Server.TableDumps

namespace CustomDbms.Server

open CustomDbms.Common CustomDbms.Lib CustomDbms.Parser CustomDbms.Catalog CustomDbms.Network
open CustomDbms.Execution CustomDbms.Core CustomDbms.Runtime

/-! ## §1. Loops. -/

section Loops

variable {ν α : Type}

/-- The first element: the loop goes on behind it, or ends with it. -/
theorem allNet_cons (body : α → Net ν Bool) (a : α) (l : List α) (net : ν) :
    (∃ net', body a net = (net', .ok true) ∧ allNet body (a :: l) net = allNet body l net') ∨
      ((allNet body (a :: l) net).1 = (body a net).1 ∧
        (allNet body (a :: l) net).2 ≠ .ok true) := by
  have hloop : allNet body (a :: l) net
      = Net.bind (body a) (fun more => if more then allNet body l else pure false) net := rfl
  rw [hloop, Net.bind]
  rcases hbody : body a net with ⟨net', more | e | _⟩
  · cases more with
    | true => exact .inl ⟨net', rfl, rfl⟩
    | false => exact .inr ⟨rfl, by simp⟩
  · exact .inr ⟨rfl, by simp⟩
  · exact .inr ⟨rfl, by simp⟩

/-- What every element of a loop keeps, the loop keeps. -/
theorem allNet_keeps {I : ν → Prop} {body : α → Net ν Bool} {l : List α}
    (hbody : ∀ a ∈ l, ∀ net, I net → I (body a net).1) {net : ν} (h : I net) :
    I (allNet body l net).1 := by
  induction l generalizing net with
  | nil => exact h
  | cons a l ih =>
      have hfirst := hbody a (by simp) net h
      rcases allNet_cons body a l net with ⟨net', hrun, hrest⟩ | ⟨hstop, -⟩
      · rw [hrun] at hfirst
        rw [hrest]
        exact ih (fun b hb => hbody b (by simp [hb])) hfirst
      · rwa [hstop]

end Loops

/-! ## §2. One message. -/

/-- A text that cannot be read and starts with CREATE TABLE changes nothing. -/
theorem handleAt_createTable_error (c : Conditions) (moment : Moment) (server : EntrypointServer)
    {sql rest : Str} (hsql : sql = str "CREATE TABLE " ++ rest) {err : Error}
    (hparse : parse sql = .error err) :
    (handleAt c moment server (rebalanceRequest sql)).1 = server := by
  subst hsql
  have hwords : splitWhitespace (str "CREATE TABLE " ++ rest)
      = str "CREATE" :: str "TABLE" :: splitWhitespaceFrom [] rest := rfl
  have hfamily : ∀ family ∈ [str "CLUSTER", str "ASYNC", str "TELEMETRY", str "AUTH"],
      commandOf family (str "CREATE TABLE " ++ rest) = none := by
    intro family hmem
    have hne : ∀ family ∈ [str "CLUSTER", str "ASYNC", str "TELEMETRY", str "AUTH"],
        toUpper (str "CREATE") ≠ family := by decide
    unfold commandOf
    rw [hwords]
    exact if_neg (hne family hmem)
  have hprepare : stripStart (str "CLUSTER PREPARE_TX ") (str "CREATE TABLE " ++ rest) = none := rfl
  have hcommit : stripStart (str "CLUSTER COMMIT_TX ") (str "CREATE TABLE " ++ rest) = none := rfl
  have habort : stripStart (str "CLUSTER ABORT_TX ") (str "CREATE TABLE " ++ rest) = none := rfl
  unfold handleAt handleRequest parseClusterCommand parseAsyncCommand parseTelemetryCommand
    parseAuthCommand rebalanceRequest
  dsimp only
  rw [hprepare, hcommit, habort, hfamily _ (by simp), hfamily _ (by simp), hfamily _ (by simp),
    hfamily _ (by simp)]
  show (handleSql _ _ _ _).1.server = server
  unfold handleSql
  dsimp only
  rw [hparse]

/-- **Nodes that take statements and keep their engines.** -/
structure Unchanged (nodes : List StorageNodeEndpoint) (n₀ n : Nodes) : Prop where
  take : AllTake nodes n
  engines : ∀ e, (n.servers e).engine = (n₀.servers e).engine

section Messages

variable {c : Conditions} (hquiet : c.Undisturbed) {nodes : List StorageNodeEndpoint}
  {node : StorageNodeEndpoint} {n₀ n : Nodes} {sql : Str}

include hquiet

/-- A message after which its node takes statements and has its engine. -/
theorem Unchanged.forward (h : Unchanged nodes n₀ n) {request : RequestEnvelope}
    {server : EntrypointServer}
    (hserver : (handleAt c (c.tick n.clock).moment (n.servers node.endpoint) request).1 = server)
    (htakes : TakesStatements server)
    (hengine : server.engine = (n.servers node.endpoint).engine) :
    Unchanged nodes n₀ (n.forward c node request).1 ∧
      ((n.forward c node request).2 ≠ none →
        (n.forward c node request).1.servers node.endpoint = server) := by
  rcases forward_cases hquiet request with ⟨hsame, hnone⟩ | ⟨hafter, -⟩
  · exact ⟨⟨fun other hother => by rw [hsame]; exact h.take other hother,
      fun e => by rw [hsame]; exact h.engines e⟩, fun hsome => absurd hnone hsome⟩
  · rw [hserver] at hafter
    rw [hafter]
    refine ⟨⟨fun other hother => ?_, fun e => ?_⟩, fun _ => Function.update_self ..⟩
    · rw [hafter]
      by_cases heq : other.endpoint = node.endpoint
      · rw [heq, Function.update_self]
        exact htakes
      · rw [Function.update_of_ne heq]
        exact h.take other hother
    · rw [hafter]
      by_cases heq : e = node.endpoint
      · subst heq
        rw [Function.update_self, hengine]
        exact h.engines _
      · rw [Function.update_of_ne heq]
        exact h.engines e

/-- A statement that leaves the engine. -/
theorem Unchanged.statement (h : Unchanged nodes n₀ n) (hnode : node ∈ nodes)
    {statement : Statement} (hparse : parse sql = .ok statement)
    (hplain : IsPlainStatement statement)
    {session : SessionContext} {result : Result QueryResult}
    (hrun : nodeRun (c.tick n.clock).moment (n.servers node.endpoint) rebalanceClient sql
      = ((n.servers node.endpoint).engine, session, result)) :
    Unchanged nodes n₀ (n.forward c node (rebalanceRequest sql)).1 ∧
      ((n.forward c node (rebalanceRequest sql)).2 ≠ none →
        ((n.forward c node (rebalanceRequest sql)).1.servers node.endpoint).session rebalanceClient
          = session) := by
  obtain ⟨htakes, hengine, hsession, -⟩ :=
    (h.take node hnode).handle c (c.tick n.clock).moment hparse hplain
  rw [hrun] at hengine hsession
  obtain ⟨hafter, hserver⟩ := h.forward hquiet rfl htakes hengine
  exact ⟨hafter, fun hsome => by rw [hserver hsome]; exact hsession⟩

/-! ## §3. One database on one node. -/

/-- All tables of a database, on a node that has them. -/
theorem syncTables_unchanged {d : Str} (hd : d ≠ []) {tables : List (Str × TableSchema)}
    (hcreated : ∀ q ∈ tables, ∃ stmt, Created d q.2 stmt)
    (hpresent : ∀ q ∈ tables,
      tableSchema (n₀.servers node.endpoint).engine.store d q.2.tableName ≠ none)
    (h : Unchanged nodes n₀ n) (hnode : node ∈ nodes)
    (hsession : ((n.servers node.endpoint).session rebalanceClient).currentDatabase = d) :
    Unchanged nodes n₀ (syncTables (clusterWorld c) node tables n).1 := by
  induction tables generalizing n with
  | nil => exact h
  | cons q tables ih =>
      obtain ⟨stmt, hstmt⟩ := hcreated q (by simp)
      have hmessage : Unchanged nodes n₀
          (n.forward c node (rebalanceRequest (renderCreateTableSql q.2))).1 ∧
          ((n.forward c node (rebalanceRequest (renderCreateTableSql q.2))).2 ≠ none →
            (((n.forward c node (rebalanceRequest (renderCreateTableSql q.2))).1.servers
              node.endpoint).session rebalanceClient).currentDatabase = d) := by
        by_cases hwords : ∃ col ∈ stmt.columns, SaysNotNull col
        · -- the text cannot be read
          have hsql : renderCreateTableSql q.2 = str "CREATE TABLE " ++ (q.2.tableName ++
              (str " (" ++ ((str ", ").intercalate (q.2.columns.map renderColumnSql)
                ++ str ");"))) := by
            unfold renderCreateTableSql
            simp only [List.append_assoc]
          obtain ⟨hafter, hserver⟩ := h.forward hquiet
            (handleAt_createTable_error c (c.tick n.clock).moment _ hsql
              (parse_renderCreateTableSql_notNull hstmt hwords)) (h.take node hnode) rfl
          exact ⟨hafter, fun hsome => by rw [hserver hsome]; exact hsession⟩
        · -- the table is there
          have hparse := parse_renderCreateTableSql hstmt fun col hcol hsays =>
            hwords ⟨col, hcol, hsays⟩
          have htable := hpresent q (by simp)
          rw [hstmt.schema, ← h.engines] at htable
          obtain ⟨schema, hschema⟩ := Option.ne_none_iff_exists'.mp htable
          obtain ⟨table, htable, -⟩ := tableSchema_eq_some.mp hschema
          obtain ⟨db, hdb, hfound⟩ := storeTable_eq_some.mp htable
          have hmetadata : metadata (n.servers node.endpoint).engine.store d
              = some (tableSchemas db.tables) := by
            unfold metadata
            rw [hdb]
            rfl
          have hknown : tableSchemas db.tables stmt.tableName.objectName ≠ none := by
            rw [Ne, tableSchemas_eq_none]
            unfold Dict.contains
            rw [show db.tables.find? stmt.tableName.objectName = some table from hfound]
            simp
          have hplain : IsPlainStatement (.createTable ⟨⟨none, stmt.tableName.objectName⟩,
              stmt.columns.map rereadColumn⟩) := ⟨by simp, by simp, by simp⟩
          obtain ⟨hafter, hserver⟩ := h.statement hquiet hnode hparse hplain
            (((h.take node hnode).nodeRun_eq (c.tick n.clock).moment hparse hplain).trans
              (executeAutocommit_refused
                (createTable_present _ hd hsession hmetadata hknown _)))
          exact ⟨hafter, fun hsome => by rw [hserver hsome]; exact hsession⟩
      rw [syncTables, Net.forward_bind, forward_clusterWorld]
      split
      · rename_i hgoes
        refine ih (fun q hq => hcreated q (by simp [hq])) (fun q hq => hpresent q (by simp [hq]))
          hmessage.1 (hmessage.2 fun hnone => ?_)
        rw [hnone] at hgoes
        cases hgoes
      · exact hmessage.1

/-- One database on a node that has it. -/
theorem syncDatabase_unchanged {d : Str} (hd : isIdentifier d = true)
    {tables : List (Str × TableSchema)} (hcreated : ∀ q ∈ tables, ∃ stmt, Created d q.2 stmt)
    (hknown : metadata (n₀.servers node.endpoint).engine.store d ≠ none)
    (hpresent : ∀ q ∈ tables,
      tableSchema (n₀.servers node.endpoint).engine.store d q.2.tableName ≠ none)
    (h : Unchanged nodes n₀ n) (hnode : node ∈ nodes) :
    Unchanged nodes n₀ (syncDatabase (clusterWorld c) d tables node n).1 := by
  have hne : d ≠ [] := by
    rintro rfl
    cases hd
  have hhere : metadata (n.servers node.endpoint).engine.store d ≠ none := by
    rw [h.engines]
    exact hknown
  -- CREATE DATABASE is refused
  have hparse := parse_createDatabase hd
  have hplain : IsPlainStatement (.createDatabase d) := ⟨by simp, by simp, by simp⟩
  obtain ⟨hfirst, -⟩ := h.statement hquiet hnode hparse hplain
    (((h.take node hnode).nodeRun_eq (c.tick n.clock).moment hparse hplain).trans
      (executeAutocommit_refused (createDatabase_present _ _ hhere)))
  rw [syncDatabase, Net.forward_bind, forward_clusterWorld]
  split
  · generalize (n.forward c node _).1 = n₁ at hfirst
    have hcontains :
        (n₁.servers node.endpoint).engine.store.runtime.databases.contains d = true := by
      have hmetadata := metadata_eq_none.not.mp hknown
      rw [hfirst.engines]
      simpa using hmetadata
    -- USE changes the session
    have huse : IsPlainStatement (.useDatabase d) := ⟨by simp, by simp, by simp⟩
    obtain ⟨hsecond, hsession⟩ := hfirst.statement hquiet hnode (parse_use hd) huse
      (executeSql_use (c.tick n₁.clock).moment.context.env (c.tick n₁.clock).moment.context.files
        (hfirst.take node hnode).idle hd hcontains)
    rw [Net.forward_bind, forward_clusterWorld]
    split
    · rename_i hanswered
      refine syncTables_unchanged hquiet hne hcreated hpresent hsecond hnode ?_
      rw [hsession fun hnone => by rw [hnone] at hanswered; cases hanswered]
    · exact hsecond
  · exact hfirst

/-! ## §4. All databases on all nodes. -/

/-- A store with all databases and tables of a view. -/
structure HoldsView (view : SchemaView) (s : Store) : Prop where
  databases : ∀ p ∈ view, metadata s p.1 ≠ none
  tables : ∀ p ∈ view, ∀ q ∈ p.2, tableSchema s p.1 q.2.tableName ≠ none

/-- **`SyncMetadataToNodes` leaves the engines of nodes that have the metadata**,
whatever becomes of its messages. -/
theorem syncMetadata_unchanged {view : SchemaView} (hcreated : CreatedView view)
    (hholds : ∀ node ∈ nodes, HoldsView view (n₀.servers node.endpoint).engine.store)
    (h : Unchanged nodes n₀ n) :
    Unchanged nodes n₀ (syncMetadataToNodes (clusterWorld c) view nodes n).1 := by
  refine allNet_keeps (fun p hp net hnet => ?_) h
  refine allNet_keeps (fun node hnode net hnet => ?_) hnet
  obtain ⟨⟨sql, hparse⟩, htables⟩ := hcreated p hp
  exact syncDatabase_unchanged hquiet (parse_create rfl hparse).1 htables
    ((hholds node hnode).databases p hp) ((hholds node hnode).tables p hp) hnet hnode

end Messages

end CustomDbms.Server
