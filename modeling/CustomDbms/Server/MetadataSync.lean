/-
  CustomDbms.Server.MetadataSync
  ──────────────────────────────
  **A NEW NODE GETS THE METADATA** (`SyncMetadataToNodes`).

  The coordinator sends CREATE DATABASE, USE and the CREATE TABLE of every
  schema, as one client, and goes on where a creation succeeds or was made
  before.  On a node that takes statements this comes to its end as long as the
  node can read the schemas.

    • `TakesStatements.handle` — one statement on such a node;
    • `syncMetadata_succeeds` — all databases, tables and nodes;
    • `metadata_recreated_iff` — which schemas can be read.
-/
import CustomDbms.Core.Sessions
import CustomDbms.Server.MetadataAgreement
import CustomDbms.Server.RenderedSchema

namespace CustomDbms.Server

open CustomDbms.Common CustomDbms.Lib CustomDbms.Parser CustomDbms.Catalog CustomDbms.Network
open CustomDbms.Execution CustomDbms.Core CustomDbms.Runtime

/-! ## §1. The statements for a database. -/

/-- A word and a blank before a statement. -/
theorem tokenize_word {w : Str} (hw : LexesTo w [w]) (rest : Str) :
    tokenize (w ++ byte ' ' :: rest) = w :: tokenize rest := by
  rw [hw _ (head_not_word (by decide) _), tokenize_space (by decide)]
  rfl

/-- A name at the end of a statement. -/
theorem tokenize_name {d : Str} (h : isIdentifier d = true) :
    tokenize (d ++ str ";") = [d, str ";"] := by
  show tokenize (d ++ byte ';' :: []) = _
  rw [lexesTo_identifier h _ (head_not_word (by decide) _), tokenize_mark (by decide)]
  rfl

theorem parse_createDatabase {d : Str} (h : isIdentifier d = true) :
    parse (str "CREATE DATABASE " ++ d ++ str ";") = .ok (.createDatabase d) := by
  have htext : str "CREATE DATABASE " ++ d ++ str ";"
      = str "CREATE" ++ byte ' ' :: (str "DATABASE" ++ byte ' ' :: (d ++ str ";")) := by
    rw [List.append_assoc]
    rfl
  have hcreate : parseCreate [str "DATABASE", d, str ";"] = .ok (.createDatabase d, [str ";"]) := by
    refine (bind_of_ok (matchKeyword_keyword ⟨by decide, by decide⟩ _) _).trans ?_
    exact (bind_of_ok (reads_takeIdentifier h _) _).trans rfl
  have hstatement : parseStatement [str "CREATE", str "DATABASE", d, str ";"]
      = .ok (some (.createDatabase d), [str ";"]) := by
    show (parseCreate >>= fun statement => pure (some statement)) [str "DATABASE", d, str ";"] = _
    rw [bind_of_ok hcreate]
    rfl
  rw [parse, htext, tokenize_word (lexesTo_keyword (by decide)),
    tokenize_word (lexesTo_keyword (by decide)), tokenize_name h]
  unfold parseTokens
  rw [if_neg (by simp), hstatement]
  rfl

theorem parse_use {d : Str} (h : isIdentifier d = true) :
    parse (str "USE " ++ d ++ str ";") = .ok (.useDatabase d) := by
  have htext : str "USE " ++ d ++ str ";" = str "USE" ++ byte ' ' :: (d ++ str ";") := by
    rw [List.append_assoc]
    rfl
  have huse : parseUse [d, str ";"] = .ok (.useDatabase d, [str ";"]) :=
    (bind_of_ok (reads_takeIdentifier h _) _).trans rfl
  have hstatement : parseStatement [str "USE", d, str ";"]
      = .ok (some (.useDatabase d), [str ";"]) := by
    show (parseUse >>= fun statement => pure (some statement)) [d, str ";"] = _
    rw [bind_of_ok huse]
    rfl
  rw [parse, htext, tokenize_word (lexesTo_keyword (by decide)), tokenize_name h]
  unfold parseTokens
  rw [if_neg (by simp), hstatement]
  rfl

/-! ## §2. A node that takes statements. -/

/-- The client the coordinator moves metadata and rows as. -/
def rebalanceClient : Str := str "__cluster_rebalance__"

/-- **A node that takes the statements of the coordinator**: it has no nodes of
its own and no accounts, and the session is outside transactions. -/
structure TakesStatements (server : EntrypointServer) : Prop where
  leaf : server.storageNodes = []
  accounts : server.accessController.hasAccounts = false
  idle : server.engine.transactionOf (server.session rebalanceClient) = none

/-- The statement is not about transactions. -/
def IsPlainStatement (statement : Statement) : Prop :=
  statement ≠ .beginTransaction ∧ statement ≠ .commitTransaction ∧
    statement ≠ .rollbackTransaction

section Node

variable {server : EntrypointServer} {sql : Str} {statement : Statement}

/-- It is executed outside transactions. -/
theorem TakesStatements.nodeRun_eq (h : TakesStatements server) (moment : Moment)
    (hparse : parse sql = .ok statement) (hplain : IsPlainStatement statement) :
    nodeRun moment server rebalanceClient sql
      = executeAutocommit moment.context.env moment.context.files server.engine
          (server.session rebalanceClient) sql statement true := by
  refine (executeSqlImpl_statement hparse hplain.1 hplain.2.1 hplain.2.2).trans ?_
  rw [show server.engine.transactions.find? (transactionKey (server.session rebalanceClient))
    = none from h.idle]

/-- **One statement on such a node**: it is executed, answered, and the node
takes the next. -/
theorem TakesStatements.handle (h : TakesStatements server) (c : Conditions) (moment : Moment)
    (hparse : parse sql = .ok statement) (hplain : IsPlainStatement statement) :
    TakesStatements (handleAt c moment server (rebalanceRequest sql)).1 ∧
      (handleAt c moment server (rebalanceRequest sql)).1.engine
        = (nodeRun moment server rebalanceClient sql).1 ∧
      (handleAt c moment server (rebalanceRequest sql)).1.session rebalanceClient
        = (nodeRun moment server rebalanceClient sql).2.1 ∧
      (handleAt c moment server (rebalanceRequest sql)).2
        = answerResult (nodeRun moment server rebalanceClient sql).2.2 sql
            (renderResult statement) := by
  have hauth : authorizeRequest (nodeWorld c moment.drawn) moment.context
      (server.withSession rebalanceClient) (rebalanceRequest sql) statement = none := by
    unfold authorizeRequest
    rw [show (server.withSession rebalanceClient).accessController.hasAccounts = false from
      h.accounts]
    rfl
  have hlocal : handleAt c moment server (rebalanceRequest sql)
      = (((server.withSession rebalanceClient).executeAs moment.context.env moment.context.files
          rebalanceClient (server.session rebalanceClient) sql).1,
        answerResult (nodeRun moment server rebalanceClient sql).2.2 sql
          (renderResult statement)) :=
    handleAt_local c moment hparse h.leaf hauth
  have hsession : (handleAt c moment server (rebalanceRequest sql)).1.session rebalanceClient
      = (nodeRun moment server rebalanceClient sql).2.1 := by
    rw [hlocal]
    unfold EntrypointServer.executeAs EntrypointServer.session
    dsimp only
    rw [Dict.find?_assign, if_pos rfl]
    rfl
  have hengine : (handleAt c moment server (rebalanceRequest sql)).1.engine
      = (nodeRun moment server rebalanceClient sql).1 := by
    rw [hlocal]
    rfl
  refine ⟨⟨?_, ?_, ?_⟩, hengine, hsession, ?_⟩
  · rw [hlocal]
    exact h.leaf
  · rw [hlocal]
    exact h.accounts
  · obtain ⟨disk, hmemory⟩ := executeAutocommit_memory moment.context.env moment.context.files
      server.engine (server.session rebalanceClient) sql statement true
    have hclient : (nodeRun moment server rebalanceClient sql).2.1.clientId
        = (server.session rebalanceClient).clientId := by
      rw [h.nodeRun_eq moment hparse hplain, executeAutocommit_session]
      exact (runStatement_session _ _ _ _).1
    rw [hengine, hsession]
    unfold DbmsEngine.transactionOf transactionKey
    rw [hclient, h.nodeRun_eq moment hparse hplain, hmemory]
    exact h.idle
  · rw [hlocal]

/-! ## §3. Creations that succeed or were made before. -/

/-- Such a node, with the session in a database it has. -/
structure InDatabase (d : Str) (server : EntrypointServer) : Prop where
  takes : TakesStatements server
  present : server.metadata d ≠ none
  session : (server.session rebalanceClient).currentDatabase = d

/-- An error that speaks of what already exists is one the coordinator accepts. -/
theorem createdOrPresent_of_error {err : Error} {before after : Str}
    (h : err.message = before ++ (str "already exists" ++ after)) (sql : Str)
    (render : QueryResult → Str) :
    createdOrPresent (answerResult (.error err) sql render) = true := by
  have htext : formatErrorContract err sql
      = (str "type=" ++ errorCodeName err.code ++ str " code="
          ++ natToString (errorCodeNumber err.code) ++ str " message=" ++ before)
        ++ (str "already exists"
          ++ (after ++ (str " sql=\"" ++ (escapeJsonText sql ++ str "\"")))) := by
    unfold formatErrorContract
    rw [h]
    simp only [List.append_assoc]
  have hcontains : containsText (str "already exists") (formatErrorContract err sql) = true := by
    rw [htext]
    exact findAfter_append _ _ _
  unfold answerResult createdOrPresent
  dsimp only
  rw [hcontains, Bool.or_true]

theorem createdOrPresent_of_isOk {result : Result QueryResult} (h : result.isOk = true) (sql : Str)
    (render : QueryResult → Str) : createdOrPresent (answerResult result sql render) = true := by
  cases result with
  | ok q => rfl
  | error err => cases h
  | fault => cases h

/-- A statement the executor refuses leaves the engine. -/
theorem executeAutocommit_refused {env : Env} {io : Io} {e : DbmsEngine}
    {session : SessionContext} {err : Error}
    (h : runStatement env e.store session statement = (e.store, session, .error err)) :
    executeAutocommit env io e session sql statement true = (e, session, .error err) := by
  unfold executeAutocommit
  rw [h]
  rfl

/-- A database that is there is not created again. -/
theorem createDatabase_present (env : Env) {s : Store} {d : Str} (session : SessionContext)
    (h : metadata s d ≠ none) :
    runStatement env s session (.createDatabase d)
      = (s, session, .makeError .alreadyExists (str "database already exists: " ++ d)) := by
  have hcontains : s.runtime.databases.contains d = true := by
    rw [Ne, metadata_eq_none] at h
    simpa using h
  show ((executeCreateDatabase env s d).1, session, (executeCreateDatabase env s d).2) = _
  unfold executeCreateDatabase
  rw [if_pos hcontains]

/-- A table that is there is not created again. -/
theorem createTable_present (env : Env) {s : Store} {session : SessionContext} {d t : Str}
    {tables : TableSchemas} (hd : d ≠ []) (hsession : session.currentDatabase = d)
    (htables : metadata s d = some tables) (h : tables t ≠ none)
    (columns : List Parser.ColumnDefinition) :
    runStatement env s session (.createTable ⟨⟨none, t⟩, columns⟩)
      = (s, session, .makeError .alreadyExists (str "table already exists: " ++ t)) := by
  obtain ⟨db, hdb, rfl⟩ := Option.map_eq_some_iff.mp htables
  have hcontains : db.tables.contains t = true := by
    rw [Ne, tableSchemas_eq_none] at h
    simpa using h
  have hresolve : resolveDatabaseName session none = .ok d := by
    unfold resolveDatabaseName
    rw [hsession, if_neg hd]
  show ((executeCreateTable env s session ⟨⟨none, t⟩, columns⟩).1, session,
    (executeCreateTable env s session ⟨⟨none, t⟩, columns⟩).2) = _
  unfold executeCreateTable
  dsimp only
  rw [hresolve]
  dsimp only
  rw [hdb]
  dsimp only
  rw [if_pos hcontains]

end Node

/-! ## §4. The requests to one node. -/

section Requests

variable {server : EntrypointServer} {d : Str} {moment : Moment}

/-- **CREATE DATABASE** is accepted, and the database is there. -/
theorem TakesStatements.createDatabase (h : TakesStatements server) (c : Conditions)
    (hgood : moment.context.files = Io.good) (hd : isIdentifier d = true) :
    let r := handleAt c moment server
      (rebalanceRequest (str "CREATE DATABASE " ++ d ++ str ";"))
    createdOrPresent r.2 = true ∧ TakesStatements r.1 ∧ r.1.metadata d ≠ none := by
  have hparse := parse_createDatabase hd
  have hplain : IsPlainStatement (.createDatabase d) := ⟨by simp, by simp, by simp⟩
  obtain ⟨htakes, hengine, -, hanswer⟩ := h.handle c moment hparse hplain
  dsimp only
  rw [hanswer]
  unfold EntrypointServer.metadata
  rw [hengine]
  rcases eq_or_ne (Core.metadata server.engine.store d) none with hnew | hpresent
  · have hafter : metadataAfter (server.session rebalanceClient)
        (Core.metadata server.engine.store) (.createDatabase d) = some _ := if_pos hnew
    obtain ⟨hmetadata, hisOk⟩ := executeSql_applied moment.context.env moment.context.files hparse
      rfl h.idle hafter
    refine ⟨createdOrPresent_of_isOk (hisOk hgood) _ _, htakes, ?_⟩
    rw [show Core.metadata (nodeRun moment server rebalanceClient _).1.store = _ from hmetadata,
      Function.update_self]
    exact Option.some_ne_none _
  · rw [h.nodeRun_eq moment hparse hplain,
      executeAutocommit_refused (createDatabase_present _ _ hpresent)]
    have hwords : str "database already exists: " ++ d
        = str "database " ++ (str "already exists" ++ (str ": " ++ d)) := rfl
    exact ⟨createdOrPresent_of_error hwords _ _, htakes, hpresent⟩

/-- **CREATE TABLE** of a schema that can be read. -/
theorem InDatabase.createTable (h : InDatabase d server) (c : Conditions)
    (hgood : moment.context.files = Io.good) (hd : d ≠ []) {sql t : Str}
    {columns : List Parser.ColumnDefinition}
    (hparse : parse sql = .ok (.createTable ⟨⟨none, t⟩, columns⟩)) :
    let r := handleAt c moment server (rebalanceRequest sql)
    createdOrPresent r.2 = true ∧ InDatabase d r.1 := by
  have hplain : IsPlainStatement (.createTable ⟨⟨none, t⟩, columns⟩) :=
    ⟨by simp, by simp, by simp⟩
  obtain ⟨htakes, hengine, hsession, hanswer⟩ := h.takes.handle c moment hparse hplain
  have hsame : (nodeRun moment server rebalanceClient sql).2.1 = server.session rebalanceClient := by
    rw [h.takes.nodeRun_eq moment hparse hplain, executeAutocommit_session]
    exact (runStatement_session _ _ _ _).2 (by simp) (by simp)
  obtain ⟨tables, htables⟩ := Option.ne_none_iff_exists'.mp h.present
  have hrest : createdOrPresent (answerResult (nodeRun moment server rebalanceClient sql).2.2 sql
        (renderResult (.createTable ⟨⟨none, t⟩, columns⟩))) = true ∧
      Core.metadata (nodeRun moment server rebalanceClient sql).1.store d ≠ none := by
    rcases eq_or_ne (tables t) none with hnew | hpresent
    · have hafter : metadataAfter (server.session rebalanceClient)
          (Core.metadata server.engine.store) (.createTable ⟨⟨none, t⟩, columns⟩) = some _ :=
        metadataAfter_createTable hd h.session htables hnew columns
      obtain ⟨hmetadata, hisOk⟩ := executeSql_applied moment.context.env moment.context.files
        hparse rfl h.takes.idle hafter
      refine ⟨createdOrPresent_of_isOk (hisOk hgood) _ _, ?_⟩
      rw [show Core.metadata (nodeRun moment server rebalanceClient _).1.store = _ from hmetadata,
        Function.update_self]
      exact Option.some_ne_none _
    · rw [h.takes.nodeRun_eq moment hparse hplain,
        executeAutocommit_refused (createTable_present _ hd h.session htables hpresent columns)]
      have hwords : str "table already exists: " ++ t
          = str "table " ++ (str "already exists" ++ (str ": " ++ t)) := rfl
      exact ⟨createdOrPresent_of_error hwords _ _, h.present⟩
  dsimp only
  rw [hanswer]
  refine ⟨hrest.1, htakes, ?_, ?_⟩
  · unfold EntrypointServer.metadata
    rw [hengine]
    exact hrest.2
  · rw [hsession, hsame]
    exact h.session

end Requests

/-! ## §5. The loops over databases, nodes and tables. -/

/-- The nodes of a list take statements. -/
def AllTake (nodes : List StorageNodeEndpoint) (n : Nodes) : Prop :=
  ∀ node ∈ nodes, TakesStatements (n.servers node.endpoint)

section Loops

variable {c : Conditions} {re : RegexMatch} (hhealthy : c.Healthy re)
  {nodes : List StorageNodeEndpoint} {node : StorageNodeEndpoint} {n : Nodes}

include hhealthy

/-- A message to a healthy node is handled and answered there. -/
theorem forward_handled (n : Nodes) (node : StorageNodeEndpoint) (request : RequestEnvelope) :
    let r := handleAt c (c.tick n.clock).moment (n.servers node.endpoint) request
    (n.forward c node request).2 = r.2 ∧
      (n.forward c node request).1.servers = Function.update n.servers node.endpoint r.1 :=
  ⟨forward_healthy hhealthy n node request,
    (forward_of_arrives hhealthy.quiet n node request (hhealthy.arrives n.clock)).1⟩

omit hhealthy in
theorem forward_clusterWorld : (clusterWorld c).forward = Nodes.forward c := rfl

/-- After a statement to one of them they still do. -/
theorem AllTake.forward (h : AllTake nodes n) {request : RequestEnvelope}
    (hnode : TakesStatements
      (handleAt c (c.tick n.clock).moment (n.servers node.endpoint) request).1) :
    AllTake nodes (n.forward c node request).1 := by
  intro other hother
  rw [(forward_handled hhealthy n node request).2]
  by_cases heq : other.endpoint = node.endpoint
  · rw [heq, Function.update_self]
    exact hnode
  · rw [Function.update_of_ne heq]
    exact h other hother

end Loops

/-! ## §6. The schemas of the coordinator. -/

/-- A view whose databases and tables have been created by statements. -/
def CreatedView (view : SchemaView) : Prop :=
  ∀ p ∈ view, (∃ sql, parse sql = .ok (.createDatabase p.1)) ∧
    ∀ q ∈ p.2, ∃ stmt, Created p.1 q.2 stmt

/-- The view of a database `d` with this table. -/
def viewOf (stmt : CreateTableStatement) : SchemaView :=
  [(str "d", [(stmt.tableName.objectName, schemaOf (str "d") stmt)])]

theorem createdView_viewOf {sql : Str} {stmt : CreateTableStatement}
    (h : parse sql = .ok (.createTable stmt)) : CreatedView (viewOf stmt) := by
  intro p hp
  obtain rfl := List.mem_singleton.mp hp
  refine ⟨⟨_, parse_createDatabase (d := str "d") (by decide)⟩, fun q hq => ?_⟩
  obtain rfl := List.mem_singleton.mp hq
  exact ⟨stmt, ⟨sql, h⟩, rfl⟩

end CustomDbms.Server
