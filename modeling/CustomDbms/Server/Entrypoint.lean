/-
  CustomDbms.Server.Entrypoint
  ────────────────────────────
  **THE SERVER** (`src/server/entrypoint.cpp`: `HandleRequest`, the CLUSTER,
  ASYNC and TELEMETRY commands, the executor of queued jobs).

  The four families of commands are dispatched before a token is looked at.
  An answer of `none` is an exception that leaves the handler.  The counters of
  the telemetry (floating point) and the access log are outside; their texts
  come with the request.
-/
import CustomDbms.Core.DbmsEngine
import CustomDbms.Runtime.JobQueue
import CustomDbms.Server.AuthCommands
import CustomDbms.Server.Cluster

namespace CustomDbms.Server

open CustomDbms.Common CustomDbms.Lib CustomDbms.Parser CustomDbms.Catalog CustomDbms.Network
open CustomDbms.Execution CustomDbms.Core CustomDbms.Runtime

/-! ## §1. State. -/

/-- `PendingClusterTransaction`. -/
structure PendingClusterTransaction where
  sql : Str
  clientId : Str
  currentDatabase : Str
  deriving DecidableEq

/-- `EntrypointServer`. -/
structure EntrypointServer where
  engine : DbmsEngine
  jobQueue : JobQueue
  accessController : AccessController
  sessions : Dict Str SessionContext
  storageNodes : List StorageNodeEndpoint
  pendingClusterTransactions : Dict Str PendingClusterTransaction

/-- What one request takes from its moment. -/
structure RequestContext extends AuthContext where
  env : Env
  files : Io
  telemetryLocal : Str
  telemetrySnapshot : List (Option ResponseEnvelope) → Str

/-- The server and the world around it. -/
structure System (ν : Type) where
  server : EntrypointServer
  net : ν

/-- A handler: the system it leaves and its answer. -/
abbrev Handled (ν : Type) := System ν × Option ResponseEnvelope

variable {ν : Type} (w : World ν) (ctx : RequestContext)

/-- The server after a computation on the nodes, answered by `f`. -/
def System.onNet {α : Type} (s : System ν) (x : Net ν α) (f : α → ResponseEnvelope) : Handled ν :=
  match x s.net with
  | (net, .ok a) => ({ s with net }, some (f a))
  | (net, _) => ({ s with net }, none)

/-- The session `GetOrCreateSession` returns. -/
def EntrypointServer.session (s : EntrypointServer) (clientId : Str) : SessionContext :=
  (s.sessions.find? clientId).getD ⟨clientId, []⟩

/-- The server after `GetOrCreateSession`. -/
def EntrypointServer.withSession (s : EntrypointServer) (clientId : Str) : EntrypointServer :=
  { s with sessions := s.sessions.emplace clientId ⟨clientId, []⟩ }

/-- `engine_.ExecuteSql` for a session of the server. -/
def EntrypointServer.executeAs (env : Env) (io : Io) (s : EntrypointServer) (clientId : Str)
    (session : SessionContext) (sql : Str) : EntrypointServer × Result QueryResult :=
  let r := executeSql env io s.engine session sql
  ({ s with engine := r.1, sessions := s.sessions.assign clientId r.2.1 }, r.2.2)

/-- An answer from a result of the engine. -/
def answerResult (result : Result QueryResult) (sql : Str) (render : QueryResult → Str) :
    Option ResponseEnvelope :=
  match result with
  | .ok value => some ⟨200, render value⟩
  | .error err => some ⟨400, formatErrorContract err sql⟩
  | .fault => none

/-- The text of a successful statement. -/
def renderResult (statement : Statement) (result : QueryResult) : Str :=
  if isSelectStatement statement then queryResultToJson result else result.message

/-! ## §2. The CLUSTER commands. -/

/-- `ParseEndpoint`: the text around the last colon. -/
def parseEndpoint (endpoint : Str) : Option (Str × Int32) :=
  match cut (byte ':') endpoint.reverse with
  | none => none
  | some (portText, host) =>
      if host = [] ∨ portText = [] then none
      else
        match stoi portText.reverse with
        | none => none
        | some port => if port ≤ 0 ∨ 65535 < port then none else some (host.reverse, port)

/-- `CLUSTER PREPARE_TX`. -/
def prepareTx (s : EntrypointServer) (request : RequestEnvelope) (rest : Str) :
    EntrypointServer × Option ResponseEnvelope :=
  match cut (byte ' ') rest with
  | none => (s, some (refusal 400 .validationError (str "missing tx id/sql")))
  | some (txId, sql) =>
      if txId = [] ∨ sql = [] then
        (s, some (refusal 400 .validationError (str "missing tx id/sql")))
      else
        match parse sql with
        | .error err => (s, some ⟨400, formatErrorContract err sql⟩)
        | .fault => (s, none)
        | .ok statement =>
            if !isMutatingStatement statement then
              (s, some (refusal 400 .validationError (str "PREPARE_TX requires mutating sql")))
            else
              let s := s.withSession request.clientId
              ({ s with
                  pendingClusterTransactions := s.pendingClusterTransactions.assign txId
                    ⟨sql, request.clientId, (s.session request.clientId).currentDatabase⟩ },
                some ⟨200, str "prepared"⟩)

/-- `CLUSTER COMMIT_TX`. -/
def commitTx (s : EntrypointServer) (txId : Str) : EntrypointServer × Option ResponseEnvelope :=
  if txId = [] then (s, some (refusal 400 .validationError (str "missing tx id")))
  else
    match s.pendingClusterTransactions.find? txId with
    | none => (s, some (refusal 404 .notFound (str "unknown tx id")))
    | some pending =>
        let s := { s with pendingClusterTransactions := s.pendingClusterTransactions.erase txId }
        let r := s.executeAs ctx.env ctx.files pending.clientId
          { s.session pending.clientId with currentDatabase := pending.currentDatabase } pending.sql
        (r.1, answerResult r.2 pending.sql QueryResult.message)

/-- `CLUSTER ABORT_TX`. -/
def abortTx (s : EntrypointServer) (txId : Str) : EntrypointServer × Option ResponseEnvelope :=
  if txId = [] then (s, some (refusal 400 .validationError (str "missing tx id")))
  else
    ({ s with pendingClusterTransactions := s.pendingClusterTransactions.erase txId },
      some ⟨200, str "aborted"⟩)

/-- `CLUSTER DUMP_TABLE`. -/
def dumpTable (s : EntrypointServer) (databaseName tableName : Str) :
    EntrypointServer × Option ResponseEnvelope :=
  let used := executeSql ctx.env ctx.files s.engine ⟨str "__cluster_dump__", []⟩
    (str "USE " ++ databaseName ++ str ";")
  let s := { s with engine := used.1 }
  match used.2.2 with
  | .error err => (s, some ⟨400, formatErrorContract err databaseName⟩)
  | .fault => (s, none)
  | .ok _ =>
      let selected := executeSql ctx.env ctx.files s.engine used.2.1
        (str "SELECT * FROM " ++ tableName ++ str ";")
      ({ s with engine := selected.1 }, answerResult selected.2.2 tableName fun result =>
        str "ROWS" ++ result.rows.flatMap fun row => dumpRow row.values)

/-- `CLUSTER LIST_NODES`. -/
def listNodes (s : EntrypointServer) : ResponseEnvelope :=
  ⟨200, str "nodes=" ++ natToString s.storageNodes.length
    ++ s.storageNodes.zipIdx.flatMap fun p =>
      str " [" ++ natToString p.2 ++ str "] " ++ p.1.host ++ str ":" ++ intToString p.1.port.toInt
        ++ str " managed=" ++ (if p.1.managed then str "true" else str "false")
        ++ str " fail_count=" ++ natToString p.1.failCount⟩

/-- The endpoint of a node. -/
def StorageNodeEndpoint.isAt (node : StorageNodeEndpoint) (endpoint : Str × Int32) : Bool :=
  node.host = endpoint.1 ∧ node.port = endpoint.2

/-- `CLUSTER ADD_NODE`. -/
def addNode (s : System ν) (endpoint : Str × Int32) (managed : Bool) : Handled ν :=
  let added : StorageNodeEndpoint := ⟨endpoint.1, endpoint.2, managed, 0⟩
  let beforeNodes := s.server.storageNodes
  if beforeNodes.any (·.isAt endpoint) then (s, some ⟨200, str "node added"⟩)
  else
    let s := { s with server := { s.server with storageNodes := beforeNodes ++ [added] } }
    if beforeNodes = [] then (s, some ⟨200, str "node added"⟩)
    else
      s.onNet (syncMetadataToNodes w (schemaView s.server.engine.runtimeState) [added])
        fun _ => ⟨200, str "node added"⟩

/-- `CLUSTER REMOVE_NODE`. -/
def removeNode (s : System ν) (endpoint : Str × Int32) : Handled ν :=
  let beforeNodes := s.server.storageNodes
  let afterNodes := beforeNodes.eraseP (·.isAt endpoint)
  if !beforeNodes.any (·.isAt endpoint) then (s, some ⟨200, str "node removed"⟩)
  else
    let s := { s with server := { s.server with storageNodes := afterNodes } }
    if afterNodes = [] then (s, some ⟨200, str "node removed"⟩)
    else
      s.onNet (rebalanceClusterData w (schemaView s.server.engine.runtimeState)
          (beforeNodes.filter (·.isAt endpoint)) afterNodes) fun moved =>
        if moved then ⟨200, str "node removed"⟩
        else refusal 502 .networkError (str "rebalance after remove failed")

/-- The commands of `ParseClusterCommand` that are split into words. -/
def clusterCommand (s : System ν) (command : Str) (args : List Str) : Handled ν :=
  let invalid := (s, some (refusal 400 .validationError (str "invalid CLUSTER command")))
  if command = str "PING" then (s, some ⟨200, str "pong"⟩)
  else if command = str "DUMP_TABLE" then
    match args with
    | databaseName :: tableName :: _ =>
        let r := dumpTable ctx s.server databaseName tableName
        ({ s with server := r.1 }, r.2)
    | _ => invalid
  else if command = str "LIST_NODES" then (s, some (listNodes s.server))
  else if command = str "ADD_NODE" then
    match args with
    | endpointText :: rest =>
        match parseEndpoint endpointText with
        | none => (s, some (refusal 400 .validationError (str "invalid endpoint")))
        | some endpoint => addNode w s endpoint (rest.head?.map toUpper = some (str "MANAGED"))
    | _ => invalid
  else if command = str "REMOVE_NODE" then
    match args with
    | endpointText :: _ =>
        match parseEndpoint endpointText with
        | none => (s, some (refusal 400 .validationError (str "invalid endpoint")))
        | some endpoint => removeNode w s endpoint
    | _ => invalid
  else invalid

/-- `ParseClusterCommand`; `none` where it returns false. -/
def parseClusterCommand (s : System ν) (request : RequestEnvelope) : Option (Handled ν) :=
  match stripStart (str "CLUSTER PREPARE_TX ") request.payload with
  | some rest =>
      let r := prepareTx s.server request rest
      some ({ s with server := r.1 }, r.2)
  | none =>
      match stripStart (str "CLUSTER COMMIT_TX ") request.payload with
      | some txId =>
          let r := commitTx ctx s.server txId
          some ({ s with server := r.1 }, r.2)
      | none =>
          match stripStart (str "CLUSTER ABORT_TX ") request.payload with
          | some txId =>
              let r := abortTx s.server txId
              some ({ s with server := r.1 }, r.2)
          | none =>
              (commandOf (str "CLUSTER") request.payload).map fun p =>
                clusterCommand w ctx s p.1 p.2

/-! ## §3. The ASYNC commands and the worker. -/

/-- `ASYNC SUBMIT`. -/
def submitJob (s : System ν) (payload : Str) (args : List Str) : Handled ν :=
  let missing := refusal 400 .validationError (str "missing sql for ASYNC SUBMIT")
  if args = [] ∨ payload.length ≤ (str "ASYNC SUBMIT ").length then (s, some missing)
  else
    let guid := w.newGuid s.net
    let job : JobRecord :=
      { jobId := guid.2, sql := payload.drop (str "ASYNC SUBMIT ").length, status := .queued }
    ({ server := { s.server with jobQueue := s.server.jobQueue.enqueue job }, net := guid.1 },
      some ⟨202, str "job_id=" ++ guid.2⟩)

/-- The line that says how far a job is. -/
def jobLine (job : JobRecord) : Str :=
  str "job_id=" ++ job.jobId ++ str " status=" ++ job.status.text

/-- `ASYNC STATUS`. -/
def jobStatus (s : EntrypointServer) (jobId : Str) : ResponseEnvelope :=
  match s.jobQueue.find jobId with
  | none => refusal 404 .notFound (str "job not found")
  | some job => ⟨200, jobLine job⟩

/-- `ASYNC RESULT`. -/
def jobResult (s : EntrypointServer) (jobId : Str) : ResponseEnvelope :=
  match s.jobQueue.find jobId with
  | none => refusal 404 .notFound (str "job not found")
  | some job =>
      match job.status with
      | .queued | .running => ⟨202, jobLine job⟩
      | .done | .failed => ⟨job.resultCode, job.resultPayload⟩

/-- `ParseAsyncCommand`; `none` where it returns false. -/
def parseAsyncCommand (s : System ν) (request : RequestEnvelope) : Option (Handled ν) :=
  (commandOf (str "ASYNC") request.payload).map fun p =>
    let invalid := (s, some (refusal 400 .validationError (str "invalid ASYNC command")))
    if p.1 = str "SUBMIT" then submitJob w s request.payload p.2
    else if p.1 = str "STATUS" then
      match p.2 with
      | jobId :: _ => (s, some (jobStatus s.server jobId))
      | _ => invalid
    else if p.1 = str "RESULT" then
      match p.2 with
      | jobId :: _ => (s, some (jobResult s.server jobId))
      | _ => invalid
    else invalid

/-- The executor of the queue: the server it leaves and the code and text of
the result; `none` for an exception, which ends the process. -/
def executeJob (env : Env) (io : Io) (s : EntrypointServer) (sql : Str) :
    EntrypointServer × Option (Int32 × Str) :=
  match parse sql with
  | .error err => (s, some (400, formatErrorContract err sql))
  | .fault => (s, none)
  | .ok statement =>
      let clientId := str "__async_worker__"
      let r := s.executeAs env io clientId (s.session clientId) sql
      (r.1, (answerResult r.2 sql (renderResult statement)).map fun response =>
        (response.statusCode, response.payload))

/-- The worker executes the job in its hands and records the result. -/
def finishJob (env : Env) (io : Io) (s : EntrypointServer) : EntrypointServer :=
  match s.jobQueue.current with
  | none => s
  | some job =>
      let r := executeJob env io s job.sql
      match r.2 with
      | some (code, payload) => { r.1 with jobQueue := r.1.jobQueue.finish code payload }
      | none => r.1

/-! ## §4. The TELEMETRY commands. -/

/-- The answers of the nodes to `TELEMETRY LOCAL`. -/
def telemetryLoop : List StorageNodeEndpoint → Net ν (List (Option ResponseEnvelope))
  | [] => return []
  | node :: rest => do
      let response ← Net.forward w node ⟨str "__telemetry__", [], str "TELEMETRY LOCAL"⟩
      let responses ← telemetryLoop rest
      return response :: responses

/-- `ParseTelemetryCommand`; `none` where it returns false. -/
def parseTelemetryCommand (s : System ν) (payload : Str) : Option (Handled ν) :=
  (commandOf (str "TELEMETRY") payload).map fun p =>
    if p.1 = str "LOCAL" then (s, some ⟨200, ctx.telemetryLocal⟩)
    else if p.1 = str "SNAPSHOT" then
      s.onNet (telemetryLoop w s.server.storageNodes) fun responses =>
        ⟨200, ctx.telemetrySnapshot responses⟩
    else (s, some (refusal 400 .validationError (str "invalid TELEMETRY command")))

/-! ## §5. SQL. -/

/-- An answer of the cluster, or the failure in the server's words. -/
def orUnavailable (message : Str) : Option ResponseEnvelope → ResponseEnvelope
  | some response => response
  | none => refusal 502 .networkError message

/-- A metadata statement with storage nodes: executed here, then sent to them. -/
def executeMetadata (s : System ν) (request : RequestEnvelope) (statement : Statement) :
    Handled ν :=
  let nodes := s.server.storageNodes
  let r := s.server.executeAs ctx.env ctx.files request.clientId
    (s.server.session request.clientId) request.payload
  let s := { s with server := r.1 }
  match r.2 with
  | .error err => (s, some ⟨400, formatErrorContract err request.payload⟩)
  | .fault => (s, none)
  | .ok result =>
      let success : ResponseEnvelope := ⟨200, renderResult statement result⟩
      let failure := refusal 502 .networkError (str "cluster metadata broadcast failed")
      if !shouldBroadcast statement then (s, some success)
      else
        let sent := if isMutatingStatement statement then executeTwoPhaseCommitOnAll w nodes request
          else broadcastToStorageNodes w nodes request false
        s.onNet sent fun response => if response.isSome then success else failure

/-- A statement on rows, with storage nodes. -/
def routeStatement (s : System ν) (request : RequestEnvelope) (statement : Statement) :
    Handled ν :=
  let nodes := s.server.storageNodes
  let session := s.server.session request.clientId
  let schemas := schemaView s.server.engine.runtimeState
  match statement with
  | .insert stmt =>
      match splitInsertByShard w.hashes schemas session nodes.length stmt with
      | .ok (some routed) =>
          let prepared := routed.filterMap fun p => nodes[p.1]?.map fun node => (node, p.2)
          s.onNet (executeTwoPhaseCommit w prepared request)
            (orUnavailable (str "cluster sharded insert failed"))
      | .ok none => (s, some (refusal 502 .networkError (str "unable to shard insert")))
      | _ => (s, none)
  | statement =>
      if shouldBroadcast statement then
        if isMutatingStatement statement then
          s.onNet (executeTwoPhaseCommitOnAll w nodes request)
            (orUnavailable (str "cluster 2pc failed"))
        else
          s.onNet (broadcastToStorageNodes w nodes request false)
            (orUnavailable (str "cluster broadcast failed"))
      else
        match routeNodeIndex w.hashes schemas session nodes.length statement with
        | .ok (some index) =>
            match nodes[index]? with
            | some node =>
                s.onNet (Net.forward w node request)
                  (orUnavailable (str "target storage node unavailable"))
            | none => (s, none)
        | .ok none =>
            if isSelectStatement statement then
              s.onNet (broadcastToStorageNodes w nodes request true) fun fanout =>
                match fanout with
                | some response =>
                    if response.statusCode = 200 then response else ⟨200, []⟩
                | none => refusal 502 .networkError (str "cluster fan-out failed")
            else (s, some (refusal 502 .networkError (str "unable to route request")))
        | _ => (s, none)

/-- A statement that has been authorized. -/
def executeStatement (s : System ν) (request : RequestEnvelope) (statement : Statement) :
    Handled ν :=
  if s.server.storageNodes ≠ [] then
    if isMetadataStatement statement then executeMetadata w ctx s request statement
    else routeStatement w s request statement
  else
    let r := s.server.executeAs ctx.env ctx.files request.clientId
      (s.server.session request.clientId) request.payload
    ({ s with server := r.1 }, answerResult r.2 request.payload (renderResult statement))

/-- The check of token and permission: the refusal, where there is one. -/
def authorizeRequest (s : EntrypointServer) (request : RequestEnvelope) (statement : Statement) :
    Option ResponseEnvelope :=
  if !s.accessController.hasAccounts then none
  else
    match validateTokenAndGetUser w.hmac s.accessController ctx.now request.jwtToken with
    | none => some (refusal 401 .authorizationError (str "invalid or expired jwt token"))
    | some userId =>
        match requiredPermission statement with
        | none => none
        | some permission =>
            if authorize s.accessController userId
                (resolveAuthorizationDatabaseName statement (s.session request.clientId))
                permission then none
            else some (refusal 403 .authorizationError (str "permission denied"))

/-- A payload that is no command. -/
def handleSql (s : System ν) (request : RequestEnvelope) : Handled ν :=
  match parse request.payload with
  | .error err => (s, some ⟨400, formatErrorContract err request.payload⟩)
  | .fault => (s, none)
  | .ok statement =>
      let s := { s with server := s.server.withSession request.clientId }
      match authorizeRequest w ctx s.server request statement with
      | some response => (s, some response)
      | none => executeStatement w ctx s request statement

/-! ## §6. `HandleRequest`. -/

/-- `HandleRequest`. -/
def handleRequest (s : System ν) (request : RequestEnvelope) : Handled ν :=
  match parseClusterCommand w ctx s request with
  | some handled => handled
  | none =>
      match parseAsyncCommand w s request with
      | some handled => handled
      | none =>
          match parseTelemetryCommand w ctx s request.payload with
          | some handled => handled
          | none =>
              match parseAuthCommand w.hmac s.server.accessController ctx.toAuthContext
                  request with
              | some r =>
                  ({ s with server := { s.server with accessController := r.1 } }, r.2)
              | none => handleSql w ctx s request

end CustomDbms.Server
