/-
  CustomDbms.Server.Cluster
  ─────────────────────────
  **THE COORDINATOR'S SIDE OF THE CLUSTER** (`src/server/entrypoint.cpp`:
  `ForwardToStorageNode` and what is built on it).

  The storage nodes and the generator of transaction ids are a world outside
  the server: a state, and what one request to a node does to it.  A request
  the server forwards to itself is a request of its own to it.  A computation
  here threads that state and may end in an exception.
-/
import CustomDbms.Network.Protocol
import CustomDbms.Server.Statements

namespace CustomDbms.Server

open CustomDbms.Common CustomDbms.Lib CustomDbms.Parser CustomDbms.Catalog CustomDbms.Network

/-! ## §1. The world outside. -/

/-- `StorageNodeEndpoint`. -/
structure StorageNodeEndpoint where
  host : Str
  port : Int32
  managed : Bool := false
  failCount : Nat := 0
  deriving DecidableEq

/-- Where a node is found. -/
abbrev Endpoint := Str × Int32

/-- The endpoint of an entry of the node list. -/
def StorageNodeEndpoint.endpoint (node : StorageNodeEndpoint) : Endpoint := (node.host, node.port)

/-- What the server calls: `ForwardToStorageNode`, `NewGuidV4`, `std::hash` and
HMAC-SHA256. -/
structure World (ν : Type) where
  forward : ν → StorageNodeEndpoint → RequestEnvelope → ν × Option ResponseEnvelope
  newGuid : ν → ν × Str
  hashes : Hashes
  hmac : Hmac

/-- A computation that talks to the nodes. -/
abbrev Net (ν α : Type) := ν → ν × Result α

namespace Net

variable {ν α β : Type}

/-- Sequencing: an exception ends the computation. -/
def bind (x : Net ν α) (f : α → Net ν β) : Net ν β := fun net =>
  match x net with
  | (net, .ok a) => f a net
  | (net, .error e) => (net, .error e)
  | (net, .fault) => (net, .fault)

instance : Monad (Net ν) where
  pure a := fun net => (net, .ok a)
  bind := bind

/-- A step without a node. -/
def lift (r : Result α) : Net ν α := fun net => (net, r)

/-- `ForwardToStorageNode`. -/
def forward (w : World ν) (node : StorageNodeEndpoint) (request : RequestEnvelope) :
    Net ν (Option ResponseEnvelope) := fun net =>
  let r := w.forward net node request
  (r.1, .ok r.2)

/-- `NewGuidV4`. -/
def newGuid (w : World ν) : Net ν Str := fun net =>
  let r := w.newGuid net
  (r.1, .ok r.2)

@[simp] theorem pure_apply (a : α) (net : ν) : (pure a : Net ν α) net = (net, .ok a) := rfl

theorem bind_of_ok {x : Net ν α} {net net' : ν} {a : α} (h : x net = (net', .ok a))
    (f : α → Net ν β) : (x >>= f) net = f a net' := by
  show Net.bind x f net = f a net'
  rw [Net.bind, h]

@[simp] theorem forward_bind (w : World ν) (node : StorageNodeEndpoint) (request : RequestEnvelope)
    (f : Option ResponseEnvelope → Net ν β) (net : ν) :
    (Net.forward w node request >>= f) net
      = f (w.forward net node request).2 (w.forward net node request).1 := rfl

@[simp] theorem newGuid_bind (w : World ν) (f : Str → Net ν β) (net : ν) :
    (Net.newGuid w >>= f) net = f (w.newGuid net).2 (w.newGuid net).1 := rfl

end Net

variable {ν : Type} (w : World ν)

/-- A node answered with 200. -/
def answered : Option ResponseEnvelope → Bool
  | some response => response.statusCode = 200
  | none => false

/-! ## §2. Broadcast. -/

/-- The loop over the nodes: `.inl` is what the function returns early, `.inr`
the payloads. -/
def broadcastLoop (request : RequestEnvelope) :
    List StorageNodeEndpoint → Net ν (Option ResponseEnvelope ⊕ List Str)
  | [] => return .inr []
  | node :: rest => do
      match ← Net.forward w node request with
      | none => return .inl none
      | some response =>
          if response.statusCode ≠ 200 then return .inl (some response)
          else
            match ← broadcastLoop request rest with
            | .inl early => return .inl early
            | .inr payloads => return .inr (response.payload :: payloads)

/-- `" \t\r\n"`. -/
def isTrimByte (c : Byte) : Bool := c = 32 || c = 9 || c = 13 || c = 10

/-- `part` without white space at both ends. -/
def trim (part : Str) : Str :=
  ((part.dropWhile isTrimByte).reverse.dropWhile isTrimByte).reverse

/-- The rows inside one answer; `none` where it adds nothing. -/
def innerJson (part : Str) : Option Str :=
  let trimmed := trim part
  if trimmed = [] ∨ trimmed = str "[]" then none
  else if trimmed.length < 2 ∨ trimmed.head? ≠ some (byte '[') ∨
      trimmed.getLast? ≠ some (byte ']') then none
  else
    let inner := (trimmed.drop 1).dropLast
    if inner = [] then none else some inner

/-- The merge of the answers of a fan-out. -/
def mergeJson (parts : List Str) : Str :=
  str "[" ++ (str ", ").intercalate (parts.filterMap innerJson) ++ str "]"

/-- `BroadcastToStorageNodes`. -/
def broadcastToStorageNodes (nodes : List StorageNodeEndpoint) (request : RequestEnvelope)
    (collectJson : Bool) : Net ν (Option ResponseEnvelope) := do
  match ← broadcastLoop w request nodes with
  | .inl early => return early
  | .inr payloads =>
      if collectJson then return some ⟨200, mergeJson payloads⟩
      else return some ⟨200, str "broadcast ok"⟩

/-! ## §3. Two-phase commit. -/

/-- The aborts sent to the nodes that have prepared. -/
def abortLoop (request : RequestEnvelope) (txId : Str) :
    List (StorageNodeEndpoint × Str) → Net ν Unit
  | [] => return ()
  | (node, _) :: rest => do
      let _ ← Net.forward w node { request with payload := str "CLUSTER ABORT_TX " ++ txId }
      abortLoop request txId rest

/-- The first phase: true where every node has prepared. -/
def prepareLoop (request : RequestEnvelope) (txId : Str) :
    List (StorageNodeEndpoint × Str) → List (StorageNodeEndpoint × Str) → Net ν Bool
  | _, [] => return true
  | preparedNodes, (node, sql) :: rest => do
      let response ← Net.forward w node
        { request with payload := str "CLUSTER PREPARE_TX " ++ txId ++ str " " ++ sql }
      if answered response then prepareLoop request txId (preparedNodes ++ [(node, sql)]) rest
      else
        abortLoop w request txId preparedNodes
        return false

/-- The second phase: false at the first node that does not commit. -/
def commitLoop (request : RequestEnvelope) (txId : Str) :
    List (StorageNodeEndpoint × Str) → Net ν Bool
  | [] => return true
  | (node, _) :: rest => do
      let response ← Net.forward w node
        { request with payload := str "CLUSTER COMMIT_TX " ++ txId }
      if answered response then commitLoop request txId rest else return false

/-- `ExecuteTwoPhaseCommit`. -/
def executeTwoPhaseCommit (prepared : List (StorageNodeEndpoint × Str))
    (request : RequestEnvelope) : Net ν (Option ResponseEnvelope) := do
  let txId ← Net.newGuid w
  if ← prepareLoop w request txId [] prepared then
    if ← commitLoop w request txId prepared then return some ⟨200, str "2pc committed"⟩
    else return none
  else return none

/-- `ExecuteTwoPhaseCommit` of one statement on every node. -/
def executeTwoPhaseCommitOnAll (nodes : List StorageNodeEndpoint) (request : RequestEnvelope) :
    Net ν (Option ResponseEnvelope) :=
  executeTwoPhaseCommit w (nodes.map fun node => (node, request.payload)) request

/-! ## §4. Dumps of tables. -/

/-- One row of the answer to DUMP_TABLE. -/
def dumpRow (values : List Value) : Str :=
  str "\nROW" ++ values.flatMap fun value =>
    match value with
    | .null => str "\tNull"
    | .int i => str "\tInt:" ++ intToString i.toInt
    | .string s => str "\tString:" ++ escape s

/-- `DecodeClusterValue`. -/
def decodeClusterValue (encoded : Str) : Option Value :=
  if encoded = str "Null" then some .null
  else
    match stripStart (str "Int:") encoded with
    | some digits =>
        match stoll digits with
        | some (i, consumed) => if consumed = digits.length then some (.int i) else none
        | none => none
    | none =>
        match stripStart (str "String:") encoded with
        | some text => some (.string (unescape text))
        | none => none

/-- A line of a dump after the first. -/
def parseDumpLine (line : Str) : Option (List Value) :=
  match splitByTab line with
  | tag :: fields => if tag = str "ROW" then fields.mapM decodeClusterValue else none
  | [] => none

/-- The rows of a dump. -/
def parseDump (payload : Str) : Option (List (List Value)) :=
  match lines payload with
  | [] => some []
  | first :: rest =>
      if first = str "ROWS" then (rest.filter (· ≠ [])).mapM parseDumpLine else none

/-- The client the coordinator forwards as while it moves data. -/
def rebalanceRequest (payload : Str) : RequestEnvelope :=
  ⟨str "__cluster_rebalance__", [], payload⟩

/-- `FetchTableDump`. -/
def fetchTableDump (node : StorageNodeEndpoint) (databaseName tableName : Str) :
    Net ν (Option (List (List Value))) := do
  match ← Net.forward w node (rebalanceRequest
      (str "CLUSTER DUMP_TABLE " ++ databaseName ++ str " " ++ tableName)) with
  | some response =>
      if response.statusCode = 200 then return parseDump response.payload else return none
  | none => return none

/-! ## §5. `SyncMetadataToNodes`. -/

/-- `text.find(part) != npos`. -/
def containsText (part text : Str) : Bool := (findAfter part text).isSome

/-- A creation was answered with 200 or had been made before. -/
def createdOrPresent : Option ResponseEnvelope → Bool
  | some response =>
      response.statusCode = 200 || containsText (str "already exists") response.payload
  | none => false

/-- The CREATE TABLE requests of one database to one node. -/
def syncTables (node : StorageNodeEndpoint) : List (Str × TableSchema) → Net ν Bool
  | [] => return true
  | (_, schema) :: rest => do
      let response ← Net.forward w node (rebalanceRequest (renderCreateTableSql schema))
      if createdOrPresent response then syncTables node rest else return false

/-- One database to one node. -/
def syncDatabase (databaseName : Str) (tables : List (Str × TableSchema))
    (node : StorageNodeEndpoint) : Net ν Bool := do
  let created ← Net.forward w node
    (rebalanceRequest (str "CREATE DATABASE " ++ databaseName ++ str ";"))
  if createdOrPresent created then
    let used ← Net.forward w node (rebalanceRequest (str "USE " ++ databaseName ++ str ";"))
    if answered used then syncTables w node tables else return false
  else return false

/-- A loop that stops at the first element for which its body is false. -/
def allNet {α : Type} (body : α → Net ν Bool) : List α → Net ν Bool
  | [] => return true
  | a :: rest => do
      if ← body a then allNet body rest else return false

/-- `SyncMetadataToNodes`. -/
def syncMetadataToNodes (schemas : SchemaView) (targetNodes : List StorageNodeEndpoint) :
    Net ν Bool :=
  allNet (fun p => allNet (syncDatabase w p.1 p.2) targetNodes) schemas

/-! ## §6. `RebalanceClusterData`. -/

/-- The rows of all sources, each fingerprint once. -/
def collectRows (databaseName tableName : Str) :
    List Str → List (List Value) → List StorageNodeEndpoint → Net ν (Option (List (List Value)))
  | _, rows, [] => return some rows
  | seenRows, rows, node :: rest => do
      match ← fetchTableDump w node databaseName tableName with
      | none => return none
      | some dumped =>
          let r := dumped.foldl (fun acc row =>
            let fingerprint := row.flatMap fun value => renderLiteralSql value ++ str "|"
            if fingerprint ∈ acc.1 then acc else (acc.1 ++ [fingerprint], acc.2 ++ [row]))
            (seenRows, rows)
          collectRows databaseName tableName r.1 r.2 rest

/-- The rows of a table by the node they go to; `none` for a row too short. -/
def routeRows (nodeCount shardColumnIndex : Nat) :
    Dict Nat (List (List Value)) → List (List Value) →
    Result (Option (Dict Nat (List (List Value))))
  | groups, [] => .ok (some groups)
  | groups, row :: rest =>
      match row[shardColumnIndex]? with
      | none => .ok none
      | some value => do
          let node ← routeValueToNode w.hashes value nodeCount
          routeRows nodeCount shardColumnIndex
            ((groups.emplace node []).modify node (· ++ [row])) rest

/-- One table of `RebalanceClusterData`. -/
def rebalanceTable (sourceNodes targetNodes : List StorageNodeEndpoint) (databaseName : Str)
    (table : Str × TableSchema) : Net ν Bool := do
  let tableName := table.1
  let schema := table.2
  match (resolveShardKeyColumn schema).bind (findColumnIndex schema) with
  | none => return true
  | some shardColumnIndex =>
      match ← collectRows w databaseName tableName [] [] sourceNodes with
      | none => return false
      | some rows =>
          match ← Net.lift (routeRows w targetNodes.length shardColumnIndex Dict.empty rows) with
          | none => return false
          | some groups =>
              let prepared := groups.entries.filterMap fun p =>
                targetNodes[p.1]?.map fun node =>
                  (node, renderInsertSql ⟨some databaseName, tableName⟩
                    (schema.columns.map (·.name)) p.2)
              if prepared = [] then return true
              else
                let response ← executeTwoPhaseCommit w prepared
                  (rebalanceRequest (str "REBALANCE " ++ databaseName ++ str "." ++ tableName))
                return answered response

/-- `RebalanceClusterData`, which is called without truncating the targets. -/
def rebalanceClusterData (schemas : SchemaView)
    (sourceNodes targetNodes : List StorageNodeEndpoint) : Net ν Bool := do
  if sourceNodes = [] ∨ targetNodes = [] then return true
  else if ← syncMetadataToNodes w schemas targetNodes then
    allNet (fun p => allNet (rebalanceTable w sourceNodes targetNodes p.1) p.2) schemas
  else return false

end CustomDbms.Server
