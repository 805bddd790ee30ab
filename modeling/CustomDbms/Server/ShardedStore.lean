/-
  CustomDbms.Server.ShardedStore
  ──────────────────────────────
  **A STORE SPREAD OVER STORAGE NODES.**

  The nodes of a list hold the rows of a store between them (`HoldsUnion`); a
  row of a table with a shard key is on the node its key hashes to.  A clause
  from which the coordinator can take a value of the shard key selects rows
  with that value only, and all of them are on the node of that value.
-/
import CustomDbms.Lib.Shards
import CustomDbms.Parser.WhereLiterals
import CustomDbms.Server.ClusterRuns

namespace CustomDbms.Server

open CustomDbms.Common CustomDbms.Lib CustomDbms.Parser CustomDbms.Catalog CustomDbms.Network
open CustomDbms.Execution CustomDbms.Core CustomDbms.Runtime

/-! ## §1. Schemas of the coordinator. -/

theorem lookupName_entries {β γ : Type} (m : Dict Str β) (f : β → γ) (name : Str) :
    lookupName (m.entries.map fun p => (p.1, f p.2)) name = (m.find? name).map f := by
  unfold lookupName Dict.find?
  rw [List.find?_map, Option.map_map, Option.map_map]
  rfl

/-- **The coordinator reads the schemas of its committed state.** -/
theorem resolveClusterTableSchema_eq (s : Store) (name : QualifiedName)
    (session : SessionContext) :
    resolveClusterTableSchema (schemaView s.runtime) name session
      = (resolveClusterDatabaseName name session).bind fun d =>
          tableSchema s d name.objectName := by
  unfold resolveClusterTableSchema schemaView
  cases resolveClusterDatabaseName name session with
  | none => rfl
  | some d =>
      show (lookupName (s.runtime.databases.entries.map fun p =>
        (p.1, p.2.tables.entries.map fun q => (q.1, q.2.schema))) d).bind _ = _
      rw [lookupName_entries s.runtime.databases
        (fun db => db.tables.entries.map fun q => (q.1, q.2.schema)) d]
      show _ = tableSchema s d name.objectName
      unfold tableSchema storeTable
      cases s.runtime.databases.find? d with
      | none => rfl
      | some db => exact lookupName_entries db.tables (·.schema) name.objectName

/-- The clause of a statement on rows, and the table it names. -/
def clauseOf : Statement → Option (QualifiedName × Option Expression)
  | .select stmt => some (stmt.tableName, stmt.whereClause)
  | .update stmt => some (stmt.tableName, stmt.whereClause)
  | .delete stmt => some (stmt.tableName, stmt.whereClause)
  | _ => none

/-- The node a row belongs to: by the value of its shard key. -/
def shardRoute (hashes : Hashes) (nodeCount : Nat) (schema : TableSchema) (vs : List Value) :
    Option Nat := do
  let shardKey ← resolveShardKeyColumn schema
  let index ← findColumnIndex schema shardKey
  let value ← vs[index]?
  match routeValueToNode hashes value nodeCount with
  | .ok node => some node
  | _ => none

theorem extractShardKeyValue_eq_some {key : Str} {left right : Expression} {v : Value}
    (h : extractShardKeyValue key left right = some v) :
    ∃ d t, left = .columnReference d t key ∧ right = .literal v := by
  unfold extractShardKeyValue at h
  split at h
  · split at h
    · rename_i d t _ _ hkey
      cases h
      exact ⟨d, t, by rw [hkey], rfl⟩
    · cases h
  · cases h

/-- A comparison with `==` holds of equal values. -/
theorem evaluate_equal {re : RegexMatch} {schema : TableSchema} {row : RowData}
    {left right : Expression}
    (h : evaluatePredicate re schema row (.binaryComparison .equal left right) = .ok true) :
    ∃ v, evaluateValueExpression left schema row = .ok v ∧
      evaluateValueExpression right schema row = .ok v := by
  rw [evaluatePredicate] at h
  obtain ⟨l, hl, h⟩ := Result.bind_eq_ok.mp h
  obtain ⟨r, hr, h⟩ := Result.bind_eq_ok.mp h
  by_cases htype : getValueType l = getValueType r
  · rw [if_neg (not_not_intro htype)] at h
    obtain ⟨compared, hcompared, h⟩ := Result.bind_eq_ok.mp h
    have hzero : compared = 0 := by simpa [compareWith] using h
    rw [hzero] at hcompared
    have heq : l = r := compareValues_eq_zero.mp ⟨htype, Result.ofOption_eq_ok.mp hcompared⟩
    exact ⟨l, hl, heq ▸ hr⟩
  · rw [if_pos htype] at h
    cases h

theorem evaluate_columnReference_eq_ok {schema : TableSchema} {row : RowData} {d t : Option Str}
    {n : Str} {v : Value}
    (h : evaluateValueExpression (.columnReference d t n) schema row = .ok v) :
    ∃ i, findColumnIndex schema n = some i ∧ row.values[i]? = some v := by
  unfold evaluateValueExpression at h
  dsimp only at h
  cases hi : findColumnIndex schema n with
  | none =>
      rw [hi] at h
      cases h
  | some i =>
      rw [hi] at h
      exact ⟨i, rfl, Result.ofOption_eq_ok.mp h⟩

/-- **A clause selects only rows with the value the coordinator takes from it.** -/
theorem tryExtractShardKeyValue_sound {re : RegexMatch} {schema : TableSchema} {row : RowData}
    {key : Str} {clause : Expression} {v : Value}
    (hv : tryExtractShardKeyValue key clause = some v)
    (h : evaluatePredicate re schema row clause = .ok true) :
    ∃ i, findColumnIndex schema key = some i ∧ row.values[i]? = some v := by
  induction clause with
  | logical op left right ihl ihr =>
      cases op with
      | or => cases hv
      | and =>
          rw [evaluatePredicate] at h
          obtain ⟨l, hl, h⟩ := Result.bind_eq_ok.mp h
          obtain ⟨r, hr, h⟩ := Result.bind_eq_ok.mp h
          have hboth : l = true ∧ r = true := by simpa using h
          rw [tryExtractShardKeyValue] at hv
          cases hleft : tryExtractShardKeyValue key left with
          | some w =>
              rw [hleft] at hv
              cases hv
              exact ihl hleft (hboth.1 ▸ hl)
          | none =>
              rw [hleft] at hv
              exact ihr hv (hboth.2 ▸ hr)
  | binaryComparison op left right _ _ =>
      cases op with
      | equal =>
          obtain ⟨w, hl, hr⟩ := evaluate_equal h
          rw [tryExtractShardKeyValue] at hv
          cases hfirst : extractShardKeyValue key left right with
          | some w' =>
              rw [hfirst] at hv
              cases hv
              obtain ⟨d, t, rfl, rfl⟩ := extractShardKeyValue_eq_some hfirst
              cases hr
              exact evaluate_columnReference_eq_ok hl
          | none =>
              rw [hfirst] at hv
              obtain ⟨d, t, rfl, rfl⟩ := extractShardKeyValue_eq_some hv
              cases hl
              exact evaluate_columnReference_eq_ok hr
      | _ => cases hv
  | _ => cases hv

/-- The state of a node a session works on. -/
def Nodes.storeAt (n : Nodes) (session : SessionContext) (node : StorageNodeEndpoint) : Store :=
  (n.servers node.endpoint).engine.storeFor session

/-- The rows of a table, node by node. -/
def Nodes.shards (n : Nodes) (session : SessionContext) (nodes : List StorageNodeEndpoint)
    (d t : Str) : List (List (List Value)) :=
  nodes.map fun node => tableValues (n.storeAt session node) d t

/-- **The nodes hold a store between them**: every node has its schemas, and
together they have its rows. -/
structure HoldsUnion (nodes : List StorageNodeEndpoint) (n : Nodes) (session : SessionContext)
    (single : Store) : Prop where
  schemas : ∀ node ∈ nodes, ∀ d t,
    tableSchema (n.storeAt session node) d t = tableSchema single d t
  values : ∀ d t, (tableValues single d t).Perm (n.shards session nodes d t).flatten

/-- Every row of a table with a shard key is on the node its key hashes to. -/
def RowsPlaced (hashes : Hashes) (nodes : List StorageNodeEndpoint) (n : Nodes)
    (session : SessionContext) (single : Store) : Prop :=
  ∀ d t schema, tableSchema single d t = some schema → resolveShardKeyColumn schema ≠ none →
    Placed (shardRoute hashes nodes.length schema) (n.shards session nodes d t)

/-- **A cluster of healthy nodes that holds the shards of a store**, for a
client: the nodes have no nodes of their own, see the client in the database
the coordinator sees it in, and are in order; the coordinator has the schemas. -/
structure Sharded (c : Conditions) (re : RegexMatch) (s : System Nodes) (clientId : Str)
    (single : Store) : Prop where
  healthy : c.Healthy re
  nonempty : s.server.storageNodes ≠ []
  distinct : (s.server.storageNodes.map (·.endpoint)).Nodup
  leaf : ∀ node ∈ s.server.storageNodes, (s.net.servers node.endpoint).storageNodes = []
  session : ∀ node ∈ s.server.storageNodes,
    (s.net.servers node.endpoint).session clientId = s.server.session clientId
  engines : ∀ node ∈ s.server.storageNodes, EngineOk (s.net.servers node.endpoint).engine
  schemas : ∀ d t, tableSchema s.server.engine.store d t = tableSchema single d t
  union : HoldsUnion s.server.storageNodes s.net (s.server.session clientId) single
  placed : RowsPlaced c.hashes s.server.storageNodes s.net (s.server.session clientId) single

section Routing

variable {c : Conditions} {re : RegexMatch} {s : System Nodes} {clientId : Str} {single : Store}
  {name : QualifiedName} {clause : Expression} {v : Value}

theorem routeValueToNode_eq_ok (hashes : Hashes) (hv : isNull v = false) {n : Nat} (hn : n ≠ 0) :
    ∃ i < n, routeValueToNode hashes v n = .ok i := by
  unfold routeValueToNode
  rw [if_neg hn]
  cases v with
  | null => cases hv
  | int a => exact ⟨_, Nat.mod_lt _ (Nat.pos_of_ne_zero hn), rfl⟩
  | string a => exact ⟨_, Nat.mod_lt _ (Nat.pos_of_ne_zero hn), rfl⟩

end Routing

/-! ## §5. Two shards. -/

/-- The schema and the rows of a table. -/
structure TableContents where
  schema : TableSchema
  values : List (List Value)
  deriving DecidableEq

/-- What is seen of a table. -/
def tableContents (table : TableRuntime) : TableContents :=
  ⟨table.schema, table.heap.rows.map (·.values)⟩

/-- The tables of a store, in iteration order. -/
def rowsView (s : Store) : List (Str × List (Str × TableContents)) :=
  s.runtime.databases.entries.map fun p =>
    (p.1, p.2.tables.entries.map fun q => (q.1, tableContents q.2))

theorem lookupName_rowsView (s : Store) (d t : Str) :
    ((lookupName (rowsView s) d).bind fun tables => lookupName tables t)
      = (storeTable s d t).map tableContents := by
  unfold rowsView storeTable
  rw [lookupName_entries s.runtime.databases (fun db => db.tables.entries.map fun q =>
    (q.1, tableContents q.2)) d]
  cases s.runtime.databases.find? d with
  | none => rfl
  | some db => exact lookupName_entries db.tables tableContents t

section OneTable

variable {s : Store} {d₀ t₀ : Str} {view : TableContents}
  (h : rowsView s = [(d₀, [(t₀, view)])]) (d t : Str)

include h

theorem storeTable_oneTable :
    (storeTable s d t).map tableContents = if d₀ = d ∧ t₀ = t then some view else none := by
  rw [← lookupName_rowsView, h]
  unfold lookupName
  by_cases hd : d₀ = d
  · by_cases ht : t₀ = t
    · simp [hd, ht]
    · simp [hd, ht]
  · simp [hd]

theorem tableSchema_oneTable :
    tableSchema s d t = if d₀ = d ∧ t₀ = t then some view.schema else none := by
  have hmap := congrArg (Option.map TableContents.schema) (storeTable_oneTable h d t)
  rw [Option.map_map] at hmap
  refine hmap.trans ?_
  split
  · rfl
  · rfl

theorem tableValues_oneTable :
    tableValues s d t = if d₀ = d ∧ t₀ = t then view.values else [] := by
  have hmap := congrArg (Option.map TableContents.values) (storeTable_oneTable h d t)
  rw [Option.map_map] at hmap
  refine (congrArg (Option.getD · []) hmap).trans ?_
  split
  · rfl
  · rfl

end OneTable

/-- A database with one table of an indexed number and a text. -/
@[irreducible] def tableEngine (inserts : List String) : DbmsEngine :=
  (runTexts sampleEnv Io.good freshEngine ⟨str "c", []⟩
    ([str "CREATE DATABASE d;", str "CREATE TABLE d.t (k INT INDEXED, v STRING);"]
      ++ inserts.map str)).1

theorem tableEngine_ok (inserts : List String) : EngineOk (tableEngine inserts) := by
  unfold tableEngine
  exact reachable_ok (reachable_runTexts sampleEnv Io.good reachable_freshEngine _ _)

/-- Both rows on one engine. -/
def unionEngine : DbmsEngine :=
  tableEngine ["INSERT INTO d.t (k, v) VALUES (1, \"x\"), (2, \"y\");"]

/-- Even keys are on the first node, odd keys on the second. -/
def shardEngine (endpoint : Endpoint) : DbmsEngine :=
  if endpoint.2 = 4556 then tableEngine ["INSERT INTO d.t (k, v) VALUES (2, \"y\");"]
  else tableEngine ["INSERT INTO d.t (k, v) VALUES (1, \"x\");"]

/-- A coordinator of the two shards. -/
def shardedSystem : System Nodes where
  server := { coordinator.server with engine := tableEngine [] }
  net := ⟨fun endpoint => { storageNode with engine := shardEngine endpoint }, 0, 0, [], []⟩

/-- Nothing fails, and a number hashes to itself. -/
def healthyConditions : Conditions where
  tick := fun _ => ⟨[], .answered, quietMoment⟩
  drawn := fun k _ => Fin.ofNat 256 k
  hashes := ⟨fun i => i.toInt.natAbs, List.length⟩
  hmac := nodelessWorld.hmac

theorem healthyConditions_healthy : healthyConditions.Healthy sampleEnv.regexMatch where
  quiet := fun _ => rfl
  delivered := fun _ => rfl
  files := fun _ => rfl
  regex := fun _ => rfl

/-- The schema of the table. -/
def sampleSchema : TableSchema where
  databaseName := str "d"
  tableName := str "t"
  columns := [⟨str "k", .int64, .indexed, none⟩, ⟨str "v", .string, .none, none⟩]
  indexes := [indexDefinitionFor (str "t") (str "k")]

/-- An engine holds these rows of the table, and no open transaction. -/
def Shows (engine : DbmsEngine) (values : List (List Value)) : Prop :=
  rowsView engine.store = [(str "d", [(str "t", ⟨sampleSchema, values⟩)])] ∧
    engine.transactions.entries.isEmpty = true

instance (engine : DbmsEngine) (values : List (List Value)) : Decidable (Shows engine values) :=
  inferInstanceAs (Decidable (_ ∧ _))

/-- What the four runs leave. -/
theorem shows_runs :
    Shows unionEngine [[.int 1, .string (str "x")], [.int 2, .string (str "y")]] ∧
      Shows (tableEngine []) [] ∧
      Shows (tableEngine ["INSERT INTO d.t (k, v) VALUES (2, \"y\");"])
        [[.int 2, .string (str "y")]] ∧
      Shows (tableEngine ["INSERT INTO d.t (k, v) VALUES (1, \"x\");"])
        [[.int 1, .string (str "x")]] := by
  decide +kernel

theorem rowsView_unionEngine : rowsView unionEngine.store = [(str "d", [(str "t", ⟨sampleSchema,
    [[.int 1, .string (str "x")], [.int 2, .string (str "y")]]⟩)])] :=
  shows_runs.1.1

theorem rowsView_coordinator :
    rowsView (tableEngine []).store = [(str "d", [(str "t", ⟨sampleSchema, []⟩)])] :=
  shows_runs.2.1.1

theorem rowsView_shardEngine (endpoint : Endpoint) :
    rowsView (shardEngine endpoint).store = [(str "d", [(str "t", ⟨sampleSchema,
      if endpoint.2 = 4556 then [[.int 2, .string (str "y")]]
      else [[.int 1, .string (str "x")]]⟩)])] := by
  unfold shardEngine
  split
  · exact shows_runs.2.2.1.1
  · exact shows_runs.2.2.2.1

theorem transactions_shardEngine (endpoint : Endpoint) :
    (shardEngine endpoint).transactions.entries.isEmpty = true := by
  unfold shardEngine
  split
  · exact shows_runs.2.2.1.2
  · exact shows_runs.2.2.2.2

theorem storeAt_shardedSystem (session : SessionContext) (node : StorageNodeEndpoint) :
    shardedSystem.net.storeAt session node = (shardEngine node.endpoint).store := by
  refine storeFor_of_none ?_
  show (shardEngine node.endpoint).transactions.find? _ = none
  unfold Dict.find?
  rw [List.isEmpty_iff.mp (transactions_shardEngine node.endpoint)]
  rfl

/-- What the two nodes hold of a table. -/
theorem shards_shardedSystem (session : SessionContext) (d t : Str) :
    shardedSystem.net.shards session twoNodes d t
      = if str "d" = d ∧ str "t" = t then
          [[[.int 2, .string (str "y")]], [[.int 1, .string (str "x")]]]
        else [[], []] := by
  unfold Nodes.shards twoNodes
  rw [List.map_cons, List.map_cons, List.map_nil, storeAt_shardedSystem, storeAt_shardedSystem,
    tableValues_oneTable (rowsView_shardEngine _), tableValues_oneTable (rowsView_shardEngine _)]
  split
  · rfl
  · rfl

/-- **The two nodes hold the shards of the union.** -/
theorem shardedSystem_sharded (clientId : Str) :
    Sharded healthyConditions sampleEnv.regexMatch shardedSystem clientId unionEngine.store where
  healthy := healthyConditions_healthy
  nonempty := fun h => by cases h
  distinct := by
    show (twoNodes.map (·.endpoint)).Nodup
    decide
  leaf := fun _ _ => rfl
  session := fun _ _ => rfl
  engines := by
    intro node _
    show EngineOk (shardEngine node.endpoint)
    unfold shardEngine
    split
    · exact tableEngine_ok _
    · exact tableEngine_ok _
  schemas := by
    intro d t
    rw [tableSchema_oneTable rowsView_unionEngine]
    exact tableSchema_oneTable rowsView_coordinator d t
  union :=
    { schemas := by
        intro node _ d t
        rw [storeAt_shardedSystem, tableSchema_oneTable rowsView_unionEngine,
          tableSchema_oneTable (rowsView_shardEngine _)]
      values := by
        intro d t
        show List.Perm _ (shardedSystem.net.shards _ twoNodes d t).flatten
        rw [shards_shardedSystem, tableValues_oneTable rowsView_unionEngine]
        split
        · decide
        · rfl }
  placed := by
    intro d t schema hschema _
    show Placed _ (shardedSystem.net.shards _ twoNodes d t)
    rw [tableSchema_oneTable rowsView_unionEngine] at hschema
    rw [shards_shardedSystem]
    split at hschema
    · rename_i hat
      cases hschema
      rw [if_pos hat]
      intro i shard hshard vs hvs
      cases i with
      | zero =>
          cases hshard
          rw [List.mem_singleton.mp hvs]
          decide
      | succ i =>
          cases i with
          | zero =>
              cases hshard
              rw [List.mem_singleton.mp hvs]
              decide
          | succ i => cases hshard
    · cases hschema

/-! ## §6. The routed node and the rows of a clause. -/

/-- A statement that is routed has a clause with a value of the shard key, and
goes to the node of that value. -/
theorem routeNodeIndex_eq_some {hashes : Hashes} {schemas : SchemaView} {session : SessionContext}
    {nodeCount node : Nat} {statement : Statement} {name : QualifiedName} {clause : Expression}
    {schema : TableSchema} (hclause : clauseOf statement = some (name, some clause))
    (hschema : resolveClusterTableSchema schemas name session = some schema)
    (h : routeNodeIndex hashes schemas session nodeCount statement = .ok (some node)) :
    ∃ key v, resolveShardKeyColumn schema = some key ∧
      tryExtractShardKeyValue key clause = some v ∧
      routeValueToNode hashes v nodeCount = .ok node := by
  unfold routeNodeIndex at h
  by_cases hn : nodeCount = 0
  · rw [if_pos hn] at h
    cases h
  · rw [if_neg hn] at h
    have hroute : evaluateRoute hashes schemas session nodeCount name (some clause)
        = .ok (some node) := by
      cases statement with
      | select stmt =>
          obtain ⟨rfl, hwhere⟩ := Prod.mk.inj (Option.some.inj hclause)
          rwa [← hwhere]
      | update stmt =>
          obtain ⟨rfl, hwhere⟩ := Prod.mk.inj (Option.some.inj hclause)
          rwa [← hwhere]
      | delete stmt =>
          obtain ⟨rfl, hwhere⟩ := Prod.mk.inj (Option.some.inj hclause)
          rwa [← hwhere]
      | _ => cases hclause
    unfold evaluateRoute at hroute
    simp only [Option.bind_eq_bind, Option.bind_some, hschema] at hroute
    cases hkey : resolveShardKeyColumn schema with
    | none =>
        rw [hkey] at hroute
        cases hroute
    | some key =>
        rw [hkey] at hroute
        simp only [Option.bind_some] at hroute
        cases hv : tryExtractShardKeyValue key clause with
        | none =>
            rw [hv] at hroute
            cases hroute
        | some v =>
            rw [hv] at hroute
            obtain ⟨i, hi, heq⟩ := Result.map_eq_ok.mp hroute
            cases heq
            exact ⟨key, v, rfl, hv, hi⟩

/-- **Shard routing is sound.**  A row that a clause selects has in its shard
key column the value that the coordinator takes from the clause; so its own
node is the one a statement with this clause is sent to. -/
theorem shard_routing_sound (re : RegexMatch) (schema : TableSchema) (row : RowData)
    (clause : Expression) (h : evaluatePredicate re schema row clause = .ok true) :
    (∀ key v, tryExtractShardKeyValue key clause = some v →
      ∃ i, findColumnIndex schema key = some i ∧ row.values[i]? = some v) ∧
    ∀ (hashes : Hashes) (schemas : SchemaView) (session : SessionContext) (nodeCount node : Nat)
      (statement : Statement) (name : QualifiedName),
      clauseOf statement = some (name, some clause) →
      resolveClusterTableSchema schemas name session = some schema →
      routeNodeIndex hashes schemas session nodeCount statement = .ok (some node) →
      shardRoute hashes nodeCount schema row.values = some node := by
  refine ⟨fun key v hv => tryExtractShardKeyValue_sound hv h, ?_⟩
  intro hashes schemas session nodeCount node statement name hclause hschema hroute
  obtain ⟨key, v, hkey, hv, hnode⟩ := routeNodeIndex_eq_some hclause hschema hroute
  obtain ⟨i, hi, hvalue⟩ := tryExtractShardKeyValue_sound hv h
  unfold shardRoute
  simp [hkey, hi, hvalue, hnode]

/-- The row of key 2 is on the node that `k == 2` is sent to. -/
theorem shard_routing_sound_sample :
    shardRoute healthyConditions.hashes 2 sampleSchema [.int 2, .string (str "y")] = some 0 :=
  (shard_routing_sound sampleEnv.regexMatch sampleSchema
    ⟨some 1, [.int 2, .string (str "y")]⟩
    (.binaryComparison .equal (.columnReference none none (str "k")) (.literal (.int 2)))
    (by decide)).2 healthyConditions.hashes [(str "d", [(str "t", sampleSchema)])]
    ⟨str "c", str "d"⟩ 2 0
    (.delete ⟨⟨none, str "t"⟩, some (.binaryComparison .equal
      (.columnReference none none (str "k")) (.literal (.int 2)))⟩) ⟨none, str "t"⟩ rfl
    (by decide) (by decide)

end CustomDbms.Server
