/-
  CustomDbms.Server.ShardPlacement
  ────────────────────────────────
  **PLACEMENT UNDER CLIENT STATEMENTS.**

  The coordinator decides where a row is stored once, at the INSERT, from the
  value its shard key has in the statement.  The row stays there.  So the rows
  are on the nodes their keys hash to as long as no statement changes a key
  behind the coordinator's back: an UPDATE that assigns the shard key, or an
  INSERT whose key is a text that the rendered statement escapes.  Where the
  rows are in their places the values of the shard key are unique: every node
  keeps its own ones apart, and equal values are on one node.

    • `parse_part` — what a node reads of its part of an INSERT;
    • `placed_of_run` — the invariant of a run.
-/
import CustomDbms.Core.RowInvariant
import CustomDbms.Server.RenderedSql
import CustomDbms.Server.RoutedStatements
import CustomDbms.Server.ShardedWrites

namespace CustomDbms.Server

open CustomDbms.Common CustomDbms.Lib CustomDbms.Parser CustomDbms.Catalog CustomDbms.Network
open CustomDbms.Execution CustomDbms.Core CustomDbms.Runtime

/-! ## §1. Committed rows. -/

/-- The value of the shard key of a row. -/
def shardKeyValue (schema : TableSchema) (vs : List Value) : Option Value := do
  let shardKey ← resolveShardKeyColumn schema
  let index ← findColumnIndex schema shardKey
  vs[index]?

/-- The committed rows of a table, node by node. -/
def Nodes.committedShards (n : Nodes) (nodes : List StorageNodeEndpoint) (d t : Str) :
    List (List (List Value)) :=
  nodes.map fun node => tableValues (n.servers node.endpoint).engine.store d t

/-- Every row of a table with a shard key is on the node its key hashes to. -/
def CommittedPlaced (hashes : Hashes) (s : System Nodes) : Prop :=
  ∀ d t schema, tableSchema s.server.engine.store d t = some schema →
    resolveShardKeyColumn schema ≠ none →
    Placed (shardRoute hashes s.server.storageNodes.length schema)
      (s.net.committedShards s.server.storageNodes d t)

/-- No two rows of a table, on any nodes, have one value of the shard key. -/
def ShardKeysUnique (s : System Nodes) : Prop :=
  ∀ d t schema, tableSchema s.server.engine.store d t = some schema →
    resolveShardKeyColumn schema ≠ none →
    ((s.net.committedShards s.server.storageNodes d t).flatten.map (shardKeyValue schema)).Nodup

/-- **A cluster in order**: different nodes with the schemas of the coordinator,
in databases whose names are identifiers. -/
structure ClusterOk (s : System Nodes) : Prop where
  nonempty : s.server.storageNodes ≠ []
  distinct : (s.server.storageNodes.map (·.endpoint)).Nodup
  engines : ∀ node ∈ s.server.storageNodes, EngineOk (s.net.servers node.endpoint).engine
  schemas : ∀ node ∈ s.server.storageNodes, ∀ d t,
    tableSchema (s.net.servers node.endpoint).engine.store d t
      = tableSchema s.server.engine.store d t
  named : ∀ d t schema, tableSchema s.server.engine.store d t = some schema →
    isIdentifier d = true

theorem shardRoute_eq_some {hashes : Hashes} {n i : Nat} {schema : TableSchema}
    {vs : List Value} : shardRoute hashes n schema vs = some i ↔
      ∃ v, shardKeyValue schema vs = some v ∧ routeValueToNode hashes v n = .ok i := by
  unfold shardRoute shardKeyValue
  simp only [Option.bind_eq_bind, Option.bind_eq_some_iff]
  constructor
  · rintro ⟨key, hkey, index, hindex, v, hv, hroute⟩
    refine ⟨v, ⟨key, hkey, index, hindex, hv⟩, ?_⟩
    cases hr : routeValueToNode hashes v n with
    | ok j => rw [hr] at hroute; cases hroute; rfl
    | error e => rw [hr] at hroute; cases hroute
    | fault => rw [hr] at hroute; cases hroute
  · rintro ⟨v, ⟨key, hkey, index, hindex, hv⟩, hroute⟩
    exact ⟨key, hkey, index, hindex, v, hv, by rw [hroute]⟩

/-- A value with a node is not NULL. -/
theorem isNull_of_route {hashes : Hashes} {n i : Nat} {v : Value} (hn : n ≠ 0)
    (h : routeValueToNode hashes v n = .ok i) : isNull v = false := by
  cases v with
  | null =>
      unfold routeValueToNode at h
      rw [if_neg hn] at h
      cases h
  | int a => rfl
  | string a => rfl

/-- The shard key is a column with an index. -/
theorem shardKey_indexed {schema : TableSchema} {key : Str}
    (h : resolveShardKeyColumn schema = some key) :
    ∃ c ∈ schema.columns, c.constraint = .indexed ∧ c.name = key := by
  unfold resolveShardKeyColumn at h
  split at h
  · rename_i c hc
    cases h
    have hfound := List.find?_some hc
    exact ⟨c, List.mem_of_find?_eq_some hc, (of_decide_eq_true hfound).1, rfl⟩
  · obtain ⟨c, hc, rfl⟩ := Option.map_eq_some_iff.mp h
    have hfound := List.find?_some hc
    exact ⟨c, List.mem_of_find?_eq_some hc, of_decide_eq_true hfound, rfl⟩

theorem shardKey_found {schema : TableSchema} {key : Str}
    (h : resolveShardKeyColumn schema = some key) : ∃ i, findColumnIndex schema key = some i := by
  obtain ⟨c, hc, -, hname⟩ := shardKey_indexed h
  rw [← Option.isSome_iff_exists]
  unfold findColumnIndex
  rw [List.findIdx?_isSome, List.any_eq_true]
  exact ⟨c, hc, by simp [hname]⟩

/-! ## §2. Unique keys. -/

/-- Every node keeps the values of the shard key apart. -/
theorem shardKeys_nodup {s : Store} (hok : StoreOk s) {d t : Str} {schema : TableSchema}
    (hschema : tableSchema s d t = some schema) (hkey : resolveShardKeyColumn schema ≠ none) :
    ((tableValues s d t).map (shardKeyValue schema)).Nodup := by
  obtain ⟨table, htable, rfl⟩ := tableSchema_eq_some.mp hschema
  have htab := tableOk_of_storeOk hok htable
  obtain ⟨key, hkey⟩ := Option.ne_none_iff_exists'.mp hkey
  have hindexed : key ∈ indexedColumns table.schema := by
    obtain ⟨c, hc, hconstraint, hname⟩ := shardKey_indexed hkey
    rw [htab.schema.indexedColumns_eq]
    exact List.mem_map.mpr ⟨c, List.mem_filter.mpr ⟨hc, by simpa using hconstraint⟩, hname⟩
  have hindexable := (indexable_iff_values.mp (htab.indexable hindexed)).2
  rw [tableValues_of_some htable]
  rw [List.Nodup, List.pairwise_map] at hindexable ⊢
  refine hindexable.imp fun {vs vs'} hne heq => hne ?_
  obtain ⟨i, hi⟩ := shardKey_found hkey
  have hvalue : vs[i]? = vs'[i]? := by simpa [shardKeyValue, hkey, hi] using heq
  unfold indexKey rowKeyAt
  rw [hi]
  dsimp only [rowOf]
  rw [hvalue]

/-- **Rows in their places have different keys.** -/
theorem ClusterOk.shardKeysUnique {hashes : Hashes} {s : System Nodes} (h : ClusterOk s)
    (hplaced : CommittedPlaced hashes s) : ShardKeysUnique s := by
  intro d t schema hschema hkey
  refine (hplaced d t schema hschema hkey).nodup_flatten ?_ ?_
  · intro a _ b _ heq
    have hroute : ∀ i, shardRoute hashes s.server.storageNodes.length schema a = some i ↔
        shardRoute hashes s.server.storageNodes.length schema b = some i := by
      intro i
      rw [shardRoute_eq_some, shardRoute_eq_some, heq]
    exact Option.ext hroute
  · intro shard hshard
    obtain ⟨node, hnode, rfl⟩ := List.mem_map.mp hshard
    refine shardKeys_nodup (h.engines node hnode).committed ?_ hkey
    rw [h.schemas node hnode]
    exact hschema

/-! ## §3. The property of a node. -/

/-- A row belongs on the node with an index. -/
def BelongsOn (hashes : Hashes) (n i : Nat) : RowProperty := fun _ _ schema vs =>
  resolveShardKeyColumn schema ≠ none → shardRoute hashes n schema vs = some i

/-- **Placement, node by node.** -/
theorem committedPlaced_iff {hashes : Hashes} {s : System Nodes} (h : ClusterOk s) :
    CommittedPlaced hashes s ↔ ∀ (i : Nat) node, s.server.storageNodes[i]? = some node →
      EachRow (BelongsOn hashes s.server.storageNodes.length i)
        (s.net.servers node.endpoint).engine.store := by
  constructor
  · intro hplaced i node hnode d t schema hschema vs hvs hkey
    rw [h.schemas node (List.mem_of_getElem? hnode)] at hschema
    refine hplaced d t schema hschema hkey i _ ?_ vs hvs
    rw [Nodes.committedShards, List.getElem?_map, hnode]
    rfl
  · intro heach d t schema hschema hkey i shard hshard vs hvs
    rw [Nodes.committedShards, List.getElem?_map] at hshard
    obtain ⟨node, hnode, rfl⟩ := Option.map_eq_some_iff.mp hshard
    refine heach i node hnode d t schema ?_ vs hvs hkey
    rw [h.schemas node (List.mem_of_getElem? hnode)]
    exact hschema

/-- **A write that leaves the shard key leaves the node.** -/
theorem givesRows_write {re : RegexMatch} {hashes : Hashes} {n i : Nat} (hn : n ≠ 0)
    {store : Store} {session : SessionContext} {statement : Statement}
    (hinsert : ∀ stmt, statement ≠ .insert stmt)
    (hkeys : ∀ name, writeTarget statement = some name → ∀ d schema key,
      resolveDatabaseName session name.databaseName = .ok d →
      tableSchema store d name.objectName = some schema →
      resolveShardKeyColumn schema = some key → key ∉ assignedColumns statement) :
    GivesRows re (BelongsOn hashes n i) store session statement where
  built := fun stmt h => absurd h (hinsert stmt)
  kept := by
    intro name htarget d schema hd hschema vs vs' hvs hw hkey
    obtain ⟨v, hv, hroute⟩ := shardRoute_eq_some.mp (hvs hkey)
    refine shardRoute_eq_some.mpr ⟨v, ?_, hroute⟩
    obtain ⟨key, hkey⟩ := Option.ne_none_iff_exists'.mp hkey
    obtain ⟨index, hindex⟩ := shardKey_found hkey
    have hat : vs[index]? = some v := by simpa [shardKeyValue, hkey, hindex] using hv
    have hkept := written_at hw hindex (hkeys name htarget d schema key hd hschema hkey) hat
      (isNull_of_route hn hroute)
    simp [shardKeyValue, hkey, hindex, hkept]

/-! ## §4. The parts of an INSERT on their nodes. -/

theorem LiteralsOf.eq_map {input : List Expression} {row : List Value}
    (h : LiteralsOf input row) : input = row.map Expression.literal := by
  unfold LiteralsOf at h
  induction input generalizing row with
  | nil =>
      cases h
      rfl
  | cons e input ih =>
      rw [List.mapM_cons] at h
      obtain ⟨v, hv, h⟩ := Option.bind_eq_some_iff.mp h
      obtain ⟨rest, hrest, h⟩ := Option.bind_eq_some_iff.mp h
      cases h
      cases e with
      | literal w =>
          cases hv
          rw [List.map_cons, ih hrest]
      | _ => cases hv

section Parts

variable {hashes : Hashes} {schemas : SchemaView} {session : SessionContext} {n : Nat}
  {stmt : InsertStatement} {parts : InsertParts} {i : Nat} {group : List (List Value)}

/-- A row of a part is a row of the INSERT, and its key sends it to the node. -/
theorem InsertParts.Of.row_of_group (h : parts.Of hashes schemas session n stmt)
    (hgroup : parts.groups.find? i = some group) {row : List Value} (hrow : row ∈ group) :
    row.map Expression.literal ∈ stmt.rows ∧
      ∃ v, row[parts.shardColumnIndex]? = some v ∧ routeValueToNode hashes v n = .ok i := by
  obtain ⟨hmem, hroute⟩ := h.grouped.route_of_mem hgroup hrow
  obtain ⟨input, hinput, hliterals⟩ := exists_of_forall₂ h.literals hmem
  rw [← hliterals.eq_map]
  exact ⟨hinput, rowRoute_eq_some.mp hroute⟩

/-- The statement a node reads. -/
def partStatement (parts : InsertParts) (stmt : InsertStatement) (group : List (List Value)) :
    InsertStatement :=
  ⟨⟨some parts.databaseName, stmt.tableName.objectName⟩, stmt.columnNames, group.map rereadRow⟩

/-- **What a node reads of its part of an INSERT.** -/
theorem parse_part {sql : Str} (hparse : parse sql = .ok (.insert stmt))
    (h : parts.Of hashes schemas session n stmt) (hname : isIdentifier parts.databaseName = true)
    (hgroup : parts.groups.find? i = some group) :
    parse (renderInsertSql ⟨some parts.databaseName, stmt.tableName.objectName⟩ stmt.columnNames
      group) = .ok (.insert (partStatement parts stmt group)) := by
  obtain ⟨hok, hvalid⟩ := parse_insert hparse
  obtain ⟨hcolumns, -, hnodup, hlengths⟩ := validateInsert_eq_ok.mp hvalid
  refine parse_renderInsertSql hname hok.name.1 hok.columns hcolumns hnodup
    ((h.grouped i group).mp hgroup).1 ?_ ?_
  · intro row hrow
    have hlength := hlengths _ (h.row_of_group hgroup hrow).1
    rwa [List.length_map] at hlength
  · intro row hrow v hv
    obtain ⟨w, hw, hclosed⟩ := hok.rows _ (h.row_of_group hgroup hrow).1 (.literal v)
      (List.mem_map_of_mem hv)
    cases hw
    exact hclosed

/-- **The rows a node builds of its part belong on it.** -/
theorem givesRows_part (re : RegexMatch) (hn : n ≠ 0) {sql : Str}
    (hparse : parse sql = .ok (.insert stmt))
    (h : parts.Of hashes schemas session n stmt) (hgroup : parts.groups.find? i = some group)
    (hplain : ∀ row ∈ stmt.rows, ∀ text,
      row[parts.shardColumnIndex]? = some (.literal (.string text)) → escapeJsonText text = text)
    {store : Store} (hschema : tableSchema store parts.databaseName stmt.tableName.objectName
      = some parts.schema) (session' : SessionContext) :
    GivesRows re (BelongsOn hashes n i) store session' (.insert (partStatement parts stmt group)) where
  kept := fun _ htarget => by cases htarget
  built := by
    intro stmt' heq d schema hd hschema' input hinput vs hbuilt _
    cases heq
    cases hd
    obtain rfl : parts.schema = schema := Option.some.inj (hschema.symm.trans hschema')
    obtain ⟨-, hvalid⟩ := parse_insert hparse
    obtain ⟨-, -, hnodup, -⟩ := validateInsert_eq_ok.mp hvalid
    obtain ⟨row, hrow, rfl⟩ := List.mem_map.mp hinput
    obtain ⟨hsource, v, hv, hroute⟩ := h.row_of_group hgroup hrow
    have hnull := isNull_of_route hn hroute
    -- the value of the key is read as it was written
    have hreread : reread v = v := by
      cases v with
      | null => rfl
      | int a => rfl
      | string text =>
          have hat : (row.map Expression.literal)[parts.shardColumnIndex]?
              = some (.literal (.string text)) := by
            rw [List.getElem?_map, hv]
            rfl
          rw [Parser.reread, hplain _ hsource text hat]
    obtain ⟨map, hmap, built, hbuild, rfl⟩ := hbuilt
    obtain ⟨index, hindex⟩ := shardKey_found h.key
    obtain ⟨hlt, hcolumn, -⟩ := List.idxOf?_eq_some_iff.mp h.position
    have hname : stmt.columnNames[parts.shardColumnIndex]? = some parts.shardKey := by
      rw [List.getElem?_eq_getElem hlt, hcolumn]
    have hliteral : (rereadRow row)[parts.shardColumnIndex]? = some (.literal v) := by
      rw [rereadRow, List.getElem?_map, hv, Option.map_some, hreread]
    have hkept := buildInsertRow_at hmap hnodup hbuild hname hindex hliteral hnull
    exact shardRoute_eq_some.mpr ⟨v, by simp [shardKeyValue, h.key, hindex, hkept], hroute⟩

end Parts

/-! ## §5. Runs. -/

/-- **A statement that keeps every row at home**: it assigns no shard key, and
the keys it inserts are rendered as they are.  A table without a qualifier is
looked up in the database the node has for the client. -/
structure KeepsHomes (s : System Nodes) (clientId : Str) (statement : Statement) : Prop where
  unassigned : ∀ name, writeTarget statement = some name → ∀ node ∈ s.server.storageNodes,
    ∀ d schema key,
      resolveDatabaseName ((s.net.servers node.endpoint).session clientId) name.databaseName
        = .ok d →
      tableSchema s.server.engine.store d name.objectName = some schema →
      resolveShardKeyColumn schema = some key → key ∉ assignedColumns statement
  rendered : ∀ stmt, statement = .insert stmt → ∀ schema key index,
    resolveClusterTableSchema (schemaView s.server.engine.runtimeState) stmt.tableName
      (s.server.session clientId) = some schema →
    resolveShardKeyColumn schema = some key → stmt.columnNames.idxOf? key = some index →
    ∀ row ∈ stmt.rows, ∀ text,
      row[index]? = some (.literal (.string text)) → escapeJsonText text = text

/-- A request of a client: an INSERT, an UPDATE, a DELETE or a SELECT that
keeps every row at home. -/
def HomeKeepingRequest (s : System Nodes) (a : RequestContext × RequestEnvelope) : Prop :=
  ∃ statement, parse a.2.payload = .ok statement ∧ isRowStatement statement = true ∧
    KeepsHomes s a.2.clientId statement

/-- **The text sent to a node gives the rows there the property of the node.** -/
theorem givesRows_sentTo {hashes : Hashes} {s : System Nodes} (h : ClusterOk s)
    {request : RequestEnvelope} {statement : Statement}
    (hparse : parse request.payload = .ok statement) (hrow : isRowStatement statement = true)
    (hkeeps : KeepsHomes s request.clientId statement) {i : Nat} {node : StorageNodeEndpoint}
    (hnode : s.server.storageNodes[i]? = some node) {sql : Str}
    (hsql : SentTo hashes s.server request statement i sql) (re : RegexMatch) :
    ∃ sent, parse sql = .ok sent ∧ isRowStatement sent = true ∧
      GivesRows re (BelongsOn hashes s.server.storageNodes.length i)
        (s.net.servers node.endpoint).engine.store
        ((s.net.servers node.endpoint).session request.clientId) sent := by
  have hn : s.server.storageNodes.length ≠ 0 := by
    rw [Ne, List.length_eq_zero_iff]
    exact h.nonempty
  have hmem : node ∈ s.server.storageNodes := List.mem_of_getElem? hnode
  have hwrite : (∀ stmt, statement ≠ .insert stmt) → sql = request.payload →
      ∃ sent, parse sql = .ok sent ∧ isRowStatement sent = true ∧
        GivesRows re (BelongsOn hashes s.server.storageNodes.length i)
          (s.net.servers node.endpoint).engine.store
          ((s.net.servers node.endpoint).session request.clientId) sent := by
    intro hother hpayload
    rw [hpayload]
    refine ⟨statement, hparse, hrow, givesRows_write hn hother ?_⟩
    intro name htarget d schema key hd hschema
    rw [h.schemas node hmem] at hschema
    exact hkeeps.unassigned name htarget node hmem d schema key hd hschema
  cases statement with
  | insert stmt =>
      obtain ⟨routed, hsplit, hrouted⟩ := hsql
      obtain ⟨parts, hparts, -, heq⟩ := splitInsertByShard_spec hsplit
      rw [heq] at hrouted
      obtain ⟨p, hp, hpair⟩ := List.mem_map.mp hrouted
      cases hpair
      have hgroup := Dict.mem_entries_iff.mp hp
      have htable : tableSchema s.server.engine.store parts.databaseName stmt.tableName.objectName
          = some parts.schema := by
        have hschema : resolveClusterTableSchema (schemaView s.server.engine.store.runtime)
            stmt.tableName (s.server.session request.clientId) = some parts.schema := hparts.table
        rw [resolveClusterTableSchema_eq, hparts.database] at hschema
        exact hschema
      refine ⟨_, parse_part hparse hparts (h.named _ _ _ htable) hgroup, rfl, ?_⟩
      refine givesRows_part re hn hparse hparts hgroup ?_ ?_ _
      · exact hkeeps.rendered stmt rfl parts.schema parts.shardKey parts.shardColumnIndex
          hparts.table hparts.key hparts.position
      · rw [h.schemas node hmem]
        exact htable
  | update stmt => exact hwrite (fun _ heq => by cases heq) hsql
  | delete stmt => exact hwrite (fun _ heq => by cases heq) hsql
  | select stmt => exact hwrite (fun _ heq => by cases heq) hsql
  | _ => cases hrow

/-- **A node that has run the text sent to it is in order**, and its rows
belong on it. -/
theorem ClusterOk.runsOn {c : Conditions} {s : System Nodes} (h : ClusterOk s)
    (hplaced : CommittedPlaced c.hashes s) {request : RequestEnvelope} {statement : Statement}
    (hparse : parse request.payload = .ok statement) (hrow : isRowStatement statement = true)
    (hkeeps : KeepsHomes s request.clientId statement) {i : Nat} {node : StorageNodeEndpoint}
    (hnode : s.server.storageNodes[i]? = some node) {n' : Nodes}
    (hruns : RunsOn c s.net.servers request.clientId n' node.endpoint
      (SentTo c.hashes s.server request statement i)) :
    EngineOk (n'.servers node.endpoint).engine ∧
    (∀ d t, tableSchema (n'.servers node.endpoint).engine.store d t
      = tableSchema s.server.engine.store d t) ∧
    EachRow (BelongsOn c.hashes s.server.storageNodes.length i)
      (n'.servers node.endpoint).engine.store := by
  have hmem : node ∈ s.server.storageNodes := List.mem_of_getElem? hnode
  have hok := h.engines node hmem
  have heach := (committedPlaced_iff h).mp hplaced i node hnode
  rcases hruns with hsame | ⟨k, sql, hsql, hrun⟩
  · rw [hsame]
    exact ⟨hok, h.schemas node hmem, heach⟩
  · obtain ⟨sent, hsent, hsentRow, hgives⟩ := givesRows_sentTo h hparse hrow hkeeps hnode hsql
      (c.tick k).moment.context.env.regexMatch
    obtain ⟨hschemas, hrows⟩ := executeSql_eachRow hok hsent hsentRow heach hgives
    rw [hrun]
    refine ⟨executeSqlImpl_ok hok _ _ _, fun d t => ?_, hrows⟩
    rw [← h.schemas node hmem]
    exact hschemas d t

/-- The same coordinator and nodes that are in order make a cluster in order. -/
theorem ClusterOk.step {c : Conditions} {s s' : System Nodes} (h : ClusterOk s)
    (hengine : s'.server.engine = s.server.engine)
    (hstorage : s'.server.storageNodes = s.server.storageNodes)
    (hnodes : ∀ (i : Nat) node, s.server.storageNodes[i]? = some node →
      EngineOk (s'.net.servers node.endpoint).engine ∧
      (∀ d t, tableSchema (s'.net.servers node.endpoint).engine.store d t
        = tableSchema s.server.engine.store d t) ∧
      EachRow (BelongsOn c.hashes s.server.storageNodes.length i)
        (s'.net.servers node.endpoint).engine.store) :
    ClusterOk s' ∧ CommittedPlaced c.hashes s' := by
  have hall : ∀ node ∈ s.server.storageNodes, EngineOk (s'.net.servers node.endpoint).engine ∧
      ∀ d t, tableSchema (s'.net.servers node.endpoint).engine.store d t
        = tableSchema s.server.engine.store d t := by
    intro node hnode
    obtain ⟨i, hi⟩ := List.mem_iff_getElem?.mp hnode
    exact ⟨(hnodes i node hi).1, (hnodes i node hi).2.1⟩
  have hok : ClusterOk s' := by
    refine ⟨?_, ?_, ?_, ?_, ?_⟩
    · rw [hstorage]
      exact h.nonempty
    · rw [hstorage]
      exact h.distinct
    · rw [hstorage]
      exact fun node hnode => (hall node hnode).1
    · rw [hstorage, hengine]
      exact fun node hnode => (hall node hnode).2
    · rw [hengine]
      exact h.named
  refine ⟨hok, (committedPlaced_iff hok).mpr ?_⟩
  rw [hstorage]
  exact fun i node hnode => (hnodes i node hnode).2.2

/-- **One request.** -/
theorem placed_of_request {c : Conditions} (hquiet : c.Undisturbed) {s : System Nodes}
    (h : ClusterOk s) (hplaced : CommittedPlaced c.hashes s)
    {a : RequestContext × RequestEnvelope} (ha : HomeKeepingRequest s a) :
    (ClusterOk (requestMachine (clusterWorld c) s a).1 ∧
      CommittedPlaced c.hashes (requestMachine (clusterWorld c) s a).1) ∧
    (requestMachine (clusterWorld c) s a).1.server.storageNodes = s.server.storageNodes := by
  obtain ⟨statement, hparse, hrow, hkeeps⟩ := ha
  -- the session the coordinator creates changes nothing
  have hentered : ClusterOk (s.entered a.2) := ⟨h.nonempty, h.distinct, h.engines, h.schemas, h.named⟩
  have hkeeps' : KeepsHomes (s.entered a.2) a.2.clientId statement := by
    refine ⟨hkeeps.unassigned, ?_⟩
    show ∀ stmt, statement = .insert stmt → ∀ schema key index,
      resolveClusterTableSchema (schemaView s.server.engine.runtimeState) stmt.tableName
        ((s.server.withSession a.2.clientId).session a.2.clientId) = some schema → _
    rw [session_withSession]
    exact hkeeps.rendered
  have hstep : (requestMachine (clusterWorld c) s a).1 = s.entered a.2 ∨
      (requestMachine (clusterWorld c) s a).1
        = (routeStatement (clusterWorld c) (s.entered a.2) a.2 statement).1 := by
    unfold requestMachine
    rw [handleRequest_of_parse _ _ s hparse]
    unfold handleSql
    rw [hparse]
    dsimp only
    split
    · exact .inl rfl
    · refine .inr ?_
      show (executeStatement (clusterWorld c) a.1 (s.entered a.2) a.2 statement).1 = _
      unfold executeStatement
      rw [if_pos hentered.nonempty, isMetadata_of_row hrow, if_neg (by decide)]
  rcases hstep with hsame | hroute
  · rw [hsame]
    exact ⟨⟨hentered, hplaced⟩, rfl⟩
  · rw [hroute]
    have hserver := routeStatement_server (clusterWorld c) (s.entered a.2) a.2 statement
    refine ⟨hentered.step (by rw [hserver]) (by rw [hserver]) fun i node hnode => ?_,
      by rw [hserver]; rfl⟩
    exact hentered.runsOn hplaced hparse hrow hkeeps' hnode
      (routeStatement_runsOn hquiet (s.entered a.2) hentered.distinct hnode hparse hrow)

/-- **Rows stay in their places, and their keys unique, in every run of
statements that keep them at home.** -/
theorem placed_of_run {c : Conditions} (hquiet : c.Undisturbed) {s : System Nodes}
    (h : ClusterOk s) (hplaced : CommittedPlaced c.hashes s)
    {requests : List (RequestContext × RequestEnvelope)}
    (hrun : (requestMachine (clusterWorld c)).Along HomeKeepingRequest s requests)
    {front : List (RequestContext × RequestEnvelope)} (hfront : front <+: requests) :
    ((requestMachine (clusterWorld c)).run s front).server.storageNodes = s.server.storageNodes ∧
    CommittedPlaced c.hashes ((requestMachine (clusterWorld c)).run s front) ∧
    ShardKeysUnique ((requestMachine (clusterWorld c)).run s front) := by
  obtain ⟨back, rfl⟩ := hfront
  have hfirst := (Machine.along_append.mp hrun).1
  obtain ⟨hok, hkept, hlist⟩ := Machine.Along.invariant
    (I := fun s' => ClusterOk s' ∧ CommittedPlaced c.hashes s' ∧
      s'.server.storageNodes = s.server.storageNodes)
    (fun s' a hs' ha => by
      obtain ⟨⟨hok, hkept⟩, hlist⟩ := placed_of_request hquiet hs'.1 hs'.2.1 ha
      exact ⟨hok, hkept, hlist.trans hs'.2.2⟩)
    hfirst ⟨h, hplaced, rfl⟩
  exact ⟨hlist, hkept, hok.shardKeysUnique hkept⟩

/-! ## §6. A key that is assigned. -/

theorem committedShards_shardedSystem (d t : Str) :
    shardedSystem.net.committedShards twoNodes d t
      = shardedSystem.net.shards ⟨[], []⟩ twoNodes d t := by
  unfold Nodes.committedShards Nodes.shards
  refine List.map_congr_left fun node _ => ?_
  rw [storeAt_shardedSystem]
  rfl

theorem clusterOk_shardedSystem : ClusterOk shardedSystem where
  nonempty := (shardedSystem_sharded []).nonempty
  distinct := (shardedSystem_sharded []).distinct
  engines := (shardedSystem_sharded []).engines
  schemas := by
    intro node _ d t
    show tableSchema (shardEngine node.endpoint).store d t = tableSchema (tableEngine []).store d t
    rw [tableSchema_oneTable (rowsView_shardEngine _), tableSchema_oneTable rowsView_coordinator]
  named := by
    intro d t schema hschema
    replace hschema : tableSchema (tableEngine []).store d t = some schema := hschema
    rw [tableSchema_oneTable rowsView_coordinator] at hschema
    split at hschema
    · rename_i hat
      rw [← hat.1]
      decide
    · cases hschema

theorem placed_shardedSystem : CommittedPlaced healthyConditions.hashes shardedSystem := by
  intro d t schema hschema hkey
  show Placed _ (shardedSystem.net.committedShards twoNodes d t)
  rw [committedShards_shardedSystem]
  refine (shardedSystem_sharded []).placed d t schema ?_ hkey
  rw [← (shardedSystem_sharded []).schemas]
  exact hschema

/-- `INSERT INTO d.t (k, v) VALUES (3, "z");` -/
def insertKeyRequest : RequestEnvelope := requestOf "INSERT INTO d.t (k, v) VALUES (3, \"z\");"

/-- The statement of the request. -/
def insertKey : InsertStatement :=
  ⟨⟨some (str "d"), str "t"⟩, [str "k", str "v"],
    [[.literal (.int 3), .literal (.string (str "z"))]]⟩

theorem parse_insertKey : parse insertKeyRequest.payload = .ok (.insert insertKey) := by
  decide +kernel

theorem keepsHomes_insertKey : HomeKeepingRequest shardedSystem (quietContext, insertKeyRequest) := by
  refine ⟨_, parse_insertKey, rfl, ⟨fun name htarget => (by cases htarget), ?_⟩⟩
  intro stmt heq schema key index hschema hkey hindex row hrow text htext
  cases heq
  replace hschema : resolveClusterTableSchema (schemaView (tableEngine []).store.runtime)
    insertKey.tableName _ = some schema := hschema
  rw [resolveClusterTableSchema_eq] at hschema
  replace hschema : tableSchema (tableEngine []).store (str "d") (str "t") = some schema := hschema
  rw [tableSchema_oneTable rowsView_coordinator, if_pos ⟨rfl, rfl⟩] at hschema
  cases hschema
  have hk : resolveShardKeyColumn sampleSchema = some (str "k") := by decide
  rw [hk] at hkey
  cases hkey
  cases hindex
  rw [List.mem_singleton.mp hrow] at htext
  cases htext

/-- **An INSERT of a number on the two shards.** -/
theorem placed_of_run_insert :
    ((requestMachine (clusterWorld healthyConditions)).run shardedSystem
      [(quietContext, insertKeyRequest)]).server.storageNodes = twoNodes ∧
    CommittedPlaced healthyConditions.hashes
      ((requestMachine (clusterWorld healthyConditions)).run shardedSystem
        [(quietContext, insertKeyRequest)]) ∧
    ShardKeysUnique ((requestMachine (clusterWorld healthyConditions)).run shardedSystem
      [(quietContext, insertKeyRequest)]) := by
  have hrun : (requestMachine (clusterWorld healthyConditions)).Along HomeKeepingRequest
      shardedSystem [(quietContext, insertKeyRequest)] := ⟨keepsHomes_insertKey, trivial⟩
  exact placed_of_run healthyConditions_healthy.quiet clusterOk_shardedSystem placed_shardedSystem
    hrun (List.prefix_refl _)

/-- `UPDATE d.t SET k = 5;` -/
def assignKeyRequest : RequestEnvelope := requestOf "UPDATE d.t SET k = 5;"

/-- The coordinator and the nodes after the request. -/
def keyAssigned : System Nodes :=
  (handleRequest (clusterWorld healthyConditions) quietContext shardedSystem assignKeyRequest).1

/-- **Both rows get the key 5 and stay where they are.** -/
theorem assigned_key_displaced :
    healthyConditions.Healthy sampleEnv.regexMatch ∧ ClusterOk shardedSystem ∧
    CommittedPlaced healthyConditions.hashes shardedSystem ∧
    parse assignKeyRequest.payload = .ok (.update ⟨⟨some (str "d"), str "t"⟩,
      [⟨str "k", .literal (.int 5)⟩], none⟩) ∧
    keyAssigned.server.storageNodes = twoNodes ∧
    ¬ CommittedPlaced healthyConditions.hashes keyAssigned ∧ ¬ ShardKeysUnique keyAssigned := by
  have hschema : tableSchema keyAssigned.server.engine.store (str "d") (str "t")
      = some sampleSchema := by decide +kernel
  have hkey : resolveShardKeyColumn sampleSchema ≠ none := by decide
  have hshards : keyAssigned.net.committedShards keyAssigned.server.storageNodes (str "d") (str "t")
      = [[[.int 5, .string (str "y")]], [[.int 5, .string (str "x")]]] := by decide +kernel
  refine ⟨healthyConditions_healthy, clusterOk_shardedSystem, placed_shardedSystem, by decide +kernel,
    by decide +kernel, fun hplaced => ?_, fun hunique => ?_⟩
  · have hat := hplaced _ _ _ hschema hkey
    rw [hshards] at hat
    have hroute := hat.route_of_mem (i := 0) rfl (List.mem_singleton.mpr rfl)
    revert hroute
    decide +kernel
  · have hnodup := hunique _ _ _ hschema hkey
    rw [hshards] at hnodup
    revert hnodup
    decide +kernel

end CustomDbms.Server
