/-
  CustomDbms.Server.RoutedStatements
  ──────────────────────────────────
  **WHERE THE TEXTS OF A ROW STATEMENT ARE RUN.**

  Whatever is lost and whatever fails on the way, a statement on rows leaves
  the coordinator's engine as it was, and every node of the list has run, at
  most once, the text that was sent to it: its part of an INSERT, or the
  statement itself.

    • `splitInsertByShard_spec` — the parts of an INSERT;
    • `routeStatement_runsOn` — what a statement leaves on the nodes.
-/
import CustomDbms.Lib.Shards
import CustomDbms.Server.ClusterRuns

namespace CustomDbms.Server

open CustomDbms.Common CustomDbms.Lib CustomDbms.Parser CustomDbms.Catalog CustomDbms.Network
open CustomDbms.Execution CustomDbms.Core CustomDbms.Runtime

/-! ## §1. The parts of an INSERT. -/

/-- The node of a row, by the value at a position. -/
def rowRoute (hashes : Hashes) (nodeCount shardColumnIndex : Nat) (row : List Value) :
    Option Nat := do
  let value ← row[shardColumnIndex]?
  match routeValueToNode hashes value nodeCount with
  | .ok node => some node
  | _ => none

theorem rowRoute_eq_some {hashes : Hashes} {nodeCount shardColumnIndex node : Nat}
    {row : List Value} : rowRoute hashes nodeCount shardColumnIndex row = some node ↔
      ∃ v, row[shardColumnIndex]? = some v ∧ routeValueToNode hashes v nodeCount = .ok node := by
  unfold rowRoute
  rw [Option.bind_eq_bind, Option.bind_eq_some_iff]
  refine exists_congr fun v => and_congr_right fun _ => ?_
  cases routeValueToNode hashes v nodeCount with
  | ok i => simp
  | error e => simp
  | fault => simp

/-- The literals of an input row. -/
def LiteralsOf (input : List Expression) (row : List Value) : Prop :=
  input.mapM literalValue? = some row

/-- **The rows of an INSERT by the node they go to.** -/
theorem groupRowsByNode_spec {hashes : Hashes} {nodeCount shardColumnIndex : Nat}
    {inputs : List (List Expression)} {done : List (List Value)}
    {groups groups' : Dict Nat (List (List Value))}
    (hgroups : GroupedBy (rowRoute hashes nodeCount shardColumnIndex) done groups)
    (h : groupRowsByNode hashes nodeCount shardColumnIndex groups inputs = .ok (some groups')) :
    ∃ rows, List.Forall₂ LiteralsOf inputs rows ∧
      (∀ row ∈ rows, ∃ node, rowRoute hashes nodeCount shardColumnIndex row = some node) ∧
      GroupedBy (rowRoute hashes nodeCount shardColumnIndex) (done ++ rows) groups' := by
  induction inputs generalizing done groups with
  | nil =>
      cases h
      exact ⟨[], .nil, by simp, by rw [List.append_nil]; exact hgroups⟩
  | cons input inputs ih =>
      rw [groupRowsByNode] at h
      cases hrow : input.mapM literalValue? with
      | none => rw [hrow] at h; cases h
      | some row =>
          rw [hrow] at h
          dsimp only at h
          cases hvalue : row[shardColumnIndex]? with
          | none => rw [hvalue] at h; cases h
          | some v =>
              rw [hvalue] at h
              obtain ⟨node, hroute, h⟩ := Result.bind_eq_ok.mp h
              have hnode := rowRoute_eq_some.mpr ⟨v, hvalue, hroute⟩
              obtain ⟨rows, hrows, hroutes, hgrouped⟩ := ih (hgroups.append hnode) h
              refine ⟨row :: rows, .cons hrow hrows, ?_, ?_⟩
              · exact List.forall_mem_cons.mpr ⟨⟨node, hnode⟩, hroutes⟩
              · rw [List.append_assoc] at hgrouped
                exact hgrouped

/-- An INSERT as the coordinator sees it: its table, the position of the shard
key, its rows, and its rows by node. -/
structure InsertParts where
  databaseName : Str
  schema : TableSchema
  shardKey : Str
  shardColumnIndex : Nat
  rows : List (List Value)
  groups : Dict Nat (List (List Value))

/-- The parts of an INSERT that the coordinator can shard. -/
structure InsertParts.Of (parts : InsertParts) (hashes : Hashes) (schemas : SchemaView)
    (session : SessionContext) (nodeCount : Nat) (insert : InsertStatement) : Prop where
  table : resolveClusterTableSchema schemas insert.tableName session = some parts.schema
  key : resolveShardKeyColumn parts.schema = some parts.shardKey
  position : insert.columnNames.idxOf? parts.shardKey = some parts.shardColumnIndex
  database : resolveClusterDatabaseName insert.tableName session = some parts.databaseName
  literals : List.Forall₂ LiteralsOf insert.rows parts.rows
  grouped : GroupedBy (rowRoute hashes nodeCount parts.shardColumnIndex) parts.rows parts.groups

/-- **The parts of an INSERT.** -/
theorem splitInsertByShard_spec {hashes : Hashes} {schemas : SchemaView}
    {session : SessionContext} {nodeCount : Nat} {insert : InsertStatement}
    {routed : List (Nat × Str)}
    (h : splitInsertByShard hashes schemas session nodeCount insert = .ok (some routed)) :
    ∃ parts : InsertParts, parts.Of hashes schemas session nodeCount insert ∧
      (∀ row ∈ parts.rows,
        ∃ node, rowRoute hashes nodeCount parts.shardColumnIndex row = some node) ∧
      routed = parts.groups.entries.map fun p => (p.1, renderInsertSql
        ⟨some parts.databaseName, insert.tableName.objectName⟩ insert.columnNames p.2) := by
  unfold splitInsertByShard at h
  dsimp only at h
  generalize htarget : (do
    let schema ← resolveClusterTableSchema schemas insert.tableName session
    let shardKey ← resolveShardKeyColumn schema
    let shardColumnIndex ← insert.columnNames.idxOf? shardKey
    let databaseName ← resolveClusterDatabaseName insert.tableName session
    return (shardColumnIndex, databaseName) : Option (Nat × Str)) = target at h
  cases target with
  | none => cases h
  | some target =>
      simp only [Option.bind_eq_bind, Option.bind_eq_some_iff, Option.pure_def,
        Option.some.injEq] at htarget
      obtain ⟨schema, hschema, shardKey, hkey, position, hposition, d, hd, rfl⟩ := htarget
      obtain ⟨groups?, hgroups, h⟩ := Result.bind_eq_ok.mp h
      cases groups? with
      | none => cases h
      | some groups =>
          cases h
          obtain ⟨rows, hrows, hroutes, hgrouped⟩ :=
            groupRowsByNode_spec (GroupedBy.empty _) hgroups
          exact ⟨⟨d, schema, shardKey, position, rows, groups⟩,
            ⟨hschema, hkey, hposition, hd, hrows, hgrouped⟩, hroutes, rfl⟩

/-! ## §2. Nodes. -/

/-- Where a statement on rows is sent to nodes, the server stays. -/
theorem routeStatement_server {ν : Type} (w : World ν) (s : System ν) (request : RequestEnvelope)
    (statement : Statement) : (routeStatement w s request statement).1.server = s.server := by
  have honNet : ∀ {α : Type} (x : Net ν α) (f : α → ResponseEnvelope),
      (s.onNet x f).1.server = s.server := by
    intro α x f
    unfold System.onNet
    split
    · rfl
    · rfl
  unfold routeStatement
  split
  · dsimp only
    split
    · exact honNet _ _
    · rfl
    · rfl
  · dsimp only
    split
    · split
      · exact honNet _ _
      · exact honNet _ _
    · split
      · split
        · exact honNet _ _
        · rfl
      · split
        · exact honNet _ _
        · rfl
      · rfl

theorem isMetadata_of_row {statement : Statement} (h : isRowStatement statement = true) :
    isMetadataStatement statement = false := by
  cases statement with
  | insert stmt => rfl
  | update stmt => rfl
  | delete stmt => rfl
  | select stmt => rfl
  | _ => cases h

/-- A node that gets a statement on rows has run it or left its engine, and so
has any other server. -/
theorem handleAt_row (c : Conditions) (moment : Moment) (server : EntrypointServer)
    {request : RequestEnvelope} {statement : Statement}
    (hparse : parse request.payload = .ok statement) (hrow : isRowStatement statement = true) :
    (handleAt c moment server request).1.engine = server.engine ∨
      (handleAt c moment server request).1.engine
        = (nodeRun moment server request.clientId request.payload).1 := by
  by_cases hleaf : server.storageNodes = []
  · exact handleAt_engine c moment hparse hleaf
  · refine .inl ?_
    unfold handleAt
    rw [handleRequest_of_parse _ _ ⟨server, ()⟩ hparse]
    unfold handleSql
    rw [hparse]
    dsimp only
    split
    · rfl
    · unfold executeStatement
      rw [if_pos (show (server.withSession request.clientId).storageNodes ≠ [] from hleaf),
        isMetadata_of_row hrow, if_neg (by decide), routeStatement_server]
      rfl

/-- The engine of a node is the one it had, or has run one of the texts. -/
def RunsOn (c : Conditions) (servers : Endpoint → EntrypointServer) (clientId : Str) (n : Nodes)
    (endpoint : Endpoint) (texts : Str → Prop) : Prop :=
  (n.servers endpoint).engine = (servers endpoint).engine ∨
  ∃ k sql, texts sql ∧
    (n.servers endpoint).engine = (nodeRun (c.tick k).moment (servers endpoint) clientId sql).1

section Forwarding

variable {c : Conditions} (hquiet : c.Undisturbed) {request : RequestEnvelope}
  {statement : Statement} (hparse : parse request.payload = .ok statement)
  (hrow : isRowStatement statement = true)

include hquiet

theorem forward_others (n : Nodes) (node : StorageNodeEndpoint) (request : RequestEnvelope)
    {e : Endpoint} (he : e ≠ node.endpoint) :
    (n.forward c node request).1.servers e = n.servers e := by
  cases harrives : c.arrives n.clock with
  | false => rw [(forward_of_lost hquiet n node request harrives).1]
  | true => rw [(forward_of_arrives hquiet n node request harrives).1, Function.update_of_ne he]

include hparse hrow

/-- **A forwarded statement is run on its node, or nowhere.** -/
theorem forward_runsOn (n : Nodes) (node : StorageNodeEndpoint) :
    RunsOn c n.servers request.clientId (n.forward c node request).1 node.endpoint
      (· = request.payload) := by
  cases harrives : c.arrives n.clock with
  | false =>
      refine .inl ?_
      rw [(forward_of_lost hquiet n node request harrives).1]
  | true =>
      unfold RunsOn
      rw [(forward_of_arrives hquiet n node request harrives).1, Function.update_self]
      rcases handleAt_row c (c.tick n.clock).moment (n.servers node.endpoint) hparse hrow with
        hsame | hrun
      · exact .inl hsame
      · exact .inr ⟨n.clock, _, rfl, hrun⟩

/-- **A broadcast statement is run on every node at most once.** -/
theorem broadcastLoop_runsOn {nodes : List StorageNodeEndpoint}
    (hdistinct : (nodes.map (·.endpoint)).Nodup) (n : Nodes) :
    ∃ n' r, broadcastLoop (clusterWorld c) request nodes n = (n', .ok r) ∧
      (∀ e, e ∉ nodes.map (·.endpoint) → n'.servers e = n.servers e) ∧
      ∀ node ∈ nodes, RunsOn c n.servers request.clientId n' node.endpoint (· = request.payload) := by
  induction nodes generalizing n with
  | nil => exact ⟨n, _, rfl, fun _ _ => rfl, fun node hnode => by cases hnode⟩
  | cons node nodes ih =>
      rw [List.map_cons, List.nodup_cons] at hdistinct
      have hthis := forward_runsOn hquiet hparse hrow n node
      have hothers : ∀ e, e ≠ node.endpoint →
          (n.forward c node request).1.servers e = n.servers e :=
        fun e he => forward_others hquiet n node request he
      have hapart : ∀ x ∈ nodes, x.endpoint ≠ node.endpoint :=
        fun x hx heq => hdistinct.1 (heq ▸ List.mem_map_of_mem hx)
      -- the loop ends at this node
      have hstop : ∀ early, ∃ n' r,
          (pure (.inl early) : Net Nodes (Option ResponseEnvelope ⊕ List Str))
            (n.forward c node request).1 = (n', .ok r) ∧
          (∀ e, e ∉ (node :: nodes).map (·.endpoint) → n'.servers e = n.servers e) ∧
          ∀ x ∈ node :: nodes, RunsOn c n.servers request.clientId n' x.endpoint
            (· = request.payload) := by
        intro early
        refine ⟨_, _, rfl, fun e he => ?_, fun x hx => ?_⟩
        · rw [List.map_cons, List.mem_cons, not_or] at he
          exact hothers e he.1
        · rcases List.mem_cons.mp hx with rfl | hx
          · exact hthis
          · refine .inl ?_
            rw [hothers _ (hapart x hx)]
      rw [broadcastLoop, Net.forward_bind]
      cases hanswer : ((clusterWorld c).forward n node request).2 with
      | none => exact hstop none
      | some response =>
          dsimp only
          by_cases h200 : response.statusCode = 200
          swap
          · rw [if_pos h200]
            exact hstop (some response)
          rw [if_neg (not_not_intro h200)]
          obtain ⟨n', r, hloop, hrest, hruns⟩ := ih hdistinct.2 (n.forward c node request).1
          have hkept : ∀ e, e ∉ (node :: nodes).map (·.endpoint) → n'.servers e = n.servers e := by
            intro e he
            rw [List.map_cons, List.mem_cons, not_or] at he
            rw [hrest e he.2, hothers e he.1]
          have hall : ∀ x ∈ node :: nodes, RunsOn c n.servers request.clientId n' x.endpoint
              (· = request.payload) := by
            intro x hx
            rcases List.mem_cons.mp hx with rfl | hx
            · unfold RunsOn
              rw [hrest _ hdistinct.1]
              exact hthis
            · have hx' := hruns x hx
              unfold RunsOn at hx'
              rw [hothers _ (hapart x hx)] at hx'
              exact hx'
          have hnext : ((clusterWorld c).forward n node request).1 = (n.forward c node request).1 :=
            rfl
          rw [hnext, Net.bind_of_ok hloop]
          cases r with
          | inl early => exact ⟨n', _, rfl, hkept, hall⟩
          | inr payloads => exact ⟨n', _, rfl, hkept, hall⟩

theorem broadcast_runsOn {nodes : List StorageNodeEndpoint}
    (hdistinct : (nodes.map (·.endpoint)).Nodup) (collectJson : Bool) (n : Nodes) :
    ∃ n' r, broadcastToStorageNodes (clusterWorld c) nodes request collectJson n = (n', .ok r) ∧
      ∀ node ∈ nodes, RunsOn c n.servers request.clientId n' node.endpoint (· = request.payload) := by
  obtain ⟨n', r, hloop, -, hall⟩ := broadcastLoop_runsOn hquiet hparse hrow hdistinct n
  unfold broadcastToStorageNodes
  rw [Net.bind_of_ok hloop]
  cases r with
  | inl early => exact ⟨n', _, rfl, hall⟩
  | inr payloads =>
      cases collectJson with
      | true => exact ⟨n', _, rfl, hall⟩
      | false => exact ⟨n', _, rfl, hall⟩

end Forwarding

/-! ## §3. The coordinator. -/

/-- The texts that are sent to the node with an index. -/
def SentTo (hashes : Hashes) (server : EntrypointServer) (request : RequestEnvelope)
    (statement : Statement) (i : Nat) (sql : Str) : Prop :=
  match statement with
  | .insert stmt => ∃ routed, splitInsertByShard hashes (schemaView server.engine.runtimeState)
      (server.session request.clientId) server.storageNodes.length stmt = .ok (some routed) ∧
      (i, sql) ∈ routed
  | _ => sql = request.payload

theorem onNet_net {ν α : Type} (s : System ν) (x : Net ν α) (f : α → ResponseEnvelope) :
    (s.onNet x f).1.net = (x s.net).1 := by
  unfold System.onNet
  rcases x s.net with ⟨net, r⟩
  cases r with
  | ok a => rfl
  | error e => rfl
  | fault => rfl

/-- Nodes with different indexes are at different places. -/
theorem index_of_endpoint {nodes : List StorageNodeEndpoint}
    (hdistinct : (nodes.map (·.endpoint)).Nodup) {i j : Nat} {x y : StorageNodeEndpoint}
    (hx : nodes[i]? = some x) (hy : nodes[j]? = some y) (heq : x.endpoint = y.endpoint) :
    i = j := by
  have hi : i < (nodes.map (·.endpoint)).length := by
    rw [List.length_map]
    exact (List.getElem?_eq_some_iff.mp hx).1
  refine (List.getElem?_inj hi hdistinct).mp ?_
  rw [List.getElem?_map, List.getElem?_map, hx, hy, Option.map_some, Option.map_some, heq]

/-- The nodes of an INSERT are different ones. -/
theorem prepared_distinct {nodes : List StorageNodeEndpoint}
    (hdistinct : (nodes.map (·.endpoint)).Nodup) {routed : List (Nat × Str)}
    (hrouted : (routed.map Prod.fst).Nodup) :
    ((routed.filterMap fun p => nodes[p.1]?.map fun node => (node, p.2)).map
      fun p => p.1.endpoint).Nodup := by
  have heq : (routed.filterMap fun p => nodes[p.1]?.map fun node => (node, p.2)).map
      (fun p => p.1.endpoint)
        = (routed.map Prod.fst).filterMap fun i => nodes[i]?.map (·.endpoint) := by
    rw [List.map_filterMap, List.filterMap_map]
    refine List.filterMap_congr fun p _ => ?_
    rw [Option.map_map]
    rfl
  rw [heq]
  refine hrouted.filterMap ?_
  intro i j e hi hj
  obtain ⟨x, hx, hxe⟩ := Option.map_eq_some_iff.mp hi
  obtain ⟨y, hy, hye⟩ := Option.map_eq_some_iff.mp hj
  exact index_of_endpoint hdistinct hx hy (hxe.trans hye.symm)

section Coordinator

variable {c : Conditions} (hquiet : c.Undisturbed) (s : System Nodes)
  (hdistinct : (s.server.storageNodes.map (·.endpoint)).Nodup) {request : RequestEnvelope}
  {i : Nat} {node : StorageNodeEndpoint} (hnode : s.server.storageNodes[i]? = some node)

include hquiet hdistinct hnode

/-- **The parts of an INSERT are run on their nodes.** -/
theorem insert_runsOn {routed : List (Nat × Str)} (hrouted : (routed.map Prod.fst).Nodup)
    (f : Option ResponseEnvelope → ResponseEnvelope) :
    RunsOn c s.net.servers request.clientId
      (s.onNet (executeTwoPhaseCommit (clusterWorld c) (routed.filterMap fun p =>
        s.server.storageNodes[p.1]?.map fun node => (node, p.2)) request) f).1.net
      node.endpoint fun sql => (i, sql) ∈ routed := by
  obtain ⟨n', response, hrun, hothers, hmay, -⟩ := twoPhaseCommit_runsOn hquiet request
    (prepared_distinct hdistinct hrouted) s.net
  rw [onNet_net, hrun]
  by_cases hmem : node.endpoint ∈ (routed.filterMap fun p =>
      s.server.storageNodes[p.1]?.map fun node => (node, p.2)).map fun p => p.1.endpoint
  · obtain ⟨p, hp, hendpoint⟩ := List.mem_map.mp hmem
    obtain ⟨q, hq, hqp⟩ := List.mem_filterMap.mp hp
    obtain ⟨x, hx, rfl⟩ := Option.map_eq_some_iff.mp hqp
    have hindex := index_of_endpoint hdistinct hx hnode hendpoint
    have hsent : (i, q.2) ∈ routed := by
      rw [← hindex]
      exact hq
    rcases hmay _ hp with hsame | ⟨k, hk⟩
    · refine .inl ?_
      rw [← hendpoint]
      exact hsame
    · refine .inr ⟨k, q.2, hsent, ?_⟩
      rw [← hendpoint]
      exact hk
  · exact .inl (hothers _ hmem)

/-- A statement that all nodes prepare and commit. -/
theorem twoPhaseCommitOnAll_runsOn (f : Option ResponseEnvelope → ResponseEnvelope) :
    RunsOn c s.net.servers request.clientId
      (s.onNet (executeTwoPhaseCommitOnAll (clusterWorld c) s.server.storageNodes request) f).1.net
      node.endpoint (· = request.payload) := by
  have hendpoints : ((s.server.storageNodes.map fun node => (node, request.payload)).map
      fun p => p.1.endpoint).Nodup := by
    rw [List.map_map]
    exact hdistinct
  obtain ⟨n', response, hrun, -, hmay, -⟩ :=
    twoPhaseCommit_runsOn hquiet request hendpoints s.net
  rw [onNet_net, executeTwoPhaseCommitOnAll, hrun]
  have hmem : (node, request.payload) ∈ s.server.storageNodes.map
      fun node => (node, request.payload) := List.mem_map_of_mem (List.mem_of_getElem? hnode)
  rcases hmay _ hmem with hsame | ⟨k, hk⟩
  · exact .inl hsame
  · exact .inr ⟨k, _, rfl, hk⟩

/-- **An UPDATE, a DELETE or a SELECT is run on some of the nodes as it is.** -/
theorem routeOther_runsOn {statement : Statement} (hother : ∀ stmt, statement ≠ .insert stmt)
    (hparse : parse request.payload = .ok statement) (hrow : isRowStatement statement = true) :
    RunsOn c s.net.servers request.clientId
      (routeStatement (clusterWorld c) s request statement).1.net node.endpoint
      (· = request.payload) := by
  have hmem : node ∈ s.server.storageNodes := List.mem_of_getElem? hnode
  have hbroadcast : ∀ collectJson (f : Option ResponseEnvelope → ResponseEnvelope),
      RunsOn c s.net.servers request.clientId (s.onNet (broadcastToStorageNodes (clusterWorld c)
        s.server.storageNodes request collectJson) f).1.net node.endpoint
        (· = request.payload) := by
    intro collectJson f
    obtain ⟨n', r, hrun, hall⟩ :=
      broadcast_runsOn hquiet hparse hrow hdistinct collectJson s.net
    rw [onNet_net, hrun]
    exact hall node hmem
  have hforward : ∀ (j : Nat) x (f : Option ResponseEnvelope → ResponseEnvelope),
      s.server.storageNodes[j]? = some x → RunsOn c s.net.servers request.clientId
        (s.onNet (Net.forward (clusterWorld c) x request) f).1.net node.endpoint
        (· = request.payload) := by
    intro j x f hx
    rw [onNet_net]
    show RunsOn c s.net.servers request.clientId (s.net.forward c x request).1 node.endpoint _
    by_cases heq : node.endpoint = x.endpoint
    · rw [heq]
      exact forward_runsOn hquiet hparse hrow s.net x
    · refine .inl ?_
      rw [forward_others hquiet s.net x request heq]
  unfold routeStatement
  split
  · rename_i stmt
    exact absurd rfl (hother stmt)
  · dsimp only
    split
    · split
      · exact twoPhaseCommitOnAll_runsOn hquiet s hdistinct hnode _
      · exact hbroadcast false _
    · split
      · split
        · rename_i x hx
          exact hforward _ x _ hx
        · exact .inl rfl
      · split
        · exact hbroadcast true _
        · exact .inl rfl
      · exact .inl rfl

/-- **What a statement on rows leaves on the nodes.** -/
theorem routeStatement_runsOn {statement : Statement}
    (hparse : parse request.payload = .ok statement) (hrow : isRowStatement statement = true) :
    RunsOn c s.net.servers request.clientId
      (routeStatement (clusterWorld c) s request statement).1.net node.endpoint
      (SentTo c.hashes s.server request statement i) := by
  have hplain : ∀ statement : Statement, (∀ stmt, statement ≠ .insert stmt) →
      parse request.payload = .ok statement → isRowStatement statement = true →
      RunsOn c s.net.servers request.clientId
        (routeStatement (clusterWorld c) s request statement).1.net node.endpoint
        (· = request.payload) :=
    fun _ hother => routeOther_runsOn hquiet s hdistinct hnode hother
  cases statement with
  | insert stmt =>
      unfold routeStatement
      dsimp only
      cases hsplit : splitInsertByShard (clusterWorld c).hashes
          (schemaView s.server.engine.runtimeState) (s.server.session request.clientId)
          s.server.storageNodes.length stmt with
      | error e => exact .inl rfl
      | fault => exact .inl rfl
      | ok routed? =>
          cases routed? with
          | none => exact .inl rfl
          | some routed =>
              obtain ⟨parts, -, -, hrouted⟩ := splitInsertByShard_spec hsplit
              have hnodup : (routed.map Prod.fst).Nodup := by
                rw [hrouted, List.map_map]
                exact parts.groups.nodup
              rcases insert_runsOn hquiet s hdistinct hnode hnodup
                  (orUnavailable (str "cluster sharded insert failed")) with
                hsame | ⟨k, sql, hsql, hk⟩
              · exact .inl hsame
              · exact .inr ⟨k, sql, ⟨routed, hsplit, hsql⟩, hk⟩
  | update stmt => exact hplain _ (fun _ h => by cases h) hparse hrow
  | delete stmt => exact hplain _ (fun _ h => by cases h) hparse hrow
  | select stmt => exact hplain _ (fun _ h => by cases h) hparse hrow
  | _ => cases hrow

end Coordinator

end CustomDbms.Server
