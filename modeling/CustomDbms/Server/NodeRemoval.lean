/-
  CustomDbms.Server.NodeRemoval
  ─────────────────────────────
  **REMOVE_NODE MOVES THE ROWS** (`RebalanceClusterData` as the command calls
  it).

  Where the answer is 200, every node that stays has the rows it had and those
  of the removed node whose shard keys hash to it, so no row of a table with a
  shard key is lost or doubled.  A table without one stays behind with its node.
  The rows of the other nodes do not move, though their keys now hash over fewer
  nodes.  The answers of the nodes arrive whole, as from nodes registered in the
  process; a socket would hand over the first line of a dump only.

    • `rebalanceClusterData_moves` — all tables, one after the other;
    • `removeNode_moves_rows` — the whole command.
-/
import CustomDbms.Server.Heartbeat
import CustomDbms.Server.RepeatedSync
import CustomDbms.Server.RowMoves

namespace CustomDbms.Server

open CustomDbms.Common CustomDbms.Lib CustomDbms.Parser CustomDbms.Catalog CustomDbms.Network
open CustomDbms.Execution CustomDbms.Core CustomDbms.Runtime

/-! ## §1. The tables of the coordinator. -/

/-- What a loop that comes to its end has done, element by element. -/
theorem allNet_accumulates {ν α β : Type} (Q : List β → ν → Prop) (key : α → List β)
    {body : α → Net ν Bool} {l : List α}
    (hstep : ∀ a ∈ l, ∀ moved net net', Q moved net → body a net = (net', .ok true) →
      Q (moved ++ key a) net')
    {moved : List β} {net net' : ν} (h : Q moved net)
    (hrun : allNet body l net = (net', .ok true)) :
    Q (moved ++ l.flatMap key) net' := by
  induction l generalizing moved net with
  | nil =>
      cases hrun
      rwa [List.flatMap_nil, List.append_nil]
  | cons a l ih =>
      rcases allNet_cons body a l net with ⟨net₁, hbody, hrest⟩ | ⟨-, hstop⟩
      · rw [List.flatMap_cons, ← List.append_assoc]
        exact ih (fun b hb => hstep b (by simp [hb])) (hstep a (by simp) moved net net₁ h hbody)
          (hrest ▸ hrun)
      · rw [hrun] at hstop
        exact absurd rfl hstop

/-- The tables of one database that are moved. -/
def shardedTables (p : Str × List (Str × TableSchema)) : List (Str × Str) :=
  p.2.flatMap fun q => if resolveShardKeyColumn q.2 = none then [] else [(p.1, q.1)]

section View

variable {s : Store} {d t : Str} {schema : TableSchema}

theorem schema_of_view {p : Str × List (Str × TableSchema)} (hp : p ∈ schemaView s.runtime)
    {q : Str × TableSchema} (hq : q ∈ p.2) : tableSchema s p.1 q.1 = some q.2 := by
  obtain ⟨database, hd, rfl⟩ := List.mem_map.mp hp
  obtain ⟨table, ht, rfl⟩ := List.mem_map.mp hq
  exact tableSchema_eq_some.mpr ⟨table.2, storeTable_eq_some.mpr
    ⟨database.2, Dict.mem_entries_iff.mp hd, Dict.mem_entries_iff.mp ht⟩, rfl⟩

theorem view_of_schema (h : tableSchema s d t = some schema) :
    ∃ p ∈ schemaView s.runtime, ∃ q ∈ p.2, p.1 = d ∧ q = (t, schema) := by
  obtain ⟨table, htable, rfl⟩ := tableSchema_eq_some.mp h
  obtain ⟨db, hdb, ht⟩ := storeTable_eq_some.mp htable
  exact ⟨_, List.mem_map.mpr ⟨(d, db), Dict.mem_entries_iff.mpr hdb, rfl⟩, _,
    List.mem_map.mpr ⟨(t, table), Dict.mem_entries_iff.mpr ht, rfl⟩, rfl, rfl⟩

theorem database_of_view {p : Str × List (Str × TableSchema)} (hp : p ∈ schemaView s.runtime) :
    metadata s p.1 ≠ none := by
  obtain ⟨database, hd, rfl⟩ := List.mem_map.mp hp
  unfold metadata
  rw [Dict.mem_entries_iff.mp hd]
  simp

theorem tableSchema_eq_metadata (s : Store) (d t : Str) :
    tableSchema s d t = (metadata s d).bind fun tables => tables t := by
  unfold tableSchema storeTable metadata tableSchemas
  cases s.runtime.databases.find? d with
  | none => rfl
  | some db => rfl

theorem mem_shardedTables {p : Str × List (Str × TableSchema)} :
    (d, t) ∈ shardedTables p ↔
      p.1 = d ∧ ∃ schema, (t, schema) ∈ p.2 ∧ resolveShardKeyColumn schema ≠ none := by
  unfold shardedTables
  rw [List.mem_flatMap]
  constructor
  · rintro ⟨q, hq, hmem⟩
    split at hmem
    · cases hmem
    · rename_i hkey
      obtain ⟨rfl, rfl⟩ := Prod.mk.inj (List.mem_singleton.mp hmem)
      exact ⟨rfl, q.2, hq, hkey⟩
  · rintro ⟨rfl, schema, hq, hkey⟩
    exact ⟨_, hq, by rw [if_neg hkey]; simp⟩

/-- Lists made from entries with different keys. -/
theorem nodup_keyed {κ β γ : Type} {l : List (κ × β)} {f : κ × β → List γ} (key : γ → κ)
    (hl : (l.map Prod.fst).Nodup) (hkey : ∀ p ∈ l, ∀ c ∈ f p, key c = p.1)
    (hf : ∀ p ∈ l, (f p).Nodup) : (l.flatMap f).Nodup := by
  rw [List.nodup_flatMap]
  refine ⟨hf, ?_⟩
  rw [List.Nodup, List.pairwise_map] at hl
  refine hl.imp_of_mem fun {a b} ha hb hne c hc hc' => hne ?_
  rw [← hkey a ha c hc, hkey b hb c hc']

/-- **Every table with a shard key is moved once.** -/
theorem count_shardedTables (s : Store) (d t : Str) :
    ((schemaView s.runtime).flatMap shardedTables).count (d, t)
      = if (tableSchema s d t).bind resolveShardKeyColumn = none then 0 else 1 := by
  have hview : ((schemaView s.runtime).map Prod.fst).Nodup := by
    unfold schemaView
    rw [List.map_map]
    exact s.runtime.databases.nodup
  have hnodup : ((schemaView s.runtime).flatMap shardedTables).Nodup := by
    refine nodup_keyed Prod.fst hview (fun p _ c hc => (mem_shardedTables.mp hc).1.symm) ?_
    intro p hp
    obtain ⟨database, -, rfl⟩ := List.mem_map.mp hp
    refine nodup_keyed Prod.snd ?_ ?_ ?_
    · rw [List.map_map]
      exact database.2.tables.nodup
    · intro q _ c hc
      split at hc
      · cases hc
      · rw [List.mem_singleton.mp hc]
    · intro q _
      split
      · exact List.nodup_nil
      · exact List.nodup_singleton _
  split
  · rename_i hnone
    rw [List.count_eq_zero]
    intro hmem
    obtain ⟨p, hp, hin⟩ := List.mem_flatMap.mp hmem
    obtain ⟨rfl, schema, hq, hkey⟩ := mem_shardedTables.mp hin
    rw [schema_of_view hp hq] at hnone
    exact hkey hnone
  · rename_i hsome
    obtain ⟨key, hfound⟩ := Option.ne_none_iff_exists'.mp hsome
    obtain ⟨schema, hschema, hkey⟩ := Option.bind_eq_some_iff.mp hfound
    obtain ⟨p, hp, q, hq, rfl, rfl⟩ := view_of_schema hschema
    refine List.count_eq_one_of_mem hnodup (List.mem_flatMap.mpr ⟨p, hp, ?_⟩)
    exact mem_shardedTables.mpr ⟨rfl, schema, hq, by rw [hkey]; simp⟩

end View

/-! ## §2. All tables. -/

section Tables

variable {c : Conditions} (hquiet : c.Undisturbed) {s : Store} {removed : StorageNodeEndpoint}
  {targets : List StorageNodeEndpoint} {n n' : Nodes}

include hquiet

/-- **All tables**: where `RebalanceClusterData` is true, all tables with a
shard key have been moved. -/
theorem rebalanceClusterData_moves (hdistinct : ((removed :: targets).map (·.endpoint)).Nodup)
    (htargets : targets ≠ [])
    (htables : ∀ d t schema, tableSchema s d t = some schema → resolveShardKeyColumn schema ≠ none →
      MovableTable s n removed d t schema)
    (hsync : ∀ e, ((syncMetadataToNodes (clusterWorld c) (schemaView s.runtime) targets n).1.servers
      e).engine = (n.servers e).engine)
    (h : Underway c.hashes s removed targets n [] n)
    (hrun : rebalanceClusterData (clusterWorld c) (schemaView s.runtime) [removed] targets n
      = (n', .ok true)) :
    Underway c.hashes s removed targets n ((schemaView s.runtime).flatMap shardedTables) n' := by
  unfold rebalanceClusterData at hrun
  rw [if_neg (by simp [htargets])] at hrun
  change Net.bind (syncMetadataToNodes (clusterWorld c) (schemaView s.runtime) targets) _ n = _
    at hrun
  rw [Net.bind] at hrun
  rcases hsynced : syncMetadataToNodes (clusterWorld c) (schemaView s.runtime) targets n
    with ⟨n₁, synced | e | _⟩
  · rw [hsynced] at hrun hsync
    cases synced with
    | false => cases hrun
    | true =>
        have hstart := h.congr hsync
        have hloop : allNet (fun p => allNet (rebalanceTable (clusterWorld c) [removed] targets p.1)
            p.2) (schemaView s.runtime) n₁ = (n', .ok true) := hrun
        have hall := allNet_accumulates (Underway c.hashes s removed targets n) shardedTables
          (fun p hp moved net net' hmoved hdatabase => ?_) hstart hloop
        · rwa [List.nil_append] at hall
        refine allNet_accumulates (Underway c.hashes s removed targets n)
          (fun q => if resolveShardKeyColumn q.2 = none then [] else [(p.1, q.1)])
          (fun q hq moved net net' hmoved htable => ?_) hmoved hdatabase
        split
        · -- without a shard key the table is left out
          rename_i hnone
          unfold rebalanceTable at htable
          dsimp only at htable
          rw [hnone] at htable
          cases htable
          rwa [List.append_nil]
        · rename_i hkey
          exact rebalanceTable_moves hquiet hmoved hdistinct
            (htables _ _ _ (schema_of_view hp hq) hkey) hkey htable
  · rw [hsynced] at hrun
    cases hrun
  · rw [hsynced] at hrun
    cases hrun

end Tables

/-! ## §3. The command. -/

/-- The node of an endpoint and the others. -/
theorem removed_of_distinct {nodes : List StorageNodeEndpoint} {removed : StorageNodeEndpoint}
    (hdistinct : (nodes.map (·.endpoint)).Nodup) (hmem : removed ∈ nodes) :
    nodes.filter (·.isAt removed.endpoint) = [removed] ∧
      (removed :: nodes.eraseP (·.isAt removed.endpoint)).Perm nodes := by
  generalize hp : (fun node : StorageNodeEndpoint => node.isAt removed.endpoint) = p
  have hat : ∀ node, p node = true ↔ node.endpoint = removed.endpoint := by
    intro node
    rw [← hp]
    exact isAt_iff
  clear hp
  induction nodes with
  | nil => cases hmem
  | cons node nodes ih =>
      rw [List.map_cons, List.nodup_cons] at hdistinct
      obtain ⟨hapart, hdistinct⟩ := hdistinct
      rcases List.mem_cons.mp hmem with rfl | hlater
      · have hnone : nodes.filter p = [] := by
          rw [List.filter_eq_nil_iff]
          intro other hother hfound
          exact hapart (List.mem_map.mpr ⟨other, hother, (hat other).mp hfound⟩)
        have hself := (hat removed).mpr rfl
        rw [List.filter_cons_of_pos hself, hnone, List.eraseP_cons_of_pos hself]
        exact ⟨rfl, List.Perm.refl _⟩
      · have hother : ¬ p node = true := fun hfound =>
          hapart (List.mem_map.mpr ⟨removed, hlater, ((hat node).mp hfound).symm⟩)
        obtain ⟨hfilter, hperm⟩ := ih hdistinct hlater
        rw [List.filter_cons_of_neg hother, List.eraseP_cons_of_neg hother]
        exact ⟨hfilter, (List.Perm.swap ..).trans (hperm.cons node)⟩

/-- Every row of a table with a shard key has a node. -/
theorem shardRoute_total {s : Store} (hok : StoreOk s) {d t : Str} {schema : TableSchema}
    (hschema : tableSchema s d t = some schema) (hkey : resolveShardKeyColumn schema ≠ none)
    (hashes : Hashes) {nodeCount : Nat} (hnodes : nodeCount ≠ 0) {row : List Value}
    (hrow : row ∈ tableValues s d t) :
    ∃ i < nodeCount, shardRoute hashes nodeCount schema row = some i := by
  obtain ⟨table, htable, rfl⟩ := tableSchema_eq_some.mp hschema
  have htab := tableOk_of_storeOk hok htable
  obtain ⟨key, hkey⟩ := Option.ne_none_iff_exists'.mp hkey
  have hindexed : key ∈ indexedColumns table.schema := by
    obtain ⟨col, hcol, hconstraint, hname⟩ := shardKey_indexed hkey
    rw [htab.schema.indexedColumns_eq]
    exact List.mem_map.mpr ⟨col, List.mem_filter.mpr ⟨hcol, by simpa using hconstraint⟩, hname⟩
  rw [tableValues_of_some htable] at hrow
  have hkeyed := (indexable_iff_values.mp (htab.indexable hindexed)).1 row hrow
  obtain ⟨k, hk⟩ := Option.isSome_iff_exists.mp hkeyed
  obtain ⟨index, -, v, hindex, -, hv, hnull, -⟩ := indexKey_eq_some.mp hk
  obtain ⟨i, hi, hroute⟩ := routeValueToNode_eq_ok hashes hnull hnodes
  refine ⟨i, hi, shardRoute_eq_some.mpr ⟨v, ?_, hroute⟩⟩
  unfold shardKeyValue
  rw [hkey]
  show (findColumnIndex table.schema key).bind (fun index => row[index]?) = some v
  rw [hindex]
  exact hv

/-- **A node that can be taken out**: different nodes that agree with the
coordinator and have no transactions, and rows that survive the move. -/
structure MoveReady (s : System Nodes) (removed : StorageNodeEndpoint) : Prop where
  distinct : (s.server.storageNodes.map (·.endpoint)).Nodup
  agreement : InAgreement s
  created : CreatedView (schemaView s.server.engine.runtimeState)
  takes : AllTake s.server.storageNodes s.net
  settled : ∀ node ∈ s.server.storageNodes, Settled (s.net.servers node.endpoint).engine
  member : removed ∈ s.server.storageNodes
  movable : ∀ d t schema, tableSchema s.server.engine.store d t = some schema →
    resolveShardKeyColumn schema ≠ none →
    ∀ row ∈ tableValues (s.net.servers removed.endpoint).engine.store d t, Movable schema row

/-- **What REMOVE_NODE has done**: the rows of the removed node have been added
to the nodes their keys hash to, and nothing else has changed. -/
structure RowsMoved (hashes : Hashes) (s s' : System Nodes) (removed : StorageNodeEndpoint) :
    Prop where
  nodes : (removed :: s'.server.storageNodes).Perm s.server.storageNodes
  /-- What each node has. -/
  rows : ∀ (i : Nat) node, s'.server.storageNodes[i]? = some node → ∀ d t, s'.net.bag node d t
    = s.net.bag node d t + s.net.leaving hashes s.server.engine.store
        s'.server.storageNodes.length removed i d t
  /-- What all nodes have together. -/
  total : ∀ d t schema, tableSchema s.server.engine.store d t = some schema →
    resolveShardKeyColumn schema ≠ none →
    (s'.net.committedShards s'.server.storageNodes d t).flatten.Perm
      (s.net.committedShards s.server.storageNodes d t).flatten
  /-- The rows are in their places where those are that did not move. -/
  placed : CommittedPlaced hashes s' ↔ ∀ d t schema,
    tableSchema s.server.engine.store d t = some schema → resolveShardKeyColumn schema ≠ none →
    Placed (shardRoute hashes s'.server.storageNodes.length schema)
      (s.net.committedShards s'.server.storageNodes d t)

section Ready

variable {s : System Nodes} {removed : StorageNodeEndpoint}

/-- A node of the cluster has the schemas of the coordinator. -/
theorem MoveReady.schemas (h : MoveReady s removed) {node : StorageNodeEndpoint}
    (hnode : node ∈ s.server.storageNodes) (d t : Str) :
    tableSchema (s.net.servers node.endpoint).engine.store d t
      = tableSchema s.server.engine.store d t := by
  rw [tableSchema_eq_metadata, tableSchema_eq_metadata]
  exact congrArg (fun m => (m d).bind fun tables => tables t) (h.agreement node hnode)

/-- It has all databases and tables of the view. -/
theorem MoveReady.holdsView (h : MoveReady s removed) {node : StorageNodeEndpoint}
    (hnode : node ∈ s.server.storageNodes) :
    HoldsView (schemaView s.server.engine.runtimeState)
      (s.net.servers node.endpoint).engine.store where
  databases := by
    intro p hp
    rw [show metadata (s.net.servers node.endpoint).engine.store p.1
      = metadata s.server.engine.store p.1 from congrFun (h.agreement node hnode) p.1]
    exact database_of_view hp
  tables := by
    intro p hp q hq
    have hschema := (h.schemas hnode p.1 q.1).trans (schema_of_view hp hq)
    obtain ⟨table, htable, hsame⟩ := tableSchema_eq_some.mp hschema
    have hname := (tableOk_of_storeOk (h.settled node hnode).ok.committed htable).schema.table
    rw [← hsame, hname, hschema]
    simp

/-- Its tables are written with identifiers. -/
theorem MoveReady.movableTable (h : MoveReady s removed) {d t : Str} {schema : TableSchema}
    (hschema : tableSchema s.server.engine.store d t = some schema)
    (hkey : resolveShardKeyColumn schema ≠ none) :
    MovableTable s.server.engine.store s.net removed d t schema := by
  obtain ⟨p, hp, q, hq, rfl, rfl⟩ := view_of_schema hschema
  obtain ⟨⟨sql, hdatabase⟩, htables⟩ := h.created p hp
  obtain ⟨stmt, hstmt⟩ := htables _ hq
  obtain ⟨hname, hcolumns, -⟩ := hstmt.ok
  have htable : t = stmt.tableName.objectName := by
    obtain ⟨table, htable, hsame⟩ :=
      tableSchema_eq_some.mp ((h.schemas h.member p.1 t).trans hschema)
    have hown := (tableOk_of_storeOk (h.settled removed h.member).ok.committed htable).schema.table
    rw [hsame, show schema = schemaOf p.1 stmt from hstmt.schema] at hown
    exact hown.symm
  refine ⟨hschema, (parse_create rfl hdatabase).1, htable ▸ hname, fun col hcol => ?_,
    h.movable _ _ _ hschema hkey⟩
  rw [show schema.columns = stmt.columns.map catalogColumn from hstmt.columns] at hcol
  obtain ⟨definition, hdefinition, rfl⟩ := List.mem_map.mp hcol
  exact (hcolumns definition hdefinition).name

end Ready

/-- A table without a shard key sends no rows. -/
theorem Nodes.leaving_of_unsharded {n : Nodes} {hashes : Hashes} {s : Store} {nodeCount i : Nat}
    {removed : StorageNodeEndpoint} {d t : Str}
    (h : (tableSchema s d t).bind resolveShardKeyColumn = none) :
    n.leaving hashes s nodeCount removed i d t = 0 := by
  unfold Nodes.leaving
  rw [Multiset.filter_eq_nil]
  intro row _ hhome
  obtain ⟨schema, hschema, hroute⟩ := Option.bind_eq_some_iff.mp hhome
  obtain ⟨v, hv, -⟩ := shardRoute_eq_some.mp hroute
  obtain ⟨key, hkey, -⟩ := Option.bind_eq_some_iff.mp hv
  rw [hschema, Option.bind_some, hkey] at h
  cases h

section Removal

variable {c : Conditions} (hquiet : c.Undisturbed) {s : System Nodes}
  {removed : StorageNodeEndpoint} {targets : List StorageNodeEndpoint}

/-- The shards of a table with a shard key, before and after. -/
theorem shard_perm {hashes : Hashes} {store : Store} {n n' : Nodes} {d t : Str}
    {schema : TableSchema}
    (hrows : ∀ (i : Nat) node, targets[i]? = some node → n'.bag node d t
      = n.bag node d t + n.leaving hashes store targets.length removed i d t)
    (hschema : tableSchema store d t = some schema) (i : Nat) (shard shard' : List Tuple)
    (hshard : (n.committedShards targets d t)[i]? = some shard)
    (hshard' : (n'.committedShards targets d t)[i]? = some shard') :
    shard'.Perm (shard ++ (tableValues (n.servers removed.endpoint).engine.store d t).filter
      fun row => decide (shardRoute hashes targets.length schema row = some i)) := by
  have hhome : homeOf hashes store targets.length d t
      = shardRoute hashes targets.length schema := by
    funext row
    unfold homeOf
    rw [hschema, Option.bind_some]
  unfold Nodes.committedShards at hshard hshard'
  rw [List.getElem?_map] at hshard hshard'
  obtain ⟨node, hnode, rfl⟩ := Option.map_eq_some_iff.mp hshard
  obtain ⟨node', hnode', rfl⟩ := Option.map_eq_some_iff.mp hshard'
  obtain rfl := Option.some.inj (hnode.symm.trans hnode')
  have hbag := hrows i node hnode
  unfold Nodes.leaving Nodes.bag at hbag
  rw [hhome, Multiset.filter_coe, Multiset.coe_add] at hbag
  exact Multiset.coe_eq_coe.mp hbag

include hquiet

/-- **REMOVE_NODE moves the rows**: where it answers 200, whatever messages are
lost, the rows of the removed node have been added to the nodes they belong on. -/
theorem removeNode_moves_rows {s' : System Nodes} (h : MoveReady s removed)
    (hmore : s.server.storageNodes ≠ [removed])
    (hrun : removeNode (clusterWorld c) s removed.endpoint
      = (s', some ⟨200, str "node removed"⟩)) : RowsMoved c.hashes s s' removed := by
  obtain ⟨hfilter, hperm⟩ := removed_of_distinct h.distinct h.member
  have hfound : s.server.storageNodes.any (·.isAt removed.endpoint) = true :=
    List.any_eq_true.mpr ⟨removed, h.member, isAt_iff.mpr rfl⟩
  unfold removeNode at hrun
  dsimp only at hrun
  rw [hfound, hfilter, if_neg (by simp)] at hrun
  generalize s.server.storageNodes.eraseP (·.isAt removed.endpoint) = targets at hrun hperm
  have htargets : targets ≠ [] := by
    rintro rfl
    exact hmore (List.perm_singleton.mp hperm.symm)
  rw [if_neg htargets] at hrun
  unfold System.onNet at hrun
  rcases hmoved : rebalanceClusterData (clusterWorld c)
      (schemaView s.server.engine.runtimeState) [removed] targets s.net with ⟨n', moved | e | _⟩
  · dsimp only at hrun
    rw [hmoved] at hrun
    dsimp only at hrun
    obtain ⟨rfl, hanswer⟩ := Prod.mk.inj hrun
    cases moved with
    | false =>
        have hcode := congrArg ResponseEnvelope.statusCode (Option.some.inj hanswer)
        exact absurd hcode (by decide)
    | true =>
        have hmem : ∀ node ∈ removed :: targets, node ∈ s.server.storageNodes :=
          fun node hnode => hperm.mem_iff.mp hnode
        have hdistinct : ((removed :: targets).map (·.endpoint)).Nodup :=
          (hperm.map _).nodup_iff.mpr h.distinct
        have hstart : Underway c.hashes s.server.engine.store removed targets s.net [] s.net :=
          ⟨fun node hnode => h.settled node (hmem node hnode),
            fun node hnode => h.schemas (hmem node hnode), rfl,
            fun i node _ d t => by rw [List.count_nil, zero_smul, add_zero]⟩
        have hstill : Unchanged targets s.net s.net :=
          ⟨fun node hnode => h.takes node (hmem node (List.mem_cons_of_mem _ hnode)),
            fun _ => rfl⟩
        have hsync := (syncMetadata_unchanged hquiet h.created
          (fun node hnode => h.holdsView (hmem node (List.mem_cons_of_mem _ hnode))) hstill).engines
        have hdone := rebalanceClusterData_moves hquiet hdistinct htargets
          (fun d t schema hschema hkey => h.movableTable hschema hkey) hsync hstart hmoved
        have hrows : ∀ (i : Nat) node, targets[i]? = some node → ∀ d t, n'.bag node d t
            = s.net.bag node d t
              + s.net.leaving c.hashes s.server.engine.store targets.length removed i d t := by
          intro i node hnode d t
          rw [hdone.rows i node hnode, count_shardedTables]
          split
          · rename_i hnone
            rw [Nodes.leaving_of_unsharded hnone, smul_zero]
          · rw [one_smul]
        have hlength : ∀ d t, (n'.committedShards targets d t).length
            = (s.net.committedShards targets d t).length := by
          intro d t
          unfold Nodes.committedShards
          rw [List.length_map, List.length_map]
        have hspread := fun d t schema
            (hschema : tableSchema s.server.engine.store d t = some schema) =>
          shard_perm (fun i node hnode => hrows i node hnode d t) hschema
        refine ⟨hperm, hrows, fun d t schema hschema hkey => ?_, ?_⟩
        · have hsource := (h.schemas h.member d t).trans hschema
          have hcover := fun row
              (hrow : row ∈ tableValues (s.net.servers removed.endpoint).engine.store d t) =>
            shardRoute_total (h.settled removed h.member).ok.committed hsource hkey c.hashes
              (List.length_eq_zero_iff.not.mpr htargets) hrow
          have hall := (hperm.map fun node =>
            tableValues (s.net.servers node.endpoint).engine.store d t).flatten
          rw [List.map_cons, List.flatten_cons] at hall
          refine (flatten_perm_spread (hlength d t) (hspread d t schema hschema) ?_).trans
            (List.perm_append_comm.trans hall)
          unfold Nodes.committedShards
          rw [List.length_map]
          exact hcover
        · unfold CommittedPlaced
          refine forall₃_congr fun d t schema => forall₂_congr fun hschema _ => ?_
          exact placed_spread_iff (hlength d t) (hspread d t schema hschema)
  · dsimp only at hrun
    rw [hmoved] at hrun
    cases hrun
  · dsimp only at hrun
    rw [hmoved] at hrun
    cases hrun

end Removal

/-! ## §4. The first of two nodes. -/

theorem metadata_rowsView (s : Store) (d : Str) :
    metadata s d = (lookupName (rowsView s) d).map fun tables t =>
      (lookupName tables t).map TableContents.schema := by
  unfold metadata rowsView
  rw [lookupName_entries s.runtime.databases (fun db => db.tables.entries.map fun q =>
    (q.1, tableContents q.2)) d, Option.map_map]
  refine congrArg (fun f => (s.runtime.databases.find? d).map f)
    (funext fun db => funext fun t => ?_)
  rw [Function.comp_apply, lookupName_entries db.tables tableContents t, Option.map_map]
  rfl

/-- The metadata of a store with one table. -/
theorem metadata_oneTable {s : Store} {d₀ t₀ : Str} {view : TableContents}
    (h : rowsView s = [(d₀, [(t₀, view)])]) (d : Str) :
    metadata s d = if d₀ = d then some fun t => if t₀ = t then some view.schema else none
      else none := by
  rw [metadata_rowsView, h]
  unfold lookupName
  by_cases hd : d₀ = d
  · rw [if_pos hd, List.find?_cons_of_pos (by simpa using hd)]
    refine congrArg some (funext fun t => ?_)
    show (([(t₀, view)].find? fun p => decide (p.1 = t)).map Prod.snd).map TableContents.schema = _
    by_cases ht : t₀ = t
    · rw [if_pos ht, List.find?_cons_of_pos (by simpa using ht)]
      rfl
    · rw [if_neg ht, List.find?_cons_of_neg (by simpa using ht)]
      rfl
  · rw [if_neg hd, List.find?_cons_of_neg (by simpa using hd)]
    rfl

/-- `CREATE TABLE t (k INT INDEXED, v STRING);` -/
def shardedTable : CreateTableStatement :=
  ⟨⟨none, str "t"⟩, [⟨str "k", .int64, true, true, none⟩, ⟨str "v", .string, false, false, none⟩]⟩

theorem schemaView_shardedSystem :
    schemaView shardedSystem.server.engine.runtimeState = viewOf shardedTable := by
  have hview : schemaView (tableEngine []).store.runtime
      = (rowsView (tableEngine []).store).map fun p =>
          (p.1, p.2.map fun q => (q.1, q.2.schema)) := by
    unfold schemaView rowsView
    rw [List.map_map]
    refine List.map_congr_left fun p _ => ?_
    rw [Function.comp_apply, List.map_map]
    rfl
  rw [rowsView_coordinator] at hview
  exact hview.trans rfl

/-- The first of the two nodes. -/
def firstNode : StorageNodeEndpoint := ⟨str "127.0.0.1", 4556, false, 0⟩

theorem movable_row : Movable sampleSchema [.int 2, .string (str "y")] where
  admitted := rfl
  length := rfl
  oneLine := by
    intro v hv s hs
    subst hs
    have hone : s = str "y" := by simpa using hv
    rw [hone]
    decide
  plain := by decide +kernel

theorem moveReady_shardedSystem : MoveReady shardedSystem firstNode where
  distinct := clusterOk_shardedSystem.distinct
  agreement := by
    intro node _
    funext d
    show metadata (shardEngine node.endpoint).store d = metadata (tableEngine []).store d
    rw [metadata_oneTable (rowsView_shardEngine _), metadata_oneTable rowsView_coordinator]
  created := by
    rw [schemaView_shardedSystem]
    have hparse : parse (str "CREATE TABLE t (k INT INDEXED, v STRING);")
        = .ok (.createTable shardedTable) := by decide +kernel
    exact createdView_viewOf hparse
  takes := fun node _ => ⟨rfl, rfl, by
    show (shardEngine node.endpoint).transactions.find? _ = none
    unfold Dict.find?
    rw [List.isEmpty_iff.mp (transactions_shardEngine node.endpoint)]
    rfl⟩
  settled := fun node hnode => ⟨clusterOk_shardedSystem.engines node hnode, fun key => by
    show (shardEngine node.endpoint).transactions.find? key = none
    unfold Dict.find?
    rw [List.isEmpty_iff.mp (transactions_shardEngine node.endpoint)]
    rfl⟩
  member := by
    show firstNode ∈ twoNodes
    decide
  movable := by
    intro d t schema hschema _ row hrow
    replace hschema : tableSchema (tableEngine []).store d t = some schema := hschema
    replace hrow : row ∈ tableValues (shardEngine firstNode.endpoint).store d t := hrow
    rw [tableSchema_oneTable rowsView_coordinator] at hschema
    rw [tableValues_oneTable (rowsView_shardEngine _)] at hrow
    split at hschema
    · rename_i hat
      cases hschema
      rw [if_pos hat] at hrow
      obtain rfl : row = [.int 2, .string (str "y")] := List.mem_singleton.mp hrow
      exact movable_row
    · cases hschema

/-- The coordinator and the nodes after CLUSTER REMOVE_NODE of the first. -/
def firstRemoved : System Nodes :=
  (removeNode (clusterWorld healthyConditions) shardedSystem firstNode.endpoint).1

/-- **The row of the first node moves to the second.** -/
theorem removeNode_moves_rows_first :
    RowsMoved healthyConditions.hashes shardedSystem firstRemoved firstNode := by
  have hanswer : (removeNode (clusterWorld healthyConditions) shardedSystem firstNode.endpoint).2
      = some ⟨200, str "node removed"⟩ := by decide +kernel
  have hmore : shardedSystem.server.storageNodes ≠ [firstNode] := by
    show twoNodes ≠ [firstNode]
    decide
  exact removeNode_moves_rows healthyConditions_healthy.quiet moveReady_shardedSystem hmore
    (Prod.ext rfl hanswer)

end CustomDbms.Server
