/-
  CustomDbms.Server.SocketMoves
  ─────────────────────────────
  **OVER SOCKETS NO ROW MOVES** (`RebalanceClusterData` with nodes of other
  processes).

  The answer to DUMP_TABLE has a line for each row, and `ReadLine` hands over
  the first line.  So the coordinator reads a dump without rows, moves nothing
  and goes on: among its messages there is neither an INSERT nor a phase of a
  commit, also where REMOVE_NODE answers 200.

    • `rebalanceClusterData_idle` — what the messages without rows keep;
    • `removeNode_over_sockets` — the messages of the command.
-/
import CustomDbms.Server.NodeRemoval

namespace CustomDbms.Server

open CustomDbms.Common CustomDbms.Parser CustomDbms.Catalog CustomDbms.Network CustomDbms.Runtime

/-! ## §1. Messages without rows. -/

/-- A message that creates or reads. -/
def MovesNoRow (request : RequestEnvelope) : Prop :=
  ∃ text, request.payload = str "CREATE DATABASE " ++ text ∨ request.payload = str "USE " ++ text ∨
    request.payload = str "CREATE TABLE " ++ text ∨
    request.payload = str "CLUSTER DUMP_TABLE " ++ text

/-- Every answer the coordinator gets is one line. -/
def AnswersOneLine {ν : Type} (w : World ν) : Prop :=
  ∀ net node request response, (w.forward net node request).2 = some response →
    newline ∉ response.payload

/-- One line is a dump without rows, or none. -/
theorem parseDump_oneLine {payload : Str} (h : newline ∉ payload) :
    parseDump payload = none ∨ parseDump payload = some [] := by
  unfold parseDump
  by_cases hne : payload = []
  · rw [hne]
    exact .inr rfl
  · rw [lines_single hne h]
    dsimp only
    split
    · exact .inr rfl
    · exact .inl rfl

section Idle

variable {ν : Type} {w : World ν} (hline : AnswersOneLine w) {I : ν → Prop}
  (hkeeps : ∀ request, MovesNoRow request → ∀ net node, I net → I (w.forward net node request).1)
  {net : ν}

include hkeeps

/-! ## §2. The metadata. -/

theorem syncTables_idle (node : StorageNodeEndpoint) (tables : List (Str × TableSchema))
    (h : I net) : I (syncTables w node tables net).1 := by
  induction tables generalizing net with
  | nil => exact h
  | cons q tables ih =>
      have hsql : renderCreateTableSql q.2 = str "CREATE TABLE " ++ (q.2.tableName ++
          (str " (" ++ ((str ", ").intercalate (q.2.columns.map renderColumnSql)
            ++ str ");"))) := by
        unfold renderCreateTableSql
        simp only [List.append_assoc]
      have hcreate : MovesNoRow (rebalanceRequest (renderCreateTableSql q.2)) :=
        ⟨_, .inr (.inr (.inl hsql))⟩
      have hnext := hkeeps _ hcreate net node h
      rw [syncTables, Net.forward_bind]
      split
      · exact ih hnext
      · exact hnext

theorem syncMetadata_idle (schemas : SchemaView) (targets : List StorageNodeEndpoint)
    (h : I net) : I (syncMetadataToNodes w schemas targets net).1 := by
  refine allNet_keeps (fun p _ net hnet => ?_) h
  refine allNet_keeps (fun node _ net hnet => ?_) hnet
  have hdatabase : MovesNoRow (rebalanceRequest (str "CREATE DATABASE " ++ p.1 ++ str ";")) :=
    ⟨p.1 ++ str ";", .inl (List.append_assoc ..)⟩
  have huse : MovesNoRow (rebalanceRequest (str "USE " ++ p.1 ++ str ";")) :=
    ⟨p.1 ++ str ";", .inr (.inl (List.append_assoc ..))⟩
  have hcreated := hkeeps _ hdatabase net node hnet
  rw [syncDatabase, Net.forward_bind]
  split
  · have hused := hkeeps _ huse _ node hcreated
    rw [Net.forward_bind]
    split
    · exact syncTables_idle hkeeps node p.2 hused
    · exact hused
  · exact hcreated

/-! ## §3. The rows. -/

include hline

/-- A dump shows no row. -/
theorem fetchTableDump_idle (node : StorageNodeEndpoint) (d t : Str) (h : I net) :
    ∃ net' rows, fetchTableDump w node d t net = (net', .ok rows) ∧ I net' ∧
      (rows = none ∨ rows = some []) := by
  have hdump : MovesNoRow (rebalanceRequest (str "CLUSTER DUMP_TABLE " ++ d ++ str " " ++ t)) := by
    refine ⟨d ++ (str " " ++ t), .inr (.inr (.inr ?_))⟩
    unfold rebalanceRequest
    simp only [List.append_assoc]
  have hnext := hkeeps _ hdump net node h
  have hanswer := hline net node (rebalanceRequest (str "CLUSTER DUMP_TABLE " ++ d ++ str " " ++ t))
  unfold fetchTableDump
  rw [Net.forward_bind]
  cases hresponse : (w.forward net node
      (rebalanceRequest (str "CLUSTER DUMP_TABLE " ++ d ++ str " " ++ t))).2 with
  | none => exact ⟨_, _, rfl, hnext, .inl rfl⟩
  | some response =>
      dsimp only
      split
      · exact ⟨_, _, rfl, hnext, parseDump_oneLine (hanswer response hresponse)⟩
      · exact ⟨_, _, rfl, hnext, .inl rfl⟩

/-- All dumps together show none. -/
theorem collectRows_idle (d t : Str) (sources : List StorageNodeEndpoint) (h : I net) :
    ∃ net' rows, collectRows w d t [] [] sources net = (net', .ok rows) ∧ I net' ∧
      (rows = none ∨ rows = some []) := by
  induction sources generalizing net with
  | nil => exact ⟨_, _, rfl, h, .inr rfl⟩
  | cons node sources ih =>
      obtain ⟨net', dumped, hfetch, hnext, hdumped⟩ := fetchTableDump_idle hline hkeeps node d t h
      unfold collectRows
      rw [Net.bind_of_ok hfetch]
      rcases hdumped with rfl | rfl
      · exact ⟨_, _, rfl, hnext, .inl rfl⟩
      · exact ih hnext

/-- One table. -/
theorem rebalanceTable_idle (sources targets : List StorageNodeEndpoint) (d : Str)
    (table : Str × TableSchema) (h : I net) :
    I (rebalanceTable w sources targets d table net).1 := by
  unfold rebalanceTable
  dsimp only
  cases (resolveShardKeyColumn table.2).bind (findColumnIndex table.2) with
  | none => exact h
  | some index =>
      obtain ⟨net', rows, hcollect, hnext, hrows⟩ :=
        collectRows_idle hline hkeeps d table.1 sources h
      dsimp only
      rw [Net.bind_of_ok hcollect]
      rcases hrows with rfl | rfl
      · exact hnext
      · exact hnext

/-- **All messages are without rows**: what these keep is kept. -/
theorem rebalanceClusterData_idle (schemas : SchemaView)
    (sources targets : List StorageNodeEndpoint) (h : I net) :
    I (rebalanceClusterData w schemas sources targets net).1 := by
  unfold rebalanceClusterData
  split
  · exact h
  · have hsynced := syncMetadata_idle hkeeps schemas targets h
    show I (Net.bind (syncMetadataToNodes w schemas targets) _ net).1
    rw [Net.bind]
    rcases hrun : syncMetadataToNodes w schemas targets net with ⟨net', synced | e | _⟩
    · rw [hrun] at hsynced
      cases synced with
      | false => exact hsynced
      | true =>
          refine allNet_keeps (fun p _ net hnet => ?_) hsynced
          exact allNet_keeps (fun q _ net hnet =>
            rebalanceTable_idle hline hkeeps sources targets p.1 q hnet) hnet
    · rw [hrun] at hsynced
      exact hsynced
    · rw [hrun] at hsynced
      exact hsynced

end Idle

/-! ## §4. Nodes of other processes. -/

/-- The answer to a request that is no envelope. -/
def invalidEnvelope : ResponseEnvelope :=
  ⟨400, str "type=PARSE_ERROR code=1 message=invalid request envelope sql=\"\""⟩

/-- `ForwardToStorageNode` over a socket: the node handles what it reads of the
request, and the coordinator gets what it reads of the answer. -/
def Nodes.forwardSocket (c : Conditions) (n : Nodes) (node : StorageNodeEndpoint)
    (request : RequestEnvelope) : Nodes × Option ResponseEnvelope :=
  let r := match transmitRequest request with
    | some arrived => n.forward c node arrived
    | none => (n, some invalidEnvelope)
  let answer := r.2.bind transmitResponse
  ({ r.1 with sent := n.sent ++ [⟨node.endpoint, request, answer⟩] }, answer)

/-- The world of a coordinator whose nodes are other processes. -/
def socketWorld (c : Conditions) : World Nodes :=
  { clusterWorld c with forward := Nodes.forwardSocket c }

theorem answersOneLine_socketWorld (c : Conditions) : AnswersOneLine (socketWorld c) := by
  intro n node request response h
  obtain ⟨answer, -, htransmitted⟩ := Option.bind_eq_some_iff.mp h
  obtain ⟨wire, hwire, hresponse⟩ := Option.bind_eq_some_iff.mp htransmitted
  exact newline_not_mem_of_deserializeResponse (newline_not_mem_of_readLine hwire) hresponse

/-- **REMOVE_NODE over sockets sends no row**: all its messages create or read,
whatever the nodes hold and answer, and whatever it answers itself. -/
theorem removeNode_over_sockets (c : Conditions) (s : System Nodes) (endpoint : Endpoint) :
    ∃ messages, (removeNode (socketWorld c) s endpoint).1.net.sent = s.net.sent ++ messages ∧
      ∀ m ∈ messages, MovesNoRow m.request := by
  have hnothing : ∃ messages, s.net.sent = s.net.sent ++ messages ∧
      ∀ m ∈ messages, MovesNoRow m.request := ⟨[], by simp, by simp⟩
  unfold removeNode
  dsimp only
  split
  · exact hnothing
  · split
    · exact hnothing
    · rw [onNet_net]
      refine rebalanceClusterData_idle (I := fun n => ∃ messages, n.sent = s.net.sent ++ messages ∧
        ∀ m ∈ messages, MovesNoRow m.request) (answersOneLine_socketWorld c) ?_ _ _ _ hnothing
      intro request hrequest n node hsent
      obtain ⟨messages, heq, hall⟩ := hsent
      refine ⟨messages ++ [⟨node.endpoint, request, ((socketWorld c).forward n node request).2⟩],
        ?_, ?_⟩
      · rw [← List.append_assoc, ← heq]
        rfl
      · intro m hm
        rcases List.mem_append.mp hm with hold | hnew
        · exact hall m hold
        · rw [List.mem_singleton.mp hnew]
          exact hrequest

/-- The row of the first of two nodes is gone. -/
example : let r := removeNode (socketWorld healthyConditions) shardedSystem firstNode.endpoint
    r.2 = some ⟨200, str "node removed"⟩ ∧
      r.1.net.committedShards r.1.server.storageNodes (str "d") (str "t")
        = [[[.int 1, .string (str "x")]]] := by
  decide +kernel

end CustomDbms.Server
