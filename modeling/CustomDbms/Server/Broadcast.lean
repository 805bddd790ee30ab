/-
  CustomDbms.Server.Broadcast
  ───────────────────────────
  **WHAT A CLIENT LEARNS OF A BROADCAST.**

  `BroadcastToStorageNodes` asks the nodes one after the other and stops at
  the first that does not answer with 200.  It returns nothing for a node that
  cannot be reached and the node's own answer for another status.  `USE` and
  the fan-out of a SELECT look only for the first of the two.
-/
import CustomDbms.Server.Escalation

namespace CustomDbms.Server

open CustomDbms.Common CustomDbms.Lib CustomDbms.Parser CustomDbms.Catalog CustomDbms.Network
open CustomDbms.Execution CustomDbms.Core CustomDbms.Runtime

variable {ν : Type}

/-! ## §1. The answers of the nodes. -/

/-- The nodes are asked one after the other: what the first said that did not
answer with 200; `none` where all did. -/
def firstFailure (w : World ν) (request : RequestEnvelope) :
    List StorageNodeEndpoint → ν → Option (Option ResponseEnvelope)
  | [], _ => none
  | node :: rest, net =>
      let r := w.forward net node request
      if answered r.2 then firstFailure w request rest r.1 else some r.2

/-- **The loop ends where the first node fails**, with its answer. -/
theorem broadcastLoop_spec (w : World ν) (request : RequestEnvelope)
    (nodes : List StorageNodeEndpoint) (net : ν) :
    (firstFailure w request nodes net = none ∧
      ∃ net' payloads, broadcastLoop w request nodes net = (net', .ok (.inr payloads))) ∨
    ∃ answer net', firstFailure w request nodes net = some answer ∧ answered answer = false ∧
      broadcastLoop w request nodes net = (net', .ok (.inl answer)) := by
  induction nodes generalizing net with
  | nil => exact .inl ⟨rfl, net, [], rfl⟩
  | cons node rest ih =>
      unfold broadcastLoop firstFailure
      rw [Net.forward_bind]
      dsimp only
      cases hanswer : (w.forward net node request).2 with
      | none => exact .inr ⟨none, _, rfl, rfl, rfl⟩
      | some response =>
          by_cases h200 : response.statusCode = 200
          · have hanswered : answered (some response) = true := by simp [answered, h200]
            rw [if_pos hanswered]
            rcases ih (w.forward net node request).1 with
              ⟨hnone, net', payloads, hloop⟩ | ⟨answer, net', hsome, hfails, hloop⟩
            · refine .inl ⟨hnone, net', response.payload :: payloads, ?_⟩
              simp only [h200, ne_eq, not_true_eq_false, if_false]
              rw [Net.bind_of_ok hloop]
              rfl
            · refine .inr ⟨answer, net', hsome, hfails, ?_⟩
              simp only [h200, ne_eq, not_true_eq_false, if_false]
              rw [Net.bind_of_ok hloop]
              rfl
          · have hanswered : answered (some response) = false := by simp [answered, h200]
            refine .inr ⟨some response, (w.forward net node request).1, ?_, hanswered, ?_⟩
            · rw [hanswered]
              rfl
            · simp only [ne_eq, h200, not_false_eq_true, if_true]
              rfl

/-- **The broadcast returns the first failure**, or a success of its own. -/
theorem broadcastToStorageNodes_spec (w : World ν) (request : RequestEnvelope)
    (nodes : List StorageNodeEndpoint) (collectJson : Bool) (net : ν) :
    ∃ net', (firstFailure w request nodes net = none ∧ ∃ payload,
        broadcastToStorageNodes w nodes request collectJson net
          = (net', .ok (some ⟨200, payload⟩))) ∨
      ∃ answer, firstFailure w request nodes net = some answer ∧ answered answer = false ∧
        broadcastToStorageNodes w nodes request collectJson net = (net', .ok answer) := by
  unfold broadcastToStorageNodes
  rcases broadcastLoop_spec w request nodes net with
    ⟨hnone, net', payloads, hloop⟩ | ⟨answer, net', hsome, hfails, hloop⟩
  · refine ⟨net', .inl ⟨hnone, ?_⟩⟩
    rw [Net.bind_of_ok hloop]
    cases collectJson with
    | true => exact ⟨mergeJson payloads, rfl⟩
    | false => exact ⟨str "broadcast ok", rfl⟩
  · refine ⟨net', .inr ⟨answer, hsome, hfails, ?_⟩⟩
    rw [Net.bind_of_ok hloop]
    rfl

/-! ## §2. Broadcasts of the coordinator. -/

/-- The request is no command, is authorized and names a statement for a server
with storage nodes. -/
structure ReachesStatement (w : World ν) (ctx : RequestContext) (s : System ν)
    (request : RequestEnvelope) (statement : Statement) : Prop where
  noCluster : parseClusterCommand w ctx s request = none
  noAsync : parseAsyncCommand w s request = none
  noTelemetry : parseTelemetryCommand w ctx s request.payload = none
  noAuth : parseAuthCommand w.hmac s.server.accessController ctx.toAuthContext request = none
  parsed : parse request.payload = .ok statement
  authorized : authorizeRequest w ctx (s.server.withSession request.clientId) request statement = none
  nodes : s.server.storageNodes ≠ []

/-- The system in which the statement is executed. -/
def System.entered (s : System ν) (request : RequestEnvelope) : System ν :=
  { s with server := s.server.withSession request.clientId }

/-- `engine_.ExecuteSql` of the coordinator itself. -/
def executesLocally (ctx : RequestContext) (s : System ν) (request : RequestEnvelope) :
    Result QueryResult :=
  (s.server.executeAs ctx.env ctx.files request.clientId (s.server.session request.clientId)
    request.payload).2

/-- A broadcast that is no two-phase commit: a `USE` the coordinator has
executed itself, another statement for all nodes, or a SELECT without a node of
its own. -/
inductive IsBroadcast (w : World ν) (ctx : RequestContext) (s : System ν)
    (request : RequestEnvelope) : Statement → Prop where
  | metadata {statement : Statement} {result : QueryResult} :
      isMetadataStatement statement = true → shouldBroadcast statement = true →
      isMutatingStatement statement = false →
      executesLocally ctx (s.entered request) request = .ok result →
      IsBroadcast w ctx s request statement
  | rows {statement : Statement} : isMetadataStatement statement = false →
      shouldBroadcast statement = true → isMutatingStatement statement = false →
      IsBroadcast w ctx s request statement
  | select {stmt : SelectStatement} :
      routeNodeIndex w.hashes (schemaView s.server.engine.runtimeState)
        ((s.entered request).server.session request.clientId) s.server.storageNodes.length
        (.select stmt) = .ok none →
      IsBroadcast w ctx s request (.select stmt)

theorem handleRequest_statement {w : World ν} {ctx : RequestContext} {s : System ν}
    {request : RequestEnvelope} {statement : Statement}
    (h : ReachesStatement w ctx s request statement) :
    handleRequest w ctx s request = executeStatement w ctx (s.entered request) request statement := by
  unfold handleRequest handleSql
  rw [h.noCluster, h.noAsync, h.noTelemetry, h.noAuth, h.parsed]
  dsimp only
  rw [h.authorized]
  rfl

/-- The client hears of a failed node: an answer of 200 only where every node
answered with 200, another status where one did not. -/
def NotMasked (failure : Option (Option ResponseEnvelope)) (answer : Option ResponseEnvelope) :
    Prop :=
  (answered answer = true → failure = none) ∧
  (failure ≠ none → ∃ response, answer = some response ∧ response.statusCode ≠ 200)

/-- The only statement of this kind is `USE`, which is metadata. -/
theorem metadata_of_broadcast {statement : Statement} (hall : shouldBroadcast statement = true)
    (hquiet : isMutatingStatement statement = false) :
    isMetadataStatement statement = true := by
  cases statement with
  | useDatabase name => rfl
  | select stmt => cases hall
  | unknown raw => cases hall
  | _ => cases hquiet

/-- A computation on the nodes that ends, answered by `f`. -/
theorem onNet_of_ok {α : Type} {x : Net ν α} {net net' : ν} {a : α} (h : x net = (net', .ok a))
    (server : EntrypointServer) (f : α → ResponseEnvelope) :
    (System.onNet ⟨server, net⟩ x f).2 = some (f a) := by
  rw [System.onNet, h]

/-- **A broadcast is answered with 200 unless a node could not be reached.** -/
theorem answered_broadcast {w : World ν} {ctx : RequestContext} {s : System ν}
    {request : RequestEnvelope} {statement : Statement}
    (h : ReachesStatement w ctx s request statement) (hb : IsBroadcast w ctx s request statement) :
    ∃ response, (handleRequest w ctx s request).2 = some response ∧
      (response.statusCode = 200 ↔
        firstFailure w request s.server.storageNodes s.net ≠ some none) := by
  have hnodes : (s.entered request).server.storageNodes ≠ [] := h.nodes
  rw [handleRequest_statement h, executeStatement, if_pos hnodes]
  cases hb with
  | rows hmeta hall hquiet =>
      rw [metadata_of_broadcast hall hquiet] at hmeta
      cases hmeta
  | @metadata _ result hmeta hall hquiet hlocal =>
      rw [if_pos hmeta]
      unfold executeMetadata
      dsimp only
      unfold executesLocally at hlocal
      rw [hlocal]
      dsimp only
      rw [hall, hquiet, if_neg (by decide), if_neg (by decide)]
      obtain ⟨net', ⟨hnone, payload, hsent⟩ | ⟨answer, hsome, hfails, hsent⟩⟩ :=
        broadcastToStorageNodes_spec w request s.server.storageNodes false s.net
      · refine ⟨_, onNet_of_ok hsent _ _, ?_⟩
        simp [hnone]
      · refine ⟨_, onNet_of_ok hsent _ _, ?_⟩
        rw [hsome]
        cases answer with
        | none => simp [refusal]
        | some response => simp
  | @select stmt hroute =>
      rw [if_neg (show isMetadataStatement (.select stmt) ≠ true by simp [isMetadataStatement])]
      unfold routeStatement
      dsimp only
      rw [if_neg (show shouldBroadcast (.select stmt) ≠ true by simp [shouldBroadcast])]
      have hindex : routeNodeIndex w.hashes (schemaView (s.entered request).server.engine.runtimeState)
          ((s.entered request).server.session request.clientId)
          (s.entered request).server.storageNodes.length (.select stmt) = .ok none := hroute
      rw [hindex]
      dsimp only
      rw [if_pos (show isSelectStatement (.select stmt) = true from rfl)]
      obtain ⟨net', ⟨hnone, payload, hsent⟩ | ⟨answer, hsome, hfails, hsent⟩⟩ :=
        broadcastToStorageNodes_spec w request s.server.storageNodes true s.net
      · refine ⟨_, onNet_of_ok hsent _ _, ?_⟩
        simp [hnone]
      · refine ⟨_, onNet_of_ok hsent _ _, ?_⟩
        rw [hsome]
        cases answer with
        | none => simp [refusal]
        | some response =>
            have hstatus : response.statusCode ≠ 200 := by simpa [answered] using hfails
            simp [hstatus]

/-- **A failed node is reported exactly when it could not be reached**: the
first node that does not answer with 200 has to be one that does not answer. -/
theorem broadcast_notMasked_iff {w : World ν} {ctx : RequestContext} {s : System ν}
    {request : RequestEnvelope} {statement : Statement}
    (h : ReachesStatement w ctx s request statement) (hb : IsBroadcast w ctx s request statement) :
    NotMasked (firstFailure w request s.server.storageNodes s.net)
        (handleRequest w ctx s request).2 ↔
      ∀ response, firstFailure w request s.server.storageNodes s.net ≠ some (some response) := by
  obtain ⟨answer, hanswer, hstatus⟩ := answered_broadcast h hb
  rw [hanswer]
  unfold NotMasked
  generalize firstFailure w request s.server.storageNodes s.net = failure at hstatus ⊢
  cases failure with
  | none => simp
  | some failed =>
      cases failed with
      | none =>
          have h502 : answer.statusCode ≠ 200 := by simpa using hstatus
          simp [answered, h502]
      | some response =>
          have h200 : answer.statusCode = 200 := by simpa using hstatus
          simp [answered, h200]

/-! ## §3. Two nodes. -/

/-- Two storage nodes. -/
def twoNodes : List StorageNodeEndpoint :=
  [⟨str "127.0.0.1", 4556, false, 0⟩, ⟨str "127.0.0.1", 4557, false, 0⟩]

/-- A coordinator of the two nodes, without accounts. -/
def coordinator : System Unit where
  server :=
    { engine := freshEngine
      jobQueue := ⟨[], Dict.empty, none⟩
      accessController := emptyController
      sessions := Dict.empty
      storageNodes := twoNodes
      pendingClusterTransactions := Dict.empty }
  net := ()

/-- The first node has no rows, the second gives the answer. -/
def secondAnswers (answer : Option ResponseEnvelope) : World Unit where
  forward := fun _ node _ => ((), if node.port = 4556 then some ⟨200, str "[]"⟩ else answer)
  newGuid := nodelessWorld.newGuid
  hashes := nodelessWorld.hashes
  hmac := nodelessWorld.hmac

/-- `SELECT * FROM d.t;` -/
def selectAll : RequestEnvelope := ⟨str "c", [], str "SELECT * FROM d.t;"⟩

/-- The statement of the request. -/
def selectAllStatement : SelectStatement :=
  ⟨⟨some (str "d"), str "t"⟩, [⟨true, [], none, none⟩], none⟩

theorem reachesStatement_selectAll (answer : Option ResponseEnvelope) :
    ReachesStatement (secondAnswers answer) quietContext coordinator selectAll
      (.select selectAllStatement) where
  noCluster := Option.isNone_iff_eq_none.mp rfl
  noAsync := Option.isNone_iff_eq_none.mp rfl
  noTelemetry := Option.isNone_iff_eq_none.mp rfl
  noAuth := Option.isNone_iff_eq_none.mp rfl
  parsed := by decide +kernel
  authorized := rfl
  nodes := by decide

theorem isBroadcast_selectAll (answer : Option ResponseEnvelope) :
    IsBroadcast (secondAnswers answer) quietContext coordinator selectAll
      (.select selectAllStatement) :=
  .select rfl

theorem broadcast_notMasked_unreachable :
    NotMasked (firstFailure (secondAnswers none) selectAll twoNodes ())
      (handleRequest (secondAnswers none) quietContext coordinator selectAll).2 :=
  (broadcast_notMasked_iff (reachesStatement_selectAll none) (isBroadcast_selectAll none)).mpr
    (by intro response hfailure; cases hfailure)

/-- **The second node has no such table, and the client gets 200.** -/
theorem fanOut_masks_error :
    let w := secondAnswers (some (refusal 400 .notFound (str "table not found")))
    ReachesStatement w quietContext coordinator selectAll (.select selectAllStatement) ∧
    IsBroadcast w quietContext coordinator selectAll (.select selectAllStatement) ∧
    (handleRequest w quietContext coordinator selectAll).2 = some ⟨200, []⟩ ∧
    ¬ NotMasked (firstFailure w selectAll twoNodes ())
      (handleRequest w quietContext coordinator selectAll).2 := by
  have hanswer : (handleRequest
      (secondAnswers (some (refusal 400 .notFound (str "table not found")))) quietContext
      coordinator selectAll).2 = some ⟨200, []⟩ := by decide +kernel
  refine ⟨reachesStatement_selectAll _, isBroadcast_selectAll _, hanswer, ?_⟩
  intro hmasked
  rw [hanswer] at hmasked
  have hnone := hmasked.1 rfl
  revert hnone
  decide +kernel

end CustomDbms.Server
