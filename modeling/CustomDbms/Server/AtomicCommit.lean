/-
  CustomDbms.Server.AtomicCommit
  ──────────────────────────────
  **WHEN A TWO-PHASE COMMIT IS ATOMIC.**

  PREPARE parses the statement and keeps it; it is executed by COMMIT.  A
  COMMIT that fails ends the second phase where it stands: the nodes before it
  have executed the statement, the nodes behind it have not and keep it
  pending.  Which of the two a node does is decided by the delivery of its two
  messages and by the run of its statement on the engine it has at the start.
-/
import CustomDbms.Server.TwoPhaseCommit

namespace CustomDbms.Server

open CustomDbms.Common CustomDbms.Lib CustomDbms.Parser CustomDbms.Catalog CustomDbms.Network
open CustomDbms.Execution CustomDbms.Core CustomDbms.Runtime

/-! ## §1. One node. -/

/-- A statement `CLUSTER PREPARE_TX` accepts. -/
def preparable (sql : Str) : Bool :=
  match parse sql with
  | .ok statement => !sql.isEmpty && isMutatingStatement statement
  | _ => false

/-- The run of a statement on a node, for a client. -/
def nodeRun (moment : Moment) (server : EntrypointServer) (clientId sql : Str) :
    DbmsEngine × SessionContext × Result QueryResult :=
  executeSql moment.context.env moment.context.files server.engine (server.session clientId) sql

/-- The node has the statement pending and is otherwise, for the client, as it
was. -/
structure Ready (clientId txId sql : Str) (before after : EntrypointServer) : Prop where
  engine : after.engine = before.engine
  session : after.session clientId = before.session clientId
  pending : after.pendingClusterTransactions.find? txId
    = some ⟨sql, clientId, (before.session clientId).currentDatabase⟩

theorem session_withSession (s : EntrypointServer) (clientId : Str) :
    (s.withSession clientId).session clientId = s.session clientId := by
  unfold EntrypointServer.withSession EntrypointServer.session
  cases hfind : s.sessions.find? clientId with
  | none =>
      dsimp only
      rw [Dict.find?_emplace hfind, if_pos rfl]
      rfl
  | some session =>
      dsimp only
      rw [Dict.emplace_of_find? hfind, hfind]

/-- **What PREPARE does on a node.** -/
theorem prepareTx_spec (s : EntrypointServer) (request : RequestEnvelope) {txId : Str}
    (hne : txId ≠ []) (hblank : blank ∉ txId) (sql : Str) :
    (preparable sql = true ∧
      answered (prepareTx s request (txId ++ str " " ++ sql)).2 = true ∧
      Ready request.clientId txId sql s (prepareTx s request (txId ++ str " " ++ sql)).1) ∨
    (preparable sql = false ∧
      answered (prepareTx s request (txId ++ str " " ++ sql)).2 = false ∧
      (prepareTx s request (txId ++ str " " ++ sql)).1 = s) := by
  have hcut : cut (byte ' ') (txId ++ str " " ++ sql) = some (txId, sql) := by
    rw [List.append_assoc]
    exact cut_append hblank sql
  unfold prepareTx preparable
  rw [hcut]
  dsimp only
  by_cases hsql : sql = []
  · rw [if_pos (.inr hsql)]
    refine .inr ⟨?_, rfl, rfl⟩
    rw [hsql]
    split <;> simp
  · rw [if_neg (by simp [hne, hsql])]
    cases hparse : parse sql with
    | error err => exact .inr ⟨rfl, rfl, rfl⟩
    | fault => exact .inr ⟨rfl, rfl, rfl⟩
    | ok statement =>
        dsimp only
        cases hmut : isMutatingStatement statement with
        | false => exact .inr ⟨by simp, rfl, rfl⟩
        | true =>
            refine .inl ⟨by simp [hsql], rfl, rfl, session_withSession s _, ?_⟩
            rw [if_neg (by decide)]
            dsimp only
            rw [Dict.find?_assign, if_pos rfl, session_withSession]

/-- **What COMMIT does on a node that has prepared.** -/
theorem commitTx_spec {clientId txId sql : Str} {before s : EntrypointServer}
    (h : Ready clientId txId sql before s) (hne : txId ≠ []) (moment : Moment) :
    (commitTx moment.context s txId).1.engine = (nodeRun moment before clientId sql).1 ∧
    (commitTx moment.context s txId).2
      = answerResult (nodeRun moment before clientId sql).2.2 sql QueryResult.message := by
  have hsession : ({ s with pendingClusterTransactions := s.pendingClusterTransactions.erase txId }
      : EntrypointServer).session clientId = before.session clientId := h.session
  unfold commitTx
  rw [if_neg hne, h.pending]
  dsimp only
  rw [hsession]
  unfold EntrypointServer.executeAs nodeRun
  dsimp only
  rw [h.engine]
  exact ⟨rfl, rfl⟩

theorem answered_answerResult (result : Result QueryResult) (sql : Str)
    (render : QueryResult → Str) : answered (answerResult result sql render) = result.isOk := by
  cases result with
  | ok value => rfl
  | error err => rfl
  | fault => rfl

/-! ## §2. Messages without others in between. -/

/-- The nodes hear from this coordinator only. -/
def Conditions.Undisturbed (c : Conditions) : Prop := ∀ k, (c.tick k).others = []

/-- The node handles the message sent at the tick. -/
def Conditions.arrives (c : Conditions) (k : Nat) : Bool := (c.tick k).delivery ≠ .lost

/-- The coordinator gets the answer to the message sent at the tick. -/
def Conditions.returns (c : Conditions) (k : Nat) : Bool := (c.tick k).delivery = .answered

section Forward

variable {c : Conditions} (hquiet : c.Undisturbed) (n : Nodes) (node : StorageNodeEndpoint)
  (request : RequestEnvelope)

include hquiet

/-- What the node makes of the request. -/
theorem forward_of_arrives (h : c.arrives n.clock = true) :
    (n.forward c node request).1.servers = Function.update n.servers node.endpoint
        (handleAt c (c.tick n.clock).moment (n.servers node.endpoint) request).1 ∧
    (n.forward c node request).1.executed = n.executed ++
      ((committedBy (n.servers node.endpoint) request).map fun p =>
        (⟨node.endpoint, p.1, p.2.sql, answered
          (handleAt c (c.tick n.clock).moment (n.servers node.endpoint) request).2⟩ :
            Execution)).toList := by
  unfold Nodes.forward
  simp only [hquiet n.clock, Nodes.handleAll, Nodes.deliver]
  cases hd : (c.tick n.clock).delivery with
  | lost => simp [Conditions.arrives, hd] at h
  | unanswered => exact ⟨rfl, rfl⟩
  | answered => exact ⟨rfl, rfl⟩

theorem forward_of_lost (h : c.arrives n.clock = false) :
    (n.forward c node request).1.servers = n.servers ∧
    (n.forward c node request).1.executed = n.executed := by
  unfold Nodes.forward
  simp only [hquiet n.clock, Nodes.handleAll, Nodes.deliver]
  cases hd : (c.tick n.clock).delivery with
  | lost => exact ⟨rfl, rfl⟩
  | unanswered => simp [Conditions.arrives, hd] at h
  | answered => simp [Conditions.arrives, hd] at h

theorem forward_clock : (n.forward c node request).1.clock = n.clock + 1 := by
  unfold Nodes.forward
  simp only [hquiet n.clock, Nodes.handleAll, Nodes.deliver]
  cases (c.tick n.clock).delivery with
  | lost => rfl
  | unanswered => rfl
  | answered => rfl

theorem forward_answer : answered (n.forward c node request).2 = (c.returns n.clock &&
    answered (handleAt c (c.tick n.clock).moment (n.servers node.endpoint) request).2) := by
  unfold Nodes.forward Conditions.returns
  simp only [hquiet n.clock, Nodes.handleAll, Nodes.deliver]
  cases hd : (c.tick n.clock).delivery with
  | lost => rfl
  | unanswered => rfl
  | answered => rfl

end Forward

theorem arrives_of_returns {c : Conditions} {k : Nat} (h : c.returns k = true) :
    c.arrives k = true := by
  have hd : (c.tick k).delivery = .answered := by simpa [Conditions.returns] using h
  simp [Conditions.arrives, hd]

/-! ## §3. The first phase. -/

/-- Every PREPARE is answered and its statement accepted. -/
def allPrepared (c : Conditions) : Nat → List (StorageNodeEndpoint × Str) → Bool
  | _, [] => true
  | k, p :: rest => c.returns k && preparable p.2 && allPrepared c (k + 1) rest

section Phases

variable {c : Conditions} (hquiet : c.Undisturbed) {txId : Str} (hne : txId ≠ [])
  (hblank : blank ∉ txId) (request : RequestEnvelope)

include hquiet

/-- A request that leaves the engine of every node. -/
theorem engine_forward (node : StorageNodeEndpoint) {r : RequestEnvelope}
    (hr : ∀ moment server, (handleAt c moment server r).1.engine = server.engine) (n : Nodes)
    (e : Endpoint) : ((n.forward c node r).1.servers e).engine = (n.servers e).engine := by
  cases harrives : c.arrives n.clock with
  | false => rw [(forward_of_lost hquiet n node r harrives).1]
  | true =>
      rw [(forward_of_arrives hquiet n node r harrives).1]
      by_cases he : e = node.endpoint
      · rw [he, Function.update_self, hr]
      · rw [Function.update_of_ne he]

theorem abortLoop_engine (txId : Str) (l : List (StorageNodeEndpoint × Str)) (n : Nodes) :
    ∃ n', abortLoop (clusterWorld c) request txId l n = (n', .ok ()) ∧
      ∀ e, (n'.servers e).engine = (n.servers e).engine := by
  induction l generalizing n with
  | nil => exact ⟨n, rfl, fun _ => rfl⟩
  | cons p l ih =>
      have habort : ∀ moment server,
          (handleAt c moment server (abortRequest request txId)).1.engine = server.engine := by
        intro moment server
        unfold handleAt
        rw [handleRequest_abort]
        unfold abortTx
        dsimp only
        split
        · rfl
        · rfl
      obtain ⟨n', hloop, hengine⟩ := ih (n.forward c p.1 (abortRequest request txId)).1
      refine ⟨n', ?_, fun e => (hengine e).trans (engine_forward hquiet p.1 habort n e)⟩
      rw [abortLoop, Net.forward_bind]
      exact hloop

include hne hblank

/-- **The first phase**: no engine changes; where all have prepared, each node
of the list has its statement pending. -/
theorem prepareLoop_spec {l : List (StorageNodeEndpoint × Str)}
    (hdistinct : (l.map fun p => p.1.endpoint).Nodup)
    (done : List (StorageNodeEndpoint × Str)) (n : Nodes) :
    ∃ n', prepareLoop (clusterWorld c) request txId done l n
        = (n', .ok (allPrepared c n.clock l)) ∧
      (∀ e, (n'.servers e).engine = (n.servers e).engine) ∧
      (allPrepared c n.clock l = true → n'.clock = n.clock + l.length ∧
        n'.executed = n.executed ∧
        (∀ e, e ∉ l.map (fun p => p.1.endpoint) → n'.servers e = n.servers e) ∧
        ∀ p ∈ l, Ready request.clientId txId p.2 (n.servers p.1.endpoint)
          (n'.servers p.1.endpoint)) := by
  induction l generalizing done n with
  | nil => exact ⟨n, rfl, fun _ => rfl, fun _ => ⟨rfl, rfl, fun _ _ => rfl, fun p hp => by cases hp⟩⟩
  | cons p l ih =>
      obtain ⟨node, sql⟩ := p
      rw [List.map_cons, List.nodup_cons] at hdistinct
      have hhandle : ∀ moment server,
          handleAt c moment server (prepareRequest request txId sql)
            = prepareTx server (prepareRequest request txId sql) (txId ++ str " " ++ sql) := by
        intro moment server
        unfold handleAt
        rw [handleRequest_prepare]
      have hspec := fun server => prepareTx_spec server (prepareRequest request txId sql) hne hblank sql
      have hengine : ∀ moment server,
          (handleAt c moment server (prepareRequest request txId sql)).1.engine = server.engine := by
        intro moment server
        rw [hhandle]
        rcases hspec server with ⟨-, -, hready⟩ | ⟨-, -, hsame⟩
        · exact hready.engine
        · rw [hsame]
      have hanswer := forward_answer hquiet n node (prepareRequest request txId sql)
      have hclock := forward_clock hquiet n node (prepareRequest request txId sql)
      have hsame := engine_forward hquiet node hengine n
      rw [hhandle] at hanswer
      rw [prepareLoop, Net.forward_bind]
      show ∃ n', (if answered (n.forward c node (prepareRequest request txId sql)).2
        then _ else _ : Net Nodes Bool) (n.forward c node (prepareRequest request txId sql)).1
          = (n', .ok (allPrepared c n.clock ((node, sql) :: l))) ∧ _
      rw [hanswer]
      cases hgood : (c.returns n.clock && preparable sql) with
      | false =>
          -- the coordinator gives up and aborts what has been prepared
          have hfails : (c.returns n.clock && answered (prepareTx (n.servers node.endpoint)
              (prepareRequest request txId sql) (txId ++ str " " ++ sql)).2) = false := by
            rcases hspec (n.servers node.endpoint) with ⟨hp, ha, -⟩ | ⟨hp, ha, -⟩
            · rw [ha, ← hp]
              exact hgood
            · rw [ha, Bool.and_false]
          have hprepared : allPrepared c n.clock ((node, sql) :: l) = false := by
            rw [allPrepared, hgood, Bool.false_and]
          rw [hfails, hprepared]
          obtain ⟨n', hloop, hkept⟩ := abortLoop_engine hquiet request txId done
            (n.forward c node (prepareRequest request txId sql)).1
          refine ⟨n', ?_, fun e => (hkept e).trans (hsame e), fun h => by cases h⟩
          rw [if_neg (by decide), Net.bind_of_ok hloop]
          rfl
      | true =>
          obtain ⟨hreturns, hpreparable⟩ := Bool.and_eq_true_iff.mp hgood
          rcases hspec (n.servers node.endpoint) with ⟨-, ha, hready⟩ | ⟨hp, -, -⟩
          swap
          · rw [hp] at hpreparable
            cases hpreparable
          have hservers := (forward_of_arrives hquiet n node (prepareRequest request txId sql)
            (arrives_of_returns hreturns))
          rw [hhandle, committedBy_prepare] at hservers
          have hprepared : allPrepared c n.clock ((node, sql) :: l)
              = allPrepared c (n.clock + 1) l := by
            rw [allPrepared, hgood, Bool.true_and]
          obtain ⟨n', hloop, hkept, hrest⟩ := ih hdistinct.2 (done ++ [(node, sql)])
            (n.forward c node (prepareRequest request txId sql)).1
          rw [hclock] at hloop hrest
          rw [ha, hreturns, hprepared]
          refine ⟨n', hloop, fun e => (hkept e).trans (hsame e), fun hall => ?_⟩
          obtain ⟨hclock', hexec, hother, hall'⟩ := hrest hall
          refine ⟨?_, ?_, ?_, ?_⟩
          · rw [hclock', List.length_cons]
            omega
          · rw [hexec, hservers.2]
            simp
          · intro e he
            rw [List.map_cons, List.mem_cons, not_or] at he
            rw [hother e he.2, hservers.1, Function.update_of_ne he.1]
          · intro p hp
            rcases List.mem_cons.mp hp with rfl | hp
            · rw [hother _ hdistinct.1, hservers.1, Function.update_self]
              exact hready
            · have hne' : p.1.endpoint ≠ node.endpoint := by
                intro heq
                exact hdistinct.1 (heq ▸ List.mem_map_of_mem hp)
              have hp' := hall' p hp
              rw [hservers.1, Function.update_of_ne hne'] at hp'
              exact hp'

omit hblank

/-! ## §4. The second phase. -/

/-- Every node executes its statement: the COMMITs arrive, the statements
succeed, and all but the last are answered. -/
def allExecuted (c : Conditions) (servers : Endpoint → EntrypointServer) (clientId : Str) :
    Nat → List (StorageNodeEndpoint × Str) → Prop
  | _, [] => True
  | k, p :: rest =>
      c.arrives k = true ∧
      (nodeRun (c.tick k).moment (servers p.1.endpoint) clientId p.2).2.2.isOk = true ∧
      (rest ≠ [] → c.returns k = true) ∧ allExecuted c servers clientId (k + 1) rest

instance decidableAllExecuted (c : Conditions) (servers : Endpoint → EntrypointServer)
    (clientId : Str) : ∀ (k : Nat) (l : List (StorageNodeEndpoint × Str)),
      Decidable (allExecuted c servers clientId k l)
  | _, [] => isTrue trivial
  | k, p :: rest =>
      have := decidableAllExecuted c servers clientId (k + 1) rest
      inferInstanceAs (Decidable (c.arrives k = true ∧
        (nodeRun (c.tick k).moment (servers p.1.endpoint) clientId p.2).2.2.isOk = true ∧
        (rest ≠ [] → c.returns k = true) ∧ allExecuted c servers clientId (k + 1) rest))

end Phases

/-! ## §5. Atomicity. -/

end CustomDbms.Server
