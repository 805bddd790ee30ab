/-
  CustomDbms.Server.ClusterRuns
  ─────────────────────────────
  **WHAT A REQUEST LEAVES ON THE NODES.**

  A two-phase commit runs its statements on the engines of its nodes, each at
  most once; a forwarded statement runs on the engine of its node.  With
  healthy nodes every statement that succeeds where it is run is answered with
  200.
-/
import CustomDbms.Server.SqlRequests

namespace CustomDbms.Server

open CustomDbms.Common CustomDbms.Lib CustomDbms.Parser CustomDbms.Catalog CustomDbms.Network
open CustomDbms.Execution CustomDbms.Core CustomDbms.Runtime

/-! ## §1. Healthy nodes. -/

/-- Every node is reached, writes its files and answers, with one library of
regular expressions, and nobody else talks to the nodes. -/
structure Conditions.Healthy (c : Conditions) (re : RegexMatch) : Prop where
  quiet : c.Undisturbed
  delivered : ∀ k, (c.tick k).delivery = .answered
  files : ∀ k, (c.tick k).moment.context.files = Io.good
  regex : ∀ k, (c.tick k).moment.context.env.regexMatch = re

theorem Conditions.Healthy.returns {c : Conditions} {re : RegexMatch} (h : c.Healthy re) (k : Nat) :
    c.returns k = true := by
  simp [Conditions.returns, h.delivered k]

theorem Conditions.Healthy.arrives {c : Conditions} {re : RegexMatch} (h : c.Healthy re) (k : Nat) :
    c.arrives k = true :=
  arrives_of_returns (h.returns k)

/-- **A healthy node answers for itself.** -/
theorem forward_healthy {c : Conditions} {re : RegexMatch} (h : c.Healthy re) (n : Nodes)
    (node : StorageNodeEndpoint) (request : RequestEnvelope) :
    (n.forward c node request).2
      = (handleAt c (c.tick n.clock).moment (n.servers node.endpoint) request).2 := by
  unfold Nodes.forward
  simp only [h.quiet n.clock, Nodes.handleAll, Nodes.deliver, h.delivered n.clock]
  rfl

/-! ## §2. The second phase. -/

/-- A node of the list has run its statement, with success. -/
def HasRun (c : Conditions) (servers : Endpoint → EntrypointServer) (clientId : Str) (n : Nodes)
    (p : StorageNodeEndpoint × Str) : Prop :=
  ∃ k, (n.servers p.1.endpoint).engine
      = (nodeRun (c.tick k).moment (servers p.1.endpoint) clientId p.2).1 ∧
    (nodeRun (c.tick k).moment (servers p.1.endpoint) clientId p.2).2.2.isOk = true

/-- A node of the list has its engine, or has run its statement. -/
def MayHaveRun (c : Conditions) (servers : Endpoint → EntrypointServer) (clientId : Str)
    (n : Nodes) (p : StorageNodeEndpoint × Str) : Prop :=
  (n.servers p.1.endpoint).engine = (servers p.1.endpoint).engine ∨
  ∃ k, (n.servers p.1.endpoint).engine
    = (nodeRun (c.tick k).moment (servers p.1.endpoint) clientId p.2).1

section Phases

variable {c : Conditions} (hquiet : c.Undisturbed) {txId : Str} (hne : txId ≠ [])
  (request : RequestEnvelope)

include hquiet hne

/-- **The second phase runs statements of the list on their nodes**, and goes
to the end unless a message is lost or a statement fails. -/
theorem commitLoop_runsOn {servers : Endpoint → EntrypointServer}
    {l : List (StorageNodeEndpoint × Str)} (hdistinct : (l.map fun p => p.1.endpoint).Nodup)
    (n : Nodes)
    (hready : ∀ p ∈ l, Ready request.clientId txId p.2 (servers p.1.endpoint)
      (n.servers p.1.endpoint)) :
    ∃ n' done, commitLoop (clusterWorld c) request txId l n = (n', .ok done) ∧
      (∀ e, e ∉ l.map (fun p => p.1.endpoint) → n'.servers e = n.servers e) ∧
      (∀ p ∈ l, MayHaveRun c servers request.clientId n' p) ∧
      (done = true → ∀ p ∈ l, HasRun c servers request.clientId n' p) ∧
      (done = false → ∃ p ∈ l, ∃ k, (n.clock ≤ k ∧ k < n.clock + l.length) ∧
        (c.returns k = false ∨ (nodeRun (c.tick k).moment (servers p.1.endpoint)
          request.clientId p.2).2.2.isOk = false)) := by
  induction l generalizing n with
  | nil =>
      refine ⟨n, true, rfl, fun _ _ => rfl, ?_, ?_, fun h => by cases h⟩
      · exact fun p hp => by cases hp
      · exact fun _ p hp => by cases hp
  | cons p l ih =>
      obtain ⟨node, sql⟩ := p
      rw [List.map_cons, List.nodup_cons] at hdistinct
      have hnode := hready (node, sql) (by simp)
      have hapart : ∀ p ∈ l, p.1.endpoint ≠ node.endpoint := by
        intro p hp heq
        exact hdistinct.1 (heq ▸ List.mem_map_of_mem hp)
      obtain ⟨hengine, hresult⟩ := commitTx_spec hnode hne (c.tick n.clock).moment
      have hhandle : handleAt c (c.tick n.clock).moment (n.servers node.endpoint)
          (commitRequest request txId)
            = commitTx (c.tick n.clock).moment.context (n.servers node.endpoint) txId := by
        unfold handleAt
        rw [handleRequest_commit]
      have hanswer := forward_answer hquiet n node (commitRequest request txId)
      rw [hhandle, hresult, answered_answerResult] at hanswer
      -- what the message does to the servers
      have hother : ∀ e, e ≠ node.endpoint →
          (n.forward c node (commitRequest request txId)).1.servers e = n.servers e := by
        intro e he
        cases harrives : c.arrives n.clock with
        | false => rw [(forward_of_lost hquiet n node _ harrives).1]
        | true =>
            rw [(forward_of_arrives hquiet n node _ harrives).1, Function.update_of_ne he]
      have hself : MayHaveRun c servers request.clientId
          (n.forward c node (commitRequest request txId)).1 (node, sql) := by
        cases harrives : c.arrives n.clock with
        | false =>
            refine .inl ?_
            rw [(forward_of_lost hquiet n node _ harrives).1]
            exact hnode.engine
        | true =>
            refine .inr ⟨n.clock, ?_⟩
            rw [(forward_of_arrives hquiet n node _ harrives).1, Function.update_self, hhandle]
            exact hengine
      rw [commitLoop, Net.forward_bind]
      show ∃ n' done, (if answered (n.forward c node (commitRequest request txId)).2
        then _ else _ : Net Nodes Bool) (n.forward c node (commitRequest request txId)).1
          = (n', .ok done) ∧ _
      rw [hanswer]
      cases hgood : (c.returns n.clock && (nodeRun (c.tick n.clock).moment (servers node.endpoint)
          request.clientId sql).2.2.isOk) with
      | false =>
          rw [if_neg (by decide)]
          refine ⟨_, false, rfl, fun e he => ?_, fun p hp => ?_, fun h => (by cases h),
            fun _ => ⟨(node, sql), by simp, n.clock, by simp, ?_⟩⟩
          · rw [List.map_cons, List.mem_cons, not_or] at he
            exact hother e he.1
          · rcases List.mem_cons.mp hp with rfl | hp
            · exact hself
            · refine .inl ?_
              rw [hother _ (hapart p hp)]
              exact (hready p (by simp [hp])).engine
          · exact Bool.and_eq_false_iff.mp hgood
      | true =>
          obtain ⟨hreturns, hisOk⟩ := Bool.and_eq_true_iff.mp hgood
          obtain ⟨n', done, hloop, hrest, hmay, hdone, hfail⟩ := ih hdistinct.2
            (n.forward c node (commitRequest request txId)).1
            (fun q hq => by rw [hother _ (hapart q hq)]; exact hready q (by simp [hq]))
          rw [forward_clock hquiet] at hfail
          have hkept := hrest node.endpoint hdistinct.1
          have hran : HasRun c servers request.clientId n' (node, sql) := by
            refine ⟨n.clock, ?_, hisOk⟩
            rw [hkept, (forward_of_arrives hquiet n node _ (arrives_of_returns hreturns)).1,
              Function.update_self, hhandle]
            exact hengine
          rw [if_pos rfl]
          refine ⟨n', done, hloop, fun e he => ?_, fun p hp => ?_, fun h p hp => ?_, fun h => ?_⟩
          · rw [List.map_cons, List.mem_cons, not_or] at he
            rw [hrest e he.2, hother e he.1]
          · rcases List.mem_cons.mp hp with rfl | hp
            · exact .inr ⟨_, hran.choose_spec.1⟩
            · exact hmay p hp
          · rcases List.mem_cons.mp hp with rfl | hp
            · exact hran
            · exact hdone h p hp
          · obtain ⟨p, hp, k, ⟨hfrom, hto⟩, hk⟩ := hfail h
            refine ⟨p, by simp [hp], k, ⟨by omega, ?_⟩, hk⟩
            rw [List.length_cons]
            omega

end Phases

/-! ## §3. A whole two-phase commit. -/

/-- **What `ExecuteTwoPhaseCommit` leaves**: other nodes are as they were, the
nodes of the list have run their statement or have their engine, all of them
have run it where the answer is 200, and where it is not some message was lost
or some statement failed. -/
theorem twoPhaseCommit_runsOn {c : Conditions} (hquiet : c.Undisturbed)
    {prepared : List (StorageNodeEndpoint × Str)} (request : RequestEnvelope)
    (hdistinct : (prepared.map fun p => p.1.endpoint).Nodup) (n : Nodes) :
    ∃ n' response, executeTwoPhaseCommit (clusterWorld c) prepared request n
        = (n', .ok response) ∧
      (∀ e, e ∉ prepared.map (fun p => p.1.endpoint) →
        (n'.servers e).engine = (n.servers e).engine) ∧
      (∀ p ∈ prepared, MayHaveRun c n.servers request.clientId n' p) ∧
      (response ≠ none → response = some ⟨200, str "2pc committed"⟩ ∧
        ∀ p ∈ prepared, HasRun c n.servers request.clientId n' p) ∧
      (response = none → ∃ p ∈ prepared, preparable p.2 = false ∨
        ∃ k, (n.clock ≤ k ∧ k < n.clock + 2 * prepared.length) ∧ (c.returns k = false ∨
          n.clock + prepared.length ≤ k ∧ (nodeRun (c.tick k).moment (n.servers p.1.endpoint)
            request.clientId p.2).2.2.isOk = false)) := by
  generalize htx : newGuidV4 (c.drawn n.guids) = txId
  have hne : txId ≠ [] := by
    rw [← htx]
    exact newGuidV4_ne_nil _
  have hblank : blank ∉ txId := by
    rw [← htx]
    exact blank_not_mem_newGuidV4 _
  have hfailed : ∀ (l : List (StorageNodeEndpoint × Str)) k, allPrepared c k l = false →
      ∃ p ∈ l, preparable p.2 = false ∨ ∃ i < l.length, c.returns (k + i) = false := by
    intro l
    induction l with
    | nil => exact fun k h => by cases h
    | cons p l ih =>
        intro k h
        rw [allPrepared, Bool.and_eq_false_iff, Bool.and_eq_false_iff] at h
        rcases h with (h | h) | h
        · exact ⟨p, by simp, .inr ⟨0, by simp, h⟩⟩
        · exact ⟨p, by simp, .inl h⟩
        · obtain ⟨q, hq, hbad | ⟨i, hi, hk⟩⟩ := ih _ h
          · exact ⟨q, by simp [hq], .inl hbad⟩
          · refine ⟨q, by simp [hq], .inr ⟨i + 1, by simp [hi], ?_⟩⟩
            rw [show k + (i + 1) = k + 1 + i by omega]
            exact hk
  obtain ⟨n₁, hprepare, hkept, hready⟩ := prepareLoop_spec hquiet hne hblank request hdistinct []
    { n with guids := n.guids + 1 }
  have hguid : ((clusterWorld c).newGuid n).2 = txId := htx
  cases hall : allPrepared c n.clock prepared with
  | false =>
      rw [hall, ← hguid] at hprepare
      refine ⟨n₁, none, executeTwoPhaseCommit_refused hprepare, fun e _ => hkept e,
        fun p _ => .inl (hkept _), fun h => absurd rfl h, fun _ => ?_⟩
      obtain ⟨p, hp, hbad | ⟨i, hi, hk⟩⟩ := hfailed prepared _ hall
      · exact ⟨p, hp, .inl hbad⟩
      · exact ⟨p, hp, .inr ⟨n.clock + i, ⟨by omega, by omega⟩, .inl hk⟩⟩
  | true =>
      obtain ⟨hclock, -, hothers, hpending⟩ := hready hall
      obtain ⟨n₂, done, hcommit, hrest, hmay, hdone, hfail⟩ :=
        commitLoop_runsOn hquiet hne request hdistinct n₁ hpending
      rw [hall, ← hguid] at hprepare
      rw [← hguid] at hcommit
      rw [executeTwoPhaseCommit_prepared hprepare hcommit]
      have hengine : ∀ e, e ∉ prepared.map (fun p => p.1.endpoint) →
          (n₂.servers e).engine = (n.servers e).engine := by
        intro e he
        rw [hrest e he, hothers e he]
      cases done with
      | true =>
          exact ⟨n₂, _, rfl, hengine, hmay, fun _ => ⟨rfl, hdone rfl⟩, fun h => by cases h⟩
      | false =>
          refine ⟨n₂, _, rfl, hengine, hmay, fun h => absurd rfl h, fun _ => ?_⟩
          obtain ⟨p, hp, k, ⟨hfrom, hto⟩, hk⟩ := hfail rfl
          rw [hclock] at hfrom hto
          dsimp only at hfrom hto
          exact ⟨p, hp, .inr ⟨k, ⟨by omega, by omega⟩, hk.imp_right fun h => ⟨hfrom, h⟩⟩⟩

end CustomDbms.Server
